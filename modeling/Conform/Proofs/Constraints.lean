import Conform.Schema.Projection

set_option autoImplicit false

/-!
# What a pipeline contributes to a schema

A schema is given the operations of a pipeline one after the other, and each adds to what those
before it contributed.  What comes of it can be told at once: the keywords are those of the checks
that keywords show, where of two checks for one keyword the later one is shown, and the list has an
entry for each of the other checks, in order.

## Main definitions

* `Conform.Operation.Summary.shown?` — the keyword that shows an operation, with its value.
* `Conform.Operation.Summary.listed?` — the entry of an operation in the list of checks.

## Main results

* `Conform.Schema.ofSummaries_eq` — what operations contribute.
* `Conform.Schema.get?_keywords_of_last` — the last check for a keyword is the one that it shows.
-/

namespace Conform

open Schema

namespace Operation.Summary

/-- The keyword that shows an operation, with its value: the operation is a check that need not be
awaited, its name stands for the keyword, and the value is its parameter. -/
def shown? : Operation.Summary → Option (String × Value)
  | check name _ (some value) => (keyword? name).map fun keyword => (keyword, value)
  | _ => none

/-- The entry of an operation in the list of checks: the operation is a check that no keyword
shows. -/
def listed? : Operation.Summary → Option Value
  | check name message param =>
    if (keyword? name).isSome && param.isSome then none
    else some (Constraints.listed name message false)
  | asyncCheck name message => some (Constraints.listed name message true)
  | transformation => none

/-- The keyword of a check that is shown is that of its name, and the value is its parameter. -/
theorem shown?_eq_some_iff {summary : Operation.Summary} {keyword : String} {value : Value} :
    summary.shown? = some (keyword, value) ↔ ∃ name message,
      summary = check name message (some value) ∧ keyword? name = some keyword := by
  cases summary with
  | check name message param =>
    cases param with
    | none => simp [shown?]
    | some argument =>
      simp only [shown?, Option.map_eq_some_iff, Prod.mk.injEq, check.injEq, Option.some.injEq]
      constructor
      · rintro ⟨_, hk, rfl, rfl⟩
        exact ⟨name, message, ⟨rfl, rfl, rfl⟩, hk⟩
      · rintro ⟨_, _, ⟨rfl, rfl, rfl⟩, hk⟩
        exact ⟨_, hk, rfl, rfl⟩
  | _ => simp [shown?]

end Operation.Summary

namespace Schema

variable {summaries : List Operation.Summary}

/-- One operation is shown by a keyword, or listed, or neither. -/
theorem add_eq (constraints : Constraints) (summary : Operation.Summary) :
    constraints.add summary
      = ⟨summary.shown?.toList.foldl
            (fun members member => Members.insert members member.1 member.2) constraints.keywords,
          constraints.unmapped ++ summary.listed?.toList⟩ := by
  cases summary with
  | check name message param =>
    cases hk : keyword? name with
    | none =>
      cases param <;>
        simp [Constraints.add, Operation.Summary.shown?, Operation.Summary.listed?, hk]
    | some keyword =>
      cases param <;>
        simp [Constraints.add, Operation.Summary.shown?, Operation.Summary.listed?, hk]
  | asyncCheck name message =>
    simp [Constraints.add, Operation.Summary.shown?, Operation.Summary.listed?]
  | transformation =>
    simp [Constraints.add, Operation.Summary.shown?, Operation.Summary.listed?]

/-- **What operations contribute**: the keywords that show some of them, each written over those
before it, and the entries of the others.

**Proof sketch.** Induction on the operations, for any constraints that they are added to. -/
theorem ofSummaries_eq (summaries : List Operation.Summary) :
    Constraints.ofSummaries summaries
      = ⟨Members.ofList (summaries.filterMap Operation.Summary.shown?),
          summaries.filterMap Operation.Summary.listed?⟩ := by
  suffices hadded : ∀ constraints : Constraints,
      summaries.foldl Constraints.add constraints
        = ⟨(summaries.filterMap Operation.Summary.shown?).foldl
              (fun members member => Members.insert members member.1 member.2)
              constraints.keywords,
            constraints.unmapped ++ summaries.filterMap Operation.Summary.listed?⟩ from
    hadded .nothing
  induction summaries with
  | nil => simp
  | cons summary rest ih =>
    intro constraints
    rw [List.foldl_cons, ih, add_eq]
    cases hs : summary.shown? <;> cases hl : summary.listed? <;> simp [hs, hl]

/-- A keyword is looked up among the checks that keywords show, the last one first. -/
theorem get?_keywords_eq (summaries : List Operation.Summary) (name : String) :
    Members.get? (Constraints.ofSummaries summaries).keywords name
      = Members.get? (summaries.filterMap Operation.Summary.shown?).reverse name := by
  rw [ofSummaries_eq]
  exact Members.get?_ofList _ name

/-- A keyword and its value come from a check that they show. -/
theorem exists_shown_of_mem {member : String × Value}
    (h : member ∈ (Constraints.ofSummaries summaries).keywords) :
    ∃ summary ∈ summaries, summary.shown? = some member := by
  rw [ofSummaries_eq] at h
  exact List.mem_filterMap.mp (Members.mem_ofList h)

/-- A keyword that shows no check is not there. -/
theorem get?_keywords_eq_none {name : String}
    (h : ∀ summary ∈ summaries, ∀ value, summary.shown? ≠ some (name, value)) :
    Members.get? (Constraints.ofSummaries summaries).keywords name = none := by
  refine Members.get?_eq_none_of_notMem fun hmem => ?_
  obtain ⟨⟨_, value⟩, hmember, rfl⟩ := List.mem_map.mp hmem
  obtain ⟨summary, hsummary, hshown⟩ := exists_shown_of_mem hmember
  exact h summary hsummary value hshown

/-- **The last check for a keyword is the one that it shows**, and the same goes for any other with
the parameter of the last one. -/
theorem get?_keywords_of_last {before after : List Operation.Summary} {summary : Operation.Summary}
    {keyword : String} {value : Value} (hs : summary.shown? = some (keyword, value))
    (hlast : ∀ later ∈ after, ∀ value', later.shown? = some (keyword, value') → value' = value) :
    Members.get? (Constraints.ofSummaries (before ++ summary :: after)).keywords keyword
      = some value := by
  rw [get?_keywords_eq, List.filterMap_append, List.filterMap_cons_some hs, List.reverse_append,
    List.reverse_cons, Members.get?_append, Members.get?_append]
  cases hafter : Members.get? (after.filterMap Operation.Summary.shown?).reverse keyword with
  | none => simp [Members.get?]
  | some value' =>
    have hmem := List.mem_reverse.mp (Members.mem_of_get? hafter)
    obtain ⟨later, hlater, hshown⟩ := List.mem_filterMap.mp hmem
    rw [hlast later hlater value' hshown, Option.some_or, Option.some_or]

end Schema

end Conform
