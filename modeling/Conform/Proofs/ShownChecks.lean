import Conform.Proofs.EmbeddedSchemas
import Conform.Validator.Refinement

set_option autoImplicit false

/-!
# Checks in the schema of their own validator

A schema can represent a check of the validator in two ways: under the keyword that its name stands
for, with its parameter, or by an entry in the list of checks.  A leaf, a list, a nullable, a tuple
and a union constrain their own schema, and nothing but the operations writes keywords over it or
puts a list there.  So the list has exactly the checks without a keyword or a parameter, in order,
however many of them have one name.

A keyword can be there only once.  Of several checks for one keyword the last one is shown; one of
those before it with another parameter is enforced as well, but it is neither shown nor listed.

## Main definitions

* `Conform.Schema.checks` — the list of checks in a schema.
* `Conform.Operation.Summary.Represented` — a schema represents a check.
* `Conform.Operation.Summary.Supersedes` — a later check takes the keyword of an earlier one.
* `Conform.Schema.ShowsChecks` — what a schema shows of the checks of a pipeline.
* `Conform.Validator.isDirect` — the operations of a validator constrain its schema as a whole.

## Main results

* `Conform.Schema.showsChecks_layOver` — what constraints laid over an object show.
* `Conform.Schema.ShowsChecks.represented`, `Conform.Schema.ShowsChecks.not_represented` — which
  checks are represented.
* `Conform.Validator.exists_described` — how the schema of such a validator comes about.
* `Conform.Validator.own_checks_shown` — what becomes of a validator's own checks.
-/

namespace Conform

open Schema

/-! ## Checks and their entries -/

namespace Schema

/-- The list of checks in a schema, which is empty if there is none. -/
def checks (schema : Value) : List Value := ((schema.get? "x-checks").bind Value.items?).getD []

/-- An entry tells the name of its check. -/
theorem get?_listed (name message : String) (isAsync : Bool) :
    (Constraints.listed name message isAsync).get? "name" = some (.str name) := by
  rw [Constraints.listed, Value.get?_object]
  cases isAsync <;> rfl

end Schema

namespace Operation.Summary

/-- **A schema represents a check**: the keyword that its name stands for is there with its
parameter, or the list of checks has an entry with its name and its message, marked if the check has
to be awaited.  Of a transformation there is nothing to represent. -/
def Represented (schema : Value) : Operation.Summary → Prop
  | check name message param =>
    (∃ keyword value, keyword? name = some keyword ∧ param = some value ∧
      schema.get? keyword = some value) ∨
    Constraints.listed name message false ∈ checks schema
  | asyncCheck name message => Constraints.listed name message true ∈ checks schema
  | transformation => True

/-- One keyword shows both checks, with different parameters. -/
def Supersedes (later earlier : Operation.Summary) : Prop :=
  ∃ keyword value value', earlier.shown? = some (keyword, value) ∧
    later.shown? = some (keyword, value') ∧ value' ≠ value

variable {summary : Operation.Summary} {schema : Value}

/-- A check whose keyword is there with its parameter is represented. -/
theorem represented_of_shown {keyword : String} {value : Value}
    (hs : summary.shown? = some (keyword, value)) (hget : schema.get? keyword = some value) :
    summary.Represented schema := by
  obtain ⟨name, message, rfl, hk⟩ := shown?_eq_some_iff.mp hs
  exact Or.inl ⟨keyword, value, hk, rfl, hget⟩

/-- An operation that no keyword shows is represented if it is listed, should it be a check. -/
theorem represented_of_listed (hs : summary.shown? = none)
    (hl : ∀ entry, summary.listed? = some entry → entry ∈ checks schema) :
    summary.Represented schema := by
  cases summary with
  | check name message param =>
    refine Or.inr (hl _ (if_neg fun hmapped => ?_))
    cases param with
    | none => simp at hmapped
    | some argument => simp_all [shown?]
  | asyncCheck name message => exact hl _ rfl
  | transformation => trivial

/-- The entry of a check tells its name. -/
theorem get?_name_of_listed {entry : Value} (hl : summary.listed? = some entry) :
    entry.get? "name" = summary.name?.map Value.str := by
  cases summary with
  | check name message param =>
    simp only [listed?, Option.ite_none_left_eq_some, Option.some.injEq] at hl
    exact hl.2 ▸ get?_listed name message false
  | asyncCheck name message =>
    obtain rfl := Option.some.inj hl
    exact get?_listed name message true
  | transformation => simp [listed?] at hl

end Operation.Summary

namespace Schema

open Operation

variable {options : Options} {summaries before after : List Operation.Summary}
  {summary : Operation.Summary} {value : Value}

/-! ## Constrained objects -/

/-- The list of checks in a constrained object, if it is wanted.  Without an entry to list, the
object keeps what it has there. -/
theorem get?_checks_layOver (hc : options.includeChecks = true) (h : value.IsObject) :
    ((Constraints.ofSummaries summaries).layOver options value).get? "x-checks"
      = if (summaries.filterMap Summary.listed?).isEmpty then value.get? "x-checks"
        else some (.arr (summaries.filterMap Summary.listed?)) := by
  have hkeywords : (value.overlay (Constraints.ofSummaries summaries).keywords).get? "x-checks"
      = value.get? "x-checks" := by
    rw [h.get?_overlay, get?_keywords keyword?_ne_checks, Option.none_or]
  rw [layOver_with_checks hc]
  split
  · exact hkeywords
  · rw [(h.overlay _).get?_overlay, Members.get?, if_pos rfl, Option.some_or]

/-- **What a schema shows of the checks of a pipeline.** -/
structure ShowsChecks (schema : Value) (summaries : List Operation.Summary) : Prop where
  /-- The checks that no keyword shows are listed, in order, and nothing else is. -/
  checks_eq : checks schema = summaries.filterMap Summary.listed?
  /-- A keyword has the parameter of each check for it that no later one supersedes. -/
  get?_keyword {before after : List Operation.Summary} {summary : Operation.Summary}
    {keyword : String} {value : Value} : summaries = before ++ summary :: after →
      summary.shown? = some (keyword, value) →
      (∀ later ∈ after, ¬ later.Supersedes summary) → schema.get? keyword = some value

/-- **Constraints laid over an object without a list** show the checks that they come from. -/
theorem showsChecks_layOver (hc : options.includeChecks = true) (h : value.IsObject)
    (hnone : value.get? "x-checks" = none) (summaries : List Operation.Summary) :
    ShowsChecks ((Constraints.ofSummaries summaries).layOver options value) summaries where
  checks_eq := by
    rw [checks, get?_checks_layOver hc h, hnone]
    cases summaries.filterMap Summary.listed? <;> rfl
  get?_keyword := by
    rintro before after summary keyword argument rfl hs hkept
    obtain ⟨name, message, rfl, hk⟩ := Summary.shown?_eq_some_iff.mp hs
    have hne : keyword ≠ "x-checks" := fun heq => keyword?_ne_checks name (heq ▸ hk)
    rw [get?_layOver_of_ne hne options _ h, get?_keywords_of_last hs, Option.some_or]
    intro later hlater argument' hshown
    refine Classical.byContradiction fun hdiffers => ?_
    exact hkept later hlater ⟨keyword, argument, argument', hs, hshown, hdiffers⟩

/-- **A check that none supersedes is represented.** -/
theorem ShowsChecks.represented {schema : Value} (h : ShowsChecks schema summaries)
    (hsplit : summaries = before ++ summary :: after)
    (hkept : ∀ later ∈ after, ¬ later.Supersedes summary) : summary.Represented schema := by
  cases hs : summary.shown? with
  | some shown => exact Summary.represented_of_shown hs (h.get?_keyword hsplit hs hkept)
  | none =>
    refine Summary.represented_of_listed hs fun entry hl => ?_
    rw [h.checks_eq, hsplit]
    exact List.mem_filterMap.mpr ⟨summary, by simp, hl⟩

/-- **A check that another one supersedes for good is not represented**, unless a check of the same
name is listed. -/
theorem ShowsChecks.not_represented {schema : Value} {last : Operation.Summary}
    (h : ShowsChecks schema summaries) (hsplit : summaries = before ++ last :: after)
    (hkept : ∀ later ∈ after, ¬ later.Supersedes last) (hsupersedes : last.Supersedes summary)
    (hlisted : ∀ other ∈ summaries, other.name? = summary.name? → other.listed? = none) :
    ¬ summary.Represented schema := by
  obtain ⟨keyword, value, value', hs, hlast, hdiffers⟩ := hsupersedes
  obtain ⟨name, message, rfl, hk⟩ := Summary.shown?_eq_some_iff.mp hs
  rintro (⟨keyword', argument, hk', hargument, hget⟩ | hmem)
  · obtain rfl := Option.some.inj (hk.symm.trans hk')
    obtain rfl := Option.some.inj hargument
    exact hdiffers (Option.some.inj ((h.get?_keyword hsplit hlast hkept).symm.trans hget))
  · rw [h.checks_eq] at hmem
    obtain ⟨other, hother, hentry⟩ := List.mem_filterMap.mp hmem
    have hname : other.name?.map Value.str = some (.str name) :=
      (Summary.get?_name_of_listed hentry).symm.trans (get?_listed name message false)
    obtain ⟨name', hname', heq⟩ := Option.map_eq_some_iff.mp hname
    have hnone := hlisted other hother (hname'.trans (congrArg some (Value.str.inj heq)))
    exact nomatch hnone.symm.trans hentry

end Schema

/-! ## Own checks -/

namespace Validator

variable {options : Options} {store : Metadata.Store} {validator : Validator}

/-- The operations of a validator constrain its schema as a whole: it is a leaf, a list, a nullable,
a tuple or a union. -/
def isDirect : Validator → Bool
  | pipe .. => false
  | custom .. => false
  | _ => true

/-- **How the schema of a validator comes about** whose operations constrain it as a whole: an
object that describes its form is completed.  Neither a list of checks nor a second stage is in it
before. -/
theorem exists_described (h : validator.isDirect = true) (options : Options)
    (store : Metadata.Store) :
    ∃ described : Value, described.IsObject ∧
      described.get? "x-checks" = none ∧ described.get? "x-output" = none ∧
      validator.constrained = "" ∧
      validator.fragment options store = complete options store validator described := by
  cases validator with
  | leaf type core =>
    cases type <;> exact ⟨_, Value.isObject_object _, rfl, rfl, rfl, rfl⟩
  | nullable inner default core =>
    refine ⟨_, Value.isObject_object _, ?_, ?_, rfl, rfl⟩ <;>
      · rw [Value.get?_object]
        cases default <;> rfl
  | pipe input output conversion core => exact absurd h Bool.false_ne_true
  | custom behaviour core => exact absurd h Bool.false_ne_true
  | _ =>
    exact ⟨_, Value.isObject_object _, Value.get?_object _ _, Value.get?_object _ _, rfl, rfl⟩

/-- **What becomes of a validator's own checks** in its schema.  Let a leaf, a list, a nullable, a
tuple or a union have any operations, and no metadata entry that is shown, and let the lists of
checks be wanted.

* Its list has an entry for each check without a keyword or a parameter, in their order and nothing
  else, and each keyword has the parameter of the last check for it.
* So every check is represented, by its keyword or in the list, unless a later check for the same
  keyword has another parameter.
* A check that the last one for its keyword supersedes is not represented, unless a check of the
  same name happens to be listed. -/
theorem own_checks_shown (h : validator.isDirect = true) (hc : options.includeChecks = true)
    (hs : Silent options store validator.handle?) :
    ShowsChecks (validator.fragment options store) validator.summaries ∧
      (∀ before summary after, validator.summaries = before ++ summary :: after →
        (∀ later ∈ after, ¬ later.Supersedes summary) →
        summary.Represented (validator.fragment options store)) ∧
      ∀ before summary last after, validator.summaries = before ++ last :: after →
        (∀ later ∈ after, ¬ later.Supersedes last) → last.Supersedes summary →
        (∀ other ∈ validator.summaries, other.name? = summary.name? → other.listed? = none) →
        ¬ summary.Represented (validator.fragment options store) := by
  have hshows : ShowsChecks (validator.fragment options store) validator.summaries := by
    obtain ⟨described, hobject, hnone, -, hplace, hfragment⟩ := exists_described h options store
    rw [hfragment, complete_of_silent hs, hplace]
    exact showsChecks_layOver hc hobject hnone validator.summaries
  exact ⟨hshows, fun _ _ _ hsplit hkept => hshows.represented hsplit hkept,
    fun _ _ _ _ hsplit hkept hsupersedes hlisted =>
      hshows.not_represented hsplit hkept hsupersedes hlisted⟩

/-- A pair with four checks: two on its number of items, one without a parameter, and one that has
to be awaited.  The bound that comes with the pair gives way to that of the later of the two, and so
does the earlier one. -/
theorem own_checks_shown_of_long_pair :
    let few (least : Int) : Action :=
      .check "min_items" "too few" (some (.int least)) fun _ => .answer true
    let odd : Action := .check "refine" "not even" none fun _ => .answer true
    let remote : Action := .asyncCheck "remote" "out of reach" fun _ => .answer (.ready true)
    let plain := (ofType .integer).and (ofType .string)
    let pair := (((plain.act (few 3)).act odd).act (few 4)).act remote
    let schema := pair.fragment .standard .empty
    checks schema
        = [Constraints.listed "refine" "not even" false,
          Constraints.listed "remote" "out of reach" true] ∧
      (plain.fragment .standard .empty).get? "minItems" = some (.int 2) ∧
      schema.get? "minItems" = some (.int 4) ∧
      Operation.Summary.Represented schema (.check "refine" "not even" none) ∧
      ¬ Operation.Summary.Represented schema (.check "min_items" "too few" (some (.int 3))) := by
  intro few odd remote plain pair schema
  have hshown := @own_checks_shown .standard .empty pair rfl rfl fun _ => rfl
  obtain ⟨hshows, hrepresented, hvanished⟩ := hshown
  let first : Operation.Summary := .check "min_items" "too few" (some (.int 3))
  let second : Operation.Summary := .check "refine" "not even" none
  let third : Operation.Summary := .check "min_items" "too few" (some (.int 4))
  let fourth : Operation.Summary := .asyncCheck "remote" "out of reach"
  have hsecond : pair.summaries = [first] ++ second :: [third, fourth] := rfl
  have hthird : pair.summaries = [first, second] ++ third :: [fourth] := rfl
  have hkept : ∀ later ∈ [fourth], ¬ later.Supersedes third := by
    rintro later hl ⟨_, _, _, -, hs, -⟩
    obtain rfl := List.mem_singleton.mp hl
    exact nomatch hs
  refine ⟨hshows.checks_eq, rfl, hshows.get?_keyword hthird rfl hkept, ?_, ?_⟩
  · refine hrepresented _ _ _ hsecond fun later _ => ?_
    rintro ⟨_, _, _, hs, -, -⟩
    exact nomatch hs
  · have hdiffers : Value.int 4 ≠ .int 3 := fun heq => absurd (Value.int.inj heq) (by decide)
    refine hvanished _ first _ _ hthird hkept
      ⟨"minItems", .int 3, .int 4, rfl, rfl, hdiffers⟩ fun other hother hname => ?_
    -- the checks that are listed have other names
    simp only [hthird, List.cons_append, List.nil_append, List.mem_cons, List.not_mem_nil,
      or_false] at hother
    obtain rfl | rfl | rfl | rfl := hother
    · rfl
    · exact absurd hname (by decide)
    · rfl
    · exact absurd hname (by decide)

/-- **Of two least lengths of a text the first one is enforced, but not represented.** -/
theorem earlier_least_length_vanishes :
    let text := leaf .string ((Core.blank.push (Text.minLength 3)).push (Text.minLength 2))
    (text.evaluate ⟨.tolerant, .sync⟩ (.str "ab")).result
        = .ok ⟨some (.str "ab"), .ofList [("min_length", "must be at least 3 characters")], none⟩ ∧
      text.fragment .standard .empty
        = .object [("minLength", .int 2), ("type", .str "string")] ∧
      ¬ ∀ summary ∈ text.summaries, summary.Represented (text.fragment .standard .empty) := by
  intro text
  have hschema : text.fragment .standard .empty
      = .object [("minLength", .int 2), ("type", .str "string")] := rfl
  refine ⟨rfl, hschema, fun hall => ?_⟩
  have hfirst := hall (Text.minLength 3).summary List.mem_cons_self
  rw [hschema] at hfirst
  obtain ⟨keyword, value, hk, hvalue, hget⟩ | hmem := hfirst
  · obtain rfl : keyword = "minLength" := (Option.some.inj hk).symm
    obtain rfl : value = .int 3 := (Option.some.inj hvalue).symm
    have hsame : Value.int 2 = .int 3 := Option.some.inj hget
    exact absurd (Value.int.inj hsame) (by decide)
  · have hnone : checks (.object [("minLength", .int 2), ("type", .str "string")]) = [] := rfl
    rw [hnone] at hmem
    exact nomatch hmem

end Validator

end Conform
