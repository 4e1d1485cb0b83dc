import Conform.Proofs.Endings
import Conform.Validator.Evaluation

set_option autoImplicit false

/-!
# What strict runs come from

A strict run that comes to a result passed every check on its way.  For each form of validator it is
told here what the value must have been like and which parts came to a result on the way, as long
as no transformation changes a value under the checks.

## Main definitions

* `Conform.Operation.IsCheck` — an operation that leaves the value alone.
* `Conform.Pipeline.Passes` — every check of a pipeline that is not awaited accepts a value.

## Main results

* `Conform.Pipeline.passes_of_run` — the checks of a strict run.
* `Conform.Leaf.read_of_evaluate`, `Conform.Items.items_of_evaluate`,
  `Conform.Optional.inner_of_evaluate`, `Conform.Positions.items_of_evaluate`,
  `Conform.Choice.exists_of_evaluate` — the forms.
-/

namespace Conform

variable {α : Type} {scheduling : Scheduling} {kind : String}

/-! ## Operations -/

/-- An operation that leaves the value alone. -/
def Operation.IsCheck : Operation α → Prop
  | .transformation _ => False
  | _ => True

/-- Every check of a pipeline that is not awaited accepts a value. -/
def Pipeline.Passes (pipeline : Pipeline α) (a : α) : Prop :=
  ∀ c, .check c ∈ pipeline.operations → c.passes a = true

/-- A strict run goes on only where a check passed. -/
theorem Progress.judge_strict_ok {progress reached : Progress α} {name message : String}
    {passed : Bool} (h : (progress.judge .strict name message passed).result = .ok reached) :
    reached = progress ∧ passed = true := by
  cases passed with
  | true => exact ⟨(Except.ok.inj h).symm, rfl⟩
  | false => exact nomatch h

theorem Operation.advance_strict_ok {operation : Operation α} (hc : operation.IsCheck)
    {progress reached : Progress α}
    (h : (operation.advance ⟨.strict, scheduling⟩ kind progress).result = .ok reached) :
    reached = progress ∧ ∀ c, operation = .check c → c.passes progress.value = true := by
  cases operation with
  | check c =>
    obtain ⟨-, -, hj⟩ := Run.bind_ok_iff.mp h
    obtain ⟨hr, hp⟩ := Progress.judge_strict_ok hj
    exact ⟨hr, fun c' hc' => Operation.check.inj hc' ▸ hp⟩
  | asyncCheck c =>
    cases scheduling with
    | sync => exact nomatch h
    | async =>
      obtain ⟨-, -, hj⟩ := Run.bind_ok_iff.mp h
      exact ⟨(Progress.judge_strict_ok hj).1, nofun⟩
  | transformation t => exact hc.elim

/-- A strict run of checks ends where it began. -/
theorem Pipeline.resume_strict_ok {pipeline : Pipeline α}
    (hc : ∀ operation ∈ pipeline.operations, operation.IsCheck) {progress reached : Progress α}
    (h : (pipeline.resume ⟨.strict, scheduling⟩ kind progress).result = .ok reached) :
    reached = progress ∧ pipeline.Passes progress.value := by
  obtain ⟨operations⟩ := pipeline
  unfold Passes
  unfold resume at h
  dsimp only at hc h ⊢
  induction operations generalizing progress with
  | nil => exact ⟨(Except.ok.inj h).symm, nofun⟩
  | cons operation rest ih =>
    rw [List.foldlM_cons] at h
    obtain ⟨next, hfirst, hrest⟩ := Run.bind_ok_iff.mp h
    obtain ⟨rfl, hpassed⟩ := Operation.advance_strict_ok (hc operation List.mem_cons_self) hfirst
    obtain ⟨rfl, hothers⟩ := ih (fun later hl => hc later (List.mem_cons_of_mem _ hl)) hrest
    refine ⟨rfl, fun c hmem => ?_⟩
    obtain hsame | hlater := List.mem_cons.mp hmem
    · exact hpassed c hsame.symm
    · exact hothers c hlater

/-- **A strict run of checks that comes to a result passed all of them**, and the value is the one
that was given. -/
theorem Pipeline.passes_of_run {pipeline : Pipeline α}
    (hc : ∀ operation ∈ pipeline.operations, operation.IsCheck) {a : α} {outcome : Outcome α}
    (h : (pipeline.run ⟨.strict, scheduling⟩ kind a).result = .ok outcome) :
    outcome.value = some a ∧ pipeline.Passes a := by
  obtain ⟨reached, hr, rfl⟩ := Run.map_ok_iff.mp h
  obtain ⟨rfl, hp⟩ := resume_strict_ok hc hr
  exact ⟨rfl, hp⟩

/-! ## Leaves -/

/-- A leaf took a value of its type that its checks accept. -/
theorem Leaf.read_of_evaluate {type : LeafType} {core : Core type.Carrier}
    (hc : ∀ operation ∈ core.pipeline.operations, operation.IsCheck) {value : Value}
    {outcome : Outcome Value}
    (h : (Leaf.evaluate ⟨.strict, scheduling⟩ type core value).result = .ok outcome) :
    ∃ a, type.read? value = some a ∧ core.pipeline.Passes a := by
  unfold evaluate at h
  cases hr : type.read? value with
  | none =>
    rw [hr] at h
    exact nomatch h
  | some a =>
    rw [hr] at h
    obtain ⟨own, hown, -⟩ := Run.map_ok_iff.mp h
    exact ⟨a, rfl, (Pipeline.passes_of_run hc hown).2⟩

/-! ## Lists -/

namespace Items

/-- Every item came to a result. -/
theorem exists_of_outcomes {element : Evaluator} {found : List (Outcome Value)} :
    ∀ {position : Nat} {items : List Value},
      (outcomes element position items).result = .ok found →
        ∀ item ∈ items, ∃ outcome, (element item).result = .ok outcome := by
  intro position items h
  induction items generalizing position found with
  | nil => exact nofun
  | cons first rest ih =>
    simp only [outcomes, Run.bind_ok_iff, Run.under_ok_iff] at h
    obtain ⟨outcome, hfirst, later, hlater, -⟩ := h
    exact List.forall_mem_cons.mpr ⟨⟨outcome, hfirst⟩, ih hlater⟩

/-- A list took an array that its checks accept and each of whose items came to a result. -/
theorem items_of_evaluate {element : Evaluator} {core : Core (List Value)}
    (hc : ∀ operation ∈ core.pipeline.operations, operation.IsCheck) {value : Value}
    {outcome : Outcome Value}
    (h : (evaluate ⟨.strict, scheduling⟩ element core value).result = .ok outcome) :
    ∃ items, value = .arr items ∧ core.pipeline.Passes items ∧
      ∀ item ∈ items, ∃ found, (element item).result = .ok found := by
  cases value with
  | arr items =>
    simp only [evaluate, Value.items?, Run.bind_ok_iff] at h
    obtain ⟨own, hown, found, hfound, -⟩ := h
    obtain ⟨hvalue, hpasses⟩ := Pipeline.passes_of_run hc hown
    rw [hvalue] at hfound
    exact ⟨items, rfl, hpasses, exists_of_outcomes hfound⟩
  | _ => exact nomatch h

end Items

/-! ## Nullables -/

/-- A nullable took `null`, or a value for which its inner validator came to a result. -/
theorem Optional.inner_of_evaluate {inner : Evaluator} {default : Option Value} {core : Core Value}
    {value : Value} {outcome : Outcome Value}
    (h : (Optional.evaluate ⟨.strict, scheduling⟩ inner default core value).result
      = .ok outcome) :
    value = .null ∨ ∃ found, (inner value).result = .ok found := by
  unfold evaluate at h
  split at h
  · exact Or.inl rfl
  · obtain ⟨found, hfound, -⟩ := Run.bind_ok_iff.mp h
    exact Or.inr ⟨found, hfound⟩

/-! ## Tuples -/

namespace Positions

variable {arity : Nat} {elements : Fin arity → Evaluator}

/-- Each of the leading positions came to a result. -/
theorem exists_of_gather {items : Vector Value arity} {k : Nat} {hk : k ≤ arity}
    {gathered : Gathered k} (h : (gather elements items k hk).result = .ok gathered) :
    ∀ i : Fin arity, i.val < k → ∃ found, (elements i (items.get i)).result = .ok found := by
  induction k with
  | zero => exact fun i hi => absurd hi (Nat.not_lt_zero _)
  | succ k ih =>
    simp only [gather, Run.bind_ok_iff, Run.under_ok_iff] at h
    obtain ⟨before, hb, found, hf, -⟩ := h
    intro i hi
    obtain hlt | heq := Nat.lt_or_eq_of_le (Nat.le_of_lt_succ hi)
    · exact ih hb i hlt
    · obtain ⟨index, hindex⟩ := i
      obtain rfl : index = k := heq
      exact ⟨found, hf⟩

/-- A tuple took an array with an item for each position, for which the position came to a
result. -/
theorem items_of_evaluate {core : Core (Vector Value arity)} {value : Value}
    {outcome : Outcome Value}
    (h : (evaluateArray ⟨.strict, scheduling⟩ elements core value).result = .ok outcome) :
    ∃ items : Vector Value arity, value = .arr items.toList ∧
      ∀ i : Fin arity, ∃ found, (elements i (items.get i)).result = .ok found := by
  cases value with
  | arr items =>
    simp only [evaluateArray, evaluate, Value.items?, Value.exactly?, Run.bind_ok_iff] at h
    obtain ⟨before, hbefore, -⟩ := h
    split at hbefore
    · rename_i found hfound
      split at hfound
      · cases hfound
        obtain ⟨gathered, hg, -⟩ := Run.bind_ok_iff.mp hbefore
        exact ⟨_, rfl, fun i => exists_of_gather hg i i.isLt⟩
      · exact nomatch hfound
    · exact nomatch hbefore
  | _ => exact nomatch h

end Positions

/-! ## Unions -/

namespace Choice

/-- The alternative that matched came to a result. -/
theorem exists_of_tryAll {value produced : Value} {alternatives : List Evaluator} :
    ∀ {index : Nat} {failures : Failures},
      (tryAll value index alternatives failures).result = .ok (.matched produced) →
        ∃ alternative ∈ alternatives, ∃ found, (alternative value).result = .ok found := by
  induction alternatives with
  | nil => exact fun h => nomatch h
  | cons alternative rest ih =>
    intro index failures h
    obtain ⟨attempted, hattempt, hnext⟩ := Run.bind_ok_iff.mp h
    cases attempted with
    | ok found =>
      exact ⟨alternative, List.mem_cons_self, found, Run.attempt_ok_iff.mp hattempt⟩
    | error fault =>
      dsimp only at hnext
      split at hnext
      · obtain ⟨other, hmem, hfound⟩ := ih hnext
        exact ⟨other, List.mem_cons_of_mem _ hmem, hfound⟩
      · exact nomatch hnext

/-- A union took a value for which one of its alternatives came to a result. -/
theorem exists_of_evaluate {alternatives : List Evaluator} {core : Core Value} {value : Value}
    {outcome : Outcome Value}
    (h : (evaluate ⟨.strict, scheduling⟩ alternatives core value).result = .ok outcome) :
    ∃ alternative ∈ alternatives, ∃ found, (alternative value).result = .ok found := by
  obtain ⟨verdict, hverdict, hnext⟩ := Run.bind_ok_iff.mp h
  cases verdict with
  | matched produced => exact exists_of_tryAll hverdict
  | exhausted failures =>
    dsimp only at hnext
    unfold exhausted at hnext
    split at hnext <;> exact nomatch hnext

end Choice

end Conform
