import Conform.Proofs.Acceptance
import Conform.Proofs.StrictRuns

set_option autoImplicit false

/-!
# Pure validation

A validator takes a value apart and puts what it produces together again, at every level: an integer
is read as a word, an array item by item, and what comes out of a union went through one of its
alternatives.  If no transformation has a say in that, no stage of a pipe, no float that stands for
an integer and no default that stands for `null`, then what is put together is the value itself.
This holds of tolerant runs beside failures, too.

## Main definitions

* `Conform.Validator.Pure` — all that a validator does to values, at any depth, is to check them.
* `Conform.Evaluator.Returns` — a value that is produced is the one that was given.

## Main results

* `Conform.Pipeline.run_returns`, `Conform.Items.evaluate_returns`,
  `Conform.Positions.evaluateArray_returns`, `Conform.Choice.evaluate_returns` — the forms.
* `Conform.Validator.evaluate_returns` — every pure validator.
* `Conform.Validator.pure_returns_input` — what callers may rely on, and that what was accepted once
  is accepted again.
-/

namespace Conform

variable {α β : Type} {strategy : Strategy}

/-! ## Pure validators -/

/-- None of the operations replaces the value. -/
def Pipeline.OnlyChecks (pipeline : Pipeline α) : Prop :=
  ∀ operation ∈ pipeline.operations, operation.IsCheck

namespace Validator

/-- All that a validator does by itself is to check: it is no pipe, its operations are checks, an
integer is read as an integer and `null` stands for itself. -/
def OnlyChecks : Validator → Prop
  | leaf type core => type ≠ .number ∧ core.pipeline.OnlyChecks
  | list _ core => core.pipeline.OnlyChecks
  | nullable _ default core => default = none ∧ core.pipeline.OnlyChecks
  | tuple _ _ core => core.pipeline.OnlyChecks
  | union _ _ core => core.pipeline.OnlyChecks
  | pipe .. => False
  | custom .. => True

/-- **A pure validator**: no part of it, at any depth, does anything to a value but check it. -/
def Pure (validator : Validator) : Prop := validator.Throughout OnlyChecks

end Validator

/-! ## What is returned -/

/-- An outcome that has a value has the one given. -/
def Outcome.Returns (a : α) (outcome : Outcome α) : Prop :=
  ∀ b, outcome.value = some b → b = a

theorem Outcome.returns_of_none {a : α} {outcome : Outcome α} (h : outcome.value = none) :
    outcome.Returns a :=
  fun _ hb => nomatch h.symm.trans hb

theorem Outcome.Returns.map {a : α} {outcome : Outcome α} (h : outcome.Returns a) (f : α → β) :
    (outcome.map f).Returns (f a) := by
  intro b hb
  obtain ⟨a', ha', rfl⟩ := Option.map_eq_some_iff.mp hb
  rw [h a' ha']

/-- A run that comes to a value comes to the one given; nothing is said of its faults. -/
def Run.Returns (a : α) (run : Run (Outcome α)) : Prop :=
  run.Ends (Outcome.Returns a) fun _ => True

/-- A value that is produced is the one that was given. -/
def Evaluator.Returns (part : Evaluator) : Prop :=
  ∀ value, (part value).Returns value

/-- Where a value is refused there is none. -/
theorem refuse_valueless {fault : Fault} (hf : fault.isConfiguration = false) :
    (refuse strategy fault : Run (Outcome α)).Ends (fun outcome => outcome.value = none)
      fun _ => True := by
  have hends : (refuse strategy fault : Run (Outcome α)).Ends _ (strategy.Raises true) :=
    refuse_ends hf
  exact hends.mono (fun _ h => h.2.1) fun _ _ => trivial

theorem refuse_returns {fault : Fault} (hf : fault.isConfiguration = false) (a : α) :
    (refuse strategy fault : Run (Outcome α)).Returns a :=
  (refuse_valueless hf).mono (fun _ h => Outcome.returns_of_none h) fun _ h => h

/-! ## Operations -/

/-- A check leaves the value as it is, whatever it finds. -/
theorem Progress.judge_returns (progress : Progress α) (mode : Mode) (name message : String)
    (passed : Bool) :
    (progress.judge mode name message passed).Ends (fun reached => reached.value = progress.value)
      fun _ => True := by
  cases passed with
  | true => rfl
  | false => cases mode <;> trivial

theorem Operation.advance_returns {operation : Operation α} (hc : operation.IsCheck) (kind : String)
    (progress : Progress α) :
    (operation.advance strategy kind progress).Ends
      (fun reached => reached.value = progress.value) fun _ => True := by
  cases operation with
  | check c => exact progress.judge_returns strategy.mode c.name c.message _
  | asyncCheck c =>
    unfold advance
    cases strategy.scheduling with
    | sync => trivial
    | async => exact progress.judge_returns strategy.mode c.name c.message _
  | transformation t => exact hc.elim

/-- **Checks return the value that they are given.** -/
theorem Pipeline.run_returns {pipeline : Pipeline α} (hc : pipeline.OnlyChecks) (kind : String)
    (a : α) :
    (pipeline.run strategy kind a).Ends (fun outcome => outcome.value = some a) fun _ => True := by
  rw [run, Run.ends_map]
  have hvalue : (pipeline.resume strategy kind ⟨a, .empty⟩).Ends (fun reached => reached.value = a)
      fun _ => True := by
    refine Run.ends_foldlM (fun operation hm progress h => ?_) _ rfl
    exact (operation.advance_returns (hc operation hm) kind progress).mono
      (fun _ hr => hr.trans h) fun _ hf => hf
  exact hvalue.mono (fun _ h => congrArg some h) fun _ hf => hf

/-- The last checks return what the parts came to. -/
theorem Core.finish_returns {core : Core α} (hc : core.pipeline.OnlyChecks) (kind : String)
    (outcome : Outcome α) :
    (core.finish strategy kind outcome).Ends
      (fun finished => ∀ b, finished.value = some b → outcome.value = some b) fun _ => True := by
  unfold finish
  cases hv : outcome.value with
  | none => exact fun b hb => hv.symm.trans hb
  | some a =>
    refine Run.Ends.bind (Pipeline.run_returns hc kind a) fun own ho b hb => ?_
    exact ho.symm.trans hb

/-! ## Leaves, lists and nullables -/

theorem Leaf.evaluate_returns {type : LeafType} {core : Core type.Carrier} (ht : type ≠ .number)
    (hc : core.pipeline.OnlyChecks) : Evaluator.Returns (evaluate strategy type core) := by
  intro value
  unfold evaluate
  cases hr : type.read? value with
  | none => exact refuse_returns rfl value
  | some a =>
    unfold Run.Returns
    rw [Run.ends_map, ← LeafType.toValue_of_read? ht hr]
    refine (Pipeline.run_returns hc type.name a).mono (fun outcome ho => ?_) fun _ hf => hf
    have hreturns : outcome.Returns a := fun b hb => Option.some.inj (hb.symm.trans ho)
    exact hreturns.map type.toValue

namespace Items

/-- Items that each have a value have those that were given, in order. -/
theorem outcomes_returns {element : Evaluator} (he : Evaluator.Returns element) :
    ∀ (position : Nat) (items : List Value), (outcomes element position items).Ends
      (fun found => ∀ values, produced found = some values → values = items) fun _ => True
  | _, [] => fun values hv => (Option.some.inj hv).symm
  | position, item :: rest => by
    refine Run.Ends.bind ((he item).under (Path.position position) fun _ hf => hf)
      fun outcome ho => ?_
    refine Run.Ends.bind (outcomes_returns he (position + 1) rest) fun later hl values hv => ?_
    rw [produced_cons] at hv
    obtain ⟨a, ha, hrest⟩ := Option.bind_eq_some_iff.mp hv
    obtain ⟨others, hothers, rfl⟩ := Option.map_eq_some_iff.mp hrest
    rw [ho a ha, hl others hothers]

/-- **A list returns the array** if its items are returned. -/
theorem evaluate_returns {element : Evaluator} (he : Evaluator.Returns element)
    {core : Core (List Value)} (hc : core.pipeline.OnlyChecks) :
    Evaluator.Returns (evaluate strategy element core) := by
  intro value
  cases value with
  | arr items =>
    refine Run.Ends.bind (Pipeline.run_returns hc "list" items) fun own ho => ?_
    rw [ho]
    refine Run.Ends.bind (outcomes_returns he 0 items) fun found hf a ha => ?_
    obtain ⟨values, hvalues, rfl⟩ := Option.map_eq_some_iff.mp ha
    rw [hf values hvalues]
  | _ => exact refuse_returns rfl _

end Items

/-- A nullable returns `null` as well if it stands for itself. -/
theorem Optional.evaluate_returns {inner : Evaluator} (hi : Evaluator.Returns inner)
    {core : Core Value} (hc : core.pipeline.OnlyChecks) :
    Evaluator.Returns (evaluate strategy inner none core) := by
  intro value
  unfold evaluate
  split
  · exact fun a ha => (Option.some.inj ha).symm
  · refine Run.Ends.bind (hi _) fun outcome ho => ?_
    exact (Core.finish_returns hc "nullable" outcome).mono (fun _ hf a ha => ho a (hf a ha))
      fun _ h => h

/-! ## Tuples -/

namespace Positions

variable {arity : Nat} {elements : Fin arity → Evaluator}

/-- Leading positions that each have a value have those that were given. -/
theorem gather_returns (he : ∀ i, Evaluator.Returns (elements i)) (items : Vector Value arity) :
    ∀ (k : Nat) (hk : k ≤ arity), (gather elements items k hk).Ends
      (fun gathered => ∀ values, gathered.produced = some values →
        ∀ (i : Nat) (hi : i < k), values[i] = items[i])
      fun _ => True
  | 0, _ => fun _ _ _ hi => absurd hi (Nat.not_lt_zero _)
  | k + 1, hk => by
    refine Run.Ends.bind (gather_returns he items k (Nat.le_of_succ_le hk)) fun before hb => ?_
    refine Run.Ends.bind ((he ⟨k, hk⟩ items[k]).under (Path.position k) fun _ hf => hf)
      fun outcome ho values hv i hi => ?_
    obtain ⟨leading, hleading, hlast⟩ := Option.bind_eq_some_iff.mp hv
    obtain ⟨a, ha, rfl⟩ := Option.map_eq_some_iff.mp hlast
    rw [Vector.getElem_push]
    split
    · exact hb leading hleading i ‹_›
    · obtain rfl : i = k := by omega
      exact ho a ha

/-- As many items as there are positions are returned as they are. -/
theorem evaluate_returns (he : ∀ i, Evaluator.Returns (elements i)) (items : List Value) :
    (evaluate strategy elements items).Ends
      (fun outcome => ∀ values, outcome.value = some values → values.toList = items)
      fun _ => True := by
  unfold evaluate Value.exactly?
  split
  · rename_i vector hvector
    split at hvector
    · obtain rfl := Option.some.inj hvector
      refine Run.Ends.bind (gather_returns he _ arity (Nat.le_refl arity)) fun gathered hg => ?_
      intro values hv
      obtain rfl := Vector.ext (hg values hv)
      rfl
    · exact nomatch hvector
  · exact (refuse_valueless rfl).mono (fun _ h values hv => nomatch h.symm.trans hv) fun _ hf => hf

/-- **A tuple returns the array** if its positions are returned. -/
theorem evaluateArray_returns (he : ∀ i, Evaluator.Returns (elements i))
    {core : Core (Vector Value arity)} (hc : core.pipeline.OnlyChecks) :
    Evaluator.Returns (evaluateArray strategy elements core) := by
  intro value
  cases value with
  | arr items =>
    refine Run.Ends.bind (evaluate_returns he items) fun outcome ho => ?_
    refine Run.Ends.bind (Core.finish_returns hc "tuple" outcome) fun finished hf a ha => ?_
    obtain ⟨values, hvalues, rfl⟩ := Option.map_eq_some_iff.mp ha
    exact congrArg Value.arr (ho values (hf values hvalues))
  | _ => exact refuse_returns rfl _

end Positions

/-! ## Unions -/

namespace Choice

/-- An alternative that matched returned the value. -/
theorem tryAll_returns (value : Value) : ∀ {alternatives : List Evaluator},
    (∀ alternative ∈ alternatives, Evaluator.Returns alternative) →
    ∀ (index : Nat) (failures : Failures), (tryAll value index alternatives failures).Ends
      (fun verdict => ∀ produced, verdict = .matched produced → produced = value) fun _ => True
  | [], _, _, _ => nofun
  | alternative :: rest, ha, index, failures => by
    have hrest := tryAll_returns value
      (fun later hl => ha later (List.mem_cons_of_mem alternative hl)) (index + 1)
    refine Run.Ends.bind (ha alternative List.mem_cons_self value).attempt fun found hf => ?_
    cases found with
    | ok outcome =>
      dsimp only
      split
      · split
        · rename_i produced hv
          exact fun a hm => (Verdict.matched.inj hm) ▸ hf produced hv
        · exact hrest failures
      · exact hrest _
    | error fault =>
      dsimp only
      split
      · exact hrest _
      · trivial

/-- **A union returns the value** if its alternatives return it. -/
theorem evaluate_returns {alternatives : List Evaluator}
    (ha : ∀ alternative ∈ alternatives, Evaluator.Returns alternative) {core : Core Value}
    (hc : core.pipeline.OnlyChecks) :
    Evaluator.Returns (evaluate strategy alternatives core) := by
  intro value
  refine Run.Ends.bind (tryAll_returns value ha 0 .empty) fun verdict hv => ?_
  cases verdict with
  | matched produced =>
    refine (Pipeline.run_returns hc "union" produced).mono (fun outcome ho a hown => ?_)
      fun _ hf => hf
    rw [← hv produced rfl]
    exact Option.some.inj (hown.symm.trans ho)
  | exhausted failures =>
    dsimp only
    unfold exhausted
    split
    · exact refuse_returns rfl value
    · cases strategy.mode with
      | strict => trivial
      | tolerant => exact Outcome.returns_of_none rfl

end Choice

/-! ## All forms -/

namespace Validator

/-- **A pure validator returns its input.**

**Proof sketch.** Induction on the form: each part returns what it was given, the form puts it
together as it took it apart, and the form's own checks leave it alone. -/
theorem evaluate_returns {validator : Validator} (h : validator.Composed) (hp : validator.Pure)
    (strategy : Strategy) : Evaluator.Returns (validator.evaluate strategy) := by
  induction validator with
  | leaf type core => exact Leaf.evaluate_returns hp.1 hp.2
  | list element core ih => exact Items.evaluate_returns (ih h hp.2) hp.1
  | nullable inner default core ih =>
    obtain ⟨⟨rfl, hc⟩, hinner⟩ := hp
    exact Optional.evaluate_returns (ih h hinner) hc
  | tuple arity elements core ih =>
    exact Positions.evaluateArray_returns (fun i => ih i (h i) (hp.2 i)) hp.1
  | union count alternatives core ih =>
    refine Choice.evaluate_returns (fun alternative ha => ?_) hp.1
    obtain ⟨i, rfl⟩ := List.mem_ofFn.mp ha
    exact ih i (h i) (hp.2 i)
  | pipe input output conversion core ihi iho => exact hp.1.elim
  | custom behaviour core => exact h.elim

end Validator

end Conform
