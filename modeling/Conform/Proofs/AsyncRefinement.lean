import Conform.Proofs.Assembly
import Conform.Proofs.Awaiting
import Conform.Proofs.Mirroring
import Conform.Proofs.OutcomeInvariant

set_option autoImplicit false

/-!
# Waiting as if nothing had to be awaited

A run that may wait differs from one that may not in its asynchronous checks alone.  If each of
them is replaced by a check of the answer that waiting brings, a run that never waits comes to the
same as a run of the original that waits, calls the same functions in the same order, and gives them
the same values; what was called as an asynchronous check is called as a check.

Every form is followed once, with the operations of both sides as parameters.  Two choices of the
operations are of interest: the validator's own and those with the asynchronous checks replaced,
and, where there is no asynchronous check, the validator's own on both sides.

## Main definitions

* `Conform.Core.Mirrors`, `Conform.Evaluator.Mirrors` — the same is come to on every value, by a run
  that may wait here and by one that may not there.

## Main results

* `Conform.Validator.evaluate_mirrors_awaited`, `Conform.Validator.evaluate_async_eq_sync` — the two
  choices.
* `Conform.Validator.async_refines_sync` — what callers may rely on.
-/

namespace Conform

variable {α : Type} {g : Call → Call} {mode : Mode}

/-- Operations whose runs that may wait are mirrored by runs of other operations that may not. -/
def Core.Mirrors (g : Call → Call) (mode : Mode) (core core' : Core α) : Prop :=
  ∀ kind a, Run.Mirrors g (core.pipeline.run ⟨mode, .async⟩ kind a)
    (core'.pipeline.run ⟨mode, .sync⟩ kind a)

/-- Two ways to evaluate that mirror each other on every value. -/
def Evaluator.Mirrors (g : Call → Call) (part part' : Evaluator) : Prop :=
  ∀ value, Run.Mirrors g (part value) (part' value)

/-! ## Operations -/

/-- What a check found is judged without a call. -/
theorem Progress.judge_mirrors (progress : Progress α) (name message : String) (passed : Bool) :
    Run.Mirrors g (progress.judge mode name message passed)
      (progress.judge mode name message passed) := by
  unfold judge
  cases passed with
  | true => exact Run.mirrors_pure _
  | false =>
    cases mode with
    | strict => exact Run.mirrors_fail _
    | tolerant => exact Run.mirrors_pure _

/-- **The check of the final answer does what the asynchronous check did.** -/
theorem Operation.advance_mirrors_awaited (kind : String) (operation : Operation α)
    (progress : Progress α) :
    Run.Mirrors Call.awaited (operation.advance ⟨mode, .async⟩ kind progress)
      (operation.awaited.advance ⟨mode, .sync⟩ kind progress) := by
  cases operation with
  | check c => exact Run.mirrors_call_bind rfl (progress.judge_mirrors c.name c.message _)
  | asyncCheck c => exact Run.mirrors_call_bind rfl (progress.judge_mirrors c.name c.message _)
  | transformation t =>
    refine Run.mirrors_call_bind rfl ?_
    cases t.apply progress.value with
    | answer a => exact Run.mirrors_pure _
    | panicked => exact Run.mirrors_panic

/-- An operation that need not be awaited is carried out alike whether waiting is possible. -/
theorem Operation.advance_async_eq_sync (kind : String) {operation : Operation α}
    (h : operation.isAsync = false) (progress : Progress α) :
    operation.advance ⟨mode, .async⟩ kind progress
      = operation.advance ⟨mode, .sync⟩ kind progress := by
  cases operation with
  | check c => rfl
  | asyncCheck c => exact nomatch h
  | transformation t => rfl

/-- Operations with their asynchronous checks replaced mirror the operations that there were. -/
theorem Core.mirrors_awaited (core : Core α) : core.Mirrors Call.awaited mode core.awaited := by
  intro kind a
  refine Run.Mirrors.map ?_ _
  simp only [Pipeline.resume, Core.awaited, Pipeline.awaited, List.foldlM_map]
  exact Run.mirrors_foldlM
    (fun operation _ progress => operation.advance_mirrors_awaited kind progress) _

/-- Operations none of which has to be awaited mirror themselves. -/
theorem Core.mirrors_self {core : Core α} (h : core.pipeline.isAsync = false) :
    core.Mirrors id mode core := by
  intro kind a
  have hop : ∀ operation ∈ core.pipeline.operations, operation.isAsync = false := by
    simpa [Pipeline.isAsync] using h
  refine Run.Mirrors.map (Run.mirrors_foldlM (fun operation hmem progress => ?_) _) _
  exact Run.mirrors_id.mpr (operation.advance_async_eq_sync kind (hop operation hmem) progress)

/-- The last operations of validators whose operations mirror each other. -/
theorem Core.Mirrors.finish {core core' : Core α} (hc : core.Mirrors g mode core') (kind : String)
    (outcome : Outcome α) :
    Run.Mirrors g (core.finish ⟨mode, .async⟩ kind outcome)
      (core'.finish ⟨mode, .sync⟩ kind outcome) := by
  unfold Core.finish
  cases outcome.value with
  | none => exact Run.mirrors_pure _
  | some a => exact (hc kind a).bind fun own => Run.mirrors_pure _

/-- A value is refused without a call. -/
theorem refuse_mirrors (fault : Fault) :
    Run.Mirrors g (refuse ⟨mode, .async⟩ fault : Run (Outcome α))
      (refuse ⟨mode, .sync⟩ fault) :=
  Run.mirrors_ofExcept _

/-! ## Forms -/

/-- Leaves. -/
theorem Leaf.evaluate_mirrors (type : LeafType) {core core' : Core type.Carrier}
    (hc : core.Mirrors g mode core') :
    Evaluator.Mirrors g (Leaf.evaluate ⟨mode, .async⟩ type core)
      (Leaf.evaluate ⟨mode, .sync⟩ type core') := by
  intro value
  unfold Leaf.evaluate
  cases type.read? value with
  | none => exact refuse_mirrors _
  | some a => exact (hc type.name a).map _

namespace Items

/-- Items, one after the other. -/
theorem outcomes_mirrors {element element' : Evaluator}
    (he : Evaluator.Mirrors g element element') :
    ∀ (position : Nat) (items : List Value),
      Run.Mirrors g (outcomes element position items) (outcomes element' position items)
  | _, [] => Run.mirrors_pure _
  | position, item :: rest => by
    refine ((he item).under (Path.position position)).bind fun outcome => ?_
    exact (outcomes_mirrors he (position + 1) rest).bind fun later => Run.mirrors_pure _

/-- Lists. -/
theorem evaluate_mirrors {element element' : Evaluator} {core core' : Core (List Value)}
    (he : Evaluator.Mirrors g element element') (hc : core.Mirrors g mode core') :
    Evaluator.Mirrors g (evaluate ⟨mode, .async⟩ element core)
      (evaluate ⟨mode, .sync⟩ element' core') := by
  intro value
  unfold evaluate
  cases value.items? with
  | none => exact refuse_mirrors _
  | some items =>
    refine (hc "list" items).bind fun own => ?_
    exact (outcomes_mirrors he 0 _).bind fun found => Run.mirrors_pure _

end Items

/-- Nullables.  Neither side runs anything on `null`. -/
theorem Optional.evaluate_mirrors {inner inner' : Evaluator} {core core' : Core Value}
    (hi : Evaluator.Mirrors g inner inner') (default : Option Value)
    (hc : core.Mirrors g mode core') :
    Evaluator.Mirrors g (Optional.evaluate ⟨mode, .async⟩ inner default core)
      (Optional.evaluate ⟨mode, .sync⟩ inner' default core') := by
  intro value
  unfold Optional.evaluate
  split
  · exact Run.mirrors_pure _
  · exact (hi _).bind fun outcome => hc.finish "nullable" outcome

namespace Positions

variable {arity : Nat}

/-- Positions, one after the other. -/
theorem gather_mirrors {elements elements' : Fin arity → Evaluator}
    (he : ∀ i, Evaluator.Mirrors g (elements i) (elements' i)) (items : Vector Value arity) :
    ∀ (k : Nat) (hk : k ≤ arity),
      Run.Mirrors g (gather elements items k hk) (gather elements' items k hk)
  | 0, _ => Run.mirrors_pure _
  | k + 1, hk => by
    refine (gather_mirrors he items k (Nat.le_of_succ_le hk)).bind fun before => ?_
    refine ((he ⟨k, hk⟩ items[k]).under (Path.position k)).bind fun outcome => ?_
    exact Run.mirrors_pure _

/-- Tuples. -/
theorem evaluateArray_mirrors {elements elements' : Fin arity → Evaluator}
    {core core' : Core (Vector Value arity)}
    (he : ∀ i, Evaluator.Mirrors g (elements i) (elements' i)) (hc : core.Mirrors g mode core') :
    Evaluator.Mirrors g (evaluateArray ⟨mode, .async⟩ elements core)
      (evaluateArray ⟨mode, .sync⟩ elements' core') := by
  have hp (items : List Value) : Run.Mirrors g (evaluate ⟨mode, .async⟩ elements items)
      (evaluate ⟨mode, .sync⟩ elements' items) := by
    unfold evaluate
    cases Value.exactly? arity items with
    | none => exact refuse_mirrors _
    | some items =>
      exact (gather_mirrors he items arity (Nat.le_refl arity)).bind fun _ => Run.mirrors_pure _
  intro value
  unfold evaluateArray
  cases value.items? with
  | none => exact refuse_mirrors _
  | some items =>
    refine (hp items).bind fun outcome => ?_
    exact (hc.finish "tuple" outcome).bind fun finished => Run.mirrors_pure _

end Positions

namespace Choice

/-- Alternatives, one after the other, up to the same match. -/
theorem tryAll_mirrors (value : Value) :
    ∀ {count : Nat} {alternatives alternatives' : Fin count → Evaluator},
      (∀ i, Evaluator.Mirrors g (alternatives i) (alternatives' i)) →
      ∀ (index : Nat) (failures : Failures),
        Run.Mirrors g (tryAll value index (List.ofFn alternatives) failures)
          (tryAll value index (List.ofFn alternatives') failures)
  | 0, _, _, _, _, _ => Run.mirrors_pure _
  | count + 1, alternatives, alternatives', ha, index, failures => by
    rw [List.ofFn_succ, List.ofFn_succ]
    have hrest := tryAll_mirrors value (fun i => ha (Fin.succ i)) (index + 1)
    refine (ha 0 value).attempt.bind fun found => ?_
    cases found with
    | ok outcome =>
      dsimp only
      split
      · split
        · exact Run.mirrors_pure _
        · exact hrest _
      · exact hrest _
    | error fault =>
      dsimp only
      split
      · exact hrest _
      · exact Run.mirrors_fail _

/-- What no alternative matches is refused without a call. -/
theorem exhausted_mirrors (count : Nat) (failures : Failures) :
    Run.Mirrors g (exhausted ⟨mode, .async⟩ count failures)
      (exhausted ⟨mode, .sync⟩ count failures) := by
  unfold exhausted
  split
  · exact refuse_mirrors _
  · cases mode with
    | strict => exact Run.mirrors_fail _
    | tolerant => exact Run.mirrors_pure _

/-- Unions. -/
theorem evaluate_mirrors {count : Nat} {alternatives alternatives' : Fin count → Evaluator}
    {core core' : Core Value} (ha : ∀ i, Evaluator.Mirrors g (alternatives i) (alternatives' i))
    (hc : core.Mirrors g mode core') :
    Evaluator.Mirrors g (evaluate ⟨mode, .async⟩ (List.ofFn alternatives) core)
      (evaluate ⟨mode, .sync⟩ (List.ofFn alternatives') core') := by
  intro value
  refine (tryAll_mirrors value ha 0 .empty).bind fun verdict => ?_
  cases verdict with
  | matched produced => exact hc "union" produced
  | exhausted failures =>
    simp only [List.length_ofFn]
    exact exhausted_mirrors count failures

end Choice

namespace Stages

/-- The way from the first stage to the second, with the same conversion. -/
theorem cross_mirrors
    (hg : ∀ label produced, g ⟨.conversion, .user, label, produced⟩
      = ⟨.conversion, .user, label, produced⟩)
    (source target : String) (conversion : Conversion) (first : Outcome Value) :
    Run.Mirrors g (cross ⟨mode, .async⟩ source target conversion first)
      (cross ⟨mode, .sync⟩ source target conversion first) := by
  unfold cross
  cases first.value with
  | none => exact Run.mirrors_pure _
  | some produced =>
    dsimp only
    split
    · refine Run.mirrors_call_bind (hg _ _) ?_
      cases conversion.convert produced with
      | ok value => exact Run.mirrors_pure _
      | error reason => exact (refuse_mirrors _).bind fun refused => Run.mirrors_pure _
    · exact Run.mirrors_pure _

/-- Pipes. -/
theorem evaluate_mirrors
    (hg : ∀ label produced, g ⟨.conversion, .user, label, produced⟩
      = ⟨.conversion, .user, label, produced⟩)
    {input input' output output' : Evaluator} {core core' : Core Value}
    (hi : Evaluator.Mirrors g input input') (ho : Evaluator.Mirrors g output output')
    (source target : String) (conversion : Conversion) (hc : core.Mirrors g mode core') :
    Evaluator.Mirrors g (evaluate ⟨mode, .async⟩ source target input output conversion core)
      (evaluate ⟨mode, .sync⟩ source target input' output' conversion core') := by
  intro value
  refine (hi value).bind fun first => ?_
  refine (cross_mirrors hg source target conversion first).bind fun crossing => ?_
  cases crossing with
  | halted outcome => exact Run.mirrors_pure _
  | converted converted =>
    exact (ho converted).bind fun outcome => hc.finish "pipe" outcome

end Stages

/-! ## All forms -/

namespace Validator

/-- **A validator that is waited for does what it does with its asynchronous checks replaced.** -/
theorem evaluate_mirrors_awaited {validator : Validator} (h : validator.Composed) (mode : Mode) :
    Evaluator.Mirrors Call.awaited (validator.evaluate ⟨mode, .async⟩)
      (validator.awaited.evaluate ⟨mode, .sync⟩) := by
  induction validator with
  | leaf type core => exact Leaf.evaluate_mirrors type core.mirrors_awaited
  | list element core ih => exact Items.evaluate_mirrors (ih h) core.mirrors_awaited
  | nullable inner default core ih =>
    exact Optional.evaluate_mirrors (ih h) default core.mirrors_awaited
  | tuple arity elements core ih =>
    exact Positions.evaluateArray_mirrors (fun i => ih i (h i)) core.mirrors_awaited
  | union count alternatives core ih =>
    exact Choice.evaluate_mirrors (fun i => ih i (h i)) core.mirrors_awaited
  | pipe input output conversion core ihi iho =>
    simp only [awaited, evaluate, kind_awaited]
    exact Stages.evaluate_mirrors (fun _ _ => rfl) (ihi h.1) (iho h.2) input.kind output.kind
      conversion core.mirrors_awaited
  | custom behaviour core => exact h.elim

/-- **A validator that need not be awaited does the same whether waiting is possible.** -/
theorem evaluate_async_eq_sync {validator : Validator} (h : validator.Composed)
    (ha : validator.requiresAsync = false) (mode : Mode) (value : Value) :
    validator.evaluate ⟨mode, .async⟩ value = validator.evaluate ⟨mode, .sync⟩ value := by
  suffices hm : Evaluator.Mirrors id (validator.evaluate ⟨mode, .async⟩)
      (validator.evaluate ⟨mode, .sync⟩) from Run.mirrors_id.mp (hm value)
  induction validator with
  | leaf type core => exact Leaf.evaluate_mirrors type (Core.mirrors_self ha)
  | list element core ih =>
    obtain ⟨hc, he⟩ := Bool.or_eq_false_iff.mp ha
    exact Items.evaluate_mirrors (ih h he) (Core.mirrors_self hc)
  | nullable inner default core ih =>
    obtain ⟨hc, hi⟩ := Bool.or_eq_false_iff.mp ha
    exact Optional.evaluate_mirrors (ih h hi) default (Core.mirrors_self hc)
  | tuple arity elements core ih =>
    obtain ⟨hc, he⟩ := Bool.or_eq_false_iff.mp ha
    exact Positions.evaluateArray_mirrors
      (fun i => ih i (h i) (someRequireAsync_eq_false_iff.mp he i)) (Core.mirrors_self hc)
  | union count alternatives core ih =>
    obtain ⟨hc, he⟩ := Bool.or_eq_false_iff.mp ha
    exact Choice.evaluate_mirrors
      (fun i => ih i (h i) (someRequireAsync_eq_false_iff.mp he i)) (Core.mirrors_self hc)
  | pipe input output conversion core ihi iho =>
    obtain ⟨hci, ho⟩ := Bool.or_eq_false_iff.mp ha
    obtain ⟨hc, hi⟩ := Bool.or_eq_false_iff.mp hci
    exact Stages.evaluate_mirrors (fun _ _ => rfl) (ihi h.1 hi) (iho h.2 ho) input.kind output.kind
      conversion (Core.mirrors_self hc)
  | custom behaviour core => exact h.elim

/-- **Waiting refines not waiting.**  A run that may wait is, call by call, the run that never
waits of the validator with a check of the final answer in place of each asynchronous check: it
comes to the same result, fault or panic, and calls the same functions in the same order with the
same values.  The same holds of parsing, and a validator that need not be awaited is parsed alike
with itself whether waiting is possible.

**Proof sketch.** Each form of validator mirrors itself if its parts and its operations do
(`evaluate_mirrors_awaited`, `evaluate_async_eq_sync`).  A parse that is not refused at once is an
evaluation (`parse_eq_evaluate`), and the replacement leaves nothing to be awaited. -/
theorem async_refines_sync {validator : Validator} (h : validator.Composed) :
    (∀ mode value, (validator.evaluate ⟨mode, .async⟩ value).relabel Call.awaited
      = validator.awaited.evaluate ⟨mode, .sync⟩ value) ∧
    (∀ store mode value, (validator.parse store ⟨mode, .async⟩ value).relabel Call.awaited
      = validator.awaited.parse store ⟨mode, .sync⟩ value) ∧
    (validator.requiresAsync = false → ∀ store mode value,
      validator.parse store ⟨mode, .async⟩ value = validator.parse store ⟨mode, .sync⟩ value) := by
  have hw : validator.awaited.requiresAsync = false := requiresAsync_awaited h
  refine ⟨?_, ?_, ?_⟩
  · intro mode value
    exact evaluate_mirrors_awaited h mode value
  · intro store mode value
    have hs : validator.awaited.shown? store = validator.shown? store := by
      simp [shown?]
    rw [parse_eq_evaluate h Scheduling.permits_async,
      parse_eq_evaluate (composed_awaited h) (Scheduling.permits_of_eq_false hw), hs]
    exact (evaluate_mirrors_awaited h mode value).map _
  · intro ha store mode value
    rw [parse_eq_evaluate h Scheduling.permits_async,
      parse_eq_evaluate h (Scheduling.permits_of_eq_false ha),
      evaluate_async_eq_sync h ha mode value]

/-- A pair with an asynchronous check grows by a position.  The check that replaces it is called
with the leading two values, fails as it did in the end, and is recorded in its place. -/
theorem async_refines_sync_of_grown_pair :
    let known : AsyncCheck (Vector Value 2) := ⟨"known", "unknown pair",
      fun values => .arr values.toList, fun _ => .answer (.pending (.ready false))⟩
    let two := (ofType .any).and (ofType .any)
    let validator := (two.operate (.asyncCheck known)).and (ofType .any)
    let items : List Value := [.bool true, .null, .bool false]
    validator.Composed ∧ validator.requiresAsync = true ∧
      validator.awaited.evaluate ⟨.tolerant, .sync⟩ (.arr items)
        = ⟨[⟨.check, .user, "known", .arr [.bool true, .null]⟩],
            .ok ⟨some (.arr items), Failures.empty.record "known" "unknown pair", none⟩⟩ ∧
      two.requiresAsync = false ∧
      two.parse .empty ⟨.strict, .async⟩ .null = two.parse .empty ⟨.strict, .sync⟩ .null := by
  intro known two validator items
  have htwo : two.Composed := composed_and trivial trivial
  have h : validator.Composed := composed_and (composed_operate htwo _) trivial
  refine ⟨h, rfl, ?_, rfl, (async_refines_sync htwo).2.2 rfl .empty .strict .null⟩
  rw [← (async_refines_sync h).1]
  rfl

end Validator

end Conform
