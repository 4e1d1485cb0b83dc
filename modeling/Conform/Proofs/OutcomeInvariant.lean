import Conform.Proofs.Coherence
import Conform.Proofs.Composed
import Conform.Validator.Action
import Conform.Validator.Combining
import Conform.Validator.Parsing

set_option autoImplicit false

/-!
# The outcome invariant

Every composed validator comes to coherent outcomes.  Each form keeps the invariant if its parts
do: a list and a tuple lose their value only to an item that recorded a failure, a union takes only
values without failures and so never misses a match, a pipe halts only on a failure.  By induction
on the form it follows for all of them, together with the faults that a run may stop with.

## Main results

* `Conform.Items.evaluate_ends`, `Conform.Optional.evaluate_ends`,
  `Conform.Positions.evaluateArray_ends`, `Conform.Choice.evaluate_ends`,
  `Conform.Stages.evaluate_ends` — the forms.
* `Conform.Validator.evaluate_ends` — every composed validator.
* `Conform.Validator.outcome_invariant` — what callers may rely on.
-/

namespace Conform

variable {strategy : Strategy} {awaits : Bool}

/-- What is asked of the parts of a validator: coherent outcomes, and no other faults than those
that the validator may stop with itself. -/
def Evaluator.Keeps (strategy : Strategy) (awaits : Bool) (part : Evaluator) : Prop :=
  ∀ value, (part value).Ends (Outcome.Coherent strategy.mode) (strategy.Raises awaits)

/-- A part of a validator may stop with the faults that the whole may stop with. -/
theorem Evaluator.Keeps.mono {awaits' : Bool} {part : Evaluator}
    (h : Evaluator.Keeps strategy awaits part) (ha : awaits = true → awaits' = true) :
    Evaluator.Keeps strategy awaits' part :=
  fun value => (h value).mono (fun _ ho => ho) fun _ => Strategy.Raises.mono ha

/-! ## Leaves -/

/-- A leaf keeps the invariant. -/
theorem Leaf.evaluate_ends (type : LeafType) {core : Core type.Carrier}
    (hc : core.pipeline.isAsync = true → awaits = true) :
    Evaluator.Keeps strategy awaits (Leaf.evaluate strategy type core) := by
  intro value
  unfold Leaf.evaluate
  cases type.read? value with
  | none => exact refuse_coherent rfl
  | some a =>
    rw [Run.ends_map]
    exact (Pipeline.run_ends hc a).mono (fun _ h => h.map _) fun _ h => h

/-! ## Lists -/

namespace Items

/-- Every item comes to a coherent outcome. -/
theorem outcomes_ends {element : Evaluator} (he : Evaluator.Keeps strategy awaits element) :
    ∀ (position : Nat) (items : List Value),
      (outcomes element position items).Ends
        (fun found => ∀ outcome ∈ found, outcome.Coherent strategy.mode) (strategy.Raises awaits)
  | _, [] => by simp [outcomes]
  | position, item :: rest => by
    refine Run.Ends.bind ((he item).under _ fun _ => Strategy.Raises.under _) fun outcome ho => ?_
    refine Run.Ends.bind (outcomes_ends he (position + 1) rest) fun later hl => ?_
    exact List.forall_mem_cons.mpr ⟨ho, hl⟩

/-- A list is without failures only if there were none before its items and no item has one. -/
theorem isEmpty_absorb (found : List (Outcome Value)) :
    ∀ (failures : Failures) (position : Nat),
      (absorb failures position found).isEmpty
        = (failures.isEmpty && found.all Outcome.isSuccess) := by
  induction found with
  | nil => simp [absorb]
  | cons outcome later ih =>
    intro failures position
    simp [absorb, ih, Outcome.isSuccess, Bool.and_assoc]

/-- The values produced, item by item. -/
@[simp] theorem produced_cons (outcome : Outcome Value) (later : List (Outcome Value)) :
    produced (outcome :: later)
      = outcome.value.bind fun a => (produced later).map (a :: ·) := by
  simp only [produced, List.mapM_cons]
  cases outcome.value with
  | none => rfl
  | some a => cases List.mapM (fun outcome : Outcome Value => outcome.value) later <;> rfl

/-- A list lacks its value only because of an item. -/
theorem exists_of_produced_eq_none :
    ∀ {found : List (Outcome Value)}, produced found = none →
      ∃ outcome ∈ found, outcome.value = none
  | [], h => nomatch h
  | outcome :: later, h => by
    cases hv : outcome.value with
    | none => exact ⟨outcome, by simp, hv⟩
    | some a =>
      have hl : produced later = none := by
        simpa only [produced_cons, hv, Option.bind_some, Option.map_eq_none_iff] using h
      obtain ⟨missing, hm, hn⟩ := exists_of_produced_eq_none hl
      exact ⟨missing, by simp [hm], hn⟩

/-- **A list keeps the invariant**: it loses its value only to an item that recorded a failure. -/
theorem evaluate_ends {element : Evaluator} {core : Core (List Value)}
    (hc : core.pipeline.isAsync = true → awaits = true)
    (he : Evaluator.Keeps strategy awaits element) :
    Evaluator.Keeps strategy awaits (evaluate strategy element core) := by
  intro value
  unfold evaluate
  cases value.items? with
  | none => exact refuse_coherent rfl
  | some items =>
    refine Run.Ends.bind (Pipeline.run_ends hc items) fun own ho => ?_
    refine Run.Ends.bind (outcomes_ends he 0 _) fun found hf => ?_
    refine ⟨fun hv => ?_, fun hu => absurd rfl hu, fun hm => ?_⟩
    · obtain ⟨missing, hmem, hn⟩ := exists_of_produced_eq_none (Option.map_eq_none_iff.mp hv)
      have hs := (hf missing hmem).flawed hn
      simp only [Outcome.isSuccess, isEmpty_absorb, Bool.and_eq_false_iff]
      exact Or.inr (List.all_eq_false.mpr ⟨missing, hmem, by simp [hs]⟩)
    · simp only [Outcome.isSuccess, isEmpty_absorb, Bool.and_eq_true, List.all_eq_true]
      exact ⟨ho.clean hm, fun outcome hmem => (hf outcome hmem).clean hm⟩

end Items

/-! ## Nullables -/

/-- A nullable keeps the invariant. -/
theorem Optional.evaluate_ends {inner : Evaluator} {default : Option Value} {core : Core Value}
    (hc : core.pipeline.isAsync = true → awaits = true)
    (hi : Evaluator.Keeps strategy awaits inner) :
    Evaluator.Keeps strategy awaits (Optional.evaluate strategy inner default core) := by
  intro value
  unfold Optional.evaluate
  split
  · exact Outcome.coherent_success _ _
  · exact Run.Ends.bind (hi _) fun outcome ho => Core.finish_ends hc ho

/-! ## Tuples -/

namespace Positions

variable {arity : Nat}

/-- What was gathered from leading positions lacks a value only because of a failure, and in a
strict run it holds no failure. -/
theorem gather_ends {elements : Fin arity → Evaluator}
    (he : ∀ i, Evaluator.Keeps strategy awaits (elements i)) (items : Vector Value arity) :
    ∀ (k : Nat) (hk : k ≤ arity), (gather elements items k hk).Ends
      (fun gathered => (gathered.produced = none → gathered.failures.isEmpty = false) ∧
        (strategy.mode = .strict → gathered.failures.isEmpty = true))
      (strategy.Raises awaits)
  | 0, _ => ⟨fun h => by simp at h, fun _ => rfl⟩
  | k + 1, hk => by
    refine Run.Ends.bind (gather_ends he items k (Nat.le_of_succ_le hk)) fun before hb => ?_
    refine Run.Ends.bind ((he ⟨k, hk⟩ items[k]).under _ fun _ => Strategy.Raises.under _)
      fun outcome ho => ?_
    refine ⟨fun hn => ?_, fun hm => ?_⟩
    · simp only [Failures.isEmpty_absorb, Bool.and_eq_false_iff]
      cases hp : before.produced with
      | none => exact Or.inl (hb.1 hp)
      | some values => exact Or.inr (ho.flawed (by simpa [hp] using hn))
    · simp only [Failures.isEmpty_absorb, Bool.and_eq_true]
      exact ⟨hb.2 hm, ho.clean hm⟩

/-- Positions keep the invariant. -/
theorem evaluate_ends {elements : Fin arity → Evaluator}
    (he : ∀ i, Evaluator.Keeps strategy awaits (elements i)) (items : List Value) :
    (evaluate strategy elements items).Ends (Outcome.Coherent strategy.mode)
      (strategy.Raises awaits) := by
  unfold evaluate
  cases Value.exactly? arity items with
  | none => exact refuse_coherent rfl
  | some items =>
    exact Run.Ends.bind (gather_ends he items arity (Nat.le_refl arity)) fun gathered hg =>
      ⟨hg.1, fun hu => absurd rfl hu, hg.2⟩

/-- **A tuple keeps the invariant.** -/
theorem evaluateArray_ends {elements : Fin arity → Evaluator}
    {core : Core (Vector Value arity)} (hc : core.pipeline.isAsync = true → awaits = true)
    (he : ∀ i, Evaluator.Keeps strategy awaits (elements i)) :
    Evaluator.Keeps strategy awaits (evaluateArray strategy elements core) := by
  intro value
  unfold evaluateArray
  cases value.items? with
  | none => exact refuse_coherent rfl
  | some items =>
    refine Run.Ends.bind (evaluate_ends he items) fun outcome ho => ?_
    exact Run.Ends.bind (Core.finish_ends hc ho) fun finished hf => hf.map _

end Positions

/-! ## Unions -/

namespace Choice

/-- Alternatives that were all tried left a failure, if there was one before or there were
alternatives at all.

**Proof sketch.** Induction on the alternatives.  A coherent outcome without a failure has a value
and so is a match; any other outcome and every fault leave a failure behind. -/
theorem tryAll_ends (value : Value) :
    ∀ {alternatives : List Evaluator},
      (∀ alternative ∈ alternatives, Evaluator.Keeps strategy awaits alternative) →
      ∀ (index : Nat) (failures : Failures), (tryAll value index alternatives failures).Ends
        (fun verdict => ∀ left, verdict = .exhausted left →
          alternatives ≠ [] ∨ failures.isEmpty = false → left.isEmpty = false)
        (strategy.Raises awaits)
  | [], _, _, failures => fun left hl h => by
    cases hl
    simpa using h
  | alternative :: rest, ha, index, failures => by
    have hr : ∀ later ∈ rest, Evaluator.Keeps strategy awaits later :=
      fun later hl => ha later (List.mem_cons_of_mem _ hl)
    have hrest := tryAll_ends value hr (index + 1)
    refine Run.Ends.bind (ha alternative (by simp) value).attempt fun found hf => ?_
    cases found with
    | ok outcome =>
      dsimp only
      split
      · rename_i hs
        obtain ⟨a, rfl⟩ := Outcome.Coherent.eq_success hf hs
        exact fun left hl => nomatch hl
      · rename_i hs
        have hs' : outcome.failures.isEmpty = false := by simpa [Outcome.isSuccess] using hs
        refine (hrest _).mono (fun verdict hv left hl _ => hv left hl (Or.inr ?_)) fun _ h => h
        simp [hs']
    | error fault =>
      dsimp only
      split
      · refine (hrest _).mono (fun verdict hv left hl _ => hv left hl (Or.inr ?_)) fun _ h => h
        simp
      · exact hf

/-- **A union keeps the invariant**: where no alternative matched it reports a failure. -/
theorem evaluate_ends {alternatives : List Evaluator} {core : Core Value}
    (hc : core.pipeline.isAsync = true → awaits = true)
    (ha : ∀ alternative ∈ alternatives, Evaluator.Keeps strategy awaits alternative) :
    Evaluator.Keeps strategy awaits (evaluate strategy alternatives core) := by
  intro value
  refine Run.Ends.bind (tryAll_ends value ha 0 .empty) fun verdict hv => ?_
  cases verdict with
  | matched produced => exact Pipeline.run_ends hc produced
  | exhausted failures =>
    dsimp only
    unfold exhausted
    split
    · exact refuse_coherent rfl
    · rename_i hlen
      have hf : failures.isEmpty = false :=
        hv failures rfl (Or.inl fun h => hlen (by simp [h]))
      cases hm : strategy.mode with
      | strict => exact Strategy.raises_of_strict hm rfl
      | tolerant => exact Outcome.coherent_of_flawed rfl rfl hf

end Choice

/-! ## Pipes -/

namespace Stages

/-- A pipe halts with a coherent outcome. -/
theorem cross_ends {source target : String} {conversion : Conversion} {first : Outcome Value}
    (hf : first.Coherent strategy.mode) :
    (cross strategy source target conversion first).Ends
      (fun crossing => ∀ outcome, crossing = .halted outcome → outcome.Coherent strategy.mode)
      (strategy.Raises awaits) := by
  unfold cross
  cases hv : first.value with
  | none => exact fun outcome ho => by cases ho; exact hf
  | some produced =>
    dsimp only
    split
    · rw [Run.ends_call_bind]
      cases conversion.convert produced with
      | ok value => exact fun outcome ho => nomatch ho
      | error reason =>
        refine Run.Ends.bind (refuse_ends rfl) fun refused hr => fun outcome ho => ?_
        cases ho
        exact Outcome.coherent_of_flawed hr.1 hr.2.1 hr.2.2
    · rename_i hs
      have hs' : first.isSuccess = false := by simpa using hs
      intro outcome ho
      cases ho
      exact ⟨fun _ => hs', fun _ => rfl, fun hm => absurd (hf.clean hm) hs⟩

/-- **A pipe keeps the invariant.** -/
theorem evaluate_ends {source target : String} {input output : Evaluator}
    {conversion : Conversion} {core : Core Value}
    (hc : core.pipeline.isAsync = true → awaits = true)
    (hi : Evaluator.Keeps strategy awaits input) (ho : Evaluator.Keeps strategy awaits output) :
    Evaluator.Keeps strategy awaits
      (evaluate strategy source target input output conversion core) := by
  intro value
  refine Run.Ends.bind (hi value) fun first hf => ?_
  refine Run.Ends.bind (cross_ends hf) fun crossing hx => ?_
  cases crossing with
  | halted outcome => exact hx outcome rfl
  | converted converted =>
    exact Run.Ends.bind (ho converted) fun outcome h => Core.finish_ends hc h

end Stages

/-! ## All forms -/

namespace Validator

/-- **Every composed validator keeps the invariant**, and it stops with a configuration fault only
if it has to be awaited and cannot be.

**Proof sketch.** Induction on the form.  A part that has to be awaited makes the whole one that has
to be awaited, so the faults of the parts are among those of the whole. -/
theorem evaluate_ends {validator : Validator} (h : validator.Composed) (strategy : Strategy) :
    Evaluator.Keeps strategy validator.requiresAsync (validator.evaluate strategy) := by
  induction validator with
  | leaf type core => exact Leaf.evaluate_ends type id
  | list element core ih =>
    exact Items.evaluate_ends (fun hc => by simp [requiresAsync, hc])
      ((ih h).mono fun hc => by simp [requiresAsync, hc])
  | nullable inner default core ih =>
    exact Optional.evaluate_ends (fun hc => by simp [requiresAsync, hc])
      ((ih h).mono fun hc => by simp [requiresAsync, hc])
  | tuple arity elements core ih =>
    exact Positions.evaluateArray_ends (fun hc => by simp [requiresAsync_tuple, hc])
      fun i => (ih i (h i)).mono fun hc => by
        simp [requiresAsync_tuple, someRequireAsync_iff.mpr ⟨i, hc⟩]
  | union count alternatives core ih =>
    refine Choice.evaluate_ends (fun hc => by simp [requiresAsync_union, hc])
      fun alternative ha => ?_
    obtain ⟨i, rfl⟩ := List.mem_ofFn.mp ha
    exact (ih i (h i)).mono fun hc => by
      simp [requiresAsync_union, someRequireAsync_iff.mpr ⟨i, hc⟩]
  | pipe input output conversion core ihi iho =>
    exact Stages.evaluate_ends (fun hc => by simp [requiresAsync, hc])
      ((ihi h.1).mono fun hc => by simp [requiresAsync, hc])
      ((iho h.2).mono fun hc => by simp [requiresAsync, hc])
  | custom behaviour core => exact h.elim

/-- A tolerant run that is permitted stops with no fault. -/
theorem tolerant_ends {validator : Validator} (h : validator.Composed) {scheduling : Scheduling}
    (hp : scheduling.Permits validator.requiresAsync) (value : Value) :
    (validator.evaluate ⟨.tolerant, scheduling⟩ value).Ends (Outcome.Coherent .tolerant)
      fun _ => False := by
  refine (evaluate_ends h ⟨.tolerant, scheduling⟩ value).mono (fun _ ho => ho) fun fault hf => ?_
  have hconfiguration : fault.isConfiguration = true := hf.isConfiguration rfl
  rw [hf.isConfiguration_eq_false hp] at hconfiguration
  exact Bool.false_ne_true hconfiguration

/-- A tolerant run that is permitted and does not panic comes to an outcome. -/
theorem exists_outcome {validator : Validator} (h : validator.Composed) {scheduling : Scheduling}
    (hp : scheduling.Permits validator.requiresAsync) {value : Value}
    (hpanic : (validator.evaluate ⟨.tolerant, scheduling⟩ value).result ≠ .error .panic) :
    ∃ outcome, (validator.evaluate ⟨.tolerant, scheduling⟩ value).result = .ok outcome := by
  have hends := tolerant_ends h hp value
  cases hr : (validator.evaluate ⟨.tolerant, scheduling⟩ value).result with
  | ok outcome => exact ⟨outcome, rfl⟩
  | error stop =>
    cases stop with
    | panic => exact absurd hr hpanic
    | fault fault => exact (hends.of_fault hr).elim

/-! ## Parsing -/

/-- A caller learns of an evaluation as it is: there is no recorded failure that a strict caller
would have to be given as a fault, and no fault that a tolerant caller would have to be given as a
recorded failure. -/
theorem settle_evaluate {validator : Validator} (h : validator.Composed) (strategy : Strategy)
    (value : Value) :
    settle strategy.mode (validator.evaluate strategy value)
      = validator.evaluate strategy value := by
  have hends := evaluate_ends h strategy value
  generalize validator.evaluate strategy value = run at hends ⊢
  obtain ⟨trace, (fault | _) | outcome⟩ := run
  · cases hm : strategy.mode with
    | strict => rfl
    | tolerant =>
      have hr : strategy.Raises validator.requiresAsync fault := hends.of_fault rfl
      obtain ⟨kind, rfl⟩ := Fault.eq_configuration (hr.isConfiguration hm)
      simp [settle, Run.attempt, Run.bind_eq, Outcome.ofFault, Fault.key?, Run.ofExcept, Run.fail]
  · cases strategy.mode <;> rfl
  · have ho : outcome.Coherent strategy.mode := hends.of_ok rfl
    cases hm : strategy.mode with
    | strict =>
      obtain ⟨a, rfl⟩ := ho.eq_success (ho.clean hm)
      simp [settle, Run.bind_eq, Run.pure_eq, Outcome.success, Failures.empty, Keyed.empty,
        Keyed.first?]
    | tolerant => simp [settle, Run.attempt, Run.bind_eq, Run.pure_eq]

/-- A validator that may be run passes the gate. -/
theorem ensureRunnable_of_permits {validator : Validator} {strategy : Strategy}
    (hp : strategy.scheduling.Permits validator.requiresAsync) :
    validator.ensureRunnable strategy = pure () := by
  unfold ensureRunnable
  cases hs : strategy.scheduling with
  | sync => simp [hp hs]
  | async => rfl

/-- A validator that may be run is put to its evaluation, and the caller is shown the metadata entry
beside its outcome. -/
theorem parse_eq_evaluate {validator : Validator} (h : validator.Composed) {strategy : Strategy}
    (hp : strategy.scheduling.Permits validator.requiresAsync) (store : Metadata.Store)
    (value : Value) :
    validator.parse store strategy value
      = (fun outcome => ⟨outcome, validator.shown? store⟩) <$>
          validator.evaluate strategy value := by
  rw [parse, ensureRunnable_of_permits hp, pure_bind, settle_evaluate h, ← bind_pure_comp]

/-- A validator that has to be awaited is refused at once where nothing can be awaited: nothing is
called, and the fault names the kind of the validator itself. -/
theorem parse_eq_fail {validator : Validator} (h : validator.requiresAsync = true) (mode : Mode)
    (store : Metadata.Store) (value : Value) :
    validator.parse store ⟨mode, .sync⟩ value = Run.fail (.configuration validator.kind) := by
  simp only [parse, ensureRunnable, h, if_true]
  rfl

/-- A caller of a validator that may be run is given the outcome of its evaluation. -/
theorem parse_ok_iff {validator : Validator} (h : validator.Composed) {strategy : Strategy}
    (hp : strategy.scheduling.Permits validator.requiresAsync) {store : Metadata.Store}
    {value : Value} {report : Report} :
    (validator.parse store strategy value).result = .ok report ↔
      (validator.evaluate strategy value).result = .ok report.outcome ∧
        validator.shown? store = report.entry := by
  obtain ⟨outcome, entry⟩ := report
  rw [parse_eq_evaluate h hp, Run.map_eq]
  cases (validator.evaluate strategy value).result <;> simp [Except.map]

/-- A parse of a validator that may be run stops as its evaluation does. -/
theorem parse_error_iff {validator : Validator} (h : validator.Composed) {strategy : Strategy}
    (hp : strategy.scheduling.Permits validator.requiresAsync) {store : Metadata.Store}
    {value : Value} {stop : Stop} :
    (validator.parse store strategy value).result = .error stop ↔
      (validator.evaluate strategy value).result = .error stop := by
  rw [parse_eq_evaluate h hp, Run.map_eq]
  cases (validator.evaluate strategy value).result <;> simp [Except.map]

/-- What a caller is given came out of an evaluation. -/
theorem evaluate_of_parse {validator : Validator} (h : validator.Composed) {strategy : Strategy}
    {store : Metadata.Store} {value : Value} {report : Report}
    (hp : (validator.parse store strategy value).result = .ok report) :
    (validator.evaluate strategy value).result = .ok report.outcome := by
  obtain ⟨mode, scheduling⟩ := strategy
  obtain hpermits | ⟨rfl, ha⟩ := scheduling.permits_or validator.requiresAsync
  · exact ((parse_ok_iff h hpermits).mp hp).1
  · rw [parse_eq_fail ha] at hp
    exact nomatch hp

/-- What a strict caller is given is a value without failures. -/
theorem success_of_parse {validator : Validator} (h : validator.Composed) {store : Metadata.Store}
    {scheduling : Scheduling} {value : Value} {report : Report}
    (hp : (validator.parse store ⟨.strict, scheduling⟩ value).result = .ok report) :
    ∃ a, report.outcome = .success a := by
  have ho : (validator.evaluate ⟨.strict, scheduling⟩ value).result = .ok report.outcome :=
    evaluate_of_parse h hp
  have hc : report.outcome.Coherent .strict :=
    (evaluate_ends h ⟨.strict, scheduling⟩ value).of_ok ho
  exact hc.eq_success (hc.clean rfl)

/-- **Outcomes of composed validators.**  An outcome without a value has a failure; one with an
untransformed value has no value and a failure; a strict run comes to a value and nothing else, so
that no recorded failure is ever raised as a fault; a tolerant run stops with configuration faults
only.  What a strict caller is given is a value without failures. -/
theorem outcome_invariant {validator : Validator} (h : validator.Composed) (value : Value) :
    (∀ strategy outcome, (validator.evaluate strategy value).result = .ok outcome →
      (outcome.value = none → outcome.failures.isEmpty = false) ∧
      (outcome.untransformed ≠ none →
        outcome.value = none ∧ outcome.failures.isEmpty = false) ∧
      (strategy.mode = .strict → ∃ a, outcome = ⟨some a, .empty, none⟩)) ∧
    (∀ strategy fault, strategy.mode = .tolerant →
      (validator.evaluate strategy value).result = .error (.fault fault) →
        fault.isConfiguration = true) ∧
    (∀ scheduling, settle .strict (validator.evaluate ⟨.strict, scheduling⟩ value)
      = validator.evaluate ⟨.strict, scheduling⟩ value) ∧
    ∀ store scheduling report,
      (validator.parse store ⟨.strict, scheduling⟩ value).result = .ok report →
        ∃ a, report.outcome = ⟨some a, .empty, none⟩ := by
  have hends := evaluate_ends h
  refine ⟨?_, ?_, ?_, ?_⟩
  · intro strategy outcome ho
    have hc : outcome.Coherent strategy.mode := (hends strategy value).of_ok ho
    refine ⟨hc.flawed, fun hu => ?_, fun hm => hc.eq_success (hc.clean hm)⟩
    have hv : outcome.value = none := hc.halted hu
    exact ⟨hv, hc.flawed hv⟩
  · intro strategy fault hm hf
    have hr : strategy.Raises validator.requiresAsync fault := (hends strategy value).of_fault hf
    exact hr.isConfiguration hm
  · intro scheduling
    exact settle_evaluate h ⟨.strict, scheduling⟩ value
  · intro store scheduling report hp
    exact success_of_parse h hp

/-- A pipe halts on a check that its first stage fails: the value is left untransformed, and the
failure accounts for the missing result. -/
theorem outcome_invariant_of_halted_pipe :
    let checked := (ofType .integer).act (.check "small" "too large" none fun _ => .answer false)
    let validator := checked.thenTo ⟨"same", fun value => .answer (.ok value)⟩ (ofType .any)
    let outcome : Outcome Value :=
      ⟨none, Failures.empty.record "small" "too large", some (.int 3)⟩
    validator.Composed ∧
      (validator.evaluate ⟨.tolerant, .sync⟩ (.int 3)).result = .ok outcome ∧
      outcome.value = none ∧ outcome.failures.isEmpty = false := by
  intro checked validator outcome
  have h : validator.Composed := ⟨trivial, trivial⟩
  have ho : (validator.evaluate ⟨.tolerant, .sync⟩ (.int 3)).result = .ok outcome := rfl
  exact ⟨h, ho, ((outcome_invariant h (.int 3)).1 _ outcome ho).2.1 (by simp [outcome])⟩

end Validator

end Conform
