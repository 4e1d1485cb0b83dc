import Conform.Proofs.Assembly
import Conform.Proofs.PipeAssociativity
import Conform.Proofs.PipelineRuns
import Conform.Proofs.PureValidation

set_option autoImplicit false

/-!
# Operations that come last

A leaf, a tuple, a union, a pipe, and a nullable that is given something other than `null` run their
own operations at the end, on the value that their parts came to.  One more operation therefore acts
on the outcome that there was without it, whichever of these forms it is added to: it sees the value
of that outcome, adds its own failure to those recorded so far, whoever recorded them, and leaves
alone an outcome without a value.

A list runs its operations first, on the items as they come in, and a validator that was written by
hand does not run them at all.  Neither has a place here.

## Main definitions

* `Conform.Operation.follow` — what one more operation makes of an outcome.
* `Conform.Validator.OperatesLast` — the operations of a validator see what its parts came to.
* `Conform.Validator.operandOutcome` — the outcome of a validator in the type that its operations
  work on.

## Main results

* `Conform.Core.finish_push` — one more operation after the others.
* `Conform.Validator.evaluate_eq_present` — an evaluation shows the outcome as JSON.
* `Conform.Validator.operation_follows` — what callers may rely on.
-/

namespace Conform

variable {α : Type} {strategy : Strategy} {kind : String}

/-! ## One operation on an outcome -/

/-- Takes note of what a check found: nothing if it passed; else a strict run stops and a tolerant
one records the failure beside the others. -/
def Outcome.judge (mode : Mode) (name message : String) (passed : Bool) (outcome : Outcome α) :
    Run (Outcome α) :=
  if passed then pure outcome
  else match mode with
    | .strict => Run.fail (.validation name message)
    | .tolerant => pure (outcome.record name message)

/-- **What one more operation makes of an outcome**: nothing if there is no value.  A check is called
with the value and judged, a transformation replaces the value, and an asynchronous check cannot be
carried out where a run may not wait. -/
def Operation.follow (strategy : Strategy) (kind : String) (operation : Operation α)
    (outcome : Outcome α) : Run (Outcome α) :=
  match outcome.value with
  | none => pure outcome
  | some a =>
    match operation with
    | .check c => do
      Run.call .check c.origin c.name (c.view a)
      outcome.judge strategy.mode c.name c.message (c.passes a)
    | .asyncCheck c =>
      match strategy.scheduling with
      | .sync => Run.fail (.configuration kind)
      | .async => do
        Run.call .asyncCheck .user c.name (c.view a)
        outcome.judge strategy.mode c.name c.message (c.passes a)
    | .transformation t => do
      Run.call .transformation t.origin t.label (t.view a)
      match t.apply a with
      | .answer b => pure (outcome.withValue b)
      | .panicked => Run.panic

/-- An outcome after a run of operations on its value. -/
def Outcome.joined (outcome : Outcome α) (progress : Progress α) : Outcome α :=
  { outcome.absorb "" progress.outcome with value := some progress.value }

/-- The first run of operations on a value without failures says all there is. -/
theorem Outcome.joined_success (a : α) (progress : Progress α) :
    (Outcome.success a).joined progress = progress.outcome :=
  Outcome.ext rfl (Failures.absorb_root progress.failures) rfl

/-- What is recorded last in a run of operations is recorded last of all. -/
theorem Outcome.joined_record (outcome : Outcome α) (progress : Progress α)
    (name message : String) :
    outcome.joined { progress with failures := progress.failures.record name message }
      = (outcome.joined progress).record name message :=
  Outcome.ext rfl (Failures.absorb_root_record outcome.failures progress.failures name message) rfl

theorem Outcome.judge_joined (mode : Mode) (name message : String) (passed : Bool)
    (outcome : Outcome α) (progress : Progress α) :
    (outcome.joined progress).judge mode name message passed
      = outcome.joined <$> progress.judge mode name message passed := by
  rw [Run.map_eq]
  cases passed with
  | true => rfl
  | false =>
    cases mode with
    | strict => rfl
    | tolerant => exact congrArg pure (outcome.joined_record progress name message).symm

/-- **An operation that follows a run of operations** is one more step of that run. -/
theorem Operation.follow_joined (operation : Operation α) (outcome : Outcome α)
    (progress : Progress α) :
    operation.follow strategy kind (outcome.joined progress)
      = outcome.joined <$> operation.advance strategy kind progress := by
  cases operation with
  | check c =>
    simp only [advance, map_bind, ← Outcome.judge_joined]
    rfl
  | asyncCheck c =>
    cases hs : strategy.scheduling with
    | sync =>
      simp only [advance, hs, Run.map_eq]
      simp only [follow, hs]
      rfl
    | async =>
      simp only [advance, hs, map_bind, ← Outcome.judge_joined]
      simp only [follow, hs]
      rfl
  | transformation t =>
    simp only [advance, map_bind]
    simp only [follow, Outcome.joined]
    cases t.apply progress.value <;> rfl

namespace Core

/-- Operations that are given a value join what they come to. -/
theorem finish_eq {outcome : Outcome α} {a : α} (ha : outcome.value = some a) (core : Core α) :
    core.finish strategy kind outcome
      = outcome.joined <$> core.pipeline.resume strategy kind ⟨a, .empty⟩ := by
  simp only [finish, ha, Pipeline.run, map_eq_pure_bind, bind_assoc, pure_bind]
  rfl

theorem finish_of_none (core : Core α) {outcome : Outcome α} (hn : outcome.value = none) :
    core.finish strategy kind outcome = pure outcome := by
  simp only [finish, hn]

/-- **One more operation comes after the others**, on the outcome that they come to. -/
theorem finish_push (core : Core α) (operation : Operation α) (outcome : Outcome α) :
    (core.push operation).finish strategy kind outcome
      = core.finish strategy kind outcome >>= operation.follow strategy kind := by
  cases hv : outcome.value with
  | none =>
    rw [finish_of_none _ hv, finish_of_none _ hv, pure_bind]
    simp only [Operation.follow, hv]
  | some a =>
    rw [finish_eq hv, finish_eq hv, push, Pipeline.resume_push, map_bind, bind_map_left]
    exact bind_congr fun reached => (operation.follow_joined outcome reached).symm

/-- A run that comes to no value is left as it is. -/
theorem finish_valueless {run : Run (Outcome α)}
    (h : run.Ends (fun outcome => outcome.value = none) fun _ => True) (core : Core α) :
    run >>= core.finish strategy kind = run :=
  (h.bind_congr fun _ hn => core.finish_of_none hn).trans (bind_pure run)

/-- Where a value is refused, there is none to run operations on and none to show. -/
theorem map_finish_refuse {β : Type} (f : α → β) {fault : Fault}
    (hf : fault.isConfiguration = false) (core : Core α) :
    Outcome.map f <$> (refuse strategy fault >>= core.finish strategy kind)
      = refuse strategy fault := by
  rw [core.finish_valueless (refuse_valueless hf)]
  simp only [refuse, Outcome.reject]
  cases strategy.mode <;> cases fault <;> rfl

/-- Operations that are given a value alone are run on it. -/
theorem finish_success (a : α) (core : Core α) :
    core.finish strategy kind (.success a) = core.pipeline.run strategy kind a := by
  rw [finish_eq rfl, Pipeline.run, funext (Outcome.joined_success a)]

/-- A union that failed has no value for its operations. -/
theorem finish_exhausted (count : Nat) (failures : Failures) (core : Core Value) :
    Choice.exhausted strategy count failures >>= core.finish strategy kind
      = Choice.exhausted strategy count failures := by
  refine core.finish_valueless ?_
  unfold Choice.exhausted
  split
  · exact refuse_valueless rfl
  · cases strategy.mode <;> trivial

end Core

/-- An outcome whose value is shown as it is. -/
theorem Outcome.map_id_run (run : Run (Outcome α)) : Outcome.map id <$> run = run := by
  have hid : (Outcome.map id : Outcome α → Outcome α) = id :=
    funext fun outcome => Outcome.ext (Option.map_id_apply ..) rfl rfl
  rw [hid, id_map]

/-- A pipe that halted between its stages has no value for its operations. -/
theorem Stages.cross_valueless (source target : String) (conversion : Conversion)
    (first : Outcome Value) :
    (Stages.cross strategy source target conversion first).Ends
      (fun | .halted outcome => outcome.value = none | .converted _ => True) fun _ => True := by
  unfold Stages.cross
  cases hv : first.value with
  | none => exact hv
  | some produced =>
    dsimp only
    split
    · rw [Run.ends_call_bind]
      cases conversion.convert produced with
      | ok value => trivial
      | error reason =>
        have hrefused : (refuse strategy (.failedConversion source target reason) :
            Run (Outcome Value)).Ends (fun outcome => outcome.value = none) fun _ => True :=
          refuse_valueless rfl
        exact hrefused.bind fun refused hr => hr
    · exact rfl

/-! ## Validators whose operations come last -/

namespace Validator

/-- **The operations of a validator see what its parts came to**: those of a list see the items as
they come in, those of a nullable do not see what stands for `null`, and those of a validator that
was written by hand are not run. -/
def OperatesLast : Validator → Value → Prop
  | leaf .., _ => True
  | list .., _ => False
  | nullable .., value => value ≠ .null
  | tuple .., _ => True
  | union .., _ => True
  | pipe .., _ => True
  | custom .., _ => False

/-- The operations and the handle of a validator. -/
def core : (validator : Validator) → Core validator.Operand
  | leaf _ core => core
  | list _ core => core
  | nullable _ _ core => core
  | tuple _ _ core => core
  | union _ _ core => core
  | pipe _ _ _ core => core
  | custom _ core => core

/-- The JSON form of what the operations of a validator work on. -/
def present : (validator : Validator) → validator.Operand → Value
  | leaf type _ => type.toValue
  | list .. => .arr
  | nullable .. => id
  | tuple .. => fun values => .arr values.toList
  | union .. => id
  | pipe .. => id
  | custom .. => id

/-- What a validator comes to before its operations are run: what a leaf reads, what the inner
validator of a nullable, the positions of a tuple or the first alternative that matches produce, and
what the second stage of a pipe makes of the converted value.  Where there is nothing for the
operations to see, this is the end of the evaluation. -/
def given (strategy : Strategy) :
    (validator : Validator) → Value → Run (Outcome validator.Operand)
  | leaf type _, value =>
    match type.read? value with
    | some a => pure (.success a)
    | none => refuse strategy (.typeMismatch type.name value)
  | list .., value =>
    match value.items? with
    | some items => pure (.success items)
    | none => refuse strategy (.typeMismatch "array" value)
  | nullable inner _ _, value => inner.evaluate strategy value
  | tuple _ elements _, value =>
    match value.items? with
    | some items => Positions.evaluate strategy (fun i => (elements i).evaluate strategy) items
    | none => refuse strategy (.typeMismatch "array" value)
  | union count alternatives _, value => do
    match ← Choice.tryAll value 0 (List.ofFn fun i => (alternatives i).evaluate strategy) .empty with
    | .matched produced => pure (.success produced)
    | .exhausted failures => Choice.exhausted strategy count failures
  | pipe input output conversion _, value => do
    let first ← input.evaluate strategy value
    Stages.through strategy input.kind output.kind conversion (output.evaluate strategy) first
  | custom .., _ => pure .empty

/-- **The outcome of a validator, in the type that its operations work on**: they are run on the
value that its parts came to. -/
def operandOutcome (strategy : Strategy) (validator : Validator) (value : Value) :
    Run (Outcome validator.Operand) :=
  validator.given strategy value >>= validator.core.finish strategy validator.kind

/-! ## Evaluations by their last operations -/

section Evaluation

variable {validator : Validator} {value : Value}

/-- **An evaluation shows the outcome as JSON.** -/
theorem evaluate_eq_present (h : validator.OperatesLast value) (strategy : Strategy) :
    validator.evaluate strategy value
      = Outcome.map validator.present <$> validator.operandOutcome strategy value := by
  cases validator with
  | leaf type core =>
    simp only [evaluate, Leaf.evaluate, operandOutcome, given]
    cases type.read? value with
    | some a => exact congrArg (Outcome.map type.toValue <$> ·) (Core.finish_success a core).symm
    | none => exact (Core.map_finish_refuse type.toValue rfl core).symm
  | list element core => exact h.elim
  | nullable inner default core =>
    have hinner : evaluate strategy (inner.nullable default core) value
        = operandOutcome strategy (inner.nullable default core) value := by
      cases value with
      | null => exact absurd rfl h
      | _ => rfl
    rw [hinner]
    exact (Outcome.map_id_run _).symm
  | tuple arity elements core =>
    simp only [evaluate, Positions.evaluateArray, operandOutcome, given]
    cases value.items? with
    | none => exact (Core.map_finish_refuse _ rfl core).symm
    | some items =>
      simp only [← map_eq_pure_bind, ← map_bind]
      rfl
  | union count alternatives core =>
    simp only [evaluate, Choice.evaluate, operandOutcome, given, bind_assoc, List.length_ofFn]
    refine Eq.trans (bind_congr fun verdict => ?_) (Outcome.map_id_run _).symm
    cases verdict with
    | matched produced => exact (Core.finish_success produced core).symm
    | exhausted failures => exact (Core.finish_exhausted count failures core).symm
  | pipe input output conversion core =>
    simp only [evaluate, Stages.evaluate, Stages.through, operandOutcome, given, bind_assoc]
    refine Eq.trans (bind_congr fun first => ?_) (Outcome.map_id_run _).symm
    refine (Stages.cross_valueless input.kind output.kind conversion first).bind_congr
      fun crossing hc => ?_
    cases crossing with
    | halted outcome => exact (core.finish_of_none hc).symm
    | converted value => rfl
  | custom behaviour core => exact h.elim

/-- **One more operation follows the evaluation.** -/
theorem evaluate_operate (h : validator.OperatesLast value)
    (operation : Operation validator.Operand) (strategy : Strategy) :
    (validator.operate operation).evaluate strategy value
      = Outcome.map validator.present <$>
          (validator.operandOutcome strategy value >>=
            operation.follow strategy validator.kind) := by
  have hlast : (validator.operate operation).OperatesLast value := by
    cases validator <;> exact h
  have hpush : validator.given strategy value >>=
        (validator.core.push operation).finish strategy validator.kind
      = validator.operandOutcome strategy value >>= operation.follow strategy validator.kind := by
    rw [operandOutcome, bind_assoc]
    exact bind_congr fun outcome => Core.finish_push _ operation outcome
  rw [evaluate_eq_present hlast, ← hpush]
  cases validator <;> rfl

end Evaluation

end Validator

/-! ## What one more operation changes -/

section Follow

variable {operation : Operation α} {outcome : Outcome α} {a : α}

/-- A check that complains leaves the value alone. -/
theorem Operation.transform_of_complaint {complaint : String × String}
    (hc : operation.complaint? a = some complaint) : operation.transform a = .answer a := by
  cases operation with
  | transformation t => cases hc
  | _ => rfl

/-- **One more operation, if it may be carried out**: its complaint is heard, or else the value is
what it leaves. -/
theorem Operation.follow_result (hp : strategy.scheduling.Permits operation.isAsync)
    (ha : outcome.value = some a) :
    (operation.follow strategy kind outcome).result
      = match operation.complaint? a with
        | some (name, message) =>
          match strategy.mode with
          | .strict => .error (.fault (.validation name message))
          | .tolerant => .ok (outcome.record name message)
        | none => (operation.transform a).result.map outcome.withValue := by
  have hjoined : outcome.joined ⟨a, .empty⟩ = outcome := Outcome.ext ha.symm rfl rfl
  have hfollow : operation.follow strategy kind outcome
      = outcome.joined <$> operation.advance strategy kind ⟨a, .empty⟩ := by
    rw [← follow_joined, hjoined]
  rw [hfollow, Run.map_eq, advance_result hp]
  cases hc : operation.complaint? a with
  | none => cases operation.transform a <;> rfl
  | some complaint =>
    simp only [transform_of_complaint hc]
    cases strategy.mode with
    | strict => rfl
    | tolerant => exact congrArg Except.ok (Outcome.ext ha.symm rfl rfl)

/-- What a check accepted without a failure was there before, without a failure. -/
theorem Outcome.eq_success_of_judge {mode : Mode} {name message : String} {passed : Bool}
    (h : (outcome.judge mode name message passed).result = .ok (.success a)) :
    outcome = .success a := by
  cases passed with
  | true => exact Except.ok.inj h
  | false =>
    cases mode with
    | strict => cases h
    | tolerant =>
      have hrecorded : (outcome.record name message).isSuccess = true :=
        congrArg Outcome.isSuccess (Except.ok.inj h)
      simp [Outcome.isSuccess, Outcome.record] at hrecorded

/-- **A check makes no outcome a success that was none.** -/
theorem Operation.eq_success_of_follow (hcheck : operation.IsCheck)
    (h : (operation.follow strategy kind outcome).result = .ok (.success a)) :
    outcome = .success a := by
  unfold follow at h
  cases hv : outcome.value with
  | none =>
    rw [hv] at h
    exact Except.ok.inj h
  | some b =>
    simp only [hv] at h
    cases operation with
    | check c =>
      obtain ⟨-, -, hj⟩ := Run.bind_ok_iff.mp h
      exact Outcome.eq_success_of_judge hj
    | asyncCheck c =>
      cases hs : strategy.scheduling with
      | sync =>
        rw [hs] at h
        cases h
      | async =>
        rw [hs] at h
        obtain ⟨-, -, hj⟩ := Run.bind_ok_iff.mp h
        exact Outcome.eq_success_of_judge hj
    | transformation t => exact hcheck.elim

end Follow

namespace Validator

variable {validator : Validator} {value : Value}

/-- **Where there is no value**, one more operation is not called and changes nothing. -/
theorem evaluate_operate_of_valueless (hlast : validator.OperatesLast value)
    (operation : Operation validator.Operand)
    (hnone : ∀ produced, ¬ (validator.evaluate strategy value).Yields produced) :
    (validator.operate operation).evaluate strategy value = validator.evaluate strategy value := by
  have hends : (validator.operandOutcome strategy value).Ends
      (fun outcome => outcome.value = none) fun _ => True := by
    refine Run.ends_of_ok fun outcome ho => Option.eq_none_iff_forall_ne_some.mpr fun a ha => ?_
    refine hnone (validator.present a) ⟨outcome.map validator.present, ?_, ?_⟩
    · rw [evaluate_eq_present hlast]
      exact Run.map_ok_iff.mpr ⟨outcome, ho, rfl⟩
    · rw [Outcome.map, ha]
      rfl
  have hsame : validator.operandOutcome strategy value >>= operation.follow strategy validator.kind
      = validator.operandOutcome strategy value := by
    refine (hends.bind_congr fun outcome hv => ?_).trans (bind_pure _)
    simp only [Operation.follow, hv]
  rw [evaluate_operate hlast, hsame, evaluate_eq_present hlast]

/-- **One more check only narrows** what comes to a value without a failure. -/
theorem evaluate_success_of_operate (hlast : validator.OperatesLast value)
    {operation : Operation validator.Operand} (hcheck : operation.IsCheck) {produced : Value}
    (h : ((validator.operate operation).evaluate strategy value).result
      = .ok (.success produced)) :
    (validator.evaluate strategy value).result = .ok (.success produced) := by
  rw [evaluate_operate hlast] at h
  obtain ⟨last, hlater, hshown⟩ := Run.map_ok_iff.mp h
  obtain ⟨outcome, ho, hfollow⟩ := Run.bind_ok_iff.mp hlater
  obtain ⟨a, ha, rfl⟩ : ∃ a, last = .success a ∧ validator.present a = produced := by
    obtain ⟨_ | a, failures, untransformed⟩ := last
    · cases hshown
    · cases hshown
      exact ⟨a, rfl, rfl⟩
  rw [ha] at hfollow
  have hsame : outcome = .success a := Operation.eq_success_of_follow hcheck hfollow
  rw [evaluate_eq_present hlast]
  exact Run.map_ok_iff.mpr ⟨outcome, ho, congrArg (Outcome.map validator.present) hsame⟩

/-- One more transformation that hands back what it is given changes nothing but the calls. -/
theorem result_evaluate_operate_identity (hlast : validator.OperatesLast value)
    {t : Transformation validator.Operand} (ht : ∀ a, t.apply a = .answer a) :
    ((validator.operate (.transformation t)).evaluate strategy value).result
      = (validator.evaluate strategy value).result := by
  have hfollow (outcome : Outcome validator.Operand) :
      ((Operation.transformation t).follow strategy validator.kind outcome).result
        = .ok outcome := by
    cases hv : outcome.value with
    | none => simp only [Operation.follow, hv, Run.pure_eq]
    | some a =>
      have hp : strategy.scheduling.Permits (Operation.transformation t).isAsync := fun _ => rfl
      rw [Operation.follow_result hp hv]
      simp only [Operation.complaint?, Operation.transform, ht]
      exact congrArg Except.ok (Outcome.ext hv.symm rfl rfl)
  rw [evaluate_operate hlast, evaluate_eq_present hlast, Run.map_eq, Run.map_eq]
  simp only [Run.result_bind, hfollow]
  cases (validator.operandOutcome strategy value).result <;> rfl

/-- **One more check that fails is recorded last** in a tolerant run: the value stays, a key that is
there keeps its place and takes the new message, and another one comes after all others. -/
theorem evaluate_operate_of_complaint (hlast : validator.OperatesLast value)
    {operation : Operation validator.Operand} {outcome : Outcome validator.Operand}
    (ho : (validator.operandOutcome strategy value).result = .ok outcome)
    {a : validator.Operand} (ha : outcome.value = some a) {name message : String}
    (hc : operation.complaint? a = some (name, message))
    (hp : strategy.scheduling.Permits operation.isAsync) (hm : strategy.mode = .tolerant) :
    ((validator.operate operation).evaluate strategy value).result
      = .ok ⟨some (validator.present a), outcome.failures.record name message,
          outcome.untransformed⟩ := by
  rw [evaluate_operate hlast, Run.map_eq, Run.result_bind, ho]
  simp only [Except.bind, Operation.follow_result hp ha, hc, hm, Except.map, Outcome.map,
    Outcome.record, ha, Option.map_some]

/-- **One more operation acts on what there was without it.**  An evaluation shows an outcome in the
type that the operations of the validator work on; with one more operation it shows what the
operation makes of that outcome.  Where there is no value the operation is not called and the
evaluation is the same.  A failed check of a tolerant run keeps the value and is recorded beside the
failures there are, whoever recorded them: a key that is among them keeps its place and takes the new
message, another one comes last.  A check only narrows what is accepted, and a transformation that
hands back what it is given changes nothing.

**Proof sketch.** A run of the operations with one more at the end is a run of the others and one more
step (`Pipeline.resume_push`).  What the operations record joins the failures of the parts afterwards,
and a failure that was recorded last among them is recorded last of all
(`Failures.absorb_root_record`), so the new step may as well be taken on the joined outcome
(`Operation.follow_joined`, `Core.finish_push`). -/
theorem operation_follows (hlast : validator.OperatesLast value)
    (operation : Operation validator.Operand) (strategy : Strategy) :
    validator.evaluate strategy value
      = Outcome.map validator.present <$> validator.operandOutcome strategy value ∧
    (validator.operate operation).evaluate strategy value
      = Outcome.map validator.present <$>
          (validator.operandOutcome strategy value >>=
            operation.follow strategy validator.kind) ∧
    ((∀ produced, ¬ (validator.evaluate strategy value).Yields produced) →
      (validator.operate operation).evaluate strategy value
        = validator.evaluate strategy value) ∧
    (∀ outcome, (validator.operandOutcome strategy value).result = .ok outcome →
      ∀ a, outcome.value = some a →
      ∀ name message, operation.complaint? a = some (name, message) →
      strategy.scheduling.Permits operation.isAsync → strategy.mode = .tolerant →
        ∃ whole, ((validator.operate operation).evaluate strategy value).result = .ok whole ∧
          whole.value = some (validator.present a) ∧
          whole.failures.keys
            = (if name ∈ outcome.failures.keys then outcome.failures.keys
              else outcome.failures.keys ++ [name]) ∧
          ∀ key, whole.failures.get? key
            = if key = name then some message else outcome.failures.get? key) ∧
    (operation.IsCheck →
      (∀ produced,
        ((validator.operate operation).evaluate strategy value).result
            = .ok (.success produced) →
          (validator.evaluate strategy value).result = .ok (.success produced)) ∧
      (validator.Composed → ∀ scheduling produced,
        (validator.operate operation).Accepts scheduling value produced →
          validator.Accepts scheduling value produced)) ∧
    ∀ t, operation = .transformation t → (∀ a, t.apply a = .answer a) →
      ((validator.operate operation).evaluate strategy value).result
        = (validator.evaluate strategy value).result := by
  refine ⟨evaluate_eq_present hlast strategy, evaluate_operate hlast operation strategy,
    evaluate_operate_of_valueless hlast operation, ?_, fun hcheck => ⟨?_, ?_⟩, ?_⟩
  · intro outcome ho a ha name message hc hp hm
    refine ⟨_, evaluate_operate_of_complaint hlast ho ha hc hp hm, rfl, ?_, fun key => ?_⟩
    · exact Keyed.keys_set outcome.failures name message
    · exact Keyed.get?_set outcome.failures name message key
  · exact fun produced h => evaluate_success_of_operate hlast hcheck h
  · intro hcomposed scheduling produced haccepts
    obtain ⟨hp, hr⟩ := (accepts_iff (composed_operate hcomposed operation)).mp haccepts
    rw [requiresAsync_operate hcomposed, Scheduling.permits_or_iff] at hp
    exact (accepts_iff hcomposed).mpr ⟨hp.1, evaluate_success_of_operate hlast hcheck hr⟩
  · rintro t rfl ht
    exact result_evaluate_operate_identity hlast ht

/-- A nullable of an integer, both with a failing check of one name.  The check of the nullable comes
after those of the integer, takes the place of the one with its name and leaves the other one; it is
not called with a text, which the integer refuses.  A transformation that hands back the number
changes nothing, and what a nullable accepts with a passing check it accepts without it. -/
theorem operation_follows_of_nullable_integer :
    let small (message : String) : Action := .check "small" message none fun _ => .answer false
    let inner := ((ofType .integer).act (small "above 3")).act
      (.check "odd" "even" none fun _ => .answer false)
    let outer : Operation Value := (small "above 5").operation
    let same : Transformation Value := ⟨"same", .user, id, .answer⟩
    let fine : Operation Value := (Action.check "fine" "" none fun _ => .answer true).operation
    (∃ whole, ((inner.orNull.operate outer).evaluate ⟨.tolerant, .sync⟩ (.int 8)).result
        = .ok whole ∧
      whole.value = some (.int 8) ∧ whole.failures.keys = ["small", "odd"] ∧
      whole.failures.get? "small" = some "above 5" ∧ whole.failures.get? "odd" = some "even") ∧
    (inner.orNull.operate outer).evaluate ⟨.tolerant, .sync⟩ (.str "a")
      = inner.orNull.evaluate ⟨.tolerant, .sync⟩ (.str "a") ∧
    ((inner.orNull.operate (.transformation same)).evaluate ⟨.tolerant, .sync⟩ (.int 8)).result
      = (inner.orNull.evaluate ⟨.tolerant, .sync⟩ (.int 8)).result ∧
    ((ofType .integer).orNull.operate fine).Accepts .sync (.int 8) (.int 8) ∧
    (ofType .integer).orNull.Accepts .sync (.int 8) (.int 8) := by
  intro small inner outer same fine
  have hlast : inner.orNull.OperatesLast (.int 8) := fun h => Value.noConfusion h
  have htext : inner.orNull.OperatesLast (.str "a") := fun h => Value.noConfusion h
  have hplain : (ofType .integer).orNull.OperatesLast (.int 8) := fun h => Value.noConfusion h
  let outcome : Outcome Value :=
    ⟨some (.int 8), .ofList [("small", "above 3"), ("odd", "even")], none⟩
  obtain ⟨-, -, -, hcomplaint, -⟩ := operation_follows hlast outer ⟨.tolerant, .sync⟩
  obtain ⟨-, -, hvalueless, -⟩ := operation_follows htext outer ⟨.tolerant, .sync⟩
  obtain ⟨-, -, -, -, -, hidentity⟩ :=
    operation_follows hlast (.transformation same) ⟨.tolerant, .sync⟩
  obtain ⟨-, -, -, -, hnarrows, -⟩ := operation_follows hplain fine ⟨.strict, .sync⟩
  have hcomposed : ((ofType .integer).orNull.operate fine).Composed := trivial
  have hfine : ((ofType .integer).orNull.operate fine).Accepts .sync (.int 8) (.int 8) :=
    (accepts_iff hcomposed).mpr ⟨fun _ => rfl, rfl⟩
  refine ⟨?_, hvalueless ?_, hidentity same rfl fun _ => rfl, hfine,
    (hnarrows trivial).2 trivial .sync (.int 8) hfine⟩
  · obtain ⟨whole, hr, hv, hkeys, hget⟩ :=
      hcomplaint outcome rfl (.int 8) rfl "small" "above 5" rfl (fun _ => rfl) rfl
    exact ⟨whole, hr, hv, hkeys, hget "small", hget "odd"⟩
  · rintro produced ⟨refused, hr, hv⟩
    cases hr
    cases hv

end Validator

end Conform
