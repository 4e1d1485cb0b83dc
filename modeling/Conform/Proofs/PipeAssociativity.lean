import Conform.Validator.Combining
import Conform.Validator.Parsing

set_option autoImplicit false

/-!
# Pipes of three stages

Three validators with a conversion between each two of them can be nested in two ways: a pipe whose
first stage is a pipe, or one whose second stage is.  Either way the stages run in the same order on
the same values, and an evaluation that halts does so at the same place.  Only the name of a stage
tells the two apart: to the conversion of the outer pipe its neighbour is a pipe, and the fault of a
conversion that fails names it so.

## Main definitions

* `Conform.Stages.through` — what a pipe without operations does after its first stage.
* `Conform.Stages.Renamed` — the stages that a failed conversion names in the two nestings.
* `Conform.Stages.Agree` — two runs that differ at most in such a name.

## Main results

* `Conform.Stages.nested_alike` — the two nestings of three evaluators.
* `Conform.Validator.pipe_assoc` — the two nestings of three validators.
-/

namespace Conform

/-! ## A pipe without operations -/

/-- Where there are no operations, the outcome stays as it is. -/
theorem Core.finish_holding {α : Type} (handle : Option Metadata.Handle) (strategy : Strategy)
    (kind : String) (outcome : Outcome α) :
    (Core.holding handle).finish strategy kind outcome = pure outcome := by
  obtain ⟨_ | a, failures, untransformed⟩ := outcome <;> rfl

namespace Stages

/-- What a pipe without operations does with the outcome of its first stage: it halts, or it goes on
with the second stage. -/
def through (strategy : Strategy) (source target : String) (conversion : Conversion)
    (output : Evaluator) (first : Outcome Value) : Run (Outcome Value) := do
  match ← cross strategy source target conversion first with
  | .halted outcome => pure outcome
  | .converted value => output value

theorem evaluate_holding (strategy : Strategy) (source target : String) (input output : Evaluator)
    (conversion : Conversion) (handle : Option Metadata.Handle) :
    evaluate strategy source target input output conversion (.holding handle)
      = fun value => input value >>= through strategy source target conversion output := by
  funext value
  simp only [evaluate, Core.finish_holding, bind_pure]
  rfl

/-- The end of a run whose conversion failed. -/
def failed (strategy : Strategy) (source target reason : String) (produced : Value) :
    Except Stop (Outcome Value) :=
  match strategy.mode with
  | .strict => .error (.fault (.failedConversion source target reason))
  | .tolerant => .ok
    { Outcome.failure Fault.transformCheck (Fault.failedConversion source target reason).message with
      untransformed := some produced }

section Through

variable {strategy : Strategy} {source target : String} {conversion : Conversion}
  {output : Evaluator} {first : Outcome Value}

/-- A first stage without a value is the end. -/
theorem through_of_none (h : first.value = none) :
    through strategy source target conversion output first = pure first := by
  simp only [through, cross, h, pure_bind]

/-- A value that came with failures is left untransformed. -/
theorem through_of_flawed {produced : Value} (h : first.value = some produced)
    (hs : first.isSuccess = false) :
    through strategy source target conversion output first
      = pure { first with value := none, untransformed := some produced } := by
  simp only [through, cross, h, hs, Bool.false_eq_true, if_false, pure_bind]

/-- A converted value goes to the second stage. -/
theorem through_of_converted {produced value : Value} (h : first.value = some produced)
    (hs : first.isSuccess = true) (hc : conversion.convert produced = .ok value) :
    through strategy source target conversion output first
      = Run.call .conversion .user conversion.label produced >>= fun _ => output value := by
  simp only [through, cross, h, hs, if_true, hc, bind_assoc, pure_bind]

/-- A conversion that fails is the end, and the value is left untransformed. -/
theorem through_of_failed {produced : Value} {reason : String} (h : first.value = some produced)
    (hs : first.isSuccess = true) (hc : conversion.convert produced = .error reason) :
    through strategy source target conversion output first
      = ⟨[⟨.conversion, .user, conversion.label, produced⟩],
          failed strategy source target reason produced⟩ := by
  simp only [through, cross, h, hs, if_true, hc, failed, refuse]
  cases strategy.mode <;> rfl

end Through

/-- Nothing follows a conversion that failed. -/
theorem failed_bind_through {strategy : Strategy} {source target source' target' reason : String}
    {produced : Value} {calls : List Call} (conversion : Conversion) (output : Evaluator) :
    (⟨calls, failed strategy source target reason produced⟩ : Run (Outcome Value)) >>=
        through strategy source' target' conversion output
      = ⟨calls, failed strategy source target reason produced⟩ := by
  simp only [failed]
  cases strategy.mode with
  | strict => rfl
  | tolerant => simp [Run.bind_eq, through, cross, Outcome.failure, Run.pure_eq]

/-! ## The two nestings -/

/-- **The stages that a failed conversion names in the two nestings**, if the second of the three is
of kind `kind`.  To the first conversion its target is that stage or the pipe that begins with it, to
the second one its source is the pipe that ends with it or that stage. -/
inductive Renamed (kind : String) : String × String → String × String → Prop
  | target (source : String) : Renamed kind (source, kind) (source, "pipe")
  | source (target : String) : Renamed kind ("pipe", target) (kind, target)

/-- Two runs are one and the same, or a conversion failed in both for one reason and with one value,
after the same calls. -/
inductive Alike (strategy : Strategy) (kind : String) :
    Run (Outcome Value) → Run (Outcome Value) → Prop
  | same (run : Run (Outcome Value)) : Alike strategy kind run run
  | renamed {source target source' target' : String}
    (h : Renamed kind (source, target) (source', target')) (calls : List Call) (reason : String)
    (produced : Value) :
    Alike strategy kind ⟨calls, failed strategy source target reason produced⟩
      ⟨calls, failed strategy source' target' reason produced⟩

/-- Two runs that are alike stay so after the same run. -/
theorem Alike.bind {α : Type} {strategy : Strategy} {kind : String} (run : Run α)
    {next next' : α → Run (Outcome Value)} (h : ∀ a, Alike strategy kind (next a) (next' a)) :
    Alike strategy kind (run >>= next) (run >>= next') := by
  obtain ⟨calls, stop | a⟩ := run
  · exact .same _
  · have ha := h a
    generalize hnext : next a = after, hnext' : next' a = after' at ha
    simp only [Run.bind_eq, hnext, hnext']
    cases ha with
    | same => exact .same _
    | renamed hr later reason produced => exact .renamed hr (calls ++ later) reason produced

/-- After the second stage both nestings halt, or both call the second conversion; its source is the
only name in which they differ. -/
theorem through_alike (strategy : Strategy) (kind target : String) (conversion : Conversion)
    (output : Evaluator) (second : Outcome Value) :
    Alike strategy kind (through strategy "pipe" target conversion output second)
      (through strategy kind target conversion output second) := by
  cases hv : second.value with
  | none =>
    rw [through_of_none hv, through_of_none hv]
    exact .same _
  | some produced =>
    cases hs : second.isSuccess with
    | false =>
      rw [through_of_flawed hv hs, through_of_flawed hv hs]
      exact .same _
    | true =>
      cases hc : conversion.convert produced with
      | ok converted =>
        rw [through_of_converted hv hs hc, through_of_converted hv hs hc]
        exact .same _
      | error reason =>
        rw [through_of_failed hv hs hc, through_of_failed hv hs hc]
        exact .renamed (.source target) _ reason produced

/-- **The two nestings of three evaluators are alike.**

**Proof sketch.** After the first stage both halt at once, or both call the first conversion.  If
that fails, they differ in its target at most, and the outer pipe on the left lets the halted outcome
pass, as there is no value in it.  Otherwise both run the second stage on the same value and go on
with what comes of it (`through_alike`). -/
theorem nested_alike (strategy : Strategy) (source kind target : String)
    (input middle output : Evaluator) (f g : Conversion) (value : Value) :
    Alike strategy kind
      (input value >>= through strategy source kind f middle >>=
        through strategy "pipe" target g output)
      (input value >>= through strategy source "pipe" f fun converted =>
        middle converted >>= through strategy kind target g output) := by
  rw [bind_assoc]
  refine Alike.bind _ fun first => ?_
  cases hv : first.value with
  | none =>
    rw [through_of_none hv, through_of_none hv, pure_bind, through_of_none hv]
    exact .same _
  | some produced =>
    cases hs : first.isSuccess with
    | false =>
      rw [through_of_flawed hv hs, through_of_flawed hv hs, pure_bind, through_of_none rfl]
      exact .same _
    | true =>
      cases hc : f.convert produced with
      | ok converted =>
        rw [through_of_converted hv hs hc, through_of_converted hv hs hc, bind_assoc]
        exact Alike.bind _ fun _ => Alike.bind _ (through_alike strategy kind target g output)
      | error reason =>
        rw [through_of_failed hv hs hc, through_of_failed hv hs hc, failed_bind_through]
        exact .renamed (.target source) _ reason produced

/-! ## What a caller can tell apart -/

/-- One message under a key, or two of a failed conversion that names its stages in the other way. -/
inductive SameMessage (kind : String) : String → String → String → Prop
  | same (key message : String) : SameMessage kind key message message
  | conversion {source target source' target' : String}
    (h : Renamed kind (source, target) (source', target')) (reason : String) :
    SameMessage kind Fault.transformCheck (Fault.failedConversion source target reason).message
      (Fault.failedConversion source' target' reason).message

/-- One fault, or that of a failed conversion that names its stages in the other way. -/
inductive SameFault (kind : String) : Fault → Fault → Prop
  | same (fault : Fault) : SameFault kind fault fault
  | conversion {source target source' target' : String}
    (h : Renamed kind (source, target) (source', target')) (reason : String) :
    SameFault kind (.failedConversion source target reason)
      (.failedConversion source' target' reason)

/-- Two ends of runs that differ at most in the stages that the message of a failed conversion
names. -/
inductive SameEnd (kind : String) :
    Except Stop (Outcome Value) → Except Stop (Outcome Value) → Prop
  /-- Both come to an outcome, with one value, one untransformed value, and failures under the same
  keys in the same order. -/
  | outcome {outcome outcome' : Outcome Value} (hvalue : outcome.value = outcome'.value)
    (huntransformed : outcome.untransformed = outcome'.untransformed)
    (hkeys : outcome.failures.keys = outcome'.failures.keys)
    (hmessages : ∀ key message message', outcome.failures.get? key = some message →
      outcome'.failures.get? key = some message' → SameMessage kind key message message') :
    SameEnd kind (.ok outcome) (.ok outcome')
  /-- Both stop with a fault. -/
  | fault {fault fault' : Fault} (h : SameFault kind fault fault') :
    SameEnd kind (.error (.fault fault)) (.error (.fault fault'))
  /-- Both panic. -/
  | panic : SameEnd kind (.error .panic) (.error .panic)

/-- **Two runs agree**: they make the same calls, and their ends differ at most in the stages that
the message of a failed conversion names. -/
structure Agree (kind : String) (run run' : Run (Outcome Value)) : Prop where
  /-- The same functions are called in the same order with the same values. -/
  calls : run.trace = run'.trace
  /-- Both come to the same. -/
  ends : SameEnd kind run.result run'.result

theorem SameEnd.refl (kind : String) (result : Except Stop (Outcome Value)) :
    SameEnd kind result result := by
  cases result with
  | ok outcome =>
    refine .outcome rfl rfl rfl fun key message message' h h' => ?_
    obtain rfl : message = message' := Option.some.inj (h.symm.trans h')
    exact .same key message
  | error stop =>
    cases stop with
    | fault fault => exact .fault (.same fault)
    | panic => exact .panic

/-- A failure recorded first is found under its key and under no other. -/
theorem get?_record_empty (key text key' : String) :
    (Failures.empty.record key text).get? key' = if key' = key then some text else none := by
  rw [Failures.record, Keyed.get?_set]
  rfl

/-- **Two runs that are alike agree.** -/
theorem Alike.agree {strategy : Strategy} {kind : String} {run run' : Run (Outcome Value)}
    (h : Alike strategy kind run run') : Agree kind run run' := by
  cases h with
  | same => exact ⟨rfl, .refl kind _⟩
  | @renamed source target source' target' hr calls reason produced =>
    refine ⟨rfl, ?_⟩
    simp only [failed]
    cases strategy.mode with
    | strict => exact .fault (.conversion hr reason)
    | tolerant =>
      refine .outcome rfl rfl rfl fun key message message' h h' => ?_
      -- the only failure of either outcome is that of the conversion
      simp only [Outcome.failure, get?_record_empty] at h h'
      split at h
      · rename_i hkey
        rw [if_pos hkey] at h'
        cases hkey
        cases h
        cases h'
        exact .conversion hr reason
      · cases h

end Stages

namespace Validator

/-- A caller is given what settling an evaluation comes to, if the validator may be run. -/
theorem outcome_parse (store : Metadata.Store) (strategy : Strategy) (validator : Validator)
    (value : Value) :
    Report.outcome <$> validator.parse store strategy value
      = validator.ensureRunnable strategy >>= fun _ =>
          settle strategy.mode (validator.evaluate strategy value) := by
  simp only [parse, map_bind, map_pure, bind_pure]

/-- A caller learns of a failed conversion as the evaluation does. -/
theorem settle_failed {strategy : Strategy} {source target reason : String} {produced : Value}
    {calls : List Call} :
    settle strategy.mode ⟨calls, Stages.failed strategy source target reason produced⟩
      = ⟨calls, Stages.failed strategy source target reason produced⟩ := by
  simp only [Stages.failed]
  cases strategy.mode with
  | strict => rfl
  | tolerant => simp [settle, Run.attempt, Run.bind_eq, Run.pure_eq]

/-- Two evaluations that are alike are so for a caller as well. -/
theorem settle_alike {strategy : Strategy} {kind : String} {run run' : Run (Outcome Value)}
    (h : Stages.Alike strategy kind run run') :
    Stages.Alike strategy kind (settle strategy.mode run) (settle strategy.mode run') := by
  cases h with
  | same => exact .same _
  | renamed hr calls reason produced =>
    rw [settle_failed, settle_failed]
    exact .renamed hr calls reason produced

/-- **Pipes are associative.**  Three validators with two conversions between them come to the same
in either nesting, whatever the validators are and whether a conversion succeeds, fails or panics:
the same calls are made with the same values, and both nestings come to an outcome with the same
value, untransformed value and failures, or both stop with the same fault, or both panic.  The one
difference is in the message of a failed conversion, where the outer pipe takes the inner one for its
stage.  The same holds for a caller who has a value parsed.

**Proof sketch.** A pipe without operations is its first stage followed by what comes `through` the
conversion, so both nestings are sequences of the same three stages (`Stages.nested_alike`).  Both
have to be awaited for the same stages, and settling keeps two runs alike (`settle_alike`). -/
theorem pipe_assoc (first second third : Validator) (f g : Conversion)
    (inner outer inner' outer' : Option Metadata.Handle) (strategy : Strategy) (value : Value) :
    let left := pipe (pipe first second f (.holding inner)) third g (.holding outer)
    let right := pipe first (pipe second third g (.holding inner')) f (.holding outer')
    Stages.Agree second.kind (left.evaluate strategy value) (right.evaluate strategy value) ∧
    ∀ store, Stages.Agree second.kind (Report.outcome <$> left.parse store strategy value)
      (Report.outcome <$> right.parse store strategy value) := by
  intro left right
  have hevaluate : Stages.Alike strategy second.kind (left.evaluate strategy value)
      (right.evaluate strategy value) := by
    simp only [left, right, evaluate, Stages.evaluate_holding]
    exact Stages.nested_alike strategy first.kind second.kind third.kind _ _ _ f g value
  have hasync : left.requiresAsync = right.requiresAsync := by
    simp only [left, right, requiresAsync, Core.holding, Pipeline.isAsync, Pipeline.empty,
      List.any_nil, Bool.false_or, Bool.or_assoc]
  have hrunnable : left.ensureRunnable strategy = right.ensureRunnable strategy := by
    simp only [ensureRunnable, hasync]
    rfl
  refine ⟨hevaluate.agree, fun store => ?_⟩
  rw [outcome_parse, outcome_parse, hrunnable]
  exact (Stages.Alike.bind _ fun _ => settle_alike hevaluate).agree

/-- The first conversion refuses: its neighbour is the second stage in one nesting and a pipe in the
other. -/
example :
    let refusing : Conversion := ⟨"refuse", fun _ => .answer (.error "no")⟩
    let stage := ofType .any
    let left := (stage.thenTo refusing stage).thenTo refusing stage
    let right := stage.thenTo refusing (stage.thenTo refusing stage)
    (left.evaluate ⟨.strict, .sync⟩ .null).result
        = .error (.fault (.failedConversion "any" "any" "no")) ∧
      (right.evaluate ⟨.strict, .sync⟩ .null).result
        = .error (.fault (.failedConversion "any" "pipe" "no")) :=
  ⟨rfl, rfl⟩

end Validator

end Conform
