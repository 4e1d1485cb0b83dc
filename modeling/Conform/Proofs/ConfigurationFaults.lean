import Conform.Proofs.FinalStops

set_option autoImplicit false

/-!
# Configuration faults are final

A configuration fault says that a validator was run in a way in which it cannot be run, and nothing
that the value holds could mend that.  So no form of validator handles it: it is not filed under a
place in the value, not recorded by a tolerant run, not passed over for the next alternative of a
union.  Wherever it arises, the whole evaluation ends there and then with that fault.

## Main definitions

* `Conform.Validator.Includes` — a run takes place within an evaluation, at any depth.

## Main results

* `Conform.Validator.Includes.breaks` — a final stop passes through an evaluation as a whole.
* `Conform.Validator.configuration_fault_final` — evaluation and parsing.
-/

namespace Conform

variable {strategy : Strategy} {stop : Stop}

namespace Validator

/-- **A run takes place within an evaluation** of the validator on the value, after these calls: the
evaluation itself, a run of the operations, or a run within the evaluation of a part. -/
inductive Includes (strategy : Strategy) : Validator → Value → List Call → Run Unit → Prop
  | whole (validator : Validator) (value : Value) :
    Includes strategy validator value [] (validator.evaluate strategy value).muted
  | own {validator : Validator} {value : Value} {before : List Call} {task : Task}
    (h : Operates strategy validator value before task) :
    Includes strategy validator value before (task.run strategy)
  | part {validator part : Validator} {value subject : Value} {before later : List Call}
    {run : Run Unit} (h : Asks strategy validator value before part subject)
    (hin : Includes strategy part subject later run) :
    Includes strategy validator value (before ++ later) run

/-- **An evaluation breaks off where any run within it does.**

**Proof sketch.** Induction on where the run takes place: from the part in which it does, the stop
goes out through one form after the other, and each adds the calls made before. -/
theorem Includes.breaks (hf : stop.Final) {validator : Validator} {value : Value}
    {before calls : List Call} {run : Run Unit} (h : Includes strategy validator value before run)
    (hrun : run.Breaks stop calls) :
    (validator.evaluate strategy value).Breaks stop (before ++ calls) := by
  induction h with
  | whole validator value => exact Run.breaks_muted.mp hrun
  | own h => exact h.breaks hrun
  | part h hin ih =>
    rw [List.append_assoc]
    exact h.breaks hf (ih hrun)

/-- **Configuration faults are final.**  If a run within an evaluation, be it of a part at any depth,
written by hand or not, or of the operations of one, ends with a configuration fault, then the whole
evaluation ends with that fault, of the same kind and without a place in the value.  Nothing is
called after it: the calls are those made before that run and those of the run.  Whoever parses a
value is given the fault as it is, in both modes and whether the run may wait, unless the gate before
synchronous parsing is closed and nothing is evaluated at all.

**Proof sketch.** One form after the other lets the fault pass (`Includes.breaks`), and so does
parsing (`parse_breaks_iff`). -/
theorem configuration_fault_final {validator : Validator} {value : Value} {before calls : List Call}
    {kind : String}
    (h : Includes strategy validator value before ⟨calls, .error (.fault (.configuration kind))⟩) :
    validator.evaluate strategy value
      = ⟨before ++ calls, .error (.fault (.configuration kind))⟩ ∧
    (strategy.scheduling.Permits validator.requiresAsync → ∀ store,
      validator.parse store strategy value
        = ⟨before ++ calls, .error (.fault (.configuration kind))⟩) ∧
    (¬ strategy.scheduling.Permits validator.requiresAsync → ∀ store,
      validator.parse store strategy value = Run.fail (.configuration validator.kind)) := by
  have hf : (Stop.fault (.configuration kind)).Final := rfl
  have hevaluate : (validator.evaluate strategy value).Breaks (.fault (.configuration kind))
    (before ++ calls) := h.breaks hf rfl
  refine ⟨hevaluate, fun hp store => ?_, fun hp store => ?_⟩
  · exact (parse_breaks_iff hf hp).mpr hevaluate
  · obtain ⟨mode, scheduling⟩ := strategy
    obtain hpermits | ⟨rfl, ha⟩ := scheduling.permits_or validator.requiresAsync
    · exact absurd hpermits hp
    · exact parse_eq_fail ha mode store value

/-- A tolerant run comes to a validator written by hand that cannot be run: it is the second
alternative of a union at the first position of a tuple.  The failure of the first alternative is
dropped, and neither the second position nor the operations of the tuple are come to. -/
theorem configuration_fault_final_of_second_alternative :
    let known := (ofType .string).act (.check "known" "unknown" none fun _ => .answer false)
    let remote := byHand (.constant "remote" (.error (.configuration "remote")) false .null "")
    let later := (ofType .any).act (.check "later" "never called" none fun _ => .answer true)
    let validator := ((known.or remote).and later).act
      (.check "pair" "never called" none fun _ => .answer true)
    let value : Value := .arr [.str "a", .null]
    let calls : List Call :=
      [⟨.check, .user, "known", .str "a"⟩, ⟨.validator, .user, "", .str "a"⟩]
    let strategy : Strategy := ⟨.tolerant, .async⟩
    Includes strategy validator value [⟨.check, .user, "known", .str "a"⟩]
      ⟨[⟨.validator, .user, "", .str "a"⟩], .error (.fault (.configuration "remote"))⟩ ∧
      validator.evaluate strategy value = ⟨calls, .error (.fault (.configuration "remote"))⟩ ∧
      strategy.scheduling.Permits validator.requiresAsync ∧
      validator.parse .empty strategy value
        = ⟨calls, .error (.fault (.configuration "remote"))⟩ := by
  intro known remote later validator value calls strategy
  have hasks : Asks strategy validator value [] (known.or remote) (.str "a") :=
    @Asks.element _ 2 _ _ _ _ #v[.str "a", .null] _ 0 _ rfl rfl rfl
  have hasks' : Asks strategy (known.or remote) (.str "a") [⟨.check, .user, "known", .str "a"⟩]
      remote (.str "a") := .alternative 1 rfl
  have h : Includes strategy validator value [⟨.check, .user, "known", .str "a"⟩]
      ⟨[⟨.validator, .user, "", .str "a"⟩], .error (.fault (.configuration "remote"))⟩ :=
    .part hasks (.part hasks' (.whole remote (.str "a")))
  have hp : strategy.scheduling.Permits validator.requiresAsync := Scheduling.permits_async
  obtain ⟨hevaluate, hparse, -⟩ := configuration_fault_final h
  exact ⟨h, hevaluate, hp, hparse hp .empty⟩

end Validator

end Conform
