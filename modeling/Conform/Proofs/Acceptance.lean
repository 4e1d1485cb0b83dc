import Conform.Proofs.AsyncRefinement
import Conform.Proofs.ModeAgreement

set_option autoImplicit false

/-!
# Acceptance

A validator accepts a value if a strict parse comes to a produced value.  What a composed validator
accepts, and what it makes of it, does not depend on how it is run: every run that is permitted and
does not panic comes to that value and records nothing.  A value that is not accepted leaves a trace
in every mode, as a fault or as a recorded failure.

## Main definitions

* `Conform.Validator.Accepts` — a strict parse comes to a produced value.
* `Conform.Run.Yields` — a run came to a value, perhaps beside failures.
* `Conform.Run.Missed` — a run came to a fault or to a recorded failure.

## Main results

* `Conform.Validator.accepts_iff` — acceptance by evaluation.
* `Conform.Validator.evaluate_of_accepts`, `Conform.Validator.missed_of_not_accepts` — what a
  permitted run comes to.
* `Conform.Validator.not_accepts_iff`, `Conform.Validator.exists_fault_of_not_accepts` — what a
  rejected value comes to in each mode.
-/

namespace Conform

variable {α : Type}

/-- A run comes to a value, perhaps beside failures. -/
def Run.Yields (run : Run (Outcome α)) (a : α) : Prop :=
  ∃ outcome, run.result = .ok outcome ∧ outcome.value = some a

/-- **A run came to nothing**: it stopped with a fault that could be recorded, or it recorded a
failure. -/
def Run.Missed (run : Run (Outcome α)) : Prop :=
  (∃ outcome, run.result = .ok outcome ∧ outcome.isSuccess = false) ∨
    ∃ fault, run.result = .error (.fault fault) ∧ fault.isConfiguration = false

namespace Validator

variable {validator : Validator} {scheduling scheduling' : Scheduling}
  {value produced : Value}

/-- **A validator accepts a value** if a strict parse of it comes to a produced value. -/
def Accepts (validator : Validator) (scheduling : Scheduling) (value produced : Value) : Prop :=
  ∃ store report, (validator.parse store ⟨.strict, scheduling⟩ value).result = .ok report ∧
    report.outcome.value = some produced

/-- A validator accepts a value if it may be run and a strict evaluation comes to a produced
value. -/
theorem accepts_iff (h : validator.Composed) :
    validator.Accepts scheduling value produced ↔
      scheduling.Permits validator.requiresAsync ∧
        (validator.evaluate ⟨.strict, scheduling⟩ value).result = .ok (.success produced) := by
  constructor
  · rintro ⟨store, report, hreport, hvalue⟩
    obtain ⟨a, ha⟩ := success_of_parse h hreport
    rw [ha] at hvalue
    obtain rfl : a = produced := Option.some.inj hvalue
    refine ⟨?_, ha ▸ evaluate_of_parse h hreport⟩
    obtain hpermits | ⟨rfl, hasync⟩ := scheduling.permits_or validator.requiresAsync
    · exact hpermits
    · rw [parse_eq_fail hasync] at hreport
      exact nomatch hreport
  · rintro ⟨hpermits, hevaluate⟩
    exact ⟨.empty, ⟨.success produced, validator.shown? .empty⟩,
      (parse_ok_iff h hpermits).mpr ⟨hevaluate, rfl⟩, rfl⟩

/-- A strict evaluation that comes to a value records nothing beside it. -/
theorem accepts_iff_yields (h : validator.Composed) :
    validator.Accepts scheduling value produced ↔
      scheduling.Permits validator.requiresAsync ∧
        (validator.evaluate ⟨.strict, scheduling⟩ value).Yields produced := by
  rw [accepts_iff h]
  refine and_congr_right fun _ => ⟨fun hr => ⟨_, hr, rfl⟩, ?_⟩
  rintro ⟨outcome, ho, hv⟩
  have hc : outcome.Coherent .strict :=
    (evaluate_ends h ⟨.strict, scheduling⟩ value).of_ok ho
  obtain ⟨a, rfl⟩ := hc.eq_success (hc.clean rfl)
  obtain rfl : a = produced := Option.some.inj hv
  exact ho

/-- Where both are permitted, a run that may wait and one that may not are the same. -/
theorem evaluate_eq_of_permits (h : validator.Composed)
    (hp : scheduling.Permits validator.requiresAsync)
    (hp' : scheduling'.Permits validator.requiresAsync) (mode : Mode) (value : Value) :
    validator.evaluate ⟨mode, scheduling⟩ value = validator.evaluate ⟨mode, scheduling'⟩ value := by
  cases scheduling with
  | sync =>
    cases scheduling' with
    | sync => rfl
    | async => exact (evaluate_async_eq_sync h (hp rfl) mode value).symm
  | async =>
    cases scheduling' with
    | sync => exact evaluate_async_eq_sync h (hp' rfl) mode value
    | async => rfl

/-- What a validator accepts it accepts under every scheduling that is permitted. -/
theorem Accepts.of_permits (h : validator.Composed)
    (ha : validator.Accepts scheduling value produced)
    (hp : scheduling'.Permits validator.requiresAsync) :
    validator.Accepts scheduling' value produced := by
  obtain ⟨hpermits, hevaluate⟩ := (accepts_iff h).mp ha
  exact (accepts_iff h).mpr ⟨hp, evaluate_eq_of_permits h hp hpermits .strict value ▸ hevaluate⟩

/-- A permitted run that does not panic comes to an outcome without failures exactly if a strict one
does. -/
theorem evaluate_success_iff (h : validator.Composed) {strategy : Strategy}
    (hp : strategy.scheduling.Permits validator.requiresAsync)
    (hpanic : (validator.evaluate strategy value).result ≠ .error .panic)
    {outcome : Outcome Value} :
    (validator.evaluate ⟨.strict, strategy.scheduling⟩ value).result = .ok outcome ↔
      (validator.evaluate strategy value).result = .ok outcome ∧ outcome.isSuccess = true := by
  obtain ⟨mode, scheduling⟩ := strategy
  cases mode with
  | strict =>
    refine ⟨fun ho => ⟨ho, ?_⟩, And.left⟩
    exact ((evaluate_ends h ⟨.strict, scheduling⟩ value).of_ok ho).clean rfl
  | tolerant =>
    exact ((evaluate_concur h scheduling value).result_iff (tolerant_ends h hp value) hpanic).2
      outcome

/-- **What is accepted comes to the same value in every way**, and nothing is recorded beside it. -/
theorem evaluate_of_accepts (h : validator.Composed)
    (ha : validator.Accepts scheduling value produced) {strategy : Strategy}
    (hp : strategy.scheduling.Permits validator.requiresAsync)
    (hpanic : (validator.evaluate strategy value).result ≠ .error .panic) :
    (validator.evaluate strategy value).result = .ok (.success produced) := by
  have hstrict := ((accepts_iff h).mp (ha.of_permits h hp)).2
  exact ((evaluate_success_iff h hp hpanic).mp hstrict).1

/-- **What is not accepted comes to nothing in every way.** -/
theorem missed_of_not_accepts (h : validator.Composed)
    (hs : scheduling.Permits validator.requiresAsync)
    (ha : ∀ produced, ¬ validator.Accepts scheduling value produced) {strategy : Strategy}
    (hp : strategy.scheduling.Permits validator.requiresAsync)
    (hpanic : (validator.evaluate strategy value).result ≠ .error .panic) :
    (validator.evaluate strategy value).Missed := by
  have hends := evaluate_ends h strategy value
  cases hr : (validator.evaluate strategy value).result with
  | error stop =>
    cases stop with
    | panic => exact absurd hr hpanic
    | fault fault => exact Or.inr ⟨fault, hr, (hends.of_fault hr).isConfiguration_eq_false hp⟩
  | ok outcome =>
    refine Or.inl ⟨outcome, hr, ?_⟩
    cases hsuccess : outcome.isSuccess with
    | false => rfl
    | true =>
      obtain ⟨a, rfl⟩ := (hends.of_ok hr).eq_success hsuccess
      have hstrict := (evaluate_success_iff h hp hpanic).mpr ⟨hr, hsuccess⟩
      have haccepts := ((accepts_iff h).mpr ⟨hp, hstrict⟩).of_permits h hs
      exact absurd haccepts (ha a)

/-- A tolerant run that comes to an outcome recorded a failure exactly if the value is rejected. -/
theorem not_accepts_iff (h : validator.Composed) (hp : scheduling.Permits validator.requiresAsync)
    {outcome : Outcome Value}
    (hr : (validator.evaluate ⟨.tolerant, scheduling⟩ value).result = .ok outcome) :
    (∀ produced, ¬ validator.Accepts scheduling value produced) ↔ outcome.isSuccess = false := by
  have hpanic : (validator.evaluate ⟨.tolerant, scheduling⟩ value).result ≠ .error .panic := by
    rw [hr]
    exact nofun
  constructor
  · intro hnone
    rcases missed_of_not_accepts h hp hnone hp hpanic with ⟨missed, hm, hs⟩ | ⟨fault, hf, -⟩
    · obtain rfl : outcome = missed := Except.ok.inj (hr.symm.trans hm)
      exact hs
    · exact nomatch hr.symm.trans hf
  · intro hs produced ha
    have haccepted := evaluate_of_accepts h ha hp hpanic
    obtain rfl : outcome = .success produced := Except.ok.inj (hr.symm.trans haccepted)
    exact Bool.false_ne_true hs.symm

/-- **A strict run of a value that is rejected ends with a fault** that could be recorded, where a
tolerant one does not panic. -/
theorem exists_fault_of_not_accepts (h : validator.Composed)
    (hp : scheduling.Permits validator.requiresAsync)
    (hpanic : (validator.evaluate ⟨.tolerant, scheduling⟩ value).result ≠ .error .panic)
    (hnone : ∀ produced, ¬ validator.Accepts scheduling value produced) :
    ∃ fault, (validator.evaluate ⟨.strict, scheduling⟩ value).result = .error (.fault fault) ∧
      fault.isConfiguration = false := by
  have hpanic' : (validator.evaluate ⟨.strict, scheduling⟩ value).result ≠ .error .panic :=
    ((evaluate_concur h scheduling value).result_iff (tolerant_ends h hp value) hpanic).1
  rcases missed_of_not_accepts h hp hnone hp hpanic' with ⟨outcome, ho, hs⟩ | hfault
  · have hc : outcome.Coherent .strict := (evaluate_ends h ⟨.strict, scheduling⟩ value).of_ok ho
    exact absurd (hc.clean rfl) (by simp [hs])
  · exact hfault

end Validator

end Conform
