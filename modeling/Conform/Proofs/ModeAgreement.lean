import Conform.Proofs.Assembly
import Conform.Proofs.SideBySide

set_option autoImplicit false

/-!
# Strict and tolerant runs agree

A strict run stops at the first failure, a tolerant run records failures and goes on.  They come to
the same: either both have the same value and the tolerant run recorded nothing, or the strict run
stopped with a fault and the tolerant run recorded a failure.  The two runs go side by side through
every form of validator, and of the fault no more is told here than that something was recorded.

## Main definitions

* `Conform.Concur` — a strict run and a tolerant one come to the same.
* `Conform.Account.something` — a failure was recorded.

## Main results

* `Conform.Validator.evaluate_concur` — every composed validator.
* `Conform.Validator.modes_agree` — strict and tolerant parsing.
-/

namespace Conform

variable {α β : Type} {scheduling : Scheduling}

/-- **A strict run and a tolerant one come to the same**: to one value without a failure, or to a
fault here and a recorded failure there. -/
def Concur (strict tolerant : Run (Outcome α)) : Prop :=
  Run.Tracks (fun outcome outcome' => ∃ a, outcome = .success a ∧ outcome' = .success a)
    (fun fault outcome' => fault.isConfiguration = false ∧ outcome'.isSuccess = false)
    strict tolerant

/-- A strict and a tolerant way to evaluate that come to the same on every value. -/
def Evaluator.Concur (strict tolerant : Evaluator) : Prop :=
  ∀ value, Conform.Concur (strict value) (tolerant value)

/-- Where the tolerant run stops with no fault and does not panic, both runs come to an outcome
without a failure or neither does. -/
theorem Concur.result_iff {strict tolerant : Run (Outcome α)} {good : Outcome α → Prop}
    (h : Concur strict tolerant) (ht : tolerant.Ends good fun _ => False)
    (hp : tolerant.result ≠ .error .panic) :
    strict.result ≠ .error .panic ∧
    ∀ outcome, strict.result = .ok outcome ↔
      tolerant.result = .ok outcome ∧ outcome.isSuccess = true := by
  obtain ⟨trace, (fault | _) | outcome'⟩ := tolerant
  · exact ht.elim
  · exact absurd rfl hp
  · obtain ⟨trace', (fault | _) | outcome⟩ := strict
    · refine ⟨nofun, fun outcome => ⟨nofun, fun hs => ?_⟩⟩
      obtain ⟨ho, hs⟩ := hs
      cases ho
      exact absurd hs (by simp [h.2])
    · exact h.elim
    · obtain ⟨a, rfl, rfl⟩ := h
      refine ⟨nofun, fun outcome => ⟨fun ho => ⟨ho, ?_⟩, fun ho => ho.1⟩⟩
      cases ho
      rfl

/-! ## All forms -/

namespace Account

/-- Of a fault that can be recorded it is told that something was recorded. -/
def something : Account := fun fault failures =>
  fault.isConfiguration = false ∧ failures.isEmpty = false

theorem lawful_something : something.Lawful where
  recordable h := h.1
  nonempty h := h.2
  refused {fault _} hkey := by
    refine ⟨?_, Failures.isEmpty_record _ _ _⟩
    cases fault with
    | configuration kind => exact nomatch hkey
    | _ => rfl
  recorded key message h := ⟨h.1, Failures.isEmpty_record _ key message⟩
  placed index h := ⟨by rw [Fault.isConfiguration_under, h.1], by simp [h.2]⟩

theorem ofUnions_something : something.OfUnions :=
  fun h _ => ⟨rfl, by simp [h.2]⟩

end Account

namespace Validator

/-- **Both modes evaluate a composed validator to the same.** -/
theorem evaluate_concur {validator : Validator} (h : validator.Composed)
    (scheduling : Scheduling) :
    Evaluator.Concur (validator.evaluate ⟨.strict, scheduling⟩)
      (validator.evaluate ⟨.tolerant, scheduling⟩) :=
  evaluate_parallel Account.lawful_something h (Or.inl Account.ofUnions_something) scheduling

/-- **Strict and tolerant parsing agree.**  If the tolerant parse does not panic, neither does the
strict one, and the strict parse comes to a report exactly if the tolerant one comes to that report
and recorded no failure in it; there is a value in it then.

**Proof sketch.** A validator that has to be awaited is refused in both modes where nothing can be
awaited.  Otherwise both parses are evaluations (`parse_eq_evaluate`), which come to the same
(`evaluate_concur`), and the tolerant one stops with no fault (`evaluate_ends`). -/
theorem modes_agree {validator : Validator} (h : validator.Composed) (store : Metadata.Store)
    (scheduling : Scheduling) (value : Value)
    (hp : (validator.parse store ⟨.tolerant, scheduling⟩ value).result ≠ .error .panic) :
    (validator.parse store ⟨.strict, scheduling⟩ value).result ≠ .error .panic ∧
    (∀ report, (validator.parse store ⟨.strict, scheduling⟩ value).result = .ok report ↔
      (validator.parse store ⟨.tolerant, scheduling⟩ value).result = .ok report ∧
        report.outcome.isSuccess = true) ∧
    ∀ report, (validator.parse store ⟨.strict, scheduling⟩ value).result = .ok report →
      report.outcome.value ≠ none := by
  have hvalue : ∀ report, (validator.parse store ⟨.strict, scheduling⟩ value).result = .ok report →
      report.outcome.value ≠ none := by
    intro report hs
    obtain ⟨a, ha⟩ := success_of_parse h hs
    simp [ha, Outcome.success]
  obtain hpermits | ⟨rfl, ha⟩ := scheduling.permits_or validator.requiresAsync
  · have ht : (validator.evaluate ⟨.tolerant, scheduling⟩ value).Ends
        (Outcome.Coherent .tolerant) fun _ => False :=
      (evaluate_ends h ⟨.tolerant, scheduling⟩ value).mono (fun _ ho => ho) fun fault hf => by
        exact Bool.false_ne_true
          ((hf.isConfiguration_eq_false hpermits).symm.trans (hf.isConfiguration rfl))
    obtain ⟨hpanic, hok⟩ := (evaluate_concur h scheduling value).result_iff ht
      fun hpanic => hp ((parse_error_iff h hpermits).mpr hpanic)
    refine ⟨?_, ?_, hvalue⟩
    · intro hs
      exact hpanic ((parse_error_iff h hpermits).mp hs)
    · intro report
      rw [parse_ok_iff h hpermits, parse_ok_iff h hpermits, hok]
      exact and_right_comm
  · refine ⟨?_, fun report => ?_, hvalue⟩
    · simp [parse_eq_fail ha, Run.fail]
    · simp [parse_eq_fail ha, Run.fail]

/-- An alternative whose check fails is passed over in both modes, for the next one to match. -/
theorem modes_agree_on_second_alternative :
    let small := (ofType .integer).act (.check "small" "too large" none fun _ => .answer false)
    let validator := small.or (ofType .any)
    let report : Report := ⟨.success (.int 3), none⟩
    validator.Composed ∧
      (validator.parse .empty ⟨.tolerant, .sync⟩ (.int 3)).result ≠ .error .panic ∧
      (validator.parse .empty ⟨.strict, .sync⟩ (.int 3)).result = .ok report := by
  intro small validator report
  have h : validator.Composed := composed_or trivial trivial
  have ht : (validator.parse .empty ⟨.tolerant, .sync⟩ (.int 3)).result = .ok report := rfl
  have hp : (validator.parse .empty ⟨.tolerant, .sync⟩ (.int 3)).result ≠ .error .panic := by
    rw [ht]
    nofun
  obtain ⟨-, hagree, -⟩ := modes_agree h .empty .sync (.int 3) hp
  exact ⟨h, hp, (hagree report).mpr ⟨ht, rfl⟩⟩

end Validator

end Conform
