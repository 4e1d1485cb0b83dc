import Conform.Proofs.Assembly
import Conform.Proofs.OutcomeInvariant

set_option autoImplicit false

/-!
# The gate before synchronous parsing

Where nothing can be awaited, a validator that has to be awaited is refused before it is run.  The
gate is exact: it is closed if a builder call added an asynchronous check somewhere, whatever the
value, and where it is open no run comes to an asynchronous check that it cannot carry out.

## Main results

* `Conform.Validator.no_configuration_fault` — a run that is permitted stops with no configuration
  fault.
* `Conform.Validator.gate_exact` — the gate, for every validator obtained by builder calls.
-/

namespace Conform

namespace Validator

/-- A run that is permitted stops with no configuration fault. -/
theorem no_configuration_fault {validator : Validator} (h : validator.Composed)
    {strategy : Strategy} (hp : strategy.scheduling.Permits validator.requiresAsync)
    (value : Value) (kind : String) :
    (validator.evaluate strategy value).result ≠ .error (.fault (.configuration kind)) := by
  intro hf
  have hraises : strategy.Raises validator.requiresAsync (.configuration kind) :=
    (evaluate_ends h strategy value).of_fault hf
  exact nomatch hraises.isConfiguration_eq_false hp

/-- **The gate is exact.**  A validator obtained by builder calls has to be awaited exactly if one
of the calls added an asynchronous check to it or to a validator that it contains.  If so, it is
refused for every value where nothing can be awaited: the fault carries its own kind, and nothing is
called.  If not, no run that cannot wait comes to a configuration fault.  A run that may wait never
does. -/
theorem gate_exact {added : Bool} {validator : Validator} (h : Assembled added validator) :
    validator.requiresAsync = added ∧
    (validator.requiresAsync = true → ∀ store mode value,
      validator.parse store ⟨mode, .sync⟩ value = Run.fail (.configuration validator.kind)) ∧
    (validator.requiresAsync = false → ∀ mode value kind,
      (validator.evaluate ⟨mode, .sync⟩ value).result
        ≠ .error (.fault (.configuration kind))) ∧
    ∀ store mode value kind, (validator.parse store ⟨mode, .async⟩ value).result
      ≠ .error (.fault (.configuration kind)) := by
  have hc : validator.Composed := h.composed
  refine ⟨h.requiresAsync_eq, ?_, ?_, ?_⟩
  · intro ha store mode value
    exact parse_eq_fail ha mode store value
  · intro ha mode value kind
    exact no_configuration_fault hc (Scheduling.permits_of_eq_false ha) value kind
  · intro store mode value kind hf
    have he : (validator.evaluate ⟨mode, .async⟩ value).result
        = .error (.fault (.configuration kind)) :=
      (parse_error_iff hc Scheduling.permits_async).mp hf
    exact no_configuration_fault hc Scheduling.permits_async value kind he

/-- A pair grows by a position after an asynchronous check was added to it, and is then wrapped: it
is refused even for `null`, which would never come to the check. -/
theorem gate_exact_of_grown_pair :
    let remote : AsyncCheck (Vector Value 2) :=
      ⟨"remote", "unknown pair", fun values => .arr values.toList, fun _ => .answer (.ready true)⟩
    let checked := ((ofType .integer).and (ofType .string)).operate (.asyncCheck remote)
    let validator := (checked.and (ofType .any)).orNull
    Assembled true validator ∧ validator.requiresAsync = true ∧
      validator.parse .empty ⟨.tolerant, .sync⟩ .null = Run.fail (.configuration "nullable") := by
  intro remote checked validator
  have hpair : Assembled false ((ofType .integer).and (ofType .string)) :=
    .and (.leaf .integer) (.leaf .string)
  have hchecked : Assembled true checked := hpair.operate (.asyncCheck remote)
  have h : Assembled true validator := .orNull (.and hchecked (.leaf .any))
  obtain ⟨hasync, hrefused, -⟩ := gate_exact h
  exact ⟨h, hasync, hrefused hasync .empty .tolerant .null⟩

end Validator

end Conform
