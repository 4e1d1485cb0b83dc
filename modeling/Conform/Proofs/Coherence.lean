import Conform.Proofs.Endings
import Conform.Proofs.Failures
import Conform.Proofs.FaultPlaces
import Conform.Validator.Evaluation

set_option autoImplicit false

/-!
# Coherent outcomes

An outcome without a value accounts for it by a failure, a value that was left untransformed stands
in for a produced one, and an outcome of a strict run records nothing.  Everything a validator is
made of keeps to this: its pipeline, the refusal of a value, and the operations that it runs last.

## Main definitions

* `Conform.Outcome.Coherent` — the invariant of outcomes.
* `Conform.Strategy.Raises` — the faults a run may stop with: a configuration fault only if
  something has to be awaited and nothing can be, any other one only in a strict run.
* `Conform.Scheduling.Permits` — what has to be awaited can be.

## Main results

* `Conform.Outcome.Coherent.eq_success` — a coherent outcome without a failure is a value and
  nothing else.
* `Conform.Pipeline.run_ends`, `Conform.refuse_ends`, `Conform.Core.finish_ends` — coherence of
  what pipelines, refusals and last operations come to.
-/

namespace Conform

variable {α β : Type}

/-! ## The invariant -/

namespace Outcome

/-- **The invariant of outcomes.**  A missing value is accounted for by a failure, nothing is left
untransformed beside a value, and a strict run records no failure. -/
structure Coherent (mode : Mode) (outcome : Outcome α) : Prop where
  /-- A missing value is accounted for. -/
  flawed : outcome.value = none → outcome.isSuccess = false
  /-- What is left untransformed stands in for a value. -/
  halted : outcome.untransformed ≠ none → outcome.value = none
  /-- A strict run records nothing. -/
  clean : mode = .strict → outcome.isSuccess = true

theorem coherent_success (mode : Mode) (a : α) : (success a).Coherent mode :=
  ⟨fun h => by simp [success] at h, fun h => absurd rfl h, fun _ => rfl⟩

/-- A flawed outcome of a tolerant run that has no value. -/
theorem coherent_of_flawed {mode : Mode} {outcome : Outcome α} (hm : mode = .tolerant)
    (hv : outcome.value = none) (hs : outcome.isSuccess = false) : outcome.Coherent mode :=
  ⟨fun _ => hs, fun _ => hv, fun h => by simp [hm] at h⟩

namespace Coherent

variable {mode : Mode} {outcome : Outcome α}

/-- **Without a failure there is a value and nothing else.**

**Proof sketch.** A missing value would be accounted for by a failure, so there is a value, and
beside a value nothing is left untransformed. -/
theorem eq_success (h : outcome.Coherent mode) (hs : outcome.isSuccess = true) :
    ∃ a, outcome = success a := by
  obtain ⟨value, failures, untransformed⟩ := outcome
  have hf : failures = .empty := Failures.eq_empty_of_isEmpty hs
  cases value with
  | none => exact absurd (h.flawed rfl) (by simp [hs])
  | some a =>
    cases untransformed with
    | none => exact ⟨a, by simp [success, hf]⟩
    | some left => exact absurd (h.halted (by simp)) (by simp)

/-- Changing the value keeps an outcome coherent. -/
theorem map (h : outcome.Coherent mode) (f : α → β) : (outcome.map f).Coherent mode where
  flawed hv := h.flawed (by simpa [Outcome.map] using hv)
  halted hu := by simpa [Outcome.map] using h.halted hu
  clean hm := h.clean hm

/-- What a validator's last operations come to takes the place of the value they ran on, and their
failures join those recorded before. -/
theorem joined {own : Outcome α} (h : outcome.Coherent mode) (ho : own.Coherent mode)
    (hv : outcome.value ≠ none) :
    ({ outcome.absorb "" own with value := own.value } : Outcome α).Coherent mode where
  flawed hn := by
    have hs : own.failures.isEmpty = false := ho.flawed hn
    simp [Outcome.absorb, isSuccess, hs]
  halted hu := absurd (h.halted hu) hv
  clean hm := by
    have hs : outcome.failures.isEmpty = true := h.clean hm
    have hs' : own.failures.isEmpty = true := ho.clean hm
    simp [Outcome.absorb, isSuccess, hs, hs']

end Coherent

end Outcome

/-! ## The faults a run may stop with -/

namespace Scheduling

variable {scheduling : Scheduling} {awaits : Bool}

/-- What has to be awaited can be: nothing has to, or a run may wait. -/
def Permits (scheduling : Scheduling) (awaits : Bool) : Prop :=
  scheduling = .sync → awaits = false

theorem permits_async : async.Permits awaits := nofun

theorem permits_of_eq_false (h : awaits = false) : scheduling.Permits awaits := fun _ => h

/-- What has to be awaited can be, or a run may not wait. -/
theorem permits_or (scheduling : Scheduling) (awaits : Bool) :
    scheduling.Permits awaits ∨ scheduling = .sync ∧ awaits = true := by
  cases awaits with
  | false => exact Or.inl (permits_of_eq_false rfl)
  | true =>
    cases scheduling with
    | sync => exact Or.inr ⟨rfl, rfl⟩
    | async => exact Or.inl permits_async

/-- What has to be awaited for either of two reasons can be if it can be for each of them. -/
theorem permits_or_iff {awaits' : Bool} :
    scheduling.Permits (awaits || awaits') ↔
      scheduling.Permits awaits ∧ scheduling.Permits awaits' := by
  simp only [Permits, Bool.or_eq_false_iff, forall_and]

end Scheduling

/-- The faults that a run may stop with: a configuration fault if something has to be awaited and
nothing can be, any other fault if the first failure ends the run. -/
def Strategy.Raises (strategy : Strategy) (awaits : Bool) (fault : Fault) : Prop :=
  if fault.isConfiguration then strategy.scheduling = .sync ∧ awaits = true
  else strategy.mode = .strict

namespace Strategy

variable {strategy : Strategy} {awaits awaits' : Bool} {fault : Fault}

theorem raises_of_strict (hm : strategy.mode = .strict) (hf : fault.isConfiguration = false) :
    strategy.Raises awaits fault := by
  simp [Raises, hf, hm]

theorem raises_configuration (kind : String) (hs : strategy.scheduling = .sync)
    (ha : awaits = true) : strategy.Raises awaits (.configuration kind) := by
  simp [Raises, Fault.isConfiguration, hs, ha]

/-- A tolerant run stops with configuration faults only. -/
theorem Raises.isConfiguration (h : strategy.Raises awaits fault) (hm : strategy.mode = .tolerant) :
    fault.isConfiguration = true := by
  unfold Raises at h
  split at h
  · assumption
  · rw [hm] at h
    exact nomatch h

/-- A run that is permitted stops with no configuration fault. -/
theorem Raises.isConfiguration_eq_false (h : strategy.Raises awaits fault)
    (hp : strategy.scheduling.Permits awaits) : fault.isConfiguration = false := by
  unfold Raises at h
  split at h
  · rw [hp h.1] at h
    exact nomatch h.2
  · simpa using ‹¬ fault.isConfiguration = true›

/-- More has to be awaited, so no fault becomes impossible. -/
theorem Raises.mono (ha : awaits = true → awaits' = true) (h : strategy.Raises awaits fault) :
    strategy.Raises awaits' fault := by
  unfold Raises at h ⊢
  split at h
  · rw [if_pos ‹_›]
    exact ⟨h.1, ha h.2⟩
  · rw [if_neg ‹_›]
    exact h

/-- Whoever may stop with a fault may stop with it as it is seen from further out. -/
theorem Raises.under (segment : String) (h : strategy.Raises awaits fault) :
    strategy.Raises awaits (fault.under segment) := by
  rwa [Raises, Fault.isConfiguration_under]

end Strategy

/-! ## Refusals -/

/-- A tolerant run that refuses a value records the fault. -/
theorem refuse_tolerant {strategy : Strategy} {fault : Fault} {key : String}
    (hm : strategy.mode = .tolerant) (hk : fault.key? = some key) :
    refuse strategy fault = (pure (.failure key fault.message) : Run (Outcome α)) := by
  simp only [refuse, Outcome.reject, hm, Outcome.ofFault, hk]
  rfl

/-- A strict run that refuses a value stops with the fault. -/
theorem refuse_strict {strategy : Strategy} {fault : Fault} (hm : strategy.mode = .strict) :
    (refuse strategy fault : Run (Outcome α)) = Run.fail fault := by
  simp only [refuse, Outcome.reject, hm]
  rfl

/-- A value is refused without a call. -/
theorem trace_refuse (strategy : Strategy) (fault : Fault) :
    (refuse strategy fault : Run (Outcome α)).trace = [] := by
  unfold refuse
  cases Outcome.reject (α := α) strategy.mode fault <;> rfl

/-- A refused value leaves a tolerant run with a failure and no value. -/
theorem refuse_ends {strategy : Strategy} {fault : Fault} {awaits : Bool}
    (hf : fault.isConfiguration = false) :
    (refuse strategy fault : Run (Outcome α)).Ends
      (fun outcome => strategy.mode = .tolerant ∧ outcome.value = none ∧
        outcome.isSuccess = false)
      (strategy.Raises awaits) := by
  cases hm : strategy.mode with
  | strict =>
    rw [refuse_strict hm, Run.ends_fail]
    exact Strategy.raises_of_strict hm hf
  | tolerant =>
    obtain ⟨key, hk⟩ := Fault.exists_key hf
    rw [refuse_tolerant hm hk, Run.ends_pure]
    exact ⟨rfl, rfl, Failures.isEmpty_record _ _ _⟩

/-- A refusal is coherent. -/
theorem refuse_coherent {strategy : Strategy} {fault : Fault} {awaits : Bool}
    (hf : fault.isConfiguration = false) :
    (refuse strategy fault : Run (Outcome α)).Ends (Outcome.Coherent strategy.mode)
      (strategy.Raises awaits) :=
  (refuse_ends hf).mono (fun _ h => Outcome.coherent_of_flawed h.1 h.2.1 h.2.2) fun _ h => h

/-! ## Pipelines -/

/-- A check of a strict run that goes on has recorded nothing. -/
theorem Progress.judge_ends {strategy : Strategy} {awaits : Bool} {progress : Progress α}
    (h : strategy.mode = .strict → progress.failures.isEmpty = true) (name message : String)
    (passed : Bool) :
    (progress.judge strategy.mode name message passed).Ends
      (fun reached => strategy.mode = .strict → reached.failures.isEmpty = true)
      (strategy.Raises awaits) := by
  unfold judge
  cases passed with
  | true => exact h
  | false =>
    cases hm : strategy.mode with
    | strict => exact Strategy.raises_of_strict hm rfl
    | tolerant => exact fun hs => by simp at hs

/-- One operation of a strict run records nothing, and an operation that has to be awaited is the
only one to stop a run with a configuration fault. -/
theorem Operation.advance_ends {strategy : Strategy} {kind : String} {progress : Progress α}
    {awaits : Bool} (operation : Operation α) (ho : operation.isAsync = true → awaits = true)
    (h : strategy.mode = .strict → progress.failures.isEmpty = true) :
    (operation.advance strategy kind progress).Ends
      (fun reached => strategy.mode = .strict → reached.failures.isEmpty = true)
      (strategy.Raises awaits) := by
  cases operation with
  | check c => exact Progress.judge_ends h c.name c.message _
  | asyncCheck c =>
    unfold advance
    cases hs : strategy.scheduling with
    | sync => exact Strategy.raises_configuration kind hs (ho rfl)
    | async => exact Progress.judge_ends h c.name c.message _
  | transformation t =>
    simp only [advance, Run.ends_call_bind]
    cases t.apply progress.value with
    | answer a => exact h
    | panicked => trivial

/-- **A pipeline comes to a coherent outcome**, and it stops with a configuration fault only if it
has to be awaited. -/
theorem Pipeline.run_ends {strategy : Strategy} {kind : String} {awaits : Bool}
    {pipeline : Pipeline α} (hp : pipeline.isAsync = true → awaits = true) (a : α) :
    (pipeline.run strategy kind a).Ends (Outcome.Coherent strategy.mode)
      (strategy.Raises awaits) := by
  have hr : (pipeline.resume strategy kind ⟨a, .empty⟩).Ends
      (fun reached => strategy.mode = .strict → reached.failures.isEmpty = true)
      (strategy.Raises awaits) := by
    refine Run.ends_foldlM (fun operation hm progress h => ?_) _ fun _ => rfl
    refine operation.advance_ends (fun ho => hp ?_) h
    exact List.any_eq_true.mpr ⟨operation, hm, ho⟩
  rw [run, Run.ends_map]
  refine hr.mono (fun progress h => ?_) fun _ h => h
  exact ⟨fun hv => by simp [Progress.outcome] at hv, fun hu => absurd rfl hu, h⟩

/-- What a validator's last operations make of a coherent outcome is coherent. -/
theorem Core.finish_ends {strategy : Strategy} {kind : String} {awaits : Bool} {core : Core α}
    (hc : core.pipeline.isAsync = true → awaits = true) {outcome : Outcome α}
    (h : outcome.Coherent strategy.mode) :
    (core.finish strategy kind outcome).Ends (Outcome.Coherent strategy.mode)
      (strategy.Raises awaits) := by
  unfold finish
  cases hv : outcome.value with
  | none => exact h
  | some a =>
    exact Run.Ends.bind (Pipeline.run_ends hc a) fun own ho => h.joined ho (by simp [hv])

end Conform
