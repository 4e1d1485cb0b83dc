import Conform.Run

set_option autoImplicit false

/-!
# Runs that mirror each other

Rules for two runs that come to the same and make the same calls, in the same order and with the
same values, up to a change of what a call shows of itself.  Unlike the comparison of a strict with
a tolerant run, this one is exact: nothing of either run is left out.

## Main definitions

* `Conform.Run.relabel` — the run with its calls changed one by one.
* `Conform.Run.Mirrors` — one run is the other one with its calls changed.

## Main results

* `Conform.Run.Mirrors.bind`, `Conform.Run.Mirrors.under`, `Conform.Run.Mirrors.attempt`,
  `Conform.Run.mirrors_foldlM` — what is made of runs that mirror each other does so too.
-/

namespace Conform

namespace Run

variable {α β : Type} {g : Call → Call}

/-- The run with its calls changed one by one; it comes to the same. -/
def relabel (g : Call → Call) (run : Run α) : Run α := { run with trace := run.trace.map g }

/-- **The second run is the first one with its calls changed**: both come to the same result, the
same fault or a panic, after as many calls. -/
def Mirrors (g : Call → Call) (run run' : Run α) : Prop := run.relabel g = run'

/-- Where no call is changed, a run mirrors itself only. -/
theorem mirrors_id {run run' : Run α} : Mirrors id run run' ↔ run = run' := by
  unfold Mirrors relabel
  rw [List.map_id]

theorem mirrors_pure (a : α) : Mirrors g (pure a) (pure a) := rfl

theorem mirrors_fail (fault : Fault) : Mirrors g (fail fault : Run α) (fail fault) := rfl

theorem mirrors_panic : Mirrors g (panic : Run α) panic := rfl

/-- A result or a fault is come to without a call. -/
theorem mirrors_ofExcept (result : Except Fault α) :
    Mirrors g (ofExcept result) (ofExcept result) := by
  cases result <;> rfl

/-- **Two sequences of runs** mirror each other if their parts do. -/
theorem Mirrors.bind {run run' : Run α} {next next' : α → Run β} (h : Mirrors g run run')
    (hn : ∀ a, Mirrors g (next a) (next' a)) : Mirrors g (run >>= next) (run' >>= next') := by
  obtain rfl : next' = fun a => (next a).relabel g := funext fun a => (hn a).symm
  obtain rfl : run' = run.relabel g := h.symm
  obtain ⟨trace, _ | a⟩ := run
  · rfl
  · simp [Mirrors, bind_eq, relabel]

/-- One call before two runs, changed in the second one. -/
theorem mirrors_call_bind {role role' : Role} {origin : Origin} {name : String} {subject : Value}
    {next next' : Unit → Run α}
    (hg : g ⟨role, origin, name, subject⟩ = ⟨role', origin, name, subject⟩)
    (h : Mirrors g (next ()) (next' ())) :
    Mirrors g (call role origin name subject >>= next)
      (call role' origin name subject >>= next') := by
  have hc : Mirrors g (call role origin name subject) (call role' origin name subject) := by
    simp [Mirrors, relabel, call, hg]
  exact hc.bind fun _ => h

/-- Changing the results of two runs. -/
theorem Mirrors.map {run run' : Run α} (h : Mirrors g run run') (f : α → β) :
    Mirrors g (f <$> run) (f <$> run') := by
  rw [map_eq_pure_bind, map_eq_pure_bind]
  exact h.bind fun a => mirrors_pure (f a)

/-- Two runs seen from further out. -/
theorem Mirrors.under {run run' : Run α} (h : Mirrors g run run') (segment : String) :
    Mirrors g (run.under segment) (run'.under segment) := by
  obtain rfl : run' = run.relabel g := h.symm
  rfl

/-- Two runs whose faults are handed over. -/
theorem Mirrors.attempt {run run' : Run α} (h : Mirrors g run run') :
    Mirrors g run.attempt run'.attempt := by
  obtain rfl : run' = run.relabel g := h.symm
  rfl

/-- Two runs over one list mirror each other if their steps do. -/
theorem mirrors_foldlM {step step' : β → α → Run β} :
    ∀ {items : List α}, (∀ item ∈ items, ∀ b, Mirrors g (step b item) (step' b item)) →
      ∀ b, Mirrors g (items.foldlM step b) (items.foldlM step' b)
  | [], _, b => mirrors_pure b
  | item :: rest, h, b => by
    rw [List.foldlM_cons, List.foldlM_cons]
    refine (h item List.mem_cons_self b).bind fun b' => ?_
    exact mirrors_foldlM (fun later hl => h later (List.mem_cons_of_mem _ hl)) b'

end Run

end Conform
