import Conform.Run

set_option autoImplicit false

/-!
# How runs end

Rules for reasoning about the end of a run without looking at its calls.  `Ends` speaks about one
run, `Tracks` compares a run that stops at the first failure with a run that records failures.
Both are closed under sequencing, so that what a validator does is followed step by step.

A panic satisfies every `Ends`: the statements are about runs that come to a result or to a fault.
In `Tracks` the tolerant run leads: where it stops, nothing is asked of the strict one.

## Main definitions

* `Conform.Run.Ends` — a result satisfies one condition, a fault another one.
* `Conform.Run.Tracks` — the strict run comes to what the tolerant one came to, or it stops with a
  fault where the tolerant one went on in a flawed way.

## Main results

* `Conform.Run.Ends.bind`, `Conform.Run.Tracks.bind` — the two conditions along a sequence of runs.
* `Conform.Run.bind_ok_iff` — when a sequence of runs comes to a result.
-/

namespace Conform

namespace Run

variable {α β γ δ : Type}

/-! ## One run -/

/-- What is known of the end of a run: a result satisfies `good` and a fault satisfies `bad`. -/
def Ends (good : α → Prop) (bad : Fault → Prop) (run : Run α) : Prop :=
  match run.result with
  | .ok a => good a
  | .error (.fault fault) => bad fault
  | .error .panic => True

@[simp] theorem ends_pure {good : α → Prop} {bad : Fault → Prop} {a : α} :
    (pure a : Run α).Ends good bad ↔ good a := Iff.rfl

@[simp] theorem ends_fail {good : α → Prop} {bad : Fault → Prop} {fault : Fault} :
    (fail fault : Run α).Ends good bad ↔ bad fault := Iff.rfl

/-- Nothing need be said of the end of a run. -/
theorem ends_trivial (run : Run α) : run.Ends (fun _ => True) fun _ => True := by
  obtain ⟨trace, (fault | _) | a⟩ := run <;> trivial

/-- A result that the run came to is a good one. -/
theorem Ends.of_ok {good : α → Prop} {bad : Fault → Prop} {run : Run α} (h : run.Ends good bad)
    {a : α} (ha : run.result = .ok a) : good a := by
  unfold Ends at h
  rwa [ha] at h

/-- A fault that the run stopped with is one of those allowed. -/
theorem Ends.of_fault {good : α → Prop} {bad : Fault → Prop} {run : Run α} (h : run.Ends good bad)
    {fault : Fault} (hf : run.result = .error (.fault fault)) : bad fault := by
  unfold Ends at h
  rwa [hf] at h

/-- Whatever a run comes to is a good result. -/
theorem ends_of_ok {good : α → Prop} {run : Run α} (h : ∀ a, run.result = .ok a → good a) :
    run.Ends good fun _ => True := by
  obtain ⟨trace, (fault | _) | a⟩ := run
  · trivial
  · trivial
  · exact h a rfl

/-- Less may be said of the end of a run. -/
theorem Ends.mono {good good' : α → Prop} {bad bad' : Fault → Prop} {run : Run α}
    (h : run.Ends good bad) (hg : ∀ a, good a → good' a) (hb : ∀ fault, bad fault → bad' fault) :
    run.Ends good' bad' := by
  obtain ⟨trace, (fault | _) | a⟩ := run
  · exact hb fault h
  · trivial
  · exact hg a h

/-- **What follows a run starts from a good result**: the condition on results is handed on, and
the faults of both parts are allowed. -/
theorem Ends.bind {good : α → Prop} {good' : β → Prop} {bad : Fault → Prop} {run : Run α}
    {next : α → Run β} (h : run.Ends good bad) (hn : ∀ a, good a → (next a).Ends good' bad) :
    (run >>= next).Ends good' bad := by
  obtain ⟨trace, (fault | _) | a⟩ := run
  · exact h
  · trivial
  · exact hn a h

/-- What follows a run matters for its good results only. -/
theorem Ends.bind_congr {good : α → Prop} {bad : Fault → Prop} {run : Run α}
    {next next' : α → Run β} (h : run.Ends good bad) (hn : ∀ a, good a → next a = next' a) :
    run >>= next = run >>= next' := by
  obtain ⟨trace, stop | a⟩ := run
  · rfl
  · rw [bind_eq, bind_eq]
    simp only [hn a h]

/-- A call comes to no result that matters and has no fault. -/
theorem ends_call_bind {good : β → Prop} {bad : Fault → Prop} {role : Role} {origin : Origin}
    {name : String} {subject : Value} {next : Unit → Run β} :
    (call role origin name subject >>= next).Ends good bad ↔ (next ()).Ends good bad := Iff.rfl

/-- Changing the result of a run. -/
theorem ends_map {good : β → Prop} {bad : Fault → Prop} {f : α → β} {run : Run α} :
    (f <$> run).Ends good bad ↔ run.Ends (fun a => good (f a)) bad := by
  rw [map_eq]
  obtain ⟨trace, (fault | _) | a⟩ := run <;> rfl

/-- Seen from further out a run has the same results, and its faults are those seen from there. -/
theorem Ends.under {good : α → Prop} {bad : Fault → Prop} {run : Run α} (h : run.Ends good bad)
    (segment : String) (hb : ∀ fault, bad fault → bad (fault.under segment)) :
    (run.under segment).Ends good bad := by
  obtain ⟨trace, (fault | _) | a⟩ := run
  · exact hb fault h
  · trivial
  · exact h

/-- A run whose fault is handed over has no fault of its own. -/
theorem Ends.attempt {good : α → Prop} {bad bad' : Fault → Prop} {run : Run α}
    (h : run.Ends good bad) :
    run.attempt.Ends (fun | .ok a => good a | .error fault => bad fault) bad' := by
  obtain ⟨trace, (fault | _) | a⟩ := run
  · exact h
  · trivial
  · exact h

/-- What every step of a run over a list preserves holds at its end. -/
theorem ends_foldlM {inv : β → Prop} {bad : Fault → Prop} {step : β → α → Run β} :
    ∀ {items : List α}, (∀ item ∈ items, ∀ b, inv b → (step b item).Ends inv bad) →
      ∀ b, inv b → (items.foldlM step b).Ends inv bad
  | [], _, b, hb => hb
  | item :: rest, h, b, hb => by
    rw [List.foldlM_cons]
    refine Ends.bind (h item (by simp) b hb) fun b' hb' => ?_
    exact ends_foldlM (fun later hl => h later (by simp [hl])) b' hb'

/-! ## Results -/

/-- What comes of a sequence of runs. -/
theorem result_bind (run : Run α) (next : α → Run β) :
    (run >>= next).result = run.result.bind fun a => (next a).result := by
  obtain ⟨trace, stop | a⟩ := run <;> rfl

/-- A sequence of runs comes to a result exactly if both parts do. -/
theorem bind_ok_iff {run : Run α} {next : α → Run β} {b : β} :
    (run >>= next).result = .ok b ↔ ∃ a, run.result = .ok a ∧ (next a).result = .ok b := by
  obtain ⟨trace, stop | a⟩ := run
  · exact ⟨nofun, fun ⟨_, ha, _⟩ => nomatch ha⟩
  · constructor
    · exact fun hb => ⟨a, rfl, hb⟩
    · rintro ⟨a', ha, hb⟩
      cases ha
      exact hb

theorem map_ok_iff {f : α → β} {run : Run α} {b : β} :
    (f <$> run).result = .ok b ↔ ∃ a, run.result = .ok a ∧ f a = b := by
  rw [map_eq]
  obtain ⟨trace, stop | a⟩ := run <;> simp [Except.map]

theorem under_ok_iff {segment : String} {run : Run α} {a : α} :
    (run.under segment).result = .ok a ↔ run.result = .ok a := by
  obtain ⟨trace, (fault | _) | a'⟩ := run
  · exact ⟨nofun, nofun⟩
  · exact Iff.rfl
  · exact Iff.rfl

/-- A run that is attempted hands over the result that it comes to. -/
theorem attempt_ok_iff {run : Run α} {a : α} :
    run.attempt.result = .ok (.ok a) ↔ run.result = .ok a := by
  obtain ⟨trace, (fault | _) | a'⟩ := run <;> simp [attempt]

@[simp] theorem pure_ok_iff {a b : α} : (pure a : Run α).result = .ok b ↔ a = b :=
  ⟨Except.ok.inj, congrArg Except.ok⟩

/-! ## Two runs -/

/-- How a run that stops at the first failure compares with one that records failures.  If the
tolerant run comes to a result, then the strict one comes to a result in agreement with it, or it
stops with a fault and the result of the tolerant run is flawed. -/
def Tracks (agree : α → β → Prop) (flawed : Fault → β → Prop) (strict : Run α)
    (tolerant : Run β) : Prop :=
  match tolerant.result, strict.result with
  | .error _, _ => True
  | .ok b, .ok a => agree a b
  | .ok b, .error (.fault fault) => flawed fault b
  | .ok _, .error .panic => False

variable {agree : α → β → Prop} {flawed : Fault → β → Prop}

theorem tracks_pure {a : α} {b : β} (h : agree a b) :
    Tracks agree flawed (pure a) (pure b) := h

/-- A strict run that stopped with a fault tracks a tolerant run that comes to a flawed result. -/
theorem Ends.tracks {strict : Run α} {tolerant : Run β} {fault : Fault}
    (h : tolerant.Ends (flawed fault) fun _ => True)
    (hs : strict.result = .error (.fault fault)) : Tracks agree flawed strict tolerant := by
  unfold Tracks
  rw [hs]
  obtain ⟨trace, (other | _) | b⟩ := tolerant
  · trivial
  · trivial
  · exact h

/-- Nothing is asked of a strict run where the tolerant one stops with a fault. -/
theorem tracks_of_fail {strict : Run α} {fault : Fault} :
    Tracks agree flawed strict (fail fault) := trivial

/-- Nothing is asked of a strict run where the tolerant one panics. -/
theorem tracks_of_panic {strict : Run α} : Tracks agree flawed strict panic := trivial

/-- The same call before two runs. -/
theorem tracks_call_bind {role : Role} {origin : Origin} {name : String} {subject : Value}
    {next : Unit → Run α} {next' : Unit → Run β} :
    Tracks agree flawed (call role origin name subject >>= next)
        (call role origin name subject >>= next') ↔
      Tracks agree flawed (next ()) (next' ()) := Iff.rfl

/-- Changing the results of two runs. -/
theorem tracks_map {agree : γ → δ → Prop} {flawed : Fault → δ → Prop} {f : α → γ} {g : β → δ}
    {strict : Run α} {tolerant : Run β} :
    Tracks agree flawed (f <$> strict) (g <$> tolerant) ↔
      Tracks (fun a b => agree (f a) (g b)) (fun fault b => flawed fault (g b)) strict
        tolerant := by
  rw [map_eq, map_eq]
  obtain ⟨trace, (fault | _) | b⟩ := tolerant
  · rfl
  · rfl
  · obtain ⟨trace', (fault | _) | a⟩ := strict <;> rfl

/-- Less may be said of two runs. -/
theorem Tracks.mono {agree' : α → β → Prop} {flawed' : Fault → β → Prop} {strict : Run α}
    {tolerant : Run β} (h : Tracks agree flawed strict tolerant)
    (ha : ∀ a b, agree a b → agree' a b) (hf : ∀ fault b, flawed fault b → flawed' fault b) :
    Tracks agree' flawed' strict tolerant := by
  obtain ⟨trace, (fault | _) | b⟩ := tolerant
  · trivial
  · trivial
  · obtain ⟨trace', (fault | _) | a⟩ := strict
    · exact hf fault b h
    · exact h
    · exact ha a b h

/-- **Two sequences of runs**: results in agreement are gone on from by runs that track each other,
and what is flawed stays so in the rest of the tolerant run, which the strict run does not have. -/
theorem Tracks.bind {agree' : γ → δ → Prop} {flawed' : Fault → δ → Prop} {strict : Run α}
    {tolerant : Run β} {next : α → Run γ} {next' : β → Run δ}
    (h : Tracks agree flawed strict tolerant)
    (ha : ∀ a b, agree a b → Tracks agree' flawed' (next a) (next' b))
    (hf : ∀ fault b, flawed fault b → (next' b).Ends (flawed' fault) fun _ => True) :
    Tracks agree' flawed' (strict >>= next) (tolerant >>= next') := by
  obtain ⟨trace, (fault | _) | b⟩ := tolerant
  · trivial
  · trivial
  obtain ⟨trace', (fault | _) | a⟩ := strict
  · exact Ends.tracks (hf fault b h) rfl
  · exact h.elim
  · exact ha a b h

/-- From further out two runs compare by what the fault seen from there says of the result. -/
theorem Tracks.under {flawed' : Fault → β → Prop} {strict : Run α} {tolerant : Run β}
    (h : Tracks agree flawed strict tolerant) (segment : String)
    (hf : ∀ fault b, flawed fault b → flawed' (fault.under segment) b) :
    Tracks agree flawed' (strict.under segment) (tolerant.under segment) := by
  obtain ⟨trace, (fault | _) | b⟩ := tolerant
  · trivial
  · trivial
  · obtain ⟨trace', (fault | _) | a⟩ := strict
    · exact hf fault b h
    · exact h
    · exact h

/-- **Two runs whose faults are handed over.**  What goes on from the strict run's fault is compared
with what goes on from the tolerant run's flawed result; a fault that the tolerant run may hand over
has to stop it for good. -/
theorem Tracks.attempt_bind {agree' : γ → δ → Prop} {flawed' : Fault → δ → Prop}
    {good : β → Prop} {bad : Fault → Prop} {strict : Run α} {tolerant : Run β}
    {next : Except Fault α → Run γ} {next' : Except Fault β → Run δ}
    (h : Tracks agree flawed strict tolerant) (ht : tolerant.Ends good bad)
    (ha : ∀ a b, agree a b → Tracks agree' flawed' (next (.ok a)) (next' (.ok b)))
    (hf : ∀ fault b, flawed fault b → Tracks agree' flawed' (next (.error fault)) (next' (.ok b)))
    (hb : ∀ fault, bad fault → ∀ run, Tracks agree' flawed' run (next' (.error fault))) :
    Tracks agree' flawed' (strict.attempt >>= next) (tolerant.attempt >>= next') := by
  obtain ⟨trace, (fault | _) | b⟩ := tolerant
  · exact hb fault ht _
  · trivial
  · obtain ⟨trace', (fault | _) | a⟩ := strict
    · exact hf fault b h
    · exact h.elim
    · exact ha a b h

/-- Two runs over one list track each other if their steps do. -/
theorem tracks_foldlM {flawed : Fault → δ → Prop} {agree : γ → δ → Prop} {step : γ → α → Run γ}
    {step' : δ → α → Run δ}
    (ha : ∀ c d item, agree c d → Tracks agree flawed (step c item) (step' d item))
    (hf : ∀ fault d item, flawed fault d → (step' d item).Ends (flawed fault) fun _ => True) :
    ∀ (items : List α) (c : γ) (d : δ), agree c d →
      Tracks agree flawed (items.foldlM step c) (items.foldlM step' d)
  | [], _, _, h => tracks_pure h
  | item :: rest, c, d, h => by
    rw [List.foldlM_cons, List.foldlM_cons]
    refine Tracks.bind (ha c d item h) (fun c' d' h' => tracks_foldlM ha hf rest c' d' h')
      fun fault d' h' => ?_
    exact ends_foldlM (fun later _ d'' h'' => hf fault d'' later h'') d' h'

end Run

end Conform
