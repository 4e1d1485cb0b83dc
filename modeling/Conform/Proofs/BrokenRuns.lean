import Conform.Proofs.OrderedChoice

set_option autoImplicit false

/-!
# Runs that break off

A failed check or a failed conversion is handled by the forms around it: it is filed under a place
in the value, recorded by a tolerant run, or passed over for the next alternative of a union.  Two
ways to stop are handled by no form: a panic of a transformation, and a configuration fault, which
says that a validator was run in a way in which it cannot be run.

A run that breaks off by such a stop does so in one of its steps, and the steps before that one came
to results.  This is told for sequences of runs, for the loops over items, positions and
alternatives, and for what is done with an outcome.

## Main definitions

* `Conform.Stop.Final` — nothing handles the stop.
* `Conform.Run.Breaks` — a run ends with a stop after some calls.

## Main results

* `Conform.Run.breaks_bind_iff`, `Conform.Run.foldlM_breaks_iff` — sequences of runs.
* `Conform.Items.outcomes_breaks_iff`, `Conform.Positions.gather_breaks_iff`,
  `Conform.Choice.tryAll_breaks_iff` — items, positions and alternatives.
* `Conform.Core.finish_breaks_iff` — the operations on the value of an outcome.
-/

namespace Conform

variable {α β : Type} {strategy : Strategy} {stop : Stop}

/-- **Nothing handles the stop**: it is a panic, or a fault that lies in how a validator was run. -/
def Stop.Final : Stop → Prop
  | .fault cause => cause.isConfiguration = true
  | .panic => True

/-! ## Runs that break off -/

namespace Run

variable {calls later : List Call}

/-- **The run ends with a stop** after these calls. -/
def Breaks (stop : Stop) (calls : List Call) (run : Run α) : Prop := run = ⟨calls, .error stop⟩

/-- What would follow is not run. -/
theorem Breaks.bind {run : Run α} (h : run.Breaks stop calls) (next : α → Run β) :
    (run >>= next).Breaks stop calls := by
  obtain rfl := h
  rfl

/-- What came to a result before has made its calls. -/
theorem Breaks.after {run : Run α} {a : α} (hrun : run = ⟨calls, .ok a⟩) {next : α → Run β}
    (h : (next a).Breaks stop later) : (run >>= next).Breaks stop (calls ++ later) := by
  obtain rfl := hrun
  unfold Breaks at h ⊢
  rw [bind_eq]
  simp only [h]

/-- **A sequence of runs breaks off in its first run**, or the first one comes to a result and what
follows breaks off. -/
theorem breaks_bind_iff {run : Run α} {next : α → Run β} :
    (run >>= next).Breaks stop calls ↔
      run.Breaks stop calls ∨
        ∃ before a later, run = ⟨before, .ok a⟩ ∧ (next a).Breaks stop later ∧
          calls = before ++ later := by
  constructor
  · intro h
    obtain ⟨before, ended | a⟩ := run
    · obtain ⟨rfl, hstop⟩ := Run.mk.inj h
      exact Or.inl (congrArg (Run.mk before) (congrArg Except.error (Except.error.inj hstop)))
    · obtain ⟨rfl, hresult⟩ := Run.mk.inj h
      exact Or.inr ⟨before, a, _, rfl, Run.ext rfl hresult, rfl⟩
  · rintro (h | ⟨before, a, later, hrun, h, rfl⟩)
    · exact h.bind next
    · exact h.after hrun

theorem not_breaks_pure {a : α} : ¬ (pure a : Run α).Breaks stop calls := nofun

/-- What follows a call breaks off, and the call comes before its calls. -/
theorem breaks_call_bind_iff {role : Role} {origin : Origin} {name : String} {subject : Value}
    {next : Unit → Run α} :
    (call role origin name subject >>= next).Breaks stop calls ↔
      ∃ later, (next ()).Breaks stop later ∧ calls = ⟨role, origin, name, subject⟩ :: later := by
  rw [breaks_bind_iff]
  constructor
  · rintro (h | ⟨before, a, later, hcall, h, rfl⟩)
    · cases h
    · cases hcall
      exact ⟨later, h, rfl⟩
  · rintro ⟨later, h, rfl⟩
    exact Or.inr ⟨_, (), later, rfl, h, rfl⟩

theorem breaks_map_iff {f : α → β} {run : Run α} :
    (f <$> run).Breaks stop calls ↔ run.Breaks stop calls := by
  obtain ⟨trace, ended | a⟩ := run <;> simp [map_eq, Breaks, Except.map]

/-- What is made of a result stops no run. -/
theorem breaks_bind_pure_iff {f : α → β} {run : Run α} :
    (run >>= fun a => pure (f a)).Breaks stop calls ↔ run.Breaks stop calls := by
  rw [← map_eq_pure_bind, breaks_map_iff]

/-- A final stop has no place in the value, so that it looks the same from further out. -/
theorem breaks_under_iff (hf : stop.Final) {run : Run α} {segment : String} :
    (run.under segment).Breaks stop calls ↔ run.Breaks stop calls := by
  obtain ⟨trace, (fault | _) | a⟩ := run
  · cases fault with
    | configuration kind => exact Iff.rfl
    | _ => constructor <;> rintro ⟨⟩ <;> cases hf
  · exact Iff.rfl
  · exact Iff.rfl

/-- A fault is handed over, and nothing but a panic breaks the run off. -/
theorem breaks_attempt_iff {run : Run α} :
    run.attempt.Breaks stop calls ↔ run.Breaks stop calls ∧ stop = .panic := by
  obtain ⟨trace, (fault | _) | a⟩ := run
  · constructor
    · nofun
    · rintro ⟨h, rfl⟩
      cases h
  · constructor
    · rintro ⟨⟩
      exact ⟨rfl, rfl⟩
    · rintro ⟨⟨⟩, -⟩
      rfl
  · exact ⟨nofun, nofun⟩

/-- What is handed over as a fault is what the run stopped with. -/
theorem attempt_error_iff {run : Run α} {fault : Fault} :
    run.attempt = ⟨calls, .ok (.error fault)⟩ ↔ run.Breaks (.fault fault) calls := by
  obtain ⟨trace, (fault' | _) | a⟩ := run <;> simp [attempt, Breaks]

/-- A final stop breaks off what goes on with a fault that is handed over, if configuration faults
are raised again. -/
theorem Breaks.attempt_bind (hf : stop.Final) {run : Run α} (h : run.Breaks stop calls)
    {next : Except Fault α → Run β}
    (hnext : ∀ kind, next (.error (.configuration kind)) = fail (.configuration kind)) :
    (run.attempt >>= next).Breaks stop calls := by
  cases stop with
  | panic => exact (breaks_attempt_iff.mpr ⟨h, rfl⟩).bind _
  | fault fault =>
    cases fault with
    | configuration kind =>
      rw [← List.append_nil calls]
      exact Breaks.after (attempt_error_iff.mpr h) (hnext kind)
    | _ => cases hf

/-- **A run over a list breaks off at one of its items**, after a result of those before it. -/
theorem foldlM_breaks_iff {step : β → α → Run β} {items : List α} {b : β} :
    (items.foldlM step b).Breaks stop calls ↔
      ∃ earlier item rest before reached during, items = earlier ++ item :: rest ∧
        earlier.foldlM step b = ⟨before, .ok reached⟩ ∧ (step reached item).Breaks stop during ∧
        calls = before ++ during := by
  constructor
  · intro h
    induction items generalizing b calls with
    | nil => exact (not_breaks_pure h).elim
    | cons item rest ih =>
      rw [List.foldlM_cons] at h
      obtain hitem | ⟨before, reached, during, hitem, hrest, rfl⟩ := breaks_bind_iff.mp h
      · exact ⟨[], item, rest, [], b, calls, rfl, rfl, hitem, rfl⟩
      · obtain ⟨earlier, next, later, before', reached', during', rfl, hreached, hnext, rfl⟩ :=
          ih hrest
        refine ⟨item :: earlier, next, later, before ++ before', reached', during', rfl, ?_, hnext,
          (List.append_assoc ..).symm⟩
        simp only [List.foldlM_cons, hitem, bind_eq, hreached]
  · rintro ⟨earlier, item, rest, before, reached, during, rfl, hreached, hitem, rfl⟩
    rw [List.foldlM_append]
    refine Breaks.after hreached ?_
    rw [List.foldlM_cons]
    exact hitem.bind _

/-- The run without its result. -/
def muted (run : Run α) : Run Unit := (fun _ => ()) <$> run

@[simp] theorem breaks_muted {run : Run α} : run.muted.Breaks stop calls ↔ run.Breaks stop calls :=
  breaks_map_iff

end Run

/-- A refusal is no final stop. -/
theorem not_breaks_refuse {fault : Fault} (h : fault.isConfiguration = false) (hf : stop.Final)
    {calls : List Call} : ¬ (refuse strategy fault : Run (Outcome α)).Breaks stop calls := by
  cases hm : strategy.mode with
  | strict =>
    rw [refuse_strict hm]
    rintro ⟨⟩
    exact Bool.false_ne_true (h.symm.trans hf)
  | tolerant =>
    obtain ⟨key, hk⟩ := Fault.exists_key h
    rw [refuse_tolerant hm hk]
    exact Run.not_breaks_pure

/-- **The work on an outcome breaks off** where the operations break off on its value. -/
theorem Core.finish_breaks_iff {core : Core α} {name : String} {outcome : Outcome α}
    {calls : List Call} :
    (core.finish strategy name outcome).Breaks stop calls ↔
      ∃ a, outcome.value = some a ∧ (core.pipeline.run strategy name a).Breaks stop calls := by
  unfold Core.finish
  cases outcome.value with
  | none => exact ⟨fun h => (Run.not_breaks_pure h).elim, fun ⟨_, ha, _⟩ => nomatch ha⟩
  | some a =>
    constructor
    · exact fun h => ⟨a, rfl, Run.breaks_bind_pure_iff.mp h⟩
    · rintro ⟨_, ⟨⟩, h⟩
      exact Run.breaks_bind_pure_iff.mpr h

/-! ## Parts that are evaluated one after the other -/

namespace Items

/-- Items are evaluated in order: first those of the first part of a list. -/
theorem outcomes_append (element : Evaluator) (position : Nat) (items more : List Value) :
    outcomes element position (items ++ more)
      = outcomes element position items >>= fun found =>
          outcomes element (position + items.length) more >>= fun later => pure (found ++ later) := by
  induction items generalizing position with
  | nil => simp [outcomes]
  | cons item rest ih =>
    have hlength : position + 1 + rest.length = position + (rest.length + 1) := by omega
    simp only [List.cons_append, outcomes, ih, bind_assoc, pure_bind, List.length_cons, hlength]

/-- **Items break off at one of them**, after those before it came to a result; those after it are
not evaluated. -/
theorem outcomes_breaks_iff (hf : stop.Final) {element : Evaluator} {items : List Value}
    {position : Nat} {calls : List Call} :
    (outcomes element position items).Breaks stop calls ↔
      ∃ earlier item later before found during, items = earlier ++ item :: later ∧
        outcomes element position earlier = ⟨before, .ok found⟩ ∧
        (element item).Breaks stop during ∧ calls = before ++ during := by
  constructor
  · intro h
    induction items generalizing position calls with
    | nil => exact (Run.not_breaks_pure h).elim
    | cons item rest ih =>
      obtain hitem | ⟨before, outcome, during, hitem, hrest, rfl⟩ := Run.breaks_bind_iff.mp h
      · exact ⟨[], item, rest, [], [], calls, rfl, rfl, (Run.breaks_under_iff hf).mp hitem, rfl⟩
      · obtain ⟨earlier, next, later, before', found, during', rfl, hfound, hnext, rfl⟩ :=
          ih (Run.breaks_bind_pure_iff.mp hrest)
        refine ⟨item :: earlier, next, later, before ++ before', outcome :: found, during', rfl, ?_,
          hnext, (List.append_assoc ..).symm⟩
        simp [outcomes, hitem, hfound, Run.bind_eq, Run.pure_eq]
  · rintro ⟨earlier, item, later, before, found, during, rfl, hfound, hitem, rfl⟩
    rw [outcomes_append]
    exact Run.Breaks.after hfound ((((Run.breaks_under_iff hf).mpr hitem).bind _).bind _)

end Items

namespace Positions

variable {arity : Nat} {elements : Fin arity → Evaluator} {items : Vector Value arity}
  {calls : List Call}

/-- A position at which the evaluation breaks off is the last one to be evaluated. -/
theorem gather_breaks_of_le {k : Nat} {hk : k ≤ arity}
    (h : (gather elements items k hk).Breaks stop calls) :
    ∀ {m : Nat}, k ≤ m → ∀ hm : m ≤ arity, (gather elements items m hm).Breaks stop calls := by
  intro m hkm
  induction hkm with
  | refl => exact fun _ => h
  | step _ ih => exact fun hm => (ih (Nat.le_of_succ_le hm)).bind _

/-- **Positions break off at one of them**, after those before it came to a result; those after it
are not evaluated. -/
theorem gather_breaks_iff (hf : stop.Final) {k : Nat} {hk : k ≤ arity} :
    (gather elements items k hk).Breaks stop calls ↔
      ∃ (i : Fin arity) (before : List Call) (gathered : Gathered i.val) (during : List Call),
        i.val < k ∧ gather elements items i.val (Nat.le_of_lt i.isLt) = ⟨before, .ok gathered⟩ ∧
        (elements i items[i]).Breaks stop during ∧ calls = before ++ during := by
  constructor
  · intro h
    induction k generalizing calls with
    | zero => exact (Run.not_breaks_pure h).elim
    | succ k ih =>
      obtain hbefore | ⟨before, gathered, during, hgathered, hrest, rfl⟩ :=
        Run.breaks_bind_iff.mp h
      · obtain ⟨i, before, gathered, during, hi, hparts⟩ := ih hbefore
        exact ⟨i, before, gathered, during, Nat.lt_succ_of_lt hi, hparts⟩
      · have hitem := Run.breaks_bind_pure_iff.mp hrest
        exact ⟨⟨k, hk⟩, before, gathered, during, Nat.lt_succ_self k, hgathered,
          (Run.breaks_under_iff hf).mp hitem, rfl⟩
  · rintro ⟨i, before, gathered, during, hi, hgathered, hitem, rfl⟩
    have hhere : (gather elements items (i.val + 1) i.isLt).Breaks stop (before ++ during) :=
      Run.Breaks.after hgathered (((Run.breaks_under_iff hf).mpr hitem).bind _)
    exact gather_breaks_of_le hhere hi hk

/-- The evaluation of positions breaks off at one of them, and so only if there is an item for
each. -/
theorem evaluate_breaks_iff (hf : stop.Final) {list : List Value} :
    (evaluate strategy elements list).Breaks stop calls ↔
      ∃ items, Value.exactly? arity list = some items ∧
        (gather elements items arity (Nat.le_refl arity)).Breaks stop calls := by
  unfold evaluate
  cases Value.exactly? arity list with
  | none => exact ⟨fun h => (not_breaks_refuse rfl hf h).elim, fun ⟨_, h, _⟩ => nomatch h⟩
  | some items =>
    constructor
    · exact fun h => ⟨items, rfl, Run.breaks_bind_pure_iff.mp h⟩
    · rintro ⟨_, ⟨⟩, h⟩
      exact Run.breaks_bind_pure_iff.mpr h

end Positions

namespace Choice

/-- Alternatives are tried in order: those of the second part of a list only if none of the first
part matched. -/
theorem tryAll_append (value : Value) (alternatives more : List Evaluator) (index : Nat)
    (failures : Failures) :
    tryAll value index (alternatives ++ more) failures
      = tryAll value index alternatives failures >>= fun
          | .matched produced => pure (.matched produced)
          | .exhausted left => tryAll value (index + alternatives.length) more left := by
  induction alternatives generalizing index failures with
  | nil => simp [tryAll]
  | cons alternative rest ih =>
    have hlength : index + 1 + rest.length = index + (rest.length + 1) := by omega
    simp only [List.cons_append, tryAll, ih, bind_assoc, List.length_cons, hlength]
    refine bind_congr fun found => ?_
    cases found with
    | ok outcome =>
      dsimp only
      split
      · split <;> simp
      · rfl
    | error fault =>
      dsimp only
      split
      · rfl
      · rfl

/-- A single attempt breaks off only if the alternative does: by a panic, which is not handed over, or
by a configuration fault, which is raised again. -/
theorem breaks_of_tryAll_singleton (hf : stop.Final) {value : Value} {alternative : Evaluator}
    {index : Nat} {failures : Failures} {calls : List Call}
    (h : (tryAll value index [alternative] failures).Breaks stop calls) :
    (alternative value).Breaks stop calls := by
  simp only [tryAll] at h
  obtain hattempt | ⟨before, found, during, hfound, hrest, rfl⟩ := Run.breaks_bind_iff.mp h
  · exact (Run.breaks_attempt_iff.mp hattempt).1
  cases found with
  | ok outcome =>
    dsimp only at hrest
    split at hrest
    · split at hrest <;> exact (Run.not_breaks_pure hrest).elim
    · exact (Run.not_breaks_pure hrest).elim
  | error fault =>
    dsimp only at hrest
    split at hrest
    · exact (Run.not_breaks_pure hrest).elim
    · obtain ⟨⟩ := hrest
      rw [List.append_nil]
      exact Run.attempt_error_iff.mp hfound

/-- **Attempts break off at one of the alternatives**, after those before it came to nothing; those
after it are not tried.

**Proof sketch.** Induction on the alternatives.  The first one breaks off itself, by a panic that is
not handed over or by a configuration fault that is raised again, or the attempts go on. -/
theorem tryAll_breaks_iff (hf : stop.Final) {value : Value} {alternatives : List Evaluator}
    {index : Nat} {failures : Failures} {calls : List Call} :
    (tryAll value index alternatives failures).Breaks stop calls ↔
      ∃ missed alternative rest before left during,
        alternatives = missed ++ alternative :: rest ∧
        tryAll value index missed failures = ⟨before, .ok (.exhausted left)⟩ ∧
        (alternative value).Breaks stop during ∧ calls = before ++ during := by
  constructor
  · intro h
    induction alternatives generalizing index failures calls with
    | nil => exact (Run.not_breaks_pure h).elim
    | cons alternative rest ih =>
      -- the first attempt on its own, so that nobody asks which failures it left
      rw [← List.singleton_append, tryAll_append] at h
      obtain hfirst | ⟨before, verdict, during, hfirst, hrest, rfl⟩ := Run.breaks_bind_iff.mp h
      · exact ⟨[], alternative, rest, [], failures, calls, rfl, rfl,
          breaks_of_tryAll_singleton hf hfirst, rfl⟩
      cases verdict with
      | matched produced => exact (Run.not_breaks_pure hrest).elim
      | exhausted left =>
        obtain ⟨missed, next, later, before', left', during', rfl, hmissed, hnext, rfl⟩ := ih hrest
        refine ⟨alternative :: missed, next, later, before ++ before', left', during', rfl, ?_, hnext,
          (List.append_assoc ..).symm⟩
        rw [← List.singleton_append, tryAll_append, hfirst]
        simp only [Run.bind_eq, hmissed]
  · rintro ⟨missed, alternative, rest, before, left, during, rfl, hmissed, h, rfl⟩
    rw [tryAll_append]
    exact Run.Breaks.after hmissed (Run.Breaks.attempt_bind hf h fun _ => rfl)

/-- A union that none of its alternatives matched comes to no final stop. -/
theorem not_breaks_exhausted (hf : stop.Final) {count : Nat} {failures : Failures}
    {calls : List Call} : ¬ (exhausted strategy count failures).Breaks stop calls := by
  unfold exhausted
  intro h
  split at h
  · exact not_breaks_refuse rfl hf h
  split at h
  · exact Run.not_breaks_pure h
  · obtain ⟨⟩ := h
    cases hf

end Choice

/-- A value that stands in the list of the values of a function is one of them, and those before it
are the values before. -/
theorem exists_of_ofFn_eq_append_cons {α : Type} {count : Nat} {f : Fin count → α}
    {before after : List α} {a : α} (h : List.ofFn f = before ++ a :: after) :
    ∃ i : Fin count, before = (List.ofFn f).take i ∧ a = f i := by
  have hlength := congrArg List.length h
  simp only [List.length_ofFn, List.length_append, List.length_cons] at hlength
  have hi : before.length < count := by omega
  refine ⟨⟨before.length, hi⟩, by simp [h], ?_⟩
  have hget : (List.ofFn f)[before.length]? = some a := by simp [h]
  simpa [List.getElem?_ofFn, hi] using hget.symm

/-- Whatever a pipe comes to between its stages is no final stop. -/
theorem Stages.not_breaks_cross (hf : stop.Final) {source target : String} {conversion : Conversion}
    {first : Outcome Value} {calls : List Call} :
    ¬ (cross strategy source target conversion first).Breaks stop calls := by
  unfold cross
  intro h
  split at h
  · exact Run.not_breaks_pure h
  split at h
  · obtain h | ⟨_, _, _, _, h, _⟩ := Run.breaks_bind_iff.mp h
    · cases h
    split at h
    · exact Run.not_breaks_pure h
    · exact not_breaks_refuse rfl hf (Run.breaks_bind_pure_iff.mp h)
  · exact Run.not_breaks_pure h

end Conform
