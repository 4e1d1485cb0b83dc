import Conform.Proofs.Acceptance
import Conform.Proofs.Assembly
import Conform.Schema.Projection

set_option autoImplicit false

/-!
# Tuples that grow

A tuple that takes one more position keeps its meaning.  Its positions are evaluated as before and
the new one after them; its operations, carried over, do to the leading values what they did and
leave the new value alone.  So the longer tuple accepts what the shorter one and the new position
accept together, and a tolerant run of it finds the failures of both.

## Main definitions

* `Conform.Progress.push` — the progress of a run beside a value that the run does not touch.
* `Conform.Positions.Completes` — every position yields a value and the operations come through.

## Main results

* `Conform.Pipeline.resume_widen` — operations that were carried over.
* `Conform.Positions.completes_extend` — a tuple with one more position, run to its end.
* `Conform.Validator.and_keeps_meaning` — what a tuple that grows accepts, produces, records and
  shows.
-/

namespace Conform

/-! ## Operations carried over -/

section Widen

variable {n : Nat} (strategy : Strategy) (kind : String)

/-- The progress of a run beside one more value, which the run does not touch. -/
def Progress.push (progress : Progress (Vector Value n)) (last : Value) :
    Progress (Vector Value (n + 1)) :=
  ⟨progress.value.push last, progress.failures⟩

/-- A check of the leading values finds what it found without the last one. -/
theorem Progress.judge_push (progress : Progress (Vector Value n)) (last : Value) (mode : Mode)
    (name message : String) (passed : Bool) :
    (progress.push last).judge mode name message passed
      = (·.push last) <$> progress.judge mode name message passed := by
  unfold judge
  cases passed with
  | true => rfl
  | false => cases mode <;> rfl

/-- **An operation that was carried over** does to the leading values what it did before, and
nothing to the last one. -/
theorem Operation.advance_widen (operation : Operation (Vector Value n))
    (progress : Progress (Vector Value n)) (last : Value) :
    operation.widen.advance strategy kind (progress.push last)
      = (·.push last) <$> operation.advance strategy kind progress := by
  -- All that a widened operation looks at is what `pop` and `back` give.
  have hpop : (progress.push last).value.pop = progress.value := Vector.pop_push
  have hback : (progress.push last).value.back = last := by simp [Progress.push, Vector.back]
  cases operation with
  | check c =>
    simp only [widen, advance, Check.widen, Check.passes, hpop, map_bind]
    exact congrArg _ (funext fun _ => Progress.judge_push progress last _ _ _ _)
  | asyncCheck c =>
    cases hs : strategy.scheduling with
    | sync =>
      simp only [widen, advance, hs]
      rfl
    | async =>
      simp only [widen, advance, hs, AsyncCheck.widen, AsyncCheck.passes, hpop, map_bind]
      exact congrArg _ (funext fun _ => Progress.judge_push progress last _ _ _ _)
  | transformation t =>
    simp only [widen, advance, Transformation.widen, hpop, hback, map_bind]
    refine congrArg _ (funext fun _ => ?_)
    cases t.apply progress.value <;> rfl

/-- **Operations that were carried over** do to the leading values what they did before, and
nothing to the last one. -/
theorem Pipeline.resume_widen (pipeline : Pipeline (Vector Value n))
    (progress : Progress (Vector Value n)) (last : Value) :
    pipeline.widen.resume strategy kind (progress.push last)
      = (·.push last) <$> pipeline.resume strategy kind progress := by
  unfold resume widen
  induction pipeline.operations generalizing progress with
  | nil => rfl
  | cons operation rest ih =>
    rw [List.map_cons, List.foldlM_cons, List.foldlM_cons, Operation.advance_widen,
      bind_map_left, map_bind]
    exact congrArg _ (funext ih)

/-- Operations that were carried over show what they showed. -/
@[simp] theorem Pipeline.summaries_widen (pipeline : Pipeline (Vector Value n)) :
    pipeline.widen.summaries = pipeline.summaries := by
  simp [summaries, widen]

end Widen

/-! ## Positions -/

namespace Positions

variable {arity : Nat} {strategy : Strategy} {elements : Fin arity → Evaluator}
  {next : Evaluator} {core : Core (Vector Value arity)} {items : Vector Value arity}

/-- The leading positions are evaluated as they were without the last one. -/
theorem gather_extend (next : Evaluator) (value : Value) :
    ∀ (k : Nat) (hk : k ≤ arity),
      gather (Validator.extend elements next) (items.push value) k (Nat.le_succ_of_le hk)
        = gather elements items k hk
  | 0, _ => rfl
  | k + 1, hk => by
    have hpart : Validator.extend elements next ⟨k, Nat.lt_succ_of_lt hk⟩ = elements ⟨k, hk⟩ :=
      Validator.extend_castSucc ⟨k, hk⟩
    have hitem : (items.push value)[k] = items[k] := Vector.getElem_push_lt hk
    simp only [gather, gather_extend next value k (Nat.le_of_succ_le hk), hpart, hitem]

/-- **One more position is evaluated after the others.** -/
theorem gather_extend_ok_iff {value : Value} {gathered : Gathered (arity + 1)} :
    (gather (Validator.extend elements next) (items.push value) (arity + 1)
        (Nat.le_refl _)).result = .ok gathered ↔
      ∃ before found, (gather elements items arity (Nat.le_refl _)).result = .ok before ∧
        (next value).result = .ok found ∧
        gathered
          = { produced := before.produced.bind fun values => found.value.map values.push
              failures := before.failures.absorb (Path.position arity) found.failures } := by
  have hpart : Validator.extend elements next ⟨arity, Nat.lt_succ_self arity⟩ = next :=
    Validator.extend_last
  have hitem : (items.push value)[arity] = value := Vector.getElem_push_last
  simp only [gather, gather_extend next value arity (Nat.le_refl _), hpart, hitem,
    Run.bind_ok_iff, Run.under_ok_iff, Run.pure_ok_iff]
  constructor
  · rintro ⟨before, hb, found, hf, rfl⟩
    exact ⟨before, found, hb, hf, rfl⟩
  · rintro ⟨before, found, hb, hf, rfl⟩
    exact ⟨before, hb, found, hf, rfl⟩

/-- Where every position yields a value, all of them are gathered. -/
theorem gather_of_yields (h : ∀ i, ∃ a, (elements i (items.get i)).Yields a) :
    ∀ (k : Nat) (hk : k ≤ arity), ∃ values failures,
      (gather elements items k hk).result = .ok ⟨some values, failures⟩
  | 0, _ => ⟨#v[], .empty, rfl⟩
  | k + 1, hk => by
    obtain ⟨values, failures, hb⟩ := gather_of_yields h k (Nat.le_of_succ_le hk)
    obtain ⟨a, found, hf, hv⟩ := h ⟨k, hk⟩
    refine ⟨values.push a, failures.absorb (Path.position k) found.failures, ?_⟩
    simp only [gather, Run.bind_ok_iff, Run.under_ok_iff, Run.pure_ok_iff]
    exact ⟨_, hb, found, hf, by simp [hv]⟩

/-- A failure of leading positions is filed under one of them. -/
theorem get?_gather_eq_none {k : Nat} {hk : k ≤ arity} {gathered : Gathered k}
    (h : (gather elements items k hk).result = .ok gathered) {j : Nat} (hj : k ≤ j)
    (key : String) :
    gathered.failures.get? (Path.qualify (Path.position j) key) = none := by
  induction k with
  | zero =>
    cases h
    rfl
  | succ k ih =>
    simp only [gather, Run.bind_ok_iff, Run.under_ok_iff, Run.pure_ok_iff] at h
    obtain ⟨before, hb, found, -, rfl⟩ := h
    rw [Failures.get?_absorb, ih hb (Nat.le_of_succ_le hj), Option.or_none]
    refine Option.eq_none_iff_forall_not_mem.mpr fun message hm => ?_
    obtain ⟨inner, hkey, -⟩ := Failures.get?_absorb_position.mp hm
    have hindex : j = k := (Path.qualify_position_inj.mp hkey).1
    exact absurd hj (hindex ▸ Nat.not_succ_le_self k)

/-! ## Tuples -/

theorem exactly?_toList (items : Vector Value arity) :
    Value.exactly? arity items.toList = some items := by
  unfold Value.exactly?
  rw [dif_pos (by simp)]
  rfl

/-- Every position yields a value, with some failures on the way, and the operations come through on
the values. -/
def Completes (strategy : Strategy) (elements : Fin arity → Evaluator)
    (pipeline : Pipeline (Vector Value arity)) (items : Vector Value arity) (failures : Failures)
    (reached : Progress (Vector Value arity)) : Prop :=
  ∃ values,
    (gather elements items arity (Nat.le_refl _)).result = .ok ⟨some values, failures⟩ ∧
      (pipeline.resume strategy "tuple" ⟨values, .empty⟩).result = .ok reached

/-- The outcome of a tuple whose positions and operations came through. -/
def completed (failures : Failures) (reached : Progress (Vector Value arity)) : Outcome Value :=
  ⟨some (.arr reached.value.toList), failures.absorb "" reached.failures, none⟩

/-- The operations of a tuple are run on the values that its positions yielded. -/
theorem evaluateArray_of_gather {values : Vector Value arity} {failures : Failures}
    (hg : (gather elements items arity (Nat.le_refl _)).result = .ok ⟨some values, failures⟩) :
    (evaluateArray strategy elements core (.arr items.toList)).result
      = (core.pipeline.resume strategy "tuple" ⟨values, .empty⟩).result.map
          (completed failures) := by
  simp only [evaluateArray, evaluate, Value.items?, exactly?_toList, Run.bind_eq, hg,
    Core.finish, Run.pure_eq, Pipeline.run, Run.map_eq]
  cases (core.pipeline.resume strategy "tuple" ⟨values, .empty⟩).result <;> rfl

/-- A tuple that comes to a value has gathered one of every position. -/
theorem exists_gather_of_evaluateArray {outcome : Outcome Value}
    (ho : (evaluateArray strategy elements core (.arr items.toList)).result = .ok outcome)
    (hv : outcome.value ≠ none) :
    ∃ values failures,
      (gather elements items arity (Nat.le_refl _)).result = .ok ⟨some values, failures⟩ := by
  simp only [evaluateArray, evaluate, Value.items?, exactly?_toList, Run.bind_ok_iff,
    Run.pure_ok_iff] at ho
  obtain ⟨_, ⟨⟨produced, failures⟩, hg, rfl⟩, finished, hf, rfl⟩ := ho
  cases produced with
  | some values => exact ⟨values, failures, hg⟩
  | none =>
    simp only [Core.finish, Run.pure_ok_iff] at hf
    subst hf
    exact absurd rfl hv

/-- **A tuple comes to a value** exactly if every position yields one and its operations come
through. -/
theorem evaluateArray_yields_iff {outcome : Outcome Value} :
    (evaluateArray strategy elements core (.arr items.toList)).result = .ok outcome ∧
        outcome.value ≠ none ↔
      ∃ failures reached, Completes strategy elements core.pipeline items failures reached ∧
        outcome = completed failures reached := by
  constructor
  · rintro ⟨ho, hv⟩
    obtain ⟨values, failures, hg⟩ := exists_gather_of_evaluateArray ho hv
    rw [evaluateArray_of_gather hg] at ho
    cases hr : (core.pipeline.resume strategy "tuple" ⟨values, .empty⟩).result with
    | error stop =>
      rw [hr] at ho
      cases ho
    | ok reached =>
      rw [hr] at ho
      exact ⟨failures, reached, ⟨values, hg, hr⟩, (Except.ok.inj ho).symm⟩
  · rintro ⟨failures, reached, ⟨values, hg, hr⟩, rfl⟩
    rw [evaluateArray_of_gather hg, hr]
    exact ⟨rfl, Option.some_ne_none _⟩

/-- **A tuple with one more position** is run to its end exactly if it was without that position and
the position yields a value: the value comes last, and its failures are filed before those of the
operations. -/
theorem completes_extend {pipeline : Pipeline (Vector Value arity)} {value : Value}
    {failures' : Failures} {reached' : Progress (Vector Value (arity + 1))} :
    Completes strategy (Validator.extend elements next) pipeline.widen (items.push value) failures'
        reached' ↔
      ∃ failures reached found last, Completes strategy elements pipeline items failures reached ∧
        (next value).result = .ok found ∧ found.value = some last ∧
        failures' = failures.absorb (Path.position arity) found.failures ∧
        reached' = reached.push last := by
  constructor
  · rintro ⟨values', hg, hr⟩
    obtain ⟨⟨produced, failures⟩, found, hb, hf, heq⟩ := gather_extend_ok_iff.mp hg
    obtain ⟨hvalues, rfl⟩ := Gathered.mk.inj heq
    obtain ⟨values, rfl, hlast⟩ := Option.bind_eq_some_iff.mp hvalues.symm
    obtain ⟨last, hl, rfl⟩ := Option.map_eq_some_iff.mp hlast
    obtain ⟨reached, hreached, rfl⟩ :=
      Run.map_ok_iff.mp
        (Pipeline.resume_widen strategy "tuple" pipeline ⟨values, .empty⟩ last ▸ hr)
    exact ⟨failures, reached, found, last, ⟨values, hb, hreached⟩, hf, hl, rfl, rfl⟩
  · rintro ⟨failures, reached, found, last, ⟨values, hb, hr⟩, hf, hl, rfl, rfl⟩
    refine ⟨values.push last, gather_extend_ok_iff.mpr ⟨_, found, hb, hf, ?_⟩, ?_⟩
    · simp [hl]
    · exact Pipeline.resume_widen strategy "tuple" pipeline ⟨values, .empty⟩ last ▸
        Run.map_ok_iff.mpr ⟨reached, hr, rfl⟩

end Positions

/-! ## Tuples with one more position -/

namespace Validator

open Schema

section Growth

variable {arity : Nat} {elements : Fin arity → Validator} {core : Core (Vector Value arity)}
  {next : Validator} {scheduling : Scheduling} {items : Vector Value arity} {value : Value}

/-- A tuple that has room grows by one position. -/
theorem and_tuple (ha : arity < maxArity) :
    (tuple arity elements core).and next
      = tuple (arity + 1) (extend elements next) ⟨core.pipeline.widen, core.handle⟩ :=
  if_pos ha

/-- **A tuple with one more position comes to a value** exactly if the positions there were and the
new one yield values and the operations come through on the former. -/
theorem evaluate_and_yields_iff (ha : arity < maxArity) {strategy : Strategy}
    {whole : Outcome Value} :
    (((tuple arity elements core).and next).evaluate strategy
          (.arr (items.push value).toList)).result = .ok whole ∧ whole.value ≠ none ↔
      ∃ failures reached found last,
        Positions.Completes strategy (fun i => (elements i).evaluate strategy) core.pipeline items
          failures reached ∧
        (next.evaluate strategy value).result = .ok found ∧ found.value = some last ∧
        whole = Positions.completed
          (failures.absorb (Path.position arity) found.failures) (reached.push last) := by
  rw [and_tuple ha, evaluate, map_extend fun part : Validator => part.evaluate strategy,
    Positions.evaluateArray_yields_iff]
  constructor
  · rintro ⟨failures', reached', hc, rfl⟩
    obtain ⟨failures, reached, found, last, hold, hf, hl, rfl, rfl⟩ :=
      Positions.completes_extend.mp hc
    exact ⟨failures, reached, found, last, hold, hf, hl, rfl⟩
  · rintro ⟨failures, reached, found, last, hold, hf, hl, rfl⟩
    exact ⟨_, _, Positions.completes_extend.mpr
      ⟨failures, reached, found, last, hold, hf, hl, rfl, rfl⟩, rfl⟩

/-- The values of a longer tuple are those of the shorter one and the last one. -/
theorem completed_push_value (failures : Failures) (reached : Progress (Vector Value arity))
    (last : Value) :
    (Positions.completed failures (reached.push last)).value
      = some (.arr (reached.value.toList ++ [last])) := by
  rw [← Vector.toList_push]
  rfl

/-- What a tuple produces is an array. -/
theorem eq_arr_of_accepts {produced : Value} (h : (tuple arity elements core).Composed)
    (ha : (tuple arity elements core).Accepts scheduling (.arr items.toList) produced) :
    ∃ leading, produced = .arr leading := by
  obtain ⟨-, outcome, ho, hv⟩ := (accepts_iff_yields h).mp ha
  obtain ⟨failures, reached, -, rfl⟩ :=
    Positions.evaluateArray_yields_iff.mp ⟨ho, by simp [hv]⟩
  exact ⟨reached.value.toList, (Option.some.inj hv).symm⟩

/-- **A longer tuple accepts what the shorter one and the new position accept together.** -/
theorem accepts_and_iff (h : (tuple arity elements core).Composed) (hn : next.Composed)
    (ha : arity < maxArity) {produced : Value} :
    ((tuple arity elements core).and next).Accepts scheduling (.arr (items.push value).toList)
        produced ↔
      ∃ leading last,
        (tuple arity elements core).Accepts scheduling (.arr items.toList) (.arr leading) ∧
        next.Accepts scheduling value last ∧ produced = .arr (leading ++ [last]) := by
  have hpermits : scheduling.Permits ((tuple arity elements core).and next).requiresAsync ↔
      scheduling.Permits (tuple arity elements core).requiresAsync ∧
        scheduling.Permits next.requiresAsync := by
    rw [requiresAsync_and]
    exact Scheduling.permits_or_iff
  rw [accepts_iff_yields (composed_and h hn), hpermits]
  constructor
  · rintro ⟨⟨hp, hp'⟩, whole, hw, hv⟩
    obtain ⟨failures, reached, found, last, hold, hf, hl, rfl⟩ :=
      (evaluate_and_yields_iff ha).mp ⟨hw, by simp [hv]⟩
    have hfirst := Positions.evaluateArray_yields_iff.mpr ⟨failures, reached, hold, rfl⟩
    refine ⟨reached.value.toList, last, (accepts_iff_yields h).mpr ⟨hp, _, hfirst.1, rfl⟩,
      (accepts_iff_yields hn).mpr ⟨hp', found, hf, hl⟩, ?_⟩
    exact Option.some.inj (hv.symm.trans (completed_push_value _ _ _))
  · rintro ⟨leading, last, hfirst, hlast, rfl⟩
    obtain ⟨hp, outcome, ho, hv⟩ := (accepts_iff_yields h).mp hfirst
    obtain ⟨hp', found, hf, hl⟩ := (accepts_iff_yields hn).mp hlast
    obtain ⟨failures, reached, hold, rfl⟩ :=
      Positions.evaluateArray_yields_iff.mp ⟨ho, by simp [hv]⟩
    obtain rfl : reached.value.toList = leading := Value.arr.inj (Option.some.inj hv)
    have hwhole := (evaluate_and_yields_iff ha).mpr
      ⟨failures, reached, found, last, hold, hf, hl, rfl⟩
    exact ⟨⟨hp, hp'⟩, _, hwhole.1, completed_push_value _ _ _⟩

/-- A tolerant run of a tuple whose positions all yield values comes to values, unless it panics. -/
theorem exists_completes_of_yields (h : (tuple arity elements core).Composed)
    (hp : scheduling.Permits (tuple arity elements core).requiresAsync)
    (hpanic : ((tuple arity elements core).evaluate ⟨.tolerant, scheduling⟩
      (.arr items.toList)).result ≠ .error .panic)
    (hparts : ∀ i : Fin arity, ∃ a,
      ((elements i).evaluate ⟨.tolerant, scheduling⟩ (items.get i)).Yields a) :
    ∃ failures reached,
      Positions.Completes ⟨.tolerant, scheduling⟩
        (fun i => (elements i).evaluate ⟨.tolerant, scheduling⟩) core.pipeline items failures
        reached := by
  obtain ⟨values, failures, hg⟩ := Positions.gather_of_yields hparts arity (Nat.le_refl _)
  obtain ⟨own, hown⟩ := exists_outcome h hp hpanic
  rw [evaluate, Positions.evaluateArray_of_gather hg] at hown
  cases hr : (core.pipeline.resume ⟨.tolerant, scheduling⟩ "tuple" ⟨values, .empty⟩).result with
  | ok reached => exact ⟨failures, reached, values, hg, hr⟩
  | error stop =>
    rw [hr] at hown
    cases hown

/-- **A longer tuple records what the shorter one and the new position record.**  A failure of the
new position is filed under it, and gives way to one that the shorter tuple has under the same
key. -/
theorem get?_completed_push {failures : Failures} {reached : Progress (Vector Value arity)}
    {found : Outcome Value} {last : Value} {strategy : Strategy}
    (hc : Positions.Completes strategy (fun i => (elements i).evaluate strategy) core.pipeline items
      failures reached) (key message : String) :
    (Positions.completed (failures.absorb (Path.position arity) found.failures)
        (reached.push last)).failures.get? key = some message ↔
      (Positions.completed failures reached).failures.get? key = some message ∨
        (Positions.completed failures reached).failures.get? key = none ∧
          ∃ inner, key = Path.qualify (Path.position arity) inner ∧
            found.failures.get? inner = some message := by
  obtain ⟨values, hg, -⟩ := hc
  -- Leading positions file nothing under the new one, so only the operations can meet its keys.
  have hold : ∀ inner, failures.get? (Path.qualify (Path.position arity) inner) = none :=
    Positions.get?_gather_eq_none hg (Nat.le_refl arity)
  simp only [Positions.completed, Progress.push]
  rw [Failures.get?_absorb, Failures.get?_absorb failures "", Failures.get?_absorb failures,
    Option.or_eq_some_iff, Option.or_eq_some_iff, Option.or_eq_some_iff, Option.or_eq_none_iff,
    Failures.get?_absorb_position]
  generalize (Failures.absorb .empty "" reached.failures).get? key = own
  constructor
  · rintro (hown | ⟨hown, ⟨inner, rfl, hi⟩ | ⟨hnone, hf⟩⟩)
    · exact Or.inl (Or.inl hown)
    · exact Or.inr ⟨⟨hown, hold inner⟩, inner, rfl, hi⟩
    · exact Or.inl (Or.inr ⟨hown, hf⟩)
  · rintro ((hown | ⟨hown, hf⟩) | ⟨⟨hown, hf⟩, hinner⟩)
    · exact Or.inl hown
    · refine Or.inr ⟨hown, Or.inr ⟨?_, hf⟩⟩
      refine Option.eq_none_iff_forall_not_mem.mpr fun other hm => ?_
      obtain ⟨inner, rfl, -⟩ := Failures.get?_absorb_position.mp hm
      cases (hold inner).symm.trans hf
    · exact Or.inr ⟨hown, Or.inl hinner⟩

/-- The operations of a longer tuple, and its metadata entry, contribute to a schema what they did
before. -/
theorem complete_and_tuple (ha : arity < maxArity) (options : Options) (store : Metadata.Store)
    (described : Value) :
    complete options store ((tuple arity elements core).and next) described
      = complete options store (tuple arity elements core) described := by
  rw [and_tuple ha]
  simp only [complete, summaries, Pipeline.summaries_widen, constrained, shown?, handle?]

/-- The schema of a longer tuple describes one more position. -/
theorem fragment_and_tuple (ha : arity < maxArity) (options : Options) (store : Metadata.Store) :
    ((tuple arity elements core).and next).fragment options store
      = complete options store (tuple arity elements core)
          (.object [("type", .str "array"),
            ("prefixItems", .arr ((List.ofFn fun i => (elements i).fragment options store)
              ++ [next.fragment options store])),
            ("minItems", .int (arity + 1 : Nat)), ("maxItems", .int (arity + 1 : Nat))]) := by
  have hparts : (List.ofFn fun i => (extend elements next i).fragment options store)
      = (List.ofFn fun i => (elements i).fragment options store)
          ++ [next.fragment options store] := by
    rw [map_extend (fragment options store) elements next, ofFn_extend]
  rw [← complete_and_tuple ha, and_tuple ha, fragment, hparts]

/-- **A tuple that grows keeps its meaning.**  The longer tuple accepts an array exactly if the
shorter one accepts all but the last item and the new position accepts that one, and it produces
what they produce.  If every position yields a value, a tolerant run comes to these values and finds
the failures of both, those of the new position filed under it; where both use a key, the message
of the shorter tuple stays.  The longer tuple keeps the metadata handle, has to be awaited if either
has to be, and its own operations show the same keywords and checks.

**Proof sketch.** The positions there were are evaluated as before (`Positions.gather_extend`) and
the operations carried over do the same beside the new value (`Pipeline.resume_widen`), so a run of
the longer tuple to its end is one of the shorter tuple and one of the new position
(`evaluate_and_yields_iff`).  Failures of leading positions are never filed under a later one
(`Positions.get?_gather_eq_none`), so the two can meet only in a failure of the operations. -/
theorem and_keeps_meaning (h : (tuple arity elements core).Composed) (hn : next.Composed)
    (ha : arity < maxArity) :
    (∀ scheduling (items : Vector Value arity) value,
      (∀ first, (tuple arity elements core).Accepts scheduling (.arr items.toList) first →
        ∃ leading, first = .arr leading) ∧
      ∀ produced, ((tuple arity elements core).and next).Accepts scheduling
          (.arr (items.push value).toList) produced ↔
        ∃ leading last,
          (tuple arity elements core).Accepts scheduling (.arr items.toList) (.arr leading) ∧
          next.Accepts scheduling value last ∧ produced = .arr (leading ++ [last])) ∧
    (∀ scheduling (items : Vector Value arity) value found last,
      scheduling.Permits ((tuple arity elements core).and next).requiresAsync →
      (∀ i : Fin arity, ∃ a,
        ((elements i).evaluate ⟨.tolerant, scheduling⟩ (items.get i)).Yields a) →
      (next.evaluate ⟨.tolerant, scheduling⟩ value).result = .ok found →
      found.value = some last →
      ((tuple arity elements core).evaluate ⟨.tolerant, scheduling⟩ (.arr items.toList)).result
        ≠ .error .panic →
        ∃ own whole leading,
          ((tuple arity elements core).evaluate ⟨.tolerant, scheduling⟩
            (.arr items.toList)).result = .ok own ∧
          own.value = some (.arr leading) ∧
          (((tuple arity elements core).and next).evaluate ⟨.tolerant, scheduling⟩
            (.arr (items.push value).toList)).result = .ok whole ∧
          whole.value = some (.arr (leading ++ [last])) ∧
          ∀ key message, whole.failures.get? key = some message ↔
            own.failures.get? key = some message ∨
              own.failures.get? key = none ∧
                ∃ inner, key = Path.qualify (Path.position arity) inner ∧
                  found.failures.get? inner = some message) ∧
    ((tuple arity elements core).and next).handle? = (tuple arity elements core).handle? ∧
    ((tuple arity elements core).and next).requiresAsync
      = ((tuple arity elements core).requiresAsync || next.requiresAsync) ∧
    Constraints.ofSummaries ((tuple arity elements core).and next).summaries
      = Constraints.ofSummaries (tuple arity elements core).summaries ∧
    ∀ options store, ((tuple arity elements core).and next).fragment options store
      = complete options store (tuple arity elements core)
          (.object [("type", .str "array"),
            ("prefixItems", .arr ((List.ofFn fun i => (elements i).fragment options store)
              ++ [next.fragment options store])),
            ("minItems", .int (arity + 1 : Nat)), ("maxItems", .int (arity + 1 : Nat))]) := by
  refine ⟨?_, ?_, ?_, requiresAsync_and, ?_, fragment_and_tuple ha⟩
  · intro scheduling items value
    exact ⟨fun first => eq_arr_of_accepts h, fun produced => accepts_and_iff h hn ha⟩
  · intro scheduling items value found last hp hparts hf hl hpanic
    rw [requiresAsync_and, Scheduling.permits_or_iff] at hp
    obtain ⟨failures, reached, hc⟩ := exists_completes_of_yields h hp.1 hpanic hparts
    have hown := Positions.evaluateArray_yields_iff.mpr ⟨failures, reached, hc, rfl⟩
    have hwhole := (evaluate_and_yields_iff ha).mpr
      ⟨failures, reached, found, last, hc, hf, hl, rfl⟩
    exact ⟨_, _, reached.value.toList, hown.1, rfl, hwhole.1, completed_push_value _ _ _,
      get?_completed_push hc⟩
  · rw [and_tuple ha]
    rfl
  · rw [and_tuple ha, summaries, Pipeline.summaries_widen]
    rfl

end Growth

/-- The operations of a pair swap its values and those of a triple refuse them; the triple has grown
out of the pair and grows once more, by a position that refuses its value as well. -/
theorem and_keeps_meaning_of_swapped_pair :
    let swap : Change :=
      ⟨fun | .arr [a, b] => .answer (.arr [b, a]) | value => .answer value, .answer⟩
    let two := ((ofType .integer).and (ofType .integer)).act (.transformation "swap" swap)
    let three := (two.and (ofType .string)).act
      (.check "known" "unknown triple" none fun _ => .answer false)
    let small := (ofType .integer).act (.check "small" "too large" none fun _ => .answer false)
    let swapped : List Value := [.int 2, .int 1, .str "a"]
    (two.and (ofType .string)).Accepts .sync (.arr [.int 1, .int 2, .str "a"]) (.arr swapped) ∧
      ∃ whole, ((three.and small).evaluate ⟨.tolerant, .sync⟩
          (.arr [.int 1, .int 2, .str "a", .int 7])).result = .ok whole ∧
        whole.value = some (.arr (swapped ++ [.int 7])) ∧
        whole.failures.get? "known" = some "unknown triple" ∧
        whole.failures.get? "[3].small" = some "too large" := by
  intro swap two three small swapped
  have hinteger : (ofType .integer).Composed := trivial
  have htwo : two.Composed := composed_and hinteger hinteger
  have hstring : (ofType .string).Composed := trivial
  have hthree : three.Composed := composed_and htwo hstring
  have hsmall : small.Composed := trivial
  refine ⟨?_, ?_⟩
  · refine (((and_keeps_meaning htwo hstring (by decide)).1 .sync #v[.int 1, .int 2]
      (.str "a")).2 (.arr swapped)).mpr ⟨[.int 2, .int 1], .str "a", ?_, ?_, rfl⟩
    · exact (accepts_iff htwo).mpr ⟨fun _ => rfl, rfl⟩
    · exact (accepts_iff hstring).mpr ⟨fun _ => rfl, rfl⟩
  · let found : Outcome Value := ⟨some (.int 7), Failures.empty.record "small" "too large", none⟩
    let own : Outcome Value :=
      ⟨some (.arr swapped), Failures.empty.record "known" "unknown triple", none⟩
    have hown : (three.evaluate ⟨.tolerant, .sync⟩
        (.arr [.int 1, .int 2, .str "a"])).result = .ok own := rfl
    obtain ⟨own', whole, leading, ho, hleading, hw, hv, hf⟩ :=
      (and_keeps_meaning hthree hsmall (by decide)).2.1 .sync #v[.int 1, .int 2, .str "a"]
        (.int 7) found (.int 7) (fun _ => rfl)
        (fun | 0 => ⟨_, _, rfl, rfl⟩ | 1 => ⟨_, _, rfl, rfl⟩ | 2 => ⟨_, _, rfl, rfl⟩) rfl rfl
        (hown ▸ nofun)
    obtain rfl : own = own' := Except.ok.inj (hown.symm.trans ho)
    obtain rfl : swapped = leading := Value.arr.inj (Option.some.inj hleading)
    refine ⟨whole, hw, hv, (hf _ _).mpr (Or.inl rfl), (hf _ _).mpr (Or.inr ⟨rfl, "small", ?_, rfl⟩)⟩
    decide

end Validator

end Conform
