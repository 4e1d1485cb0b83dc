import Conform.Proofs.ModeAgreement

set_option autoImplicit false

/-!
# The calls that a strict run spares itself

A strict run stops at the first failure and so makes fewer calls than a tolerant one, but never
another call: as long as nothing fails both modes work on the same values, and what comes after a
failure is work of the tolerant run alone.  How the calls of the two compare is a parameter here.
Without unions those of the strict run come first among those of the tolerant one, and they are all
of them if nothing fails.  A union goes on after an alternative that failed, and then the strict run
has skipped calls in the middle.

Values are not looked at again: where the strict run goes on, it does so from what the tolerant run
has as well (`Conform.Parallel`).

## Main definitions

* `Conform.Economy` — how the calls of a strict run compare with those of a tolerant one.
* `Conform.Economy.opening`, `Conform.Economy.selected` — they come first, or they occur in that order.
* `Conform.Run.Spares` — two runs whose calls compare so.

## Main results

* `Conform.Run.Spares.bind` — two sequences of runs.
* `Conform.Validator.evaluate_spares` — every composed validator.
* `Conform.Validator.strict_spares_calls` — strict and tolerant parsing.
-/

namespace Conform

variable {α β γ δ : Type} {scheduling : Scheduling}

/-! ## Comparing calls -/

/-- **How the calls of a strict run compare with those of a tolerant one** that comes to a result:
in one way if the strict run comes to a result as well, and in another one if it stopped. -/
structure Economy where
  /-- How they compare if both runs come to a result. -/
  whole : List Call → List Call → Prop
  /-- How they compare if the strict run stopped. -/
  part : List Call → List Call → Prop
  /-- The same calls are made. -/
  refl (calls : List Call) : whole calls calls
  /-- A run that stopped may have made all calls. -/
  part_of_whole {calls calls' : List Call} : whole calls calls' → part calls calls'
  /-- Both runs go on to a result. -/
  whole_append {calls calls' later later' : List Call} :
    whole calls calls' → whole later later' → whole (calls ++ later) (calls' ++ later')
  /-- Both runs go on, and the strict one stops later. -/
  part_append {calls calls' later later' : List Call} :
    whole calls calls' → part later later' → part (calls ++ later) (calls' ++ later')
  /-- The tolerant run goes on alone. -/
  part_extend {calls calls' : List Call} (later : List Call) :
    part calls calls' → part calls (calls' ++ later)

namespace Economy

/-- Both runs make the same calls, up to where the strict one stops. -/
def opening : Economy where
  whole := Eq
  part := (· <+: ·)
  refl _ := rfl
  part_of_whole := by
    rintro calls _ rfl
    exact List.prefix_rfl
  whole_append := by
    rintro calls _ later _ rfl rfl
    rfl
  part_append := by
    rintro calls _ later later' rfl h
    exact (List.prefix_append_right_inj calls).mpr h
  part_extend later h := h.trans (List.prefix_append _ later)

/-- The strict run makes some of the calls of the tolerant one, in the same order. -/
def selected : Economy where
  whole := List.Sublist
  part := List.Sublist
  refl := List.Sublist.refl
  part_of_whole h := h
  whole_append := List.Sublist.append
  part_append := List.Sublist.append
  part_extend later h := h.trans (List.sublist_append_left _ later)

/-- What is asked for unions: a strict run may go on after one of its alternatives stopped. -/
def OfUnions (economy : Economy) : Prop :=
  ∀ {calls calls' : List Call}, economy.part calls calls' → economy.whole calls calls'

theorem ofUnions_selected : selected.OfUnions := fun h => h

end Economy

/-! ## Two runs -/

namespace Run

variable {economy : Economy} {strict : Run α} {tolerant : Run β}

/-- **A strict run spares itself calls of a tolerant one** that comes to a result.  Where the
tolerant run stops, nothing is asked of the strict one. -/
def Spares (economy : Economy) (strict : Run α) (tolerant : Run β) : Prop :=
  match tolerant.result, strict.result with
  | .error _, _ => True
  | .ok _, .ok _ => economy.whole strict.trace tolerant.trace
  | .ok _, .error _ => economy.part strict.trace tolerant.trace

/-- Two runs that make the same calls. -/
theorem spares_of_trace_eq (h : strict.trace = tolerant.trace) :
    Spares economy strict tolerant := by
  unfold Spares
  rw [h]
  split
  · trivial
  · exact economy.refl _
  · exact economy.part_of_whole (economy.refl _)

/-- Nothing is asked of a strict run where the tolerant one stops. -/
theorem spares_of_error {stop : Stop} (h : tolerant.result = .error stop) :
    Spares economy strict tolerant := by
  unfold Spares
  rw [h]
  trivial

/-- Where both runs come to a result, their calls compare as a whole. -/
theorem Spares.whole (h : Spares economy strict tolerant) {a : α} {b : β}
    (hs : strict.result = .ok a) (ht : tolerant.result = .ok b) :
    economy.whole strict.trace tolerant.trace := by
  unfold Spares at h
  rwa [ht, hs] at h

/-- Where the tolerant run comes to a result, the calls that the strict one made compare with its
calls, wherever the strict one stopped. -/
theorem Spares.part (h : Spares economy strict tolerant) {b : β} (ht : tolerant.result = .ok b) :
    economy.part strict.trace tolerant.trace := by
  unfold Spares at h
  rw [ht] at h
  cases hs : strict.result with
  | error stop => rwa [hs] at h
  | ok a =>
    rw [hs] at h
    exact economy.part_of_whole h

variable {agree : α → β → Prop} {flawed : Fault → β → Prop}

/-- **Two sequences of runs**: from results in agreement both go on, and after a strict run that
stopped only the tolerant one does. -/
theorem Spares.bind {next : α → Run γ} {next' : β → Run δ} (h : Spares economy strict tolerant)
    (ht : Tracks agree flawed strict tolerant)
    (hn : ∀ a b, agree a b → Spares economy (next a) (next' b)) :
    Spares economy (strict >>= next) (tolerant >>= next') := by
  obtain ⟨calls', stop' | b⟩ := tolerant
  · trivial
  obtain ⟨calls, stop | a⟩ := strict
  · show Spares economy ⟨calls, .error stop⟩ ⟨calls' ++ (next' b).trace, (next' b).result⟩
    unfold Spares
    cases (next' b).result with
    | error stop' => trivial
    | ok d => exact economy.part_extend _ h
  · have hafter : Spares economy (next a) (next' b) := hn a b ht
    show Spares economy ⟨calls ++ (next a).trace, (next a).result⟩
      ⟨calls' ++ (next' b).trace, (next' b).result⟩
    unfold Spares at hafter ⊢
    cases hd : (next' b).result with
    | error stop' => trivial
    | ok d =>
      rw [hd] at hafter
      cases hc : (next a).result with
      | error stop =>
        rw [hc] at hafter
        exact economy.part_append h hafter
      | ok c =>
        rw [hc] at hafter
        exact economy.whole_append h hafter

/-- Changing the results of two runs. -/
theorem Spares.map (h : Spares economy strict tolerant) (f : α → γ) (g : β → δ) :
    Spares economy (f <$> strict) (g <$> tolerant) := by
  rw [map_eq, map_eq]
  obtain ⟨calls', stop' | b⟩ := tolerant
  · trivial
  · obtain ⟨calls, stop | a⟩ := strict <;> exact h

/-- Two runs seen from further out. -/
theorem Spares.under (h : Spares economy strict tolerant) (segment : String) :
    Spares economy (strict.under segment) (tolerant.under segment) := by
  obtain ⟨calls', (fault' | _) | b⟩ := tolerant
  · trivial
  · trivial
  · obtain ⟨calls, (fault | _) | a⟩ := strict <;> exact h

/-- **Two runs whose faults are handed over**, where a strict run may go on after one that stopped.
A fault that the tolerant run may hand over has to stop it for good. -/
theorem Spares.attempt_bind (hunions : economy.OfUnions) {good : β → Prop} {bad : Fault → Prop}
    {next : Except Fault α → Run γ} {next' : Except Fault β → Run δ}
    (h : Spares economy strict tolerant) (ht : Tracks agree flawed strict tolerant)
    (hends : tolerant.Ends good bad)
    (ha : ∀ a b, agree a b → Spares economy (next (.ok a)) (next' (.ok b)))
    (hf : ∀ fault b, flawed fault b → Spares economy (next (.error fault)) (next' (.ok b)))
    (hb : ∀ fault, bad fault → ∃ stop, (next' (.error fault)).result = .error stop) :
    Spares economy (strict.attempt >>= next) (tolerant.attempt >>= next') := by
  obtain ⟨calls', (fault' | _) | b⟩ := tolerant
  · obtain ⟨stop, hstop⟩ := hb fault' hends
    exact spares_of_error hstop
  · trivial
  · -- whatever the strict run comes to, both go on from results
    have hattempt {handed : Except Fault α} (hw : economy.whole strict.trace calls')
        (hnext : Spares economy (next handed) (next' (.ok b))) :
        Spares economy ((⟨strict.trace, .ok handed⟩ : Run _) >>= next)
          ((⟨calls', .ok (.ok b)⟩ : Run _) >>= next') := by
      have hresults : Tracks (fun handed' handed'' => handed' = handed ∧ handed'' = .ok b)
          (fun _ _ => False) (⟨strict.trace, .ok handed⟩ : Run _)
          (⟨calls', .ok (.ok b)⟩ : Run (Except Fault β)) := ⟨rfl, rfl⟩
      refine Spares.bind hw hresults fun handed' handed'' hsame => ?_
      obtain ⟨rfl, rfl⟩ := hsame
      exact hnext
    obtain ⟨calls, (fault | _) | a⟩ := strict
    · exact hattempt (hunions h) (hf fault b ht)
    · exact ht.elim
    · exact hattempt h (ha a b ht)

end Run

/-! ## Pipelines -/

variable {economy : Economy}

theorem refuse_spares (fault : Fault) :
    Run.Spares economy (refuse ⟨.strict, scheduling⟩ fault : Run (Outcome α))
      (refuse ⟨.tolerant, scheduling⟩ fault : Run (Outcome β)) :=
  Run.spares_of_trace_eq (by rw [trace_refuse, trace_refuse])

/-- What a check found is judged without a call. -/
theorem Progress.trace_judge (mode : Mode) (progress : Progress α) (name message : String)
    (passed : Bool) : (progress.judge mode name message passed).trace = [] := by
  unfold judge
  cases passed <;> cases mode <;> rfl

/-- **One operation is called alike in both modes.** -/
theorem Operation.trace_advance (kind : String) (operation : Operation α) (progress : Progress α) :
    (operation.advance ⟨.strict, scheduling⟩ kind progress).trace
      = (operation.advance ⟨.tolerant, scheduling⟩ kind progress).trace := by
  cases operation with
  | check c =>
    show _ ++ (progress.judge .strict c.name c.message _).trace
      = _ ++ (progress.judge .tolerant c.name c.message _).trace
    rw [Progress.trace_judge, Progress.trace_judge]
  | asyncCheck c =>
    cases scheduling with
    | sync => rfl
    | async =>
      show _ ++ (progress.judge .strict c.name c.message _).trace
        = _ ++ (progress.judge .tolerant c.name c.message _).trace
      rw [Progress.trace_judge, Progress.trace_judge]
  | transformation t => rfl

/-- Operations are called alike up to the first check that fails. -/
theorem Operation.foldlM_spares (kind : String) :
    ∀ (operations : List (Operation α)) (progress : Progress α), progress.failures = .empty →
      Run.Spares economy
        (operations.foldlM (Operation.advance ⟨.strict, scheduling⟩ kind) progress)
        (operations.foldlM (Operation.advance ⟨.tolerant, scheduling⟩ kind) progress)
  | [], _, _ => Run.spares_of_trace_eq rfl
  | operation :: rest, progress, h => by
    rw [List.foldlM_cons, List.foldlM_cons]
    refine Run.Spares.bind (Run.spares_of_trace_eq (operation.trace_advance kind progress))
      (operation.advance_tracks Account.lawful_something kind progress h)
      fun reached reached' hr => ?_
    obtain ⟨rfl, hf⟩ := hr
    exact foldlM_spares kind rest reached hf

/-- A strict run of a pipeline spares itself what comes after the first failure. -/
theorem Pipeline.run_spares (kind : String) (pipeline : Pipeline α) (a : α) :
    Run.Spares economy (pipeline.run ⟨.strict, scheduling⟩ kind a)
      (pipeline.run ⟨.tolerant, scheduling⟩ kind a) :=
  (Operation.foldlM_spares kind pipeline.operations ⟨a, .empty⟩ rfl).map _ _

/-- What is finished after two runs that go side by side. -/
theorem Run.Spares.finish {strict tolerant : Run (Outcome α)}
    (h : Spares economy strict tolerant) (hp : Parallel Account.something strict tolerant)
    (core : Core α) (kind : String) :
    Spares economy (strict >>= core.finish ⟨.strict, scheduling⟩ kind)
      (tolerant >>= core.finish ⟨.tolerant, scheduling⟩ kind) := by
  refine h.bind hp fun outcome outcome' ho => ?_
  obtain ⟨a, rfl, rfl⟩ := ho
  refine Spares.bind (core.pipeline.run_spares kind a)
    (core.pipeline.run_parallel Account.lawful_something kind a) fun own own' _ => ?_
  exact spares_of_trace_eq rfl

/-! ## Leaves, lists and nullables -/

/-- A strict way to evaluate that spares itself calls of a tolerant one on every value, while both go
side by side. -/
structure Evaluator.Spares (economy : Economy) (strict tolerant : Evaluator) : Prop where
  /-- Fewer calls are made. -/
  calls (value : Value) : Run.Spares economy (strict value) (tolerant value)
  /-- Both go side by side. -/
  parallel : Evaluator.Parallel Account.something strict tolerant

theorem Leaf.evaluate_spares (type : LeafType) (core : Core type.Carrier) (value : Value) :
    Run.Spares economy (Leaf.evaluate ⟨.strict, scheduling⟩ type core value)
      (Leaf.evaluate ⟨.tolerant, scheduling⟩ type core value) := by
  unfold Leaf.evaluate
  cases type.read? value with
  | none => exact refuse_spares _
  | some a => exact (core.pipeline.run_spares type.name a).map _ _

namespace Items

/-- A strict run spares itself the items after the first one that fails. -/
theorem outcomes_spares {element element' : Evaluator}
    (he : Evaluator.Spares economy element element') :
    ∀ (position : Nat) (items : List Value),
      Run.Spares economy (outcomes element position items) (outcomes element' position items)
  | _, [] => Run.spares_of_trace_eq rfl
  | position, item :: rest => by
    refine Run.Spares.bind ((he.calls item).under (Path.position position))
      (he.parallel.under Account.lawful_something position item) fun outcome outcome' _ => ?_
    exact Run.Spares.bind (outcomes_spares he (position + 1) rest)
      (outcomes_tracks Account.lawful_something he.parallel (position + 1) rest)
      fun later later' _ => Run.spares_of_trace_eq rfl

/-- **Lists**: a strict run spares itself all items if an operation failed before them. -/
theorem evaluate_spares {element element' : Evaluator}
    (he : Evaluator.Spares economy element element') (core : Core (List Value)) (value : Value) :
    Run.Spares economy (evaluate ⟨.strict, scheduling⟩ element core value)
      (evaluate ⟨.tolerant, scheduling⟩ element' core value) := by
  unfold evaluate
  cases value.items? with
  | none => exact refuse_spares _
  | some items =>
    refine Run.Spares.bind (core.pipeline.run_spares "list" items)
      (core.pipeline.run_parallel Account.lawful_something "list" items) fun own own' ho => ?_
    obtain ⟨changed, rfl, rfl⟩ := ho
    exact Run.Spares.bind (outcomes_spares he 0 changed)
      (outcomes_tracks Account.lawful_something he.parallel 0 changed)
      fun found found' _ => Run.spares_of_trace_eq rfl

end Items

theorem Optional.evaluate_spares {inner inner' : Evaluator}
    (hi : Evaluator.Spares economy inner inner') (default : Option Value) (core : Core Value)
    (value : Value) :
    Run.Spares economy (Optional.evaluate ⟨.strict, scheduling⟩ inner default core value)
      (Optional.evaluate ⟨.tolerant, scheduling⟩ inner' default core value) := by
  unfold Optional.evaluate
  split
  · exact Run.spares_of_trace_eq rfl
  · exact (hi.calls _).finish (hi.parallel _) core "nullable"

/-! ## Tuples -/

namespace Positions

variable {arity : Nat}

/-- A strict run spares itself the positions after the first one that fails. -/
theorem gather_spares {elements elements' : Fin arity → Evaluator}
    (he : ∀ i, Evaluator.Spares economy (elements i) (elements' i)) (items : Vector Value arity) :
    ∀ (k : Nat) (hk : k ≤ arity),
      Run.Spares economy (gather elements items k hk) (gather elements' items k hk)
  | 0, _ => Run.spares_of_trace_eq rfl
  | k + 1, hk => by
    refine Run.Spares.bind (gather_spares he items k (Nat.le_of_succ_le hk))
      (gather_tracks Account.lawful_something (fun i => (he i).parallel) items k
        (Nat.le_of_succ_le hk)) fun before before' _ => ?_
    exact Run.Spares.bind (((he ⟨k, hk⟩).calls items[k]).under (Path.position k))
      ((he ⟨k, hk⟩).parallel.under Account.lawful_something k items[k])
      fun outcome outcome' _ => Run.spares_of_trace_eq rfl

/-- The positions of an array, if there are as many as there are elements. -/
theorem evaluate_spares {elements elements' : Fin arity → Evaluator}
    (he : ∀ i, Evaluator.Spares economy (elements i) (elements' i)) (items : List Value) :
    Run.Spares economy (evaluate ⟨.strict, scheduling⟩ elements items)
      (evaluate ⟨.tolerant, scheduling⟩ elements' items) := by
  unfold evaluate
  cases Value.exactly? arity items with
  | none => exact refuse_spares _
  | some items =>
    exact Run.Spares.bind (gather_spares he items arity (Nat.le_refl arity))
      (gather_tracks Account.lawful_something (fun i => (he i).parallel) items arity
        (Nat.le_refl arity)) fun gathered gathered' _ => Run.spares_of_trace_eq rfl

/-- **Tuples**: a strict run spares itself the operations if a position failed before them. -/
theorem evaluateArray_spares {elements elements' : Fin arity → Evaluator}
    (he : ∀ i, Evaluator.Spares economy (elements i) (elements' i))
    (core : Core (Vector Value arity)) (value : Value) :
    Run.Spares economy (evaluateArray ⟨.strict, scheduling⟩ elements core value)
      (evaluateArray ⟨.tolerant, scheduling⟩ elements' core value) := by
  unfold evaluateArray
  cases value.items? with
  | none => exact refuse_spares _
  | some items =>
    have hfinished : Run.Spares economy
        (evaluate ⟨.strict, scheduling⟩ elements items >>= core.finish ⟨.strict, scheduling⟩ "tuple")
        (evaluate ⟨.tolerant, scheduling⟩ elements' items >>=
          core.finish ⟨.tolerant, scheduling⟩ "tuple") :=
      (evaluate_spares he items).finish
        (evaluate_parallel Account.lawful_something (fun i => (he i).parallel) items) core "tuple"
    have hmapped := hfinished.map (Outcome.map fun values => Value.arr values.toList)
      (Outcome.map fun values => Value.arr values.toList)
    simpa only [map_eq_pure_bind, bind_assoc] using hmapped

end Positions

/-! ## Unions -/

namespace Choice

/-- A strict run spares itself calls in every alternative that fails.

**Proof sketch.** Induction on the alternatives.  Where the first one matches both runs are done.
Where it fails, both go on to the next one with the same value, the strict run after some calls and
the tolerant one after all of them. -/
theorem tryAll_spares (hunions : economy.OfUnions) {awaits : Bool} (value : Value) :
    ∀ {count : Nat} {strict tolerant : Fin count → Evaluator},
      (∀ i, Evaluator.Spares economy (strict i) (tolerant i) ∧
        Evaluator.Keeps ⟨.tolerant, scheduling⟩ awaits (tolerant i)) →
      ∀ (index : Nat) (failures failures' : Failures),
        Run.Spares economy (tryAll value index (List.ofFn strict) failures)
          (tryAll value index (List.ofFn tolerant) failures')
  | 0, _, _, _, _, _, _ => Run.spares_of_trace_eq rfl
  | count + 1, strict, tolerant, ha, index, failures, failures' => by
    rw [List.ofFn_succ, List.ofFn_succ]
    obtain ⟨hs, hk⟩ := ha 0
    have hrest := tryAll_spares hunions value (fun i => ha (Fin.succ i)) (index + 1)
    refine Run.Spares.attempt_bind hunions (hs.calls value) (hs.parallel value) (hk value)
      (fun outcome outcome' ho => ?_) (fun fault outcome' ho => ?_) fun fault hf => ?_
    · obtain ⟨a, rfl, rfl⟩ := ho
      exact Run.spares_of_trace_eq rfl
    · have hu : (fault.under (Path.alternative index)).isConfiguration = false := by
        rw [Fault.isConfiguration_under, ho.1]
      obtain ⟨key, hkey⟩ := Fault.exists_key hu
      have hflawed : outcome'.isSuccess = false := ho.2
      simp only [hkey, hflawed]
      exact hrest _ _
    · obtain ⟨kind, rfl⟩ := Fault.eq_configuration (hf.isConfiguration rfl)
      exact ⟨_, rfl⟩

/-- **Unions**: what the strict run skips, it skips in the alternatives that fail. -/
theorem evaluate_spares (hunions : economy.OfUnions) {count : Nat}
    {strict tolerant : Fin count → Evaluator} {awaits : Bool}
    (ha : ∀ i, Evaluator.Spares economy (strict i) (tolerant i) ∧
      Evaluator.Keeps ⟨.tolerant, scheduling⟩ awaits (tolerant i))
    (core : Core Value) (value : Value) :
    Run.Spares economy (evaluate ⟨.strict, scheduling⟩ (List.ofFn strict) core value)
      (evaluate ⟨.tolerant, scheduling⟩ (List.ofFn tolerant) core value) := by
  -- of the failures that are left nothing need be known
  let anything : Failures → Prop := fun _ => True
  have hrecord (failures : Failures) (key message : String) :
      anything failures → anything (failures.record key message) := fun _ => trivial
  have hsame := tryAll_tracks Account.lawful_something value hrecord
    (fun i => ⟨(ha i).1.parallel, (ha i).2⟩) 0 .empty .empty trivial
  refine Run.Spares.bind (tryAll_spares hunions value ha 0 .empty .empty) hsame
    fun verdict verdict' hv => ?_
  obtain ⟨produced, rfl, rfl⟩ | ⟨left, left', rfl, rfl, -⟩ := hv
  · exact core.pipeline.run_spares "union" produced
  · simp only [List.length_ofFn, exhausted]
    split
    · exact refuse_spares _
    · exact Run.spares_of_trace_eq rfl

end Choice

/-! ## Pipes -/

namespace Stages

/-- The conversion is called alike in both modes. -/
theorem cross_spares (source target : String) (conversion : Conversion) (produced : Value) :
    Run.Spares economy
      (cross ⟨.strict, scheduling⟩ source target conversion (.success produced))
      (cross ⟨.tolerant, scheduling⟩ source target conversion (.success produced)) := by
  refine Run.spares_of_trace_eq ?_
  simp only [cross, Outcome.success, Outcome.isSuccess, Failures.isEmpty_empty, if_true]
  cases conversion.convert produced <;> rfl

/-- **Pipes**: a strict run spares itself the second stage if the first one or the conversion
failed, and so does the tolerant run. -/
theorem evaluate_spares {input input' output output' : Evaluator}
    (hi : Evaluator.Spares economy input input') (ho : Evaluator.Spares economy output output')
    (source target : String) (conversion : Conversion) (core : Core Value) (value : Value) :
    Run.Spares economy
      (evaluate ⟨.strict, scheduling⟩ source target input output conversion core value)
      (evaluate ⟨.tolerant, scheduling⟩ source target input' output' conversion core value) := by
  refine Run.Spares.bind (hi.calls value) (hi.parallel value) fun first first' hf => ?_
  obtain ⟨produced, rfl, rfl⟩ := hf
  refine Run.Spares.bind (cross_spares source target conversion produced)
    (cross_tracks Account.lawful_something source target conversion produced)
    fun crossing crossing' hx => ?_
  obtain ⟨converted, rfl, rfl⟩ := hx
  exact (ho.calls converted).finish (ho.parallel converted) core "pipe"

end Stages

/-! ## All forms -/

namespace Validator

/-- **A strict evaluation of a composed validator spares itself calls of the tolerant one**, if the
economy covers the unions that there are.

**Proof sketch.** Induction on the form.  The parts go side by side (`evaluate_concur`), so that both
runs go on from the same values. -/
theorem evaluate_spares {validator : Validator} (h : validator.Composed)
    (hunions : economy.OfUnions ∨ validator.UnionFree) (scheduling : Scheduling) :
    Evaluator.Spares economy (validator.evaluate ⟨.strict, scheduling⟩)
      (validator.evaluate ⟨.tolerant, scheduling⟩) := by
  refine ⟨?_, evaluate_concur h scheduling⟩
  induction validator with
  | leaf type core => exact Leaf.evaluate_spares type core
  | list element core ih =>
    exact Items.evaluate_spares
      ⟨ih h (hunions.imp_right And.right), evaluate_concur (show element.Composed from h) scheduling⟩ core
  | nullable inner default core ih =>
    exact Optional.evaluate_spares
      ⟨ih h (hunions.imp_right And.right), evaluate_concur (show inner.Composed from h) scheduling⟩
      default core
  | tuple arity elements core ih =>
    exact Positions.evaluateArray_spares
      (fun i => ⟨ih i (h i) (hunions.imp_right fun hfree => hfree.2 i),
        evaluate_concur (h i) scheduling⟩) core
  | union count alternatives core ih =>
    have hcover : economy.OfUnions := hunions.resolve_right fun hfree => nomatch hfree.1
    -- what alternatives have to wait for does not matter here
    have hk (i : Fin count) : Evaluator.Keeps ⟨.tolerant, scheduling⟩ true
        ((alternatives i).evaluate ⟨.tolerant, scheduling⟩) :=
      (evaluate_ends (h i) _).mono fun _ => rfl
    exact Choice.evaluate_spares hcover
      (fun i => ⟨⟨ih i (h i) (Or.inl hcover), evaluate_concur (h i) scheduling⟩, hk i⟩) core
  | pipe input output conversion core ihi iho =>
    exact Stages.evaluate_spares
      ⟨ihi h.1 (hunions.imp_right fun hfree => hfree.2.1), evaluate_concur h.1 scheduling⟩
      ⟨iho h.2 (hunions.imp_right fun hfree => hfree.2.2), evaluate_concur h.2 scheduling⟩
      input.kind output.kind conversion core
  | custom behaviour core => exact h.elim

/-- **A strict parse does no more work than a tolerant one.**  If the tolerant parse does not panic,
then the calls of the strict one, each with the value that the function is given, are some of those
of the tolerant one in the same order.  Without unions they are the first of them, and all of them
if the strict parse is not refused.

**Proof sketch.** A validator that has to be awaited is refused in both modes where nothing can be
awaited, before any call.  Otherwise both parses are evaluations (`parse_eq_evaluate`), of which the
tolerant one comes to an outcome (`exists_outcome`) and the strict one spares itself calls
(`evaluate_spares`). -/
theorem strict_spares_calls {validator : Validator} (h : validator.Composed)
    (store : Metadata.Store) (scheduling : Scheduling) (value : Value)
    (hpanic : (validator.parse store ⟨.tolerant, scheduling⟩ value).result ≠ .error .panic) :
    (validator.parse store ⟨.strict, scheduling⟩ value).trace.Sublist
      (validator.parse store ⟨.tolerant, scheduling⟩ value).trace ∧
    (validator.UnionFree →
      (validator.parse store ⟨.strict, scheduling⟩ value).trace <+:
        (validator.parse store ⟨.tolerant, scheduling⟩ value).trace ∧
      ∀ report, (validator.parse store ⟨.strict, scheduling⟩ value).result = .ok report →
        (validator.parse store ⟨.strict, scheduling⟩ value).trace
          = (validator.parse store ⟨.tolerant, scheduling⟩ value).trace) := by
  obtain hp | ⟨rfl, ha⟩ := scheduling.permits_or validator.requiresAsync
  · obtain ⟨outcome, htolerant⟩ := exists_outcome h hp fun hpanic' =>
      hpanic ((parse_error_iff h hp).mpr hpanic')
    have htrace (mode : Mode) : (validator.parse store ⟨mode, scheduling⟩ value).trace
        = (validator.evaluate ⟨mode, scheduling⟩ value).trace := by
      rw [parse_eq_evaluate h hp, Run.map_eq]
    simp only [htrace]
    have hselected := (evaluate_spares h (Or.inl Economy.ofUnions_selected) scheduling).calls value
    refine ⟨hselected.part htolerant, fun hfree => ?_⟩
    have hopening : Run.Spares .opening (validator.evaluate ⟨.strict, scheduling⟩ value)
        (validator.evaluate ⟨.tolerant, scheduling⟩ value) :=
      (evaluate_spares h (Or.inr hfree) scheduling).calls value
    refine ⟨hopening.part htolerant, fun report hs => ?_⟩
    exact hopening.whole ((parse_ok_iff h hp).mp hs).1 htolerant
  · rw [parse_eq_fail ha, parse_eq_fail ha]
    exact ⟨List.Sublist.refl _, fun _ => ⟨List.prefix_rfl, fun _ _ => rfl⟩⟩

/-- After a check that fails, the strict parse spares itself the next check and the next item.  In a
union it spares itself the next check of the alternative that fails, and goes on to the other one:
its calls are then no longer the first ones of the tolerant parse. -/
theorem strict_spares_calls_of_failed_check :
    let checked := ((ofType .integer).act (.check "small" "too large" none fun _ => .answer false)).act
      (.check "even" "odd" none fun _ => .answer true)
    let other := (ofType .any).act (.check "known" "unknown" none fun _ => .answer true)
    let call (name : String) (n : Int) : Call := ⟨.check, .user, name, .int n⟩
    let strict (validator : Validator) (value : Value) :=
      validator.parse .empty ⟨.strict, .sync⟩ value
    let tolerant (validator : Validator) (value : Value) :=
      validator.parse .empty ⟨.tolerant, .sync⟩ value
    let items : Value := .arr [.int 3, .int 5]
    checked.many.Composed ∧ checked.many.UnionFree ∧
      (tolerant checked.many items).result ≠ .error .panic ∧
      (strict checked.many items).trace = [call "small" 3] ∧
      (tolerant checked.many items).trace
        = [call "small" 3, call "even" 3, call "small" 5, call "even" 5] ∧
      (strict checked.many items).trace <+: (tolerant checked.many items).trace ∧
      (checked.or other).Composed ∧
      (tolerant (checked.or other) (.int 3)).result ≠ .error .panic ∧
      (strict (checked.or other) (.int 3)).trace = [call "small" 3, call "known" 3] ∧
      (tolerant (checked.or other) (.int 3)).trace
        = [call "small" 3, call "even" 3, call "known" 3] ∧
      (strict (checked.or other) (.int 3)).trace.Sublist
        (tolerant (checked.or other) (.int 3)).trace := by
  intro checked other call strict tolerant items
  have hlist : checked.many.Composed := trivial
  have hfree : checked.many.UnionFree := ⟨rfl, rfl⟩
  have hunion : (checked.or other).Composed := composed_or trivial trivial
  have hitems : (tolerant checked.many items).result ≠ .error .panic := nofun
  have hvalue : (tolerant (checked.or other) (.int 3)).result ≠ .error .panic := nofun
  have hopening := (strict_spares_calls hlist .empty .sync items hitems).2 hfree
  have hselected := (strict_spares_calls hunion .empty .sync (.int 3) hvalue).1
  exact ⟨hlist, hfree, hitems, rfl, rfl, hopening.1, hunion, hvalue, rfl, rfl, hselected⟩

end Validator

end Conform
