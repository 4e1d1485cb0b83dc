import Conform.Proofs.Coherence
import Conform.Proofs.Composed
import Conform.Proofs.OutcomeInvariant

set_option autoImplicit false

/-!
# Strict and tolerant runs side by side

A strict run stops at the first failure, a tolerant run records failures and goes on.  The two are
followed side by side through every form of validator.  While nothing fails they do the same.  At
the first failure the strict run stops with a fault, and the tolerant run is followed alone from
there on.

What the failures of the tolerant run then tell of that fault is a parameter.  It has to hold of a
refusal, to survive everything that is recorded later, and to go along when a part is seen from
further out; a union, which replaces the faults of its alternatives by one of its own, asks for one
thing more.

## Main definitions

* `Conform.Account` — what recorded failures tell of a fault; `Conform.Account.Lawful` and
  `Conform.Account.OfUnions` — what is asked of it.
* `Conform.Parallel` — a strict run and a tolerant one come to one value, or to a fault here and
  failures that tell of it there.

## Main results

* `Conform.Validator.evaluate_parallel` — every composed validator.
-/

namespace Conform

variable {α β : Type} {scheduling : Scheduling}

/-! ## Accounts of a fault -/

/-- What the failures of a tolerant run tell of the fault that ended the strict one. -/
abbrev Account := Fault → Failures → Prop

namespace Account

/-- **What is asked of an account.**  It starts with a refusal, nothing that is recorded later makes
it untrue, and it is the same account from further out. -/
structure Lawful (tells : Account) : Prop where
  /-- The fault is one that can be recorded. -/
  recordable {fault : Fault} {failures : Failures} :
    tells fault failures → fault.isConfiguration = false
  /-- Something was recorded. -/
  nonempty {fault : Fault} {failures : Failures} :
    tells fault failures → failures.isEmpty = false
  /-- A refusal is told of by the failure that it is recorded as. -/
  refused {fault : Fault} {key : String} :
    fault.key? = some key → tells fault (Failures.empty.record key fault.message)
  /-- A later failure leaves the account as it is. -/
  recorded {fault : Fault} {failures : Failures} (key message : String) :
    tells fault failures → tells fault (failures.record key message)
  /-- The fault of a part is told of by the failures filed under its position. -/
  placed {fault : Fault} {failures : Failures} (index : Nat) :
    tells fault failures → tells (fault.under (Path.position index))
      (Failures.empty.absorb (Path.position index) failures)

/-- The fault of a union is told of by the failures of its first alternative. -/
def OfUnions (tells : Account) : Prop :=
  ∀ {fault : Fault} {failures : Failures}, tells fault failures → ∀ message,
    tells (.validation Fault.unionCheck message)
      (Failures.empty.absorb (Path.alternative 0) failures)

/-- Failures that are filed later leave an account as it is. -/
theorem Lawful.absorbed {tells : Account} (hl : tells.Lawful) {fault : Fault} {failures : Failures}
    (h : tells fault failures) (segment : String) (part : Failures) :
    tells fault (failures.absorb segment part) :=
  Failures.absorb_induction (fun _ key message => hl.recorded key message) h segment part

end Account

/-! ## Runs side by side -/

/-- **A strict run and a tolerant one side by side**: both come to one value without a failure, or
the strict one stops with a fault and the failures of the tolerant one tell of it. -/
def Parallel (tells : Account) (strict tolerant : Run (Outcome α)) : Prop :=
  Run.Tracks (fun outcome outcome' => ∃ a, outcome = .success a ∧ outcome' = .success a)
    (fun fault outcome' => tells fault outcome'.failures) strict tolerant

/-- A strict and a tolerant way to evaluate that go side by side on every value. -/
def Evaluator.Parallel (tells : Account) (strict tolerant : Evaluator) : Prop :=
  ∀ value, Conform.Parallel tells (strict value) (tolerant value)

variable {tells : Account}

/-- A refused value is a fault of the strict run, of which the recorded failure tells. -/
theorem refuse_tracks (hl : tells.Lawful) {fault : Fault} (hf : fault.isConfiguration = false) :
    Run.Tracks (fun _ _ => False) (fun fault outcome' => tells fault outcome'.failures)
      (refuse ⟨.strict, scheduling⟩ fault : Run (Outcome α))
      (refuse ⟨.tolerant, scheduling⟩ fault : Run (Outcome β)) := by
  obtain ⟨key, hkey⟩ := Fault.exists_key hf
  rw [refuse_strict rfl, refuse_tolerant rfl hkey]
  exact hl.refused hkey

/-- Both modes refuse a value. -/
theorem refuse_parallel (hl : tells.Lawful) {fault : Fault} (hf : fault.isConfiguration = false) :
    Parallel tells (refuse ⟨.strict, scheduling⟩ fault : Run (Outcome α))
      (refuse ⟨.tolerant, scheduling⟩ fault) :=
  (refuse_tracks hl hf).mono (fun _ _ h => h.elim) fun _ _ h => h

/-! ## Pipelines -/

/-- A check that is failed stops a strict run and is recorded by a tolerant one. -/
theorem Progress.judge_tracks (hl : tells.Lawful) (progress : Progress α)
    (h : progress.failures = .empty) (name message : String) (passed : Bool) :
    Run.Tracks (fun reached reached' => reached = reached' ∧ reached.failures = .empty)
      (fun fault reached' => tells fault reached'.failures)
      (progress.judge .strict name message passed)
      (progress.judge .tolerant name message passed) := by
  unfold judge
  cases passed with
  | true => exact Run.tracks_pure ⟨rfl, h⟩
  | false =>
    have htold : tells (.validation name message) (progress.failures.record name message) := by
      rw [h]
      exact hl.refused rfl
    exact Run.Ends.tracks htold rfl

/-- A tolerant run goes on telling of a fault. -/
theorem Progress.judge_keeps (hl : tells.Lawful) {fault : Fault} {progress : Progress α}
    (h : tells fault progress.failures) (name message : String) (passed : Bool) :
    (progress.judge .tolerant name message passed).Ends
      (fun reached => tells fault reached.failures) fun _ => True := by
  unfold judge
  cases passed with
  | true => exact h
  | false => exact hl.recorded name message h

namespace Operation

/-- One operation is carried out alike while nothing was recorded. -/
theorem advance_tracks (hl : tells.Lawful) (kind : String) (operation : Operation α)
    (progress : Progress α) (h : progress.failures = .empty) :
    Run.Tracks (fun reached reached' => reached = reached' ∧ reached.failures = .empty)
      (fun fault reached' => tells fault reached'.failures)
      (operation.advance ⟨.strict, scheduling⟩ kind progress)
      (operation.advance ⟨.tolerant, scheduling⟩ kind progress) := by
  cases operation with
  | check c => exact Progress.judge_tracks hl progress h c.name c.message _
  | asyncCheck c =>
    cases scheduling with
    | sync => exact Run.tracks_of_fail
    | async => exact Progress.judge_tracks hl progress h c.name c.message _
  | transformation t =>
    simp only [advance, Run.tracks_call_bind]
    cases t.apply progress.value with
    | answer a => exact Run.tracks_pure ⟨rfl, h⟩
    | panicked => exact Run.tracks_of_panic

/-- Each operation of a tolerant run goes on telling of a fault. -/
theorem advance_keeps (hl : tells.Lawful) (kind : String) (operation : Operation α) {fault : Fault}
    {progress : Progress α} (h : tells fault progress.failures) :
    (operation.advance ⟨.tolerant, scheduling⟩ kind progress).Ends
      (fun reached => tells fault reached.failures) fun _ => True := by
  cases operation with
  | check c => exact Progress.judge_keeps hl h c.name c.message _
  | asyncCheck c =>
    cases scheduling with
    | sync => trivial
    | async => exact Progress.judge_keeps hl h c.name c.message _
  | transformation t =>
    simp only [advance, Run.ends_call_bind]
    cases t.apply progress.value with
    | answer a => exact h
    | panicked => trivial

end Operation

/-- **Both modes run a pipeline side by side.** -/
theorem Pipeline.run_parallel (hl : tells.Lawful) (kind : String) (pipeline : Pipeline α) (a : α) :
    Parallel tells (pipeline.run ⟨.strict, scheduling⟩ kind a)
      (pipeline.run ⟨.tolerant, scheduling⟩ kind a) := by
  have h : Run.Tracks (fun reached reached' => reached = reached' ∧ reached.failures = .empty)
      (fun fault reached' => tells fault reached'.failures)
      (pipeline.resume ⟨.strict, scheduling⟩ kind ⟨a, .empty⟩)
      (pipeline.resume ⟨.tolerant, scheduling⟩ kind ⟨a, .empty⟩) := by
    refine Run.tracks_foldlM (fun reached reached' operation h => ?_)
      (fun fault reached' operation h => ?_) _ _ _ ⟨rfl, rfl⟩
    · obtain ⟨rfl, hf⟩ := h
      exact operation.advance_tracks hl kind reached hf
    · exact operation.advance_keeps hl kind h
  refine Run.tracks_map.mpr (h.mono (fun reached reached' hr => ?_) fun fault reached' hr => hr)
  obtain ⟨rfl, hf⟩ := hr
  exact ⟨reached.value, by simp [Progress.outcome, Outcome.success, hf]⟩

/-- The last operations go on telling of a fault. -/
theorem Core.finish_keeps (hl : tells.Lawful) {core : Core α} {strategy : Strategy} {kind : String}
    {fault : Fault} {outcome : Outcome α} (h : tells fault outcome.failures) :
    (core.finish strategy kind outcome).Ends (fun finished => tells fault finished.failures)
      fun _ => True := by
  unfold finish
  cases outcome.value with
  | none => exact h
  | some a => exact Run.Ends.bind (Run.ends_trivial _) fun own _ => hl.absorbed h "" own.failures

/-- Both modes run the last operations of a validator side by side. -/
theorem Core.finish_parallel (hl : tells.Lawful) (core : Core α) (kind : String) (a : α) :
    Parallel tells (core.finish ⟨.strict, scheduling⟩ kind (.success a))
      (core.finish ⟨.tolerant, scheduling⟩ kind (.success a)) := by
  refine Run.Tracks.bind (core.pipeline.run_parallel hl kind a) (fun own own' h => ?_)
    fun fault own' h => ?_
  · obtain ⟨b, rfl, rfl⟩ := h
    exact Run.tracks_pure ⟨b, rfl, rfl⟩
  · -- nothing was recorded before, so the failures are those of the operations
    have htold : tells fault (Failures.empty.absorb "" own'.failures) := by
      rw [Failures.absorb_root]
      exact h
    exact htold

/-- What is finished after two runs that go side by side. -/
theorem Parallel.finish (hl : tells.Lawful) {strict tolerant : Run (Outcome α)}
    (h : Parallel tells strict tolerant) (core : Core α) (kind : String) :
    Parallel tells (strict >>= core.finish ⟨.strict, scheduling⟩ kind)
      (tolerant >>= core.finish ⟨.tolerant, scheduling⟩ kind) := by
  refine Run.Tracks.bind h (fun outcome outcome' ho => ?_) fun fault outcome' ho => ?_
  · obtain ⟨a, rfl, rfl⟩ := ho
    exact core.finish_parallel hl kind a
  · exact Core.finish_keeps hl ho

/-- Changing the value keeps two runs side by side. -/
theorem Parallel.map {strict tolerant : Run (Outcome α)} (h : Parallel tells strict tolerant)
    (f : α → β) : Parallel tells (Outcome.map f <$> strict) (Outcome.map f <$> tolerant) := by
  refine Run.tracks_map.mpr (Run.Tracks.mono h (fun outcome outcome' ho => ?_) fun _ _ h => h)
  obtain ⟨a, rfl, rfl⟩ := ho
  exact ⟨f a, rfl, rfl⟩

/-- From the position of a part, two runs go side by side as the part does. -/
theorem Evaluator.Parallel.under (hl : tells.Lawful) {part part' : Evaluator}
    (h : Evaluator.Parallel tells part part') (index : Nat) (value : Value) :
    Run.Tracks (fun outcome outcome' => ∃ a, outcome = .success a ∧ outcome' = .success a)
      (fun fault outcome' =>
        tells fault (Failures.empty.absorb (Path.position index) outcome'.failures))
      ((part value).under (Path.position index)) ((part' value).under (Path.position index)) :=
  Run.Tracks.under (h value) (Path.position index) fun _ _ htold => hl.placed index htold

/-! ## Leaves, lists and nullables -/

/-- Both modes evaluate a leaf side by side. -/
theorem Leaf.evaluate_parallel (hl : tells.Lawful) (type : LeafType) (core : Core type.Carrier) :
    Evaluator.Parallel tells (Leaf.evaluate ⟨.strict, scheduling⟩ type core)
      (Leaf.evaluate ⟨.tolerant, scheduling⟩ type core) := by
  intro value
  unfold Leaf.evaluate
  cases type.read? value with
  | none => exact refuse_parallel hl rfl
  | some a => exact (core.pipeline.run_parallel hl type.name a).map type.toValue

namespace Items

/-- What items without failures produced. -/
theorem produced_success : ∀ values : List Value, produced (values.map .success) = some values
  | [] => rfl
  | a :: rest => by
    rw [List.map_cons, produced_cons, produced_success rest]
    rfl

/-- Items without failures add none. -/
theorem absorb_success (failures : Failures) :
    ∀ (values : List Value) (position : Nat),
      absorb failures position (values.map .success) = failures
  | [], _ => rfl
  | _ :: rest, position => absorb_success failures rest (position + 1)

/-- The failures of items go on telling of a fault. -/
theorem absorb_keeps (hl : tells.Lawful) {fault : Fault} :
    ∀ {failures : Failures}, tells fault failures →
      ∀ (position : Nat) (found : List (Outcome Value)),
        tells fault (absorb failures position found)
  | _, h, _, [] => h
  | _, h, position, outcome :: later =>
    absorb_keeps hl (hl.absorbed h (Path.position position) outcome.failures) (position + 1) later

/-- Both modes evaluate items alike, up to the first one that fails. -/
theorem outcomes_tracks (hl : tells.Lawful) {element element' : Evaluator}
    (he : Evaluator.Parallel tells element element') :
    ∀ (position : Nat) (items : List Value),
      Run.Tracks
        (fun found found' => ∃ values : List Value,
          found = values.map .success ∧ found' = values.map .success)
        (fun fault found' => tells fault (absorb .empty position found'))
        (outcomes element position items) (outcomes element' position items)
  | _, [] => Run.tracks_pure ⟨[], rfl, rfl⟩
  | position, item :: rest => by
    refine Run.Tracks.bind (he.under hl position item) (fun outcome outcome' ho => ?_)
      fun fault outcome' ho => ?_
    · obtain ⟨a, rfl, rfl⟩ := ho
      refine Run.Tracks.bind (outcomes_tracks hl he (position + 1) rest)
        (fun later later' hlater => ?_) fun fault later' hlater => hlater
      obtain ⟨values, rfl, rfl⟩ := hlater
      exact Run.tracks_pure ⟨a :: values, rfl, rfl⟩
    · exact Run.Ends.bind (Run.ends_trivial _) fun later _ =>
        absorb_keeps hl ho (position + 1) later

/-- **Both modes evaluate a list side by side.**  If its operations fail a check, the tolerant run
goes on to the items, and what was recorded stays. -/
theorem evaluate_parallel (hl : tells.Lawful) {element element' : Evaluator}
    (he : Evaluator.Parallel tells element element') (core : Core (List Value)) :
    Evaluator.Parallel tells (evaluate ⟨.strict, scheduling⟩ element core)
      (evaluate ⟨.tolerant, scheduling⟩ element' core) := by
  intro value
  unfold evaluate
  cases value.items? with
  | none => exact refuse_parallel hl rfl
  | some items =>
    refine Run.Tracks.bind (core.pipeline.run_parallel hl "list" items) (fun own own' ho => ?_)
      fun fault own' ho => ?_
    · obtain ⟨changed, rfl, rfl⟩ := ho
      refine Run.Tracks.bind (outcomes_tracks hl he 0 changed) (fun found found' hf => ?_)
        fun fault found' hf => hf
      obtain ⟨values, rfl, rfl⟩ := hf
      refine Run.tracks_pure ⟨.arr values, ?_, ?_⟩ <;>
        simp [produced_success, absorb_success, Outcome.success]
    · exact Run.Ends.bind (Run.ends_trivial _) fun found' _ => absorb_keeps hl ho 0 found'

end Items

/-- Both modes evaluate a nullable side by side. -/
theorem Optional.evaluate_parallel (hl : tells.Lawful) {inner inner' : Evaluator}
    (hi : Evaluator.Parallel tells inner inner') (default : Option Value) (core : Core Value) :
    Evaluator.Parallel tells (Optional.evaluate ⟨.strict, scheduling⟩ inner default core)
      (Optional.evaluate ⟨.tolerant, scheduling⟩ inner' default core) := by
  intro value
  unfold Optional.evaluate
  split
  · exact Run.tracks_pure ⟨_, rfl, rfl⟩
  · exact (hi _).finish hl core "nullable"

/-! ## Tuples -/

namespace Positions

variable {arity : Nat}

/-- Both modes gather alike from leading positions, up to the first one that fails. -/
theorem gather_tracks (hl : tells.Lawful) {elements elements' : Fin arity → Evaluator}
    (he : ∀ i, Evaluator.Parallel tells (elements i) (elements' i)) (items : Vector Value arity) :
    ∀ (k : Nat) (hk : k ≤ arity),
      Run.Tracks
        (fun gathered gathered' => ∃ values : Vector Value k,
          gathered = ⟨some values, .empty⟩ ∧ gathered' = ⟨some values, .empty⟩)
        (fun fault gathered' => tells fault gathered'.failures)
        (gather elements items k hk) (gather elements' items k hk)
  | 0, _ => Run.tracks_pure ⟨#v[], rfl, rfl⟩
  | k + 1, hk => by
    refine Run.Tracks.bind (gather_tracks hl he items k (Nat.le_of_succ_le hk))
      (fun before before' hb => ?_) fun fault before' hb => ?_
    · obtain ⟨values, rfl, rfl⟩ := hb
      refine Run.Tracks.bind ((he ⟨k, hk⟩).under hl k items[k]) (fun outcome outcome' ho => ?_)
        fun fault outcome' ho => ho
      obtain ⟨a, rfl, rfl⟩ := ho
      exact Run.tracks_pure ⟨values.push a, rfl, rfl⟩
    · exact Run.Ends.bind (Run.ends_trivial _) fun outcome' _ =>
        hl.absorbed hb (Path.position k) outcome'.failures

/-- Both modes evaluate positions side by side. -/
theorem evaluate_parallel (hl : tells.Lawful) {elements elements' : Fin arity → Evaluator}
    (he : ∀ i, Evaluator.Parallel tells (elements i) (elements' i)) (items : List Value) :
    Parallel tells (evaluate ⟨.strict, scheduling⟩ elements items)
      (evaluate ⟨.tolerant, scheduling⟩ elements' items) := by
  unfold evaluate
  cases Value.exactly? arity items with
  | none => exact refuse_parallel hl rfl
  | some items =>
    refine Run.Tracks.bind (gather_tracks hl he items arity (Nat.le_refl arity))
      (fun gathered gathered' hg => ?_) fun fault gathered' hg => hg
    obtain ⟨values, rfl, rfl⟩ := hg
    exact Run.tracks_pure ⟨values, rfl, rfl⟩

/-- **Both modes evaluate a tuple side by side.** -/
theorem evaluateArray_parallel (hl : tells.Lawful) {elements elements' : Fin arity → Evaluator}
    (he : ∀ i, Evaluator.Parallel tells (elements i) (elements' i))
    (core : Core (Vector Value arity)) :
    Evaluator.Parallel tells (evaluateArray ⟨.strict, scheduling⟩ elements core)
      (evaluateArray ⟨.tolerant, scheduling⟩ elements' core) := by
  intro value
  unfold evaluateArray
  cases value.items? with
  | none => exact refuse_parallel hl rfl
  | some items =>
    have h : Parallel tells
        (evaluate ⟨.strict, scheduling⟩ elements items >>=
          core.finish ⟨.strict, scheduling⟩ "tuple")
        (evaluate ⟨.tolerant, scheduling⟩ elements' items >>=
          core.finish ⟨.tolerant, scheduling⟩ "tuple") :=
      (evaluate_parallel hl he items).finish hl core "tuple"
    simpa only [map_eq_pure_bind, bind_assoc] using h.map fun values => Value.arr values.toList

end Positions

/-! ## Unions -/

namespace Choice

/-- Both modes find the same match, or none, and what was known of the failures of the tolerant run
and survives a further one is known of those that are left.

**Proof sketch.** Induction on the alternatives.  Where the first one matches, it produces the same
value in both modes.  Where it does not, the strict run files its fault and the tolerant run what it
recorded, and both go on to the next one.  A fault of the tolerant run is a configuration fault and
ends the attempts. -/
theorem tryAll_tracks (hl : tells.Lawful) {awaits : Bool} (value : Value) {known : Failures → Prop}
    (hrecord : ∀ failures key message, known failures → known (failures.record key message)) :
    ∀ {count : Nat} {strict tolerant : Fin count → Evaluator},
      (∀ i, Evaluator.Parallel tells (strict i) (tolerant i) ∧
        Evaluator.Keeps ⟨.tolerant, scheduling⟩ awaits (tolerant i)) →
      ∀ (index : Nat) (failures failures' : Failures), known failures' →
        Run.Tracks
          (fun verdict verdict' =>
            (∃ produced, verdict = .matched produced ∧ verdict' = .matched produced) ∨
              ∃ left left', verdict = .exhausted left ∧ verdict' = .exhausted left' ∧ known left')
          (fun _ _ => False)
          (tryAll value index (List.ofFn strict) failures)
          (tryAll value index (List.ofFn tolerant) failures')
  | 0, _, _, _, _, failures, failures', hknown =>
    Run.tracks_pure (Or.inr ⟨failures, failures', rfl, rfl, hknown⟩)
  | count + 1, strict, tolerant, ha, index, failures, failures', hknown => by
    rw [List.ofFn_succ, List.ofFn_succ]
    obtain ⟨hc, hk⟩ := ha 0
    have hrest := tryAll_tracks hl value hrecord (fun i => ha (Fin.succ i)) (index + 1)
    refine Run.Tracks.attempt_bind (hc value) (hk value) (fun outcome outcome' ho => ?_)
      (fun fault outcome' ho => ?_) fun fault hf run => ?_
    · obtain ⟨a, rfl, rfl⟩ := ho
      exact Run.tracks_pure (Or.inl ⟨a, rfl, rfl⟩)
    · have hu : (fault.under (Path.alternative index)).isConfiguration = false := by
        rw [Fault.isConfiguration_under, hl.recordable ho]
      obtain ⟨key, hkey⟩ := Fault.exists_key hu
      have hs : outcome'.isSuccess = false := hl.nonempty ho
      simp only [hkey, hs]
      exact hrest _ _ (Failures.absorb_induction hrecord hknown _ _)
    · obtain ⟨kind, rfl⟩ := Fault.eq_configuration (hf.isConfiguration rfl)
      exact Run.tracks_of_fail

/-- Where the first alternative fails, what its failures tell of the fault of the union is known of
the failures that are left when no alternative matched. -/
theorem tryAll_tracks_first (hl : tells.Lawful) (hunions : tells.OfUnions) {awaits : Bool}
    (value : Value) {count : Nat} {strict tolerant : Fin (count + 1) → Evaluator}
    (ha : ∀ i, Evaluator.Parallel tells (strict i) (tolerant i) ∧
      Evaluator.Keeps ⟨.tolerant, scheduling⟩ awaits (tolerant i)) :
    Run.Tracks
      (fun verdict verdict' =>
        (∃ produced, verdict = .matched produced ∧ verdict' = .matched produced) ∨
          ∃ left left', verdict = .exhausted left ∧ verdict' = .exhausted left' ∧
            ∀ message, tells (.validation Fault.unionCheck message) left')
      (fun _ _ => False)
      (tryAll value 0 (List.ofFn strict) .empty) (tryAll value 0 (List.ofFn tolerant) .empty) := by
  rw [List.ofFn_succ, List.ofFn_succ]
  obtain ⟨hc, hk⟩ := ha 0
  refine Run.Tracks.attempt_bind (hc value) (hk value) (fun outcome outcome' ho => ?_)
    (fun fault outcome' ho => ?_) fun fault hf run => ?_
  · obtain ⟨a, rfl, rfl⟩ := ho
    exact Run.tracks_pure (Or.inl ⟨a, rfl, rfl⟩)
  · have hu : (fault.under (Path.alternative 0)).isConfiguration = false := by
      rw [Fault.isConfiguration_under, hl.recordable ho]
    obtain ⟨key, hkey⟩ := Fault.exists_key hu
    have hs : outcome'.isSuccess = false := hl.nonempty ho
    simp only [hkey, hs]
    exact tryAll_tracks hl value (fun failures key message h text => hl.recorded key message (h text))
      (fun i => ha (Fin.succ i)) 1 _ _ (hunions ho)
  · obtain ⟨kind, rfl⟩ := Fault.eq_configuration (hf.isConfiguration rfl)
    exact Run.tracks_of_fail

/-- **Both modes evaluate a union side by side.** -/
theorem evaluate_parallel (hl : tells.Lawful) (hunions : tells.OfUnions) {count : Nat}
    {strict tolerant : Fin count → Evaluator} {awaits : Bool}
    (ha : ∀ i, Evaluator.Parallel tells (strict i) (tolerant i) ∧
      Evaluator.Keeps ⟨.tolerant, scheduling⟩ awaits (tolerant i)) (core : Core Value) :
    Evaluator.Parallel tells (evaluate ⟨.strict, scheduling⟩ (List.ofFn strict) core)
      (evaluate ⟨.tolerant, scheduling⟩ (List.ofFn tolerant) core) := by
  intro value
  cases count with
  | zero =>
    have hrefused (fault : Fault) (hf : fault.isConfiguration = false) :
        Parallel tells (refuse ⟨.strict, scheduling⟩ fault : Run (Outcome Value))
          (refuse ⟨.tolerant, scheduling⟩ fault) := refuse_parallel hl hf
    exact hrefused _ rfl
  | succ count =>
    refine Run.Tracks.bind (tryAll_tracks_first hl hunions value ha) (fun verdict verdict' hv => ?_)
      fun _ _ h => h.elim
    obtain ⟨produced, rfl, rfl⟩ | ⟨left, left', rfl, rfl, htold⟩ := hv
    · exact core.pipeline.run_parallel hl "union" produced
    · simp only [List.length_ofFn, exhausted, if_neg (Nat.succ_ne_zero count)]
      exact Run.Ends.tracks (htold _) rfl

end Choice

/-! ## Pipes -/

namespace Stages

/-- A tolerant run that recorded a failure in the first stage halts with it. -/
theorem cross_keeps (hl : tells.Lawful) {strategy : Strategy} {source target : String}
    {conversion : Conversion} {fault : Fault} {first : Outcome Value}
    (h : tells fault first.failures) :
    (cross strategy source target conversion first).Ends
      (fun crossing => ∃ outcome, crossing = .halted outcome ∧ tells fault outcome.failures)
      fun _ => True := by
  have hs : first.isSuccess = false := hl.nonempty h
  unfold cross
  cases first.value with
  | none => exact ⟨first, rfl, h⟩
  | some produced =>
    simp only [hs, Bool.false_eq_true, if_false]
    exact ⟨_, rfl, h⟩

/-- Both modes convert alike what the first stage produced. -/
theorem cross_tracks (hl : tells.Lawful) (source target : String) (conversion : Conversion)
    (produced : Value) :
    Run.Tracks
      (fun crossing crossing' =>
        ∃ value, crossing = .converted value ∧ crossing' = .converted value)
      (fun fault crossing' => ∃ outcome, crossing' = .halted outcome ∧ tells fault outcome.failures)
      (cross ⟨.strict, scheduling⟩ source target conversion (.success produced))
      (cross ⟨.tolerant, scheduling⟩ source target conversion (.success produced)) := by
  simp only [cross, Outcome.success, Outcome.isSuccess, Failures.isEmpty_empty, if_true,
    Run.tracks_call_bind]
  cases conversion.convert produced with
  | ok value => exact Run.tracks_pure ⟨value, rfl, rfl⟩
  | error reason =>
    exact Run.Tracks.bind (refuse_tracks hl rfl) (fun _ _ h => h.elim)
      fun fault refused h => ⟨_, rfl, h⟩

/-- **Both modes evaluate a pipe side by side.** -/
theorem evaluate_parallel (hl : tells.Lawful) {input input' output output' : Evaluator}
    (hi : Evaluator.Parallel tells input input') (ho : Evaluator.Parallel tells output output')
    (source target : String) (conversion : Conversion) (core : Core Value) :
    Evaluator.Parallel tells
      (evaluate ⟨.strict, scheduling⟩ source target input output conversion core)
      (evaluate ⟨.tolerant, scheduling⟩ source target input' output' conversion core) := by
  intro value
  refine Run.Tracks.bind (hi value) (fun first first' hf => ?_) fun fault first' hf => ?_
  · obtain ⟨produced, rfl, rfl⟩ := hf
    refine Run.Tracks.bind (cross_tracks hl source target conversion produced)
      (fun crossing crossing' hx => ?_) fun fault crossing' hx => ?_
    · obtain ⟨converted, rfl, rfl⟩ := hx
      exact (ho converted).finish hl core "pipe"
    · obtain ⟨outcome, rfl, htold⟩ := hx
      exact htold
  · refine Run.Ends.bind (cross_keeps hl hf) fun crossing' hx => ?_
    obtain ⟨outcome, rfl, htold⟩ := hx
    exact htold

end Stages

/-! ## All forms -/

namespace Validator

/-- Whether a validator is a union. -/
def isUnion : Validator → Bool
  | union .. => true
  | _ => false

/-- A validator no part of which, at any depth, is a union. -/
def UnionFree (validator : Validator) : Prop := validator.Throughout fun part => part.isUnion = false

/-- **Both modes evaluate a composed validator side by side**, if the account covers the unions that
there are.

**Proof sketch.** Induction on the form: the parts go side by side, and what is asked of the account
carries that over to the whole. -/
theorem evaluate_parallel (hl : tells.Lawful) {validator : Validator} (h : validator.Composed)
    (hunions : tells.OfUnions ∨ validator.UnionFree) (scheduling : Scheduling) :
    Evaluator.Parallel tells (validator.evaluate ⟨.strict, scheduling⟩)
      (validator.evaluate ⟨.tolerant, scheduling⟩) := by
  induction validator with
  | leaf type core => exact Leaf.evaluate_parallel hl type core
  | list element core ih => exact Items.evaluate_parallel hl (ih h (hunions.imp_right And.right)) core
  | nullable inner default core ih =>
    exact Optional.evaluate_parallel hl (ih h (hunions.imp_right And.right)) default core
  | tuple arity elements core ih =>
    exact Positions.evaluateArray_parallel hl
      (fun i => ih i (h i) (hunions.imp_right fun hfree => hfree.2 i)) core
  | union count alternatives core ih =>
    have htells : tells.OfUnions := hunions.resolve_right fun hfree => nomatch hfree.1
    -- what alternatives have to wait for does not matter here
    have hk (i : Fin count) : Evaluator.Keeps ⟨.tolerant, scheduling⟩ true
        ((alternatives i).evaluate ⟨.tolerant, scheduling⟩) :=
      (evaluate_ends (h i) _).mono fun _ => rfl
    exact Choice.evaluate_parallel hl htells (fun i => ⟨ih i (h i) (Or.inl htells), hk i⟩) core
  | pipe input output conversion core ihi iho =>
    exact Stages.evaluate_parallel hl (ihi h.1 (hunions.imp_right fun hfree => hfree.2.1))
      (iho h.2 (hunions.imp_right fun hfree => hfree.2.2)) input.kind output.kind conversion core
  | custom behaviour core => exact h.elim

end Validator

end Conform
