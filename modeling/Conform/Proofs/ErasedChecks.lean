import Conform.Proofs.OutcomeInvariant
import Conform.Proofs.Refitting

set_option autoImplicit false

/-!
# Validators without their checks

A check says whether a value is accepted; it has no say in what is made of the value.  Here every
check of a validator is erased, at every level, while the transformations stay in their order.  A
tolerant run goes on after a failed check as if there had been none, so it makes of a value what the
run without checks makes of it, or neither makes anything of it.

That holds as long as nothing hangs on the failures themselves.  A union drops an alternative that
recorded one, and a pipe halts on one, so neither may occur.

## Main definitions

* `Conform.Validator.unchecked` — the validator with its transformations alone.
* `Conform.Validator.Straight` — no union and no pipe occurs in a validator.
* `Conform.Run.Echoes` — two runs come to related results, or both panic.
* `Conform.Outcome.SameValue` — two outcomes with one value, the second without a failure beside it.

## Main results

* `Conform.Pipeline.run_echoes` — the operations of a validator.
* `Conform.Validator.evaluate_echoes_unchecked` — every composed validator without unions and pipes.
* `Conform.Validator.failed_checks_keep_value` — what callers may rely on.
-/

namespace Conform

variable {α β γ δ : Type} {scheduling : Scheduling}

/-! ## Erasing checks -/

/-- Whether an operation replaces the value. -/
def Operation.isTransformation : Operation α → Bool
  | .transformation _ => true
  | _ => false

/-- The transformations of a pipeline, in their order. -/
def Pipeline.unchecked (pipeline : Pipeline α) : Pipeline α :=
  ⟨pipeline.operations.filter Operation.isTransformation⟩

/-- A pipeline without its checks has nothing to be awaited. -/
theorem Pipeline.isAsync_unchecked (pipeline : Pipeline α) : pipeline.unchecked.isAsync = false := by
  simp only [unchecked, isAsync, List.any_eq_false, List.mem_filter, and_imp]
  intro operation _ ht
  cases operation with
  | transformation t => exact Bool.false_ne_true
  | _ => exact (Bool.false_ne_true ht).elim

namespace Validator

/-- **The validator without its checks**: at every level the transformations are left, in their
order. -/
def unchecked (validator : Validator) : Validator :=
  validator.refit (fun _ => Pipeline.unchecked) id

/-- Whether a validator is neither a union nor a pipe. -/
def isStraight : Validator → Bool
  | union .. | pipe .. => false
  | _ => true

/-- **A straight validator**: no part of it, at any depth, is a union or a pipe. -/
def Straight (validator : Validator) : Prop :=
  validator.Throughout fun part => part.isStraight = true

theorem composed_unchecked {validator : Validator} (h : validator.Composed) :
    validator.unchecked.Composed :=
  composed_refit h

/-- **Without checks there is nothing to be awaited**, at any level. -/
theorem requiresAsync_unchecked {validator : Validator} (h : validator.Composed) :
    validator.unchecked.requiresAsync = false :=
  requiresAsync_refit_eq_false Pipeline.isAsync_unchecked h

end Validator

/-! ## Runs that come to the same end -/

/-- **Two runs come to the same end**: to results that stand in a relation, or both to a panic. -/
def Run.Echoes (same : α → β → Prop) (run : Run α) (echo : Run β) : Prop :=
  (∃ a b, run.result = .ok a ∧ echo.result = .ok b ∧ same a b) ∨
    run.result = .error .panic ∧ echo.result = .error .panic

namespace Run

variable {same : α → β → Prop} {same' : γ → δ → Prop} {run : Run α} {echo : Run β}

theorem echoes_pure {a : α} {b : β} (h : same a b) : Echoes same (pure a) (pure b) :=
  Or.inl ⟨a, b, rfl, rfl, h⟩

theorem echoes_panic : Echoes same panic panic := Or.inr ⟨rfl, rfl⟩

/-- What follows two runs that come to the same end comes to the same end. -/
theorem Echoes.bind {next : α → Run γ} {next' : β → Run δ} (h : Echoes same run echo)
    (hn : ∀ a b, same a b → Echoes same' (next a) (next' b)) :
    Echoes same' (run >>= next) (echo >>= next') := by
  unfold Echoes
  obtain ⟨a, b, ha, hb, hab⟩ | ⟨hr, he⟩ := h
  · rw [bind_eq, bind_eq, ha, hb]
    exact hn a b hab
  · rw [bind_eq, bind_eq, hr, he]
    exact Or.inr ⟨rfl, rfl⟩

/-- Something that comes to a result may go before the first run alone. -/
theorem Echoes.after {first : Run γ} {next : γ → Run α} {c : γ} (hf : first.result = .ok c)
    (h : Echoes same (next c) echo) : Echoes same (first >>= next) echo := by
  unfold Echoes
  rw [bind_eq, hf]
  exact h

/-- The same call before two runs. -/
theorem echoes_call_bind {role : Role} {origin : Origin} {name : String} {subject : Value}
    {next : Unit → Run α} {next' : Unit → Run β} :
    Echoes same (call role origin name subject >>= next)
        (call role origin name subject >>= next') ↔
      Echoes same (next ()) (next' ()) := Iff.rfl

/-- Changing the results of two runs. -/
theorem Echoes.map {f : α → γ} {f' : β → δ} (h : Echoes same run echo)
    (hf : ∀ a b, same a b → same' (f a) (f' b)) : Echoes same' (f <$> run) (f' <$> echo) := by
  rw [map_eq_pure_bind, map_eq_pure_bind]
  exact h.bind fun a b hab => echoes_pure (hf a b hab)

/-- From further out two runs come to the ends that they come to: neither is a fault. -/
theorem Echoes.under (h : Echoes same run echo) (segment : String) :
    Echoes same (run.under segment) (echo.under segment) := by
  unfold Echoes Run.under
  obtain ⟨a, b, ha, hb, hab⟩ | ⟨hr, he⟩ := h
  · rw [ha, hb]
    exact Or.inl ⟨a, b, rfl, rfl, hab⟩
  · rw [hr, he]
    exact Or.inr ⟨rfl, rfl⟩

theorem Echoes.panic_iff (h : Echoes same run echo) :
    run.result = .error .panic ↔ echo.result = .error .panic := by
  obtain ⟨a, b, ha, hb, -⟩ | ⟨hr, he⟩ := h
  · rw [ha, hb]
    exact ⟨nofun, nofun⟩
  · exact iff_of_true hr he

end Run

/-! ## Outcomes with one value -/

/-- **Two outcomes with one value**, or none, the second of which has no failure beside a value. -/
structure Outcome.SameValue (outcome bare : Outcome α) : Prop where
  /-- The values are one. -/
  value_eq : outcome.value = bare.value
  /-- Nothing was recorded beside the second one. -/
  clean {a : α} : bare.value = some a → bare.isSuccess = true

namespace Outcome

variable {outcome bare : Outcome α}

/-- Without a value nothing is asked of the failures. -/
theorem sameValue_of_none (h : outcome.value = none) (hb : bare.value = none) :
    outcome.SameValue bare :=
  ⟨h.trans hb.symm, fun hv => nomatch hb.symm.trans hv⟩

/-- A value beside another outcome with it. -/
theorem sameValue_success {a : α} (h : outcome.value = some a) : outcome.SameValue (success a) :=
  ⟨h, fun _ => rfl⟩

/-- Changing the value of two outcomes. -/
theorem SameValue.map (h : outcome.SameValue bare) (f : α → β) :
    (outcome.map f).SameValue (bare.map f) where
  value_eq := congrArg (Option.map f) h.value_eq
  clean hv := by
    obtain ⟨a, ha, -⟩ := Option.map_eq_some_iff.mp hv
    exact h.clean ha

end Outcome

/-- Two ways to evaluate that come to outcomes with one value, or both to a panic. -/
def Evaluator.Echoes (part bare : Evaluator) : Prop :=
  ∀ value, Run.Echoes Outcome.SameValue (part value) (bare value)

/-- A value that is refused is refused with and without checks. -/
theorem refuse_echoes {fault : Fault} (hf : fault.isConfiguration = false) :
    Run.Echoes Outcome.SameValue (refuse ⟨.tolerant, scheduling⟩ fault : Run (Outcome α))
      (refuse ⟨.tolerant, scheduling⟩ fault) := by
  obtain ⟨key, hkey⟩ := Fault.exists_key hf
  rw [refuse_tolerant rfl hkey]
  exact Run.echoes_pure (Outcome.sameValue_of_none rfl rfl)

/-! ## Pipelines -/

/-- A check of a tolerant run leaves the value as it is, whatever it finds. -/
theorem Progress.judge_tolerant (progress : Progress α) (name message : String) (passed : Bool) :
    ∃ failures, (progress.judge .tolerant name message passed).result
      = .ok ⟨progress.value, failures⟩ := by
  cases passed with
  | true => exact ⟨progress.failures, rfl⟩
  | false => exact ⟨progress.failures.record name message, rfl⟩

/-- A check that may be carried out leaves the value of a tolerant run as it is. -/
theorem Operation.advance_tolerant_check {operation : Operation α}
    (hc : operation.isTransformation = false) (hp : scheduling.Permits operation.isAsync)
    (kind : String) (progress : Progress α) :
    ∃ failures, (operation.advance ⟨.tolerant, scheduling⟩ kind progress).result
      = .ok ⟨progress.value, failures⟩ := by
  cases operation with
  | check c => exact progress.judge_tolerant c.name c.message _
  | asyncCheck c =>
    cases scheduling with
    | sync => exact nomatch hp rfl
    | async => exact progress.judge_tolerant c.name c.message _
  | transformation t => exact nomatch hc

/-- How far two runs of operations have come with one value, the second one without a failure. -/
structure Progress.SameValue (progress bare : Progress α) : Prop where
  /-- The values are one. -/
  value_eq : progress.value = bare.value
  /-- The second run recorded nothing. -/
  clean : bare.failures = .empty

/-- A transformation does the same to one value. -/
theorem Operation.advance_echoes {operation : Operation α}
    (ht : operation.isTransformation = true) (kind : String) {progress bare : Progress α}
    (h : progress.SameValue bare) :
    Run.Echoes Progress.SameValue (operation.advance ⟨.tolerant, scheduling⟩ kind progress)
      (operation.advance ⟨.tolerant, scheduling⟩ kind bare) := by
  cases operation with
  | transformation t =>
    simp only [advance, h.value_eq, Run.echoes_call_bind]
    cases t.apply bare.value with
    | answer a => exact Run.echoes_pure ⟨rfl, h.clean⟩
    | panicked => exact Run.echoes_panic
  | _ => exact (Bool.false_ne_true ht).elim

namespace Pipeline

/-- **What is made of a value is made by the transformations alone.**

**Proof sketch.** Induction on the operations.  A check leaves the value as it is, so the run without
it has come as far; a transformation is carried out by both runs. -/
theorem resume_echoes (kind : String) (pipeline : Pipeline α)
    (hp : scheduling.Permits pipeline.isAsync) {progress bare : Progress α}
    (h : progress.SameValue bare) :
    Run.Echoes Progress.SameValue (pipeline.resume ⟨.tolerant, scheduling⟩ kind progress)
      (pipeline.unchecked.resume ⟨.tolerant, scheduling⟩ kind bare) := by
  obtain ⟨operations⟩ := pipeline
  simp only [resume, unchecked, isAsync] at hp ⊢
  induction operations generalizing progress bare with
  | nil => exact Run.echoes_pure h
  | cons operation rest ih =>
    rw [List.any_cons, Scheduling.permits_or_iff] at hp
    obtain ⟨hfirst, hrest⟩ := hp
    rw [List.foldlM_cons]
    cases ht : operation.isTransformation with
    | true =>
      rw [List.filter_cons_of_pos ht, List.foldlM_cons]
      exact (operation.advance_echoes ht kind h).bind fun _ _ hreached => ih hreached hrest
    | false =>
      rw [List.filter_cons_of_neg (by simp [ht])]
      obtain ⟨failures, hf⟩ := operation.advance_tolerant_check ht hfirst kind progress
      exact Run.Echoes.after hf (ih ⟨h.value_eq, h.clean⟩ hrest)

/-- **A pipeline and its transformations alone** come to one value, or both panic. -/
theorem run_echoes (kind : String) (pipeline : Pipeline α)
    (hp : scheduling.Permits pipeline.isAsync) (a : α) :
    Run.Echoes (fun own bare => ∃ b, own.value = some b ∧ bare = .success b)
      (pipeline.run ⟨.tolerant, scheduling⟩ kind a)
      (pipeline.unchecked.run ⟨.tolerant, scheduling⟩ kind a) := by
  refine (pipeline.resume_echoes kind hp ⟨rfl, rfl⟩).map fun progress bare h => ?_
  exact ⟨bare.value, congrArg some h.value_eq, by simp [Progress.outcome, Outcome.success, h.clean]⟩

end Pipeline

/-- The last operations are run on one value, or on none. -/
theorem Core.finish_echoes (core : Core α) (hp : scheduling.Permits core.pipeline.isAsync)
    (kind : String) {outcome bare : Outcome α} (h : outcome.SameValue bare) :
    Run.Echoes Outcome.SameValue (core.finish ⟨.tolerant, scheduling⟩ kind outcome)
      ((core.refit fun _ => Pipeline.unchecked).finish ⟨.tolerant, scheduling⟩ kind bare) := by
  unfold finish
  rw [h.value_eq]
  cases hv : bare.value with
  | none => exact Run.echoes_pure h
  | some a =>
    refine (core.pipeline.run_echoes kind hp a).bind fun own own' ho => Run.echoes_pure ?_
    obtain ⟨b, hb, rfl⟩ := ho
    exact ⟨hb, fun _ => h.clean hv⟩

/-! ## Leaves, lists and nullables -/

theorem Leaf.evaluate_echoes (type : LeafType) (core : Core type.Carrier)
    (hp : scheduling.Permits core.pipeline.isAsync) :
    Evaluator.Echoes (Leaf.evaluate ⟨.tolerant, scheduling⟩ type core)
      (Leaf.evaluate ⟨.tolerant, scheduling⟩ type (core.refit fun _ => Pipeline.unchecked)) := by
  intro value
  unfold Leaf.evaluate
  cases type.read? value with
  | none => exact refuse_echoes rfl
  | some a =>
    refine (core.pipeline.run_echoes type.name hp a).map fun own own' ho => ?_
    obtain ⟨b, hb, rfl⟩ := ho
    exact (Outcome.sameValue_success hb).map type.toValue

namespace Items

/-- What two lists of items come to: one list of values, or none, and no failure beside the values of
the second list. -/
structure SameValues (found bare : List (Outcome Value)) : Prop where
  /-- The values are one. -/
  produced_eq : produced found = produced bare
  /-- Nothing was recorded beside the second ones. -/
  clean {values : List Value} : produced bare = some values → bare.all Outcome.isSuccess = true

theorem SameValues.cons {later later' : List (Outcome Value)} (hl : SameValues later later')
    {outcome bare : Outcome Value} (h : outcome.SameValue bare) :
    SameValues (outcome :: later) (bare :: later') where
  produced_eq := by rw [produced_cons, produced_cons, h.value_eq, hl.produced_eq]
  clean hp := by
    rw [produced_cons] at hp
    obtain ⟨a, ha, hrest⟩ := Option.bind_eq_some_iff.mp hp
    obtain ⟨values, hvalues, -⟩ := Option.map_eq_some_iff.mp hrest
    rw [List.all_cons, h.clean ha, hl.clean hvalues, Bool.and_self]

/-- Items, one after the other. -/
theorem outcomes_echoes {element bare : Evaluator} (he : Evaluator.Echoes element bare) :
    ∀ (position : Nat) (items : List Value),
      Run.Echoes SameValues (outcomes element position items) (outcomes bare position items)
  | _, [] => Run.echoes_pure ⟨rfl, fun _ => rfl⟩
  | position, item :: rest => by
    refine ((he item).under (Path.position position)).bind fun outcome outcome' ho => ?_
    refine (outcomes_echoes he (position + 1) rest).bind fun later later' hl => ?_
    exact Run.echoes_pure (hl.cons ho)

/-- **Lists.**  An item without a value leaves both lists without one. -/
theorem evaluate_echoes {element bare : Evaluator} (he : Evaluator.Echoes element bare)
    (core : Core (List Value)) (hp : scheduling.Permits core.pipeline.isAsync) :
    Evaluator.Echoes (evaluate ⟨.tolerant, scheduling⟩ element core)
      (evaluate ⟨.tolerant, scheduling⟩ bare (core.refit fun _ => Pipeline.unchecked)) := by
  intro value
  unfold evaluate
  cases value.items? with
  | none => exact refuse_echoes rfl
  | some items =>
    refine (core.pipeline.run_echoes "list" hp items).bind fun own own' ho => ?_
    obtain ⟨changed, hc, rfl⟩ := ho
    rw [hc]
    refine (outcomes_echoes he 0 changed).bind fun found found' hf => Run.echoes_pure ?_
    refine ⟨congrArg (Option.map Value.arr) hf.produced_eq, fun hv => ?_⟩
    obtain ⟨values, hvalues, -⟩ := Option.map_eq_some_iff.mp hv
    exact (isEmpty_absorb found' .empty 0).trans (hf.clean hvalues)

end Items

/-- Nullables.  Neither run does anything with `null`. -/
theorem Optional.evaluate_echoes {inner bare : Evaluator} (hi : Evaluator.Echoes inner bare)
    (default : Option Value) (core : Core Value) (hp : scheduling.Permits core.pipeline.isAsync) :
    Evaluator.Echoes (Optional.evaluate ⟨.tolerant, scheduling⟩ inner default core)
      (Optional.evaluate ⟨.tolerant, scheduling⟩ bare default
        (core.refit fun _ => Pipeline.unchecked)) := by
  intro value
  unfold Optional.evaluate
  split
  · exact Run.echoes_pure (Outcome.sameValue_success rfl)
  · exact (hi _).bind fun outcome outcome' ho => core.finish_echoes hp "nullable" ho

/-! ## Tuples -/

namespace Positions

variable {arity : Nat} {elements bare : Fin arity → Evaluator}

/-- What was gathered from the first `k` positions: one list of values, or none, and no failure
beside the values of the second run. -/
structure Gathered.SameValues {k : Nat} (gathered bare : Gathered k) : Prop where
  /-- The values are one. -/
  produced_eq : gathered.produced = bare.produced
  /-- Nothing was recorded beside the second ones. -/
  clean {values : Vector Value k} : bare.produced = some values → bare.failures.isEmpty = true

/-- Positions, one after the other. -/
theorem gather_echoes (he : ∀ i, Evaluator.Echoes (elements i) (bare i))
    (items : Vector Value arity) : ∀ (k : Nat) (hk : k ≤ arity),
      Run.Echoes Gathered.SameValues (gather elements items k hk) (gather bare items k hk)
  | 0, _ => Run.echoes_pure ⟨rfl, fun _ => rfl⟩
  | k + 1, hk => by
    refine (gather_echoes he items k (Nat.le_of_succ_le hk)).bind fun before before' hb => ?_
    refine ((he ⟨k, hk⟩ items[k]).under (Path.position k)).bind fun outcome outcome' ho => ?_
    refine Run.echoes_pure ⟨by simp only [hb.produced_eq, ho.value_eq], fun hp => ?_⟩
    obtain ⟨values, hvalues, hlast⟩ := Option.bind_eq_some_iff.mp hp
    obtain ⟨a, ha, -⟩ := Option.map_eq_some_iff.mp hlast
    have hsuccess : outcome'.failures.isEmpty = true := ho.clean ha
    simp [hb.clean hvalues, hsuccess]

/-- **Tuples.**  A position without a value leaves both tuples without one. -/
theorem evaluateArray_echoes (he : ∀ i, Evaluator.Echoes (elements i) (bare i))
    (core : Core (Vector Value arity)) (hp : scheduling.Permits core.pipeline.isAsync) :
    Evaluator.Echoes (evaluateArray ⟨.tolerant, scheduling⟩ elements core)
      (evaluateArray ⟨.tolerant, scheduling⟩ bare (core.refit fun _ => Pipeline.unchecked)) := by
  have hpositions (items : List Value) : Run.Echoes Outcome.SameValue
      (evaluate ⟨.tolerant, scheduling⟩ elements items)
      (evaluate ⟨.tolerant, scheduling⟩ bare items) := by
    unfold evaluate
    cases Value.exactly? arity items with
    | none => exact refuse_echoes rfl
    | some items =>
      exact (gather_echoes he items arity (Nat.le_refl arity)).bind fun _ _ hg =>
        Run.echoes_pure ⟨hg.produced_eq, hg.clean⟩
  intro value
  unfold evaluateArray
  cases value.items? with
  | none => exact refuse_echoes rfl
  | some items =>
    refine (hpositions items).bind fun outcome outcome' ho => ?_
    refine (core.finish_echoes hp "tuple" ho).bind fun finished finished' hf => ?_
    exact Run.echoes_pure (hf.map _)

end Positions

/-! ## All forms -/

namespace Validator

/-- **What a straight validator makes of a value does not hang on its checks.**

**Proof sketch.** Induction on the form: the parts come to one value with and without checks, and so
do the operations run on it. -/
theorem evaluate_echoes_unchecked {validator : Validator} (h : validator.Composed)
    (hs : validator.Straight) (hp : scheduling.Permits validator.requiresAsync) :
    Evaluator.Echoes (validator.evaluate ⟨.tolerant, scheduling⟩)
      (validator.unchecked.evaluate ⟨.tolerant, scheduling⟩) := by
  unfold unchecked
  induction validator with
  | leaf type core => exact Leaf.evaluate_echoes type core hp
  | list element core ih =>
    obtain ⟨hcore, helement⟩ := Scheduling.permits_or_iff.mp hp
    exact Items.evaluate_echoes (ih h hs.2 helement) core hcore
  | nullable inner default core ih =>
    obtain ⟨hcore, hinner⟩ := Scheduling.permits_or_iff.mp hp
    exact Optional.evaluate_echoes (ih h hs.2 hinner) default core hcore
  | tuple arity elements core ih =>
    obtain ⟨hcore, helements⟩ := Scheduling.permits_or_iff.mp hp
    refine Positions.evaluateArray_echoes (fun i => ih i (h i) (hs.2 i) fun hsync => ?_) core hcore
    exact someRequireAsync_eq_false_iff.mp (helements hsync) i
  | union count alternatives core ih => exact nomatch hs.1
  | pipe input output conversion core ihi iho => exact nomatch hs.1
  | custom behaviour core => exact h.elim

/-- **Failed checks never change the produced value.**  A straight validator is run tolerantly, and
so is the same validator without its checks.  Either both runs panic, or both callers learn of an
outcome.  Then there is a value in both or in neither, and it is one value; where there is one, no
failure is recorded without the checks.  Where nothing can be awaited this is about validators that
need not be. -/
theorem failed_checks_keep_value {validator : Validator} (h : validator.Composed)
    (hs : validator.Straight) {scheduling : Scheduling}
    (hp : scheduling.Permits validator.requiresAsync) (store : Metadata.Store) (value : Value) :
    ((validator.parse store ⟨.tolerant, scheduling⟩ value).result = .error .panic ↔
      (validator.unchecked.parse store ⟨.tolerant, scheduling⟩ value).result = .error .panic) ∧
    ((validator.parse store ⟨.tolerant, scheduling⟩ value).result ≠ .error .panic →
      ∃ report bare,
        (validator.parse store ⟨.tolerant, scheduling⟩ value).result = .ok report ∧
        (validator.unchecked.parse store ⟨.tolerant, scheduling⟩ value).result = .ok bare ∧
        report.outcome.value = bare.outcome.value ∧
        ∀ a, bare.outcome.value = some a → bare.outcome.failures = .empty) := by
  have hb : validator.unchecked.Composed := composed_unchecked h
  have hbp : scheduling.Permits validator.unchecked.requiresAsync :=
    fun _ => requiresAsync_unchecked h
  have hechoes := evaluate_echoes_unchecked h hs hp value
  refine ⟨?_, fun hpanic => ?_⟩
  · rw [parse_error_iff h hp, parse_error_iff hb hbp]
    exact hechoes.panic_iff
  · rw [ne_eq, parse_error_iff h hp] at hpanic
    obtain ⟨outcome, bare, ho, hbare, hsame⟩ | ⟨hr, -⟩ := hechoes
    · refine ⟨⟨outcome, validator.shown? store⟩, ⟨bare, validator.unchecked.shown? store⟩,
        (parse_ok_iff h hp).mpr ⟨ho, rfl⟩, (parse_ok_iff hb hbp).mpr ⟨hbare, rfl⟩,
        hsame.value_eq, fun a ha => ?_⟩
      exact Failures.eq_empty_of_isEmpty (hsame.clean ha)
    · exact absurd hr hpanic

/-- A pair whose first check needs to be awaited and fails, in a list that fails a check as well: the
transformations of the leaves are carried out, those of the pair see what they made, and `null` is
left alone. -/
theorem failed_checks_keep_value_of_list_of_pairs :
    let remote : Action := .asyncCheck "remote" "out of reach" fun _ => .answer (.pending .broken)
    let count : Action := .transformation "count" ⟨fun _ => .answer (.int 1), .answer⟩
    let swap : Action := .transformation "swap" ⟨fun
      | .arr [first, second] => .answer (.arr [second, first])
      | _ => .panicked, .answer⟩
    let few : Action := .check "few" "too many" none fun _ => .answer false
    let pair := (((ofType .any).act remote).act count).and ((ofType .string).act few)
    let validator := (((pair.act few).act swap).orNull.many).act few
    let value : Value := .arr [.null, .arr [.bool true, .str "a"]]
    let made : Value := .arr [.null, .arr [.str "a", .int 1]]
    validator.requiresAsync = true ∧
      ∃ report bare,
        (validator.parse .empty ⟨.tolerant, .async⟩ value).result = .ok report ∧
        (validator.unchecked.parse .empty ⟨.tolerant, .async⟩ value).result = .ok bare ∧
        report.outcome.value = some made ∧ report.outcome.failures.isEmpty = false ∧
        bare.outcome.value = some made ∧ bare.outcome.failures = .empty := by
  intro remote count swap few pair validator value made
  have h : validator.Composed := fun i => match i with | 0 => trivial | 1 => trivial
  have hs : validator.Straight :=
    ⟨rfl, rfl, rfl, fun i => match i with | 0 => rfl | 1 => rfl⟩
  obtain ⟨recorded, hrecorded, hflawed⟩ : ∃ recorded,
      (validator.parse .empty ⟨.tolerant, .async⟩ value).result
        = .ok ⟨⟨some made, recorded, none⟩, none⟩ ∧ recorded.isEmpty = false := ⟨_, rfl, rfl⟩
  obtain ⟨report, bare, hreport, hbare, hsame, hclean⟩ :=
    (failed_checks_keep_value h hs Scheduling.permits_async .empty value).2
      (by rw [hrecorded]; exact nofun)
  obtain rfl := Except.ok.inj (hrecorded.symm.trans hreport)
  exact ⟨rfl, _, bare, hreport, hbare, rfl, hflawed, hsame.symm, hclean made hsame.symm⟩

end Validator

end Conform
