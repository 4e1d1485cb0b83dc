import Conform.Proofs.FinalStops
import Conform.Proofs.Refitting

set_option autoImplicit false

/-!
# Panics are isolated

The functions that a validator was built from may panic.  A predicate that panics does not accept,
wherever in its evaluation the panic arises, and a conversion that panics refuses with a reason.  So
nobody can tell a validator from the one in which every predicate answers where it would panic, and
every conversion gives that reason.  What remains is the panic of a transformation, which nothing
handles: a run panics exactly if a transformation panics on the value that it is given in that run.

## Main definitions

* `Conform.Validator.guarded` — the validator with an answer in place of each panic of a predicate or
  a conversion.
* `Conform.Validator.Calm` — no predicate and no conversion panics.
* `Conform.Validator.PanicsWith` — a transformation panics on the value that it is given.

## Main results

* `Conform.Pipeline.run_guarded`, `Conform.Conversion.convert_guarded` — what nobody can tell apart.
* `Conform.Validator.calm_guarded` — nothing but a transformation is left to panic.
* `Conform.Validator.breaks_panic_iff` — when an evaluation panics.
* `Conform.Validator.panic_isolation` — evaluation and parsing.
-/

namespace Conform

variable {α : Type} {strategy : Strategy}

/-! ## Functions that do not panic -/

/-- The reply with an answer in place of a panic. -/
def Reply.recover (reply : Reply α) (a : α) : Reply α :=
  match reply with
  | answer b => answer b
  | panicked => answer a

theorem Reply.recover_ne_panicked (reply : Reply α) (a : α) : reply.recover a ≠ .panicked := by
  cases reply <;> nofun

/-- A predicate that panicked did not accept. -/
@[simp] theorem Reply.holds_recover (reply : Reply Bool) :
    (reply.recover false).holds = reply.holds := by
  cases reply <;> rfl

/-- The same future, with the answer no where it would break. -/
def Future.guarded : Future → Future
  | ready answer => ready answer
  | broken => ready false
  | pending later => pending later.guarded

/-- Waiting comes to the same answer, or to no in place of a panic. -/
theorem Future.await_guarded (future : Future) :
    future.guarded.await = future.await.recover false := by
  induction future with
  | ready answer => rfl
  | broken => rfl
  | pending later ih => exact ih

/-- The check that does not accept where its predicate would panic. -/
def Check.guarded (check : Check α) : Check α :=
  { check with predicate := fun a => (check.predicate a).recover false }

/-- The check that does not accept where its predicate would panic, be it before there is a future
or while it is waited for. -/
def AsyncCheck.guarded (check : AsyncCheck α) : AsyncCheck α :=
  { check with
    predicate := fun a => ((check.predicate a).map Future.guarded).recover (.ready false) }

/-- The conversion that gives a reason where its function would panic. -/
def Conversion.guarded (conversion : Conversion) : Conversion :=
  { conversion with
    apply := fun value => (conversion.apply value).recover (.error "conversion panicked") }

@[simp] theorem Check.passes_guarded (check : Check α) (a : α) :
    check.guarded.passes a = check.passes a :=
  Reply.holds_recover _

/-- A panic before there is a future and one while it is waited for come to the same. -/
theorem AsyncCheck.bind_await_guarded (check : AsyncCheck α) (a : α) :
    (check.guarded.predicate a).bind Future.await
      = ((check.predicate a).bind Future.await).recover false := by
  simp only [guarded]
  cases check.predicate a with
  | answer future => exact future.await_guarded
  | panicked => rfl

@[simp] theorem AsyncCheck.passes_guarded (check : AsyncCheck α) (a : α) :
    check.guarded.passes a = check.passes a := by
  rw [passes, bind_await_guarded, Reply.holds_recover, passes]

@[simp] theorem Conversion.label_guarded (conversion : Conversion) :
    conversion.guarded.label = conversion.label := rfl

@[simp] theorem Conversion.convert_guarded (conversion : Conversion) (value : Value) :
    conversion.guarded.convert value = conversion.convert value := by
  simp only [convert, guarded]
  cases conversion.apply value <;> rfl

/-! ## Operations that do not panic -/

/-- The operation, if it is a check with one that does not panic in its place. -/
def Operation.guarded : Operation α → Operation α
  | .check c => .check c.guarded
  | .asyncCheck c => .asyncCheck c.guarded
  | .transformation t => .transformation t

/-- The operations with checks that do not panic. -/
def Pipeline.guarded (pipeline : Pipeline α) : Pipeline α :=
  ⟨pipeline.operations.map Operation.guarded⟩

@[simp] theorem Operation.isAsync_guarded (operation : Operation α) :
    operation.guarded.isAsync = operation.isAsync := by
  cases operation <;> rfl

@[simp] theorem Pipeline.isAsync_guarded (pipeline : Pipeline α) :
    pipeline.guarded.isAsync = pipeline.isAsync := by
  simp [isAsync, guarded, List.any_map, Function.comp_def]

/-- A check that does not panic does the same to a run. -/
theorem Operation.advance_guarded (kind : String) (progress : Progress α)
    (operation : Operation α) :
    operation.guarded.advance strategy kind progress = operation.advance strategy kind progress := by
  cases operation with
  | check c => simp only [guarded, advance, Check.passes_guarded]; rfl
  | asyncCheck c => simp only [guarded, advance, AsyncCheck.passes_guarded]; rfl
  | transformation t => rfl

/-- **Operations whose checks do not panic run as before.** -/
theorem Pipeline.run_guarded (pipeline : Pipeline α) (kind : String) (a : α) :
    pipeline.guarded.run strategy kind a = pipeline.run strategy kind a := by
  simp only [run, resume, guarded, List.foldlM_map, Operation.advance_guarded]

/-- Checks that are carried over to one more element may be replaced before or after. -/
theorem Pipeline.guarded_widen {n : Nat} (pipeline : Pipeline (Vector Value n)) :
    pipeline.widen.guarded = pipeline.guarded.widen := by
  simp only [widen, guarded, List.map_map, Pipeline.mk.injEq]
  refine List.map_congr_left fun operation _ => ?_
  cases operation <;> rfl

/-- **The validator whose predicates and conversions do not panic**, at every level: a predicate does
not accept where it would panic, and a conversion gives a reason. -/
def Validator.guarded (validator : Validator) : Validator :=
  validator.refit (fun _ => Pipeline.guarded) Conversion.guarded

/-! ## Nothing but transformations is left to panic -/

/-- The operation does not panic, unless it is a transformation. -/
def Operation.Calm : Operation α → Prop
  | .check c => ∀ a, c.predicate a ≠ .panicked
  | .asyncCheck c => ∀ a, (c.predicate a).bind Future.await ≠ .panicked
  | .transformation _ => True

/-- No check among the operations panics. -/
def Core.Calm (core : Core α) : Prop := ∀ operation ∈ core.pipeline.operations, operation.Calm

theorem Core.calm_guarded (core : Core α) : (core.refit fun _ => Pipeline.guarded).Calm := by
  intro operation hmem
  obtain ⟨before, -, rfl⟩ := List.mem_map.mp hmem
  cases before with
  | check c => exact fun a => Reply.recover_ne_panicked _ _
  | asyncCheck c =>
    intro a
    rw [AsyncCheck.bind_await_guarded]
    exact Reply.recover_ne_panicked _ _
  | transformation t => trivial

namespace Validator

/-- **No predicate and no conversion of the validator panics**, at any level. -/
def Calm : Validator → Prop
  | leaf _ core => core.Calm
  | list element core => core.Calm ∧ element.Calm
  | nullable inner _ core => core.Calm ∧ inner.Calm
  | tuple _ elements core => core.Calm ∧ ∀ i, (elements i).Calm
  | union _ alternatives core => core.Calm ∧ ∀ i, (alternatives i).Calm
  | pipe input output conversion core =>
    core.Calm ∧ (∀ value, conversion.apply value ≠ .panicked) ∧ input.Calm ∧ output.Calm
  | custom _ _ => True

/-- **Nothing but a transformation is left to panic.** -/
theorem calm_guarded (validator : Validator) : validator.guarded.Calm := by
  induction validator with
  | leaf type core => exact core.calm_guarded
  | list element core ih => exact ⟨core.calm_guarded, ih⟩
  | nullable inner default core ih => exact ⟨core.calm_guarded, ih⟩
  | tuple arity elements core ih => exact ⟨core.calm_guarded, ih⟩
  | union count alternatives core ih => exact ⟨core.calm_guarded, ih⟩
  | pipe input output conversion core ihi iho =>
    exact ⟨core.calm_guarded, fun value => Reply.recover_ne_panicked _ _, ihi, iho⟩
  | custom behaviour core => trivial

/-- **Replacing before a tuple grows or after is the same**, so that checks are replaced no matter
whether they were carried over. -/
theorem guarded_and (first next : Validator) :
    (first.and next).guarded = first.guarded.and next.guarded :=
  refit_and (fun _ => rfl) Pipeline.guarded_widen first next

end Validator

/-! ## Transformations that panic -/

/-- The call of a transformation on a value. -/
def Transformation.call (transformation : Transformation α) (a : α) : Call :=
  ⟨.transformation, transformation.origin, transformation.label, transformation.view a⟩

/-- What a check found is no panic. -/
theorem Progress.not_breaks_panic_judge {mode : Mode} {name message : String} {passed : Bool}
    {progress : Progress α} {calls : List Call} :
    ¬ (progress.judge mode name message passed).Breaks .panic calls := by
  cases passed with
  | true => exact Run.not_breaks_pure
  | false => cases mode <;> nofun

/-- **An operation panics exactly if it is a transformation** that panics on the current value. -/
theorem Operation.advance_breaks_panic_iff {kind : String} {progress : Progress α}
    {operation : Operation α} {calls : List Call} :
    (operation.advance strategy kind progress).Breaks .panic calls ↔
      ∃ t, operation = .transformation t ∧ t.apply progress.value = .panicked ∧
        calls = [t.call progress.value] := by
  cases operation with
  | check c =>
    refine ⟨fun h => ?_, nofun⟩
    obtain ⟨later, hjudge, -⟩ := Run.breaks_call_bind_iff.mp h
    exact (Progress.not_breaks_panic_judge hjudge).elim
  | asyncCheck c =>
    refine ⟨fun h => ?_, nofun⟩
    simp only [advance] at h
    split at h
    · cases h
    · obtain ⟨later, hjudge, -⟩ := Run.breaks_call_bind_iff.mp h
      exact (Progress.not_breaks_panic_judge hjudge).elim
  | transformation t =>
    simp only [advance, Run.breaks_call_bind_iff]
    constructor
    · rintro ⟨later, h, rfl⟩
      split at h
      · exact (Run.not_breaks_pure h).elim
      · rename_i hpanic
        cases h
        exact ⟨t, rfl, hpanic, rfl⟩
    · rintro ⟨_, ⟨⟩, hpanic, rfl⟩
      rw [hpanic]
      exact ⟨[], rfl, rfl⟩

/-- **A transformation panics.**  The operations before it come to a value after some calls, and it
panics on that value; its call is the last one. -/
inductive Task.Panics (strategy : Strategy) : Task → List Call → Prop
  | at_transformation {α : Type} {earlier later : List (Operation α)}
    {transformation : Transformation α} {kind : String} {a : α} {progress : Progress α}
    {calls : List Call}
    (hearlier : Pipeline.resume strategy kind ⟨earlier⟩ ⟨a, .empty⟩ = ⟨calls, .ok progress⟩)
    (hpanic : transformation.apply progress.value = .panicked) :
    Task.Panics strategy ⟨α, ⟨earlier ++ .transformation transformation :: later⟩, kind, a⟩
      (calls ++ [transformation.call progress.value])

/-- Operations panic exactly if one of their transformations does. -/
theorem Task.breaks_panic_iff {task : Task} {calls : List Call} :
    (task.run strategy).Breaks .panic calls ↔ task.Panics strategy calls := by
  obtain ⟨α, ⟨operations⟩, kind, a⟩ := task
  simp only [run, Run.breaks_muted, Pipeline.run, Run.breaks_map_iff, Pipeline.resume]
  constructor
  · intro h
    obtain ⟨earlier, operation, later, before, reached, during, rfl, hearlier, hoperation, rfl⟩ :=
      Run.foldlM_breaks_iff.mp h
    obtain ⟨t, rfl, hpanic, rfl⟩ := Operation.advance_breaks_panic_iff.mp hoperation
    exact .at_transformation hearlier hpanic
  · rintro ⟨hearlier, hpanic⟩
    exact Run.foldlM_breaks_iff.mpr ⟨_, _, _, _, _, _, rfl, hearlier,
      Operation.advance_breaks_panic_iff.mpr ⟨_, rfl, hpanic, rfl⟩, rfl⟩

namespace Validator

/-- **A transformation of the validator panics** on the value that it is given in an evaluation,
after these calls, the last of which is its own: it is among the operations of the validator itself
or of a part that is evaluated. -/
inductive PanicsWith (strategy : Strategy) : Validator → Value → List Call → Prop
  | own {validator : Validator} {value : Value} {before later : List Call} {task : Task}
    (h : Operates strategy validator value before task) (hpanics : task.Panics strategy later) :
    PanicsWith strategy validator value (before ++ later)
  | part {validator part : Validator} {value subject : Value} {before later : List Call}
    (h : Asks strategy validator value before part subject)
    (hpanics : PanicsWith strategy part subject later) :
    PanicsWith strategy validator value (before ++ later)

/-- **An evaluation panics exactly if a transformation does.**

**Proof sketch.** From left to right by induction on the parts: a form panics only where its
operations or a part do (`breaks_iff_broken`).  From right to left the panic passes through one form
after the other. -/
theorem breaks_panic_iff {validator : Validator} {value : Value} {calls : List Call} :
    (validator.evaluate strategy value).Breaks .panic calls ↔
      PanicsWith strategy validator value calls := by
  have hf : Stop.panic.Final := trivial
  constructor
  · intro h
    induction validator using induction_on_parts strategy generalizing value calls with
    | step validator ih =>
      -- a validator written by hand answers with a fault and never panics
      cases (breaks_iff_broken hf).mp h with
      | own hoperates hrun => exact .own hoperates (Task.breaks_panic_iff.mp hrun)
      | part hasks hpart => exact .part hasks (ih hasks hpart)
  · intro h
    induction h with
    | own hoperates hpanics => exact hoperates.breaks (Task.breaks_panic_iff.mpr hpanics)
    | part hasks _ ih => exact hasks.breaks hf ih

/-- **Panics are isolated.**  A validator behaves as the one whose predicates do not accept where they
would panic and whose conversions give a reason where they would panic, in both modes and whether
the run may wait, for evaluation and for all ways to parse.  Predicates that are carried over to a
longer tuple are among those replaced, and only transformations are left to panic.  A run panics
exactly if a transformation panics on the value that it is given in that run, after the calls before
it and with its own call as the last one.

**Proof sketch.** Checks and conversions that are replaced do the same to a run
(`Pipeline.run_guarded`, `Conversion.convert_guarded`), and a validator does nothing else with them
(`evaluate_refit`).  A panic passes through every form, and no form panics for another reason
(`breaks_panic_iff`). -/
theorem panic_isolation (strategy : Strategy) (validator : Validator) (value : Value) :
    validator.guarded.Calm ∧
    validator.guarded.evaluate strategy value = validator.evaluate strategy value ∧
    (∀ store, validator.guarded.parse store strategy value
      = validator.parse store strategy value) ∧
    (∀ next : Validator, (validator.and next).guarded = validator.guarded.and next.guarded) ∧
    (∀ calls, validator.evaluate strategy value = ⟨calls, .error .panic⟩ ↔
      PanicsWith strategy validator value calls) ∧
    (∀ store calls, validator.parse store strategy value = ⟨calls, .error .panic⟩ ↔
      strategy.scheduling.Permits validator.requiresAsync ∧
        PanicsWith strategy validator value calls) := by
  have hrun : ∀ {α : Type} (pipeline : Pipeline α) kind a,
      pipeline.guarded.run strategy kind a = pipeline.run strategy kind a :=
    fun pipeline => pipeline.run_guarded
  refine ⟨calm_guarded validator, ?_, fun store => ?_, guarded_and validator,
    fun calls => breaks_panic_iff, fun store calls => ?_⟩
  · have hevaluate : validator.guarded.evaluate strategy = validator.evaluate strategy :=
      evaluate_refit hrun Conversion.label_guarded Conversion.convert_guarded validator
    rw [hevaluate]
  · exact parse_refit Pipeline.isAsync_guarded hrun Conversion.label_guarded
      Conversion.convert_guarded validator store value
  · obtain hp | ⟨hs, ha⟩ := strategy.scheduling.permits_or validator.requiresAsync
    · have hf : Stop.panic.Final := trivial
      exact ((parse_breaks_iff hf hp).trans breaks_panic_iff).trans
        (iff_and_self.mpr fun _ => hp)
    · obtain ⟨mode, scheduling⟩ := strategy
      obtain rfl : scheduling = .sync := hs
      rw [parse_eq_fail ha]
      refine ⟨nofun, fun ⟨hp, _⟩ => ?_⟩
      exact (Bool.false_ne_true ((hp rfl).symm.trans ha)).elim

/-- A list comes to an item that a transformation cannot take.  The alternatives before it panicked
as well, in a future that broke, and that counted as a failure. -/
theorem panic_isolation_of_second_item :
    let remote := (ofType .any).act
      (.asyncCheck "remote" "out of reach" fun _ => .answer (.pending .broken))
    let counted := (ofType .any).act (.transformation "count" ⟨fun
      | .null => .panicked
      | _ => .answer (.int 1), .answer⟩)
    let validator := (remote.or counted).many
    let value : Value := .arr [.bool true, .null]
    let calls : List Call :=
      [⟨.asyncCheck, .user, "remote", .bool true⟩, ⟨.transformation, .user, "count", .bool true⟩,
        ⟨.asyncCheck, .user, "remote", .null⟩, ⟨.transformation, .user, "count", .null⟩]
    let strategy : Strategy := ⟨.tolerant, .async⟩
    validator.guarded.evaluate strategy value = ⟨calls, .error .panic⟩ ∧
      PanicsWith strategy validator value calls := by
  intro remote counted validator value calls strategy
  have hevaluate : validator.evaluate strategy value = ⟨calls, .error .panic⟩ := rfl
  obtain ⟨-, hguarded, -, -, hpanics, -⟩ := panic_isolation strategy validator value
  exact ⟨hguarded.trans hevaluate, (hpanics calls).mp hevaluate⟩

end Validator

end Conform
