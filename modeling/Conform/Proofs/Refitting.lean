import Conform.Proofs.Composed
import Conform.Validator.Combining
import Conform.Validator.Parsing

set_option autoImplicit false

/-!
# Validators with other operations

A validator can be fitted with other operations and other conversions in the places of its own, at
every level.  Nobody who runs it can tell the difference if each pipeline runs as the one before and
each conversion converts as the one before: all that a validator does with its operations is to run
them, and all that a pipe does with its conversion is to call it.

## Main definitions

* `Conform.Validator.refit` — the validator with its pipelines and conversions replaced.

## Main results

* `Conform.Validator.evaluate_refit`, `Conform.Validator.parse_refit` — replacing what runs alike.
* `Conform.Validator.refit_and` — replacing before a tuple grows or after is the same.
-/

namespace Conform

/-- The same handle, and another pipeline. -/
def Core.refit {α : Type} (f : (α : Type) → Pipeline α → Pipeline α) (core : Core α) : Core α :=
  { core with pipeline := f α core.pipeline }

namespace Validator

variable {f : (α : Type) → Pipeline α → Pipeline α} {g : Conversion → Conversion}
  {strategy : Strategy}

/-- **The validator with other operations and conversions**, at every level.  The operations of a
part that was written by hand are never run and stay as they are. -/
def refit (f : (α : Type) → Pipeline α → Pipeline α) (g : Conversion → Conversion) :
    Validator → Validator
  | leaf type core => leaf type (core.refit f)
  | list element core => list (element.refit f g) (core.refit f)
  | nullable inner default core => nullable (inner.refit f g) default (core.refit f)
  | tuple arity elements core => tuple arity (fun i => (elements i).refit f g) (core.refit f)
  | union count alternatives core =>
    union count (fun i => (alternatives i).refit f g) (core.refit f)
  | pipe input output conversion core =>
    pipe (input.refit f g) (output.refit f g) (g conversion) (core.refit f)
  | custom behaviour core => custom behaviour core

@[simp] theorem kind_refit (validator : Validator) : (validator.refit f g).kind = validator.kind := by
  cases validator <;> rfl

@[simp] theorem handle?_refit (validator : Validator) :
    (validator.refit f g).handle? = validator.handle? := by
  cases validator <;> rfl

/-- Other operations and conversions add no part that is written by hand. -/
theorem composed_refit {validator : Validator} (h : validator.Composed) :
    (validator.refit f g).Composed := by
  induction validator with
  | leaf type core => trivial
  | list element core ih => exact ih h
  | nullable inner default core ih => exact ih h
  | tuple arity elements core ih => exact fun i => ih i (h i)
  | union count alternatives core ih => exact fun i => ih i (h i)
  | pipe input output conversion core ihi iho => exact ⟨ihi h.1, iho h.2⟩
  | custom behaviour core => exact h.elim

/-- **Nothing has to be awaited** if that holds of each pipeline fitted. -/
theorem requiresAsync_refit_eq_false
    (hf : ∀ {α : Type} (p : Pipeline α), (f α p).isAsync = false) {validator : Validator}
    (h : validator.Composed) : (validator.refit f g).requiresAsync = false := by
  induction validator with
  | leaf type core => exact hf core.pipeline
  | list element core ih => exact Bool.or_eq_false_iff.mpr ⟨hf core.pipeline, ih h⟩
  | nullable inner default core ih => exact Bool.or_eq_false_iff.mpr ⟨hf core.pipeline, ih h⟩
  | tuple arity elements core ih =>
    refine Bool.or_eq_false_iff.mpr ⟨hf core.pipeline, ?_⟩
    exact someRequireAsync_eq_false_iff.mpr fun i => ih i (h i)
  | union count alternatives core ih =>
    refine Bool.or_eq_false_iff.mpr ⟨hf core.pipeline, ?_⟩
    exact someRequireAsync_eq_false_iff.mpr fun i => ih i (h i)
  | pipe input output conversion core ihi iho =>
    have hinput := Bool.or_eq_false_iff.mpr ⟨hf core.pipeline, ihi h.1⟩
    exact Bool.or_eq_false_iff.mpr ⟨hinput, iho h.2⟩
  | custom behaviour core => exact h.elim

/-! ## What runs alike -/

/-- As much has to be awaited as before if that holds of each pipeline. -/
theorem requiresAsync_refit (hf : ∀ {α : Type} (p : Pipeline α), (f α p).isAsync = p.isAsync)
    (validator : Validator) : (validator.refit f g).requiresAsync = validator.requiresAsync := by
  induction validator with
  | leaf type core => exact hf core.pipeline
  | list element core ih => simp only [refit, requiresAsync, Core.refit, hf, ih]
  | nullable inner default core ih => simp only [refit, requiresAsync, Core.refit, hf, ih]
  | tuple arity elements core ih =>
    simp only [refit, requiresAsync, Core.refit, hf, ih]
  | union count alternatives core ih =>
    simp only [refit, requiresAsync, Core.refit, hf, ih]
  | pipe input output conversion core ihi iho =>
    simp only [refit, requiresAsync, Core.refit, hf, ihi, iho]
  | custom behaviour core => rfl

/-- The last operations, if they run as before. -/
theorem finish_refit {α : Type}
    (hf : ∀ {α : Type} (p : Pipeline α) kind a, (f α p).run strategy kind a = p.run strategy kind a)
    (core : Core α) (kind : String) (outcome : Outcome α) :
    (core.refit f).finish strategy kind outcome = core.finish strategy kind outcome := by
  simp only [Core.finish, Core.refit, hf]

/-- A conversion that is called and converts as before. -/
theorem cross_refit (hlabel : ∀ c, (g c).label = c.label)
    (hconvert : ∀ c value, (g c).convert value = c.convert value) (source target : String)
    (conversion : Conversion) (first : Outcome Value) :
    Stages.cross strategy source target (g conversion) first
      = Stages.cross strategy source target conversion first := by
  simp only [Stages.cross, hlabel, hconvert]

/-- **What runs alike cannot be told apart**: a validator that was fitted with pipelines that run as
its own and with conversions that convert as its own does the same on every value.

**Proof sketch.** Induction on the form; a form does nothing with its pipeline but run it. -/
theorem evaluate_refit
    (hf : ∀ {α : Type} (p : Pipeline α) kind a, (f α p).run strategy kind a = p.run strategy kind a)
    (hlabel : ∀ c, (g c).label = c.label)
    (hconvert : ∀ c value, (g c).convert value = c.convert value) (validator : Validator) :
    (validator.refit f g).evaluate strategy = validator.evaluate strategy := by
  induction validator with
  | leaf type core =>
    funext value
    simp only [refit, evaluate, Leaf.evaluate, Core.refit, hf]
  | list element core ih =>
    funext value
    simp only [refit, evaluate, Items.evaluate, Core.refit, hf, ih]
  | nullable inner default core ih =>
    funext value
    simp only [refit, evaluate, ih]
    cases value <;> simp only [Optional.evaluate, finish_refit hf]
  | tuple arity elements core ih =>
    funext value
    simp only [refit, evaluate, Positions.evaluateArray, finish_refit hf, ih]
  | union count alternatives core ih =>
    funext value
    simp only [refit, evaluate, Choice.evaluate, Core.refit, hf, ih]
  | pipe input output conversion core ihi iho =>
    funext value
    simp only [refit, evaluate, Stages.evaluate, cross_refit hlabel hconvert, finish_refit hf, ihi,
      iho, kind_refit]
  | custom behaviour core => rfl

/-- **Parsing** with what runs alike and has to be awaited alike. -/
theorem parse_refit (hasync : ∀ {α : Type} (p : Pipeline α), (f α p).isAsync = p.isAsync)
    (hf : ∀ {α : Type} (p : Pipeline α) kind a, (f α p).run strategy kind a = p.run strategy kind a)
    (hlabel : ∀ c, (g c).label = c.label)
    (hconvert : ∀ c value, (g c).convert value = c.convert value) (validator : Validator)
    (store : Metadata.Store) (value : Value) :
    (validator.refit f g).parse store strategy value = validator.parse store strategy value := by
  simp only [parse, ensureRunnable, shown?, requiresAsync_refit hasync, kind_refit, handle?_refit,
    evaluate_refit hf hlabel hconvert]

/-! ## Replacing and growing -/

theorem refit_extend {n : Nat} (parts : Fin n → Validator) (last : Validator) :
    (fun i => (extend parts last i).refit f g)
      = extend (fun i => (parts i).refit f g) (last.refit f g) :=
  map_extend (refit f g) parts last

/-- A pair is fitted by its parts: it has no operations yet. -/
theorem refit_pair (hempty : ∀ α, f α .empty = .empty) (first next : Validator) :
    (pair first next).refit f g = pair (first.refit f g) (next.refit f g) := by
  have hn : (fun i => (noParts i : Validator).refit f g) = noParts := funext fun i => i.elim0
  simp only [pair, refit, refit_extend, handle?_refit, hn, Core.refit, Core.holding, hempty]

/-- **Replacing before a tuple grows or after is the same**, if operations that are carried over are
replaced by what their replacements are carried over to. -/
theorem refit_and (hempty : ∀ α, f α .empty = .empty)
    (hwiden : ∀ {n : Nat} (p : Pipeline (Vector Value n)), f _ p.widen = (f _ p).widen)
    (first next : Validator) :
    (first.and next).refit f g = (first.refit f g).and (next.refit f g) := by
  cases first with
  | tuple arity elements core =>
    simp only [and, refit]
    split
    · simp only [refit, refit_extend, Core.refit, hwiden]
    · exact refit_pair hempty _ _
  | _ => exact refit_pair hempty _ _

end Validator

end Conform
