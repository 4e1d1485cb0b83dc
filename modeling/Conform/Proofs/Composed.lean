import Conform.Validator.Evaluation

set_option autoImplicit false

/-!
# Composed validators

A validator is composed if it was put together from the forms of this library alone.  What holds
of every composed validator is proved by induction on its form; a part written by hand may answer
anything and is left out.

## Main definitions

* `Conform.Validator.Composed` — no part of a validator, at any depth, was written by hand.
* `Conform.Validator.Throughout` — a property of a validator and of each of its parts, at any depth.

## Main results

* `Conform.Validator.requiresAsync_tuple`, `Conform.Validator.requiresAsync_union` — a tuple and a
  union have to be awaited because of their own operations or because of one of their parts.
-/

namespace Conform

namespace Validator

/-- **A composed validator** has no part, at any depth, that was written by hand. -/
def Composed : Validator → Prop
  | leaf _ _ => True
  | list element _ => element.Composed
  | nullable inner _ _ => inner.Composed
  | tuple _ elements _ => ∀ i, (elements i).Composed
  | union _ alternatives _ => ∀ i, (alternatives i).Composed
  | pipe input output _ _ => input.Composed ∧ output.Composed
  | custom _ _ => False

/-- A property holds throughout a validator: of the validator itself and of each of its parts, at
any depth. -/
def Throughout (P : Validator → Prop) : Validator → Prop
  | leaf type core => P (leaf type core)
  | list element core => P (list element core) ∧ element.Throughout P
  | nullable inner default core => P (nullable inner default core) ∧ inner.Throughout P
  | tuple arity elements core =>
    P (tuple arity elements core) ∧ ∀ i, (elements i).Throughout P
  | union count alternatives core =>
    P (union count alternatives core) ∧ ∀ i, (alternatives i).Throughout P
  | pipe input output conversion core =>
    P (pipe input output conversion core) ∧ input.Throughout P ∧ output.Throughout P
  | custom behaviour core => P (custom behaviour core)

/-- One of several parts has to be awaited. -/
theorem someRequireAsync_iff {count : Nat} {parts : Fin count → Validator} :
    someRequireAsync parts = true ↔ ∃ i, (parts i).requiresAsync = true := by
  simp [someRequireAsync, List.mem_ofFn]

/-- None of several parts has to be awaited. -/
theorem someRequireAsync_eq_false_iff {count : Nat} {parts : Fin count → Validator} :
    someRequireAsync parts = false ↔ ∀ i, (parts i).requiresAsync = false := by
  simp [someRequireAsync, List.mem_ofFn]

/-- A tuple has to be awaited because of its own operations or because of an element. -/
theorem requiresAsync_tuple {arity : Nat} {elements : Fin arity → Validator}
    {core : Core (Vector Value arity)} :
    (tuple arity elements core).requiresAsync
      = (core.pipeline.isAsync || someRequireAsync elements) := rfl

/-- A union has to be awaited because of its own operations or because of an alternative. -/
theorem requiresAsync_union {count : Nat} {alternatives : Fin count → Validator}
    {core : Core Value} :
    (union count alternatives core).requiresAsync
      = (core.pipeline.isAsync || someRequireAsync alternatives) := rfl

end Validator

end Conform
