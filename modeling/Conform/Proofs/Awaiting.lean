import Conform.Proofs.Refitting

set_option autoImplicit false

/-!
# Checks of the final answer

An asynchronous check comes to an answer in the end, unless it panics on the way there.  Here each
one in a validator is replaced by a check of that answer, at every level and whether it was added
to a tuple of its length or carried over from a shorter one.  Nothing of what is made so has to be
awaited.

## Main definitions

* `Conform.Validator.awaited` — the validator with a check of the final answer in place of each
  asynchronous check.
* `Conform.Call.awaited` — a call as it is made after that.

## Main results

* `Conform.Validator.requiresAsync_awaited` — nothing has to be awaited any more.
* `Conform.Validator.awaited_and` — replacing the checks before a tuple grows or after is the same.
-/

namespace Conform

variable {α : Type}

/-! ## Checks of the final answer -/

/-- The check of the answer that waiting brings.  A panic on the way there is no acceptance. -/
def AsyncCheck.awaited (check : AsyncCheck α) : Check α where
  name := check.name
  message := check.message
  param := none
  origin := .user
  view := check.view
  predicate a := .answer (check.passes a)

/-- The operation, if it is an asynchronous check with the check of its final answer in its
place. -/
def Operation.awaited : Operation α → Operation α
  | .asyncCheck c => .check c.awaited
  | operation => operation

/-- The operations with their asynchronous checks replaced. -/
def Pipeline.awaited (pipeline : Pipeline α) : Pipeline α :=
  ⟨pipeline.operations.map Operation.awaited⟩

/-- The same operations with their asynchronous checks replaced, and the same handle. -/
def Core.awaited (core : Core α) : Core α := { core with pipeline := core.pipeline.awaited }

/-- The call of an asynchronous check as the call of a check. -/
def Call.awaited (call : Call) : Call :=
  match call.role with
  | .asyncCheck => { call with role := .check }
  | _ => call

namespace Validator

/-- **The validator that never has to be awaited**: at every level a check of the final answer
stands in place of each asynchronous check. -/
def awaited : Validator → Validator
  | leaf type core => leaf type core.awaited
  | list element core => list element.awaited core.awaited
  | nullable inner default core => nullable inner.awaited default core.awaited
  | tuple arity elements core => tuple arity (fun i => (elements i).awaited) core.awaited
  | union count alternatives core => union count (fun i => (alternatives i).awaited) core.awaited
  | pipe input output conversion core =>
    pipe input.awaited output.awaited conversion core.awaited
  | custom behaviour core => custom behaviour core

@[simp] theorem kind_awaited (validator : Validator) : validator.awaited.kind = validator.kind := by
  cases validator <;> rfl

@[simp] theorem handle?_awaited (validator : Validator) :
    validator.awaited.handle? = validator.handle? := by
  cases validator <;> rfl

/-- The checks of the final answer are other operations in the places of the validator's own. -/
theorem awaited_eq_refit (validator : Validator) :
    validator.awaited = validator.refit (fun _ => Pipeline.awaited) id := by
  induction validator with
  | leaf type core => rfl
  | list element core ih => simp only [awaited, refit, ih]; rfl
  | nullable inner default core ih => simp only [awaited, refit, ih]; rfl
  | tuple arity elements core ih => simp only [awaited, refit, ih]; rfl
  | union count alternatives core ih => simp only [awaited, refit, ih]; rfl
  | pipe input output conversion core ihi iho => simp only [awaited, refit, ihi, iho]; rfl
  | custom behaviour core => rfl

theorem composed_awaited {validator : Validator} (h : validator.Composed) :
    validator.awaited.Composed :=
  awaited_eq_refit validator ▸ composed_refit h

end Validator

/-- No operation has to be awaited after the replacement. -/
theorem Pipeline.isAsync_awaited (pipeline : Pipeline α) : pipeline.awaited.isAsync = false := by
  simp only [awaited, isAsync, List.any_map, List.any_eq_false]
  intro operation _
  cases operation <;> simp [Operation.awaited, Operation.isAsync]

namespace Validator

/-- **Nothing has to be awaited after the replacement.** -/
theorem requiresAsync_awaited {validator : Validator} (h : validator.Composed) :
    validator.awaited.requiresAsync = false :=
  awaited_eq_refit validator ▸ requiresAsync_refit_eq_false Pipeline.isAsync_awaited h

/-! ## Replacing and growing -/

/-- An operation carried over to one more element is replaced by what its replacement is carried
over to. -/
theorem awaited_widen {n : Nat} (operation : Operation (Vector Value n)) :
    operation.widen.awaited = operation.awaited.widen := by
  cases operation <;> rfl

theorem awaited_pipeline_widen {n : Nat} (pipeline : Pipeline (Vector Value n)) :
    pipeline.widen.awaited = pipeline.awaited.widen := by
  simp [Pipeline.widen, Pipeline.awaited, awaited_widen]

/-- **Replacing the checks before a tuple grows or after is the same**, whether the operations are
carried over or stay with the validator that becomes the first position. -/
theorem awaited_and (first next : Validator) :
    (first.and next).awaited = first.awaited.and next.awaited := by
  simp only [awaited_eq_refit]
  exact refit_and (fun _ => rfl) awaited_pipeline_widen first next

end Validator

end Conform
