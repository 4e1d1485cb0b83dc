import Conform.Proofs.Composed
import Conform.Validator.Combining

set_option autoImplicit false

/-!
# Validators obtained by builder calls

Whoever builds a validator starts from a leaf or from the union of nothing and goes on by calls:
one more operation, a wrapper, one more position, one more alternative, a second stage, a metadata
entry.  The calls are followed here with one question in mind: did one of them add an asynchronous
check?  A tuple that grows carries its operations over and a union that grows keeps them, so the
answer can be read off the validator at any time.

## Main definitions

* `Conform.Validator.operate` — one more operation, of whatever type the validator's operations
  work on.
* `Conform.Validator.Assembled` — a validator with the answer for the calls it was obtained by.

## Main results

* `Conform.Validator.Assembled.composed` — such a validator is composed.
* `Conform.Validator.Assembled.requiresAsync_eq` — it has to be awaited exactly if a call added an
  asynchronous check.
-/

namespace Conform

namespace Validator

/-! ## Operations of any type -/

/-- The type that the operations of a validator work on. -/
abbrev Operand : Validator → Type
  | leaf type _ => type.Carrier
  | list .. => List Value
  | nullable .. => Value
  | tuple arity _ _ => Vector Value arity
  | union .. => Value
  | pipe .. => Value
  | custom .. => Value

/-- Adds an operation after those of a validator. -/
def operate : (validator : Validator) → Operation validator.Operand → Validator
  | leaf type core, operation => leaf type (core.push operation)
  | list element core, operation => list element (core.push operation)
  | nullable inner default core, operation => nullable inner default (core.push operation)
  | tuple arity elements core, operation => tuple arity elements (core.push operation)
  | union count alternatives core, operation => union count alternatives (core.push operation)
  | pipe input output conversion core, operation =>
    pipe input output conversion (core.push operation)
  | custom behaviour core, operation => custom behaviour (core.push operation)

/-! ## One more part -/

section Extend

variable {α : Type} {n : Nat} {parts : Fin n → α} {last : α}

@[simp] theorem extend_castSucc (i : Fin n) : extend parts last i.castSucc = parts i := by
  unfold extend
  exact dif_pos i.isLt

@[simp] theorem extend_last : extend parts last (Fin.last n) = last := by
  unfold extend
  exact dif_neg (Nat.lt_irrefl n)

/-- The parts in a list, the new one at its end. -/
theorem ofFn_extend : List.ofFn (extend parts last) = List.ofFn parts ++ [last] := by
  simp only [List.ofFn_succ_last, extend_castSucc, extend_last]

/-- All parts have a property if those there were and the new one have it. -/
theorem forall_extend (P : α → Prop) :
    (∀ i, P (extend parts last i)) ↔ (∀ i, P (parts i)) ∧ P last := by
  constructor
  · intro h
    exact ⟨fun i => by simpa using h i.castSucc, by simpa using h (Fin.last n)⟩
  · rintro ⟨hp, hl⟩ i
    refine Fin.lastCases ?_ (fun j => ?_) i
    · rwa [extend_last]
    · rw [extend_castSucc]
      exact hp j

/-- Some part has a property if one there was or the new one has it. -/
theorem exists_extend (P : α → Prop) :
    (∃ i, P (extend parts last i)) ↔ (∃ i, P (parts i)) ∨ P last := by
  constructor
  · rintro ⟨i, hi⟩
    revert hi
    refine Fin.lastCases ?_ (fun j => ?_) i
    · rw [extend_last]
      exact Or.inr
    · rw [extend_castSucc]
      exact fun hj => Or.inl ⟨j, hj⟩
  · rintro (⟨i, hi⟩ | hl)
    · exact ⟨i.castSucc, by rwa [extend_castSucc]⟩
    · exact ⟨Fin.last n, by rwa [extend_last]⟩

end Extend

/-! ## Composed validators -/

section Composed

variable {validator first next : Validator}

theorem composed_pair (hf : first.Composed) (hn : next.Composed) : (pair first next).Composed := by
  refine (forall_extend Composed).mpr ⟨?_, hn⟩
  exact (forall_extend Composed).mpr ⟨fun i => i.elim0, hf⟩

theorem composed_and (hf : first.Composed) (hn : next.Composed) : (first.and next).Composed := by
  unfold and
  split
  · split
    · exact (forall_extend Composed).mpr ⟨hf, hn⟩
    · exact composed_pair hf hn
  · exact composed_pair hf hn

theorem composed_or (hf : first.Composed) (hn : next.Composed) : (first.or next).Composed := by
  unfold or
  split
  · exact (forall_extend Composed).mpr ⟨hf, hn⟩
  · refine (forall_extend Composed).mpr ⟨?_, hn⟩
    exact (forall_extend Composed).mpr ⟨fun i => i.elim0, hf⟩

theorem composed_operate (h : validator.Composed) (operation : Operation validator.Operand) :
    (validator.operate operation).Composed := by
  cases validator <;> exact h

theorem composed_withHandle (h : validator.Composed) (handle : Option Metadata.Handle) :
    (validator.withHandle handle).Composed := by
  cases validator <;> exact h

end Composed

/-! ## What has to be awaited -/

section RequiresAsync

variable {validator first next : Validator}

/-- Carrying an operation over to one more element does not change whether it has to be awaited. -/
theorem isAsync_widen {n : Nat} (operation : Operation (Vector Value n)) :
    operation.widen.isAsync = operation.isAsync := by
  cases operation <;> rfl

/-- **A tuple that grows has to be awaited for its old operations as before.** -/
theorem isAsync_pipeline_widen {n : Nat} (pipeline : Pipeline (Vector Value n)) :
    pipeline.widen.isAsync = pipeline.isAsync := by
  simp only [Pipeline.widen, Pipeline.isAsync, List.any_map]
  exact congrArg pipeline.operations.any (funext isAsync_widen)

theorem someRequireAsync_extend {n : Nat} {parts : Fin n → Validator} {last : Validator} :
    someRequireAsync (extend parts last) = (someRequireAsync parts || last.requiresAsync) := by
  rw [Bool.eq_iff_iff, Bool.or_eq_true, someRequireAsync_iff, someRequireAsync_iff]
  exact exists_extend fun part : Validator => part.requiresAsync = true

theorem requiresAsync_pair :
    (pair first next).requiresAsync = (first.requiresAsync || next.requiresAsync) := by
  rw [pair, requiresAsync_tuple, someRequireAsync_extend, someRequireAsync_extend]
  rfl

/-- A tuple that grows has to be awaited for what it had and for the new position. -/
theorem requiresAsync_and :
    (first.and next).requiresAsync = (first.requiresAsync || next.requiresAsync) := by
  unfold and
  split
  · split
    · rw [requiresAsync_tuple, requiresAsync_tuple, someRequireAsync_extend, isAsync_pipeline_widen,
        Bool.or_assoc]
    · exact requiresAsync_pair
  · exact requiresAsync_pair

/-- A union that grows has to be awaited for what it had and for the new alternative. -/
theorem requiresAsync_or :
    (first.or next).requiresAsync = (first.requiresAsync || next.requiresAsync) := by
  unfold or
  split
  · rw [requiresAsync_union, requiresAsync_union, someRequireAsync_extend, Bool.or_assoc]
  · rw [requiresAsync_union, someRequireAsync_extend, someRequireAsync_extend]
    rfl

/-- One more operation has to be awaited if it is an asynchronous check. -/
theorem requiresAsync_operate (h : validator.Composed) (operation : Operation validator.Operand) :
    (validator.operate operation).requiresAsync
      = (validator.requiresAsync || operation.isAsync) := by
  cases validator with
  | custom behaviour core => exact h.elim
  | leaf type core => exact Pipeline.isAsync_push _ _
  | _ =>
    simp only [operate, requiresAsync, Core.push, Pipeline.isAsync_push]
    ac_rfl

theorem requiresAsync_withHandle (handle : Option Metadata.Handle) :
    (validator.withHandle handle).requiresAsync = validator.requiresAsync := by
  cases validator <;> rfl

end RequiresAsync

/-! ## Builder calls -/

/-- **Validators obtained by builder calls.**  `Assembled added validator` says that `validator` is
obtained from the forms of this library by builder calls, and that `added` tells whether one of
these calls added an asynchronous check to it or to a validator that it contains. -/
inductive Assembled : Bool → Validator → Prop
  /-- A leaf. -/
  | leaf (type : LeafType) : Assembled false (ofType type)
  /-- The union of nothing. -/
  | noAlternative : Assembled false noAlternative
  /-- A list that takes no handle over. -/
  | bareList {added : Bool} {element : Validator} (h : Assembled added element) :
    Assembled added (list element .blank)
  /-- A nullable that takes no handle over. -/
  | bareNullable {added : Bool} {inner : Validator} (h : Assembled added inner) :
    Assembled added (nullable inner none .blank)
  /-- A tuple made at once. -/
  | ofElements {arity : Nat} {added : Fin arity → Bool} {elements : Fin arity → Validator}
    (h : ∀ i, Assembled (added i) (elements i)) :
    Assembled ((List.ofFn added).any id) (ofElements elements)
  /-- A second stage. -/
  | thenTo {added added' : Bool} {input output : Validator} (conversion : Conversion)
    (hi : Assembled added input) (ho : Assembled added' output) :
    Assembled (added || added') (input.thenTo conversion output)
  /-- A list. -/
  | many {added : Bool} {element : Validator} (h : Assembled added element) :
    Assembled added element.many
  /-- A nullable. -/
  | orNull {added : Bool} {inner : Validator} (h : Assembled added inner) :
    Assembled added inner.orNull
  /-- A nullable with a default. -/
  | orDefault {added : Bool} {inner : Validator} (default : Value) (h : Assembled added inner) :
    Assembled added (inner.orDefault default)
  /-- Another default. -/
  | withDefault {added : Bool} {base changed : Validator} (default : Value)
    (h : Assembled added base) (hd : base.withDefault? default = some changed) :
    Assembled added changed
  /-- One more position. -/
  | and {added added' : Bool} {first next : Validator} (hf : Assembled added first)
    (hn : Assembled added' next) : Assembled (added || added') (first.and next)
  /-- One more alternative. -/
  | or {added added' : Bool} {first next : Validator} (hf : Assembled added first)
    (hn : Assembled added' next) : Assembled (added || added') (first.or next)
  /-- One more operation. -/
  | operate {added : Bool} {base : Validator} (h : Assembled added base)
    (operation : Operation base.Operand) :
    Assembled (added || operation.isAsync) (base.operate operation)
  /-- A metadata entry. -/
  | annotate {added : Bool} {base : Validator} (h : Assembled added base)
    (scope : Metadata.Scope) (entry : Metadata.Entry) (store : Metadata.Store) :
    Assembled added (base.annotate scope entry store).1
  /-- A metadata key. -/
  | bindTo {added : Bool} {base : Validator} (h : Assembled added base)
    (handle : Metadata.Handle) : Assembled added (base.bindTo handle)

namespace Assembled

variable {added : Bool} {validator : Validator}

/-- **What builder calls make is composed.** -/
theorem composed (h : Assembled added validator) : validator.Composed := by
  induction h with
  | leaf type => trivial
  | noAlternative => exact fun i => i.elim0
  | bareList _ ih => exact ih
  | bareNullable _ ih => exact ih
  | ofElements _ ih => exact ih
  | thenTo conversion _ _ ihi iho => exact ⟨ihi, iho⟩
  | many _ ih => exact ih
  | orNull _ ih => exact ih
  | orDefault default _ ih => exact ih
  | @withDefault _ base _ default _ hd ih =>
    cases base with
    | nullable inner old core =>
      cases hd
      exact ih
    | _ => cases hd
  | and _ _ ihf ihn => exact composed_and ihf ihn
  | or _ _ ihf ihn => exact composed_or ihf ihn
  | operate _ operation ih => exact composed_operate ih operation
  | annotate _ scope entry store ih => exact composed_withHandle ih _
  | bindTo _ handle ih => exact composed_withHandle ih _

/-- **A validator has to be awaited exactly if a builder call added an asynchronous check** to it
or to a validator that it contains. -/
theorem requiresAsync_eq (h : Assembled added validator) : validator.requiresAsync = added := by
  induction h with
  | leaf type => rfl
  | noAlternative => rfl
  | bareList _ ih => exact ih
  | bareNullable _ ih => exact ih
  | ofElements _ ih =>
    rw [Validator.ofElements, requiresAsync_tuple, someRequireAsync]
    simp only [ih]
    rfl
  | thenTo conversion _ _ ihi iho =>
    rw [← ihi, ← iho]
    rfl
  | many _ ih => exact ih
  | orNull _ ih => exact ih
  | orDefault default _ ih => exact ih
  | @withDefault _ base _ default _ hd ih =>
    cases base with
    | nullable inner old core =>
      cases hd
      exact ih
    | _ => cases hd
  | and _ _ ihf ihn => rw [requiresAsync_and, ihf, ihn]
  | or _ _ ihf ihn => rw [requiresAsync_or, ihf, ihn]
  | operate h operation ih => rw [requiresAsync_operate h.composed, ih]
  | annotate _ scope entry store ih => rw [← ih]; exact requiresAsync_withHandle _
  | bindTo _ handle ih => rw [← ih]; exact requiresAsync_withHandle _

end Assembled

end Validator

end Conform
