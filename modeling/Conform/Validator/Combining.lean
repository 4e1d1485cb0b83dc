import Conform.Validator.Basic

set_option autoImplicit false

/-!
# Validators made from validators

A validator that is wrapped, listed, put in a tuple or made an alternative hands its metadata handle
on to what is made of it; a pipe starts without one.

## Main definitions

* `Conform.Validator.orNull`, `Conform.Validator.orDefault`, `Conform.Validator.many`: what a
  validator takes or `null`, and arrays of what it takes.
* `Conform.Validator.and`, `Conform.Validator.or`: one more position, one more alternative.
* `Conform.Validator.thenTo`: two validators with a conversion between them.
* `Conform.Validator.annotate`, `Conform.Validator.bindTo`: metadata entries and keys.
-/

namespace Conform

namespace Validator

/-- One more position after those of a function on positions. -/
def extend {α : Type} {n : Nat} (parts : Fin n → α) (last : α) : Fin (n + 1) → α :=
  fun i => if h : i.val < n then parts ⟨i.val, h⟩ else last

/-- Changing all parts changes the last one among them. -/
theorem map_extend {α β : Type} {n : Nat} (f : α → β) (parts : Fin n → α) (last : α) :
    (fun i => f (extend parts last i)) = extend (fun i => f (parts i)) (f last) := by
  funext i
  exact apply_dite f _ _ _

/-- The only function on no positions. -/
def noParts {α : Type} : Fin 0 → α := fun i => i.elim0

/-- A leaf without operations. -/
def ofType (type : LeafType) : Validator := leaf type .blank

/-- What a validator takes, or `null`. -/
def orNull (inner : Validator) : Validator := nullable inner none (.holding inner.handle?)

/-- What a validator takes, or `null`, which stands for a default. -/
def orDefault (default : Value) (inner : Validator) : Validator :=
  nullable inner (some default) (.holding inner.handle?)

/-- Sets what `null` stands for. -/
def withDefault? (default : Value) : Validator → Option Validator
  | nullable inner _ core => some (nullable inner (some default) core)
  | _ => none

/-- Arrays of what a validator takes. -/
def many (element : Validator) : Validator := list element (.holding element.handle?)

/-- Arrays with a validator for each position. -/
def ofElements {arity : Nat} (elements : Fin arity → Validator) : Validator :=
  tuple arity elements .blank

/-- The largest number of positions of a tuple. -/
def maxArity : Nat := 6

/-- Two validators for two positions. -/
def pair (first second : Validator) : Validator :=
  tuple 2 (extend (extend noParts first) second) (.holding first.handle?)

/-- One more position.  A tuple that has room grows by it, its operations staying with the positions
they were made for; anything else becomes the first of two positions. -/
def and (validator next : Validator) : Validator :=
  match validator with
  | tuple arity elements core =>
    if arity < maxArity then
      tuple (arity + 1) (extend elements next) ⟨core.pipeline.widen, core.handle⟩
    else pair validator next
  | _ => pair validator next

/-- The union that no alternative was added to. -/
def noAlternative : Validator := union 0 noParts .blank

/-- One more alternative.  A union takes it in; anything else becomes the first of two
alternatives. -/
def or (validator next : Validator) : Validator :=
  match validator with
  | union count alternatives core => union (count + 1) (extend alternatives next) core
  | _ => union 2 (extend (extend noParts validator) next) (.holding validator.handle?)

/-- What a validator produces, converted and then taken by another one. -/
def thenTo (conversion : Conversion) (input output : Validator) : Validator :=
  pipe input output conversion .blank

/-- A validator written by hand. -/
def byHand (behaviour : Custom) : Validator := custom behaviour .blank

/-! ## Metadata -/

/-- Writes an entry about a validator in a registry: under the key that the validator has, or under
a new one.  The validator then looks its entry up in that registry. -/
def annotate (scope : Metadata.Scope) (entry : Metadata.Entry) (validator : Validator)
    (store : Metadata.Store) : Validator × Metadata.Store :=
  let (key, store) := match validator.handle? with
    | some handle => (handle.key, store)
    | none => store.generate
  (validator.withHandle (some ⟨scope, key⟩), store.write scope key entry)

/-- Lets a validator show the entry, present or future, under a key. -/
def bindTo (handle : Metadata.Handle) (validator : Validator) : Validator :=
  validator.withHandle (some handle)

end Validator

end Conform
