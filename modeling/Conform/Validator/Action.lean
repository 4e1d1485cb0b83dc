import Conform.Validator.Basic

set_option autoImplicit false

/-!
# Operations on JSON forms

A user describes an operation once, by functions on JSON values, and can give it to any validator.
What the validator's operations work on is handed to the functions in its JSON form; a replacement
that does not fit leaves things as they are.  A leaf of numbers has no exact JSON form for what is
not finite, so its transformations work on the float itself.

## Main definitions

* `Conform.Change`: a function that replaces a value, given both ways.
* `Conform.Subject`: what operations work on, with its JSON form.
* `Conform.Action`: an operation described by functions on JSON values.
* `Conform.Action.operation`: the operation it stands for.
-/

namespace Conform

/-- A function that replaces a value. -/
structure Change where
  /-- What it does with a JSON value. -/
  onValue : Value → Reply Value
  /-- What it does with a float. -/
  onNumber : Float → Reply Float

/-- What operations work on. -/
class Subject (α : Type) where
  /-- The JSON form. -/
  view : α → Value
  /-- What a change makes of it. -/
  change : Change → α → Reply α

namespace Subject

/-- A subject that changes by way of its JSON form.  If `restore` cannot read the replacement,
nothing changes. -/
abbrev viaValue {α : Type} (view : α → Value) (restore : Value → Option α) : Subject α where
  view := view
  change change a := (change.onValue (view a)).map fun value => (restore value).getD a

instance : Subject Value := viaValue id some

instance : Subject (List Value) := viaValue .arr Value.items?

instance {n : Nat} : Subject (Vector Value n) :=
  viaValue (fun values => .arr values.toList) fun value => value.items?.bind (Value.exactly? n)

/-- What the operations of a leaf work on. -/
instance ofLeaf : (type : LeafType) → Subject type.Carrier
  | .number => ⟨LeafType.number.toValue, fun change x => change.onNumber x⟩
  | .string => viaValue LeafType.string.toValue LeafType.string.read?
  | .integer => viaValue LeafType.integer.toValue LeafType.integer.read?
  | .boolean => viaValue LeafType.boolean.toValue LeafType.boolean.read?
  | .any => viaValue LeafType.any.toValue LeafType.any.read?

end Subject

/-- An operation described by functions on JSON values. -/
inductive Action where
  /-- A check; its predicate sees the JSON form. -/
  | check (name message : String) (param : Option Value) (predicate : Value → Reply Bool)
  /-- A check whose answer has to be awaited. -/
  | asyncCheck (name message : String) (predicate : Value → Reply Future)
  /-- A transformation with the label it has among the calls of a run. -/
  | transformation (label : String) (change : Change)

namespace Action

/-- The name of a check that was given none. -/
def refinementName : String := "refine"

/-- The operation that an action stands for on some subject. -/
def operation {α : Type} [Subject α] : Action → Operation α
  | check name message param predicate =>
    .check ⟨name, message, param, .user, Subject.view, fun a => predicate (Subject.view a)⟩
  | asyncCheck name message predicate =>
    .asyncCheck ⟨name, message, Subject.view, fun a => predicate (Subject.view a)⟩
  | transformation label change =>
    .transformation ⟨label, .user, Subject.view, Subject.change change⟩

end Action

namespace Validator

/-- Adds an action after the operations of a validator. -/
def act (action : Action) : Validator → Validator
  | leaf type core => leaf type (core.push (@action.operation _ (Subject.ofLeaf type)))
  | list element core => list element (core.push action.operation)
  | nullable inner default core => nullable inner default (core.push action.operation)
  | tuple arity elements core => tuple arity elements (core.push action.operation)
  | union count alternatives core => union count alternatives (core.push action.operation)
  | pipe input output conversion core => pipe input output conversion (core.push action.operation)
  | custom behaviour core => custom behaviour (core.push action.operation)

end Validator

end Conform
