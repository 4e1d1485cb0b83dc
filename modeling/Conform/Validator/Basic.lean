import Conform.Metadata.Registry
import Conform.Pipeline

set_option autoImplicit false

/-!
# Validators

A validator takes a JSON value, decides whether it is of the right form, and produces a value from
it.  Leaves take single values; a list, a tuple, a union, a nullable and a pipe are composed of
other validators.  Each has operations of its own and may hold a handle to a metadata entry.

The parts of a tuple and of a union are functions on positions, so that a validator is plain
inductive data and every definition on it is a structural recursion.

## Main definitions

* `Conform.LeafType`: the types of leaves, each with the carrier its operations work on.
* `Conform.Core`: what every validator has besides its parts.
* `Conform.Validator`: the validators.
* `Conform.Validator.requiresAsync`: whether a validator has to be awaited.
-/

namespace Conform

/-! ## Leaves -/

/-- The types of leaves. -/
inductive LeafType where
  | string | integer | number | boolean | any
  deriving DecidableEq, Repr

namespace LeafType

/-- The values that the operations of a leaf work on. -/
abbrev Carrier : LeafType → Type
  | string => String
  | integer => Int64
  | number => Float
  | boolean => Bool
  | any => Value

/-- The name of a leaf type in messages and schemas. -/
def name : LeafType → String
  | string => "string"
  | integer => "integer"
  | number => "number"
  | boolean => "boolean"
  | any => "any"

/-- Takes a value of the right kind.  An integer has to fit a signed 64-bit word, a number may be
an integer as well, and nothing is converted between kinds otherwise. -/
def read? : (type : LeafType) → Value → Option type.Carrier
  | string, .str s => some s
  | integer, value => value.toInt64?
  | number, value => value.toFloat?
  | boolean, .bool b => some b
  | any, value => some value
  | string, _ => none
  | boolean, _ => none

/-- The JSON form of what a leaf holds. -/
def toValue : (type : LeafType) → type.Carrier → Value
  | string, s => .str s
  | integer, n => .int n.toInt
  | number, x => Value.ofFloat x
  | boolean, b => .bool b
  | any, value => value

/-- A leaf of texts takes texts as they are. -/
theorem eq_str_of_read? {value : Value} {s : String}
    (h : read? string value = some s) : value = .str s := by
  cases value with
  | str s' => exact congrArg Value.str (Option.some.inj h)
  | _ => exact nomatch h

/-- A leaf holds what it read, unless an integer was read as a float. -/
theorem toValue_of_read? {type : LeafType} (ht : type ≠ .number) {value : Value}
    {a : type.Carrier} (h : type.read? value = some a) : type.toValue a = value := by
  cases type with
  | string => exact (eq_str_of_read? h).symm
  | integer => exact (Value.toInt_of_toInt64? h).symm
  | number => exact absurd rfl ht
  | boolean =>
    cases value with
    | bool b => exact congrArg Value.bool (Option.some.inj h).symm
    | _ => exact nomatch h
  | any => exact (Option.some.inj h).symm

end LeafType

/-! ## Parts of validators -/

/-- What every validator has besides its parts: operations of its own, on values of type `α`, and
perhaps a handle to a metadata entry. -/
structure Core (α : Type) where
  /-- The operations. -/
  pipeline : Pipeline α
  /-- The handle. -/
  handle : Option Metadata.Handle

namespace Core

variable {α : Type}

/-- No operations and no handle. -/
def blank : Core α := ⟨.empty, none⟩

/-- No operations, and the handle of whatever is wrapped. -/
def holding (handle : Option Metadata.Handle) : Core α := ⟨.empty, handle⟩

/-- Adds an operation at the end. -/
def push (core : Core α) (operation : Operation α) : Core α :=
  { core with pipeline := core.pipeline.push operation }

end Core

/-- The function between the two stages of a pipe. -/
structure Conversion where
  /-- The name of the function among the calls of a run. -/
  label : String
  /-- The function; it may refuse with a reason. -/
  apply : Value → Reply (Except String Value)

/-- The converted value, or why there is none. -/
def Conversion.convert (conversion : Conversion) (value : Value) : Except String Value :=
  match conversion.apply value with
  | .answer result => result
  | .panicked => .error "conversion panicked"

/-- A validator that was written by hand.  Its operations show in its schema only. -/
structure Custom where
  /-- The kind it gives as its own. -/
  kind : String
  /-- What it has to say about a value. -/
  respond : Strategy → Value → Except Fault (Outcome Value)
  /-- Whether it wants to be awaited. -/
  isAsync : Bool
  /-- Its schema. -/
  fragment : Value
  /-- The place in its schema that its operations constrain. -/
  constrained : String

/-- A validator that has the same to say about every value. -/
def Custom.constant (kind : String) (response : Except Fault (Outcome Value)) (isAsync : Bool)
    (fragment : Value) (constrained : String) : Custom :=
  ⟨kind, fun _ _ => response, isAsync, fragment, constrained⟩

/-- A validator. -/
inductive Validator where
  /-- A single value of some type. -/
  | leaf (type : LeafType) (core : Core type.Carrier)
  /-- An array whose items are all taken by one validator.  The operations see the items as they
  come in. -/
  | list (element : Validator) (core : Core (List Value))
  /-- What another validator takes, or `null`, which stands for the default. -/
  | nullable (inner : Validator) (default : Option Value) (core : Core Value)
  /-- An array of a fixed length, with a validator for each position. -/
  | tuple (arity : Nat) (elements : Fin arity → Validator) (core : Core (Vector Value arity))
  /-- What the first of several validators that takes it makes of it. -/
  | union (count : Nat) (alternatives : Fin count → Validator) (core : Core Value)
  /-- What one validator produces, converted and then taken by another one. -/
  | pipe (input output : Validator) (conversion : Conversion) (core : Core Value)
  /-- A validator that was written by hand. -/
  | custom (behaviour : Custom) (core : Core Value)

namespace Validator

/-- The kind that faults and messages name. -/
def kind : Validator → String
  | leaf type _ => type.name
  | list .. => "list"
  | nullable .. => "nullable"
  | tuple .. => "tuple"
  | union .. => "union"
  | pipe .. => "pipe"
  | custom behaviour _ => behaviour.kind

/-- The handle to the metadata entry. -/
def handle? : Validator → Option Metadata.Handle
  | leaf _ core => core.handle
  | list _ core => core.handle
  | nullable _ _ core => core.handle
  | tuple _ _ core => core.handle
  | union _ _ core => core.handle
  | pipe _ _ _ core => core.handle
  | custom _ core => core.handle

/-- The same validator with another handle. -/
def withHandle (handle : Option Metadata.Handle) : Validator → Validator
  | leaf type core => leaf type { core with handle }
  | list element core => list element { core with handle }
  | nullable inner default core => nullable inner default { core with handle }
  | tuple arity elements core => tuple arity elements { core with handle }
  | union count alternatives core => union count alternatives { core with handle }
  | pipe input output conversion core => pipe input output conversion { core with handle }
  | custom behaviour core => custom behaviour { core with handle }

/-- What the validator's own operations show of themselves. -/
def summaries : Validator → List Operation.Summary
  | leaf _ core => core.pipeline.summaries
  | list _ core => core.pipeline.summaries
  | nullable _ _ core => core.pipeline.summaries
  | tuple _ _ core => core.pipeline.summaries
  | union _ _ core => core.pipeline.summaries
  | pipe _ _ _ core => core.pipeline.summaries
  | custom _ core => core.pipeline.summaries

/-- Whether the operations of two validators can be one and the same pipeline.  Pushing leaves the
old pipeline as it is, so that pipelines of different lengths never are. -/
def couldShareOperations (left right : Validator) : Bool :=
  left.summaries.length == right.summaries.length

/-- Whether a check of the validator or of one of its parts has to be awaited. -/
def requiresAsync : Validator → Bool
  | leaf _ core => core.pipeline.isAsync
  | list element core => core.pipeline.isAsync || element.requiresAsync
  | nullable inner _ core => core.pipeline.isAsync || inner.requiresAsync
  | tuple _ elements core =>
    core.pipeline.isAsync || (List.ofFn fun i => (elements i).requiresAsync).any id
  | union _ alternatives core =>
    core.pipeline.isAsync || (List.ofFn fun i => (alternatives i).requiresAsync).any id
  | pipe input output _ core =>
    core.pipeline.isAsync || input.requiresAsync || output.requiresAsync
  | custom behaviour _ => behaviour.isAsync

/-- Whether one of several validators has to be awaited. -/
def someRequireAsync {count : Nat} (parts : Fin count → Validator) : Bool :=
  (List.ofFn fun i => (parts i).requiresAsync).any id

/-- The metadata entry that the validator shows now. -/
def shown? (store : Metadata.Store) (validator : Validator) : Option Metadata.Entry :=
  validator.handle?.bind store.shown?

end Validator

end Conform
