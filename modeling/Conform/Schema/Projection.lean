import Conform.Json.Pointer
import Conform.Schema.Options
import Conform.Validator.Basic

set_option autoImplicit false

/-!
# Schemas of validators

The JSON Schema of a validator is made of the schemas of its parts, the keywords that its own
checks stand for, a list of the checks that stand for none, and its metadata entry.

A check stands for a keyword if its name is one of the known names and it has a parameter; the
parameter becomes the keyword's value, and of two checks for one keyword the later one is shown.

## Main definitions

* `Conform.Schema.keyword?`: the keyword that a check name stands for.
* `Conform.Schema.Constraints`: what a pipeline contributes to a schema.
* `Conform.Validator.fragment`: the schema of a validator.
* `Conform.Validator.document`: the schema as a document.
-/

namespace Conform

namespace Schema

/-- The keyword that a check name stands for. -/
def keyword? (check : String) : Option String :=
  if check = "min_length" then some "minLength"
  else if check = "max_length" then some "maxLength"
  else if check = "pattern" then some "pattern"
  else if check = "min" then some "minimum"
  else if check = "max" then some "maximum"
  else if check = "min_items" then some "minItems"
  else if check = "max_items" then some "maxItems"
  else none

/-- What a pipeline contributes to a schema. -/
structure Constraints where
  /-- Keywords with their values. -/
  keywords : Members Value
  /-- The checks that stand for no keyword, in order. -/
  unmapped : List Value

namespace Constraints

/-- What no operations contribute. -/
def nothing : Constraints := ⟨[], []⟩

/-- The list entry of a check that stands for no keyword. -/
def listed (name message : String) (isAsync : Bool) : Value :=
  .object ([("name", .str name), ("message", .str message)]
    ++ if isAsync then [("async", .bool true)] else [])

/-- Adds what one operation contributes. -/
def add (constraints : Constraints) : Operation.Summary → Constraints
  | .check name message param =>
    match keyword? name, param with
    | some keyword, some value =>
      { constraints with keywords := Members.insert constraints.keywords keyword value }
    | _, _ => { constraints with unmapped := constraints.unmapped ++ [listed name message false] }
  | .asyncCheck name message =>
    { constraints with unmapped := constraints.unmapped ++ [listed name message true] }
  | .transformation => constraints

/-- What operations contribute, in order. -/
def ofSummaries (summaries : List Operation.Summary) : Constraints := summaries.foldl add nothing

/-- Lays constraints over a schema: the keywords, and then the list of the other checks if it is
wanted and not empty. -/
def layOver (options : Options) (constraints : Constraints) (schema : Value) : Value :=
  let schema := schema.overlay constraints.keywords
  if options.includeChecks && !constraints.unmapped.isEmpty then
    schema.overlay [("x-checks", .arr constraints.unmapped)]
  else schema

end Constraints

end Schema

namespace LeafType

/-- The schema of a leaf type. -/
def fragment : LeafType → Value
  | any => .object []
  | type => .object [("type", .str type.name)]

end LeafType

namespace Validator

open Schema

/-- The place in its own schema that the operations of a validator constrain. -/
def constrained : Validator → String
  | pipe .. => "/x-output"
  | custom behaviour _ => behaviour.constrained
  | _ => ""

/-- Completes the schema of a validator: its operations constrain the place they are about, and its
metadata entry is laid over the whole. -/
def complete (options : Options) (store : Metadata.Store) (validator : Validator)
    (described : Value) : Value :=
  let constraints := Constraints.ofSummaries validator.summaries
  let constrainedSchema :=
    described.updateAtOrWhole (constraints.layOver options) validator.constrained
  match options.includeMetadata, validator.shown? store with
  | true, some entry => constrainedSchema.overlay entry.toObject
  | _, _ => constrainedSchema

/-- The schema of a validator. -/
def fragment (options : Options) (store : Metadata.Store) : Validator → Value
  | leaf type core => complete options store (leaf type core) type.fragment
  | list element core =>
    complete options store (list element core)
      (.object [("type", .str "array"), ("items", element.fragment options store)])
  | nullable inner default core =>
    complete options store (nullable inner default core)
      (.object ([("anyOf", .arr [inner.fragment options store, .object [("type", .str "null")]])]
        ++ (default.map fun value => ("default", value)).toList))
  | tuple arity elements core =>
    complete options store (tuple arity elements core)
      (.object [("type", .str "array"),
        ("prefixItems", .arr (List.ofFn fun i => (elements i).fragment options store)),
        ("minItems", .int arity), ("maxItems", .int arity)])
  | union count alternatives core =>
    complete options store (union count alternatives core)
      (.object [("anyOf", .arr (List.ofFn fun i => (alternatives i).fragment options store))])
  | pipe input output conversion core =>
    complete options store (pipe input output conversion core)
      ((input.fragment options store).overlay [("x-output", output.fragment options store)])
  | custom behaviour core => complete options store (custom behaviour core) behaviour.fragment

/-- The schema of a validator as a document, which names its dialect if it is an object. -/
def document (options : Options) (store : Metadata.Store) (validator : Validator) : Value :=
  let schema := validator.fragment options store
  match options.dialect with
  | some dialect => schema.set "$schema" (.str dialect)
  | none => schema

end Validator

end Conform
