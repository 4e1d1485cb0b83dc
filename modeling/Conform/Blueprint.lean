import Conform.Validator.Action
import Conform.Validator.Combining
import Conform.Validator.Refinement

set_option autoImplicit false

/-!
# Blueprints

A blueprint says how a validator is built: what it starts from, and what is done with it step by
step.  Building it makes the validator and carries out what the steps write to the registries, in
the order of the steps.

## Main definitions

* `Conform.Workshop`: the registries, and the validators that were given names.
* `Conform.Blueprint`: the ways to build a validator.
* `Conform.Blueprint.build`: the validator built.
-/

namespace Conform

/-- Where validators are built. -/
structure Workshop where
  /-- The registries. -/
  store : Metadata.Store
  /-- Validators under names, the latest first. -/
  named : List (String × Validator)

namespace Workshop

/-- Nothing was built yet. -/
def empty : Workshop := ⟨.empty, []⟩

/-- The validator that a name was given to last. -/
def find? (workshop : Workshop) (name : String) : Option Validator := workshop.named.lookup name

/-- Gives a name to a validator. -/
def define (workshop : Workshop) (name : String) (validator : Validator) : Workshop :=
  { workshop with named := (name, validator) :: workshop.named }

end Workshop

/-- Why a blueprint cannot be built. -/
inductive BuildError where
  /-- No validator has this name. -/
  | unknownName (name : String)
  /-- A step wants a validator of another form. -/
  | misfit
  deriving DecidableEq, Repr

/-- How a validator is built. -/
inductive Blueprint where
  /-- A leaf. -/
  | leaf (type : LeafType)
  /-- A validator written by hand. -/
  | byHand (behaviour : Custom)
  /-- A validator that has a name. -/
  | named (name : String)
  /-- The union of nothing. -/
  | noAlternative
  /-- A list that takes no metadata handle over. -/
  | bareList (element : Blueprint)
  /-- A nullable that takes no metadata handle over. -/
  | bareNullable (inner : Blueprint)
  /-- A tuple. -/
  | tuple (arity : Nat) (elements : Fin arity → Blueprint)
  /-- Two stages with a conversion between them. -/
  | pipe (input output : Blueprint) (conversion : Conversion)
  | many (element : Blueprint)
  | orNull (inner : Blueprint)
  | orDefault (inner : Blueprint) (default : Value)
  | and (first next : Blueprint)
  | or (first next : Blueprint)
  | withDefault (base : Blueprint) (default : Value)
  | refine (base : Blueprint) (refinement : Refinement)
  | act (base : Blueprint) (action : Action)
  | annotate (base : Blueprint) (scope : Metadata.Scope) (entry : Metadata.Entry)
  | bindTo (base : Blueprint) (handle : Metadata.Handle)

/-- Building in a workshop. -/
abbrev Build (α : Type) := StateT Workshop (Except BuildError) α

namespace Blueprint

/-- The result of a step that may not fit. -/
def fitting {α : Type} : Option α → Build α
  | some a => pure a
  | none => throw .misfit

/-- The validator that a blueprint describes. -/
def build : Blueprint → Build Validator
  | leaf type => pure (.ofType type)
  | byHand behaviour => pure (.byHand behaviour)
  | named name => do
    match (← get).find? name with
    | some validator => pure validator
    | none => throw (.unknownName name)
  | noAlternative => pure .noAlternative
  | bareList element => do
    let element ← element.build
    pure (.list element .blank)
  | bareNullable inner => do
    let inner ← inner.build
    pure (.nullable inner none .blank)
  | tuple _ elements => do
    let built ← (List.ofFn fun i => (elements i).build).mapM id
    pure (.ofElements built.get)
  | pipe input output conversion => do
    let input ← input.build
    let output ← output.build
    pure (input.thenTo conversion output)
  | many element => Validator.many <$> element.build
  | orNull inner => Validator.orNull <$> inner.build
  | orDefault inner default => Validator.orDefault default <$> inner.build
  | and first next => do
    let first ← first.build
    let next ← next.build
    pure (first.and next)
  | or first next => do
    let first ← first.build
    let next ← next.build
    pure (first.or next)
  | withDefault base default => do
    let validator ← base.build
    fitting (validator.withDefault? default)
  | refine base refinement => do
    let validator ← base.build
    fitting (validator.refine? refinement)
  | act base action => Validator.act action <$> base.build
  | annotate base scope entry => do
    let validator ← base.build
    modifyGet fun workshop =>
      let (annotated, store) := validator.annotate scope entry workshop.store
      (annotated, { workshop with store })
  | bindTo base handle => Validator.bindTo handle <$> base.build

end Blueprint

end Conform
