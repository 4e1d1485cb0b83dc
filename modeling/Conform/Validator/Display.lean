import Conform.Decimal.Layout
import Conform.Text.Quoted
import Conform.Validator.Basic

set_option autoImplicit false

/-!
# Validators as text

A one-line text that shows what a validator is made of, for whoever writes programs with it.

## Main definitions

* `Conform.Value.display`, `Conform.Operation.Summary.display`: parameters and operations.
* `Conform.Validator.display`: a validator.
-/

namespace Conform

namespace Display

/-- Texts with commas between them. -/
def commas (parts : List String) : String := ", ".intercalate parts

/-- Named fields in curly brackets behind a name; an ellipsis tells that some are not shown. -/
def record (name : String) (fields : List (String × String)) (abridged : Bool) : String :=
  let shown := fields.map fun (field, text) => field ++ ": " ++ text
  let shown := if abridged then shown ++ [".."] else shown
  name ++ " \x7b " ++ commas shown ++ " \x7d"

end Display

open Display
open Text (quoted)

namespace Value

mutual

/-- A value as text. -/
def display : Value → String
  | null => "Null"
  | bool true => "Bool(true)"
  | bool false => "Bool(false)"
  | int i => "Number(" ++ toString i ++ ")"
  | float x => "Number(" ++ Decimal.number.text x ++ ")"
  | str s => "String(" ++ quoted s ++ ")"
  | arr items => "Array [" ++ commas (displayItems items) ++ "]"
  | obj members => "Object \x7b" ++ commas (displayMembers members) ++ "\x7d"

/-- Each item as text. -/
def displayItems : List Value → List String
  | [] => []
  | item :: rest => item.display :: displayItems rest

/-- Each member as text. -/
def displayMembers : List (String × Value) → List String
  | [] => []
  | (name, member) :: rest => (quoted name ++ ": " ++ member.display) :: displayMembers rest

end

end Value

namespace Operation.Summary

/-- An operation as text. -/
def display : Summary → String
  | check name message param =>
    let shown := match param with
      | some value => "Some(" ++ value.display ++ ")"
      | none => "None"
    record "Check" [("name", quoted name), ("message", quoted message), ("param", shown)] true
  | asyncCheck name message =>
    record "AsyncCheck" [("name", quoted name), ("message", quoted message)] true
  | transformation => "Transformation \x7b .. \x7d"

end Operation.Summary

namespace Validator

/-- The own operations of a validator as text. -/
def displayPipeline (validator : Validator) : String :=
  "[" ++ commas (validator.summaries.map Operation.Summary.display) ++ "]"

/-- A validator as text.  A union shows only the kinds of its alternatives. -/
def display : Validator → String
  | leaf type core =>
    record "Leaf" [("kind", quoted type.name), ("pipeline", (leaf type core).displayPipeline)] false
  | list element core =>
    record "ListOf"
      [("element", element.display), ("pipeline", (list element core).displayPipeline)] false
  | nullable inner default core =>
    record "Nullable"
      [("inner", inner.display), ("has_default", if default.isSome then "true" else "false"),
        ("pipeline", (nullable inner default core).displayPipeline)] false
  | tuple arity elements core =>
    let shown := List.ofFn fun i => (elements i).display
    let closing := if arity = 1 then ",)" else ")"
    record "Tuple"
      [("elements", "(" ++ commas shown ++ closing),
        ("pipeline", (tuple arity elements core).displayPipeline)] false
  | union count alternatives core =>
    let kinds := List.ofFn fun i => quoted (alternatives i).kind
    record "Union"
      [("alternatives", "[" ++ commas kinds ++ "]"),
        ("pipeline", (union count alternatives core).displayPipeline)] false
  | pipe input output conversion core =>
    record "Pipe"
      [("input", input.display), ("output", output.display),
        ("pipeline", (pipe input output conversion core).displayPipeline)] true
  | custom _ _ => "Raw"

end Validator

end Conform
