import Conform.Validator.Action

set_option autoImplicit false

/-!
# Transformations as data

A small language of functions that replace a JSON value, for transformations that are described and
not programmed.  A function that does not apply to a value leaves it as it is.

## Main definitions

* `Conform.Script.Edit`: the functions.
* `Conform.Script.Edit.change`: what a function does with a value and with a float.
-/

namespace Conform.Script

/-- A function that replaces a JSON value. -/
inductive Edit where
  | keep
  | panics
  | set (value : Value)
  | add (summand : Value)
  | multiply (factor : Value)
  /-- Turns the letters `a` to `z` of a text into capitals. -/
  | capitals
  | append (text : String)
  /-- Turns a text or an array around. -/
  | reverse
  | push (item : Value)
  | dropFirst
  | negate
  /-- Leaves `null` alone. -/
  | onPresent (edit : Edit)

/-- Combines two numbers: as signed 64-bit words, wrapping around, if both fit one, else as
floats. -/
def combine (onWords : Int64 → Int64 → Int64) (onFloats : Float → Float → Float)
    (value other : Value) : Value :=
  match value.toInt64?, other.toInt64? with
  | some a, some b => .int (onWords a b).toInt
  | _, _ => match value.toFloat?, other.toFloat? with
    | some a, some b => .ofFloat (onFloats a b)
    | _, _ => value

/-- A value as a float; what is no number counts as NaN. -/
def asFloat (value : Value) : Float := value.toFloat?.getD (0.0 / 0.0)

namespace Edit

/-- The name of a function among the calls of a run. -/
def label : Edit → String
  | keep => "id"
  | panics => "panic"
  | set _ => "set"
  | add _ => "add"
  | multiply _ => "mul"
  | capitals => "upper"
  | append _ => "append"
  | reverse => "rev"
  | push _ => "push"
  | dropFirst => "drop_first"
  | negate => "not"
  | onPresent _ => "on_some"

/-- What a function makes of a value. -/
def onValue : Edit → Value → Reply Value
  | keep, value => .answer value
  | panics, _ => .panicked
  | set value, _ => .answer value
  | add other, value => .answer (combine (· + ·) (· + ·) value other)
  | multiply other, value => .answer (combine (· * ·) (· * ·) value other)
  | capitals, .str s => .answer (.str (String.ofList (s.toList.map Char.toUpper)))
  | append text, .str s => .answer (.str (s ++ text))
  | reverse, .str s => .answer (.str (String.ofList s.toList.reverse))
  | reverse, .arr items => .answer (.arr items.reverse)
  | push item, .arr items => .answer (.arr (items ++ [item]))
  | dropFirst, .arr items => .answer (.arr (items.drop 1))
  | negate, .bool b => .answer (.bool !b)
  | onPresent _, .null => .answer .null
  | onPresent edit, value => edit.onValue value
  | _, value => .answer value

/-- What a function makes of a float. -/
def onNumber : Edit → Float → Reply Float
  | panics, _ => .panicked
  | set value, _ => .answer (asFloat value)
  | add other, x => .answer (x + asFloat other)
  | multiply other, x => .answer (x * asFloat other)
  | _, x => .answer x

/-- What a function does. -/
def change (edit : Edit) : Change := ⟨edit.onValue, edit.onNumber⟩

/-- The transformation that a function makes. -/
def action (edit : Edit) : Action := .transformation edit.label edit.change

end Edit

end Conform.Script
