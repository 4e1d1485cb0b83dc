import Conform.Script.Predicate
import Conform.Text.Located
import Conform.Validator.Basic

set_option autoImplicit false

/-!
# Conversions as data

A small language of functions from JSON values to JSON values that may refuse, for the conversions
of pipes that are described and not programmed.

## Main definitions

* `Conform.Script.parseInteger`: an integer read from text, and why a text is none.
* `Conform.Script.Converter`: the functions.
* `Conform.Script.Converter.conversion`: the conversion that a function makes.
-/

namespace Conform.Script

/-! ## Integers in texts -/

/-- Why a text is no integer of a signed 64-bit word. -/
inductive IntegerError where
  | empty
  | invalidDigit
  | tooLarge
  | tooSmall
  deriving DecidableEq, Repr

/-- The reason in words. -/
def IntegerError.message : IntegerError → String
  | empty => "cannot parse integer from empty string"
  | invalidDigit => "invalid digit found in string"
  | tooLarge => "number too large to fit in target type"
  | tooSmall => "number too small to fit in target type"

/-- Reads digits behind those that make `read`.  The first digit that is none, or that makes the
number too large or too small, decides. -/
def readDigits (negative : Bool) : Int → List Char → Except IntegerError Int
  | read, [] => .ok read
  | read, c :: rest =>
    if c.isDigit then
      let digit : Int := c.toNat - '0'.toNat
      let next := if negative then 10 * read - digit else 10 * read + digit
      if Value.InWord next then readDigits negative next rest
      else .error (if negative then .tooSmall else .tooLarge)
    else .error .invalidDigit

/-- Reads an integer: digits, with or without a sign. -/
def parseInteger (text : String) : Except IntegerError Int :=
  match text.toList with
  | [] => .error .empty
  | ['+'] => .error .invalidDigit
  | ['-'] => .error .invalidDigit
  | '+' :: digits => readDigits false 0 digits
  | '-' :: digits => readDigits true 0 digits
  | digits => readDigits false 0 digits

/-! ## Texts cut into pieces -/

/-- Cuts a text at every place where `separator`, which is not empty, occurs.  `skip` characters of
a separator still have to be passed over. -/
def cut (separator : List Char) : Nat → List Char → List (List Char)
  | _, [] => [[]]
  | skip + 1, _ :: rest => cut separator skip rest
  | 0, c :: rest =>
    if separator.isPrefixOf (c :: rest) then [] :: cut separator (separator.length - 1) rest
    else match cut separator 0 rest with
      | [] => [[c]]
      | first :: more => (c :: first) :: more

/-- The pieces of a text between separators.  The empty separator stands before, between and after
all characters. -/
def pieces (separator text : String) : List String :=
  if separator = "" then "" :: text.toList.map (fun c => String.ofList [c]) ++ [""]
  else (cut separator.toList 0 text.toList).map String.ofList

/-! ## Conversions -/

/-- A function from JSON values to JSON values that may refuse. -/
inductive Converter where
  | keep
  | parseInt
  | toText
  | length
  | nonzero
  | split (separator : String)
  | wrap
  | duplicate
  | first
  | const (value : Value)
  /-- Divides by zero, so that nothing finite is left. -/
  | ratio
  | fail (reason : String)
  | panics
  /-- Makes something that has no JSON form, for the reason given, which may name a place. -/
  | refuse (reason : String)

namespace Converter

/-- The name of a function among the calls of a run. -/
def label : Converter → String
  | keep => "id"
  | parseInt => "parse_int"
  | toText => "to_text"
  | length => "length"
  | nonzero => "nonzero"
  | split _ => "split"
  | wrap => "wrap"
  | duplicate => "dup"
  | first => "first"
  | const _ => "const"
  | ratio => "ratio"
  | fail _ => "fail"
  | panics => "panic"
  | refuse _ => "refuse"

/-- The refusal of a value that a function is not made for. -/
def unfit (converter : Converter) (value : Value) : Except String Value :=
  .error (converter.label ++ " does not take " ++ value.kind.name)

/-- What a function makes of a value. -/
def apply (converter : Converter) (value : Value) : Reply (Except String Value) :=
  match converter, value with
  | keep, _ => .answer (.ok value)
  | parseInt, .str s => .answer (match parseInteger s with
    | .ok n => .ok (.int n)
    | .error reason => .error reason.message)
  | toText, .str s => .answer (.ok (.str s))
  | toText, .int n => .answer (.ok (.str (toString n)))
  | toText, .bool b => .answer (.ok (.str (if b then "true" else "false")))
  | length, _ => .answer (match length? value with
    | some n => .ok (.int n)
    | none => converter.unfit value)
  | nonzero, _ => .answer (match value.toInt64? with
    | some n => .ok (.bool (n != 0))
    | none => converter.unfit value)
  | split separator, .str s => .answer (.ok (.arr ((pieces separator s).map .str)))
  | wrap, _ => .answer (.ok (.arr [value]))
  | duplicate, _ => .answer (.ok (.arr [value, value]))
  | first, .arr items => .answer (match items with
    | item :: _ => .ok item
    | [] => .error "empty")
  | const result, _ => .answer (.ok result)
  | ratio, _ => .answer (match value.toFloat? with
    | some x => .ok (.ofFloat (x / 0.0))
    | none => converter.unfit value)
  | fail reason, _ => .answer (.error reason)
  | panics, _ => .panicked
  | refuse reason, _ => .answer (.error (Text.Located.ofText reason).toText)
  | _, _ => .answer (converter.unfit value)

/-- The conversion that a function makes. -/
def conversion (converter : Converter) : Conversion := ⟨converter.label, converter.apply⟩

end Converter

end Conform.Script
