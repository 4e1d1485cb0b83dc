import Conform.Decimal.Layout
import Conform.Json.Value

set_option autoImplicit false

/-!
# Documents as text

A JSON value is printed over several lines: each item and each member on a line of its own, deeper
levels indented, and an array or an object that holds nothing on one line.

## Main definitions

* `Conform.Json.escape`: a character inside a string.
* `Conform.Value.render`: a value as text.
-/

namespace Conform

namespace Json

/-- A hexadecimal digit. -/
def hexDigit (n : Nat) : Char := Nat.digitChar (n % 16)

/-- A character as it is written inside a string: quotes, backslashes and control characters are
escaped, the latter with their short form if they have one. -/
def escape (c : Char) : List Char :=
  if c = '"' then ['\\', '"']
  else if c = '\\' then ['\\', '\\']
  else if c = '\n' then ['\\', 'n']
  else if c = '\r' then ['\\', 'r']
  else if c = '\t' then ['\\', 't']
  else if c = '\x08' then ['\\', 'b']
  else if c = '\x0c' then ['\\', 'f']
  else if c.toNat < 0x20 then ['\\', 'u', '0', '0', hexDigit (c.toNat / 16), hexDigit c.toNat]
  else [c]

/-- A string with its quotes. -/
def quote (s : String) : String := String.ofList ('"' :: s.toList.flatMap escape ++ ['"'])

/-- The start of a line at some depth. -/
def newline (indent depth : Nat) : String :=
  String.ofList ('\n' :: List.replicate (indent * depth) ' ')

end Json

namespace Value

open Json

mutual

/-- A value that stands at some depth, as text. -/
def renderAt (indent depth : Nat) : Value → String
  | null => "null"
  | bool true => "true"
  | bool false => "false"
  | int i => toString i
  | float x => Decimal.number.text x
  | str s => quote s
  | arr [] => "[]"
  | arr (item :: rest) =>
    "[" ++ newline indent (depth + 1) ++ item.renderAt indent (depth + 1)
      ++ renderItems indent (depth + 1) rest ++ newline indent depth ++ "]"
  | obj [] => "\x7b\x7d"
  | obj ((name, member) :: rest) =>
    "\x7b" ++ newline indent (depth + 1) ++ quote name ++ ": " ++ member.renderAt indent (depth + 1)
      ++ renderMembers indent (depth + 1) rest ++ newline indent depth ++ "\x7d"

/-- The items after the first. -/
def renderItems (indent depth : Nat) : List Value → String
  | [] => ""
  | item :: rest =>
    "," ++ newline indent depth ++ item.renderAt indent depth ++ renderItems indent depth rest

/-- The members after the first. -/
def renderMembers (indent depth : Nat) : List (String × Value) → String
  | [] => ""
  | (name, member) :: rest =>
    "," ++ newline indent depth ++ quote name ++ ": " ++ member.renderAt indent depth
      ++ renderMembers indent depth rest

end

/-- A value as text, with `indent` blanks for each level. -/
def render (value : Value) (indent : Nat) : String := value.renderAt indent 0

end Value

end Conform
