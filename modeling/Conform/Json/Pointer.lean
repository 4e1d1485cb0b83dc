import Conform.Json.Value

set_option autoImplicit false

/-!
# Pointers into a document

A pointer names a place inside a value: member names and array positions, each after a slash.  A
slash inside a name is written `~1` and a tilde `~0`.

## Main definitions

* `Conform.Json.Pointer`: the steps to a place.
* `Conform.Json.Pointer.ofText?`: the steps that a text stands for.
* `Conform.Value.updateAt?`: a value changed at one place.
-/

namespace Conform

namespace Json

/-- The steps from a value to a place in it. -/
abbrev Pointer := List String

namespace Pointer

/-- A step as it is meant: `~1` stands for a slash and `~0` for a tilde. -/
def unescape : List Char → List Char
  | '~' :: '1' :: rest => '/' :: unescape rest
  | '~' :: '0' :: rest => '~' :: unescape rest
  | c :: rest => c :: unescape rest
  | [] => []

/-- Cuts a text at every slash. -/
def split : List Char → List (List Char)
  | [] => [[]]
  | '/' :: rest => [] :: split rest
  | c :: rest => match split rest with
    | [] => [[c]]
    | first :: more => (c :: first) :: more

/-- The steps that a text stands for.  The empty text stands for the whole value, and any other
pointer opens with a slash. -/
def ofText? (text : String) : Option Pointer :=
  match text.toList with
  | [] => some []
  | '/' :: rest => some ((split rest).map fun step => String.ofList (unescape step))
  | _ => none

/-- The array position that a step stands for: digits without a leading zero. -/
def position? (step : String) : Option Nat :=
  let digits := step.toList
  if digits.isEmpty || !digits.all Char.isDigit then none
  else if digits.head? = some '0' && digits.length ≠ 1 then none
  else some (digits.foldl (fun n c => 10 * n + (c.toNat - '0'.toNat)) 0)

end Pointer

end Json

namespace Value

/-- Changes the place that the steps lead to, if they lead to one. -/
def updateAt? (change : Value → Value) : Json.Pointer → Value → Option Value
  | [], value => some (change value)
  | step :: rest, value => match value with
    | obj members => do
      let member ← Members.get? members step
      let changed ← updateAt? change rest member
      pure (obj (Members.insert members step changed))
    | arr items => do
      let position ← Json.Pointer.position? step
      let item ← items[position]?
      let changed ← updateAt? change rest item
      pure (arr (items.set position changed))
    | _ => none

/-- Changes the place that a pointer leads to, and the whole value if it leads nowhere. -/
def updateAtOrWhole (change : Value → Value) (pointer : String) (value : Value) : Value :=
  ((Json.Pointer.ofText? pointer).bind fun steps => updateAt? change steps value).getD
    (change value)

end Value

end Conform
