import Conform.Decimal.Reading

set_option autoImplicit false

/-!
# Messages with a place

A message can end in the place of a document that it is about, as in
`unexpected end at line 3 column 14`.  Lines count from one, so line zero is no place, and a message
about no place is written without any.

## Main definitions

* `Conform.Text.Located`: a message and the place it is about.
* `Conform.Text.Located.ofText`: the message and the place that a text holds.
* `Conform.Text.Located.toText`: a message as it is written.
-/

namespace Conform.Text

/-- A message and the place it is about. -/
structure Located where
  /-- The message without the place. -/
  message : String
  /-- The line, or zero if the message is about no place. -/
  line : Nat
  /-- The column. -/
  column : Nat
  deriving DecidableEq, Repr

namespace Located

/-- The number that stands at the end of a text behind some words, and what stands before the words.
It has to fit a word of 64 bits. -/
def ending? (words : String) (text : List Char) : Option (List Char × Nat) :=
  let digits := (text.reverse.takeWhile Char.isDigit).reverse
  let number := Decimal.ofDigits digits
  if digits.isEmpty || UInt64.size ≤ number then none
  else ((words.toList ++ digits).isSuffixOf? text).map fun before => (before, number)

/-- The message and the place that a text holds.  A text that does not end in a place is all
message. -/
def ofText (text : String) : Located :=
  let located? := do
    let (before, column) ← ending? " column " text.toList
    let (message, line) ← ending? " at line " before
    pure (⟨String.ofList message, line, column⟩ : Located)
  located?.getD ⟨text, 0, 0⟩

/-- A message as it is written, with its place if there is one. -/
def toText (located : Located) : String :=
  if located.line = 0 then located.message
  else located.message ++ " at line " ++ toString located.line
    ++ " column " ++ toString located.column

end Located

end Conform.Text
