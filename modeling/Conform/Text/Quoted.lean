import Conform.Text.Printable

set_option autoImplicit false

/-!
# Quoted texts

A text between quotes, with everything that could not be told apart on a screen spelled out.

## Main definitions

* `Conform.Text.spell`: a character inside quotes.
* `Conform.Text.quoted`: a text between quotes.
-/

namespace Conform.Text

/-- A character by its number. -/
def byNumber (c : Char) : List Char :=
  ['\\', 'u', '{'] ++ Nat.toDigits 16 c.toNat ++ ['}']

/-- A character inside quotes: short forms for the common control characters, the quote and the
backslash, and a number for what joins the character before it, leaves no mark or is shown as
nothing. -/
def spell (c : Char) : List Char :=
  if c = '\x00' then ['\\', '0']
  else if c = '\t' then ['\\', 't']
  else if c = '\r' then ['\\', 'r']
  else if c = '\n' then ['\\', 'n']
  else if c = '"' then ['\\', '"']
  else if c = '\\' then ['\\', '\\']
  else if isExtender c || isUnprintable c || isIgnorable c then byNumber c
  else [c]

/-- A text between quotes. -/
def quoted (text : String) : String :=
  String.ofList ('"' :: text.toList.flatMap spell ++ ['"'])

end Conform.Text
