set_option autoImplicit false

/-!
# Sets of characters

Sets of characters as they are written in patterns: ranges, put together by the operations on sets.

## Main definitions

* `Conform.Pattern.CharSet`: a set of characters.
* `Conform.Pattern.CharSet.contains`: whether a set holds a character.
-/

namespace Conform.Pattern

/-- A set of characters. -/
inductive CharSet where
  /-- No character. -/
  | empty
  /-- The characters from one to another, both included. -/
  | range (low high : Char)
  /-- The characters that are not in the set. -/
  | compl (set : CharSet)
  /-- The characters of either set. -/
  | union (left right : CharSet)
  /-- The characters of both sets. -/
  | inter (left right : CharSet)
  /-- The characters of the first set that are not in the second. -/
  | diff (left right : CharSet)
  /-- The characters of exactly one of the sets. -/
  | symmDiff (left right : CharSet)
  deriving DecidableEq, Repr

namespace CharSet

/-- One given character. -/
def single (c : Char) : CharSet := range c c

/-- Whether a set holds a character. -/
def contains : CharSet → Char → Bool
  | empty, _ => false
  | range low high, c => low ≤ c && c ≤ high
  | compl set, c => !set.contains c
  | union left right, c => left.contains c || right.contains c
  | inter left right, c => left.contains c && right.contains c
  | diff left right, c => left.contains c && !right.contains c
  | symmDiff left right, c => left.contains c != right.contains c

end CharSet

end Conform.Pattern
