import Conform.Pattern.CharSet

set_option autoImplicit false

/-!
# Patterns

Patterns describe texts: characters and sets of characters, one after another, as alternatives or
repeated, with marks for the two ends of the text.

## Main definitions

* `Conform.Pattern.Expr`: what a pattern describes.
* `Conform.Pattern.Expr.char`, `Conform.Pattern.Expr.dot`: the simplest sets.
-/

namespace Conform.Pattern

/-- What a pattern describes. -/
inductive Expr where
  /-- Nothing. -/
  | empty
  /-- One character of a set. -/
  | one (set : CharSet)
  /-- Nothing, at the beginning of the text. -/
  | start
  /-- Nothing, at the end of the text. -/
  | finish
  /-- One after the other. -/
  | seq (first second : Expr)
  /-- One or the other. -/
  | either (left right : Expr)
  /-- The same at least `least` times, and at most `most` times if there is a limit. -/
  | times (expr : Expr) (least : Nat) (most : Option Nat)
  deriving DecidableEq, Repr

namespace Expr

/-- One given character. -/
def char (c : Char) : Expr := one (.single c)

/-- Any character that does not end a line. -/
def dot : Expr := one (.compl (.single '\n'))

end Expr

end Conform.Pattern
