import Conform.Pattern.Basic

set_option autoImplicit false

/-!
# Search for a pattern

Whether some part of a text fits a pattern.  The text is read once, character by character.  In the
pattern, every set of characters carries a mark that tells whether a part of the text that ends here
and begins anywhere can have taken its last character from that set.  A character moves the marks
on, and the search succeeds as soon as the end of the pattern is reached from a mark.

Each character costs one pass over the pattern, however many ways there are in which parts of the
text can fit.

## Main definitions

* `Conform.Pattern.Marked`: a pattern with marks.
* `Conform.Pattern.Marked.leaves`: whether the end of the pattern is reached.
* `Conform.Pattern.Marked.step`: the marks after one character more.
* `Conform.Pattern.Marked.search`: whether a part of a text fits that ends later.
* `Conform.Pattern.Expr.occursIn`: whether some part of a text fits.
-/

namespace Conform.Pattern

/-- Where a position lies in a text. -/
structure Position where
  /-- Whether it is the beginning of the text. -/
  first : Bool
  /-- Whether it is the end of the text. -/
  last : Bool

/-- A pattern with marks at its sets.  Repetitions with bounds are written out. -/
inductive Marked where
  /-- Nothing. -/
  | empty
  /-- One character of a set, with its mark. -/
  | one (marked : Bool) (set : CharSet)
  /-- Nothing, at the beginning of the text. -/
  | start
  /-- Nothing, at the end of the text. -/
  | finish
  /-- One after the other. -/
  | seq (first second : Marked)
  /-- One or the other. -/
  | either (left right : Marked)
  /-- The same any number of times. -/
  | star (body : Marked)

namespace Marked

/-- The same so many times.  Halves are put together, so that what comes out is not deep. -/
def copies (body : Marked) (count : Nat) : Marked :=
  if count = 0 then empty
  else if count = 1 then body
  else
    let half := copies body (count / 2)
    if count % 2 = 0 then seq half half else seq body (seq half half)
termination_by count
decreasing_by omega

/-- The pattern without any mark. -/
def ofExpr : Expr → Marked
  | .empty => empty
  | .one set => one false set
  | .start => start
  | .finish => finish
  | .seq first second => seq (ofExpr first) (ofExpr second)
  | .either left right => either (ofExpr left) (ofExpr right)
  | .times expr least most =>
    let body := ofExpr expr
    seq (copies body least) (match most with
      | some limit => copies (either empty body) (limit - least)
      | none => star body)

/-- Whether the end of the pattern is reached at a position, either from a mark or from the
beginning of the pattern if it is entered there. -/
def leaves (position : Position) : Bool → Marked → Bool
  | entered, empty => entered
  | _, one marked _ => marked
  | entered, start => entered && position.first
  | entered, finish => entered && position.last
  | entered, seq first second => second.leaves position (first.leaves position entered)
  | entered, either left right => left.leaves position entered || right.leaves position entered
  | entered, star body => entered || body.leaves position false

/-- The marks after one character more, which is read at a position at which the pattern is entered
or not, and whether the end of the pattern is reached at that position. -/
def step (position : Position) (c : Char) : Bool → Marked → Marked × Bool
  | entered, empty => (empty, entered)
  | entered, one marked set => (one (entered && set.contains c) set, marked)
  | entered, start => (start, entered && position.first)
  | entered, finish => (finish, entered && position.last)
  | entered, seq first second =>
    let (first, between) := first.step position c entered
    let (second, left) := second.step position c between
    (seq first second, left)
  | entered, either left right =>
    let (left, leftEnds) := left.step position c entered
    let (right, rightEnds) := right.step position c entered
    (either left right, leftEnds || rightEnds)
  | entered, star body =>
    let again := entered || body.leaves position false
    (star (body.step position c again).1, again)

/-- A step finds the end of the pattern where it is reached before the character is read. -/
theorem step_snd (position : Position) (c : Char) (entered : Bool) (pattern : Marked) :
    (pattern.step position c entered).2 = pattern.leaves position entered := by
  induction pattern generalizing entered with
  | seq first second ih₁ ih₂ => simp [step, leaves, ih₁, ih₂]
  | either left right ih₁ ih₂ => simp [step, leaves, ih₁, ih₂]
  | _ => rfl

/-- Whether a part of the text fits that ends here or later.  A part that fits can begin anywhere,
so the pattern is entered at every position. -/
def search (first : Bool) (pattern : Marked) : List Char → Bool
  | [] => pattern.leaves ⟨first, true⟩ true
  | c :: rest =>
    let (next, found) := pattern.step ⟨first, false⟩ c true
    found || search false next rest

end Marked

/-- Whether some part of the text fits. -/
def Expr.occursIn (expr : Expr) (text : String) : Bool :=
  (Marked.ofExpr expr).search true text.toList

end Conform.Pattern
