import Conform.Decimal.Layout
import Conform.Pattern.Reading
import Conform.Text.Blank
import Conform.Validator.Basic

set_option autoImplicit false

/-!
# Refinements

The checks that come with leaves and lists: bounds on the length of a text, on an integer, on a
number and on the number of items, patterns of texts, and the removal of blanks at the ends of a
text.  Their parameter is what a schema keyword shows.

## Main definitions

* `Conform.Refinement`: the refinements.
* `Conform.Validator.refine?`: a refinement added to a validator, if the validator is of the right
  form.
-/

namespace Conform

/-- A bound on integers or numbers. -/
inductive Bound where
  | integer (i : Int)
  | number (x : Float)

/-- A refinement of a leaf or a list. -/
inductive Refinement where
  | minLength (least : Nat)
  | maxLength (most : Nat)
  | pattern (pattern : Pattern)
  | trim
  | atLeast (bound : Bound)
  | atMost (bound : Bound)
  | minItems (least : Nat)
  | maxItems (most : Nat)

/-- A check that comes with the library. -/
def Check.builtIn {α : Type} (name message : String) (param : Value) (view : α → Value)
    (accepts : α → Bool) : Operation α :=
  .check ⟨name, message, some param, .library, view, fun a => .answer (accepts a)⟩

/-! ## Texts -/

namespace Text

/-- At least so many characters. -/
def minLength (least : Nat) : Operation String :=
  Check.builtIn "min_length" ("must be at least " ++ toString least ++ " characters")
    (.int least) .str fun s => least ≤ s.length

/-- At most so many characters. -/
def maxLength (most : Nat) : Operation String :=
  Check.builtIn "max_length" ("must be at most " ++ toString most ++ " characters")
    (.int most) .str fun s => s.length ≤ most

/-- A part that fits a pattern. -/
def pattern (pattern : Pattern) : Operation String :=
  Check.builtIn "pattern" ("must match /" ++ pattern.source ++ "/") (.str pattern.source) .str
    pattern.occursIn

/-- Removes the blanks at both ends. -/
def trimmed : Operation String :=
  .transformation ⟨"trim", .library, .str, fun s => .answer (trim s)⟩

end Text

/-! ## Numbers -/

namespace Bound

/-- The bound as a bound on integers, which has to fit a signed 64-bit word. -/
def toInt64? : Bound → Option Int64
  | integer i => (Value.int i).toInt64?
  | number _ => none

/-- The bound as a bound on numbers. -/
def toFloat : Bound → Float
  | integer i => Float.ofInt i
  | number x => x

/-- An integer not below a bound. -/
def minInteger (least : Int64) : Operation Int64 :=
  Check.builtIn "min" ("must be at least " ++ toString least.toInt) (.int least.toInt)
    LeafType.integer.toValue fun n => least ≤ n

/-- An integer not above a bound. -/
def maxInteger (most : Int64) : Operation Int64 :=
  Check.builtIn "max" ("must be at most " ++ toString most.toInt) (.int most.toInt)
    LeafType.integer.toValue fun n => n ≤ most

/-- A number not below a bound; a NaN on either side is refused. -/
def minNumber (least : Float) : Operation Float :=
  Check.builtIn "min" ("must be at least " ++ Decimal.bound.text least) (Value.ofFloat least)
    Value.ofFloat fun x => least ≤ x

/-- A number not above a bound; a NaN on either side is refused. -/
def maxNumber (most : Float) : Operation Float :=
  Check.builtIn "max" ("must be at most " ++ Decimal.bound.text most) (Value.ofFloat most)
    Value.ofFloat fun x => x ≤ most

end Bound

/-! ## Items -/

namespace Items

/-- At least so many items. -/
def minItems (least : Nat) : Operation (List Value) :=
  Check.builtIn "min_items" ("must contain at least " ++ toString least ++ " items")
    (.int least) .arr fun items => least ≤ items.length

/-- At most so many items. -/
def maxItems (most : Nat) : Operation (List Value) :=
  Check.builtIn "max_items" ("must contain at most " ++ toString most ++ " items")
    (.int most) .arr fun items => items.length ≤ most

end Items

namespace Validator

/-- Adds a refinement after the operations of a validator of the right form. -/
def refine? : Refinement → Validator → Option Validator
  | .minLength n, leaf .string core => some (leaf .string (core.push (Text.minLength n)))
  | .maxLength n, leaf .string core => some (leaf .string (core.push (Text.maxLength n)))
  | .pattern p, leaf .string core => some (leaf .string (core.push (Text.pattern p)))
  | .trim, leaf .string core => some (leaf .string (core.push Text.trimmed))
  | .atLeast bound, leaf .integer core =>
    bound.toInt64?.map fun n => leaf .integer (core.push (Bound.minInteger n))
  | .atMost bound, leaf .integer core =>
    bound.toInt64?.map fun n => leaf .integer (core.push (Bound.maxInteger n))
  | .atLeast bound, leaf .number core =>
    some (leaf .number (core.push (Bound.minNumber bound.toFloat)))
  | .atMost bound, leaf .number core =>
    some (leaf .number (core.push (Bound.maxNumber bound.toFloat)))
  | .minItems n, list element core => some (list element (core.push (Items.minItems n)))
  | .maxItems n, list element core => some (list element (core.push (Items.maxItems n)))
  | _, _ => none

end Validator

end Conform
