import Conform.Json.Members

set_option autoImplicit false

/-!
# JSON values

Numbers come in two sorts that never equal each other: integers, written without a fraction or an
exponent, and binary floating-point numbers.  An integer read from a text lies between `-2^63` and
`2^64 - 1`, so it need not fit a signed 64-bit word.

## Main definitions

* `Conform.Value`: JSON values; `Conform.Value.kind`, the kind an error message names.
* `Conform.Value.sameAs`: equality of values, floating-point numbers compared as numbers.
* `Conform.Value.toInt64?`, `Conform.Value.toFloat?`: a number as a machine word or a float.
* `Conform.Value.get?`, `Conform.Value.overlay`: members of a value, and members laid over it.
-/

namespace Conform

/-- A JSON value. -/
inductive Value where
  | null
  | bool (b : Bool)
  | int (i : Int)
  | float (x : Float)
  | str (s : String)
  | arr (items : List Value)
  | obj (members : List (String × Value))
  deriving Inhabited

/-- What an untyped value looks like to the writer of an error message. -/
inductive Kind where
  | null | boolean | integer | number | string | array | object
  deriving DecidableEq, Repr

namespace Kind

/-- The name of a kind in messages. -/
def name : Kind → String
  | null => "null"
  | boolean => "boolean"
  | integer => "integer"
  | number => "number"
  | string => "string"
  | array => "array"
  | object => "object"

end Kind

namespace Value

/-- The kind of a value; a number is an integer unless it was written as a float. -/
def kind : Value → Kind
  | null => .null
  | bool _ => .boolean
  | int _ => .integer
  | float _ => .number
  | str _ => .string
  | arr _ => .array
  | obj _ => .object

/-! ## Equality -/

mutual

/-- Equality of values: integers and floats never agree, and floats agree when they are equal as
numbers, so that the two zeros do. -/
def sameAs : Value → Value → Bool
  | null, null => true
  | bool a, bool b => a == b
  | int a, int b => a == b
  | float a, float b => a == b
  | str a, str b => a == b
  | arr a, arr b => sameItems a b
  | obj a, obj b => sameMembers a b
  | _, _ => false

/-- Equality of arrays, item by item. -/
def sameItems : List Value → List Value → Bool
  | [], [] => true
  | a :: as, b :: bs => a.sameAs b && sameItems as bs
  | _, _ => false

/-- Equality of objects, member by member in the order of the names. -/
def sameMembers : List (String × Value) → List (String × Value) → Bool
  | [], [] => true
  | (m, a) :: as, (n, b) :: bs => m == n && a.sameAs b && sameMembers as bs
  | _, _ => false

end

/-! ## Numbers -/

/-- Whether an integer fits a signed 64-bit word, which holds the integers from `-2^63` up to but
not including `2^63`. -/
def InWord (i : Int) : Prop := -9223372036854775808 ≤ i ∧ i < 9223372036854775808

instance (i : Int) : Decidable (InWord i) := inferInstanceAs (Decidable (_ ∧ _))

/-- An integer value that fits a signed 64-bit word. -/
def toInt64? : Value → Option Int64
  | int i => if InWord i then some (Int64.ofInt i) else none
  | _ => none

/-- A number of either sort as the nearest float. -/
def toFloat? : Value → Option Float
  | int i => some (Float.ofInt i)
  | float x => some x
  | _ => none

/-- A float as a value; one that is not finite has no JSON form and becomes `null`. -/
def ofFloat (x : Float) : Value := if x.isFinite then float x else null

/-- An array of the given items, or the items themselves back. -/
def items? : Value → Option (List Value)
  | arr items => some items
  | _ => none

/-- Items as a vector, if there are exactly so many. -/
def exactly? (count : Nat) (items : List Value) : Option (Vector Value count) :=
  if h : items.length = count then some ⟨items.toArray, Eq.trans List.size_toArray h⟩ else none

/-! ## Members -/

/-- The member of an object called `name`. -/
def get? : Value → String → Option Value
  | obj members, name => Members.get? members name
  | _, _ => none

/-- An object of the given members, the last of two of one name winning. -/
def object (members : List (String × Value)) : Value := obj (Members.ofList members)

/-- Lays members over a value.  An object takes them in, any other value is first wrapped as the
only branch of an `allOf`, and no members change nothing. -/
def overlay (value : Value) (members : Members Value) : Value :=
  if members.isEmpty then value
  else match value with
    | obj present => obj (Members.merge present members)
    | other => obj (Members.merge [("allOf", arr [other])] members)

/-- Writes one member of an object; other values stay as they are. -/
def set (value : Value) (name : String) (member : Value) : Value :=
  match value with
  | obj present => obj (Members.insert present name member)
  | other => other

@[simp] theorem overlay_nil (value : Value) : value.overlay [] = value := rfl

/-- Laying members over an object leaves an object. -/
theorem overlay_obj (present members : Members Value) :
    (obj present).overlay members = obj (Members.merge present members) := by
  cases members <;> rfl

/-- The word read from an integer value is that integer. -/
theorem toInt_of_toInt64? {value : Value} {n : Int64} (h : value.toInt64? = some n) :
    value = int n.toInt := by
  cases value with
  | int i =>
    by_cases hi : InWord i
    · simp only [toInt64?, hi, if_true, Option.some.injEq] at h
      rw [← h, Int64.toInt_ofInt_of_le hi.1 hi.2]
    · simp [toInt64?, hi] at h
  | _ => simp [toInt64?] at h

end Value

end Conform
