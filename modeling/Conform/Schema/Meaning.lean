import Conform.Decimal.Shortest
import Conform.Json.Value
import Conform.Pattern.Reading

set_option autoImplicit false

/-!
# The meaning of schemas

What a JSON value has to be like to satisfy a JSON Schema.  The keywords read are those that schemas
of validators are written with; every other member of a schema constrains nothing.  A keyword about
texts, numbers or arrays says nothing of values of another kind, and an argument that a keyword
cannot have is satisfied by no value.

Numbers are compared exactly, an integral float counts as an integer, and the length of a text is
the number of its code points.

## Main definitions

* `Conform.Value.number?`: a number of either sort, exactly.
* `Conform.Schema.keywordHolds`: what one keyword asks of a value.
* `Conform.Schema.satisfies`: whether a value satisfies a schema.
* `Conform.Schema.memberHolds`: what one member of a schema asks of a value.

## Main results

* `Conform.Schema.satisfies_obj_iff`: a value satisfies a schema exactly if each of its members
  allows it.
-/

namespace Conform

namespace Value

/-- The number that a finite float is. -/
def exactFloat? (x : Float) : Option Rat :=
  let bits := x.toBits.toNat
  (Decimal.Magnitude.ofBits? bits).map fun m =>
    let size := mkRat (m.mantissa * Nat.pow 2 m.exponent.toNat) (Nat.pow 2 (-m.exponent).toNat)
    if bits < Nat.pow 2 63 then size else -size

/-- A number of either sort, exactly. -/
def number? : Value → Option Rat
  | int i => some i
  | float x => exactFloat? x
  | _ => none

/-- The number of code points of a text. -/
def length? : Value → Option Rat
  | str s => some (s.length : Int)
  | _ => none

/-- The number of items of an array. -/
def count? (value : Value) : Option Rat :=
  value.items?.map fun items => ((items.length : Int) : Rat)

end Value

namespace Schema

/-! ## Keywords -/

/-- Whether a value is of a type. -/
def hasType (type : String) : Value → Bool
  | .int _ => type == "integer" || type == "number"
  | .float x => type == "number" || type == "integer" && (Value.exactFloat? x).any Rat.isInt
  | value => type == value.kind.name

/-- Whether a measure, if there is one, is not below a limit. -/
def notBelow (limit : Value) (measure : Option Rat) : Bool :=
  limit.number?.any fun least => measure.all (least ≤ ·)

/-- Whether a measure, if there is one, is not above a limit. -/
def notAbove (limit : Value) (measure : Option Rat) : Bool :=
  limit.number?.any fun most => measure.all (· ≤ most)

theorem notBelow_int (limit measure : Int) :
    notBelow (.int limit) (some (measure : Rat)) = decide (limit ≤ measure) := by
  simp only [notBelow, Value.number?, Option.any_some, Option.all_some, Rat.intCast_le_intCast]

theorem notAbove_int (limit measure : Int) :
    notAbove (.int limit) (some (measure : Rat)) = decide (measure ≤ limit) := by
  simp only [notAbove, Value.number?, Option.any_some, Option.all_some, Rat.intCast_le_intCast]

/-- What one keyword asks of a value.  The argument is given as it stands, as the schema that it is,
and as the schemas that its items are; `skipped` is the number of items with a schema of their
own. -/
def keywordHolds (skipped : Nat) (name : String) (argument : Value) (schema : Value → Bool)
    (schemas : Option (List (Value → Bool))) (value : Value) : Bool :=
  match name with
  | "type" => match argument with
    | .str type => hasType type value
    | _ => false
  | "minLength" => notBelow argument value.length?
  | "maxLength" => notAbove argument value.length?
  | "pattern" => match argument with
    | .str source => (Pattern.read? source).any fun expr => match value with
      | .str s => expr.occursIn s
      | _ => true
    | _ => false
  | "minimum" => notBelow argument value.number?
  | "maximum" => notAbove argument value.number?
  | "items" => value.items?.all fun items => (items.drop skipped).all schema
  | "prefixItems" => schemas.any fun schemas => value.items?.all fun items =>
      (schemas.zip items).all fun (schema, item) => schema item
  | "minItems" => notBelow argument value.count?
  | "maxItems" => notAbove argument value.count?
  | "anyOf" => schemas.any fun schemas => schemas.any fun schema => schema value
  | _ => true

/-! ## Schemas -/

/-- The number of items with a schema of their own. -/
def prefixLength (members : Members Value) : Nat :=
  match Members.get? members "prefixItems" with
  | some (.arr schemas) => schemas.length
  | _ => 0

mutual

/-- Whether a value satisfies a schema. -/
def satisfies : Value → Value → Bool
  | .bool b, _ => b
  | .obj members, value => allHold (prefixLength members) members value
  | _, _ => false

/-- Whether a value is allowed by each of several members of a schema. -/
def allHold (skipped : Nat) : List (String × Value) → Value → Bool
  | [], _ => true
  | (name, argument) :: rest, value =>
    keywordHolds skipped name argument (satisfies argument) (schemas? argument) value
      && allHold skipped rest value

/-- The items of an array, as schemas. -/
def schemas? : Value → Option (List (Value → Bool))
  | .arr items => some (eachSatisfies items)
  | _ => none

/-- Several values, as schemas. -/
def eachSatisfies : List Value → List (Value → Bool)
  | [] => []
  | schema :: rest => satisfies schema :: eachSatisfies rest

end

/-- What one member of a schema asks of a value. -/
def memberHolds (skipped : Nat) (member : String × Value) (value : Value) : Bool :=
  keywordHolds skipped member.1 member.2 (satisfies member.2) (schemas? member.2) value

theorem eachSatisfies_eq_map (schemas : List Value) :
    eachSatisfies schemas = schemas.map satisfies := by
  induction schemas with
  | nil => rfl
  | cons schema rest ih => rw [eachSatisfies, ih, List.map_cons]

/-- **A value satisfies a schema exactly if each member of it allows the value.** -/
theorem satisfies_obj_iff {members : Members Value} {value : Value} :
    satisfies (.obj members) value = true ↔
      ∀ member ∈ members, memberHolds (prefixLength members) member value = true := by
  rw [satisfies]
  generalize prefixLength members = skipped
  induction members with
  | nil => simp [allHold]
  | cons member rest ih =>
    obtain ⟨name, argument⟩ := member
    rw [allHold, Bool.and_eq_true, ih, List.forall_mem_cons]
    rfl

end Schema

end Conform
