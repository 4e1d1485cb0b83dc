import Conform.Json.Value

set_option autoImplicit false

/-!
# Metadata entries

A descriptive record about a validator that is shown in its schema: a title, a description,
examples, a deprecation mark, and any other members.

## Main definitions

* `Conform.Metadata.Entry`: the record.
* `Conform.Metadata.Entry.toObject`: the record as one object.
* `Conform.Metadata.Entry.ofValue?`: the record read from an object.

## Main results

* `Conform.Metadata.Entry.get?_toObject`: a member of the one object.
-/

namespace Conform.Metadata

/-- A descriptive record about a validator. -/
@[ext] structure Entry where
  /-- A short title. -/
  title : Option String
  /-- A longer description. -/
  description : Option String
  /-- Example values. -/
  examples : List Value
  /-- Whether the described shape is deprecated. -/
  deprecated : Bool
  /-- All other members. -/
  extra : Members Value

namespace Entry

/-- The entry that tells nothing. -/
def blank : Entry := ⟨none, none, [], false, []⟩

instance : Inhabited Entry := ⟨blank⟩

/-- The names of the members that have a field of their own. -/
def declared : List String := ["title", "description", "examples", "deprecated"]

/-- Sets the title. -/
def withTitle (entry : Entry) (title : String) : Entry := { entry with title := some title }

/-- Sets the description. -/
def withDescription (entry : Entry) (description : String) : Entry :=
  { entry with description := some description }

/-- Adds an example after those there are. -/
def withExample (entry : Entry) (sample : Value) : Entry :=
  { entry with examples := entry.examples ++ [sample] }

/-- Marks the described shape as deprecated. -/
def markDeprecated (entry : Entry) : Entry := { entry with deprecated := true }

/-- Writes another member. -/
def withExtra (entry : Entry) (name : String) (value : Value) : Entry :=
  { entry with extra := Members.insert entry.extra name value }

/-! ## As an object -/

/-- The members that the fields stand for.  A field that tells nothing has no member. -/
def fields (entry : Entry) : List (String × Value) :=
  (entry.title.map fun t => ("title", Value.str t)).toList
    ++ (entry.description.map fun d => ("description", Value.str d)).toList
    ++ (if entry.examples.isEmpty then [] else [("examples", Value.arr entry.examples)])
    ++ (if entry.deprecated then [("deprecated", Value.bool true)] else [])

/-- The entry as one object.  A further member wins over a field of the same name. -/
def toObject (entry : Entry) : Members Value :=
  Members.merge (Members.ofList entry.fields) entry.extra

/-- **A further member wins** over a field of the same name. -/
theorem get?_toObject (entry : Entry) (name : String) :
    Members.get? entry.toObject name
      = (Members.get? entry.extra name).or (Members.get? entry.fields.reverse name) := by
  rw [toObject, Members.get?_merge, Members.get?_ofList]

/-- Reads a text that may be missing or `null`. -/
def readText? : Option Value → Option (Option String)
  | none => some none
  | some .null => some none
  | some (.str s) => some (some s)
  | some _ => none

/-- Reads a list of values that may be missing. -/
def readItems? : Option Value → Option (List Value)
  | none => some []
  | some (.arr items) => some items
  | some _ => none

/-- Reads a mark that may be missing. -/
def readMark? : Option Value → Option Bool
  | none => some false
  | some (.bool b) => some b
  | some _ => none

/-- Reads an entry from the members of an object.  Each field wants a value of its own kind, and
every other member is kept as it is. -/
def ofMembers? (members : Members Value) : Option Entry := do
  let title ← readText? (Members.get? members "title")
  let description ← readText? (Members.get? members "description")
  let examples ← readItems? (Members.get? members "examples")
  let deprecated ← readMark? (Members.get? members "deprecated")
  let extra := members.filter fun member => !declared.contains member.1
  pure { title, description, examples, deprecated, extra }

/-- Reads an entry from a value, which has to be an object. -/
def ofValue? : Value → Option Entry
  | .obj members => ofMembers? members
  | _ => none

/-- Equality of entries, their values compared as values. -/
def sameAs (left right : Entry) : Bool :=
  left.title == right.title && left.description == right.description
    && Value.sameItems left.examples right.examples
    && left.deprecated == right.deprecated
    && Value.sameMembers left.extra right.extra

/-- Whether the entry, written as an object and read again, is the same entry. -/
def roundTrips (entry : Entry) : Bool :=
  match ofMembers? entry.toObject with
  | some again => again.sameAs entry
  | none => false

/-- Whether the entry tells nothing. -/
def isBlank (entry : Entry) : Bool := entry.sameAs blank

end Entry

end Conform.Metadata
