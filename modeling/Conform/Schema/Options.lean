import Conform.Json.Value

set_option autoImplicit false

/-!
# Options of a schema document

## Main definitions

* `Conform.Schema.Options`: what a schema document shows.
* `Conform.Schema.Options.ofValue?`: options read from a configuration value.
-/

namespace Conform.Schema

/-- The dialect of JSON Schema that documents are written in. -/
def draft202012 : String := "https://json-schema.org/draft/2020-12/schema"

/-- What a schema document shows. -/
@[ext] structure Options where
  /-- The dialect named at the root, if any. -/
  dialect : Option String
  /-- Whether checks without a keyword are listed. -/
  includeChecks : Bool
  /-- Whether metadata entries are laid over the schemas. -/
  includeMetadata : Bool
  deriving DecidableEq, Repr

namespace Options

/-- Everything is shown. -/
def standard : Options := ⟨some draft202012, true, true⟩

instance : Inhabited Options := ⟨standard⟩

/-- Reads a dialect: a text, or `null` for none. -/
def readDialect? : Option Value → Option (Option String)
  | none => some standard.dialect
  | some .null => some none
  | some (.str s) => some (some s)
  | some _ => none

/-- Reads a switch, which is on unless it is set. -/
def readSwitch? : Option Value → Option Bool
  | none => some true
  | some (.bool b) => some b
  | some _ => none

/-- Reads options from a configuration.  An object names what differs from the standard, and other
members of it are ignored; an array gives the options in order and may stop early. -/
def ofValue? : Value → Option Options
  | .obj members => do
    let dialect ← readDialect? (Members.get? members "dialect")
    let includeChecks ← readSwitch? (Members.get? members "include_checks")
    let includeMetadata ← readSwitch? (Members.get? members "include_metadata")
    pure { dialect, includeChecks, includeMetadata }
  | .arr items =>
    if items.length ≤ 3 then do
      let dialect ← readDialect? items[0]?
      let includeChecks ← readSwitch? items[1]?
      let includeMetadata ← readSwitch? items[2]?
      pure { dialect, includeChecks, includeMetadata }
    else none
  | _ => none

end Options

end Conform.Schema
