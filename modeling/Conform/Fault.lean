import Conform.Json.Value
import Conform.Path

set_option autoImplicit false

/-!
# Faults

The causes for which a parse is refused.

## Main definitions

* `Conform.Fault`: a failed check, a validator that needs awaiting where nothing can be awaited,
  or a conversion that could not be carried out.
* `Conform.Fault.under`: the same fault seen from an enclosing value.
* `Conform.Fault.key?`, `Conform.Fault.message`, `Conform.Fault.text`: its key, its message, and
  both on one line.
-/

namespace Conform

/-- Why a value was refused. -/
inductive Fault where
  /-- A named check failed; `check` is its qualified name. -/
  | validation (check message : String)
  /-- A validator of this kind has asynchronous checks but was run synchronously. -/
  | configuration (kind : String)
  /-- The conversion of a pipe at `path` failed between its two stages. -/
  | transform (path source target reason : String)
  deriving DecidableEq, Repr

namespace Fault

/-- The check that a value of another kind fails. -/
def typeCheck : String := "type"

/-- The check that an array of another length fails. -/
def arityCheck : String := "arity"

/-- The name under which a failed conversion is filed. -/
def transformCheck : String := "transform"

/-- The check that a value fails when no alternative of a union takes it. -/
def unionCheck : String := "union"

/-- The fault of a value that is not of the expected kind. -/
def typeMismatch (expected : String) (actual : Value) : Fault :=
  .validation typeCheck ("expected " ++ expected ++ ", received " ++ actual.kind.name)

/-- The fault of an array that does not have the expected number of elements. -/
def arityMismatch (expected received : Nat) : Fault :=
  .validation arityCheck
    ("expected " ++ toString expected ++ " elements, received " ++ toString received)

/-- The fault of a failed conversion, at the root. -/
def failedConversion (source target reason : String) : Fault :=
  .transform "" source target reason

/-- The same fault seen from one segment further out.  A configuration fault has no place in the
value and stays as it is. -/
def under (segment : String) : Fault → Fault
  | .validation check message => .validation (Path.qualify segment check) message
  | .transform path source target reason =>
    .transform (Path.qualify segment path) source target reason
  | .configuration kind => .configuration kind

/-- The key under which the fault is recorded, if it can be recorded. -/
def key? : Fault → Option String
  | .validation check _ => some check
  | .transform path _ _ _ => some (Path.qualify path transformCheck)
  | .configuration _ => none

/-- What went wrong, in words. -/
def message : Fault → String
  | .validation _ message => message
  | .transform _ source target reason =>
    "cannot convert " ++ source ++ " to " ++ target ++ ": " ++ reason
  | .configuration kind =>
    "`" ++ kind ++ "` node contains asynchronous checks; use parse_async or try_parse_async"

/-- The fault on one line: its key, if it has one, and its message. -/
def text (fault : Fault) : String :=
  match fault.key? with
  | some key => key ++ ": " ++ fault.message
  | none => fault.message

/-- Whether the fault lies in how the validator was run and not in the value. -/
def isConfiguration : Fault → Bool
  | .configuration _ => true
  | _ => false

end Fault

end Conform
