import Conform.Failures
import Conform.Fault

set_option autoImplicit false

/-!
# Outcomes

What a validator has to say about a value when it was not stopped: a produced value, the failures
that were recorded, and the value that a failed conversion left untransformed.

## Main definitions

* `Conform.Mode`: stop at the first failure, or record every failure and go on.
* `Conform.Outcome`: a produced value beside recorded failures.
* `Conform.Outcome.reject`: a fault, raised or recorded as the mode wants it.
-/

namespace Conform

/-- What happens to a failure. -/
inductive Mode where
  /-- The first failure ends the run. -/
  | strict
  /-- Every failure is recorded and the run goes on. -/
  | tolerant
  deriving DecidableEq, Repr

/-- What a validator found out about a value. -/
@[ext] structure Outcome (α : Type) where
  /-- The produced value, if there is one. -/
  value : Option α
  /-- The failures recorded. -/
  failures : Failures
  /-- The value that a conversion was to transform when it could not. -/
  untransformed : Option Value

namespace Outcome

variable {α β : Type}

/-- Neither a value nor a failure. -/
def empty : Outcome α := ⟨none, .empty, none⟩

/-- A value without a failure. -/
def success (a : α) : Outcome α := ⟨some a, .empty, none⟩

/-- One failure and no value. -/
def failure (key message : String) : Outcome α := ⟨none, Failures.empty.record key message, none⟩

/-- Sets the value. -/
def withValue (outcome : Outcome α) (a : α) : Outcome α := { outcome with value := some a }

/-- Records a failure. -/
def record (outcome : Outcome α) (key message : String) : Outcome α :=
  { outcome with failures := outcome.failures.record key message }

/-- Whether no failure was recorded. -/
def isSuccess (outcome : Outcome α) : Bool := outcome.failures.isEmpty

/-- Files the failures of a part under its segment; the value of the part is not taken over. -/
def absorb (outcome : Outcome α) (segment : String) (part : Outcome β) : Outcome α :=
  { outcome with failures := outcome.failures.absorb segment part.failures }

/-- Changes the value and keeps the rest. -/
def map (f : α → β) (outcome : Outcome α) : Outcome β :=
  ⟨outcome.value.map f, outcome.failures, outcome.untransformed⟩

/-- Drops the value and keeps the rest. -/
def discard (outcome : Outcome α) : Outcome β := ⟨none, outcome.failures, outcome.untransformed⟩

/-- A fault as a recorded failure.  A configuration fault cannot be recorded and is handed back. -/
def ofFault (fault : Fault) : Except Fault (Outcome α) :=
  match fault.key? with
  | some key => .ok (failure key fault.message)
  | none => .error fault

/-- Refuses a value: strict runs raise the fault, tolerant ones record it. -/
def reject (mode : Mode) (fault : Fault) : Except Fault (Outcome α) :=
  match mode with
  | .strict => .error fault
  | .tolerant => ofFault fault

end Outcome

end Conform
