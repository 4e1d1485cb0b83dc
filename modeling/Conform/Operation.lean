import Conform.Run

set_option autoImplicit false

/-!
# Operations

What a validator does to a value once it has one: checks, which accept it or not, and
transformations, which replace it.  The functions behind them come from outside and may panic; a
predicate that panics does not accept, wherever in its evaluation the panic arises.

## Main definitions

* `Conform.Check`, `Conform.AsyncCheck`, `Conform.Transformation`, and `Conform.Operation`, one of
  the three.
* `Conform.Future`: the answer of an asynchronous predicate.
* `Conform.Operation.Summary`: what an operation shows of itself.
* `Conform.Operation.widen`: an operation on `n` elements carried over to `n + 1` elements.

## Main results

* `Conform.Operation.summary_widen`: an operation that is carried over shows the same.
-/

namespace Conform

variable {α : Type}

/-- A named predicate. -/
structure Check (α : Type) where
  /-- The name under which a failure is recorded. -/
  name : String
  /-- The message of a failure. -/
  message : String
  /-- The parameter a schema keyword can show. -/
  param : Option Value
  /-- Where the predicate comes from. -/
  origin : Origin
  /-- The value as the predicate is given it. -/
  view : α → Value
  /-- The predicate. -/
  predicate : α → Reply Bool

/-- Whether the check accepts a value. -/
def Check.passes (check : Check α) (a : α) : Bool := (check.predicate a).holds

/-- The answer of an asynchronous predicate: it may come at once, later, or never because of a
panic. -/
inductive Future where
  | ready (answer : Bool)
  | broken
  | pending (later : Future)
  deriving DecidableEq, Repr

/-- The answer that waiting for a future brings. -/
def Future.await : Future → Reply Bool
  | ready answer => .answer answer
  | broken => .panicked
  | pending later => later.await

/-- A named predicate whose answer has to be awaited. -/
structure AsyncCheck (α : Type) where
  /-- The name under which a failure is recorded. -/
  name : String
  /-- The message of a failure. -/
  message : String
  /-- The value as the predicate is given it. -/
  view : α → Value
  /-- The predicate. -/
  predicate : α → Reply Future

/-- Whether the check accepts a value in the end. -/
def AsyncCheck.passes (check : AsyncCheck α) (a : α) : Bool :=
  ((check.predicate a).bind Future.await).holds

/-- A function that replaces the value. -/
structure Transformation (α : Type) where
  /-- The name of the function among the calls of a run. -/
  label : String
  /-- Where the function comes from. -/
  origin : Origin
  /-- The value as the function is given it. -/
  view : α → Value
  /-- The function. -/
  apply : α → Reply α

/-- One step of the work on a value. -/
inductive Operation (α : Type) where
  | check (check : Check α)
  | asyncCheck (check : AsyncCheck α)
  | transformation (transformation : Transformation α)

namespace Operation

/-- Whether the operation has to be awaited. -/
def isAsync : Operation α → Bool
  | asyncCheck _ => true
  | _ => false

end Operation

/-- What an operation shows of itself: everything but its function. -/
inductive Operation.Summary where
  | check (name message : String) (param : Option Value)
  | asyncCheck (name message : String)
  | transformation

/-- What an operation shows of itself. -/
def Operation.summary : Operation α → Operation.Summary
  | check c => .check c.name c.message c.param
  | asyncCheck c => .asyncCheck c.name c.message
  | transformation _ => .transformation

namespace Operation.Summary

/-- Whether the operation has to be awaited. -/
def isAsync : Summary → Bool
  | asyncCheck .. => true
  | _ => false

/-- The name of a check; a transformation has none. -/
def name? : Summary → Option String
  | check name _ _ => some name
  | asyncCheck name _ => some name
  | transformation => none

/-- The message of a check. -/
def message? : Summary → Option String
  | check _ message _ => some message
  | asyncCheck _ message => some message
  | transformation => none

/-- The parameter of a check. -/
def param? : Summary → Option Value
  | check _ _ param => param
  | _ => none

end Operation.Summary

/-! ## One more element -/

section Widen

variable {n : Nat}

/-- The check of the leading elements. -/
def Check.widen (check : Check (Vector Value n)) : Check (Vector Value (n + 1)) where
  name := check.name
  message := check.message
  param := check.param
  origin := check.origin
  view values := check.view values.pop
  predicate values := check.predicate values.pop

/-- The asynchronous check of the leading elements. -/
def AsyncCheck.widen (check : AsyncCheck (Vector Value n)) : AsyncCheck (Vector Value (n + 1)) where
  name := check.name
  message := check.message
  view values := check.view values.pop
  predicate values := check.predicate values.pop

/-- The transformation of the leading elements, which passes the last one through. -/
def Transformation.widen (transformation : Transformation (Vector Value n)) :
    Transformation (Vector Value (n + 1)) where
  label := transformation.label
  origin := transformation.origin
  view values := transformation.view values.pop
  apply values := (transformation.apply values.pop).map (·.push values.back)

/-- The operation carried over to a tuple with one more element: it sees and changes the leading
elements only. -/
def Operation.widen : Operation (Vector Value n) → Operation (Vector Value (n + 1))
  | .check c => .check c.widen
  | .asyncCheck c => .asyncCheck c.widen
  | .transformation t => .transformation t.widen

/-- Carrying an operation over changes nothing that it shows. -/
@[simp] theorem Operation.summary_widen (operation : Operation (Vector Value n)) :
    operation.widen.summary = operation.summary := by
  cases operation <;> rfl

end Widen

end Conform
