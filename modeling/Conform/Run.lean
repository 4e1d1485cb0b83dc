import Conform.Outcome

set_option autoImplicit false

/-!
# Runs

A run of a validator calls the functions it was built from and ends with a result, with a fault or
with a panic.  A run is described by the calls it made, in order, beside the way it ended, so two
runs are equal when nobody can tell them apart.

## Main definitions

* `Conform.Reply`: what a call of a function comes to.
* `Conform.Call`: one call, with the value that the function was given.
* `Conform.Run`: the calls made and the way the run ended, a lawful monad.
* `Conform.Run.attempt`: a run whose fault is handed to the caller as a result.
* `Conform.Strategy`: the mode of a run and whether it may wait for asynchronous checks.

## Main results

* `Conform.Run.instLawfulMonad`: what follows a run sees its result, and its calls come after.
-/

namespace Conform

/-! ## Calls -/

/-- What a call of a function comes to. -/
inductive Reply (α : Type) where
  | answer (a : α)
  | panicked
  deriving DecidableEq, Repr

namespace Reply

variable {α β : Type}

/-- Changes the answer. -/
def map (f : α → β) : Reply α → Reply β
  | answer a => answer (f a)
  | panicked => panicked

/-- Goes on with the answer. -/
def bind (reply : Reply α) (f : α → Reply β) : Reply β :=
  match reply with
  | answer a => f a
  | panicked => panicked

/-- Whether a predicate accepted; one that panicked did not. -/
def holds : Reply Bool → Bool
  | answer b => b
  | panicked => false

end Reply

/-- The job of a function that a run calls. -/
inductive Role where
  | check | asyncCheck | transformation | conversion | validator
  deriving DecidableEq, Repr

/-- Where a function comes from. -/
inductive Origin where
  /-- It belongs to a refinement of this library. -/
  | library
  /-- It was supplied by whoever built the validator. -/
  | user
  deriving DecidableEq, Repr

/-- One call of a function. -/
structure Call where
  /-- The job of the function. -/
  role : Role
  /-- Where the function comes from. -/
  origin : Origin
  /-- The name of the check, or the label of the transformation or the conversion. -/
  name : String
  /-- The value given to the function. -/
  subject : Value

/-! ## Runs -/

/-- Why a run ended without a result. -/
inductive Stop where
  /-- The value was refused, or the run could not be carried out. -/
  | fault (fault : Fault)
  /-- A transformation panicked. -/
  | panic
  deriving DecidableEq, Repr

/-- What is reported of a panic. -/
def Stop.panicMessage : String := "transformation panicked"

/-- A run: the calls it made, in order, and the way it ended. -/
@[ext] structure Run (α : Type) where
  /-- The calls made, the earliest first. -/
  trace : List Call
  /-- How the run ended. -/
  result : Except Stop α

namespace Run

variable {α β γ : Type}

/-- A run that makes no call and ends with a result. -/
def done (a : α) : Run α := ⟨[], .ok a⟩

/-- Goes on from the result of a run; a run that stopped is not gone on from. -/
def andThen (run : Run α) (next : α → Run β) : Run β :=
  match run.result with
  | .ok a => ⟨run.trace ++ (next a).trace, (next a).result⟩
  | .error stop => ⟨run.trace, .error stop⟩

instance : Monad Run where
  pure := done
  bind := andThen

theorem pure_eq (a : α) : (pure a : Run α) = ⟨[], .ok a⟩ := rfl

theorem bind_eq (run : Run α) (next : α → Run β) :
    run >>= next = match run.result with
      | .ok a => ⟨run.trace ++ (next a).trace, (next a).result⟩
      | .error stop => ⟨run.trace, .error stop⟩ := rfl

theorem map_eq (f : α → β) (run : Run α) : f <$> run = ⟨run.trace, run.result.map f⟩ := by
  show run.andThen (fun a => done (f a)) = _
  obtain ⟨trace, _ | a⟩ := run <;> simp [andThen, done, Except.map]

theorem bind_assoc_eq (run : Run α) (next : α → Run β) (after : β → Run γ) :
    run >>= next >>= after = run >>= fun a => next a >>= after := by
  obtain ⟨trace, _ | a⟩ := run
  · rfl
  · simp only [bind_eq]
    cases (next a).result <;> simp

/-- **The calls of what follows a run come after the calls of the run.** -/
instance instLawfulMonad : LawfulMonad Run :=
  LawfulMonad.mk' Run
    (fun run => by
      rw [map_eq]
      obtain ⟨trace, _ | a⟩ := run <;> rfl)
    (fun a next => by simp [pure_eq, bind_eq])
    bind_assoc_eq

/-- A run that makes one call. -/
def call (role : Role) (origin : Origin) (name : String) (subject : Value) : Run Unit :=
  ⟨[⟨role, origin, name, subject⟩], .ok ()⟩

/-- A run that stops with a fault. -/
def fail (fault : Fault) : Run α := ⟨[], .error (.fault fault)⟩

/-- A run that stops with a panic. -/
def panic : Run α := ⟨[], .error .panic⟩

/-- A result or a fault, as a run that makes no call. -/
def ofExcept : Except Fault α → Run α
  | .ok a => done a
  | .error fault => fail fault

/-- The run seen from one segment further out. -/
def under (segment : String) (run : Run α) : Run α where
  trace := run.trace
  result := match run.result with
    | .error (.fault fault) => .error (.fault (fault.under segment))
    | other => other

/-- The run with its fault handed over as a result; a panic still stops it. -/
def attempt (run : Run α) : Run (Except Fault α) where
  trace := run.trace
  result := match run.result with
    | .ok a => .ok (.ok a)
    | .error (.fault fault) => .ok (.error fault)
    | .error .panic => .error .panic

/-- The calls of functions that whoever built the validator supplied. -/
def userCalls (run : Run α) : List Call := run.trace.filter (·.origin = .user)

end Run

/-! ## Strategies -/

/-- Whether a run may wait. -/
inductive Scheduling where
  /-- The run never waits, so that asynchronous checks cannot be carried out. -/
  | sync
  /-- Asynchronous checks are awaited where they stand. -/
  | async
  deriving DecidableEq, Repr

/-- How a validator is run. -/
structure Strategy where
  /-- What happens to a failure. -/
  mode : Mode
  /-- Whether the run may wait. -/
  scheduling : Scheduling
  deriving DecidableEq, Repr

/-- The four strategies: first those that never wait. -/
def Strategy.all : List Strategy :=
  [⟨.strict, .sync⟩, ⟨.tolerant, .sync⟩, ⟨.strict, .async⟩, ⟨.tolerant, .async⟩]

end Conform
