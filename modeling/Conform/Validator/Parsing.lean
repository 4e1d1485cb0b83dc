import Conform.Validator.Evaluation

set_option autoImplicit false

/-!
# Parsing with a validator

The four ways to put a value to a validator: strictly or tolerantly, waiting for asynchronous
checks or not.  A validator that has to be awaited is refused at once where nothing can be awaited,
before any of its functions is called.

## Main definitions

* `Conform.Report`: what a caller learns.
* `Conform.Validator.parse`: a value put to a validator under a strategy.
-/

namespace Conform

/-- What a caller learns about a value. -/
structure Report where
  /-- What the validator has to say. -/
  outcome : Outcome Value
  /-- The metadata entry of the validator. -/
  entry : Option Metadata.Entry

namespace Validator

/-- Refuses a validator that has to be awaited where nothing can be awaited. -/
def ensureRunnable (strategy : Strategy) (validator : Validator) : Run Unit :=
  match strategy.scheduling with
  | .sync => if validator.requiresAsync then Run.fail (.configuration validator.kind) else pure ()
  | .async => pure ()

/-- Settles an evaluation: a strict caller gets no recorded failure, but the first one as a fault;
a tolerant caller gets no fault, but the failure it stands for, unless it stands for none. -/
def settle (mode : Mode) (evaluated : Run (Outcome Value)) : Run (Outcome Value) :=
  match mode with
  | .strict => do
    let outcome ← evaluated
    match outcome.failures.first? with
    | some (key, message) => Run.fail (.validation key message)
    | none => pure outcome
  | .tolerant => do
    match ← evaluated.attempt with
    | .ok outcome => pure outcome
    | .error fault => Run.ofExcept (Outcome.ofFault fault)

/-- Puts a value to a validator. -/
def parse (store : Metadata.Store) (strategy : Strategy) (validator : Validator) (value : Value) :
    Run Report := do
  validator.ensureRunnable strategy
  let outcome ← settle strategy.mode (validator.evaluate strategy value)
  pure ⟨outcome, validator.shown? store⟩

end Validator

end Conform
