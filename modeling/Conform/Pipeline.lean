import Conform.Operation

set_option autoImplicit false

/-!
# Pipelines

The operations of a validator, in the order in which they were added.  A run of a pipeline hands a
value from operation to operation; a failed check leaves the value alone, so that the operations
after it still see one.

## Main definitions

* `Conform.Pipeline`: operations in order; `Conform.Pipeline.push` adds one at the end.
* `Conform.Progress`: how far a run has come: the current value and the failures so far.
* `Conform.Operation.advance`: what one operation does to a run.
* `Conform.Pipeline.run`: a whole run.

## Main results

* `Conform.Pipeline.resume_push`: a run of a pipeline with one more operation is a run of the pipeline
  and then that operation.
-/

namespace Conform

variable {α : Type}

/-- Operations in the order in which they were added. -/
structure Pipeline (α : Type) where
  /-- The operations, the first one first. -/
  operations : List (Operation α)

/-- How far a run of a pipeline has come. -/
@[ext] structure Progress (α : Type) where
  /-- The current value. -/
  value : α
  /-- The failures so far. -/
  failures : Failures

namespace Progress

/-- Takes note of what a check found: nothing if it passed; else a strict run stops and a tolerant
one records the failure. -/
def judge (mode : Mode) (name message : String) (passed : Bool) (progress : Progress α) :
    Run (Progress α) :=
  if passed then pure progress
  else match mode with
    | .strict => Run.fail (.validation name message)
    | .tolerant => pure { progress with failures := progress.failures.record name message }

/-- The outcome of a run that has come to its end. -/
def outcome (progress : Progress α) : Outcome α := ⟨some progress.value, progress.failures, none⟩

end Progress

/-- What one operation of a validator of kind `kind` does to a run. -/
def Operation.advance (strategy : Strategy) (kind : String) (progress : Progress α) :
    Operation α → Run (Progress α)
  | .check c => do
    Run.call .check c.origin c.name (c.view progress.value)
    progress.judge strategy.mode c.name c.message (c.passes progress.value)
  | .asyncCheck c =>
    match strategy.scheduling with
    | .sync => Run.fail (.configuration kind)
    | .async => do
      Run.call .asyncCheck .user c.name (c.view progress.value)
      progress.judge strategy.mode c.name c.message (c.passes progress.value)
  | .transformation t => do
    Run.call .transformation t.origin t.label (t.view progress.value)
    match t.apply progress.value with
    | .answer a => pure { progress with value := a }
    | .panicked => Run.panic

namespace Pipeline

/-- No operations. -/
def empty : Pipeline α := ⟨[]⟩

/-- Adds an operation at the end. -/
def push (pipeline : Pipeline α) (operation : Operation α) : Pipeline α :=
  ⟨pipeline.operations ++ [operation]⟩

/-- The number of operations. -/
def length (pipeline : Pipeline α) : Nat := pipeline.operations.length

/-- Whether there are no operations. -/
def isEmpty (pipeline : Pipeline α) : Bool := pipeline.operations.isEmpty

/-- Whether an operation has to be awaited. -/
def isAsync (pipeline : Pipeline α) : Bool := pipeline.operations.any Operation.isAsync

/-- What the operations show of themselves, in order. -/
def summaries (pipeline : Pipeline α) : List Operation.Summary :=
  pipeline.operations.map Operation.summary

/-- Runs the operations from a given point on. -/
def resume (strategy : Strategy) (kind : String) (pipeline : Pipeline α)
    (progress : Progress α) : Run (Progress α) :=
  pipeline.operations.foldlM (Operation.advance strategy kind) progress

/-- Runs the operations of a validator of kind `kind` on a value. -/
def run (strategy : Strategy) (kind : String) (pipeline : Pipeline α) (a : α) :
    Run (Outcome α) :=
  Progress.outcome <$> pipeline.resume strategy kind ⟨a, .empty⟩

/-- The pipeline of a tuple carried over to a tuple with one more element. -/
def widen {n : Nat} (pipeline : Pipeline (Vector Value n)) : Pipeline (Vector Value (n + 1)) :=
  ⟨pipeline.operations.map Operation.widen⟩

/-! ## Adding an operation -/

@[simp] theorem operations_push (pipeline : Pipeline α) (operation : Operation α) :
    (pipeline.push operation).operations = pipeline.operations ++ [operation] := rfl

@[simp] theorem isAsync_push (pipeline : Pipeline α) (operation : Operation α) :
    (pipeline.push operation).isAsync = (pipeline.isAsync || operation.isAsync) := by
  simp [isAsync]

@[simp] theorem resume_empty (strategy : Strategy) (kind : String) (progress : Progress α) :
    (empty : Pipeline α).resume strategy kind progress = pure progress := rfl

/-- **One more operation comes last**: a run of the longer pipeline is a run of the shorter one and
then the operation added. -/
theorem resume_push (strategy : Strategy) (kind : String) (pipeline : Pipeline α)
    (operation : Operation α) (progress : Progress α) :
    (pipeline.push operation).resume strategy kind progress
      = pipeline.resume strategy kind progress >>= fun reached =>
          operation.advance strategy kind reached := by
  simp [resume, List.foldlM_append]

end Pipeline

end Conform
