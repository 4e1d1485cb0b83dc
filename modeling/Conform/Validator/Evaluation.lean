import Conform.Validator.Basic

set_option autoImplicit false

/-!
# Evaluation of validators

How each form of validator makes an outcome of a value.  Every form is given by what it does with
the evaluations of its parts; `Validator.evaluate` puts them together by recursion.

A leaf, a union, a tuple, a nullable and a pipe run their own operations last, on the value that
their parts produced; a list runs them first, on the items as they come in.

## Main definitions

* `Conform.Evaluator`: what a part does with a value.
* `Conform.Leaf.evaluate`, `Conform.Items.evaluate`, `Conform.Optional.evaluate`,
  `Conform.Positions.evaluate`, `Conform.Choice.evaluate`, `Conform.Stages.evaluate`: the forms.
* `Conform.Validator.evaluate`: the evaluation of a validator.
-/

namespace Conform

/-- What a part does with a value. -/
abbrev Evaluator := Value → Run (Outcome Value)

/-- Refuses a value as the mode of the run wants it. -/
def refuse {α : Type} (strategy : Strategy) (fault : Fault) : Run (Outcome α) :=
  Run.ofExcept (Outcome.reject strategy.mode fault)

/-- Runs the operations of a validator on the value of an outcome that has one; their failures
join those recorded before. -/
def Core.finish {α : Type} (core : Core α) (strategy : Strategy) (kind : String)
    (outcome : Outcome α) : Run (Outcome α) :=
  match outcome.value with
  | none => pure outcome
  | some a => do
    let own ← core.pipeline.run strategy kind a
    pure { outcome.absorb "" own with value := own.value }

/-! ## Leaves -/

namespace Leaf

/-- Takes a value of the leaf's type and runs the operations on it. -/
def evaluate (strategy : Strategy) (type : LeafType) (core : Core type.Carrier) : Evaluator :=
  fun value => match type.read? value with
    | some a => (Outcome.map type.toValue) <$> core.pipeline.run strategy type.name a
    | none => refuse strategy (.typeMismatch type.name value)

end Leaf

/-! ## Lists -/

namespace Items

/-- The outcomes of items, the first of which stands at some position. -/
def outcomes (element : Evaluator) : Nat → List Value → Run (List (Outcome Value))
  | _, [] => pure []
  | position, item :: rest => do
    let outcome ← (element item).under (Path.position position)
    let later ← outcomes element (position + 1) rest
    pure (outcome :: later)

/-- The values produced, unless an item produced none. -/
def produced (outcomes : List (Outcome Value)) : Option (List Value) := outcomes.mapM (·.value)

/-- Failures, and after them those of items, each filed under the position of its item. -/
def absorb : Failures → Nat → List (Outcome Value) → Failures
  | failures, _, [] => failures
  | failures, position, outcome :: later =>
    absorb (failures.absorb (Path.position position) outcome.failures) (position + 1) later

/-- Runs the operations on the items of an array and then evaluates each item. -/
def evaluate (strategy : Strategy) (element : Evaluator) (core : Core (List Value)) : Evaluator :=
  fun value => match value.items? with
    | none => refuse strategy (.typeMismatch "array" value)
    | some items => do
      let own ← core.pipeline.run strategy "list" items
      let items ← outcomes element 0 (own.value.getD [])
      pure ⟨(produced items).map .arr, absorb own.failures 0 items, none⟩

end Items

/-! ## Nullables -/

namespace Optional

/-- `null` stands for the default; anything else is for the inner validator, whose value the
operations then see. -/
def evaluate (strategy : Strategy) (inner : Evaluator) (default : Option Value)
    (core : Core Value) : Evaluator
  | .null => pure (.success (default.getD .null))
  | value => do
    let outcome ← inner value
    core.finish strategy "nullable" outcome

end Optional

/-! ## Tuples -/

namespace Positions

variable {arity : Nat}

/-- What was gathered from the first `k` positions. -/
structure Gathered (k : Nat) where
  /-- The values produced, unless a position produced none. -/
  produced : Option (Vector Value k)
  /-- The failures, each filed under its position. -/
  failures : Failures

/-- Evaluates the first `k` positions, in order. -/
def gather (elements : Fin arity → Evaluator) (items : Vector Value arity) :
    (k : Nat) → k ≤ arity → Run (Gathered k)
  | 0, _ => pure ⟨some #v[], .empty⟩
  | k + 1, h => do
    let before ← gather elements items k (Nat.le_of_succ_le h)
    let outcome ← (elements ⟨k, h⟩ items[k]).under (Path.position k)
    pure
      { produced := before.produced.bind fun values => outcome.value.map values.push
        failures := before.failures.absorb (Path.position k) outcome.failures }

/-- Evaluates items position by position, if there are as many as there are positions. -/
def evaluate (strategy : Strategy) (elements : Fin arity → Evaluator) (items : List Value) :
    Run (Outcome (Vector Value arity)) :=
  match Value.exactly? arity items with
  | some items => do
    let gathered ← gather elements items arity (Nat.le_refl arity)
    pure ⟨gathered.produced, gathered.failures, none⟩
  | none => refuse strategy (.arityMismatch arity items.length)

/-- Evaluates the elements of an array and runs the operations on all of them together. -/
def evaluateArray (strategy : Strategy) (elements : Fin arity → Evaluator)
    (core : Core (Vector Value arity)) : Evaluator :=
  fun value => match value.items? with
    | none => refuse strategy (.typeMismatch "array" value)
    | some items => do
      let outcome ← evaluate strategy elements items
      let finished ← core.finish strategy "tuple" outcome
      pure (finished.map fun values => .arr values.toList)

end Positions

/-! ## Unions -/

namespace Choice

/-- What came of trying alternatives: the value of the first that matched, or the failures of
all. -/
inductive Verdict where
  | matched (value : Value)
  | exhausted (failures : Failures)

/-- Tries alternatives in order, the first of which has some index, until one matches.  A value
without a failure is a match; a configuration fault ends the attempts. -/
def tryAll (value : Value) : Nat → List Evaluator → Failures → Run Verdict
  | _, [], failures => pure (.exhausted failures)
  | index, alternative :: rest, failures => do
    match ← (alternative value).attempt with
    | .ok outcome =>
      if outcome.isSuccess then
        match outcome.value with
        | some produced => pure (.matched produced)
        | none => tryAll value (index + 1) rest failures
      else
        tryAll value (index + 1) rest
          (failures.absorb (Path.alternative index) outcome.failures)
    | .error fault =>
      match (fault.under (Path.alternative index)).key? with
      | some key => tryAll value (index + 1) rest (failures.record key fault.message)
      | none => Run.fail fault

/-- The failures of all alternatives on one line. -/
def summary (failures : Failures) : String :=
  "; ".intercalate (failures.entries.map fun (key, message) => key ++ ": " ++ message)

/-- What a union comes to when none of its alternatives matched. -/
def exhausted (strategy : Strategy) (count : Nat) (failures : Failures) : Run (Outcome Value) :=
  if count = 0 then refuse strategy (.validation Fault.unionCheck "union has no alternatives")
  else match strategy.mode with
    | .tolerant => pure ⟨none, failures, none⟩
    | .strict =>
      Run.fail (.validation Fault.unionCheck ("no alternative matched (" ++ summary failures ++ ")"))

/-- Runs the operations on what the first matching alternative produced. -/
def evaluate (strategy : Strategy) (alternatives : List Evaluator) (core : Core Value) : Evaluator :=
  fun value => do
    match ← tryAll value 0 alternatives .empty with
    | .matched produced => core.pipeline.run strategy "union" produced
    | .exhausted failures => exhausted strategy alternatives.length failures

end Choice

/-! ## Pipes -/

namespace Stages

/-- What the first stage and the conversion come to. -/
inductive Crossing where
  /-- A value for the second stage. -/
  | converted (value : Value)
  /-- The end of the evaluation. -/
  | halted (outcome : Outcome Value)

/-- Converts what the first stage produced, if it produced something and recorded no failure.
Otherwise, and if the conversion fails, the value produced is left untransformed. -/
def cross (strategy : Strategy) (source target : String) (conversion : Conversion)
    (first : Outcome Value) : Run Crossing :=
  match first.value with
  | none => pure (.halted first)
  | some produced =>
    if first.isSuccess then do
      Run.call .conversion .user conversion.label produced
      match conversion.convert produced with
      | .ok value => pure (.converted value)
      | .error reason => do
        let refused ← refuse strategy (.failedConversion source target reason)
        pure (.halted { refused with untransformed := some produced })
    else pure (.halted { first with value := none, untransformed := some produced })

/-- Evaluates the first stage, converts its value, evaluates the second stage, and runs the
operations on the value of that. -/
def evaluate (strategy : Strategy) (source target : String) (input output : Evaluator)
    (conversion : Conversion) (core : Core Value) : Evaluator :=
  fun value => do
    let first ← input value
    match ← cross strategy source target conversion first with
    | .halted outcome => pure outcome
    | .converted converted => do
      let outcome ← output converted
      core.finish strategy "pipe" outcome

end Stages

/-! ## All forms -/

namespace Validator

/-- The evaluation of a validator. -/
def evaluate (strategy : Strategy) : Validator → Evaluator
  | leaf type core => Leaf.evaluate strategy type core
  | list element core => Items.evaluate strategy (element.evaluate strategy) core
  | nullable inner default core =>
    Optional.evaluate strategy (inner.evaluate strategy) default core
  | tuple _ elements core =>
    Positions.evaluateArray strategy (fun i => (elements i).evaluate strategy) core
  | union _ alternatives core =>
    Choice.evaluate strategy (List.ofFn fun i => (alternatives i).evaluate strategy) core
  | pipe input output conversion core =>
    Stages.evaluate strategy input.kind output.kind (input.evaluate strategy)
      (output.evaluate strategy) conversion core
  | custom behaviour _ => fun value => do
    Run.call .validator .user "" value
    Run.ofExcept (behaviour.respond strategy value)

end Validator

end Conform
