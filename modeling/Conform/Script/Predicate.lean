import Conform.Operation

set_option autoImplicit false

/-!
# Predicates as data

A small language of predicates on JSON values, for checks that are described and not programmed.  A
predicate may panic, and a panic ends the evaluation of all predicates around it.

## Main definitions

* `Conform.Script.Predicate`: the predicates.
* `Conform.Script.Predicate.eval`: what a predicate makes of a value.
-/

namespace Conform.Script

/-- A predicate on JSON values. -/
inductive Predicate where
  | always
  | never
  | panics
  /-- Panics if the condition holds, and holds otherwise. -/
  | panicsIf (condition : Predicate)
  | equals (value : Value)
  /-- The value is of the kind with this name. -/
  | ofKind (kind : String)
  | moreThan (bound : Int)
  | lessThan (bound : Int)
  | even
  | lengthAtLeast (least : Nat)
  | lengthAtMost (most : Nat)
  /-- The value is a text in which another one occurs. -/
  | contains (part : String)
  /-- The value is a text of the letters `a` to `z`. -/
  | lowercase
  /-- The value is an array with an item at the position, and the condition holds of it. -/
  | itemAt (position : Nat) (condition : Predicate)
  /-- The items at two positions are integers in ascending order. -/
  | ordered (first second : Nat)
  | every (condition : Predicate)
  | not (condition : Predicate)
  | all (conditions : List Predicate)
  | any (conditions : List Predicate)

/-- The number of characters, items or members of a value. -/
def length? : Value → Option Nat
  | .str s => some s.length
  | .arr items => some items.length
  | .obj members => some members.length
  | _ => none

/-- Whether a list occurs in another one without gaps. -/
def occurs (part : List Char) : List Char → Bool
  | [] => part.isEmpty
  | c :: rest => part.isPrefixOf (c :: rest) || occurs part rest

/-- Whether a condition holds of all items, asked from left to right until it does not. -/
def holdsOfAll (condition : Value → Reply Bool) : List Value → Reply Bool
  | [] => .answer true
  | item :: rest =>
    (condition item).bind fun b => if b then holdsOfAll condition rest else .answer false

namespace Predicate

mutual

/-- What a predicate makes of a value.  Numeric predicates see only integers that fit a signed
64-bit word. -/
def eval : Predicate → Value → Reply Bool
  | always, _ => .answer true
  | never, _ => .answer false
  | panics, _ => .panicked
  | panicsIf condition, value =>
    (condition.eval value).bind fun b => if b then .panicked else .answer true
  | equals other, value => .answer (value.sameAs other)
  | ofKind kind, value => .answer (value.kind.name == kind)
  | moreThan bound, value => .answer (value.toInt64?.any fun n => bound < n.toInt)
  | lessThan bound, value => .answer (value.toInt64?.any fun n => n.toInt < bound)
  | even, value => .answer (value.toInt64?.any fun n => n.toInt % 2 = 0)
  | lengthAtLeast least, value => .answer ((length? value).any fun n => least ≤ n)
  | lengthAtMost most, value => .answer ((length? value).any fun n => n ≤ most)
  | contains part, value => .answer (match value with
    | .str s => occurs part.toList s.toList
    | _ => false)
  | lowercase, value => .answer (match value with
    | .str s => s.toList.all fun c => 'a' ≤ c && c ≤ 'z'
    | _ => false)
  | itemAt position condition, value =>
    match value.items?.bind fun items => items[position]? with
    | some item => condition.eval item
    | none => .answer false
  | ordered first second, value => .answer (match value with
    | .arr items =>
      match items[first]?.bind Value.toInt64?, items[second]?.bind Value.toInt64? with
      | some a, some b => decide (a ≤ b)
      | _, _ => false
    | _ => false)
  | every condition, value => match value with
    | .arr items => holdsOfAll condition.eval items
    | _ => .answer false
  | not condition, value => (condition.eval value).map (!·)
  | all conditions, value => evalUntil false conditions value
  | any conditions, value => evalUntil true conditions value

/-- Asks predicates from left to right until one gives the decisive answer; if none does, the answer
is the other one. -/
def evalUntil (decisive : Bool) : List Predicate → Value → Reply Bool
  | [], _ => .answer !decisive
  | first :: rest, value =>
    (first.eval value).bind fun b => if b = decisive then .answer b else evalUntil decisive rest value

end

end Predicate

/-- How the answer of an asynchronous check comes about. -/
structure Delay where
  /-- How often the answer is not there yet. -/
  rounds : Nat
  /-- The predicate panics before there is anything to wait for. -/
  panicsAtOnce : Bool
  /-- The answer would be there, but a panic comes instead. -/
  panicsInTheEnd : Bool

/-- A future that is pending for some rounds. -/
def Delay.after (last : Future) : Nat → Future
  | 0 => last
  | rounds + 1 => .pending (after last rounds)

/-- The asynchronous form of a predicate. -/
def Delay.future (delay : Delay) (reply : Reply Bool) : Reply Future :=
  if delay.panicsAtOnce then .panicked
  else
    let last := match delay.panicsInTheEnd, reply with
      | false, .answer b => .ready b
      | _, _ => .broken
    .answer (Delay.after last delay.rounds)

end Conform.Script
