import Conform.Pattern.Search
import Conform.Text.Blank

set_option autoImplicit false

/-!
# Patterns read from text

The written form of a pattern.  A character stands for itself unless it is one of the marks: the
point, `^` and `$`, sets in square brackets, groups in round brackets, bars between alternatives,
and after any of these how often it is repeated.  A backslash takes its meaning from a mark.  A
question mark after a repetition asks for few rounds rather than many, which decides where a part
that fits ends and not whether there is one, so it is read and left out.

A set holds characters, ranges and further sets in square brackets.  Hyphens at its very beginning,
or a closing bracket that is first of all, stand for themselves and begin no range.  Two hyphens
take away, two ampersands keep what is common and two tildes what is not; each of these joins
everything before it with what follows up to the next of them.

The text is cut into tokens first; the tokens are then put together with the open groups on a
stack.  Both are recursions on their input.

## Main definitions

* `Conform.Pattern.OpenSet`: a set in the middle of its reading.
* `Conform.Pattern.Token`, `Conform.Pattern.tokens?`: the tokens of a written pattern.
* `Conform.Pattern.assemble?`: what tokens describe together.
* `Conform.Pattern`: a written pattern, with what it describes.
* `Conform.Pattern.ofText?`: the pattern that a text is, if it is one.
-/

namespace Conform.Pattern

/-- A piece of a written pattern. -/
inductive Token where
  | atom (expr : Expr)
  | times (least : Nat) (most : Option Nat)
  | bar
  | opening
  | closing

/-! ## Tokens -/

/-- A set whose closing bracket was not reached. -/
structure OpenSet where
  /-- Whether the set holds what is left out. -/
  negated : Bool
  /-- Joins what is read now with what stands before the last operator. -/
  joined : CharSet → CharSet
  /-- What was read since the last operator. -/
  read : CharSet
  /-- Whether at most hyphens were read, so that another one stands for itself. -/
  leading : Bool

namespace OpenSet

/-- A set of which nothing was read. -/
def begun (negated : Bool) : OpenSet := ⟨negated, id, .empty, true⟩

/-- Adds what was read. -/
def add (openSet : OpenSet) (set : CharSet) : OpenSet :=
  { openSet with read := .union openSet.read set, leading := false }

/-- Adds a hyphen at the very beginning. -/
def addHyphen (openSet : OpenSet) : OpenSet :=
  { openSet with read := .union openSet.read (.single '-') }

/-- Reads an operator. -/
def operate (openSet : OpenSet) (operator : CharSet → CharSet → CharSet) : OpenSet :=
  { openSet with
    joined := operator (openSet.joined openSet.read), read := .empty, leading := false }

/-- The whole set. -/
def finish (openSet : OpenSet) : CharSet :=
  let set := openSet.joined openSet.read
  if openSet.negated then .compl set else set

end OpenSet

/-- What the reader is in the middle of. -/
inductive Place where
  /-- Nothing in particular. -/
  | outside
  /-- A set, and the sets around it. -/
  | inSet (openSet : OpenSet) (around : List OpenSet)
  /-- A range of a set, of which the first character was read. -/
  | inRange (openSet : OpenSet) (around : List OpenSet) (low : Char)
  /-- Bounds of a repetition, of which the characters were read, the last one first. -/
  | inBounds (reversed : List Char)

/-- The place after a character of a set, by what follows.  A hyphen makes a range of it, unless the
set ends after the hyphen or the hyphen is doubled. -/
def Place.after (openSet : OpenSet) (around : List OpenSet) (c : Char) : List Char → Place
  | '-' :: next :: _ =>
    if next = ']' ∨ next = '-' then .inSet (openSet.add (.single c)) around
    else .inRange openSet around c
  | _ => .inSet (openSet.add (.single c)) around

/-- The place after a range of a set, which must not run backwards. -/
def Place.afterRange? (openSet : OpenSet) (around : List OpenSet) (low high : Char) :
    Option Place :=
  if low ≤ high then some (.inSet (openSet.add (.range low high)) around) else none

/-- The character that a backslash and another character stand for. -/
def escaped? (c : Char) : Option Char :=
  if c = 'n' then some '\n'
  else if c = 't' then some '\t'
  else if c = 'r' then some '\r'
  else if c.isAlphanum then none
  else some c

/-- The number that decimal digits with blanks around them stand for. -/
def bound? (text : List Char) : Option Nat :=
  let digits := ((text.dropWhile Text.isBlank).reverse.dropWhile Text.isBlank).reverse
  if digits.isEmpty || !digits.all Char.isDigit then none
  else some (digits.foldl (fun n c => 10 * n + (c.toNat - '0'.toNat)) 0)

/-- The repetition that bounds ask for: so often, at least so often, or from so often to so often. -/
def bounds? (text : List Char) : Option Token :=
  match text.span (· ≠ ',') with
  | (least, []) => (bound? least).map fun m => .times m (some m)
  | (least, [_]) => (bound? least).map fun m => .times m none
  | (least, _ :: most) => do
    let m ← bound? least
    let n ← bound? most
    if m ≤ n then some (.times m (some n)) else none

/-- The tokens of a written pattern, read from some place on. -/
def tokensFrom? : Place → List Char → Option (List Token)
  | .outside, [] => some []
  | .outside, '\\' :: c :: rest => do
    let meant ← escaped? c
    let more ← tokensFrom? .outside rest
    pure (.atom (.char meant) :: more)
  | .outside, '(' :: '?' :: ':' :: rest => (tokensFrom? .outside rest).map (.opening :: ·)
  | .outside, '[' :: '^' :: rest => tokensFrom? (.inSet (.begun true) []) rest
  | .outside, '*' :: '?' :: rest => (tokensFrom? .outside rest).map (.times 0 none :: ·)
  | .outside, '+' :: '?' :: rest => (tokensFrom? .outside rest).map (.times 1 none :: ·)
  | .outside, '?' :: '?' :: rest => (tokensFrom? .outside rest).map (.times 0 (some 1) :: ·)
  | .outside, c :: rest =>
    match c with
    | '(' => if rest.head? = some '?' then none else (tokensFrom? .outside rest).map (.opening :: ·)
    | ')' => (tokensFrom? .outside rest).map (.closing :: ·)
    | '|' => (tokensFrom? .outside rest).map (.bar :: ·)
    | '[' => tokensFrom? (.inSet (.begun false) []) rest
    | '{' => tokensFrom? (.inBounds []) rest
    | '*' => (tokensFrom? .outside rest).map (.times 0 none :: ·)
    | '+' => (tokensFrom? .outside rest).map (.times 1 none :: ·)
    | '?' => (tokensFrom? .outside rest).map (.times 0 (some 1) :: ·)
    | '.' => (tokensFrom? .outside rest).map (.atom .dot :: ·)
    | '^' => (tokensFrom? .outside rest).map (.atom .start :: ·)
    | '$' => (tokensFrom? .outside rest).map (.atom .finish :: ·)
    | '\\' => none
    | c => (tokensFrom? .outside rest).map (.atom (.char c) :: ·)
  | .inSet .., [] => none
  | .inSet openSet around, '\\' :: c :: rest => do
    let meant ← escaped? c
    tokensFrom? (.after openSet around meant rest) rest
  | .inSet openSet around, '-' :: '-' :: rest =>
    if openSet.leading then tokensFrom? (.inSet openSet.addHyphen.addHyphen around) rest
    else tokensFrom? (.inSet (openSet.operate .diff) around) rest
  | .inSet openSet around, '&' :: '&' :: rest =>
    tokensFrom? (.inSet (openSet.operate .inter) around) rest
  | .inSet openSet around, '~' :: '~' :: rest =>
    tokensFrom? (.inSet (openSet.operate .symmDiff) around) rest
  | .inSet openSet around, '[' :: '^' :: rest =>
    tokensFrom? (.inSet (.begun true) (openSet :: around)) rest
  | .inSet openSet around, c :: rest =>
    match c with
    | '\\' => none
    | '[' =>
      if rest.head? = some ':' then none
      else tokensFrom? (.inSet (.begun false) (openSet :: around)) rest
    | ']' =>
      if openSet.leading ∧ openSet.read = .empty then
        tokensFrom? (.inSet (openSet.add (.single ']')) around) rest
      else match around with
        | [] => (tokensFrom? .outside rest).map (.atom (.one openSet.finish) :: ·)
        | outer :: around => tokensFrom? (.inSet (outer.add openSet.finish) around) rest
    | '-' =>
      if openSet.leading then tokensFrom? (.inSet openSet.addHyphen around) rest
      else tokensFrom? (.after openSet around '-' rest) rest
    | c => tokensFrom? (.after openSet around c rest) rest
  | .inRange openSet around low, '-' :: '\\' :: c :: rest => do
    let high ← escaped? c
    let place ← Place.afterRange? openSet around low high
    tokensFrom? place rest
  | .inRange openSet around low, '-' :: high :: rest =>
    if high = '\\' then none
    else do
      let place ← Place.afterRange? openSet around low high
      tokensFrom? place rest
  | .inRange .., _ => none
  | .inBounds reversed, '}' :: '?' :: rest => do
    let token ← bounds? reversed.reverse
    let more ← tokensFrom? .outside rest
    pure (token :: more)
  | .inBounds reversed, c :: rest =>
    if c = '}' then do
      let token ← bounds? reversed.reverse
      let more ← tokensFrom? .outside rest
      pure (token :: more)
    else tokensFrom? (.inBounds (c :: reversed)) rest
  | .inBounds _, [] => none

/-- The tokens of a written pattern. -/
def tokens? (text : String) : Option (List Token) := tokensFrom? .outside text.toList

/-! ## Patterns from tokens -/

/-- A group that is still open: its finished alternatives, and the parts of the current one, the
last one first. -/
structure Group where
  /-- The alternatives that are finished. -/
  finished : Option Expr
  /-- The parts of the current alternative, the last one first. -/
  parts : List Expr

namespace Group

/-- A group in which nothing stands yet. -/
def fresh : Group := ⟨none, []⟩

/-- The parts one after another. -/
def current (group : Group) : Expr := group.parts.foldl (fun later part => .seq part later) .empty

/-- What the whole group describes. -/
def expr (group : Group) : Expr :=
  match group.finished with
  | some before => .either before group.current
  | none => group.current

/-- Adds a part to the current alternative. -/
def add (group : Group) (part : Expr) : Group := { group with parts := part :: group.parts }

end Group

/-- Puts tokens together, inside a group and the groups around it. -/
def assemble? : List Token → Group → List Group → Option Expr
  | [], group, [] => some group.expr
  | [], _, _ :: _ => none
  | .atom expr :: rest, group, around => assemble? rest (group.add expr) around
  | .bar :: rest, group, around => assemble? rest ⟨some group.expr, []⟩ around
  | .opening :: rest, group, around => assemble? rest .fresh (group :: around)
  | .closing :: rest, group, outer :: around => assemble? rest (outer.add group.expr) around
  | .closing :: _, _, [] => none
  | .times least most :: rest, ⟨finished, part :: parts⟩, around =>
    assemble? rest ⟨finished, .times part least most :: parts⟩ around
  | .times _ _ :: _, ⟨_, []⟩, _ => none

/-- What a text describes, if it is a written pattern. -/
def read? (text : String) : Option Expr :=
  (tokens? text).bind fun tokens => assemble? tokens .fresh []

end Conform.Pattern

namespace Conform

/-- A written pattern, with what it describes. -/
structure Pattern where
  /-- The pattern as it is written. -/
  source : String
  /-- What it describes. -/
  expr : Pattern.Expr
  /-- The one is read from the other. -/
  read_source : Pattern.read? source = some expr

namespace Pattern

/-- The pattern that a text is. -/
def ofText? (text : String) : Option Pattern :=
  match h : read? text with
  | some expr => some ⟨text, expr, h⟩
  | none => none

/-- Whether some part of a text fits the pattern. -/
def occursIn (pattern : Pattern) (text : String) : Bool := pattern.expr.occursIn text

end Pattern

end Conform
