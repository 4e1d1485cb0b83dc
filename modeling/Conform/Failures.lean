import Conform.Keyed
import Conform.Path

set_option autoImplicit false

/-!
# Recorded failures

What a run that collects every failure has found so far: messages under failure keys, in the order
in which the keys were first recorded.  A key that is recorded again keeps its place and takes the
new message.

## Main definitions

* `Conform.Failures`: the failures recorded so far, each key once.
* `Conform.Failures.record`: one more failure.
* `Conform.Failures.absorb`: the failures of a part, filed under the segment of that part.
-/

namespace Conform

/-- Messages under failure keys, in the order of their first recording. -/
abbrev Failures := Keyed String String

namespace Failures

/-- No failures. -/
def empty : Failures := Keyed.empty

/-- Records a failure. -/
def record (failures : Failures) (key message : String) : Failures := Keyed.set failures key message

/-- The failures recorded one after another. -/
def ofList (recorded : List (String × String)) : Failures :=
  recorded.foldl (fun failures entry => record failures entry.1 entry.2) empty

/-- Files the failures of a part under the segment of that part. -/
def absorb (failures : Failures) (segment : String) (part : Failures) : Failures :=
  part.entries.foldl
    (fun known entry => record known (Path.qualify segment entry.1) entry.2) failures

@[simp] theorem absorb_empty (failures : Failures) (segment : String) :
    absorb failures segment empty = failures := rfl

end Failures

end Conform
