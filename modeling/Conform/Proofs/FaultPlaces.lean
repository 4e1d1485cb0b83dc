import Conform.Fault
import Conform.Proofs.Paths

set_option autoImplicit false

/-!
# The place of a fault

A fault is raised inside a value and seen from further out, segment by segment.  Putting segments
before a fault is putting them before its key, also for a failed conversion, which keeps its path
apart from its name and gets a key only when it is asked for one.  What went wrong does not depend
on where it is seen from, and a configuration fault has no place.

So the segments act on faults as they act on keys: in one step or in several.

## Main results

* `Conform.Fault.under_under` — a fault seen from further out in one step or in several.
* `Conform.Fault.key?_under`, `Conform.Fault.message_under` — its key and its message from there.
* `Conform.Fault.text_eq_of_key`, `Conform.Fault.text_transform` — a fault on one line.
* `Conform.Fault.exists_key_under` — a recorded fault from further out.
* `Conform.Fault.qualification_acts_and_decodes` — what callers may rely on.
-/

namespace Conform

namespace Fault

/-! ## Sorts of faults -/

/-- A configuration fault names a kind and nothing else. -/
theorem eq_configuration {fault : Fault} (h : fault.isConfiguration = true) :
    ∃ kind, fault = .configuration kind := by
  cases fault with
  | configuration kind => exact ⟨kind, rfl⟩
  | validation check message => exact nomatch h
  | transform path source target reason => exact nomatch h

/-- A fault that is no configuration fault can be recorded. -/
theorem exists_key {fault : Fault} (h : fault.isConfiguration = false) :
    ∃ key, fault.key? = some key := by
  cases fault with
  | validation check message => exact ⟨_, rfl⟩
  | transform path source target reason => exact ⟨_, rfl⟩
  | configuration kind => simp [isConfiguration] at h

/-! ## Seen from further out -/

/-- From further out a fault looks like one of the same sort. -/
@[simp] theorem isConfiguration_under (segment : String) (fault : Fault) :
    (fault.under segment).isConfiguration = fault.isConfiguration := by
  cases fault <;> rfl

/-- **A fault seen from further out has the key seen from there**, also where the key keeps its path
apart from its name. -/
theorem key?_under (segment : String) (fault : Fault) :
    (fault.under segment).key? = fault.key?.map (Path.qualify segment) := by
  cases fault with
  | validation check message => rfl
  | configuration kind => rfl
  | transform path source target reason =>
    simp only [under, key?, Option.map_some, Path.qualify_assoc]

/-- Where a fault is seen from has no part in what went wrong. -/
theorem message_under (segment : String) (fault : Fault) :
    (fault.under segment).message = fault.message := by
  cases fault <;> rfl

/-- Nothing put before a fault leaves it where it is. -/
@[simp] theorem under_empty (fault : Fault) : fault.under "" = fault := by
  cases fault <;> simp [under]

/-- **A fault is seen from further out in one step or in several.** -/
theorem under_under (fault : Fault) (inner outer : String) :
    (fault.under inner).under outer = fault.under (Path.qualify outer inner) := by
  cases fault with
  | validation check message => simp only [under, Path.qualify_assoc]
  | transform path source target reason => simp only [under, Path.qualify_assoc]
  | configuration kind => rfl

/-! ## On one line -/

/-- A fault on one line is its key and its message. -/
theorem text_eq_of_key {fault : Fault} {key : String} (h : fault.key? = some key) :
    fault.text = key ++ ": " ++ fault.message := by
  rw [text, h]

/-- A failed conversion on one line: where it failed, and between what. -/
theorem text_transform (path source target reason : String) :
    (transform path source target reason).text
      = Path.qualify path transformCheck ++ ": cannot convert " ++ source ++ " to " ++ target
          ++ ": " ++ reason := by
  have hjoined : ": cannot convert " = ": " ++ "cannot convert " := by decide
  have hmessage : (transform path source target reason).text
      = Path.qualify path transformCheck ++ ": " ++
        ("cannot convert " ++ source ++ " to " ++ target ++ ": " ++ reason) := text_eq_of_key rfl
  rw [hmessage, hjoined]
  simp only [String.append_assoc]

/-- **A fault seen from further out, on one line**: the key seen from there and the same message. -/
theorem exists_key_under {fault : Fault} (h : fault.isConfiguration = false) (segment : String) :
    ∃ key, fault.key? = some key ∧ (fault.under segment).key? = some (Path.qualify segment key) ∧
      (fault.under segment).text = Path.qualify segment key ++ ": " ++ fault.message := by
  obtain ⟨key, hkey⟩ := exists_key h
  have hunder : (fault.under segment).key? = some (Path.qualify segment key) := by
    rw [key?_under, hkey, Option.map_some]
  refine ⟨key, hkey, hunder, ?_⟩
  rw [text_eq_of_key hunder, message_under]

/-! ## What callers may rely on -/

open Conform.Path in
/-- **Segments act on keys and on faults, and a key shows the segments it opens with.**

* Segments are put before a key in one step or in several, and the empty text, put before a key or
  after a segment, changes nothing.  They are put before a fault in the same way.
* A fault that is no configuration fault has a key.  From further out it has the key seen from there
  and the same message, and it reads as the key and the message; a failed conversion names its two
  stages.  A configuration fault is the same from everywhere.
* A key that opens with a position shows that position and the rest, whatever the rest looks like.
  The same holds of alternatives, and no key opens with both.
* So a key shows the steps that it opens with, once it is known how many they are. -/
theorem qualification_acts_and_decodes :
    (∀ outer inner key, qualify outer (qualify inner key) = qualify (qualify outer inner) key) ∧
      (∀ key, qualify "" key = key ∧ qualify key "" = key) ∧
      (∀ (fault : Fault) (inner outer : String), fault.under "" = fault ∧
        (fault.under inner).under outer = fault.under (qualify outer inner)) ∧
      (∀ (fault : Fault) (segment : String), fault.isConfiguration = false →
        ∃ key, fault.key? = some key ∧ fault.text = key ++ ": " ++ fault.message ∧
          (fault.under segment).key? = some (qualify segment key) ∧
          (fault.under segment).message = fault.message ∧
          (fault.under segment).text = qualify segment key ++ ": " ++ fault.message) ∧
      (∀ path source target reason, (transform path source target reason).text
        = qualify path transformCheck ++ ": cannot convert " ++ source ++ " to " ++ target
            ++ ": " ++ reason) ∧
      (∀ (fault : Fault) (segment : String), fault.isConfiguration = true →
        fault.under segment = fault) ∧
      (∀ i j key key', qualify (position i) key = qualify (position j) key' → i = j ∧ key = key') ∧
      (∀ i j key key',
        qualify (alternative i) key = qualify (alternative j) key' → i = j ∧ key = key') ∧
      (∀ i j key key', qualify (position i) key ≠ qualify (alternative j) key') ∧
      ∀ (steps steps' : List Step) (key key' : String), steps.length = steps'.length →
        steps.foldr (fun step => qualify step.segment) key
          = steps'.foldr (fun step => qualify step.segment) key' → steps = steps' ∧ key = key' := by
  refine ⟨qualify_assoc, fun key => ⟨qualify_empty_left key, qualify_empty_right key⟩,
    fun fault inner outer => ⟨under_empty fault, under_under fault inner outer⟩, ?_,
    text_transform, ?_, fun i j key key' => qualify_position_inj.mp,
    fun i j key key' => qualify_alternative_inj.mp, qualify_position_ne_alternative,
    fun steps steps' key key' hlength => (foldr_qualify_inj hlength).mp⟩
  · intro fault segment h
    obtain ⟨key, hkey, hunder, htext⟩ := exists_key_under h segment
    exact ⟨key, hkey, text_eq_of_key hkey, hunder, message_under segment fault, htext⟩
  · intro fault segment h
    obtain ⟨kind, rfl⟩ := eq_configuration h
    rfl

open Conform.Path in
/-- A conversion that failed in the thirteenth alternative of the second item of a list.  Keys that
can be come by in two ways show the same steps, and a digit that follows an alternative is no part
of its number. -/
theorem qualification_acts_and_decodes_of_nested_conversion :
    let fault := failedConversion "string" "integer" "invalid digit"
    let way := [Step.position 1, .alternative 12]
    fault.isConfiguration = false ∧
      ((fault.under (alternative 12)).under (position 1)).text
        = "[1].@12.transform: cannot convert string to integer: invalid digit" ∧
      qualify (position 1) "@12.type" = qualify (position 1) (qualify (alternative 12) "type") ∧
      "@12.type" = qualify (alternative 12) "type" ∧
      qualify (alternative 12) "[0].min" = qualify (alternative 12) (qualify (position 0) "min") ∧
      "[0].min" = qualify (position 0) "min" ∧
      way.foldr (fun step => qualify step.segment) "[2][0]"
        = way.foldr (fun step => qualify step.segment) (qualify (position 2) (position 0)) ∧
      "[2][0]" = qualify (position 2) (position 0) ∧
      qualify (alternative 1) "2.type" ≠ qualify (alternative 12) ".type" := by
  intro fault way
  obtain ⟨-, -, hunder, hplaced, -, -, hposition, halternative, -, hsteps⟩ :=
    qualification_acts_and_decodes
  have hitem : qualify (position 1) "@12.type"
      = qualify (position 1) (qualify (alternative 12) "type") := rfl
  have hchoice : qualify (alternative 12) "[0].min"
      = qualify (alternative 12) (qualify (position 0) "min") := rfl
  have hway : way.foldr (fun step => qualify step.segment) "[2][0]"
      = way.foldr (fun step => qualify step.segment) (qualify (position 2) (position 0)) := rfl
  refine ⟨rfl, ?_, hitem, (hposition 1 1 _ _ hitem).2, hchoice, (halternative 12 12 _ _ hchoice).2,
    hway, (hsteps way way _ _ rfl hway).2, fun h => ?_⟩
  · obtain ⟨key, hkey, -, -, -, htext⟩ :=
      hplaced fault (qualify (position 1) (alternative 12)) rfl
    obtain rfl : transformCheck = key := Option.some.inj hkey
    rw [(hunder fault (alternative 12) (position 1)).2, htext]
    rfl
  · exact absurd (halternative 1 12 _ _ h).1 (by decide)

end Fault

end Conform
