import Conform.Proofs.OrderedChoice
import Mathlib.Data.List.Forall2
import Mathlib.Data.List.OfFn

set_option autoImplicit false

/-!
# Unions that fail

A union none of whose alternatives accepts a value has tried all of them, and what each of them left
behind is accounted for.  In a tolerant run these are the failures of the alternative, in a strict
run the one failure that its fault is recorded as; either way they are filed under the number of the
alternative, which shows in each key.  A tolerant run reports them all, a strict one puts them on
one line.

## Main results

* `Conform.Choice.tryAll_leaves`, `Conform.Choice.tryAll_exhausted` — attempts that all came to
  nothing.
* `Conform.Choice.evaluate_tolerant`, `Conform.Choice.evaluate_strict` — a union after such
  attempts.
* `Conform.Validator.failing_union` — what callers may rely on.
-/

namespace Conform

/-! ## Faults that are recorded -/

namespace Fault

/-- **A fault on one line is the failure that it is recorded as**, from wherever it is seen. -/
theorem text_under {fault : Fault} (h : fault.isConfiguration = false) (segment : String) :
    (fault.recorded.entriesUnder segment).map (fun (key, message) => key ++ ": " ++ message)
      = [(fault.under segment).text] := by
  obtain ⟨key, hkey, -, htext⟩ := exists_key_under h segment
  rw [htext, recorded, hkey]
  rfl

end Fault

namespace Choice

variable {value : Value} {count : Nat} {alternatives : Fin count → Evaluator}
  {left : Fin count → Failures}

/-! ## Attempts -/

/-- **Attempts that all came to nothing** leave their failures one after the other.

**Proof sketch.** Induction on the attempts, for any failures recorded so far. -/
theorem tryAll_leaves {tried : List Evaluator} {parts : List Failures}
    (h : List.Forall₂ (Leaves value) tried parts) (index : Nat) (failures : Failures) :
    tryAll value index tried failures
      = ⟨calls value tried,
          .ok (.exhausted (failures.absorbEach Path.alternative index parts))⟩ := by
  induction h generalizing index failures with
  | nil => rfl
  | cons hfirst _ ih => rw [tryAll_cons hfirst, ih, calls_cons, Failures.absorbEach]

/-- Attempts at alternatives told by their index. -/
theorem leaves_ofFn (h : ∀ i, Leaves value (alternatives i) (left i)) :
    List.Forall₂ (Leaves value) (List.ofFn alternatives) (List.ofFn left) := by
  refine List.forall₂_iff_get.mpr ⟨by simp, fun i hi hi' => ?_⟩
  rw [List.get_ofFn, List.get_ofFn]
  exact h _

/-- Attempts at alternatives told by their index that all came to nothing. -/
theorem tryAll_exhausted (h : ∀ i, Leaves value (alternatives i) (left i)) (index : Nat)
    (failures : Failures) :
    tryAll value index (List.ofFn alternatives) failures
      = ⟨calls value (List.ofFn alternatives),
          .ok (.exhausted (failures.absorbEach Path.alternative index (List.ofFn left)))⟩ :=
  tryAll_leaves (leaves_ofFn h) index failures

/-- What attempts leave comes one after the other, each under the number of its alternative. -/
theorem entries_leaves (parts : List Failures) :
    (Failures.empty.absorbEach Path.alternative 0 parts).entries
      = Failures.filed Path.alternative parts :=
  Failures.entries_absorbEach Path.separates_alternative parts .empty 0 fun _ _ _ =>
    List.not_mem_nil

/-- What attempts at alternatives told by their index leave. -/
theorem entries_left (left : Fin count → Failures) :
    (Failures.empty.absorbEach Path.alternative 0 (List.ofFn left)).entries
      = (List.ofFn fun i => (left i).entriesUnder (Path.alternative i)).flatten := by
  have hnumbered : (List.ofFn left).zipIdx = List.ofFn fun i => (left i, i.val) := by
    apply List.ext_getElem
    · simp
    · intro i hi hi'
      simp
  rw [entries_leaves, Failures.filed, hnumbered, List.flatMap_def, List.map_ofFn]
  rfl

/-- None of it gets lost. -/
theorem size_left (left : Fin count → Failures) :
    (Failures.empty.absorbEach Path.alternative 0 (List.ofFn left)).size
      = Failures.totalSize (List.ofFn left) := by
  rw [Failures.size_absorbEach Path.separates_alternative _ .empty 0 fun _ _ _ =>
    List.not_mem_nil]
  exact Nat.zero_add _

/-! ## Unions -/

/-- What a union does after attempts that all came to nothing. -/
theorem evaluate_exhausted (h : ∀ i, Leaves value (alternatives i) (left i)) (strategy : Strategy)
    (core : Core Value) :
    evaluate strategy (List.ofFn alternatives) core value
      = ⟨calls value (List.ofFn alternatives)
            ++ (exhausted strategy count
              (Failures.empty.absorbEach Path.alternative 0 (List.ofFn left))).trace,
          (exhausted strategy count
            (Failures.empty.absorbEach Path.alternative 0 (List.ofFn left))).result⟩ := by
  rw [evaluate, tryAll_exhausted h 0 .empty, Run.bind_eq, List.length_ofFn]

/-- **A tolerant union that fails** reports what every alternative left. -/
theorem evaluate_tolerant (h : ∀ i, Leaves value (alternatives i) (left i)) (hcount : 0 < count)
    (scheduling : Scheduling) (core : Core Value) :
    evaluate ⟨.tolerant, scheduling⟩ (List.ofFn alternatives) core value
      = ⟨calls value (List.ofFn alternatives),
          .ok ⟨none, Failures.empty.absorbEach Path.alternative 0 (List.ofFn left), none⟩⟩ := by
  have hsome : count ≠ 0 := by omega
  rw [evaluate_exhausted h]
  simp [exhausted, hsome, Run.pure_eq]

/-- **A strict union that fails** puts the fault of every alternative on one line. -/
theorem evaluate_strict {faults : Fin count → Fault}
    (h : ∀ i, (alternatives i value).result = .error (.fault (faults i)))
    (hf : ∀ i, (faults i).isConfiguration = false) (hcount : 0 < count) (scheduling : Scheduling)
    (core : Core Value) :
    evaluate ⟨.strict, scheduling⟩ (List.ofFn alternatives) core value
      = ⟨calls value (List.ofFn alternatives),
          .error (.fault (.validation Fault.unionCheck ("no alternative matched ("
            ++ "; ".intercalate
              (List.ofFn fun i => ((faults i).under (Path.alternative i)).text) ++ ")")))⟩ := by
  have hsome : count ≠ 0 := by omega
  have hleaves (i : Fin count) : Leaves value (alternatives i) (faults i).recorded :=
    .refused (h i) (hf i)
  let lines : List String := List.ofFn fun i => ((faults i).under (Path.alternative i)).text
  have hlines : ((List.ofFn fun i => (faults i).recorded.entriesUnder (Path.alternative i)).map
      (List.map fun (key, message) => key ++ ": " ++ message)).flatten = lines := by
    rw [List.map_ofFn, ← List.flatMap_singleton' lines, List.flatMap_def, List.map_ofFn]
    exact congrArg (fun f => (List.ofFn f).flatten)
      (funext fun i => Fault.text_under (hf i) (Path.alternative i))
  have hsummary : summary (Failures.empty.absorbEach Path.alternative 0
      (List.ofFn fun i => (faults i).recorded)) = "; ".intercalate lines := by
    rw [summary, entries_left, List.map_flatten]
    exact congrArg (String.intercalate "; ") hlines
  rw [evaluate_exhausted hleaves]
  simp [exhausted, hsome, Run.fail, hsummary, lines]

end Choice

namespace Validator

variable {count : Nat} {alternatives : Fin count → Validator} {core : Core Value}
  {scheduling : Scheduling} {value : Value}

/-- **A failing union accounts for every alternative.**  Let none of the alternatives accept a
value, and let no tolerant run of one of them panic.  A tolerant run of the union tries them all and
comes to no value; its failures are those that the alternatives report, in their order, each under
the number of its alternative, and none of them is written over.  A strict run ends with the failure
of the union, whose message holds the strict fault of every alternative, seen from the union, each
once and in order.  Neither runs the operations of the union.

**Proof sketch.** Every attempt leaves failures behind, which the next attempts add to
(`Choice.tryAll_exhausted`).  A key shows the number of the alternative that it opens with
(`Path.separates_alternative`), so that no two of these failures meet (`Choice.entries_left`), and a
fault on one line is the failure that it is recorded as (`Fault.text_under`). -/
theorem failing_union (h : (union count alternatives core).Composed) (hcount : 0 < count)
    (hp : scheduling.Permits (union count alternatives core).requiresAsync)
    (hpanic : ∀ i, ((alternatives i).evaluate ⟨.tolerant, scheduling⟩ value).result
      ≠ .error .panic)
    (hnone : ∀ i produced, ¬ (alternatives i).Accepts scheduling value produced) :
    ∃ (outcomes : Fin count → Outcome Value) (faults : Fin count → Fault) (failures : Failures),
      (∀ i, ((alternatives i).evaluate ⟨.tolerant, scheduling⟩ value).result
        = .ok (outcomes i)) ∧
      (∀ i, ((alternatives i).evaluate ⟨.strict, scheduling⟩ value).result
        = .error (.fault (faults i))) ∧
      (union count alternatives core).evaluate ⟨.tolerant, scheduling⟩ value
        = ⟨Choice.calls value
              (List.ofFn fun i => (alternatives i).evaluate ⟨.tolerant, scheduling⟩),
            .ok ⟨none, failures, none⟩⟩ ∧
      failures.entries
        = (List.ofFn fun i => (outcomes i).failures.entriesUnder (Path.alternative i)).flatten ∧
      failures.size = Failures.totalSize (List.ofFn fun i => (outcomes i).failures) ∧
      (union count alternatives core).evaluate ⟨.strict, scheduling⟩ value
        = ⟨Choice.calls value
              (List.ofFn fun i => (alternatives i).evaluate ⟨.strict, scheduling⟩),
            .error (.fault (.validation Fault.unionCheck ("no alternative matched ("
              ++ "; ".intercalate
                (List.ofFn fun i => ((faults i).under (Path.alternative i)).text) ++ ")")))⟩ := by
  have hpermits : ∀ i, scheduling.Permits (alternatives i).requiresAsync := permits_alternative hp
  obtain ⟨outcomes, houtcomes⟩ := Classical.axiomOfChoice fun i =>
    exists_outcome (h i) (hpermits i) (hpanic i)
  obtain ⟨faults, hfaults⟩ := Classical.axiomOfChoice fun i =>
    exists_fault_of_not_accepts (h i) (hpermits i) (hpanic i) (hnone i)
  have hleaves (i : Fin count) : Choice.Leaves value
      ((alternatives i).evaluate ⟨.tolerant, scheduling⟩) (outcomes i).failures :=
    .flawed (houtcomes i) ((not_accepts_iff (h i) (hpermits i) (houtcomes i)).mp (hnone i))
  refine ⟨outcomes, faults, _, houtcomes, fun i => (hfaults i).1,
    Choice.evaluate_tolerant hleaves hcount scheduling core, Choice.entries_left _,
    Choice.size_left _, ?_⟩
  exact Choice.evaluate_strict (fun i => (hfaults i).1) (fun i => (hfaults i).2) hcount scheduling
    core

/-- A union of a union and of a pipe whose conversion fails.  The failures of the inner union keep
their own numbers, and in the strict fault the inner union stands with its one line. -/
theorem failing_union_of_union_and_pipe :
    let inner := (ofType .string).or (ofType .integer)
    let failing := thenTo ⟨"stop", fun _ => .answer (.error "no")⟩ (ofType .any) (ofType .any)
    let alternatives : Fin 2 → Validator := extend (extend noParts inner) failing
    let detail := "no alternative matched (@0.type: expected string, received boolean; "
      ++ "@1.type: expected integer, received boolean)"
    let lines := "no alternative matched (@0.union: " ++ detail
      ++ "; @1.transform: cannot convert any to any: no)"
    ∃ failures : Failures,
      ((union 2 alternatives .blank).evaluate ⟨.tolerant, .sync⟩ (.bool true)).result
        = .ok ⟨none, failures, none⟩ ∧
      failures.entries = [("@0.@0.type", "expected string, received boolean"),
        ("@0.@1.type", "expected integer, received boolean"),
        ("@1.transform", "cannot convert any to any: no")] ∧
      ((union 2 alternatives .blank).evaluate ⟨.strict, .sync⟩ (.bool true)).result
        = .error (.fault (.validation "union" lines)) := by
  intro inner failing alternatives detail lines
  have h : (union 2 alternatives .blank).Composed := (forall_extend Composed).mpr
    ⟨(forall_extend Composed).mpr ⟨fun i => i.elim0, composed_or trivial trivial⟩, trivial, trivial⟩
  have hp : Scheduling.sync.Permits (union 2 alternatives .blank).requiresAsync := fun _ => rfl
  have hpanic : ∀ i, ((alternatives i).evaluate ⟨.tolerant, .sync⟩ (.bool true)).result
      ≠ .error .panic := fun | 0 => nofun | 1 => nofun
  have hnone : ∀ i produced, ¬ (alternatives i).Accepts .sync (.bool true) produced := by
    intro i produced ha
    obtain ⟨-, hr⟩ := (accepts_iff (h i)).mp ha
    match i, hr with
    | 0, hr => exact nomatch hr
    | 1, hr => exact nomatch hr
  obtain ⟨outcomes, faults, failures, houtcomes, hfaults, htolerant, hentries, -, hstrict⟩ :=
    failing_union h (by decide) hp hpanic hnone
  obtain rfl : (fun
      | 0 => ⟨none, .ofList [("@0.type", "expected string, received boolean"),
          ("@1.type", "expected integer, received boolean")], none⟩
      | 1 => ⟨none, .ofList [("transform", "cannot convert any to any: no")], some (.bool true)⟩)
        = outcomes := by
    funext i
    match i with
    | 0 => exact Except.ok.inj (houtcomes 0)
    | 1 => exact Except.ok.inj (houtcomes 1)
  obtain rfl : (fun
      | 0 => .validation "union" detail
      | 1 => .transform "" "any" "any" "no") = faults := by
    funext i
    match i with
    | 0 => exact Stop.fault.inj (Except.error.inj (hfaults 0))
    | 1 => exact Stop.fault.inj (Except.error.inj (hfaults 1))
  refine ⟨failures, congrArg Run.result htolerant, hentries, ?_⟩
  have hlines : ("no alternative matched (" ++ "; ".intercalate
      [(Fault.under "@0" (.validation "union" detail)).text,
        (Fault.under "@1" (.transform "" "any" "any" "no")).text] ++ ")") = lines := by
    decide +kernel
  rw [hstrict, ← hlines]
  rfl

end Validator

end Conform
