import Conform.Proofs.BrokenRuns
import Conform.Proofs.ExhaustedUnions

set_option autoImplicit false

/-!
# Unions within unions

A union that is an alternative of another one could give way to its own alternatives: both are ordered
choice, and the outer union hands a value on until someone takes it.  A union without operations of its
own adds two things only.  It has a number of its own, which shows in the failures of its
alternatives, and a strict run of it puts their faults together into one.

What is recorded before an attempt, and which number it has, has no influence on whether it decides
the choice.  Attempts therefore come out in one of two ways: each of them leaves failures behind, or
they end with one that decides, which is a match or a stop that nothing handles.

## Main definitions

* `Conform.Choice.Decides` — an attempt that decides.
* `Conform.Choice.Course` — how attempts come out.
* `Conform.Validator.ofAlternatives`, `Conform.Validator.inPlace` — the union of a list of
  validators, and alternatives with others in place of one of them.
* `Conform.Validator.LeavesInPlace` — what attempts leave behind, before, inside and after an inner
  union.

## Main results

* `Conform.Choice.evaluate_leaves` — a union none of whose alternatives decides.
* `Conform.Choice.decides_nested`, `Conform.Choice.leaves_nested` — a union without operations as an
  attempt.
* `Conform.Choice.tryAll_nested` — an inner union and its alternatives in its place.
* `Conform.Validator.nesting_keeps_choice` — what callers may rely on.
-/

namespace Conform

/-- A run that comes to a value without a failure does not come to nothing. -/
theorem Run.not_missed_of_success {α : Type} {run : Run (Outcome α)} {a : α}
    (h : run.result = .ok (.success a)) : ¬ run.Missed := by
  rintro (⟨outcome, hr, hs⟩ | ⟨fault, hr, -⟩)
  · cases h.symm.trans hr
    cases hs
  · cases h.symm.trans hr

/-! ## Attempts -/

namespace Choice

variable {value : Value} {alternative : Evaluator} {alternatives : List Evaluator}
  {strategy : Strategy} {made : List Call} {ended : Except Stop Value} {parts : List Failures}

/-- What an attempt leaves behind is never nothing. -/
theorem Leaves.isEmpty_eq_false {part : Failures} (h : Leaves value alternative part) :
    part.isEmpty = false := by
  cases h with
  | flawed hr hs => exact hs
  | @refused fault hr hf =>
    obtain ⟨key, hkey⟩ := Fault.exists_key hf
    rw [Fault.recorded, hkey]
    exact Failures.isEmpty_record .empty key fault.message

/-- An attempt leaves something behind if it comes to nothing. -/
theorem missed_iff_leaves : (alternative value).Missed ↔ ∃ part, Leaves value alternative part := by
  constructor
  · rintro (⟨outcome, hr, hs⟩ | ⟨fault, hr, hf⟩)
    · exact ⟨_, .flawed hr hs⟩
    · exact ⟨_, .refused hr hf⟩
  · rintro ⟨part, h⟩
    cases h with
    | flawed hr hs => exact Or.inl ⟨_, hr, hs⟩
    | refused hr hf => exact Or.inr ⟨_, hr, hf⟩

/-- **An attempt that decides**: it is a match, or nothing handles the way it stopped. -/
structure Decides (value : Value) (alternative : Evaluator) (made : List Call)
    (ended : Except Stop Value) : Prop where
  /-- The run of the alternative. -/
  run_eq : alternative value = ⟨made, ended.map .success⟩
  /-- A stop is a final one. -/
  final : ∀ stop, ended = .error stop → stop.Final

/-- Nothing is tried after an attempt that decides. -/
theorem Decides.tryAll_cons (h : Decides value alternative made ended) (rest : List Evaluator)
    (index : Nat) (failures : Failures) :
    tryAll value index (alternative :: rest) failures = ⟨made, ended.map .matched⟩ := by
  cases ended with
  | ok produced =>
    have hmatched : (alternative value).result = .ok (.success produced) :=
      congrArg Run.result h.run_eq
    rw [tryAll_matched hmatched, h.run_eq]
    rfl
  | error stop =>
    have hbreaks : (tryAll value index (alternative :: rest) failures).Breaks stop made :=
      (tryAll_breaks_iff (h.final stop rfl)).mpr
        ⟨[], alternative, rest, [], failures, made, rfl, rfl, h.run_eq, rfl⟩
    exact hbreaks

/-- **How attempts come out**: all of them come to nothing, or one of them decides. -/
inductive Course (value : Value) (alternatives : List Evaluator) : Prop where
  /-- Each attempt leaves failures behind. -/
  | exhausted (parts : List Failures) : List.Forall₂ (Leaves value) alternatives parts →
    Course value alternatives
  /-- The attempts end with one that decides, whatever was recorded before. -/
  | decided (made : List Call) (ended : Except Stop Value) :
    (∀ stop, ended = .error stop → stop.Final) →
    (∀ index failures, tryAll value index alternatives failures = ⟨made, ended.map .matched⟩) →
    Course value alternatives

/-- Attempts each of which comes to nothing or decides. -/
theorem course_of_attempts
    (h : ∀ alternative ∈ alternatives,
      (alternative value).Missed ∨ ∃ made ended, Decides value alternative made ended) :
    Course value alternatives := by
  induction alternatives with
  | nil => exact .exhausted [] .nil
  | cons alternative rest ih =>
    rw [List.forall_mem_cons] at h
    obtain hmissed | ⟨made, ended, hd⟩ := h.1
    · obtain ⟨part, hleaves⟩ := missed_iff_leaves.mp hmissed
      cases ih h.2 with
      | exhausted parts hparts => exact .exhausted (part :: parts) (.cons hleaves hparts)
      | decided made ended hf hrest =>
        refine .decided ((alternative value).trace ++ made) ended hf fun index failures => ?_
        rw [tryAll_cons hleaves, hrest]
    · exact .decided made ended hd.final (hd.tryAll_cons rest)

/-! ## Unions none of whose alternatives decides -/

/-- What a strict union comes to after attempts that came to nothing. -/
theorem exhausted_strict (hm : strategy.mode = .strict) (count : Nat) (failures : Failures) :
    ∃ message, exhausted strategy count failures
      = Run.fail (.validation Fault.unionCheck message) := by
  unfold exhausted
  split
  · exact ⟨_, refuse_strict hm⟩
  · simp only [hm]
    exact ⟨_, rfl⟩

/-- What a tolerant union comes to after attempts that came to nothing: what they left, or a failure
of its own if there was nothing to try. -/
theorem exhausted_tolerant (hm : strategy.mode = .tolerant) (count : Nat) (failures : Failures) :
    ∃ reported, exhausted strategy count failures = pure ⟨none, reported, none⟩ ∧
      (0 < count → reported = failures) ∧ (count = 0 → reported.isEmpty = false) := by
  unfold exhausted
  split
  · rename_i hcount
    refine ⟨_, refuse_tolerant hm rfl, fun hpos => absurd hcount (Nat.ne_of_gt hpos), fun _ => ?_⟩
    exact Failures.isEmpty_record _ _ _
  · rename_i hcount
    simp only [hm]
    exact ⟨failures, rfl, fun _ => rfl, fun hzero => absurd hzero hcount⟩

/-- **A union none of whose alternatives decides** makes the calls of all attempts. -/
theorem evaluate_leaves (h : List.Forall₂ (Leaves value) alternatives parts) (strategy : Strategy)
    (core : Core Value) :
    evaluate strategy alternatives core value
      = ⟨calls value alternatives,
          (exhausted strategy alternatives.length
            (Failures.empty.absorbEach Path.alternative 0 parts)).result⟩ := by
  have htrace (failures : Failures) :
      (exhausted strategy alternatives.length failures).trace = [] := by
    cases hm : strategy.mode with
    | strict =>
      obtain ⟨message, hexhausted⟩ := exhausted_strict hm alternatives.length failures
      rw [hexhausted]
      rfl
    | tolerant =>
      obtain ⟨reported, hexhausted, -⟩ := exhausted_tolerant hm alternatives.length failures
      rw [hexhausted]
      rfl
  rw [evaluate, tryAll_leaves h 0 .empty, Run.bind_eq]
  simp only [htrace, List.append_nil]

/-- A strict union none of whose alternatives decides stops with its own failure. -/
theorem evaluate_leaves_strict (h : List.Forall₂ (Leaves value) alternatives parts)
    (hm : strategy.mode = .strict) (core : Core Value) :
    ∃ message, (evaluate strategy alternatives core value).result
      = .error (.fault (.validation Fault.unionCheck message)) := by
  obtain ⟨message, hexhausted⟩ := exhausted_strict hm alternatives.length
    (Failures.empty.absorbEach Path.alternative 0 parts)
  refine ⟨message, ?_⟩
  rw [evaluate_leaves h, hexhausted]
  rfl

/-- A tolerant union none of whose alternatives decides reports what every attempt left, and some
failure in any case. -/
theorem evaluate_leaves_tolerant (h : List.Forall₂ (Leaves value) alternatives parts)
    (hm : strategy.mode = .tolerant) (core : Core Value) :
    ∃ reported,
      (evaluate strategy alternatives core value).result = .ok ⟨none, reported, none⟩ ∧
      (0 < alternatives.length → reported.entries = Failures.filed Path.alternative parts) ∧
      reported.isEmpty = false := by
  obtain ⟨reported, hexhausted, hsome, hnone⟩ := exhausted_tolerant hm alternatives.length
    (Failures.empty.absorbEach Path.alternative 0 parts)
  refine ⟨reported, ?_, fun hpos => ?_, ?_⟩
  · rw [evaluate_leaves h, hexhausted]
    rfl
  · rw [hsome hpos, entries_leaves]
  · cases h with
    | nil => exact hnone rfl
    | cons hfirst _ =>
      rw [hsome (Nat.succ_pos _), Failures.isEmpty_absorbEach, List.all_cons,
        hfirst.isEmpty_eq_false]
      rfl

/-! ## A union among the alternatives -/

/-- A union without operations decides as its alternatives do. -/
theorem decides_nested (hf : ∀ stop, ended = .error stop → stop.Final)
    (h : tryAll value 0 alternatives .empty = ⟨made, ended.map .matched⟩)
    (strategy : Strategy) (handle : Option Metadata.Handle) :
    Decides value (evaluate strategy alternatives (.holding handle)) made ended where
  run_eq := by
    rw [evaluate, h]
    cases ended with
    | ok produced => exact congrArg (Run.mk · _) (List.append_nil made)
    | error stop => rfl
  final := hf

/-- A union without operations leaves one thing behind if all its alternatives do: a tolerant one
what they left, seen from it. -/
theorem leaves_nested (h : List.Forall₂ (Leaves value) alternatives parts) (strategy : Strategy)
    (handle : Option Metadata.Handle) :
    ∃ part, Leaves value (evaluate strategy alternatives (.holding handle)) part ∧
      (strategy.mode = .tolerant → 0 < alternatives.length →
        part.entries = Failures.filed Path.alternative parts) := by
  cases hm : strategy.mode with
  | strict =>
    obtain ⟨message, hr⟩ := evaluate_leaves_strict h hm (.holding handle)
    exact ⟨_, .refused hr rfl, fun hother => absurd hother (by decide)⟩
  | tolerant =>
    obtain ⟨reported, hr, hsome, hfilled⟩ := evaluate_leaves_tolerant h hm (.holding handle)
    exact ⟨_, .flawed hr hfilled, fun _ => hsome⟩

section Nested

variable {before inner after : List Evaluator}

/-- Nothing is tried after attempts one of which decides. -/
theorem tryAll_append_decided
    (h : ∀ index failures, tryAll value index alternatives failures = ⟨made, ended.map .matched⟩)
    (more : List Evaluator) (index : Nat) (failures : Failures) :
    tryAll value index (alternatives ++ more) failures = ⟨made, ended.map .matched⟩ := by
  rw [tryAll_append, h]
  cases ended with
  | ok produced => exact congrArg (Run.mk · _) (List.append_nil made)
  | error stop => rfl

/-- Attempts that all came to nothing are followed by further ones. -/
theorem tryAll_append_leaves (h : List.Forall₂ (Leaves value) alternatives parts)
    (more : List Evaluator) (index : Nat) (failures : Failures) :
    tryAll value index (alternatives ++ more) failures
      = ⟨calls value alternatives
            ++ (tryAll value (index + alternatives.length) more
              (failures.absorbEach Path.alternative index parts)).trace,
          (tryAll value (index + alternatives.length) more
            (failures.absorbEach Path.alternative index parts)).result⟩ := by
  rw [tryAll_append, tryAll_leaves h]
  rfl

/-- **A union without operations is decided where its alternatives would be**, if they stood in its
place: one attempt decides both, after the same calls, or no attempt decides either. -/
theorem tryAll_nested (hbefore : Course value before) (hinner : Course value inner)
    (hafter : Course value after) (strategy : Strategy) (handle : Option Metadata.Handle) :
    (∃ made ended,
      tryAll value 0 (before ++ evaluate strategy inner (.holding handle) :: after) .empty
          = ⟨made, Except.map .matched ended⟩ ∧
        tryAll value 0 (before ++ (inner ++ after)) .empty = ⟨made, Except.map .matched ended⟩) ∨
    ∃ left inside right, List.Forall₂ (Leaves value) before left ∧
      List.Forall₂ (Leaves value) inner inside ∧ List.Forall₂ (Leaves value) after right := by
  cases hbefore with
  | decided made ended hf h =>
    exact Or.inl ⟨made, ended, tryAll_append_decided h _ 0 .empty,
      tryAll_append_decided h _ 0 .empty⟩
  | exhausted left hleft =>
    cases hinner with
    | decided made ended hf h =>
      refine Or.inl ⟨calls value before ++ made, ended, ?_, ?_⟩
      · rw [tryAll_append_leaves hleft, (decides_nested hf (h 0 .empty) strategy handle).tryAll_cons]
      · rw [tryAll_append_leaves hleft, tryAll_append_decided h]
    | exhausted inside hinside =>
      cases hafter with
      | decided made ended hf h =>
        obtain ⟨part, hpart, -⟩ := leaves_nested hinside strategy handle
        refine Or.inl ⟨calls value before ++ (calls value inner ++ made), ended, ?_, ?_⟩
        · rw [tryAll_append_leaves hleft, tryAll_cons hpart, h, evaluate_leaves hinside]
        · rw [tryAll_append_leaves hleft, tryAll_append_leaves hinside, h]
      | exhausted right hright =>
        exact Or.inr ⟨left, inside, right, hleft, hinside, hright⟩

/-- Two unions with the same operations are the same if one attempt decides both. -/
theorem evaluate_eq_of_decided {more : List Evaluator}
    (h : tryAll value 0 alternatives .empty = ⟨made, ended.map .matched⟩)
    (h' : tryAll value 0 more .empty = ⟨made, ended.map .matched⟩) (core : Core Value) :
    evaluate strategy alternatives core value = evaluate strategy more core value := by
  rw [evaluate, evaluate, h, h']
  cases ended <;> rfl

section Exhausted

variable {left inside right : List Failures} {part : Failures}

/-- What nested attempts left, seen from the outer union: the numbers of the inner ones come after
the number of the inner union, and those after it go on from there. -/
theorem filed_nested (hpart : part.entries = Failures.filed Path.alternative inside) :
    Failures.filed Path.alternative (left ++ part :: right)
      = Failures.filed Path.alternative left
          ++ (Failures.filed
              (fun k => Path.qualify (Path.alternative left.length) (Path.alternative k)) inside
            ++ Failures.filed (fun k => Path.alternative (left.length + 1 + k)) right) := by
  have hlater : (fun k => Path.alternative (left.length + (k + 1)))
      = fun k => Path.alternative (left.length + 1 + k) :=
    funext fun k => congrArg Path.alternative (by omega)
  rw [Failures.filed_append, Failures.filed_cons, Failures.entriesUnder_of_filed hpart, hlater,
    Nat.add_zero]

/-- What the attempts in place left: their numbers simply go on. -/
theorem filed_inPlace :
    Failures.filed Path.alternative (left ++ (inside ++ right))
      = Failures.filed Path.alternative left
          ++ (Failures.filed (fun k => Path.alternative (left.length + k)) inside
            ++ Failures.filed (fun k => Path.alternative (left.length + inside.length + k))
              right) := by
  rw [Failures.filed_append, Failures.filed_append]
  simp only [Nat.add_assoc]

end Exhausted

end Nested

end Choice

/-! ## Unions by the list of their alternatives -/

namespace Validator

variable {count n : Nat} {alternatives : Fin count → Validator} {inner : Fin n → Validator}
  {j : Fin count} {handle : Option Metadata.Handle} {core : Core Value} {strategy : Strategy}
  {value : Value}

/-- The union of the validators of a list. -/
def ofAlternatives (alternatives : List Validator) (core : Core Value) : Validator :=
  union alternatives.length alternatives.get core

/-- Several alternatives, with others in place of the one at some position. -/
def inPlace (alternatives : Fin count → Validator) (j : Fin count) (others : Fin n → Validator) :
    List Validator :=
  (List.ofFn alternatives).take j ++
    (List.ofFn others ++ (List.ofFn alternatives).drop (j + 1))

theorem evaluate_union (strategy : Strategy) (alternatives : Fin count → Validator)
    (core : Core Value) :
    (union count alternatives core).evaluate strategy
      = Choice.evaluate strategy ((List.ofFn alternatives).map (evaluate strategy)) core := by
  rw [List.map_ofFn]
  rfl

theorem evaluate_ofAlternatives (strategy : Strategy) (alternatives : List Validator)
    (core : Core Value) :
    (ofAlternatives alternatives core).evaluate strategy
      = Choice.evaluate strategy (alternatives.map (evaluate strategy)) core := by
  rw [ofAlternatives, evaluate_union, List.ofFn_get]

theorem requiresAsync_eq_any (alternatives : Fin count → Validator) (core : Core Value) :
    (union count alternatives core).requiresAsync
      = (core.pipeline.isAsync || (List.ofFn alternatives).any requiresAsync) := by
  rw [requiresAsync_union, someRequireAsync, ← Function.comp_def, ← List.map_ofFn, List.any_map]
  rfl

/-- A validator with alternatives in place of the union of them has to be awaited for the same
reasons. -/
theorem requiresAsync_inPlace (hj : alternatives j = union n inner (.holding handle)) :
    (ofAlternatives (inPlace alternatives j inner) core).requiresAsync
      = (union count alternatives core).requiresAsync := by
  have hinner : (alternatives j).requiresAsync = (List.ofFn inner).any requiresAsync := by
    rw [hj, requiresAsync_eq_any]
    rfl
  rw [ofAlternatives, requiresAsync_eq_any, requiresAsync_eq_any, List.ofFn_get,
    ofFn_eq_append_cons alternatives j, inPlace]
  simp only [List.any_append, List.any_cons, hinner]

/-- An alternative of a composed union is composed, and so is one that comes from a union among the
alternatives. -/
theorem composed_of_mem_inPlace (h : (union count alternatives core).Composed)
    (hj : alternatives j = union n inner (.holding handle)) :
    ∀ alternative ∈ inPlace alternatives j inner, alternative.Composed := by
  have hinner : ∀ k, (inner k).Composed := by
    have hnested := h j
    rwa [hj] at hnested
  intro alternative hmem
  rw [inPlace, List.mem_append, List.mem_append] at hmem
  obtain hmem | hmem | hmem := hmem
  · obtain ⟨k, rfl⟩ := List.mem_ofFn.mp (List.mem_of_mem_take hmem)
    exact h k
  · obtain ⟨k, rfl⟩ := List.mem_ofFn.mp hmem
    exact hinner k
  · obtain ⟨k, rfl⟩ := List.mem_ofFn.mp (List.mem_of_mem_drop hmem)
    exact h k

theorem composed_ofAlternatives {tried : List Validator}
    (h : ∀ alternative ∈ tried, alternative.Composed) : (ofAlternatives tried core).Composed :=
  fun k => h _ (List.get_mem tried k)

/-- **A composed validator comes to nothing or decides.** -/
theorem missed_or_decides {validator : Validator} (h : validator.Composed) (strategy : Strategy)
    (value : Value) :
    (validator.evaluate strategy value).Missed ∨
      ∃ made ended, Choice.Decides value (validator.evaluate strategy) made ended := by
  have hends := evaluate_ends h strategy value
  cases hrun : validator.evaluate strategy value with
  | mk made result =>
    cases result with
    | ok outcome =>
      cases hs : outcome.isSuccess with
      | false => exact Or.inl (Or.inl ⟨outcome, rfl, hs⟩)
      | true =>
        have hc : outcome.Coherent strategy.mode := hends.of_ok (congrArg Run.result hrun)
        obtain ⟨a, rfl⟩ := hc.eq_success hs
        exact Or.inr ⟨made, .ok a, hrun, by rintro stop ⟨⟩⟩
    | error stop =>
      by_cases hf : stop.Final
      · exact Or.inr ⟨made, .error stop, hrun, by rintro _ ⟨⟩; exact hf⟩
      · cases stop with
        | panic => exact absurd trivial hf
        | fault fault => exact Or.inl (Or.inr ⟨fault, rfl, Bool.eq_false_iff.mpr hf⟩)

/-- Attempts at composed alternatives. -/
theorem course_of_composed {tried : List Validator} (h : ∀ alternative ∈ tried, alternative.Composed)
    (strategy : Strategy) (value : Value) :
    Choice.Course value (tried.map (evaluate strategy)) := by
  refine Choice.course_of_attempts fun alternative hmem => ?_
  obtain ⟨validator, hv, rfl⟩ := List.mem_map.mp hmem
  exact missed_or_decides (h validator hv) strategy value

/-- Attempts that all come to nothing leave failures behind. -/
theorem exists_leaves {tried : List Validator}
    (h : ∀ alternative ∈ tried, (alternative.evaluate strategy value).Missed) :
    ∃ parts, List.Forall₂ (Choice.Leaves value) (tried.map (evaluate strategy)) parts := by
  induction tried with
  | nil => exact ⟨[], .nil⟩
  | cons alternative rest ih =>
    rw [List.forall_mem_cons] at h
    obtain ⟨part, hpart⟩ := Choice.missed_iff_leaves.mp h.1
    obtain ⟨parts, hparts⟩ := ih h.2
    exact ⟨part :: parts, .cons hpart hparts⟩

/-- Attempts that leave failures behind all come to nothing. -/
theorem missed_of_leaves {tried : List Validator} {parts : List Failures}
    (h : List.Forall₂ (Choice.Leaves value) (tried.map (evaluate strategy)) parts) :
    ∀ alternative ∈ tried, (alternative.evaluate strategy value).Missed := by
  induction tried generalizing parts with
  | nil => exact fun _ hmem => absurd hmem List.not_mem_nil
  | cons alternative rest ih =>
    cases h with
    | cons hpart hparts =>
      exact List.forall_mem_cons.mpr ⟨Choice.missed_iff_leaves.mpr ⟨_, hpart⟩, ih hparts⟩

section InPlace

/-- The alternatives of a union, with a union among them. -/
theorem map_evaluate_nested (hj : alternatives j = union n inner (.holding handle))
    (strategy : Strategy) :
    (List.ofFn alternatives).map (evaluate strategy)
      = ((List.ofFn alternatives).take j).map (evaluate strategy) ++
          Choice.evaluate strategy ((List.ofFn inner).map (evaluate strategy)) (.holding handle) ::
            ((List.ofFn alternatives).drop (j + 1)).map (evaluate strategy) := by
  rw [← evaluate_union strategy inner, ← hj, ← List.map_cons, ← List.map_append,
    ← ofFn_eq_append_cons]

/-- The alternatives with those of the inner union in its place. -/
theorem map_evaluate_inPlace (strategy : Strategy) :
    (inPlace alternatives j inner).map (evaluate strategy)
      = ((List.ofFn alternatives).take j).map (evaluate strategy) ++
          ((List.ofFn inner).map (evaluate strategy) ++
            ((List.ofFn alternatives).drop (j + 1)).map (evaluate strategy)) := by
  rw [inPlace, List.map_append, List.map_append]

/-- **What attempts leave behind** where they all come to nothing, told for the alternatives before a
union among them, for those of the union and for those after it. -/
structure LeavesInPlace (strategy : Strategy) (alternatives : Fin count → Validator) (j : Fin count)
    (inner : Fin n → Validator) (value : Value) (left inside right : List Failures) : Prop where
  /-- The alternatives before the union. -/
  left : List.Forall₂ (Choice.Leaves value)
    (((List.ofFn alternatives).take j).map (evaluate strategy)) left
  /-- The alternatives of the union. -/
  inside : List.Forall₂ (Choice.Leaves value) ((List.ofFn inner).map (evaluate strategy)) inside
  /-- The alternatives after the union. -/
  right : List.Forall₂ (Choice.Leaves value)
    (((List.ofFn alternatives).drop (j + 1)).map (evaluate strategy)) right

namespace LeavesInPlace

variable {left inside right : List Failures}

theorem length_left (h : LeavesInPlace strategy alternatives j inner value left inside right) :
    left.length = j := by
  rw [← h.left.length_eq, List.length_map, List.length_take, List.length_ofFn]
  exact Nat.min_eq_left (Nat.le_of_lt j.isLt)

theorem length_inside (h : LeavesInPlace strategy alternatives j inner value left inside right) :
    inside.length = n := by
  rw [← h.inside.length_eq, List.length_map, List.length_ofFn]

/-- The attempts of the union with the alternatives in place. -/
theorem all (h : LeavesInPlace strategy alternatives j inner value left inside right) :
    List.Forall₂ (Choice.Leaves value)
      ((inPlace alternatives j inner).map (evaluate strategy)) (left ++ (inside ++ right)) := by
  rw [map_evaluate_inPlace]
  exact List.rel_append h.left (List.rel_append h.inside h.right)

/-- The attempts of the union that has a union among its alternatives. -/
theorem nested (h : LeavesInPlace strategy alternatives j inner value left inside right)
    (hj : alternatives j = union n inner (.holding handle)) :
    ∃ part, List.Forall₂ (Choice.Leaves value) ((List.ofFn alternatives).map (evaluate strategy))
        (left ++ part :: right) ∧
      (strategy.mode = .tolerant → 0 < n →
        part.entries = Failures.filed Path.alternative inside) := by
  obtain ⟨part, hpart, hentries⟩ := Choice.leaves_nested h.inside strategy handle
  rw [List.length_map, List.length_ofFn] at hentries
  refine ⟨part, ?_, hentries⟩
  rw [map_evaluate_nested hj]
  exact List.rel_append h.left (.cons hpart h.right)

/-- Alternatives that all come to nothing leave failures behind. -/
theorem exists_of_missed
    (h : ∀ alternative ∈ inPlace alternatives j inner,
      (alternative.evaluate strategy value).Missed) :
    ∃ left inside right, LeavesInPlace strategy alternatives j inner value left inside right := by
  rw [inPlace, List.forall_mem_append, List.forall_mem_append] at h
  obtain ⟨left, hleft⟩ := exists_leaves h.1
  obtain ⟨inside, hinside⟩ := exists_leaves h.2.1
  obtain ⟨right, hright⟩ := exists_leaves h.2.2
  exact ⟨left, inside, right, hleft, hinside, hright⟩

/-- Both unions make the calls of all attempts. -/
theorem trace_eq (h : LeavesInPlace strategy alternatives j inner value left inside right)
    (hj : alternatives j = union n inner (.holding handle)) (core : Core Value) :
    ((union count alternatives core).evaluate strategy value).trace
      = ((ofAlternatives (inPlace alternatives j inner) core).evaluate strategy value).trace := by
  obtain ⟨part, hpart, -⟩ := h.nested hj
  have hinner : (Choice.evaluate strategy ((List.ofFn inner).map (evaluate strategy))
      (.holding handle) value).trace
        = Choice.calls value ((List.ofFn inner).map (evaluate strategy)) := by
    rw [Choice.evaluate_leaves h.inside]
  rw [evaluate_union, evaluate_ofAlternatives, Choice.evaluate_leaves hpart,
    Choice.evaluate_leaves h.all, map_evaluate_nested hj, map_evaluate_inPlace]
  simp only [Choice.calls, List.flatMap_append, List.flatMap_cons] at hinner ⊢
  rw [hinner]

/-- Both unions stop a strict run with their own failure. -/
theorem strict (h : LeavesInPlace strategy alternatives j inner value left inside right)
    (hj : alternatives j = union n inner (.holding handle)) (hm : strategy.mode = .strict)
    (core : Core Value) :
    ∃ message message',
      ((union count alternatives core).evaluate strategy value).result
        = .error (.fault (.validation Fault.unionCheck message)) ∧
      ((ofAlternatives (inPlace alternatives j inner) core).evaluate strategy value).result
        = .error (.fault (.validation Fault.unionCheck message')) := by
  obtain ⟨part, hpart, -⟩ := h.nested hj
  obtain ⟨message, hr⟩ := Choice.evaluate_leaves_strict hpart hm core
  obtain ⟨message', hr'⟩ := Choice.evaluate_leaves_strict h.all hm core
  rw [evaluate_union, evaluate_ofAlternatives]
  exact ⟨message, message', hr, hr'⟩

/-- **Both unions report the same failures in a tolerant run**, up to the numbers of the
alternatives. -/
theorem tolerant (h : LeavesInPlace strategy alternatives j inner value left inside right)
    (hj : alternatives j = union n inner (.holding handle)) (hm : strategy.mode = .tolerant)
    (core : Core Value) :
    ∃ failures failures',
      ((union count alternatives core).evaluate strategy value).result
        = .ok ⟨none, failures, none⟩ ∧
      ((ofAlternatives (inPlace alternatives j inner) core).evaluate strategy value).result
        = .ok ⟨none, failures', none⟩ ∧
      (0 < n →
        failures.entries = Failures.filed Path.alternative left
          ++ (Failures.filed
              (fun k => Path.qualify (Path.alternative j) (Path.alternative k)) inside
            ++ Failures.filed (fun k => Path.alternative (j + 1 + k)) right) ∧
        failures'.entries = Failures.filed Path.alternative left
          ++ (Failures.filed (fun k => Path.alternative (j + k)) inside
            ++ Failures.filed (fun k => Path.alternative (j + n + k)) right)) := by
  obtain ⟨part, hpart, hinside⟩ := h.nested hj
  obtain ⟨failures, hr, hentries, -⟩ := Choice.evaluate_leaves_tolerant hpart hm core
  obtain ⟨failures', hr', hentries', -⟩ := Choice.evaluate_leaves_tolerant h.all hm core
  rw [evaluate_union, evaluate_ofAlternatives]
  refine ⟨failures, failures', hr, hr', fun hn => ⟨?_, ?_⟩⟩
  · rw [hentries, Choice.filed_nested (hinside hm hn), h.length_left]
    rw [List.length_map, List.length_ofFn]
    exact Nat.zero_lt_of_lt j.isLt
  · rw [hentries', Choice.filed_inPlace, h.length_left, h.length_inside]
    rw [h.all.length_eq, List.length_append, List.length_append, h.length_inside]
    omega

end LeavesInPlace

/-- **One attempt decides both unions**, or every attempt leaves failures behind. -/
theorem evaluate_eq_or_leaves (h : (union count alternatives core).Composed)
    (hj : alternatives j = union n inner (.holding handle)) (strategy : Strategy) (value : Value) :
    (union count alternatives core).evaluate strategy value
        = (ofAlternatives (inPlace alternatives j inner) core).evaluate strategy value ∨
      ∃ left inside right,
        LeavesInPlace strategy alternatives j inner value left inside right := by
  have hcomposed := composed_of_mem_inPlace h hj
  rw [inPlace, List.forall_mem_append, List.forall_mem_append] at hcomposed
  obtain ⟨hbefore, hinner, hafter⟩ := hcomposed
  rw [evaluate_union, evaluate_ofAlternatives, map_evaluate_nested hj, map_evaluate_inPlace]
  obtain ⟨made, ended, hnested, hflat⟩ | ⟨left, inside, right, hleft, hinside, hright⟩ :=
    Choice.tryAll_nested (course_of_composed hbefore strategy value)
      (course_of_composed hinner strategy value) (course_of_composed hafter strategy value)
      strategy handle
  · exact Or.inl (Choice.evaluate_eq_of_decided hnested hflat core)
  · exact Or.inr ⟨left, inside, right, hleft, hinside, hright⟩

/-- Where the evaluations are the same, a caller is told the same. -/
theorem parse_inPlace (hj : alternatives j = union n inner (.holding handle))
    (heval : (union count alternatives core).evaluate strategy value
      = (ofAlternatives (inPlace alternatives j inner) core).evaluate strategy value)
    (store : Metadata.Store) :
    (union count alternatives core).parse store strategy value
      = (ofAlternatives (inPlace alternatives j inner) core).parse store strategy value := by
  simp only [parse, ensureRunnable, requiresAsync_inPlace hj, heval]
  rfl

/-- **Both unions accept the same values with the same results.** -/
theorem accepts_inPlace_iff (h : (union count alternatives core).Composed)
    (hj : alternatives j = union n inner (.holding handle)) {scheduling : Scheduling}
    {produced : Value} :
    (union count alternatives core).Accepts scheduling value produced ↔
      (ofAlternatives (inPlace alternatives j inner) core).Accepts scheduling value produced := by
  rw [accepts_iff h, accepts_iff (composed_ofAlternatives (composed_of_mem_inPlace h hj)),
    requiresAsync_inPlace hj]
  refine and_congr_right fun _ => ?_
  obtain hsame | ⟨left, inside, right, hleaves⟩ :=
    evaluate_eq_or_leaves h hj ⟨.strict, scheduling⟩ value
  · rw [hsame]
  · obtain ⟨message, message', hr, hr'⟩ := hleaves.strict hj rfl core
    rw [hr, hr']
    constructor <;> rintro ⟨⟩

end InPlace

end Validator

end Conform
