import Conform.Proofs.PipeAssociativity
import Conform.Proofs.PositionalLists
import Conform.Proofs.TupleGrowth

set_option autoImplicit false

/-!
# Lists and tuples of equal shape

A list evaluates the items of an array one after the other and puts the outcomes together at the
end; a tuple gathers values and failures position by position and gives up the values at the first
position that has none.  On an array of the right length both do the same: the first `k` positions of
a tuple of one validator come to what the first `k` items of a list of it come to, in values, in
failures, in calls and in the fault that ends them.

A tuple looks at the length first, which a list does not have to.

## Main definitions

* `Conform.Items.collected`, `Conform.Positions.Gathered.collected` — the values and the failures of
  leading items.
* `Conform.Items.Collected.next` — one more item.

## Main results

* `Conform.Positions.collected_gather` — leading positions and leading items.
* `Conform.Validator.list_agrees_with_tuple` — what callers may rely on.
-/

namespace Conform

variable {arity : Nat} {strategy : Strategy}

/-! ## Leading items -/

namespace Items

/-- What leading items came to: their values, unless one of them has none, and their failures. -/
structure Collected where
  /-- The values. -/
  values : Option (List Value)
  /-- The failures, each filed under the position of its item. -/
  failures : Failures

/-- The next item, which stands at some position. -/
def Collected.next (collected : Collected) (position : Nat) (outcome : Outcome Value) :
    Collected where
  values := collected.values.bind fun values => outcome.value.map fun a => values ++ [a]
  failures := collected.failures.absorb (Path.position position) outcome.failures

/-- The outcome of an array. -/
def Collected.outcome (collected : Collected) : Outcome Value :=
  ⟨collected.values.map .arr, collected.failures, none⟩

/-- What the items of a list came to. -/
def collected (found : List (Outcome Value)) : Collected := ⟨produced found, absorb .empty 0 found⟩

theorem produced_concat (found : List (Outcome Value)) (last : Outcome Value) :
    produced (found ++ [last])
      = (produced found).bind fun values => last.value.map fun a => values ++ [a] := by
  simp only [produced, List.mapM_append, List.mapM_cons, List.mapM_nil]
  cases found.mapM (·.value) <;> cases last.value <;> rfl

theorem absorb_concat (failures : Failures) (position : Nat) (found : List (Outcome Value))
    (last : Outcome Value) :
    absorb failures position (found ++ [last])
      = (absorb failures position found).absorb (Path.position (position + found.length))
          last.failures := by
  induction found generalizing failures position with
  | nil => rfl
  | cons outcome later ih =>
    have hplace : position + 1 + later.length = position + (later.length + 1) := by omega
    rw [List.cons_append, absorb, ih, absorb, List.length_cons, hplace]

/-- One more item adds its value and its failures. -/
theorem collected_concat (found : List (Outcome Value)) (last : Outcome Value) :
    collected (found ++ [last]) = (collected found).next found.length last := by
  rw [collected, produced_concat, absorb_concat, Nat.zero_add]
  rfl

/-- There is one outcome for each item. -/
theorem outcomes_ends_length (element : Evaluator) (position : Nat) (items : List Value) :
    (outcomes element position items).Ends (fun found => found.length = items.length)
      fun _ => True := by
  refine Run.ends_of_ok fun found h => ?_
  have hlength := congrArg List.length (outcomes_ok_iff.mp h)
  rw [List.length_map, List.length_map] at hlength
  exact hlength.symm

/-- The items of a list, the last one apart. -/
theorem collected_outcomes_concat (element : Evaluator) (items : List Value) (last : Value) :
    collected <$> outcomes element 0 (items ++ [last])
      = collected <$> outcomes element 0 items >>= fun before =>
          before.next items.length <$> (element last).under (Path.position items.length) := by
  rw [outcomes_append, map_bind, bind_map_left]
  refine (outcomes_ends_length element 0 items).bind_congr fun found hlength => ?_
  simp only [outcomes, Nat.zero_add, bind_assoc, pure_bind, collected_concat, hlength,
    map_eq_pure_bind]

end Items

/-! ## Leading positions -/

namespace Positions

/-- What leading positions came to. -/
def Gathered.collected {k : Nat} (gathered : Gathered k) : Items.Collected :=
  ⟨gathered.produced.map Vector.toList, gathered.failures⟩

/-- **Leading positions come to what leading items come to.**

**Proof sketch.** Induction on the number of positions.  A tuple goes on from what it gathered so far
and a list starts over, so the last item is taken apart from the others. -/
theorem collected_gather (element : Evaluator) (items : Vector Value arity) :
    ∀ (k : Nat) (hk : k ≤ arity),
      Gathered.collected <$> gather (fun _ => element) items k hk
        = Items.collected <$> Items.outcomes element 0 (items.toList.take k)
  | 0, _ => rfl
  | k + 1, hk => by
    have hlt : k < items.toList.length := by
      rw [Vector.length_toList]
      exact hk
    have hlength : (items.toList.take k).length = k := List.length_take_of_le (Nat.le_of_lt hlt)
    rw [List.take_succ_eq_append_getElem hlt, Items.collected_outcomes_concat,
      ← collected_gather element items k (Nat.le_of_succ_le hk), hlength, gather, map_bind,
      bind_map_left]
    refine bind_congr fun before => ?_
    rw [map_bind, map_eq_pure_bind, Vector.getElem_toList]
    refine bind_congr fun outcome => ?_
    rw [map_pure]
    refine congrArg pure ?_
    simp only [Gathered.collected, Items.Collected.next]
    cases before.produced <;> cases outcome.value <;> simp [Vector.toList_push]

end Positions

/-! ## Lists and tuples -/

namespace Validator

variable {element : Validator} {items : List Value}

/-- A list without operations comes to what its items come to. -/
theorem evaluate_list_holding (element : Validator) (handle : Option Metadata.Handle)
    (items : List Value) :
    (list element (.holding handle)).evaluate strategy (.arr items)
      = Items.Collected.outcome <$> Items.collected <$>
          Items.outcomes (element.evaluate strategy) 0 items := by
  rw [evaluate, Items.evaluate_empty, Functor.map_map]
  rfl

/-- A tuple without operations, of one validator at every position, comes to what the items come
to. -/
theorem evaluate_tuple_holding (element : Validator) (handle : Option Metadata.Handle)
    (items : Vector Value arity) :
    (tuple arity (fun _ => element) (.holding handle)).evaluate strategy (.arr items.toList)
      = Items.Collected.outcome <$> Items.collected <$>
          Items.outcomes (element.evaluate strategy) 0 items.toList := by
  have htake : items.toList.take arity = items.toList :=
    List.take_of_length_le (Nat.le_of_eq items.length_toList)
  have hgather := Positions.collected_gather (element.evaluate strategy) items arity (Nat.le_refl _)
  rw [htake] at hgather
  rw [← hgather, Functor.map_map]
  simp only [evaluate, Positions.evaluateArray, Value.items?, Positions.evaluate,
    Positions.exactly?_toList, Core.finish_holding, bind_assoc, pure_bind, map_eq_pure_bind]
  refine bind_congr fun gathered => congrArg pure (Outcome.ext ?_ rfl rfl)
  exact (Option.map_map ..).symm

/-- A tuple refuses an array of another length before anything is called. -/
theorem evaluate_tuple_of_length_ne {elements : Fin arity → Validator}
    {core : Core (Vector Value arity)} (h : items.length ≠ arity) :
    (tuple arity elements core).evaluate strategy (.arr items)
      = ⟨[], match strategy.mode with
        | .strict => .error (.fault (.arityMismatch arity items.length))
        | .tolerant =>
          .ok (.failure Fault.arityCheck (Fault.arityMismatch arity items.length).message)⟩ := by
  have hnone : Value.exactly? arity items = none := dif_neg h
  simp only [evaluate, Positions.evaluateArray, Value.items?, Positions.evaluate, hnone]
  cases hm : strategy.mode with
  | strict =>
    rw [refuse_strict hm]
    rfl
  | tolerant =>
    rw [refuse_tolerant hm rfl]
    rfl

/-- A tuple of one validator may be run where that validator may be run. -/
theorem permits_tuple_holding {scheduling : Scheduling}
    (hp : scheduling.Permits element.requiresAsync) (handle : Option Metadata.Handle) :
    scheduling.Permits (tuple arity (fun _ => element) (.holding handle)).requiresAsync :=
  fun hs => someRequireAsync_eq_false_iff.mpr fun _ => hp hs

/-- A tuple of one validator that has to be awaited has to be awaited, if it has a position. -/
theorem requiresAsync_tuple_holding (h : element.requiresAsync = true) (harity : 0 < arity)
    (handle : Option Metadata.Handle) :
    (tuple arity (fun _ => element) (.holding handle)).requiresAsync = true :=
  someRequireAsync_iff.mpr ⟨⟨0, harity⟩, h⟩

/-- **A list and a tuple of one validator agree** on an array of the right length, if they have no
operations of their own: they make the same calls, and end with the same fault or come to the same
values and failures.  An array of any other length is refused by the tuple for its length alone,
before anything is called.  A caller gets the same report from both, unless the validator has to be
awaited and the run may not wait; then each is refused under its own kind, and nothing is called.

**Proof sketch.** Leading positions come to what leading items come to
(`Positions.collected_gather`), and the array is what all positions and all items come to. -/
theorem list_agrees_with_tuple (element : Validator) (strategy : Strategy)
    (handle handle' : Option Metadata.Handle) (arity : Nat) (items : List Value) :
    (items.length = arity →
      (list element (.holding handle)).evaluate strategy (.arr items)
        = (tuple arity (fun _ => element) (.holding handle')).evaluate strategy (.arr items)) ∧
    (items.length ≠ arity →
      (tuple arity (fun _ => element) (.holding handle')).evaluate strategy (.arr items)
        = ⟨[], match strategy.mode with
          | .strict => .error (.fault (.arityMismatch arity items.length))
          | .tolerant =>
            .ok (.failure Fault.arityCheck (Fault.arityMismatch arity items.length).message)⟩) ∧
    ∀ store,
      (strategy.scheduling.Permits element.requiresAsync → items.length = arity →
        (list element (.holding handle)).parse store strategy (.arr items)
          = (tuple arity (fun _ => element) (.holding handle)).parse store strategy
              (.arr items)) ∧
      (strategy.scheduling = .sync → element.requiresAsync = true → 0 < arity →
        (list element (.holding handle)).parse store strategy (.arr items)
          = Run.fail (.configuration "list") ∧
        (tuple arity (fun _ => element) (.holding handle)).parse store strategy (.arr items)
          = Run.fail (.configuration "tuple")) := by
  have hagree (hlength : items.length = arity) (handle' : Option Metadata.Handle) :
      (list element (.holding handle)).evaluate strategy (.arr items)
        = (tuple arity (fun _ => element) (.holding handle')).evaluate strategy (.arr items) := by
    obtain ⟨positions, rfl⟩ : ∃ positions : Vector Value arity, positions.toList = items :=
      ⟨⟨items.toArray, hlength⟩, rfl⟩
    rw [evaluate_list_holding, evaluate_tuple_holding]
  refine ⟨fun hlength => hagree hlength handle', evaluate_tuple_of_length_ne,
    fun store => ⟨fun hp hlength => ?_, fun hs hasync harity => ?_⟩⟩
  · have hlist : strategy.scheduling.Permits (list element (.holding handle)).requiresAsync := hp
    simp only [parse, ensureRunnable_of_permits hlist,
      ensureRunnable_of_permits (permits_tuple_holding hp handle), hagree hlength handle]
    rfl
  · obtain ⟨mode, scheduling⟩ := strategy
    obtain rfl : scheduling = .sync := hs
    have hlist : (list element (.holding handle)).requiresAsync = true := hasync
    exact ⟨parse_eq_fail hlist mode store _,
      parse_eq_fail (requiresAsync_tuple_holding hasync harity handle) mode store _⟩

/-- Two integers that must be small: the second item has the wrong type and the first one is too
large, so that there is no array and each has a failure.  A third item is one too many, and with an
asynchronous check on the integers neither the list nor the pair is run without waiting. -/
theorem list_agrees_with_tuple_of_small_integers :
    let small := (ofType .integer).act
      (.check "small" "too large" none fun | .int n => .answer (n < 5) | _ => .answer false)
    let free := (ofType .integer).act (.asyncCheck "free" "taken" fun _ => .answer (.ready true))
    let pair (element : Validator) := tuple 2 (fun _ => element) (.holding none)
    let found : Outcome Value := ⟨none,
      .ofList [("[0].small", "too large"), ("[1].type", "expected integer, received string")],
      none⟩
    ((pair small).evaluate ⟨.tolerant, .sync⟩ (.arr [.int 7, .str "a"])).result = .ok found ∧
      ((pair small).parse .empty ⟨.tolerant, .sync⟩ (.arr [.int 7, .str "a"])).result
        = .ok ⟨found, none⟩ ∧
      (pair small).evaluate ⟨.tolerant, .sync⟩ (.arr [.int 1, .int 2, .int 3])
        = ⟨[], .ok (.failure "arity" "expected 2 elements, received 3")⟩ ∧
      (list free (.holding none)).parse .empty ⟨.strict, .sync⟩ (.arr [.int 1, .int 2])
        = Run.fail (.configuration "list") ∧
      (pair free).parse .empty ⟨.strict, .sync⟩ (.arr [.int 1, .int 2])
        = Run.fail (.configuration "tuple") := by
  intro small free pair found
  obtain ⟨hagree, -, hparse⟩ :=
    list_agrees_with_tuple small ⟨.tolerant, .sync⟩ none none 2 [.int 7, .str "a"]
  obtain ⟨-, hother, -⟩ :=
    list_agrees_with_tuple small ⟨.tolerant, .sync⟩ none none 2 [.int 1, .int 2, .int 3]
  obtain ⟨-, -, hrefused⟩ :=
    list_agrees_with_tuple free ⟨.strict, .sync⟩ none none 2 [.int 1, .int 2]
  refine ⟨?_, ?_, ?_, (hrefused .empty).2 rfl rfl (by decide)⟩
  · rw [← hagree rfl]
    rfl
  · rw [← (hparse .empty).1 (fun _ => rfl) rfl]
    rfl
  · rw [hother (by decide)]
    rfl

end Validator

end Conform
