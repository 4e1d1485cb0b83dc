import Conform.Proofs.Acceptance
import Conform.Proofs.BrokenRuns
import Conform.Proofs.ErasedChecks
import Conform.Proofs.FirstFailure

set_option autoImplicit false

/-!
# Lists, position by position

A list runs its own operations on the items as they come in and then evaluates the items that the
transformations among them left.  A tolerant run files the failures of each item under its position;
a key shows the position that it opens with, so that no failure of an item meets one of another item
or of the list itself, as long as no check of the list has a name that opens like a position.  A
strict run ends with the first item that is rejected.

## Main definitions

* `Conform.Operation.Idle` — an operation that lets every value through as it is.
* `Conform.Items.Tolerantly` — what a tolerant run of a list reports, told from its own operations
  and from its items.
* `Conform.Items.Strictly` — how a strict run of a list ends, told in the same way.

## Main results

* `Conform.Pipeline.run_names` — failures of operations are recorded under the names of checks.
* `Conform.Items.outcomes_ok_iff`, `Conform.Items.outcomes_refused` — items one after the other.
* `Conform.Items.evaluate_idle` — a list whose operations are all idle.
* `Conform.Validator.list_by_position` — what callers may rely on.
-/

namespace Conform

variable {α : Type} {strategy : Strategy} {scheduling : Scheduling}

/-! ## Own operations -/

/-- A failure that a check records has the name of the check. -/
theorem Progress.judge_names {names : String → Prop} {progress : Progress α} {name : String}
    (h : ∀ key ∈ progress.failures.keys, names key) (hn : names name) (mode : Mode)
    (message : String) (passed : Bool) :
    (progress.judge mode name message passed).Ends
      (fun reached => ∀ key ∈ reached.failures.keys, names key) fun _ => True := by
  unfold judge
  cases passed with
  | true => exact h
  | false =>
    cases mode with
    | strict => trivial
    | tolerant =>
      intro key hkey
      simp only [Failures.record, Keyed.keys_set] at hkey
      split at hkey
      · exact h key hkey
      · rcases List.mem_append.mp hkey with hold | hnew
        · exact h key hold
        · exact List.mem_singleton.mp hnew ▸ hn

/-- **Operations record failures under the names of their checks.** -/
theorem Pipeline.run_names (strategy : Strategy) (kind : String) (pipeline : Pipeline α) (a : α) :
    (pipeline.run strategy kind a).Ends
      (fun own => ∀ key ∈ own.failures.keys,
        ∃ summary ∈ pipeline.summaries, summary.name? = some key) fun _ => True := by
  refine Run.ends_map.mpr (Run.ends_foldlM (fun operation hmem progress h => ?_) _ ?_)
  · have hsummary : operation.summary ∈ pipeline.summaries := List.mem_map_of_mem hmem
    cases operation with
    | check c => exact Progress.judge_names h ⟨_, hsummary, rfl⟩ _ _ _
    | asyncCheck c =>
      simp only [Operation.advance]
      cases strategy.scheduling with
      | sync => trivial
      | async => exact Progress.judge_names h ⟨_, hsummary, rfl⟩ _ _ _
    | transformation t =>
      simp only [Operation.advance, Run.ends_call_bind]
      cases t.apply progress.value with
      | answer a => exact h
      | panicked => trivial
  · exact fun key hkey => absurd hkey List.not_mem_nil

/-- **An idle operation** lets every value through as it is: a check that passes, or a
transformation that answers with what it is given. -/
def Operation.Idle : Operation α → Prop
  | .check c => ∀ a, c.passes a = true
  | .asyncCheck c => ∀ a, c.passes a = true
  | .transformation t => ∀ a, t.apply a = .answer a

/-- Idle operations, if they may be carried out, come to the value they are given. -/
theorem Pipeline.run_idle {pipeline : Pipeline α}
    (hidle : ∀ operation ∈ pipeline.operations, operation.Idle)
    (hp : strategy.scheduling.Permits pipeline.isAsync) (kind : String) (a : α) :
    (pipeline.run strategy kind a).result = .ok (.success a) := by
  have hstep : ∀ operation ∈ pipeline.operations,
      (operation.advance strategy kind ⟨a, .empty⟩).result = .ok ⟨a, .empty⟩ := by
    intro operation hmem
    have hop := hidle operation hmem
    cases operation with
    | check c => simp [Operation.advance, Progress.judge, hop a, Run.bind_eq, Run.call, Run.pure_eq]
    | asyncCheck c =>
      cases hs : strategy.scheduling with
      | sync =>
        have hnone := List.any_eq_false.mp (hp hs) _ hmem
        exact absurd rfl hnone
      | async =>
        simp [Operation.advance, hs, Progress.judge, hop a, Run.bind_eq, Run.call, Run.pure_eq]
    | transformation t => simp [Operation.advance, hop a, Run.bind_eq, Run.call, Run.pure_eq]
  have hrun : (pipeline.resume strategy kind ⟨a, .empty⟩).result = .ok ⟨a, .empty⟩ := by
    obtain ⟨operations⟩ := pipeline
    simp only [resume] at hstep ⊢
    clear hidle hp
    induction operations with
    | nil => rfl
    | cons operation rest ih =>
      rw [List.forall_mem_cons] at hstep
      rw [List.foldlM_cons]
      exact Run.bind_ok_iff.mpr ⟨_, hstep.1, ih hstep.2⟩
  exact Run.map_ok_iff.mpr ⟨_, hrun, rfl⟩

/-! ## Items -/

namespace Items

variable {element : Evaluator} {items : List Value}

/-- Items come to outcomes exactly if each of them does. -/
theorem outcomes_ok_iff {position : Nat} {found : List (Outcome Value)} :
    (outcomes element position items).result = .ok found ↔
      items.map (fun item => (element item).result) = found.map .ok := by
  induction items generalizing position found with
  | nil => cases found <;> simp [outcomes]
  | cons item rest ih =>
    simp only [outcomes, Run.bind_ok_iff, Run.under_ok_iff, Run.pure_ok_iff, ih]
    constructor
    · rintro ⟨outcome, hitem, later, hlater, rfl⟩
      rw [List.map_cons, List.map_cons, hitem, hlater]
    · intro h
      cases found with
      | nil => exact absurd h (List.cons_ne_nil _ _)
      | cons outcome later =>
        obtain ⟨hitem, hlater⟩ := List.cons.inj h
        exact ⟨outcome, hitem, later, hlater, rfl⟩

/-- The calls that items make, one after the other. -/
theorem trace_outcomes {position : Nat} {found : List (Outcome Value)}
    (h : (outcomes element position items).result = .ok found) :
    (outcomes element position items).trace = items.flatMap fun item => (element item).trace := by
  induction items generalizing position found with
  | nil => rfl
  | cons item rest ih =>
    obtain ⟨outcome, hitem, hrest⟩ := Run.bind_ok_iff.mp h
    obtain ⟨later, hlater, -⟩ := Run.bind_ok_iff.mp hrest
    have htrace : ((element item).under (Path.position position)).trace = (element item).trace :=
      rfl
    rw [List.flatMap_cons, ← ih hlater, ← htrace]
    simp [outcomes, Run.bind_eq, hitem, hlater, Run.pure_eq]

/-- **The first item that is refused ends the evaluation.**  Those before it were evaluated, its
fault is seen from the list, and those after it are left alone. -/
theorem outcomes_refused {earlier : List Value} {found : List (Outcome Value)}
    (he : earlier.map (fun item => (element item).result) = found.map .ok) {item : Value}
    {fault : Fault} (hf : (element item).result = .error (.fault fault)) (later : List Value) :
    outcomes element 0 (earlier ++ item :: later)
      = ⟨(earlier ++ [item]).flatMap fun item => (element item).trace,
          .error (.fault (fault.under (Path.position earlier.length)))⟩ := by
  have hearlier : (outcomes element 0 earlier).result = .ok found := outcomes_ok_iff.mpr he
  rw [outcomes_append, Run.bind_eq, hearlier, trace_outcomes hearlier]
  simp [outcomes, Run.bind_eq, Run.under, hf]

/-- The failures of items are filed like those of any parts, under their positions. -/
theorem absorb_eq_absorbEach (found : List (Outcome Value)) :
    ∀ (failures : Failures) (position : Nat),
      absorb failures position found
        = failures.absorbEach Path.position position (found.map (·.failures)) := by
  induction found with
  | nil => exact fun _ _ => rfl
  | cons outcome later ih => exact fun failures position => ih _ _

/-- No failure of an item is among failures that do not open like a position. -/
theorem qualify_position_notMem {own : Failures}
    (hown : ∀ key ∈ own.keys, key.toList.head? ≠ some '[') (index : Nat) (key : String) :
    Path.qualify (Path.position index) key ∉ own.keys :=
  fun hmem => hown _ hmem (Path.head?_qualify_position index key)

/-- The failures of items follow those recorded before, in order and under their positions. -/
theorem entries_absorb {own : Failures} (hown : ∀ key ∈ own.keys, key.toList.head? ≠ some '[')
    (found : List (Outcome Value)) :
    (absorb own 0 found).entries = own.entries ++ found.zipIdx.flatMap fun (outcome, index) =>
      outcome.failures.entriesUnder (Path.position index) := by
  rw [absorb_eq_absorbEach, Failures.entries_absorbEach Path.separates_position _ _ _
    fun index _ => qualify_position_notMem hown index, List.zipIdx_map, List.flatMap_map]
  rfl

/-- The failures of items are added to those recorded before. -/
theorem size_absorb {own : Failures} (hown : ∀ key ∈ own.keys, key.toList.head? ≠ some '[')
    (found : List (Outcome Value)) :
    (absorb own 0 found).size
      = own.size + Failures.totalSize (found.map fun outcome => outcome.failures) := by
  rw [absorb_eq_absorbEach, Failures.size_absorbEach Path.separates_position _ _ _
    fun index _ => qualify_position_notMem hown index]

/-- The values produced are there if each item produced one, and are these values. -/
theorem produced_eq_some_iff {found : List (Outcome Value)} {values : List Value} :
    produced found = some values ↔ found.map (·.value) = values.map some := by
  induction found generalizing values with
  | nil => cases values <;> simp [produced]
  | cons outcome later ih =>
    cases values with
    | nil => simp [Option.bind_eq_some_iff]
    | cons a rest => simp [Option.bind_eq_some_iff, ih]

/-- There are as many values produced as items. -/
theorem length_of_produced {found : List (Outcome Value)} {values : List Value}
    (h : produced found = some values) : values.length = found.length := by
  have hlength := congrArg List.length (produced_eq_some_iff.mp h)
  rw [List.length_map, List.length_map] at hlength
  exact hlength.symm

/-! ## Lists without operations -/

/-- A list without operations evaluates its items as they come in. -/
theorem evaluate_empty (handle : Option Metadata.Handle) (items : List Value) :
    evaluate strategy element (.holding handle) (.arr items)
      = (fun found => ⟨(produced found).map .arr, absorb .empty 0 found, none⟩) <$>
          outcomes element 0 items := by
  rw [map_eq_pure_bind]
  rfl

/-- **A list whose operations are all idle** is a list without operations, but for the calls of the
idle ones. -/
theorem evaluate_idle {core : Core (List Value)}
    (hidle : ∀ operation ∈ core.pipeline.operations, operation.Idle)
    (hp : strategy.scheduling.Permits core.pipeline.isAsync) (value : Value) :
    evaluate strategy element core value
      = ⟨(value.items?.elim [] fun items => (core.pipeline.run strategy "list" items).trace)
            ++ (evaluate strategy element (.holding core.handle) value).trace,
          (evaluate strategy element (.holding core.handle) value).result⟩ := by
  cases value with
  | arr items =>
    have hown : (core.pipeline.run strategy "list" items).result = .ok (.success items) :=
      core.pipeline.run_idle hidle hp "list" items
    rw [evaluate_empty, map_eq_pure_bind]
    simp only [evaluate, Value.items?, Run.bind_eq, hown]
    rfl
  | _ => rfl

/-! ## Tolerant runs -/

/-- **What a tolerant run of a list reports.**  The operations of the list recorded `own` and left
the items `changed`, which came to the outcomes `found`. -/
structure Tolerantly (element : Validator) (core : Core (List Value)) (scheduling : Scheduling)
    (items changed : List Value) (own : Failures) (found : List (Outcome Value))
    (whole : Outcome Value) : Prop where
  /-- The operations come to the items that are evaluated, beside failures of their own. -/
  own_run : (core.pipeline.run ⟨.tolerant, scheduling⟩ "list" items).result
    = .ok ⟨some changed, own, none⟩
  /-- Each of these items comes to an outcome. -/
  items_run : changed.map (fun item => (element.evaluate ⟨.tolerant, scheduling⟩ item).result)
    = found.map .ok
  /-- The list comes to an outcome. -/
  list_run : ((Validator.list element core).evaluate ⟨.tolerant, scheduling⟩ (.arr items)).result
    = .ok whole
  /-- First come the failures of the list itself, and after them those of the items, in order, each
  under the position of its item. -/
  entries_eq : whole.failures.entries
    = own.entries ++ found.zipIdx.flatMap fun (outcome, index) =>
        outcome.failures.entriesUnder (Path.position index)
  /-- None is lost, merged with another one or there twice. -/
  size_eq : whole.failures.size
    = own.size + Failures.totalSize (found.map fun outcome => outcome.failures)
  /-- A key opens with a position exactly if the item there is rejected. -/
  opens_iff {index : Nat} {item : Value} : changed[index]? = some item →
    ((∃ key ∈ whole.failures.keys, (Path.position index).toList <+: key.toList) ↔
      ∀ produced, ¬ element.Accepts scheduling item produced)
  /-- There is a value exactly if every item has one, and it is these values in order. -/
  value_iff {value : Value} : whole.value = some value ↔
    ∃ values, value = .arr values ∧ found.map (·.value) = values.map some
  /-- There are as many values as items. -/
  length_eq {values : List Value} : whole.value = some (.arr values) →
    values.length = changed.length

variable {element : Validator} {core : Core (List Value)} {items changed : List Value}

/-- The outcome of one item. -/
theorem exists_outcome_getElem? {found : List (Outcome Value)}
    (h : changed.map (fun item => (element.evaluate strategy item).result) = found.map .ok)
    {index : Nat} {item : Value} (hi : changed[index]? = some item) :
    ∃ outcome, found[index]? = some outcome ∧
      (element.evaluate strategy item).result = .ok outcome := by
  have hindex := congrArg (fun results => results[index]?) h
  simp only [List.getElem?_map, hi, Option.map_some] at hindex
  obtain ⟨outcome, hfound, hresult⟩ := Option.map_eq_some_iff.mp hindex.symm
  exact ⟨outcome, hfound, hresult.symm⟩

/-- A key opens with the position of an item exactly if the item recorded a failure: the keys of the
list itself do not open like a position, and those of another item open with its own one. -/
theorem exists_key_opens_iff {own whole : Failures} {found : List (Outcome Value)}
    (hown : ∀ key ∈ own.keys, key.toList.head? ≠ some '[')
    (hentries : whole.entries = own.entries ++ found.zipIdx.flatMap fun (outcome, index) =>
      outcome.failures.entriesUnder (Path.position index))
    {index : Nat} {outcome : Outcome Value} (hi : found[index]? = some outcome) :
    (∃ key ∈ whole.keys, (Path.position index).toList <+: key.toList) ↔
      outcome.isSuccess = false := by
  constructor
  · rintro ⟨key, hkey, rest, hrest⟩
    rw [Keyed.keys, hentries, List.map_append, List.mem_append] at hkey
    rcases hkey with hkey | hkey
    · have hopens : key.toList.head? = some '[' := by
        rw [← hrest]
        simp [Path.position]
      exact absurd hopens (hown key hkey)
    · obtain ⟨entry, hentry, rfl⟩ := List.mem_map.mp hkey
      obtain ⟨⟨other, place⟩, hplace, hfiled⟩ := List.mem_flatMap.mp hentry
      obtain ⟨inner, hinner, rfl⟩ := List.mem_map.mp hfiled
      obtain rfl : index = place := Path.position_prefix_iff.mp ⟨rest, hrest⟩
      have hother : found[index]? = some other := List.mk_mem_zipIdx_iff_getElem?.mp hplace
      obtain rfl : outcome = other := Option.some.inj (hi.symm.trans hother)
      exact List.isEmpty_eq_false_iff.mpr (List.ne_nil_of_mem hinner)
  · intro hs
    obtain ⟨entry, hentry⟩ := List.exists_mem_of_ne_nil _ (List.isEmpty_eq_false_iff.mp hs)
    have hplace : (outcome, index) ∈ found.zipIdx := List.mk_mem_zipIdx_iff_getElem?.mpr hi
    have hfiled : (Path.qualify (Path.position index) entry.1, entry.2)
        ∈ outcome.failures.entriesUnder (Path.position index) :=
      List.mem_map.mpr ⟨entry, hentry, rfl⟩
    refine ⟨Path.qualify (Path.position index) entry.1, ?_, Path.position_prefix_iff.mpr rfl⟩
    rw [Keyed.keys, hentries, List.map_append, List.mem_append]
    exact Or.inr (List.mem_map.mpr ⟨_, List.mem_flatMap.mpr ⟨_, hplace, hfiled⟩, rfl⟩)

/-- A tolerant run of a list that does not panic reports the failures of its operations and those of
its items, and loses none. -/
theorem exists_tolerantly (h : element.Composed)
    (hnames : ∀ summary ∈ core.pipeline.summaries, ∀ name, summary.name? = some name →
      name.toList.head? ≠ some '[')
    (hp : scheduling.Permits (Validator.list element core).requiresAsync)
    (hpanic : ((Validator.list element core).evaluate ⟨.tolerant, scheduling⟩ (.arr items)).result
      ≠ .error .panic) :
    ∃ changed own found whole,
      (core.pipeline.unchecked.run ⟨.tolerant, scheduling⟩ "list" items).result
        = .ok (.success changed) ∧
      Tolerantly element core scheduling items changed own found whole := by
  obtain ⟨hcore, helement⟩ := Scheduling.permits_or_iff.mp hp
  have hlist : (Validator.list element core).Composed := h
  obtain ⟨whole, hwhole⟩ := Validator.exists_outcome hlist hp hpanic
  obtain ⟨own, hown, hrest⟩ := Run.bind_ok_iff.mp hwhole
  obtain ⟨progress, -, rfl⟩ := Run.map_ok_iff.mp hown
  obtain ⟨found, hfound, hpure⟩ := Run.bind_ok_iff.mp hrest
  obtain rfl := Run.pure_ok_iff.mp hpure
  have hitems := outcomes_ok_iff.mp hfound
  -- the operations record names, none of which opens like a position
  have hown_names : ∀ key ∈ progress.failures.keys, key.toList.head? ≠ some '[' := by
    intro key hkey
    obtain ⟨summary, hmem, hname⟩ :=
      (core.pipeline.run_names ⟨.tolerant, scheduling⟩ "list" items).of_ok hown key hkey
    exact hnames summary hmem key hname
  have hentries := entries_absorb hown_names found
  refine ⟨progress.value, progress.failures, found, _, ?_, hown, hitems, hwhole, hentries,
    size_absorb hown_names found, fun hi => ?_, ?_, ?_⟩
  · rcases core.pipeline.run_echoes "list" hcore items with
      ⟨own, bare, ho, hb, b, hv, rfl⟩ | ⟨hr, -⟩
    · obtain rfl : progress.outcome = own := Except.ok.inj (hown.symm.trans ho)
      obtain rfl : progress.value = b := Option.some.inj hv
      exact hb
    · cases hown.symm.trans hr
  · obtain ⟨outcome, hplace, hr⟩ := exists_outcome_getElem? hitems hi
    rw [Validator.not_accepts_iff h helement hr]
    exact exists_key_opens_iff hown_names hentries hplace
  · intro value
    simp only [Option.map_eq_some_iff, produced_eq_some_iff]
    constructor
    · rintro ⟨values, hv, rfl⟩
      exact ⟨values, rfl, hv⟩
    · rintro ⟨values, rfl, hv⟩
      exact ⟨values, hv, rfl⟩
  · intro values hvalues
    obtain ⟨made, hmade, heq⟩ := Option.map_eq_some_iff.mp hvalues
    obtain rfl : made = values := Value.arr.inj heq
    have hlength := congrArg List.length hitems
    rw [List.length_map, List.length_map] at hlength
    exact (length_of_produced hmade).trans hlength.symm

/-! ## Strict runs -/

/-- **How a strict run of a list ends**, where its operations leave the items `changed`. -/
structure Strictly (element : Validator) (core : Core (List Value)) (scheduling : Scheduling)
    (items changed : List Value) : Prop where
  /-- If the operations stop, then no item is evaluated. -/
  own_stops {stop : Stop} :
    (core.pipeline.run ⟨.strict, scheduling⟩ "list" items).result = .error stop →
      ∃ fault, stop = .fault fault ∧
        (Validator.list element core).evaluate ⟨.strict, scheduling⟩ (.arr items)
          = ⟨(core.pipeline.run ⟨.strict, scheduling⟩ "list" items).trace, .error stop⟩
  /-- Else the run ends with the fault of the first item that is rejected, seen from the list, and
  no later item is evaluated. -/
  first_rejected {own : Outcome (List Value)} {earlier : List Value} {item : Value}
      {later : List Value} :
    (core.pipeline.run ⟨.strict, scheduling⟩ "list" items).result = .ok own →
      changed = earlier ++ item :: later →
      (∀ other ∈ earlier, ∃ produced, element.Accepts scheduling other produced) →
      (∀ produced, ¬ element.Accepts scheduling item produced) →
      ∃ fault, (element.evaluate ⟨.strict, scheduling⟩ item).result = .error (.fault fault) ∧
        (Validator.list element core).evaluate ⟨.strict, scheduling⟩ (.arr items)
          = ⟨(core.pipeline.run ⟨.strict, scheduling⟩ "list" items).trace
                ++ (earlier ++ [item]).flatMap fun item =>
                  (element.evaluate ⟨.strict, scheduling⟩ item).trace,
              .error (.fault (fault.under (Path.position earlier.length)))⟩
  /-- If no item is rejected, then the run comes to a value. -/
  none_rejected {own : Outcome (List Value)} :
    (core.pipeline.run ⟨.strict, scheduling⟩ "list" items).result = .ok own →
      (∀ item ∈ changed, ∃ produced, element.Accepts scheduling item produced) →
      ∃ values, ((Validator.list element core).evaluate ⟨.strict, scheduling⟩ (.arr items)).result
        = .ok (.success (.arr values))

/-- Items that are all accepted come to values. -/
theorem exists_values (h : element.Composed) :
    ∀ {items : List Value},
      (∀ item ∈ items, ∃ produced, element.Accepts scheduling item produced) →
        ∃ values : List Value,
          items.map (fun item => (element.evaluate ⟨.strict, scheduling⟩ item).result)
            = (values.map .success).map .ok
  | [], _ => ⟨[], rfl⟩
  | item :: rest, haccepted => by
    rw [List.forall_mem_cons] at haccepted
    obtain ⟨⟨a, ha⟩, hrest⟩ := haccepted
    obtain ⟨values, hvalues⟩ := exists_values h hrest
    have hitem := ((Validator.accepts_iff h).mp ha).2
    exact ⟨a :: values, by rw [List.map_cons, hitem, hvalues, List.map_cons, List.map_cons]⟩

/-- A strict run of a list ends as its operations and its items tell, where a tolerant one does not
panic. -/
theorem Tolerantly.strictly (h : element.Composed)
    (hp : scheduling.Permits (Validator.list element core).requiresAsync)
    {own : Failures} {found : List (Outcome Value)} {whole : Outcome Value}
    (ht : Tolerantly element core scheduling items changed own found whole) :
    Strictly element core scheduling items changed := by
  have helement := (Scheduling.permits_or_iff.mp hp).2
  have hparallel : Parallel Account.something
      (core.pipeline.run ⟨.strict, scheduling⟩ "list" items)
      (core.pipeline.run ⟨.tolerant, scheduling⟩ "list" items) :=
    core.pipeline.run_parallel Account.lawful_something "list" items
  -- the operations of a strict run that does not stop leave the same items
  have hchanged {own' : Outcome (List Value)}
      (hs : (core.pipeline.run ⟨.strict, scheduling⟩ "list" items).result = .ok own') :
      own' = .success changed := by
    unfold Parallel Run.Tracks at hparallel
    rw [ht.own_run, hs] at hparallel
    obtain ⟨values, rfl, hvalues⟩ := hparallel
    obtain rfl : changed = values := Option.some.inj (congrArg Outcome.value hvalues)
    rfl
  have hrun {own' : Outcome (List Value)}
      (hs : (core.pipeline.run ⟨.strict, scheduling⟩ "list" items).result = .ok own') :
      (Validator.list element core).evaluate ⟨.strict, scheduling⟩ (.arr items)
        = (core.pipeline.run ⟨.strict, scheduling⟩ "list" items) >>= fun _ =>
            outcomes (element.evaluate ⟨.strict, scheduling⟩) 0 changed >>= fun found =>
              pure ⟨(produced found).map .arr, absorb .empty 0 found, none⟩ := by
    obtain rfl := hchanged hs
    simp only [Validator.evaluate, evaluate, Value.items?, Run.bind_eq, hs]
    rfl
  refine ⟨fun hs => ?_, fun hs hsplit haccepted hrejected => ?_, fun hs haccepted => ?_⟩
  · obtain ⟨fault, rfl, -⟩ := hparallel.exists_fault ht.own_run hs
    refine ⟨fault, rfl, ?_⟩
    simp only [Validator.evaluate, evaluate, Value.items?, Run.bind_eq, hs]
  · rename_i own' earlier item later
    obtain ⟨values, hvalues⟩ := exists_values h haccepted
    have hpanic : (element.evaluate ⟨.tolerant, scheduling⟩ item).result ≠ .error .panic := by
      intro hpanicked
      have hplace : changed[earlier.length]? = some item := by simp [hsplit]
      obtain ⟨outcome, -, hr⟩ := exists_outcome_getElem? ht.items_run hplace
      cases hr.symm.trans hpanicked
    obtain ⟨fault, hf, -⟩ := Validator.exists_fault_of_not_accepts h helement hpanic hrejected
    refine ⟨fault, hf, ?_⟩
    rw [hrun hs, hsplit, outcomes_refused hvalues hf later, Run.bind_eq, hs]
    rfl
  · obtain ⟨values, hvalues⟩ := exists_values h haccepted
    have hfound : (outcomes (element.evaluate ⟨.strict, scheduling⟩) 0 changed).result
        = .ok (values.map .success) := outcomes_ok_iff.mpr hvalues
    refine ⟨values, ?_⟩
    rw [hrun hs]
    refine Run.bind_ok_iff.mpr ⟨_, hs, Run.bind_ok_iff.mpr ⟨_, hfound, ?_⟩⟩
    rw [produced_success, absorb_success]
    rfl

end Items

/-! ## Callers -/

namespace Validator

/-- **Lists are evaluated position by position, and nothing gets lost.**  Let no check of a list
have a name that opens like a position.  Where a tolerant run of the list does not panic, its
operations leave the items that its transformations alone make of those that came in.  The run
reports the failures of the operations and then those of each item under its position
(`Items.Tolerantly`), and a strict run ends with what the operations or the first rejected item stop
with (`Items.Strictly`).  A list whose operations are idle is a list without operations, but for the
calls of the idle ones.

**Proof sketch.** A key shows the position that it opens with (`Path.separates_position`), so that
the failures of an item find no key of theirs among those filed before
(`Failures.entries_absorbEach`).  Both runs of the operations go side by side
(`Pipeline.run_parallel`), and so do those of each item (`exists_fault_of_not_accepts`). -/
theorem list_by_position {element : Validator} {core : Core (List Value)} (h : element.Composed)
    (hnames : ∀ summary ∈ core.pipeline.summaries, ∀ name, summary.name? = some name →
      name.toList.head? ≠ some '[')
    {scheduling : Scheduling} (hp : scheduling.Permits (list element core).requiresAsync) :
    (∀ items,
      ((list element core).evaluate ⟨.tolerant, scheduling⟩ (.arr items)).result ≠ .error .panic →
        ∃ changed own found whole,
          (core.pipeline.unchecked.run ⟨.tolerant, scheduling⟩ "list" items).result
            = .ok (.success changed) ∧
          Items.Tolerantly element core scheduling items changed own found whole ∧
          Items.Strictly element core scheduling items changed) ∧
    ((∀ operation ∈ core.pipeline.operations, operation.Idle) → ∀ mode value,
      (list element core).evaluate ⟨mode, scheduling⟩ value
        = ⟨(value.items?.elim [] fun items =>
              (core.pipeline.run ⟨mode, scheduling⟩ "list" items).trace)
            ++ ((list element (.holding core.handle)).evaluate ⟨mode, scheduling⟩ value).trace,
          ((list element (.holding core.handle)).evaluate ⟨mode, scheduling⟩ value).result⟩) := by
  refine ⟨fun items hpanic => ?_, fun hidle mode value => ?_⟩
  · obtain ⟨changed, own, found, whole, hchanged, ht⟩ := Items.exists_tolerantly h hnames hp hpanic
    exact ⟨changed, own, found, whole, hchanged, ht, ht.strictly h hp⟩
  · exact Items.evaluate_idle hidle (Scheduling.permits_or_iff.mp hp).1 value

/-- A list of texts drops its first item and fails a check of its own; two of the items that are
left are no texts.  With a check that passes instead, which is as good as none, a strict run ends at
the first item that is no text. -/
theorem list_by_position_of_dropped_item :
    let few : Action := .check "few" "too many" none fun _ => .answer false
    let tail : Action := .transformation "tail" ⟨fun
      | .arr (_ :: rest) => .answer (.arr rest)
      | _ => .panicked, .answer⟩
    let calm : Action := .check "calm" "never" none fun _ => .answer true
    let core : Core (List Value) := (Core.blank.push tail.operation).push few.operation
    let passing : Core (List Value) := Core.blank.push calm.operation
    let texts := list (ofType .string)
    let items : List Value := [.null, .str "a", .int 3, .null]
    let integer : String := "expected string, received integer"
    let recorded : Failures := Failures.ofList [("few", "too many"), ("[1].type", integer),
      ("[2].type", "expected string, received null")]
    ((texts core).evaluate ⟨.tolerant, .sync⟩ (.arr items)).result = .ok ⟨none, recorded, none⟩ ∧
      (∃ own found, Items.Tolerantly (ofType .string) core .sync items items.tail own found
        ⟨none, recorded, none⟩) ∧
      (texts passing).evaluate ⟨.strict, .sync⟩ (.arr items.tail)
        = ⟨[⟨.check, .user, "calm", .arr items.tail⟩],
            .error (.fault (.validation "[1].type" integer))⟩ ∧
      ((texts passing).evaluate ⟨.strict, .sync⟩ (.arr items.tail)).result
        = ((texts .blank).evaluate ⟨.strict, .sync⟩ (.arr items.tail)).result := by
  intro few tail calm core passing texts items integer recorded
  have h : (ofType .string).Composed := trivial
  have hresult : ((texts core).evaluate ⟨.tolerant, .sync⟩ (.arr items)).result
      = .ok ⟨none, recorded, none⟩ := rfl
  have hnames : ∀ summary ∈ core.pipeline.summaries, ∀ name, summary.name? = some name →
      name.toList.head? ≠ some '[' := by
    simp [core, tail, few, Core.push, Core.blank, Pipeline.push, Pipeline.empty, Pipeline.summaries,
      Action.operation, Operation.summary, Operation.Summary.name?]
  have hcalm : ∀ summary ∈ passing.pipeline.summaries, ∀ name, summary.name? = some name →
      name.toList.head? ≠ some '[' := by
    simp [passing, calm, Core.push, Core.blank, Pipeline.push, Pipeline.empty, Pipeline.summaries,
      Action.operation, Operation.summary, Operation.Summary.name?]
  have hidle : ∀ operation ∈ passing.pipeline.operations, operation.Idle :=
    List.forall_mem_singleton.mpr fun _ => rfl
  have haccepted : (ofType .string).Accepts .sync (.str "a") (.str "a") :=
    (accepts_iff h).mpr ⟨fun _ => rfl, rfl⟩
  have hrejected : ∀ produced, ¬ (ofType .string).Accepts .sync (.int 3) produced := by
    intro produced ha
    cases ((accepts_iff h).mp ha).2
  have hsync : Scheduling.sync.Permits (texts core).requiresAsync := fun _ => rfl
  have hsync' : Scheduling.sync.Permits (texts passing).requiresAsync := fun _ => rfl
  have hmany := list_by_position h hnames hsync
  have hone := list_by_position h hcalm hsync'
  have hpanic : ((texts core).evaluate ⟨.tolerant, .sync⟩ (.arr items)).result ≠ .error .panic := by
    intro hpanicked
    cases hresult.symm.trans hpanicked
  have hcalm_panic :
      ((texts passing).evaluate ⟨.tolerant, .sync⟩ (.arr items.tail)).result ≠ .error .panic := by
    intro hpanicked
    cases hpanicked
  obtain ⟨changed, own, found, whole, hchanged, ht, -⟩ := hmany.1 items hpanic
  obtain ⟨left, -, -, -, hleft, -, hstrict⟩ := hone.1 items.tail hcalm_panic
  obtain rfl : items.tail = changed := congrArg (·.value.getD []) (Except.ok.inj hchanged)
  obtain rfl : items.tail = left := congrArg (·.value.getD []) (Except.ok.inj hleft)
  obtain rfl : (⟨none, recorded, none⟩ : Outcome Value) = whole :=
    Except.ok.inj (hresult.symm.trans ht.list_run)
  have hcalls := hone.2 hidle .strict (.arr items.tail)
  refine ⟨hresult, ⟨own, found, ht⟩, ?_, hcalls ▸ rfl⟩
  obtain ⟨fault, hf, hends⟩ := hstrict.first_rejected rfl rfl
    (List.forall_mem_singleton.mpr ⟨_, haccepted⟩) hrejected
  obtain rfl : Fault.typeMismatch "string" (.int 3) = fault := Stop.fault.inj (Except.error.inj hf)
  exact hends

end Validator

end Conform
