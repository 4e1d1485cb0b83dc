import Conform.Proofs.BrokenRuns

set_option autoImplicit false

/-!
# Stops that nothing handles

Where a panic or a configuration fault arises, the whole evaluation ends there and then, and it ends
in no other way by one of them.  The places where it may arise are described by relations that follow
an evaluation: which part is evaluated on which value after which calls, and where the operations of
a validator are run.  Parts that were written by hand are evaluated parts like any other.

## Main definitions

* `Conform.Validator.Asks` — a part is evaluated on some value.
* `Conform.Validator.Operates` — the validator's own operations are run.
* `Conform.Validator.Broken` — the operations or a part end with a stop.

## Main results

* `Conform.Validator.Asks.breaks`, `Conform.Validator.Operates.breaks` — a final stop passes through
  a form.
* `Conform.Validator.breaks_iff_broken` — a form ends with a final stop for no other reason.
* `Conform.Validator.parse_breaks_iff` — a caller learns of a final stop as it is.
-/

namespace Conform

variable {strategy : Strategy} {stop : Stop}

/-! ## What an evaluation includes -/

/-- Operations of a validator of some kind, put to a value. -/
structure Task where
  /-- What the operations work on. -/
  carrier : Type
  /-- The operations. -/
  pipeline : Pipeline carrier
  /-- The kind of the validator. -/
  kind : String
  /-- The value. -/
  subject : carrier

/-- The run of the operations, without its result. -/
def Task.run (strategy : Strategy) (task : Task) : Run Unit :=
  (task.pipeline.run strategy task.kind task.subject).muted

namespace Validator

/-- **A part is evaluated.**  In an evaluation of the first validator on the first value, the second
one, which is a part of it, is evaluated on the second value, after these calls. -/
inductive Asks (strategy : Strategy) :
    Validator → Value → List Call → Validator → Value → Prop
  /-- An item of a list, after the operations and the items before it. -/
  | item {element : Validator} {core : Core (List Value)} {value item : Value}
    {items earlier later : List Value} {own : Outcome (List Value)}
    {found : List (Outcome Value)} {calls calls' : List Call}
    (hitems : value.items? = some items)
    (hown : core.pipeline.run strategy "list" items = ⟨calls, .ok own⟩)
    (hsplit : own.value.getD [] = earlier ++ item :: later)
    (hearlier : Items.outcomes (element.evaluate strategy) 0 earlier = ⟨calls', .ok found⟩) :
    Asks strategy (list element core) value (calls ++ calls') element item
  /-- What a nullable wraps. -/
  | inner {inner : Validator} {default : Option Value} {core : Core Value} {value : Value}
    (h : value ≠ .null) :
    Asks strategy (nullable inner default core) value [] inner value
  /-- A position of a tuple, after the positions before it. -/
  | element {arity : Nat} {elements : Fin arity → Validator} {core : Core (Vector Value arity)}
    {value : Value} {list : List Value} {items : Vector Value arity} {calls : List Call}
    (i : Fin arity) {before : Positions.Gathered i.val}
    (hlist : value.items? = some list) (hitems : Value.exactly? arity list = some items)
    (hbefore : Positions.gather (fun j => (elements j).evaluate strategy) items i.val
      (Nat.le_of_lt i.isLt) = ⟨calls, .ok before⟩) :
    Asks strategy (tuple arity elements core) value calls (elements i) items[i]
  /-- An alternative of a union, after those before it, none of which matched. -/
  | alternative {count : Nat} {alternatives : Fin count → Validator} {core : Core Value}
    {value : Value} {calls : List Call} {left : Failures} (i : Fin count)
    (hmissed : Choice.tryAll value 0
      ((List.ofFn fun j => (alternatives j).evaluate strategy).take i) .empty
        = ⟨calls, .ok (.exhausted left)⟩) :
    Asks strategy (union count alternatives core) value calls (alternatives i) value
  /-- The first stage of a pipe. -/
  | input {input output : Validator} {conversion : Conversion} {core : Core Value}
    {value : Value} :
    Asks strategy (pipe input output conversion core) value [] input value
  /-- The second stage of a pipe, after the first one and the conversion. -/
  | output {input output : Validator} {conversion : Conversion} {core : Core Value}
    {value converted : Value} {first : Outcome Value} {calls calls' : List Call}
    (hfirst : input.evaluate strategy value = ⟨calls, .ok first⟩)
    (hcross : Stages.cross strategy input.kind output.kind conversion first
      = ⟨calls', .ok (.converted converted)⟩) :
    Asks strategy (pipe input output conversion core) value (calls ++ calls') output converted

/-- **The operations are run.**  In an evaluation of the validator on the value, its own operations
are put to a value, after these calls. -/
inductive Operates (strategy : Strategy) : Validator → Value → List Call → Task → Prop
  /-- On what a leaf read. -/
  | leaf {type : LeafType} {core : Core type.Carrier} {value : Value} {a : type.Carrier}
    (h : type.read? value = some a) :
    Operates strategy (leaf type core) value [] ⟨_, core.pipeline, type.name, a⟩
  /-- On the items of an array. -/
  | list {element : Validator} {core : Core (List Value)} {value : Value} {items : List Value}
    (h : value.items? = some items) :
    Operates strategy (list element core) value [] ⟨_, core.pipeline, "list", items⟩
  /-- On the value that a nullable was handed by what it wraps. -/
  | nullable {inner : Validator} {default : Option Value} {core : Core Value} {value a : Value}
    {outcome : Outcome Value} {calls : List Call} (h : value ≠ .null)
    (hinner : inner.evaluate strategy value = ⟨calls, .ok outcome⟩)
    (ha : outcome.value = some a) :
    Operates strategy (nullable inner default core) value calls
      ⟨_, core.pipeline, "nullable", a⟩
  /-- On the values of all positions of a tuple. -/
  | tuple {arity : Nat} {elements : Fin arity → Validator} {core : Core (Vector Value arity)}
    {value : Value} {list : List Value} {outcome : Outcome (Vector Value arity)}
    {values : Vector Value arity} {calls : List Call} (hlist : value.items? = some list)
    (helements : Positions.evaluate strategy (fun j => (elements j).evaluate strategy) list
      = ⟨calls, .ok outcome⟩)
    (hvalues : outcome.value = some values) :
    Operates strategy (tuple arity elements core) value calls ⟨_, core.pipeline, "tuple", values⟩
  /-- On the value of the alternative of a union that matched. -/
  | union {count : Nat} {alternatives : Fin count → Validator} {core : Core Value}
    {value produced : Value} {calls : List Call}
    (h : Choice.tryAll value 0 (List.ofFn fun j => (alternatives j).evaluate strategy) .empty
      = ⟨calls, .ok (.matched produced)⟩) :
    Operates strategy (union count alternatives core) value calls
      ⟨_, core.pipeline, "union", produced⟩
  /-- On the value of the second stage of a pipe. -/
  | pipe {input output : Validator} {conversion : Conversion} {core : Core Value}
    {value converted a : Value} {first outcome : Outcome Value} {calls calls' calls'' : List Call}
    (hfirst : input.evaluate strategy value = ⟨calls, .ok first⟩)
    (hcross : Stages.cross strategy input.kind output.kind conversion first
      = ⟨calls', .ok (.converted converted)⟩)
    (hsecond : output.evaluate strategy converted = ⟨calls'', .ok outcome⟩)
    (ha : outcome.value = some a) :
    Operates strategy (pipe input output conversion core) value (calls ++ (calls' ++ calls''))
      ⟨_, core.pipeline, "pipe", a⟩

/-- **The evaluation is broken off** by a stop after these calls: its own operations end so, or a
part does, or the validator was written by hand and answers with a fault. -/
inductive Broken (strategy : Strategy) : Stop → Validator → Value → List Call → Prop
  | own {stop : Stop} {validator : Validator} {value : Value} {before later : List Call}
    {task : Task} (h : Operates strategy validator value before task)
    (hrun : (task.run strategy).Breaks stop later) :
    Broken strategy stop validator value (before ++ later)
  | part {stop : Stop} {validator part : Validator} {value subject : Value}
    {before later : List Call} (h : Asks strategy validator value before part subject)
    (hpart : (part.evaluate strategy subject).Breaks stop later) :
    Broken strategy stop validator value (before ++ later)
  | byHand {fault : Fault} {behaviour : Custom} {core : Core Value} {value : Value}
    (h : behaviour.respond strategy value = .error fault) :
    Broken strategy (.fault fault) (custom behaviour core) value [⟨.validator, .user, "", value⟩]

/-! ## A stop passes through a form -/

variable {validator part : Validator} {value subject : Value} {before calls : List Call}

/-- **A validator breaks off where a part of it does.** -/
theorem Asks.breaks (hf : stop.Final) (h : Asks strategy validator value before part subject)
    (hpart : (part.evaluate strategy subject).Breaks stop calls) :
    (validator.evaluate strategy value).Breaks stop (before ++ calls) := by
  cases h with
  | item hitems hown hsplit hearlier =>
    simp only [evaluate, Items.evaluate, hitems]
    rw [List.append_assoc]
    refine Run.Breaks.after hown (Run.Breaks.bind ?_ _)
    rw [hsplit]
    exact (Items.outcomes_breaks_iff hf).mpr ⟨_, _, _, _, _, _, rfl, hearlier, hpart, rfl⟩
  | inner hnull =>
    simp only [evaluate, Optional.evaluate]
    exact hpart.bind _
  | element i hlist hitems hbefore =>
    simp only [evaluate, Positions.evaluateArray, hlist]
    refine Run.Breaks.bind ((Positions.evaluate_breaks_iff hf).mpr ⟨_, hitems, ?_⟩) _
    exact (Positions.gather_breaks_iff hf).mpr ⟨i, _, _, _, i.isLt, hbefore, hpart, rfl⟩
  | alternative i hmissed =>
    simp only [evaluate, Choice.evaluate]
    refine Run.Breaks.bind ?_ _
    exact (Choice.tryAll_breaks_iff hf).mpr
      ⟨_, _, _, _, _, _, ofFn_eq_append_cons _ i, hmissed, hpart, rfl⟩
  | input =>
    simp only [evaluate, Stages.evaluate]
    exact hpart.bind _
  | output hfirst hcross =>
    simp only [evaluate, Stages.evaluate]
    rw [List.append_assoc]
    exact Run.Breaks.after hfirst (Run.Breaks.after hcross (hpart.bind _))

/-- **A validator breaks off where its own operations do.** -/
theorem Operates.breaks {task : Task} (h : Operates strategy validator value before task)
    (hrun : (task.run strategy).Breaks stop calls) :
    (validator.evaluate strategy value).Breaks stop (before ++ calls) := by
  have hown := Run.breaks_muted.mp hrun
  cases h with
  | leaf ha =>
    simp only [evaluate, Leaf.evaluate, ha, List.nil_append]
    exact Run.breaks_map_iff.mpr hown
  | list hitems =>
    simp only [evaluate, Items.evaluate, hitems, List.nil_append]
    exact hown.bind _
  | nullable hnull hinner ha =>
    simp only [evaluate, Optional.evaluate]
    exact Run.Breaks.after hinner (Core.finish_breaks_iff.mpr ⟨_, ha, hown⟩)
  | tuple hlist helements hvalues =>
    simp only [evaluate, Positions.evaluateArray, hlist]
    have hfinish := Core.finish_breaks_iff.mpr ⟨_, hvalues, hown⟩
    exact Run.Breaks.after helements (hfinish.bind _)
  | union hmatched =>
    simp only [evaluate, Choice.evaluate]
    exact Run.Breaks.after hmatched hown
  | pipe hfirst hcross hsecond ha =>
    simp only [evaluate, Stages.evaluate]
    rw [List.append_assoc, List.append_assoc]
    have hfinish := Core.finish_breaks_iff.mpr ⟨_, ha, hown⟩
    exact Run.Breaks.after hfirst (Run.Breaks.after hcross (Run.Breaks.after hsecond hfinish))

/-! ## No form breaks off for another reason -/

/-- The operations are run first, and nothing is called before. -/
theorem Broken.own_first {task : Task} (h : Operates strategy validator value [] task)
    (hrun : (task.run strategy).Breaks stop calls) :
    Broken strategy stop validator value calls :=
  .own h hrun

/-- The part is evaluated first, and nothing is called before. -/
theorem Broken.part_first (h : Asks strategy validator value [] part subject)
    (hpart : (part.evaluate strategy subject).Breaks stop calls) :
    Broken strategy stop validator value calls :=
  .part h hpart

theorem broken_leaf (hf : stop.Final) {type : LeafType} {core : Core type.Carrier}
    (h : ((leaf type core).evaluate strategy value).Breaks stop calls) :
    Broken strategy stop (leaf type core) value calls := by
  simp only [evaluate, Leaf.evaluate] at h
  cases hread : type.read? value with
  | none =>
    simp only [hread] at h
    exact (not_breaks_refuse rfl hf h).elim
  | some a =>
    simp only [hread] at h
    exact .own_first (.leaf hread) (Run.breaks_muted.mpr (Run.breaks_map_iff.mp h))

theorem broken_list (hf : stop.Final) {element : Validator} {core : Core (List Value)}
    (h : ((list element core).evaluate strategy value).Breaks stop calls) :
    Broken strategy stop (list element core) value calls := by
  simp only [evaluate, Items.evaluate] at h
  cases hitems : value.items? with
  | none =>
    simp only [hitems] at h
    exact (not_breaks_refuse rfl hf h).elim
  | some items =>
    simp only [hitems] at h
    obtain hown | ⟨before, own, later, hown, hrest, rfl⟩ := Run.breaks_bind_iff.mp h
    · exact .own_first (.list hitems) (Run.breaks_muted.mpr hown)
    · obtain ⟨earlier, item, rest, before', found, during, hsplit, hearlier, hitem, rfl⟩ :=
        (Items.outcomes_breaks_iff hf).mp (Run.breaks_bind_pure_iff.mp hrest)
      rw [← List.append_assoc]
      exact .part (.item hitems hown hsplit hearlier) hitem

theorem broken_nullable {inner : Validator} {default : Option Value} {core : Core Value}
    (h : ((nullable inner default core).evaluate strategy value).Breaks stop calls) :
    Broken strategy stop (nullable inner default core) value calls := by
  by_cases hnull : value = .null
  · subst hnull
    exact (Run.not_breaks_pure h).elim
  · simp only [evaluate, Optional.evaluate] at h
    obtain hinner | ⟨before, outcome, later, hinner, hfinish, rfl⟩ := Run.breaks_bind_iff.mp h
    · exact .part_first (.inner hnull) hinner
    · obtain ⟨a, ha, hown⟩ := Core.finish_breaks_iff.mp hfinish
      exact .own (.nullable hnull hinner ha) (Run.breaks_muted.mpr hown)

theorem broken_tuple (hf : stop.Final) {arity : Nat} {elements : Fin arity → Validator}
    {core : Core (Vector Value arity)}
    (h : ((tuple arity elements core).evaluate strategy value).Breaks stop calls) :
    Broken strategy stop (tuple arity elements core) value calls := by
  simp only [evaluate, Positions.evaluateArray] at h
  cases hlist : value.items? with
  | none =>
    simp only [hlist] at h
    exact (not_breaks_refuse rfl hf h).elim
  | some items =>
    simp only [hlist] at h
    obtain helements | ⟨before, outcome, later, helements, hrest, rfl⟩ := Run.breaks_bind_iff.mp h
    · obtain ⟨values, hitems, hgather⟩ := (Positions.evaluate_breaks_iff hf).mp helements
      obtain ⟨i, before, gathered, during, -, hbefore, hitem, rfl⟩ :=
        (Positions.gather_breaks_iff hf).mp hgather
      exact .part (.element i hlist hitems hbefore) hitem
    · obtain ⟨values, hvalues, hown⟩ :=
        Core.finish_breaks_iff.mp (Run.breaks_bind_pure_iff.mp hrest)
      exact .own (.tuple hlist helements hvalues) (Run.breaks_muted.mpr hown)

theorem broken_union (hf : stop.Final) {count : Nat} {alternatives : Fin count → Validator}
    {core : Core Value}
    (h : ((union count alternatives core).evaluate strategy value).Breaks stop calls) :
    Broken strategy stop (union count alternatives core) value calls := by
  simp only [evaluate, Choice.evaluate] at h
  obtain htry | ⟨before, verdict, later, hverdict, hrest, rfl⟩ := Run.breaks_bind_iff.mp h
  · obtain ⟨missed, alternative, rest, before, left, during, hsplit, hmissed, hpart, rfl⟩ :=
      (Choice.tryAll_breaks_iff hf).mp htry
    obtain ⟨i, rfl, rfl⟩ := exists_of_ofFn_eq_append_cons hsplit
    exact .part (.alternative i hmissed) hpart
  · cases verdict with
    | matched produced => exact .own (.union hverdict) (Run.breaks_muted.mpr hrest)
    | exhausted failures => exact (Choice.not_breaks_exhausted hf hrest).elim

theorem broken_pipe (hf : stop.Final) {input output : Validator} {conversion : Conversion}
    {core : Core Value}
    (h : ((pipe input output conversion core).evaluate strategy value).Breaks stop calls) :
    Broken strategy stop (pipe input output conversion core) value calls := by
  simp only [evaluate, Stages.evaluate] at h
  obtain hinput | ⟨before, first, later, hfirst, hrest, rfl⟩ := Run.breaks_bind_iff.mp h
  · exact .part_first .input hinput
  obtain hcross | ⟨before', crossing, later', hcross, hafter, rfl⟩ := Run.breaks_bind_iff.mp hrest
  · exact (Stages.not_breaks_cross hf hcross).elim
  cases crossing with
  | halted outcome => exact (Run.not_breaks_pure hafter).elim
  | converted converted =>
    rw [← List.append_assoc]
    obtain houtput | ⟨before'', outcome, later'', hsecond, hfinish, rfl⟩ :=
      Run.breaks_bind_iff.mp hafter
    · exact .part (.output hfirst hcross) houtput
    · obtain ⟨a, ha, hown⟩ := Core.finish_breaks_iff.mp hfinish
      rw [← List.append_assoc, List.append_assoc before]
      exact .own (.pipe hfirst hcross hsecond ha) (Run.breaks_muted.mpr hown)

/-- **A form breaks off exactly where its operations or one of its parts do**, or by the answer of
whoever wrote it by hand. -/
theorem breaks_iff_broken (hf : stop.Final) :
    (validator.evaluate strategy value).Breaks stop calls ↔
      Broken strategy stop validator value calls := by
  constructor
  · intro h
    cases validator with
    | leaf type core => exact broken_leaf hf h
    | list element core => exact broken_list hf h
    | nullable inner default core => exact broken_nullable h
    | tuple arity elements core => exact broken_tuple hf h
    | union count alternatives core => exact broken_union hf h
    | pipe input output conversion core => exact broken_pipe hf h
    | custom behaviour core =>
      simp only [evaluate] at h
      cases hrespond : behaviour.respond strategy value with
      | ok outcome =>
        simp only [hrespond] at h
        cases h
      | error fault =>
        simp only [hrespond] at h
        obtain ⟨⟩ := h
        exact .byHand hrespond
  · intro h
    cases h with
    | own hoperates hrun => exact hoperates.breaks hrun
    | part hasks hpart => exact hasks.breaks hf hpart
    | byHand hrespond =>
      simp only [evaluate, hrespond]
      rfl

/-- **Parts come before wholes**: what holds of a validator whenever it holds of the parts that an
evaluation may ask holds of all validators. -/
theorem induction_on_parts (strategy : Strategy) {P : Validator → Prop}
    (step : ∀ validator : Validator, (∀ {value before part subject},
      Asks strategy validator value before part subject → P part) → P validator)
    (validator : Validator) : P validator := by
  induction validator with
  | leaf type core => exact step _ nofun
  | list element core ih =>
    refine step _ fun h => ?_
    cases h with
    | item => exact ih
  | nullable inner default core ih =>
    refine step _ fun h => ?_
    cases h with
    | inner => exact ih
  | tuple arity elements core ih =>
    refine step _ fun h => ?_
    cases h with
    | element i => exact ih i
  | union count alternatives core ih =>
    refine step _ fun h => ?_
    cases h with
    | alternative i => exact ih i
  | pipe input output conversion core ihi iho =>
    refine step _ fun h => ?_
    cases h with
    | input => exact ihi
    | output => exact iho
  | custom behaviour core => exact step _ nofun

/-! ## What callers learn -/

/-- Settling changes nothing about a final stop. -/
theorem settle_breaks_iff (hf : stop.Final) {mode : Mode} {run : Run (Outcome Value)} :
    (settle mode run).Breaks stop calls ↔ run.Breaks stop calls := by
  cases mode with
  | strict =>
    constructor
    · intro h
      obtain hrun | ⟨_, outcome, _, _, hrest, _⟩ := Run.breaks_bind_iff.mp h
      · exact hrun
      split at hrest
      · obtain ⟨⟩ := hrest
        cases hf
      · exact (Run.not_breaks_pure hrest).elim
    · exact fun h => h.bind _
  | tolerant =>
    constructor
    · intro h
      obtain hattempt | ⟨before, found, later, hfound, hrest, rfl⟩ := Run.breaks_bind_iff.mp h
      · exact (Run.breaks_attempt_iff.mp hattempt).1
      cases found with
      | ok outcome => exact (Run.not_breaks_pure hrest).elim
      | error fault =>
        cases hkey : fault.key? with
        | some key =>
          simp only [Outcome.ofFault, hkey] at hrest
          exact (Run.not_breaks_pure hrest).elim
        | none =>
          simp only [Outcome.ofFault, hkey] at hrest
          obtain ⟨⟩ := hrest
          rw [List.append_nil]
          exact Run.attempt_error_iff.mp hfound
    · exact fun h => Run.Breaks.attempt_bind hf h fun _ => rfl

/-- **A caller of a validator that may be run learns of a final stop as it is.** -/
theorem parse_breaks_iff (hf : stop.Final)
    (hp : strategy.scheduling.Permits validator.requiresAsync) {store : Metadata.Store} :
    (validator.parse store strategy value).Breaks stop calls ↔
      (validator.evaluate strategy value).Breaks stop calls := by
  rw [parse, ensureRunnable_of_permits hp, pure_bind]
  exact Run.breaks_bind_pure_iff.trans (settle_breaks_iff hf)

end Validator

end Conform
