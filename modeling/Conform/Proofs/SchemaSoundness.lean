import Conform.Proofs.Acceptance
import Conform.Proofs.Assembly
import Conform.Proofs.Constraints
import Conform.Proofs.StrictRuns
import Conform.Schema.Meaning
import Conform.Validator.Refinement

set_option autoImplicit false

/-!
# Schemas never refuse what validators accept

The schema of a validator is made from its form and from what its checks show, without a look at how
it is evaluated.  For plain validators, whose operations are the refinements of this library and
checks that stand for no keyword, every value that is accepted satisfies the schema: each keyword
comes from the form or from a check that the value passed.

## Main definitions

* `Conform.LeafType.Refines`, `Conform.Items.Refines` — the refinements that stand for keywords.
* `Conform.Operation.Listed` — a check that stands for no keyword.
* `Conform.Validator.Plain` — a validator whose schema tells what its operations are.

## Main results

* `Conform.Schema.exists_check_of_mem_keywords` — where the keywords of a schema come from.
* `Conform.LeafType.Refines.holds`, `Conform.Items.Refines.holds` — a refinement and its keyword.
* `Conform.Validator.fragment_sound` — what is accepted satisfies the schema.
-/

namespace Conform

variable {α : Type}

/-! ## Where keywords come from -/

namespace Schema

/-- **A keyword comes from a check**, which stands for it and carries its argument. -/
theorem exists_check_of_mem_keywords {pipeline : Pipeline α} {member : String × Value}
    (h : member ∈ (Constraints.ofSummaries pipeline.summaries).keywords) :
    ∃ c, .check c ∈ pipeline.operations ∧ keyword? c.name = some member.1 ∧
      c.param = some member.2 := by
  obtain ⟨summary, hsummary, hshown⟩ := exists_shown_of_mem h
  obtain ⟨name, message, rfl, hk⟩ := Operation.Summary.shown?_eq_some_iff.mp hshown
  obtain ⟨operation, hoperation, heq⟩ := List.mem_map.mp hsummary
  cases operation with
  | check c =>
    obtain ⟨rfl, -, hparam⟩ := Operation.Summary.check.inj heq
    exact ⟨c, hoperation, hk, hparam⟩
  | _ => cases heq

/-- Constraints laid over an object leave its members, the keywords and the list of other checks. -/
theorem layOver_obj (options : Options) (constraints : Constraints) (present : Members Value) :
    ∃ members, constraints.layOver options (.obj present) = .obj members ∧
      ∀ member ∈ members, member ∈ present ∨ member ∈ constraints.keywords ∨
        member.1 = "x-checks" := by
  unfold Constraints.layOver
  rw [Value.overlay_obj]
  dsimp only
  split
  · rw [Value.overlay_obj]
    refine ⟨_, rfl, fun member hm => ?_⟩
    obtain hkept | hlisted := Members.mem_merge hm
    · exact (Members.mem_merge hkept).imp_right Or.inl
    · exact Or.inr (Or.inr (by rw [List.mem_singleton.mp hlisted]))
  · refine ⟨_, rfl, fun member hm => ?_⟩
    exact (Members.mem_merge hm).imp_right Or.inl

/-- The list of other checks constrains nothing. -/
theorem memberHolds_checks {member : String × Value} (h : member.1 = "x-checks") (skipped : Nat)
    (value : Value) : memberHolds skipped member value = true := by
  obtain ⟨name, argument⟩ := member
  obtain rfl : name = "x-checks" := h
  rfl

end Schema

open Schema

/-! ## Refinements -/

/-- A check that stands for no keyword, or one that is awaited. -/
def Operation.Listed : Operation α → Prop
  | .check c => keyword? c.name = none
  | .asyncCheck _ => True
  | .transformation _ => False

/-- A check that is listed stands for no keyword. -/
theorem Operation.Listed.not_shown {c : Check α} (h : (Operation.check c).Listed)
    (keyword : String) : keyword? c.name ≠ some keyword := by
  have hnone : keyword? c.name = none := h
  rw [hnone]
  nofun

theorem Operation.Listed.isCheck {operation : Operation α} (h : operation.Listed) :
    operation.IsCheck := by
  cases operation with
  | transformation t => exact h.elim
  | _ => trivial

/-- What holds of the operations after one was added. -/
theorem Core.forall_mem_push {core : Core α} {operation : Operation α} {P : Operation α → Prop} :
    (∀ added ∈ (core.push operation).pipeline.operations, P added) ↔
      (∀ known ∈ core.pipeline.operations, P known) ∧ P operation := by
  simp [Core.push, or_imp, forall_and]

/-- The refinements of a leaf that stand for keywords. -/
inductive LeafType.Refines : (type : LeafType) → Operation type.Carrier → Prop
  | minLength (least : Nat) : Refines .string (Text.minLength least)
  | maxLength (most : Nat) : Refines .string (Text.maxLength most)
  | pattern (pattern : Pattern) : Refines .string (Text.pattern pattern)
  | minInteger (least : Int64) : Refines .integer (Bound.minInteger least)
  | maxInteger (most : Int64) : Refines .integer (Bound.maxInteger most)

/-- The refinements of a list. -/
inductive Items.Refines : Operation (List Value) → Prop
  | minItems (least : Nat) : Refines (Items.minItems least)
  | maxItems (most : Nat) : Refines (Items.maxItems most)

theorem LeafType.Refines.isCheck {type : LeafType} {operation : Operation type.Carrier}
    (h : type.Refines operation) : operation.IsCheck := by
  cases h <;> trivial

theorem Items.Refines.isCheck {operation : Operation (List Value)} (h : Items.Refines operation) :
    operation.IsCheck := by
  cases h <;> trivial

/-- What a refinement of this library shows holds if it follows from its predicate. -/
theorem memberHolds_of_builtIn {c : Check α} {name message keyword : String} {param : Value}
    {view : α → Value} {accepts : α → Bool}
    (hc : .check c = Check.builtIn name message param view accepts)
    (hname : keyword? name = some keyword) {member : String × Value}
    (hk : keyword? c.name = some member.1) (hp : c.param = some member.2) {a : α}
    (ha : c.passes a = true) {skipped : Nat} {value : Value}
    (h : accepts a = true → memberHolds skipped (keyword, param) value = true) :
    memberHolds skipped member value = true := by
  obtain ⟨shown, argument⟩ := member
  cases hc
  obtain rfl : keyword = shown := Option.some.inj (hname.symm.trans hk)
  obtain rfl : param = argument := Option.some.inj hp
  exact h ha

section Holds

variable {member : String × Value} (skipped : Nat)

/-- **A refinement of a leaf accepts only what its keyword allows.** -/
theorem LeafType.Refines.holds {type : LeafType} {c : Check type.Carrier}
    (h : type.Refines (.check c)) (hk : keyword? c.name = some member.1)
    (hp : c.param = some member.2) {value : Value} {a : type.Carrier}
    (hr : type.read? value = some a) (ha : c.passes a = true) :
    memberHolds skipped member value = true := by
  -- The refinements are not constructors: `cases` needs an operation that is a variable.
  generalize hc : Operation.check c = operation at h
  cases h with
  | minLength least =>
    obtain rfl := LeafType.eq_str_of_read? hr
    refine memberHolds_of_builtIn hc rfl hk hp ha fun hle => ?_
    exact (notBelow_int _ _).trans (decide_eq_true (Int.ofNat_le.mpr (of_decide_eq_true hle)))
  | maxLength most =>
    obtain rfl := LeafType.eq_str_of_read? hr
    refine memberHolds_of_builtIn hc rfl hk hp ha fun hle => ?_
    exact (notAbove_int _ _).trans (decide_eq_true (Int.ofNat_le.mpr (of_decide_eq_true hle)))
  | pattern pattern =>
    obtain rfl := LeafType.eq_str_of_read? hr
    refine memberHolds_of_builtIn hc rfl hk hp ha fun hoccurs => ?_
    show (Pattern.read? pattern.source).any _ = true
    rw [pattern.read_source]
    exact hoccurs
  | minInteger least =>
    obtain rfl := Value.toInt_of_toInt64? hr
    refine memberHolds_of_builtIn hc rfl hk hp ha fun hle => ?_
    exact (notBelow_int _ _).trans
      (decide_eq_true (Int64.le_iff_toInt_le.mp (of_decide_eq_true hle)))
  | maxInteger most =>
    obtain rfl := Value.toInt_of_toInt64? hr
    refine memberHolds_of_builtIn hc rfl hk hp ha fun hle => ?_
    exact (notAbove_int _ _).trans
      (decide_eq_true (Int64.le_iff_toInt_le.mp (of_decide_eq_true hle)))

/-- **A refinement of a list accepts only what its keyword allows.** -/
theorem Items.Refines.holds {c : Check (List Value)} (h : Items.Refines (.check c))
    (hk : keyword? c.name = some member.1) (hp : c.param = some member.2) {items : List Value}
    (ha : c.passes items = true) : memberHolds skipped member (.arr items) = true := by
  generalize hc : Operation.check c = operation at h
  cases h with
  | minItems least =>
    refine memberHolds_of_builtIn hc rfl hk hp ha fun hle => ?_
    exact (notBelow_int _ _).trans (decide_eq_true (Int.ofNat_le.mpr (of_decide_eq_true hle)))
  | maxItems most =>
    refine memberHolds_of_builtIn hc rfl hk hp ha fun hle => ?_
    exact (notAbove_int _ _).trans (decide_eq_true (Int.ofNat_le.mpr (of_decide_eq_true hle)))

end Holds

/-! ## Plain validators -/

namespace Validator

/-- The operations of a validator itself are refinements that its form has keywords for, or checks
that stand for no keyword. -/
def Refined : Validator → Prop
  | leaf type core =>
    ∀ operation ∈ core.pipeline.operations, type.Refines operation ∨ operation.Listed
  | list _ core =>
    ∀ operation ∈ core.pipeline.operations, Items.Refines operation ∨ operation.Listed
  | nullable _ _ core => ∀ operation ∈ core.pipeline.operations, operation.Listed
  | tuple _ _ core => ∀ operation ∈ core.pipeline.operations, operation.Listed
  | union _ _ core => ∀ operation ∈ core.pipeline.operations, operation.Listed
  | pipe .. => False
  | custom .. => False

/-- **A plain validator** is put together from leaves, lists, nullables, tuples and unions, with
refinements and with checks that stand for no keyword, and shows no metadata entry. -/
def Plain (store : Metadata.Store) (validator : Validator) : Prop :=
  validator.Throughout fun part => part.Refined ∧ part.shown? store = none

theorem Plain.composed {store : Metadata.Store} {validator : Validator}
    (h : validator.Plain store) : validator.Composed := by
  induction validator with
  | leaf type core => trivial
  | list element core ih => exact ih h.2
  | nullable inner default core ih => exact ih h.2
  | tuple arity elements core ih => exact fun i => ih i (h.2 i)
  | union count alternatives core ih => exact fun i => ih i (h.2 i)
  | pipe input output conversion core ihi iho => exact h.1.1.elim
  | custom behaviour core => exact h.1.elim

/-! ## Soundness -/

section Sound

variable {options : Options} {store : Metadata.Store} {validator : Validator} {value : Value}

/-- A value satisfies the schema of a validator if the form of the validator allows it and each
keyword shown does. -/
theorem satisfies_complete (hplace : validator.constrained = "")
    (hentry : validator.shown? store = none) {written : List (String × Value)}
    (hw : ∀ member ∈ written, ∀ skipped, memberHolds skipped member value = true)
    (hk : ∀ member ∈ (Constraints.ofSummaries validator.summaries).keywords, ∀ skipped,
      memberHolds skipped member value = true) :
    satisfies (complete options store validator (.object written)) value = true := by
  have hlaid : complete options store validator (.object written)
      = (Constraints.ofSummaries validator.summaries).layOver options (.object written) := by
    simp only [complete, hplace, hentry]
    cases options.includeMetadata <;> rfl
  obtain ⟨members, hmembers, hfrom⟩ := layOver_obj options
    (Constraints.ofSummaries validator.summaries) (Members.ofList written)
  rw [hlaid, Value.object, hmembers, satisfies_obj_iff]
  intro member hm
  obtain hform | hkeyword | hchecks := hfrom member hm
  · exact hw member (Members.mem_ofList hform) _
  · exact hk member hkeyword _
  · exact memberHolds_checks hchecks _ _

/-- The keywords of a pipeline hold of a value if those of its refinements follow from passing
them. -/
theorem memberHolds_of_passes {pipeline : Pipeline α} {refines : Operation α → Prop} {a : α}
    (hrefined : ∀ operation ∈ pipeline.operations, refines operation ∨ operation.Listed)
    (hp : pipeline.Passes a)
    (h : ∀ (c : Check α) (member : String × Value) (skipped : Nat), refines (.check c) →
      keyword? c.name = some member.1 → c.param = some member.2 → c.passes a = true →
        memberHolds skipped member value = true) :
    ∀ member ∈ (Constraints.ofSummaries pipeline.summaries).keywords, ∀ skipped,
      memberHolds skipped member value = true := by
  intro member hm skipped
  obtain ⟨c, hc, hk, hparam⟩ := exists_check_of_mem_keywords hm
  obtain hrefines | hlisted := hrefined _ hc
  · exact h c member skipped hrefines hk hparam (hp c hc)
  · exact absurd hk (hlisted.not_shown _)

/-- Checks that stand for no keyword show none. -/
theorem notMem_keywords_of_listed {pipeline : Pipeline α}
    (h : ∀ operation ∈ pipeline.operations, operation.Listed) (member : String × Value) :
    member ∉ (Constraints.ofSummaries pipeline.summaries).keywords := by
  intro hm
  obtain ⟨c, hc, hk, -⟩ := exists_check_of_mem_keywords hm
  have hlisted : (Operation.check c).Listed := h _ hc
  exact hlisted.not_shown _ hk

/-- The type that the schema of a leaf names is the type of what the leaf takes. -/
theorem exists_fragment_leafType (type : LeafType) :
    ∃ written, type.fragment = .object written ∧
      ∀ (value : Value) (a : type.Carrier), type.read? value = some a →
        ∀ member ∈ written, ∀ skipped, memberHolds skipped member value = true := by
  cases type with
  | string =>
    refine ⟨_, rfl, fun value a hr member hm skipped => ?_⟩
    obtain rfl := List.mem_singleton.mp hm
    obtain rfl := LeafType.eq_str_of_read? hr
    rfl
  | integer =>
    refine ⟨_, rfl, fun value a hr member hm skipped => ?_⟩
    obtain rfl := List.mem_singleton.mp hm
    obtain rfl := Value.toInt_of_toInt64? hr
    rfl
  | number =>
    refine ⟨_, rfl, fun value a hr member hm skipped => ?_⟩
    obtain rfl := List.mem_singleton.mp hm
    cases value with
    | int i => rfl
    | float x => rfl
    | _ => exact nomatch hr
  | boolean =>
    refine ⟨_, rfl, fun value a hr member hm skipped => ?_⟩
    obtain rfl := List.mem_singleton.mp hm
    cases value with
    | bool b => rfl
    | _ => exact nomatch hr
  | any => exact ⟨_, rfl, fun _ _ _ _ hm => nomatch hm⟩

/-- What a leaf takes satisfies its schema if its checks accept it. -/
theorem satisfies_leaf {type : LeafType} {core : Core type.Carrier} {a : type.Carrier}
    (hrefined : (leaf type core).Refined) (hentry : (leaf type core).shown? store = none)
    (hr : type.read? value = some a) (hp : core.pipeline.Passes a) :
    satisfies ((leaf type core).fragment options store) value = true := by
  obtain ⟨written, hfragment, hw⟩ := exists_fragment_leafType type
  rw [fragment, hfragment]
  refine satisfies_complete rfl hentry (hw value a hr) ?_
  exact memberHolds_of_passes hrefined hp fun c member skipped hc hk hparam ha =>
    hc.holds skipped hk hparam hr ha

/-- An array satisfies the schema of a list if its checks accept it and each item satisfies the
schema of the element. -/
theorem satisfies_list {element : Validator} {core : Core (List Value)} {items : List Value}
    (hrefined : (list element core).Refined) (hentry : (list element core).shown? store = none)
    (hp : core.pipeline.Passes items)
    (hitems : ∀ item ∈ items, satisfies (element.fragment options store) item = true) :
    satisfies ((list element core).fragment options store) (.arr items) = true := by
  refine satisfies_complete rfl hentry ?_ ?_
  · intro member hm skipped
    simp only [List.mem_cons, List.not_mem_nil, or_false] at hm
    obtain rfl | rfl := hm
    · rfl
    · exact List.all_eq_true.mpr fun item hitem => hitems item (List.mem_of_mem_drop hitem)
  · exact memberHolds_of_passes hrefined hp fun c member skipped hc hk hparam ha =>
      hc.holds skipped hk hparam ha

/-- A value satisfies a choice of schemas if it satisfies one of them. -/
theorem memberHolds_anyOf {schemas : List Value} {schema : Value} (hm : schema ∈ schemas)
    (h : satisfies schema value = true) (skipped : Nat) :
    memberHolds skipped ("anyOf", .arr schemas) value = true := by
  show (eachSatisfies schemas).any _ = true
  rw [eachSatisfies_eq_map, List.any_map]
  exact List.any_eq_true.mpr ⟨schema, hm, h⟩

/-- A value satisfies the schema of a nullable if it is `null` or satisfies the schema of what is
wrapped. -/
theorem satisfies_nullable {inner : Validator} {default : Option Value} {core : Core Value}
    (hrefined : (nullable inner default core).Refined)
    (hentry : (nullable inner default core).shown? store = none)
    (h : value = .null ∨ satisfies (inner.fragment options store) value = true) :
    satisfies ((nullable inner default core).fragment options store) value = true := by
  refine satisfies_complete rfl hentry ?_ fun member hm =>
    absurd hm (notMem_keywords_of_listed hrefined member)
  intro member hm skipped
  obtain hany | hdefault := List.mem_append.mp hm
  · obtain rfl := List.mem_singleton.mp hany
    obtain rfl | hinner := h
    · exact memberHolds_anyOf (List.mem_cons_of_mem _ List.mem_cons_self) rfl skipped
    · exact memberHolds_anyOf List.mem_cons_self hinner skipped
  · obtain ⟨shown, -, rfl⟩ := Option.map_eq_some_iff.mp (Option.mem_toList.mp hdefault)
    rfl

/-- A value satisfies the schema of a union if it satisfies that of one alternative. -/
theorem satisfies_union {count : Nat} {alternatives : Fin count → Validator} {core : Core Value}
    (hrefined : (union count alternatives core).Refined)
    (hentry : (union count alternatives core).shown? store = none) (i : Fin count)
    (h : satisfies ((alternatives i).fragment options store) value = true) :
    satisfies ((union count alternatives core).fragment options store) value = true := by
  refine satisfies_complete rfl hentry ?_ fun member hm =>
    absurd hm (notMem_keywords_of_listed hrefined member)
  intro member hm skipped
  obtain rfl := List.mem_singleton.mp hm
  exact memberHolds_anyOf (List.mem_ofFn.mpr ⟨i, rfl⟩) h skipped

/-- An array is allowed by schemas for its leading items if each of these satisfies its own. -/
theorem memberHolds_prefixItems {schemas items : List Value}
    (h : ∀ (i : Nat) (hs : i < schemas.length) (hi : i < items.length),
      satisfies schemas[i] items[i] = true) (skipped : Nat) :
    memberHolds skipped ("prefixItems", .arr schemas) (.arr items) = true := by
  show ((eachSatisfies schemas).zip items).all _ = true
  rw [eachSatisfies_eq_map, List.all_eq_true]
  intro entry hm
  obtain ⟨i, hi, rfl⟩ := List.mem_iff_getElem.mp hm
  simp only [List.length_zip, List.length_map, Nat.lt_min] at hi
  simpa using h i hi.1 hi.2

/-- An array satisfies the schema of a tuple if each item satisfies that of its position. -/
theorem satisfies_tuple {arity : Nat} {elements : Fin arity → Validator}
    {core : Core (Vector Value arity)} {items : Vector Value arity}
    (hrefined : (tuple arity elements core).Refined)
    (hentry : (tuple arity elements core).shown? store = none)
    (h : ∀ i : Fin arity, satisfies ((elements i).fragment options store) (items.get i) = true) :
    satisfies ((tuple arity elements core).fragment options store) (.arr items.toList) = true := by
  refine satisfies_complete rfl hentry ?_ fun member hm =>
    absurd hm (notMem_keywords_of_listed hrefined member)
  have hlength : items.toList.length = arity := by simp
  intro member hm skipped
  simp only [List.mem_cons, List.not_mem_nil, or_false] at hm
  obtain rfl | rfl | rfl | rfl := hm
  · rfl
  · refine memberHolds_prefixItems (fun i hs hi => ?_) skipped
    have harity : i < arity := by rwa [List.length_ofFn] at hs
    have hitem : items.toList[i] = items.get ⟨i, harity⟩ := Vector.getElem_toList hi
    rw [List.getElem_ofFn, hitem]
    exact h ⟨i, harity⟩
  · exact (notBelow_int _ _).trans (decide_eq_true (Int.ofNat_le.mpr (Nat.le_of_eq hlength.symm)))
  · exact (notAbove_int _ _).trans (decide_eq_true (Int.ofNat_le.mpr (Nat.le_of_eq hlength)))

/-- What a strict run comes to a result for satisfies the schema.

**Proof sketch.** Induction on the form.  The run tells what the value was like and which parts came
to a result; these satisfy their schemas, and the checks passed account for the keywords. -/
theorem satisfies_of_evaluate (h : validator.Plain store) {scheduling : Scheduling}
    {outcome : Outcome Value}
    (ho : (validator.evaluate ⟨.strict, scheduling⟩ value).result = .ok outcome) :
    satisfies (validator.fragment options store) value = true := by
  induction validator generalizing value outcome with
  | leaf type core =>
    obtain ⟨hrefined, hentry⟩ := h
    obtain ⟨a, hr, hp⟩ := Leaf.read_of_evaluate
      (fun operation hm => (hrefined operation hm).elim (·.isCheck) (·.isCheck)) ho
    exact satisfies_leaf hrefined hentry hr hp
  | list element core ih =>
    obtain ⟨⟨hrefined, hentry⟩, helement⟩ := h
    obtain ⟨items, rfl, hp, hitems⟩ := Items.items_of_evaluate
      (fun operation hm => (hrefined operation hm).elim (·.isCheck) (·.isCheck)) ho
    refine satisfies_list hrefined hentry hp fun item hm => ?_
    obtain ⟨found, hfound⟩ := hitems item hm
    exact ih helement hfound
  | nullable inner default core ih =>
    obtain ⟨⟨hrefined, hentry⟩, hinner⟩ := h
    refine satisfies_nullable hrefined hentry ?_
    obtain hnull | ⟨found, hfound⟩ := Optional.inner_of_evaluate ho
    · exact Or.inl hnull
    · exact Or.inr (ih hinner hfound)
  | tuple arity elements core ih =>
    obtain ⟨⟨hrefined, hentry⟩, helements⟩ := h
    obtain ⟨items, rfl, hitems⟩ := Positions.items_of_evaluate ho
    refine satisfies_tuple hrefined hentry fun i => ?_
    obtain ⟨found, hfound⟩ := hitems i
    exact ih i (helements i) hfound
  | union count alternatives core ih =>
    obtain ⟨⟨hrefined, hentry⟩, halternatives⟩ := h
    obtain ⟨alternative, hm, found, hfound⟩ := Choice.exists_of_evaluate ho
    obtain ⟨i, rfl⟩ := List.mem_ofFn.mp hm
    exact satisfies_union hrefined hentry i (ih i (halternatives i) hfound)
  | pipe input output conversion core ihi iho => exact h.1.1.elim
  | custom behaviour core => exact h.1.elim

/-- The name of a dialect constrains nothing. -/
theorem satisfies_set_dialect {schema : Value} (h : satisfies schema value = true)
    (dialect : Value) : satisfies (schema.set "$schema" dialect) value = true := by
  cases schema with
  | obj members =>
    have hlength : prefixLength (Members.insert members "$schema" dialect)
        = prefixLength members := by
      unfold prefixLength
      rw [Members.get?_insert, if_neg (by decide)]
    rw [Value.set, satisfies_obj_iff, hlength]
    intro member hm
    obtain rfl | hold := Members.mem_insert hm
    · rfl
    · exact satisfies_obj_iff.mp h member hold
  | _ => exact h

end Sound

end Validator

end Conform
