import Conform.Proofs.EmbeddedSchemas

set_option autoImplicit false

/-!
# What the options of a document hide

Two options say how much a document tells of a validator.  With both switched off it shows no more
than the form of the validator, the defaults, and the checks that keywords stand for: it is the
document of the validator that has nothing else left, with neither transformations nor other checks
nor metadata keys at any level, whatever entries there are.  With the lists of checks switched on,
the document is the same but for these lists, and each of them stands where a pipeline with such a
check constrains a schema.

To say where the lists stand, they are taken out of a document along the form of the validator, and
nothing else in the document is touched.  A default or a parameter may have members of the same
name.

## Main definitions

* `Conform.Operation.Summary.isMapped`, `Conform.Operation.Summary.isUnmapped` — the checks that
  keywords show, and those that they do not.
* `Conform.Validator.bare` — the validator with nothing but what keywords show.
* `Conform.Validator.unlist` — a schema without the lists of checks in it.

## Main results

* `Conform.Schema.amend_layOver` — constraints laid over a schema, with and without their list.
* `Conform.Validator.fragment_bare` — the schema of what is left of a validator.
* `Conform.Validator.unlist_fragment` — the schema of a validator without the lists.
* `Conform.Validator.options_hide` — both, for documents.
-/

namespace Conform

namespace Value

/-- An array with its items changed, each in its own way. -/
def changeItems (changes : List (Value → Value)) : Value → Value
  | arr items => arr (List.zipWith (fun change item => change item) changes items)
  | other => other

/-- One change for each item that a function on positions gives. -/
theorem changeItems_ofFn {count : Nat} (change : Fin count → Value → Value)
    (items : Fin count → Value) :
    changeItems (List.ofFn change) (arr (List.ofFn items))
      = arr (List.ofFn fun i => change i (items i)) := by
  have hzip : List.zipWith (fun change item => change item) (List.ofFn change) (List.ofFn items)
      = List.ofFn fun i => change i (items i) := by
    apply List.ext_getElem
    · simp
    · intro i hi hi'
      simp
  rw [changeItems, hzip]

end Value

/-! ## Checks that a schema shows -/

namespace Operation.Summary

/-- Whether a keyword shows the operation: it is a check that need not be awaited, its name stands
for a keyword, and it has a parameter. -/
def isMapped : Operation.Summary → Bool
  | check name _ param => (Schema.keyword? name).isSome && param.isSome
  | _ => false

/-- Whether the operation is a check that no keyword shows. -/
def isUnmapped : Operation.Summary → Bool
  | check name _ param => !((Schema.keyword? name).isSome && param.isSome)
  | asyncCheck .. => true
  | transformation => false

theorem isMapped_eq (summary : Operation.Summary) : summary.isMapped = summary.shown?.isSome := by
  cases summary with
  | check name message param => cases param <;> simp [isMapped, shown?]
  | _ => rfl

theorem isUnmapped_eq (summary : Operation.Summary) :
    summary.isUnmapped = summary.listed?.isSome := by
  cases summary with
  | check name message param =>
    cases hk : (Schema.keyword? name).isSome <;> cases param <;> simp [isUnmapped, listed?, hk]
  | _ => rfl

end Operation.Summary

/-- The checks of a pipeline that keywords show. -/
def Pipeline.mapped {α : Type} (pipeline : Pipeline α) : Pipeline α :=
  ⟨pipeline.operations.filter fun operation => operation.summary.isMapped⟩

/-- The checks that keywords show, and no metadata key. -/
def Core.bare {α : Type} (core : Core α) : Core α := ⟨core.pipeline.mapped, none⟩

namespace Validator

/-- **What keywords show of a validator**: at every level its transformations are gone, the checks
that have to be awaited, the checks without a keyword or without a parameter, and the metadata
key. -/
def bare : Validator → Validator
  | leaf type core => leaf type core.bare
  | list element core => list element.bare core.bare
  | nullable inner default core => nullable inner.bare default core.bare
  | tuple arity elements core => tuple arity (fun i => (elements i).bare) core.bare
  | union count alternatives core => union count (fun i => (alternatives i).bare) core.bare
  | pipe input output conversion core => pipe input.bare output.bare conversion core.bare
  | custom behaviour core => custom behaviour core

end Validator

namespace Schema

variable {summaries : List Operation.Summary}

/-- **The checks that keywords show contribute all the keywords.** -/
theorem keywords_filter_isMapped (summaries : List Operation.Summary) :
    (Constraints.ofSummaries (summaries.filter (·.isMapped))).keywords
      = (Constraints.ofSummaries summaries).keywords := by
  have hshown : (fun summary : Operation.Summary =>
      if summary.isMapped then summary.shown? else none) = Operation.Summary.shown? := by
    funext summary
    rw [Operation.Summary.isMapped_eq]
    cases summary.shown? <;> rfl
  rw [ofSummaries_eq, ofSummaries_eq, List.filterMap_filter, hshown]

/-- **Nothing is listed exactly if keywords show every check.** -/
theorem isEmpty_listed (summaries : List Operation.Summary) :
    (summaries.filterMap Operation.Summary.listed?).isEmpty
      = !summaries.any Operation.Summary.isUnmapped := by
  rw [funext Operation.Summary.isUnmapped_eq]
  induction summaries with
  | nil => rfl
  | cons summary rest ih =>
    cases hl : summary.listed? with
    | none => simpa [hl] using ih
    | some entry => simp [hl]

/-- The keywords of operations are those that checks stand for. -/
theorem exists_keyword_of_get?_keywords {name : String} {value : Value}
    (h : Members.get? (Constraints.ofSummaries summaries).keywords name = some value) :
    ∃ check, keyword? check = some name := by
  refine Classical.byContradiction fun hnone => ?_
  rw [get?_keywords (not_exists.mp hnone)] at h
  exact nomatch h

/-! ## Schemas without lists -/

/-- The members of a schema that operations constrain, without the list of checks that they put
there; what becomes of the others is told by `inner`. -/
def unlisting (summaries : List Operation.Summary) (inner : String → Value → Option Value) :
    String → Value → Option Value := fun name value =>
  if name = "x-checks" && summaries.any Operation.Summary.isUnmapped then none else inner name value

/-- Other members are none of these lists. -/
theorem unlisting_of_ne {inner : String → Value → Option Value} {name : String}
    (h : name ≠ "x-checks") : unlisting summaries inner name = inner name := by
  funext value
  simp [unlisting, h]

/-- Where no list was put, there is none to take out. -/
theorem unlisting_of_all_mapped {inner : String → Value → Option Value}
    (h : summaries.any Operation.Summary.isUnmapped = false) :
    unlisting summaries inner = inner := by
  funext name value
  simp [unlisting, h]

/-- A change of one member. -/
def inSlot (slot : String) (change : Value → Value) : String → Value → Option Value :=
  fun name value => some (if name = slot then change value else value)

/-- An object with a change of one member. -/
theorem amend_inSlot (slot : String) (change : Value → Value) (written : List (String × Value)) :
    (Value.object written).amend (inSlot slot change)
      = Value.object (written.map fun member =>
          (member.1, if member.1 = slot then change member.2 else member.2)) := by
  refine (Value.isObject_object _).amend_eq (Value.isObject_object _) fun name => ?_
  rw [Value.get?_object, Value.get?_object, ← List.map_reverse]
  induction written.reverse with
  | nil => rfl
  | cons member rest ih =>
    rw [List.map_cons, Members.get?, Members.get?]
    by_cases hn : name = member.1
    · simp [hn, inSlot]
    · rw [if_neg hn, if_neg hn, ih]

/-- Without the lists of checks the keywords are all that is laid over a schema. -/
theorem layOver_without_lists (dialect : Option String) (includeMetadata : Bool)
    (constraints : Constraints) (schema : Value) :
    constraints.layOver ⟨dialect, false, includeMetadata⟩ schema
      = schema.overlay constraints.keywords := rfl

/-- **The list of checks is all that constraints add to a schema if the lists are switched on.**
Suppose that a schema becomes another one if its members are changed in some way, that the change
leaves keywords alone, and that there is no list in the other one yet.  Then the constrained schema
with lists becomes the other one, constrained without them, if its own list is dropped besides. -/
theorem amend_layOver {inner : String → Value → Option Value} {shown hidden : Value}
    (hshown : shown.IsObject) (hhidden : hidden.IsObject)
    (hkeep : ∀ {name value}, (∃ check, keyword? check = some name) → inner name value = some value)
    (hlist : hidden.get? "x-checks" = none) (h : shown.amend inner = hidden)
    (dialect : Option String) (includeMetadata : Bool) (summaries : List Operation.Summary) :
    ((Constraints.ofSummaries summaries).layOver ⟨dialect, true, includeMetadata⟩ shown).amend
        (unlisting summaries inner)
      = (Constraints.ofSummaries summaries).layOver ⟨dialect, false, includeMetadata⟩ hidden := by
  have hchecks : Members.get? (Constraints.ofSummaries summaries).keywords "x-checks" = none :=
    get?_keywords keyword?_ne_checks summaries
  -- a member that is no list is a keyword, which is left alone, or was there before
  have hmember (name : String) :
      ((Members.get? (Constraints.ofSummaries summaries).keywords name).or
          (shown.get? name)).bind (inner name)
        = (Members.get? (Constraints.ofSummaries summaries).keywords name).or
            (hidden.get? name) := by
    cases hk : Members.get? (Constraints.ofSummaries summaries).keywords name with
    | none => rw [Option.none_or, Option.none_or, ← h, hshown.get?_amend]
    | some value =>
      rw [Option.some_or, Option.some_or, Option.bind_some,
        hkeep (exists_keyword_of_get?_keywords hk)]
  rw [layOver_without_lists, layOver_with_checks rfl, isEmpty_listed]
  cases hany : summaries.any Operation.Summary.isUnmapped with
  | false =>
    rw [Bool.not_false, if_pos rfl]
    refine (hshown.overlay _).amend_eq (hhidden.overlay _) fun name => ?_
    rw [hshown.get?_overlay, hhidden.get?_overlay, unlisting_of_all_mapped hany, hmember]
  | true =>
    rw [Bool.not_true, if_neg Bool.false_ne_true]
    refine ((hshown.overlay _).overlay _).amend_eq (hhidden.overlay _) fun name => ?_
    rw [(hshown.overlay _).get?_overlay, hshown.get?_overlay, hhidden.get?_overlay]
    by_cases hn : name = "x-checks"
    · subst hn
      rw [hchecks, hlist]
      simp [Members.get?, unlisting, hany]
    · have hlisted : Members.get?
          [("x-checks", Value.arr (summaries.filterMap Operation.Summary.listed?))] name = none :=
        if_neg hn
      rw [hlisted, Option.none_or, unlisting_of_ne hn, hmember]

end Schema

namespace Validator

open Schema

variable {validator : Validator} {dialect : Option String} {lists : Bool}
  {store store' : Metadata.Store} {name : String}

/-! ## Schemas without metadata -/

/-- Without metadata no entry is laid over a schema. -/
theorem silent_without_metadata {handle : Option Metadata.Handle} :
    Silent ⟨dialect, lists, false⟩ store handle := nofun

/-- The stages of a pipe in its schema: the operations constrain that of the second one, and it
stands over whatever the first one has under its name. -/
theorem fragment_pipe {options : Options} {input output : Validator} {conversion : Conversion}
    {core : Core Value} (h : input.Composed) (hs : Silent options store core.handle) :
    (pipe input output conversion core).fragment options store
      = (input.fragment options store).set "x-output"
          ((Constraints.ofSummaries core.pipeline.summaries).layOver options
            (output.fragment options store)) := by
  have hinput : (input.fragment options store).IsObject := isObject_fragment h
  have houtput : ((input.fragment options store).set "x-output"
      (output.fragment options store)).get? "x-output" = some (output.fragment options store) := by
    rw [hinput.get?_set, if_pos rfl]
  rw [fragment, complete_of_silent hs, hinput.overlay_singleton, constrained,
    (hinput.set _ _).updateAtOrWhole_output houtput, hinput.set_set]
  rfl

/-- **The schema of what is left of a validator** is its own schema without the lists of checks and
without metadata, whatever entries there are. -/
theorem fragment_bare (validator : Validator) (dialect : Option String)
    (store store' : Metadata.Store) :
    validator.bare.fragment ⟨dialect, false, false⟩ store'
      = validator.fragment ⟨dialect, false, false⟩ store := by
  have hmapped {α : Type} (core : Core α) (described : Value) :
      (Constraints.ofSummaries core.bare.pipeline.summaries).layOver ⟨dialect, false, false⟩
          described
        = (Constraints.ofSummaries core.pipeline.summaries).layOver ⟨dialect, false, false⟩
          described := by
    have hsummaries : core.bare.pipeline.summaries
        = core.pipeline.summaries.filter (·.isMapped) := by
      rw [Pipeline.summaries, Pipeline.summaries, List.filter_map]
      rfl
    rw [layOver_without_lists, layOver_without_lists, hsummaries, keywords_filter_isMapped]
  have hcomplete (part : Validator) (described : Value) (hkeywords : ∀ described,
      (Constraints.ofSummaries part.bare.summaries).layOver ⟨dialect, false, false⟩ described
        = (Constraints.ofSummaries part.summaries).layOver ⟨dialect, false, false⟩ described)
      (hplace : part.bare.constrained = part.constrained) :
      complete ⟨dialect, false, false⟩ store' part.bare described
        = complete ⟨dialect, false, false⟩ store part described := by
    rw [complete_of_silent silent_without_metadata, complete_of_silent silent_without_metadata,
      funext hkeywords, hplace]
  induction validator with
  | leaf type core => exact hcomplete (leaf type core) _ (hmapped core) rfl
  | list element core ih =>
    rw [bare, fragment, fragment, ih]
    exact hcomplete (list element core) _ (hmapped core) rfl
  | nullable inner default core ih =>
    rw [bare, fragment, fragment, ih]
    exact hcomplete (nullable inner default core) _ (hmapped core) rfl
  | tuple arity elements core ih =>
    rw [bare, fragment, fragment, funext ih]
    exact hcomplete (tuple arity elements core) _ (hmapped core) rfl
  | union count alternatives core ih =>
    rw [bare, fragment, fragment, funext ih]
    exact hcomplete (union count alternatives core) _ (hmapped core) rfl
  | pipe input output conversion core ihi iho =>
    rw [bare, fragment, fragment, ihi, iho]
    exact hcomplete (pipe input output conversion core) _ (hmapped core) rfl
  | custom behaviour core => rfl

/-! ## Schemas without the lists -/

/-- What becomes of each member of the schema of a validator when the lists of checks are taken out
of it: at every level, the list that a check of that level put there is dropped, and the schemas of
the parts are changed in the same way. -/
def unlistMember : Validator → String → Value → Option Value
  | leaf _ core => unlisting core.pipeline.summaries fun _ value => some value
  | list element core =>
    unlisting core.pipeline.summaries (inSlot "items" (Value.amend element.unlistMember))
  | nullable inner _ core =>
    unlisting core.pipeline.summaries
      (inSlot "anyOf" (Value.changeItems [Value.amend inner.unlistMember, id]))
  | tuple _ elements core =>
    unlisting core.pipeline.summaries (inSlot "prefixItems"
      (Value.changeItems (List.ofFn fun i => Value.amend (elements i).unlistMember)))
  | union _ alternatives core =>
    unlisting core.pipeline.summaries (inSlot "anyOf"
      (Value.changeItems (List.ofFn fun i => Value.amend (alternatives i).unlistMember)))
  -- the members of the first stage are members of the pipe itself
  | pipe input output _ core => fun name value =>
    if name = "x-output" then
      some (value.amend (unlisting core.pipeline.summaries output.unlistMember))
    else input.unlistMember name value
  | custom _ _ => fun _ value => some value

/-- The schema of a validator without the lists of checks in it. -/
def unlist (validator : Validator) (schema : Value) : Value := schema.amend validator.unlistMember

/-- Members that are neither a list nor about parts stay. -/
theorem unlistMember_of_notMem
    (h : name ∉ ["x-checks", "items", "prefixItems", "anyOf", "x-output"]) (value : Value) :
    validator.unlistMember name value = some value := by
  simp only [List.mem_cons, List.not_mem_nil, or_false, not_or] at h
  obtain ⟨hchecks, hitems, hprefixItems, hanyOf, houtput⟩ := h
  induction validator with
  | pipe input output conversion core ih _ => exact (if_neg houtput).trans ih
  | custom behaviour core => rfl
  | leaf type core => rw [unlistMember, unlisting_of_ne hchecks]
  | list element core => rw [unlistMember, unlisting_of_ne hchecks, inSlot, if_neg hitems]
  | tuple arity elements core =>
    rw [unlistMember, unlisting_of_ne hchecks, inSlot, if_neg hprefixItems]
  | _ => rw [unlistMember, unlisting_of_ne hchecks, inSlot, if_neg hanyOf]

/-- Keywords stay. -/
theorem unlistMember_of_keyword? {check : String} (h : keyword? check = some name) (value : Value) :
    validator.unlistMember name value = some value := by
  have hapart : ∀ keyword ∈ ["minLength", "maxLength", "pattern", "minimum", "maximum", "minItems",
      "maxItems"], keyword ∉ ["x-checks", "items", "prefixItems", "anyOf", "x-output"] := by decide
  exact unlistMember_of_notMem (hapart name (mem_of_keyword? h)) value

/-- There is no list in a schema if the lists are switched off. -/
theorem get?_checks_fragment (h : validator.Composed) :
    (validator.fragment ⟨dialect, false, false⟩ store).get? "x-checks" = none := by
  have hlaid {described : Value} (hobject : described.IsObject)
      (hnone : described.get? "x-checks" = none) (summaries : List Operation.Summary) :
      ((Constraints.ofSummaries summaries).layOver ⟨dialect, false, false⟩ described).get?
        "x-checks" = none := by
    rw [layOver_without_lists, hobject.get?_overlay, hnone, get?_keywords keyword?_ne_checks]
    rfl
  induction validator with
  | leaf type core => cases type <;> exact hlaid (Value.isObject_object _) rfl _
  | nullable inner default core =>
    refine hlaid (Value.isObject_object _) ?_ core.pipeline.summaries
    rw [Value.get?_object]
    cases default <;> rfl
  | pipe input output conversion core ih _ =>
    rw [fragment_pipe h.1 silent_without_metadata, (isObject_fragment h.1).get?_set,
      if_neg (by decide)]
    exact ih h.1
  | custom behaviour core => exact h.elim
  | _ => exact hlaid (Value.isObject_object _) (Value.get?_object _ _) _

/-- **The schema with the lists of checks, without them**, is the schema that never had them. -/
theorem unlist_fragment (h : validator.Composed) (dialect : Option String)
    (store store' : Metadata.Store) :
    validator.unlist (validator.fragment ⟨dialect, true, false⟩ store)
      = validator.fragment ⟨dialect, false, false⟩ store' := by
  -- the operations constrain the whole, and the schemas of the parts stand in one slot
  have hslot {slot : String} {change : Value → Value} {shown hidden : List (String × Value)}
      (hs : Spared slot) (hlist : (Value.object hidden).get? "x-checks" = none)
      (h : (Value.object shown).amend (inSlot slot change) = Value.object hidden)
      (summaries : List Operation.Summary) :
      ((Constraints.ofSummaries summaries).layOver ⟨dialect, true, false⟩
          (Value.object shown)).amend (unlisting summaries (inSlot slot change))
        = (Constraints.ofSummaries summaries).layOver ⟨dialect, false, false⟩
          (Value.object hidden) := by
    refine amend_layOver (Value.isObject_object _) (Value.isObject_object _) ?_ hlist h _ _ _
    rintro name value ⟨check, hk⟩
    have hne : name ≠ slot := fun heq => hs.2 check (heq ▸ hk)
    rw [inSlot, if_neg hne]
  have hitems : Spared "items" := spared_of_notMem (by decide)
  have hprefixItems : Spared "prefixItems" := spared_of_notMem (by decide)
  have hanyOf : Spared "anyOf" := spared_of_notMem (by decide)
  induction validator with
  | leaf type core =>
    have hobject : type.fragment.IsObject := by cases type <;> exact Value.isObject_object _
    refine amend_layOver hobject hobject (fun _ => rfl) ?_ ?_ dialect false core.pipeline.summaries
    · cases type <;> rfl
    · exact hobject.amend_eq hobject fun name => Option.bind_fun_some _
  | list element core ih =>
    refine hslot hitems (Value.get?_object _ _) ?_ core.pipeline.summaries
    rw [amend_inSlot]
    simp [← ih h, unlist]
  | nullable inner default core ih =>
    refine hslot hanyOf ?_ ?_ core.pipeline.summaries
    · rw [Value.get?_object]
      cases default <;> rfl
    · rw [amend_inSlot]
      cases default <;> simp [← ih h, unlist, Value.changeItems]
  | tuple arity elements core ih =>
    refine hslot hprefixItems (Value.get?_object _ _) ?_ core.pipeline.summaries
    rw [amend_inSlot]
    simp [← ih _ (h _), unlist, Value.changeItems_ofFn]
  | union count alternatives core ih =>
    refine hslot hanyOf (Value.get?_object _ _) ?_ core.pipeline.summaries
    rw [amend_inSlot]
    simp [← ih _ (h _), unlist, Value.changeItems_ofFn]
  | pipe input output conversion core ihi iho =>
    have hinput {lists : Bool} {store : Metadata.Store} :
        (input.fragment ⟨dialect, lists, false⟩ store).IsObject := isObject_fragment h.1
    have houtput {lists : Bool} {store : Metadata.Store} :
        (output.fragment ⟨dialect, lists, false⟩ store).IsObject := isObject_fragment h.2
    rw [fragment_pipe h.1 silent_without_metadata, fragment_pipe h.1 silent_without_metadata]
    refine (hinput.set _ _).amend_eq (hinput.set _ _) fun name => ?_
    rw [hinput.get?_set, hinput.get?_set]
    by_cases hn : name = "x-output"
    · rw [if_pos hn, if_pos hn, Option.bind_some]
      refine (if_pos hn).trans (congrArg some ?_)
      refine amend_layOver houtput houtput ?_ (get?_checks_fragment h.2) (iho h.2) _ _ _
      exact fun ⟨check, hk⟩ => unlistMember_of_keyword? hk _
    · rw [if_neg hn, if_neg hn, ← ihi h.1, unlist, hinput.get?_amend]
      exact congrArg _ (funext fun value => if_neg hn)
  | custom behaviour core => exact h.elim

/-! ## Documents -/

/-- **The options hide what they promise to hide.**  With both switches off, the document of a
composed validator is that of what keywords show of it: the document says nothing of
transformations, of checks that have to be awaited, of checks without a keyword or a parameter, and
of metadata, whatever entries there are and whatever the dialect is.  With the lists of checks
switched on, it is this document again once these lists are taken out, each from a schema that a
pipeline with such a check constrains. -/
theorem options_hide (h : validator.Composed) (dialect : Option String)
    (store store' : Metadata.Store) :
    validator.document ⟨dialect, false, false⟩ store
        = validator.bare.document ⟨dialect, false, false⟩ store' ∧
      validator.unlist (validator.document ⟨dialect, true, false⟩ store)
        = validator.bare.document ⟨dialect, false, false⟩ store' := by
  have hbare : validator.fragment ⟨dialect, false, false⟩ store
      = validator.bare.fragment ⟨dialect, false, false⟩ store' :=
    (fragment_bare validator dialect store store').symm
  have hunlist : validator.unlist (validator.fragment ⟨dialect, true, false⟩ store)
      = validator.bare.fragment ⟨dialect, false, false⟩ store' :=
    (unlist_fragment h dialect store store).trans hbare
  unfold document
  cases dialect with
  | none => exact ⟨hbare, hunlist⟩
  | some dialect =>
    have hkept : validator.unlistMember "$schema" (.str dialect) = some (.str dialect) :=
      unlistMember_of_notMem (by decide) _
    refine ⟨congrArg (Value.set · "$schema" (.str dialect)) hbare, ?_⟩
    rw [← hunlist]
    exact (isObject_fragment h).amend_set hkept

/-- A pipe from trimmed texts to anything that may be missing.  Each stage and the pipe itself have
checks that no keyword shows and a metadata entry; the default has a member with the name of a list
of checks, which stays. -/
theorem options_hide_of_annotated_pipe :
    let trim : Action := .transformation "trim" ⟨.answer, .answer⟩
    let short : Action := .check "max_length" "too long" (some (.int 9)) fun _ => .answer true
    let slug : Action := .check "slug" "not a slug" none fun _ => .answer true
    let remote : Action := .asyncCheck "remote" "out of reach" fun _ => .answer (.ready true)
    let described : Metadata.Entry := ⟨some "internal", none, [], true, []⟩
    let fallback : Value := .obj [("x-checks", .null)]
    let text := (((ofType .string).act trim).act short).act slug
    let input := text.annotate .shared described .empty
    let output := (((ofType .any).act remote).orDefault fallback).annotate .shared described input.2
    let validator := (thenTo ⟨"same", fun value => .answer (.ok value)⟩ input.1 output.1).act slug
    let slugs : Value := .arr [.obj [("message", .str "not a slug"), ("name", .str "slug")]]
    let remotes : Value :=
      .arr [.obj [("async", .bool true), ("message", .str "out of reach"), ("name", .str "remote")]]
    let missing : Value := .obj [("type", .str "null")]
    let shown : Value := .obj [("$schema", .str "draft"), ("maxLength", .int 9),
      ("type", .str "string"), ("x-checks", slugs),
      ("x-output", .obj [("anyOf", .arr [.obj [("x-checks", remotes)], missing]),
        ("default", fallback), ("x-checks", slugs)])]
    let hidden : Value := .obj [("$schema", .str "draft"), ("maxLength", .int 9),
      ("type", .str "string"),
      ("x-output", .obj [("anyOf", .arr [.obj [], missing]), ("default", fallback)])]
    validator.document ⟨some "draft", true, false⟩ output.2 = shown ∧
      validator.unlist shown = hidden ∧
      validator.document ⟨some "draft", false, false⟩ output.2 = hidden := by
  intro trim short slug remote described fallback text input output validator slugs remotes missing
    shown hidden
  have h : validator.Composed := ⟨trivial, trivial⟩
  have hbare : validator.bare.document ⟨some "draft", false, false⟩ .empty = hidden := by
    unfold hidden validator output input text trim short slug remote described fallback missing
    rfl
  have hshown : validator.document ⟨some "draft", true, false⟩ output.2 = shown := by
    unfold shown validator output input text trim short slug remote described fallback missing slugs
      remotes
    rfl
  obtain ⟨hhidden, hunlisted⟩ := options_hide h (some "draft") output.2 .empty
  exact ⟨hshown, hshown ▸ hunlisted.trans hbare, hhidden.trans hbare⟩

end Validator

end Conform
