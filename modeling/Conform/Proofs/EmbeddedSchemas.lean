import Conform.Json.Objects
import Conform.Proofs.Assembly
import Conform.Proofs.Constraints
import Conform.Validator.Action

set_option autoImplicit false

/-!
# Schemas of parts inside the schema of a whole

A list, a nullable, a tuple and a union each describe their parts in one member of their schema, the
slot.  More is laid over the schema afterwards: the keywords of the validator's own checks, the list
of its other checks, its metadata entry.  None of this reaches the slot, unless the entry has a
member of that name itself, so that the slot holds the schemas of the parts and nothing else.

## Main definitions

* `Conform.Schema.Spared` — a name that no operation gives to a member of a schema.
* `Conform.Validator.slot?` — where a validator describes its parts, and what is to stand there.
* `Conform.Validator.Embeds` — the schema of a validator has what is to stand in its slot.

## Main results

* `Conform.Schema.get?_layOver` — constraints leave the spared members alone.
* `Conform.Validator.get?_complete` — a slot after everything was laid over the schema.
* `Conform.Validator.choices_foldl_or` — the alternatives of a union that has grown.
* `Conform.Validator.embeds_parts` — every part of a composed validator, at any depth.
-/

namespace Conform

/-! ## What operations contribute -/

namespace Schema

/-- No operation gives this name to a member of a schema: it is neither a keyword that a check stands
for nor the name of the list of the other checks. -/
def Spared (name : String) : Prop :=
  name ≠ "x-checks" ∧ ∀ check, keyword? check ≠ some name

/-- The keywords that checks stand for. -/
theorem mem_of_keyword? {check keyword : String} (h : keyword? check = some keyword) :
    keyword ∈
      ["minLength", "maxLength", "pattern", "minimum", "maximum", "minItems", "maxItems"] := by
  unfold keyword? at h
  repeat' split at h
  all_goals
    first
    | obtain rfl := Option.some.inj h
      decide
    | exact nomatch h

/-- Other names are spared. -/
theorem spared_of_notMem {name : String}
    (h : name ∉ ["x-checks", "minLength", "maxLength", "pattern", "minimum", "maximum", "minItems",
      "maxItems"]) : Spared name := by
  rw [List.mem_cons, not_or] at h
  exact ⟨h.1, fun check hk => h.2 (mem_of_keyword? hk)⟩

/-- No check stands for the name of the list of checks. -/
theorem keyword?_ne_checks (check : String) : keyword? check ≠ some "x-checks" :=
  fun hk => absurd (mem_of_keyword? hk) (by decide)

variable {name : String}

/-- **Operations contribute no keyword that no check stands for**, however many they are. -/
theorem get?_keywords (hs : ∀ check, keyword? check ≠ some name)
    (summaries : List Operation.Summary) :
    Members.get? (Constraints.ofSummaries summaries).keywords name = none := by
  refine get?_keywords_eq_none fun summary _ value hshown => ?_
  obtain ⟨check, -, -, hk⟩ := Operation.Summary.shown?_eq_some_iff.mp hshown
  exact hs check hk

/-- Constraints laid over an object leave an object. -/
theorem isObject_layOver (options : Options) (constraints : Constraints) {value : Value}
    (h : value.IsObject) : (constraints.layOver options value).IsObject := by
  unfold Constraints.layOver
  dsimp only
  split
  · exact (h.overlay _).overlay _
  · exact h.overlay _

/-- If the lists of checks are wanted, constraints are their keywords and then their list, unless there
is no entry for it. -/
theorem layOver_with_checks {options : Options} (hc : options.includeChecks = true)
    (summaries : List Operation.Summary) (value : Value) :
    (Constraints.ofSummaries summaries).layOver options value
      = if (summaries.filterMap Operation.Summary.listed?).isEmpty then
          value.overlay (Constraints.ofSummaries summaries).keywords
        else (value.overlay (Constraints.ofSummaries summaries).keywords).overlay
          [("x-checks", .arr (summaries.filterMap Operation.Summary.listed?))] := by
  have hunmapped : (Constraints.ofSummaries summaries).unmapped
      = summaries.filterMap Operation.Summary.listed? := by rw [ofSummaries_eq]
  unfold Constraints.layOver
  rw [hc, hunmapped, Bool.true_and]
  cases (summaries.filterMap Operation.Summary.listed?).isEmpty <;> rfl

/-- A member of a constrained object, other than the list of checks, is a keyword or was there
before. -/
theorem get?_layOver_of_ne (hn : name ≠ "x-checks") (options : Options)
    (summaries : List Operation.Summary) {value : Value} (h : value.IsObject) :
    ((Constraints.ofSummaries summaries).layOver options value).get? name
      = (Members.get? (Constraints.ofSummaries summaries).keywords name).or (value.get? name) := by
  unfold Constraints.layOver
  dsimp only
  split
  · rw [(h.overlay _).get?_overlay, h.get?_overlay]
    simp only [Members.get?, if_neg hn, Option.none_or]
  · exact h.get?_overlay _ name

/-- **Constraints leave the spared members alone.** -/
theorem get?_layOver (hs : Spared name) (options : Options) (summaries : List Operation.Summary)
    {value : Value} (h : value.IsObject) :
    ((Constraints.ofSummaries summaries).layOver options value).get? name = value.get? name := by
  rw [get?_layOver_of_ne hs.1 options summaries h, get?_keywords hs.2, Option.none_or]

end Schema

namespace Validator

open Schema

variable {options : Options} {store : Metadata.Store} {validator : Validator} {name : String}

/-! ## Completed schemas -/

/-- The metadata entry of a validator, if there is one that is laid over its schema, has no member of
this name. -/
def EntryLeaves (options : Options) (store : Metadata.Store) (validator : Validator)
    (name : String) : Prop :=
  options.includeMetadata = true → ∀ entry, validator.shown? store = some entry →
    Members.get? entry.toObject name = none

/-- No metadata entry is laid over a schema because of a handle: entries are switched off, or the
handle shows none. -/
def Silent (options : Options) (store : Metadata.Store) (handle : Option Metadata.Handle) : Prop :=
  options.includeMetadata = true → handle.bind store.shown? = none

/-- Where no entry is laid over it, a schema is completed by the operations alone. -/
theorem complete_of_silent (hs : Silent options store validator.handle?) (described : Value) :
    complete options store validator described
      = described.updateAtOrWhole ((Constraints.ofSummaries validator.summaries).layOver options)
          validator.constrained := by
  unfold complete
  dsimp only
  split
  · rename_i entry hinclude hshown
    exact absurd ((hs hinclude).symm.trans hshown) nofun
  · rfl

/-- A completed object is an object, wherever in it the operations constrain a place. -/
theorem isObject_complete {described : Value} (h : described.IsObject) :
    (complete options store validator described).IsObject := by
  have hlaid := h.updateAtOrWhole (fun hc => isObject_layOver options
    (Constraints.ofSummaries validator.summaries) hc) validator.constrained
  unfold complete
  dsimp only
  split
  · exact hlaid.overlay _
  · exact hlaid

/-- **A slot in a completed schema** holds what it held before, if the operations constrain the whole
and the entry leaves it. -/
theorem get?_complete (hplace : validator.constrained = "") (hs : Spared name)
    (he : validator.EntryLeaves options store name) {described : Value} (h : described.IsObject) :
    (complete options store validator described).get? name = described.get? name := by
  have hlaid : (described.updateAtOrWhole
      ((Constraints.ofSummaries validator.summaries).layOver options)
      validator.constrained).get? name = described.get? name := by
    rw [hplace]
    exact get?_layOver hs options validator.summaries h
  have hobject := h.updateAtOrWhole (fun hc => isObject_layOver options
    (Constraints.ofSummaries validator.summaries) hc) validator.constrained
  unfold complete
  dsimp only
  split
  · rename_i entry hinclude hshown
    rw [hobject.get?_overlay, he hinclude entry hshown, Option.none_or, hlaid]
  · exact hlaid

/-- **The schema of a composed validator is an object.** -/
theorem isObject_fragment (h : validator.Composed) :
    (validator.fragment options store).IsObject := by
  induction validator with
  | leaf type core =>
    refine isObject_complete ?_
    cases type <;> exact Value.isObject_object _
  | pipe input output conversion core ihi _ => exact isObject_complete ((ihi h.1).overlay _)
  | custom behaviour core => exact h.elim
  | _ => exact isObject_complete (Value.isObject_object _)

/-! ## Slots -/

/-- The member of its schema in which a validator describes its parts, and what is to stand there:
the schema of each part, in order, and for a nullable one for `null` besides. -/
def slot? (options : Options) (store : Metadata.Store) : Validator → Option (String × Value)
  | list element _ => some ("items", element.fragment options store)
  | nullable inner _ _ =>
    some ("anyOf", .arr [inner.fragment options store, .object [("type", .str "null")]])
  | tuple _ elements _ =>
    some ("prefixItems", .arr (List.ofFn fun i => (elements i).fragment options store))
  | union _ alternatives _ =>
    some ("anyOf", .arr (List.ofFn fun i => (alternatives i).fragment options store))
  | _ => none

/-- **A validator embeds its parts**: its schema is an object, and unless its metadata entry has a
member of the slot's name, what is to stand in the slot stands there. -/
structure Embeds (options : Options) (store : Metadata.Store) (validator : Validator) : Prop where
  /-- The schema is an object. -/
  isObject : (validator.fragment options store).IsObject
  /-- The slot holds the schemas of the parts. -/
  get?_slot {name : String} {held : Value} : validator.slot? options store = some (name, held) →
    validator.EntryLeaves options store name →
      (validator.fragment options store).get? name = some held

/-- What is to stand in the slot of a validator stands there. -/
theorem get?_fragment {held : Value} (hslot : validator.slot? options store = some (name, held))
    (he : validator.EntryLeaves options store name) :
    (validator.fragment options store).get? name = some held := by
  have hitems : Spared "items" := spared_of_notMem (by decide)
  have hprefixItems : Spared "prefixItems" := spared_of_notMem (by decide)
  have hanyOf : Spared "anyOf" := spared_of_notMem (by decide)
  cases validator with
  | list element core =>
    obtain ⟨rfl, rfl⟩ := Prod.mk.inj (Option.some.inj hslot)
    rw [fragment, get?_complete rfl hitems he (Value.isObject_object _), Value.get?_object]
    rfl
  | nullable inner default core =>
    obtain ⟨rfl, rfl⟩ := Prod.mk.inj (Option.some.inj hslot)
    rw [fragment, get?_complete rfl hanyOf he (Value.isObject_object _), Value.get?_object]
    cases default <;> rfl
  | tuple arity elements core =>
    obtain ⟨rfl, rfl⟩ := Prod.mk.inj (Option.some.inj hslot)
    rw [fragment, get?_complete rfl hprefixItems he (Value.isObject_object _), Value.get?_object]
    rfl
  | union count alternatives core =>
    obtain ⟨rfl, rfl⟩ := Prod.mk.inj (Option.some.inj hslot)
    rw [fragment, get?_complete rfl hanyOf he (Value.isObject_object _), Value.get?_object]
    rfl
  | _ => exact nomatch hslot

/-- **Every part of a composed validator embeds its own parts**, at any depth. -/
theorem throughout_embeds (h : validator.Composed) :
    validator.Throughout (Embeds options store) := by
  have hown {part : Validator} (hpart : part.Composed) : part.Embeds options store :=
    ⟨isObject_fragment hpart, get?_fragment⟩
  induction validator with
  | leaf type core => exact hown h
  | list element core ih => exact ⟨hown h, ih h⟩
  | nullable inner default core ih => exact ⟨hown h, ih h⟩
  | tuple arity elements core ih => exact ⟨hown h, fun i => ih i (h i)⟩
  | union count alternatives core ih => exact ⟨hown h, fun i => ih i (h i)⟩
  | pipe input output conversion core ihi iho => exact ⟨hown h, ihi h.1, iho h.2⟩
  | custom behaviour core => exact hown h

/-! ## Unions that grow -/

/-- The alternatives of a union; any other validator would be the first of two. -/
def choices : Validator → List Validator
  | union _ alternatives _ => List.ofFn alternatives
  | validator => [validator]

/-- One more alternative comes last. -/
theorem choices_or (validator next : Validator) :
    (validator.or next).choices = validator.choices ++ [next] := by
  cases validator with
  | union count alternatives core => exact ofFn_extend
  | _ => rfl

/-- **Alternatives added one after the other** come last, in the order in which they were added. -/
theorem choices_foldl_or (validator : Validator) (added : List Validator) :
    (added.foldl or validator).choices = validator.choices ++ added := by
  induction added generalizing validator with
  | nil => exact (List.append_nil _).symm
  | cons next rest ih =>
    rw [List.foldl_cons, ih, choices_or, List.append_assoc, List.singleton_append]

/-- Whoever adds an alternative has a union, and a union stays one. -/
theorem exists_foldl_or (validator next : Validator) (rest : List Validator) :
    ∃ count alternatives core,
      (next :: rest).foldl or validator = union count alternatives core := by
  induction rest generalizing validator next with
  | nil => cases validator <;> exact ⟨_, _, _, rfl⟩
  | cons more others ih => exact ih (validator.or next) more

/-- A union that has grown describes all of its alternatives in its slot. -/
theorem slot?_foldl_or (validator next : Validator) (rest : List Validator) :
    ((next :: rest).foldl or validator).slot? options store
      = some ("anyOf", .arr ((validator.choices ++ next :: rest).map (fragment options store))) := by
  obtain ⟨count, alternatives, core, hunion⟩ := exists_foldl_or validator next rest
  rw [← choices_foldl_or, hunion]
  simp only [slot?, choices, List.map_ofFn, Function.comp_def]

/-! ## What schemas embed -/

/-- **Composite schemas embed the schema of every part exactly.**  The schema of a composed validator
and of each of its parts, at any depth, is an object.  A list has the schema of its element under
`items`, a tuple those of its positions under `prefixItems`, a union those of its alternatives under
`anyOf`, in their order and nothing else, and a nullable the schema of the inner validator and one
for `null` under `anyOf`.  That holds under all options, whatever the validator's own operations are
and whatever default it has; its metadata entry alone can write over the slot, by a member of that
name.  Alternatives that are added later come last. -/
theorem embeds_parts (h : validator.Composed) (options : Options) (store : Metadata.Store) :
    validator.Throughout (Embeds options store) ∧
    ∀ next rest, EntryLeaves options store ((next :: rest).foldl or validator) "anyOf" →
      (((next :: rest).foldl or validator).fragment options store).get? "anyOf"
        = some (.arr ((validator.choices ++ next :: rest).map (fragment options store))) :=
  ⟨throughout_embeds h, fun next rest => get?_fragment (slot?_foldl_or validator next rest)⟩

/-- A list of pairs that may be missing: each level has a check of its own, two of them for a
keyword, and the list has a metadata entry.  An alternative is added to it, so that the union shows
the entry as well. -/
theorem embeds_parts_of_annotated_list :
    let few : Action := .check "min_items" "too few" (some (.int 2)) fun _ => .answer true
    let remote : Action := .asyncCheck "remote" "out of reach" fun _ => .answer (.ready true)
    let pair := ((ofType .integer).and (ofType .string)).act few
    let missing := (pair.orDefault (.arr [])).act remote
    let described : Metadata.Entry := ⟨some "pairs", none, [], true, []⟩
    let annotated := (missing.many.act few).annotate .shared described .empty
    let validator := annotated.1
    let shown := fragment .standard annotated.2
    (shown validator).get? "items" = some (shown missing) ∧
      (shown missing).get? "anyOf" = some (.arr [shown pair, .object [("type", .str "null")]]) ∧
      (shown pair).get? "prefixItems"
        = some (.arr [.object [("type", .str "integer")], .object [("type", .str "string")]]) ∧
      (shown (validator.or (ofType .boolean))).get? "anyOf"
        = some (.arr [shown validator, .object [("type", .str "boolean")]]) := by
  intro few remote pair missing described annotated validator shown
  have h : validator.Composed := fun i => match i with | 0 => trivial | 1 => trivial
  obtain ⟨⟨hlist, hnullable, htuple, -⟩, hgrown⟩ := embeds_parts h .standard annotated.2
  have hentry (part : Validator) (hhandle : part.handle? = validator.handle?) (name : String)
      (hname : name = "items" ∨ name = "anyOf") : EntryLeaves .standard annotated.2 part name := by
    intro _ entry hshown
    rw [shown?, hhandle] at hshown
    obtain rfl := Option.some.inj hshown
    rw [Metadata.Entry.get?_toObject]
    obtain rfl | rfl := hname <;> rfl
  refine ⟨hlist.get?_slot rfl (hentry validator rfl "items" (Or.inl rfl)),
    hnullable.get?_slot rfl nofun, htuple.get?_slot rfl nofun, ?_⟩
  exact hgrown (ofType .boolean) [] (hentry _ rfl "anyOf" (Or.inr rfl))

end Validator

end Conform
