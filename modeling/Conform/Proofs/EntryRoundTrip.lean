import Conform.Metadata.Entry

set_option autoImplicit false

/-!
# Entries written and read again

A metadata entry has four fields and any number of further members.  Written as one object it has a
member for each field that tells something, and the further members beside them; read from an object
it takes the members of the four names for its fields and keeps all others.  Writing and reading are
told field by field here: what is written is read back, and what is read is written again unless it
says no more than a missing member does.

## Main definitions

* `Conform.Metadata.Entry.field?` — the member that the fields have under a name.
* `Conform.Metadata.Entry.isSilent` — a member that says what a missing one says.
* `Conform.Metadata.Entry.Separate` — the further members are those of an object, and none of them
  has the name of a field.

## Main results

* `Conform.Metadata.Entry.ofMembers?_eq_some_iff` — what an entry is read from.
* `Conform.Metadata.Entry.toObject_of_ofMembers?` — an entry that was read is written again.
* `Conform.Metadata.Entry.ofMembers?_toObject` — an entry that was written is read again.
* `Conform.Metadata.Entry.entry_round_trip` — the two together.
-/

namespace Conform.Metadata.Entry

variable {entry : Entry} {members : Members Value} {name : String}

/-! ## Fields -/

/-- The member that the fields have under a name; a field that tells nothing has none. -/
def field? (entry : Entry) (name : String) : Option Value :=
  if name = "title" then entry.title.map .str
  else if name = "description" then entry.description.map .str
  else if name = "examples" then
    if entry.examples.isEmpty then none else some (.arr entry.examples)
  else if name = "deprecated" then if entry.deprecated then some (.bool true) else none
  else none

/-- The members that the fields stand for are those that the fields have under their names. -/
theorem get?_fields (entry : Entry) (name : String) :
    Members.get? entry.fields.reverse name = entry.field? name := by
  obtain ⟨title, description, examples, deprecated, extra⟩ := entry
  unfold fields field?
  by_cases ht : name = "title"
  · subst ht
    cases title <;> cases description <;> cases examples <;> cases deprecated <;> rfl
  by_cases hd : name = "description"
  · subst hd
    cases title <;> cases description <;> cases examples <;> cases deprecated <;> rfl
  by_cases he : name = "examples"
  · subst he
    cases title <;> cases description <;> cases examples <;> cases deprecated <;> rfl
  by_cases hm : name = "deprecated"
  · subst hm
    cases title <;> cases description <;> cases examples <;> cases deprecated <;> rfl
  · cases title <;> cases description <;> cases examples <;> cases deprecated <;>
      simp [Members.get?, ht, hd, he, hm]

/-- A name that is not declared belongs to no field. -/
theorem field?_of_notMem (h : name ∉ declared) (entry : Entry) : entry.field? name = none := by
  simp only [declared, List.mem_cons, List.not_mem_nil, or_false, not_or] at h
  simp [field?, h]

/-- A member of the one object is a further member, or else one of the fields. -/
theorem get?_toObject_eq_or (entry : Entry) (name : String) :
    Members.get? entry.toObject name = (Members.get? entry.extra name).or (entry.field? name) := by
  rw [get?_toObject, get?_fields]

theorem ascending_toObject (entry : Entry) : Members.Ascending entry.toObject :=
  Members.ascending_merge (Members.ascending_ofList _) _

/-! ## Members that say nothing -/

/-- **A silent member** says what a missing one says: no title, no description, no examples, not
deprecated. -/
def isSilent (member : String × Value) : Bool :=
  match member.2 with
  | .null => member.1 == "title" || member.1 == "description"
  | .arr [] => member.1 == "examples"
  | .bool false => member.1 == "deprecated"
  | _ => false

/-- What is found among members without the silent ones. -/
def audible (name : String) (found : Option Value) : Option Value :=
  found.filter fun value => !isSilent (name, value)

theorem get?_filter_silent (h : Members.Ascending members) (name : String) :
    Members.get? (members.filter fun member => !isSilent member) name
      = audible name (Members.get? members name) :=
  Members.get?_filter h _ name

/-- No other member is silent. -/
theorem audible_of_notMem (h : name ∉ declared) (found : Option Value) :
    audible name found = found := by
  simp only [declared, List.mem_cons, List.not_mem_nil, or_false, not_or] at h
  cases found with
  | none => rfl
  | some value =>
    have hsilent : isSilent (name, value) = false := by
      unfold isSilent
      split <;> simp [h]
    simp [audible, hsilent]

/-! ## Reading a field -/

section Reading

variable {found : Option Value}

/-- A text that was read is written as it stood, unless it was `null`. -/
theorem audible_of_readText? {text : Option String} (h : readText? found = some text)
    (hname : name = "title" ∨ name = "description") : audible name found = text.map .str := by
  unfold readText? at h
  split at h
  · obtain rfl := Option.some.inj h
    rfl
  · obtain rfl := Option.some.inj h
    rcases hname with rfl | rfl <;> rfl
  · obtain rfl := Option.some.inj h
    rfl
  · exact nomatch h

/-- Items that were read are written as they stood, unless there were none. -/
theorem audible_of_readItems? {items : List Value} (h : readItems? found = some items) :
    audible "examples" found = if items.isEmpty then none else some (.arr items) := by
  unfold readItems? at h
  split at h
  · obtain rfl := Option.some.inj h
    rfl
  · rename_i read
    obtain rfl := Option.some.inj h
    cases read <;> rfl
  · exact nomatch h

/-- A mark that was read is written as it stood, unless it was not set. -/
theorem audible_of_readMark? {mark : Bool} (h : readMark? found = some mark) :
    audible "deprecated" found = if mark then some (.bool true) else none := by
  unfold readMark? at h
  split at h
  · obtain rfl := Option.some.inj h
    rfl
  · rename_i read
    obtain rfl := Option.some.inj h
    cases read <;> rfl
  · exact nomatch h

end Reading

theorem readText?_map_str (text : Option String) : readText? (text.map .str) = some text := by
  cases text <;> rfl

theorem readItems?_written (items : List Value) :
    readItems? (if items.isEmpty then none else some (.arr items)) = some items := by
  cases items <;> rfl

theorem readMark?_written (mark : Bool) :
    readMark? (if mark then some (.bool true) else none) = some mark := by
  cases mark <;> rfl

/-! ## Reading an entry -/

/-- **What an entry is read from**: each field from the member of its name, and the further members
are all others. -/
theorem ofMembers?_eq_some_iff :
    ofMembers? members = some entry ↔
      readText? (Members.get? members "title") = some entry.title ∧
      readText? (Members.get? members "description") = some entry.description ∧
      readItems? (Members.get? members "examples") = some entry.examples ∧
      readMark? (Members.get? members "deprecated") = some entry.deprecated ∧
      members.filter (fun member => !declared.contains member.1) = entry.extra := by
  obtain ⟨title, description, examples, deprecated, extra⟩ := entry
  simp only [ofMembers?, Option.bind_eq_bind, Option.bind_eq_some_iff, Option.pure_def,
    Option.some.injEq, mk.injEq]
  constructor
  · rintro ⟨_, ht, _, hd, _, he, _, hm, rfl, rfl, rfl, rfl, rfl⟩
    exact ⟨ht, hd, he, hm, rfl⟩
  · rintro ⟨ht, hd, he, hm, rfl⟩
    exact ⟨_, ht, _, hd, _, he, _, hm, rfl, rfl, rfl, rfl, rfl⟩

/-- A further member is one that has not the name of a field. -/
theorem get?_filter_undeclared (h : Members.Ascending members) (name : String) :
    Members.get? (members.filter fun member => !declared.contains member.1) name
      = if name ∈ declared then none else Members.get? members name := by
  rw [Members.get?_filter h]
  cases Members.get? members name with
  | none => simp
  | some value => by_cases hn : name ∈ declared <;> simp [Option.filter, hn]

/-- The further members of an entry are those of an object, and none has the name of a field. -/
structure Separate (entry : Entry) : Prop where
  /-- The further members stand in ascending order, as those of an object do. -/
  ascending : Members.Ascending entry.extra
  /-- No further member has the name of a field. -/
  undeclared {name : String} : name ∈ declared → Members.get? entry.extra name = none

/-- An entry that was read keeps its fields and its further members apart. -/
theorem separate_of_ofMembers? (h : Members.Ascending members)
    (hr : ofMembers? members = some entry) : entry.Separate := by
  obtain ⟨-, -, -, -, hextra⟩ := ofMembers?_eq_some_iff.mp hr
  refine ⟨hextra ▸ Members.ascending_filter h _, fun {name} hn => ?_⟩
  rw [← hextra, get?_filter_undeclared h, if_pos hn]

/-- **An entry that was read is written again**: of the members that it was read from the silent
ones alone are missing.

**Proof sketch.** Both sides are in ascending order, so that look-ups decide.  Under a declared name
stands what the field was read from, under any other name a further member. -/
theorem toObject_of_ofMembers? (h : Members.Ascending members)
    (hr : ofMembers? members = some entry) :
    entry.toObject = members.filter fun member => !isSilent member := by
  have hseparate := separate_of_ofMembers? h hr
  obtain ⟨ht, hd, he, hm, hextra⟩ := ofMembers?_eq_some_iff.mp hr
  refine Members.ext_of_get? entry.ascending_toObject (Members.ascending_filter h _) fun name => ?_
  rw [get?_toObject_eq_or, get?_filter_silent h]
  by_cases hn : name ∈ declared
  · rw [hseparate.undeclared hn, Option.none_or]
    simp only [declared, List.mem_cons, List.not_mem_nil, or_false] at hn
    rcases hn with rfl | rfl | rfl | rfl
    · exact (audible_of_readText? ht (Or.inl rfl)).symm
    · exact (audible_of_readText? hd (Or.inr rfl)).symm
    · exact (audible_of_readItems? he).symm
    · exact (audible_of_readMark? hm).symm
  · rw [← hextra, get?_filter_undeclared h, if_neg hn, field?_of_notMem hn, Option.or_none,
      audible_of_notMem hn]

/-- **An entry that was written is read again**, if its fields and its further members are kept
apart. -/
theorem ofMembers?_toObject (h : entry.Separate) : ofMembers? entry.toObject = some entry := by
  have hfield {name : String} (hn : name ∈ declared) :
      Members.get? entry.toObject name = entry.field? name := by
    rw [get?_toObject_eq_or, h.undeclared hn, Option.none_or]
  refine ofMembers?_eq_some_iff.mpr ⟨?_, ?_, ?_, ?_, ?_⟩
  · rw [hfield (by decide)]
    exact readText?_map_str entry.title
  · rw [hfield (by decide)]
    exact readText?_map_str entry.description
  · rw [hfield (by decide)]
    exact readItems?_written entry.examples
  · rw [hfield (by decide)]
    exact readMark?_written entry.deprecated
  · refine Members.ext_of_get? (Members.ascending_filter entry.ascending_toObject _) h.ascending
      fun name => ?_
    rw [get?_filter_undeclared entry.ascending_toObject]
    by_cases hn : name ∈ declared
    · rw [if_pos hn, h.undeclared hn]
    · rw [if_neg hn, get?_toObject_eq_or, field?_of_notMem hn, Option.or_none]

/-- **Entries come through writing and reading.**  An entry read from an object is written as that
object without its silent members: a title or a description that is `null`, an empty list of
examples, a deprecation mark that is not set.  Every other member keeps its name and its value, and
the entry is one whose fields and further members are kept apart.  Any such entry is read again from
the object that it is written as, so that two of them are never written alike. -/
theorem entry_round_trip :
    (∀ members entry, Members.Ascending members → ofValue? (.obj members) = some entry →
      entry.toObject = members.filter (fun member => !isSilent member) ∧ entry.Separate) ∧
    (∀ entry : Entry, entry.Separate → ofValue? (.obj entry.toObject) = some entry) ∧
    ∀ entry other : Entry, entry.Separate → other.Separate → entry.toObject = other.toObject →
      entry = other := by
  refine ⟨fun members entry h hr => ⟨toObject_of_ofMembers? h hr, separate_of_ofMembers? h hr⟩,
    fun entry h => ofMembers?_toObject h, fun entry other h h' heq => ?_⟩
  have hread := ofMembers?_toObject h
  rw [heq, ofMembers?_toObject h'] at hread
  exact (Option.some.inj hread).symm

/-- Three silent members are dropped; a member called `extra`, one that holds `null` and one that
holds an empty array stay.  An entry with a further member is told from one with a description of
the same text. -/
theorem entry_round_trip_of_silent_members :
    let nested : Value := .obj [("deprecated", .bool false)]
    let members : Members Value := [("deprecated", .bool false), ("description", .null),
      ("examples", .arr []), ("extra", nested), ("title", .str "Age"), ("units", .arr []),
      ("width", .null)]
    let kept : Members Value :=
      [("extra", nested), ("title", .str "Age"), ("units", .arr []), ("width", .null)]
    let described := blank.withDescription "years"
    let annotated := blank.withExtra "unit" (.str "years")
    Members.Ascending members ∧
      (∃ entry, ofValue? (.obj members) = some entry ∧ entry.toObject = kept) ∧
      ofValue? (.obj annotated.toObject) = some annotated ∧
      described.toObject ≠ annotated.toObject := by
  intro nested members kept described annotated
  have h : Members.Ascending members := by
    unfold Members.Ascending
    decide
  have hdescribed : described.Separate := ⟨List.Pairwise.nil, fun _ => rfl⟩
  have hannotated : annotated.Separate := by
    refine ⟨List.pairwise_singleton _ _, fun {name} hn => ?_⟩
    have hne : name ≠ "unit" := fun heq => absurd (heq ▸ hn) (by decide)
    exact if_neg hne
  refine ⟨h, ⟨_, rfl, (entry_round_trip.1 members _ h rfl).1⟩, entry_round_trip.2.1 _ hannotated,
    fun heq => ?_⟩
  have hsame : described = annotated := entry_round_trip.2.2 _ _ hdescribed hannotated heq
  exact nomatch congrArg Entry.description hsame

end Conform.Metadata.Entry
