import Conform.Json.Pointer

set_option autoImplicit false

/-!
# Objects among the JSON values

A schema that is put together member by member is an object whose members are in order, so that each
name is there once.  Such objects are known from their look-ups, and what is laid over them, written
into them or changed in them can be told look-up by look-up.

## Main definitions

* `Conform.Value.IsObject`: an object without two members of one name.
* `Conform.Value.amend`: an object with each member changed or dropped.
* `Conform.Value.without`: an object without one of its members.
* `Conform.Value.Extends`: one value has every member of another one.

## Main results

* `Conform.Value.IsObject.ext`: objects are known from their members.
* `Conform.Value.IsObject.get?_overlay`, `Conform.Value.IsObject.get?_set`,
  `Conform.Value.IsObject.get?_amend`: a look-up after members were laid over an object, written
  into it, or changed.
* `Conform.Value.IsObject.extends_set_iff`: when a member that is written takes none away.
-/

namespace Conform

namespace Value

/-- An object whose members stand in ascending order, so that no two of them have one name. -/
def IsObject (value : Value) : Prop :=
  ∃ members, value = obj members ∧ Members.Ascending members

/-- An object with each member changed or dropped; other values stay as they are. -/
def amend (change : String → Value → Option Value) : Value → Value
  | obj members => obj (Members.amend change members)
  | other => other

/-- An object without one of its members; other values stay as they are. -/
def without (value : Value) (name : String) : Value :=
  value.amend fun other member => if other = name then none else some member

/-- One value has every member of another one. -/
def Extends (value value' : Value) : Prop :=
  ∀ name member, value'.get? name = some member → value.get? name = some member

theorem isObject_object (written : List (String × Value)) : (object written).IsObject :=
  ⟨_, rfl, Members.ascending_ofList written⟩

/-- Of the members that an object is made of, the last one of a name is found. -/
theorem get?_object (written : List (String × Value)) (name : String) :
    (object written).get? name = Members.get? written.reverse name :=
  Members.get?_ofList written name

variable {value value' : Value}

/-- **Objects are known from their members.** -/
theorem IsObject.ext (h : value.IsObject) (h' : value'.IsObject)
    (hget : ∀ name, value.get? name = value'.get? name) : value = value' := by
  obtain ⟨members, rfl, hascending⟩ := h
  obtain ⟨members', rfl, hascending'⟩ := h'
  exact congrArg obj (Members.ext_of_get? hascending hascending' hget)

/-! ## Members laid over an object -/

/-- Members laid over an object leave an object. -/
theorem IsObject.overlay (h : value.IsObject) (members : Members Value) :
    (value.overlay members).IsObject := by
  obtain ⟨present, rfl, hascending⟩ := h
  exact ⟨_, overlay_obj present members, Members.ascending_merge hascending members⟩

/-- **A member after others were laid over an object** is one of these if they have one of that
name. -/
theorem IsObject.get?_overlay (h : value.IsObject) (members : Members Value) (name : String) :
    (value.overlay members).get? name = (Members.get? members name).or (value.get? name) := by
  obtain ⟨present, rfl, -⟩ := h
  rw [overlay_obj]
  exact Members.get?_merge present members name

/-! ## One member written -/

section Set

variable {name other : String} {member member' : Value}

/-- An object with one member written. -/
theorem IsObject.set (h : value.IsObject) (name : String) (member : Value) :
    (value.set name member).IsObject := by
  obtain ⟨members, rfl, hascending⟩ := h
  exact ⟨_, rfl, Members.ascending_insert hascending name member⟩

theorem IsObject.get?_set (h : value.IsObject) (name : String) (member : Value) (other : String) :
    (value.set name member).get? other
      = if other = name then some member else value.get? other := by
  obtain ⟨members, rfl, -⟩ := h
  exact Members.get?_insert members name other member

/-- One member laid over an object is a member written. -/
theorem IsObject.overlay_singleton (h : value.IsObject) (name : String) (member : Value) :
    value.overlay [(name, member)] = value.set name member := by
  obtain ⟨members, rfl, -⟩ := h
  exact overlay_obj members _

/-- The later of two members written under one name stays. -/
theorem IsObject.set_set (h : value.IsObject) (name : String) (first second : Value) :
    (value.set name first).set name second = value.set name second := by
  refine ((h.set _ _).set _ _).ext (h.set _ _) fun other => ?_
  rw [(h.set _ _).get?_set, h.get?_set, h.get?_set]
  split <;> rfl

/-- Members of different names may be written in any order. -/
theorem IsObject.set_comm (h : value.IsObject) (hne : name ≠ other) :
    (value.set name member).set other member' = (value.set other member').set name member := by
  refine ((h.set _ _).set _ _).ext ((h.set _ _).set _ _) fun found => ?_
  rw [(h.set _ _).get?_set, h.get?_set, (h.set _ _).get?_set, h.get?_set]
  by_cases hf : found = other
  · rw [if_pos hf, if_neg (hf ▸ hne.symm), if_pos hf]
  · rw [if_neg hf, if_neg hf]

/-- **A member that is written leaves an extension** exactly if it was there before or none of its
name was. -/
theorem IsObject.extends_set_iff (h : value.IsObject) :
    (value.set name member).Extends value ↔
      ∀ held, value.get? name = some held → held = member := by
  constructor
  · intro hextends held hheld
    have hset := hextends name held hheld
    rw [h.get?_set, if_pos rfl] at hset
    exact (Option.some.inj hset).symm
  · intro hheld other held hother
    rw [h.get?_set]
    by_cases ho : other = name
    · rw [if_pos ho, hheld held (ho ▸ hother)]
    · rwa [if_neg ho]

end Set

/-! ## Each member changed -/

section Amend

variable {change : String → Value → Option Value} {name : String} {member : Value}

theorem IsObject.amend (h : value.IsObject) (change : String → Value → Option Value) :
    (value.amend change).IsObject := by
  obtain ⟨members, rfl, hascending⟩ := h
  exact ⟨_, rfl, Members.ascending_amend hascending change⟩

theorem IsObject.get?_amend (h : value.IsObject) (change : String → Value → Option Value)
    (name : String) : (value.amend change).get? name = (value.get? name).bind (change name) := by
  obtain ⟨members, rfl, hascending⟩ := h
  exact Members.get?_amend hascending change name

/-- An object is changed into another one if each of its members is. -/
theorem IsObject.amend_eq (h : value.IsObject) (h' : value'.IsObject)
    (hget : ∀ name, (value.get? name).bind (change name) = value'.get? name) :
    value.amend change = value' :=
  (h.amend change).ext h' fun name => by rw [h.get?_amend, hget]

/-- A member that the change leaves alone may be written before it or after it. -/
theorem IsObject.amend_set (h : value.IsObject) (hkept : change name member = some member) :
    (value.set name member).amend change = (value.amend change).set name member := by
  refine (h.set _ _).amend_eq ((h.amend change).set _ _) fun other => ?_
  rw [h.get?_set, (h.amend change).get?_set, h.get?_amend]
  by_cases ho : other = name
  · rw [if_pos ho, if_pos ho, ho]
    exact hkept
  · rw [if_neg ho, if_neg ho]

/-- A member that was not there before can be taken away again. -/
theorem IsObject.without_set (h : value.IsObject) (hnone : value.get? name = none) :
    (value.set name member).without name = value := by
  refine (h.set name member).amend_eq h fun other => ?_
  rw [h.get?_set]
  by_cases ho : other = name
  · rw [if_pos ho, ho, hnone, Option.bind_some, if_pos rfl]
  · simp only [if_neg ho, Option.bind_fun_some]

end Amend

/-! ## One place changed -/

/-- A change at some place, or of the whole, leaves an object if the change itself does. -/
theorem IsObject.updateAtOrWhole {change : Value → Value}
    (hc : ∀ {changed : Value}, changed.IsObject → (change changed).IsObject) (h : value.IsObject)
    (pointer : String) : (value.updateAtOrWhole change pointer).IsObject := by
  unfold Value.updateAtOrWhole
  cases hx : (Json.Pointer.ofText? pointer).bind fun steps => updateAt? change steps value with
  | none => exact hc h
  | some changed =>
    obtain ⟨steps, -, hu⟩ := Option.bind_eq_some_iff.mp hx
    cases steps with
    | nil => exact Option.some.inj hu ▸ hc h
    | cons step rest =>
      obtain ⟨present, rfl, hascending⟩ := h
      obtain ⟨member, -, hmember⟩ := Option.bind_eq_some_iff.mp hu
      obtain ⟨inner, -, hinner⟩ := Option.bind_eq_some_iff.mp hmember
      exact ⟨_, (Option.some.inj hinner).symm, Members.ascending_insert hascending step inner⟩

/-- A member that is changed in place is a member written. -/
theorem IsObject.updateAtOrWhole_output (h : value.IsObject) {member : Value}
    (hm : value.get? "x-output" = some member) (f : Value → Value) :
    value.updateAtOrWhole f "/x-output" = value.set "x-output" (f member) := by
  obtain ⟨members, rfl, -⟩ := h
  have hpointer : Json.Pointer.ofText? "/x-output" = some ["x-output"] := by decide
  have hget : Members.get? members "x-output" = some member := hm
  simp [Value.updateAtOrWhole, hpointer, updateAt?, hget, Value.set]

end Value

end Conform
