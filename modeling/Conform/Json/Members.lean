set_option autoImplicit false

/-!
# Members of a JSON object

The members of an object are kept as a list of named values in ascending order of the names, so
that two objects with the same members are the same list and are printed the same way.

## Main definitions

* `Conform.Members.get?`, `Conform.Members.insert`, `Conform.Members.merge`: look-up, one write,
  and the writes of a second object over a first.
* `Conform.Members.amend`: each member changed or dropped.
* `Conform.Members.Ascending`: the order that every write keeps.

## Main results

* `Conform.Members.get?_insert`, `Conform.Members.get?_merge`: a look-up after writes.
* `Conform.Members.mem_insert`, `Conform.Members.mem_merge`: the members after writes.
* `Conform.Members.ascending_insert`: a write keeps the order.
* `Conform.Members.ext_of_get?`: members in ascending order are known from their look-ups.
* `Conform.Members.get?_amend`, `Conform.Members.get?_filter`: a look-up after a change of each
  member.
-/

namespace Conform

/-- The members of an object, in ascending order of their names. -/
abbrev Members (α : Type) := List (String × α)

namespace Members

variable {α : Type}

/-- The value under `name`. -/
def get? : Members α → String → Option α
  | [], _ => none
  | (key, value) :: rest, name => if name = key then some value else get? rest name

/-- Writes `value` under `name`: over the old value if there is one, else where the order
wants it. -/
def insert : Members α → String → α → Members α
  | [], name, value => [(name, value)]
  | (key, old) :: rest, name, value =>
    if name = key then (name, value) :: rest
    else if name < key then (name, value) :: (key, old) :: rest
    else (key, old) :: insert rest name value

/-- Writes every member of `added` over `members`.  The last one is written first, so that each of
the others finds its place before it. -/
def merge (members added : Members α) : Members α :=
  added.foldr (fun member written => insert written member.1 member.2) members

/-- The members written one after another, the last write of a name winning. -/
def ofList (written : List (String × α)) : Members α :=
  written.foldl (fun members member => insert members member.1 member.2) []

/-- The members without the one called `name`. -/
def erase (members : Members α) (name : String) : Members α :=
  members.filter fun member => member.1 != name

/-- Each member changed, or dropped where the change leaves nothing. -/
def amend (change : String → α → Option α) (members : Members α) : Members α :=
  members.filterMap fun member => (change member.1 member.2).map fun value => (member.1, value)

/-- The names stand in strictly ascending order of code points. -/
def Ascending (members : Members α) : Prop := (members.map Prod.fst).Pairwise (· < ·)

/-! ## Look-up after a write -/

@[simp] theorem get?_nil (name : String) : get? ([] : Members α) name = none := rfl

/-- **Look-up after a write**: the name written yields the value written, every other name what
it yielded before. -/
theorem get?_insert (members : Members α) (name other : String) (value : α) :
    get? (insert members name value) other
      = if other = name then some value else get? members other := by
  induction members with
  | nil => simp [insert, get?]
  | cons member rest ih =>
    obtain ⟨key, old⟩ := member
    by_cases hk : name = key
    · subst hk
      by_cases ho : other = name <;> simp [insert, get?, ho]
    · by_cases hlt : name < key
      · by_cases ho : other = name <;> simp [insert, get?, hk, hlt, ho]
      · by_cases ho : other = name
        · subst ho
          simp [insert, get?, hk, hlt, ih]
        · simp [insert, get?, hk, hlt, ih, ho]

/-- **Look-up after writes**: a name that was written yields what was written under it first, every
other name what it yielded before. -/
theorem get?_merge (members added : Members α) (name : String) :
    get? (merge members added) name = (get? added name).or (get? members name) := by
  induction added with
  | nil => rfl
  | cons member rest ih =>
    obtain ⟨key, value⟩ := member
    rw [merge, List.foldr_cons, get?_insert, get?]
    split
    · rfl
    · exact ih

/-- Among the members of two lists the first one of a name is found. -/
theorem get?_append (members members' : Members α) (name : String) :
    get? (members ++ members') name = (get? members name).or (get? members' name) := by
  induction members with
  | nil => rfl
  | cons member rest ih =>
    rw [List.cons_append, get?, get?]
    split
    · rfl
    · exact ih

/-- What is found under a name is a member of that name. -/
theorem mem_of_get? {members : Members α} {name : String} {value : α}
    (h : get? members name = some value) : (name, value) ∈ members := by
  induction members with
  | nil => exact absurd h (Option.some_ne_none value).symm
  | cons member rest ih =>
    rw [get?] at h
    split at h
    · rename_i heq
      obtain rfl := Option.some.inj h
      exact heq ▸ List.mem_cons_self
    · exact List.mem_cons_of_mem _ (ih h)

/-- Of the members written one after another, the last one of a name is found. -/
theorem get?_ofList (written : List (String × α)) (name : String) :
    get? (ofList written) name = get? written.reverse name := by
  have hmerge : ofList written = merge [] written.reverse := by
    rw [merge, List.foldr_reverse]
    rfl
  rw [hmerge, get?_merge, get?_nil, Option.or_none]

/-! ## Members after a write -/

/-- A member after a write was written or was there before. -/
theorem mem_insert {members : Members α} {name : String} {value : α} {member : String × α}
    (h : member ∈ insert members name value) : member = (name, value) ∨ member ∈ members := by
  induction members with
  | nil => exact Or.inl (List.mem_singleton.mp h)
  | cons first rest ih =>
    obtain ⟨key, old⟩ := first
    unfold insert at h
    split at h
    · exact (List.mem_cons.mp h).imp_right (List.mem_cons_of_mem _)
    · split at h
      · exact List.mem_cons.mp h
      · obtain rfl | hrest := List.mem_cons.mp h
        · exact Or.inr List.mem_cons_self
        · exact (ih hrest).imp_right (List.mem_cons_of_mem _)

/-- A member of two objects written over each other is one of the first or of the second. -/
theorem mem_merge {members added : Members α} {member : String × α}
    (h : member ∈ merge members added) : member ∈ members ∨ member ∈ added := by
  induction added with
  | nil => exact Or.inl h
  | cons first rest ih =>
    obtain rfl | hrest := mem_insert h
    · exact Or.inr List.mem_cons_self
    · exact (ih hrest).imp_right (List.mem_cons_of_mem _)

/-- A member after several writes was written or was there before. -/
theorem mem_foldl_insert {written : List (String × α)} {member : String × α} :
    ∀ {members : Members α},
      member ∈ written.foldl (fun members member => insert members member.1 member.2) members →
        member ∈ members ∨ member ∈ written := by
  induction written with
  | nil => exact fun h => Or.inl h
  | cons first rest ih =>
    intro members h
    obtain hinsert | hrest := ih h
    · obtain rfl | hold := mem_insert hinsert
      · exact Or.inr List.mem_cons_self
      · exact Or.inl hold
    · exact Or.inr (List.mem_cons_of_mem _ hrest)

/-- The members written one after another are among those to be written. -/
theorem mem_ofList {written : List (String × α)} {member : String × α}
    (h : member ∈ ofList written) : member ∈ written :=
  (mem_foldl_insert h).resolve_left nofun

/-! ## Order -/

/-- The names after a write are the old names and the one written. -/
theorem mem_keys_insert (members : Members α) (name : String) (value : α) (key : String) :
    key ∈ (insert members name value).map Prod.fst ↔ key = name ∨ key ∈ members.map Prod.fst := by
  induction members with
  | nil => simp [insert]
  | cons member rest ih =>
    obtain ⟨first, old⟩ := member
    by_cases hk : name = first
    · subst hk
      simp [insert]
    · by_cases hlt : name < first
      · simp [insert, hk, hlt]
      · simp only [insert, hk, hlt, if_false, List.map_cons, List.mem_cons, ih]
        constructor <;> rintro (h | h | h) <;> simp [h]

/-- **A write keeps the order.** -/
theorem ascending_insert {members : Members α} (h : Ascending members) (name : String)
    (value : α) : Ascending (insert members name value) := by
  induction members with
  | nil => simp [Ascending, insert]
  | cons member rest ih =>
    obtain ⟨key, old⟩ := member
    simp only [Ascending, List.map_cons, List.pairwise_cons] at h
    by_cases hk : name = key
    · subst hk
      simpa [Ascending, insert] using h
    · by_cases hlt : name < key
      · simp only [Ascending, insert, hk, hlt, if_false, if_true, List.map_cons,
          List.pairwise_cons]
        refine ⟨?_, h⟩
        intro other hmem
        rcases List.mem_cons.mp hmem with rfl | hmem
        · exact hlt
        · exact String.lt_trans hlt (h.1 other hmem)
      · have hgt : key < name :=
          String.not_le.mp fun hle => hk (String.le_antisymm hle (String.not_lt.mp hlt))
        simp only [Ascending, insert, hk, hlt, if_false, List.map_cons, List.pairwise_cons]
        refine ⟨?_, ih h.2⟩
        intro other hmem
        rcases (mem_keys_insert rest name value other).mp hmem with rfl | hmem
        · exact hgt
        · exact h.1 other hmem

/-- Members written over ascending members are ascending. -/
theorem ascending_merge {members : Members α} (h : Ascending members) (added : Members α) :
    Ascending (merge members added) := by
  induction added with
  | nil => exact h
  | cons member rest ih => exact ascending_insert ih member.1 member.2

/-- Members written one after another are ascending. -/
theorem ascending_ofList (written : List (String × α)) : Ascending (ofList written) := by
  have step (members : Members α) (h : Ascending members) :
      Ascending (written.foldl (fun members member => insert members member.1 member.2) members) := by
    induction written generalizing members with
    | nil => exact h
    | cons member rest ih => exact ih _ (ascending_insert h member.1 member.2)
  exact step [] List.Pairwise.nil

theorem ascending_cons_iff {name : String} {value : α} {rest : Members α} :
    Ascending ((name, value) :: rest) ↔
      (∀ other ∈ rest.map Prod.fst, name < other) ∧ Ascending rest := by
  simp only [Ascending, List.map_cons, List.pairwise_cons]

/-- A member that comes first has the only member of its name. -/
theorem notMem_of_ascending_cons {name : String} {value : α} {rest : Members α}
    (h : Ascending ((name, value) :: rest)) : name ∉ rest.map Prod.fst := by
  intro hmem
  exact String.lt_irrefl name ((ascending_cons_iff.mp h).1 name hmem)

/-! ## Look-up and order -/

/-- Nothing is found under a name that no member has. -/
theorem get?_eq_none_of_notMem {members : Members α} {name : String}
    (h : name ∉ members.map Prod.fst) : get? members name = none := by
  induction members with
  | nil => rfl
  | cons member rest ih =>
    simp only [List.map_cons, List.mem_cons, not_or] at h
    rw [get?, if_neg h.1, ih h.2]

/-- Nothing is found under a name that is before the first one. -/
theorem get?_eq_none_of_lt {name first : String} {value : α} {rest : Members α}
    (h : Ascending ((first, value) :: rest)) (hlt : name < first) :
    get? ((first, value) :: rest) name = none := by
  refine get?_eq_none_of_notMem fun hmem => ?_
  rcases List.mem_cons.mp hmem with heq | hrest
  · exact String.lt_irrefl name (heq ▸ hlt)
  · have hfirst := (ascending_cons_iff.mp h).1 name hrest
    exact String.lt_irrefl name (String.lt_trans hlt hfirst)

/-- **Members in ascending order are known from their look-ups.**

**Proof sketch.** Induction on the members.  The name that comes first on one side is found on the
other, and so neither of the two first names is before the other. -/
theorem ext_of_get? {members members' : Members α} (h : Ascending members)
    (h' : Ascending members') (hget : ∀ name, get? members name = get? members' name) :
    members = members' := by
  induction members generalizing members' with
  | nil =>
    cases members' with
    | nil => rfl
    | cons member' rest' => simpa [get?] using hget member'.1
  | cons member rest ih =>
    obtain ⟨name, value⟩ := member
    cases members' with
    | nil => simpa [get?] using hget name
    | cons member' rest' =>
      obtain ⟨name', value'⟩ := member'
      have hle : ¬ name < name' := by
        intro hlt
        have hnone := (hget name).trans (get?_eq_none_of_lt h' hlt)
        simp [get?] at hnone
      have hge : ¬ name' < name := by
        intro hlt
        have hnone := (hget name').symm.trans (get?_eq_none_of_lt h hlt)
        simp [get?] at hnone
      obtain rfl : name = name' :=
        String.le_antisymm (String.not_lt.mp hge) (String.not_lt.mp hle)
      have hvalue : value = value' := by simpa [get?] using hget name
      have hrest : rest = rest' := by
        refine ih (ascending_cons_iff.mp h).2 (ascending_cons_iff.mp h').2 fun other => ?_
        by_cases ho : other = name
        · rw [ho, get?_eq_none_of_notMem (notMem_of_ascending_cons h),
            get?_eq_none_of_notMem (notMem_of_ascending_cons h')]
        · simpa [get?, ho] using hget other
      rw [hvalue, hrest]

/-! ## Changing each member -/

/-- A change of each member gives no member a new name. -/
theorem mem_keys_of_mem_amend {change : String → α → Option α} {members : Members α}
    {name : String} (h : name ∈ (amend change members).map Prod.fst) :
    name ∈ members.map Prod.fst := by
  obtain ⟨member, hmember, rfl⟩ := List.mem_map.mp h
  obtain ⟨source, hsource, hchanged⟩ := List.mem_filterMap.mp hmember
  obtain ⟨value, -, rfl⟩ := Option.map_eq_some_iff.mp hchanged
  exact List.mem_map.mpr ⟨source, hsource, rfl⟩

/-- **A change of each member keeps the order.** -/
theorem ascending_amend {members : Members α} (h : Ascending members)
    (change : String → α → Option α) : Ascending (amend change members) := by
  induction members with
  | nil => exact h
  | cons member rest ih =>
    obtain ⟨name, value⟩ := member
    obtain ⟨hfirst, hrest⟩ := ascending_cons_iff.mp h
    cases hc : change name value with
    | none => simpa [amend, hc] using ih hrest
    | some changed =>
      have hcons : amend change ((name, value) :: rest) = (name, changed) :: amend change rest := by
        simp [amend, hc]
      rw [hcons, ascending_cons_iff]
      exact ⟨fun other hmem => hfirst other (mem_keys_of_mem_amend hmem), ih hrest⟩

/-- **Look-up after a change of each member**: what was found before is changed. -/
theorem get?_amend {members : Members α} (h : Ascending members)
    (change : String → α → Option α) (name : String) :
    get? (amend change members) name = (get? members name).bind (change name) := by
  induction members with
  | nil => rfl
  | cons member rest ih =>
    obtain ⟨first, value⟩ := member
    have hrest := ih (ascending_cons_iff.mp h).2
    have hnew : get? rest first = none := get?_eq_none_of_notMem (notMem_of_ascending_cons h)
    cases hc : change first value with
    | none =>
      have hcons : amend change ((first, value) :: rest) = amend change rest := by
        simp [amend, hc]
      rw [hcons, hrest]
      by_cases hn : name = first
      · simp [get?, hn, hnew, hc]
      · simp [get?, hn]
    | some changed =>
      have hcons :
          amend change ((first, value) :: rest) = (first, changed) :: amend change rest := by
        simp [amend, hc]
      rw [hcons, get?, get?, hrest]
      by_cases hn : name = first
      · simp [hn, hc]
      · simp [hn]

/-- Keeping some of the members is a change of each. -/
theorem filter_eq_amend (p : String × α → Bool) (members : Members α) :
    members.filter p
      = amend (fun name value => if p (name, value) then some value else none) members := by
  induction members with
  | nil => rfl
  | cons member rest ih =>
    by_cases hp : p member = true
    · simpa [amend, hp] using ih
    · simpa [amend, hp] using ih

/-- Some of the members are in the order of all. -/
theorem ascending_filter {members : Members α} (h : Ascending members)
    (p : String × α → Bool) : Ascending (members.filter p) :=
  List.Pairwise.sublist (List.filter_sublist.map Prod.fst) h

/-- **Look-up among some of the members.** -/
theorem get?_filter {members : Members α} (h : Ascending members) (p : String × α → Bool)
    (name : String) :
    get? (members.filter p) name = (get? members name).filter fun value => p (name, value) := by
  rw [filter_eq_amend, get?_amend h]
  cases get? members name <;> rfl

end Members

end Conform
