set_option autoImplicit false

/-!
# Keyed entries in writing order

Entries under keys, in the order in which the keys were first written.  A key that is written again
keeps its place and takes the new entry.

## Main definitions

* `Conform.Keyed`: entries, each key once.
* `Conform.Keyed.set`, `Conform.Keyed.get?`: one write, and look-up.

## Main results

* `Conform.Keyed.keys_set`, `Conform.Keyed.size_set`, `Conform.Keyed.get?_set`: the keys, their
  number and the entries after a write.
-/

namespace Conform

/-- Entries in the order of the first writing of their keys, each key once. -/
@[ext] structure Keyed (κ β : Type) where
  /-- Keys with their entries. -/
  entries : List (κ × β)
  /-- No key stands twice. -/
  nodup : (entries.map Prod.fst).Nodup := by simp
  deriving DecidableEq

namespace Keyed

variable {κ β : Type}

/-- No entries. -/
def empty : Keyed κ β := { entries := [] }

/-- The keys, in the order of their first writing. -/
def keys (keyed : Keyed κ β) : List κ := keyed.entries.map Prod.fst

/-- The number of entries. -/
def size (keyed : Keyed κ β) : Nat := keyed.entries.length

/-- Whether there are no entries. -/
def isEmpty (keyed : Keyed κ β) : Bool := keyed.entries.isEmpty

/-- The entry whose key was written first, with its key. -/
def first? (keyed : Keyed κ β) : Option (κ × β) := keyed.entries.head?

@[simp] theorem keys_empty : (empty : Keyed κ β).keys = [] := rfl

/-! ## Writing -/

variable [DecidableEq κ]

/-- Writes an entry in a list: over the old entry of its key, or at the end for a new key. -/
def upsert : List (κ × β) → κ → β → List (κ × β)
  | [], key, entry => [(key, entry)]
  | (known, old) :: rest, key, entry =>
    if known = key then (key, entry) :: rest else (known, old) :: upsert rest key entry

/-- The keys after a write: a new key comes last, a known one stays where it was. -/
theorem map_fst_upsert (entries : List (κ × β)) (key : κ) (entry : β) :
    (upsert entries key entry).map Prod.fst
      = if key ∈ entries.map Prod.fst then entries.map Prod.fst
        else entries.map Prod.fst ++ [key] := by
  induction entries with
  | nil => simp [upsert]
  | cons first rest ih =>
    obtain ⟨known, old⟩ := first
    by_cases h : known = key
    · subst h
      simp [upsert]
    · have h' : ¬ key = known := fun e => h e.symm
      by_cases hm : key ∈ rest.map Prod.fst
      · simp only [upsert, h, if_false, List.map_cons, ih, hm, if_true, List.mem_cons, or_true]
      · simp only [upsert, h, if_false, List.map_cons, ih, hm, List.mem_cons, h', or_self,
          List.cons_append]

/-- Writes an entry under a key. -/
def set (keyed : Keyed κ β) (key : κ) (entry : β) : Keyed κ β where
  entries := upsert keyed.entries key entry
  nodup := by
    rw [map_fst_upsert]
    split
    · exact keyed.nodup
    · rename_i h
      refine List.nodup_append.mpr ⟨keyed.nodup, by simp, fun a ha b hb => ?_⟩
      rintro rfl
      exact h (List.mem_singleton.mp hb ▸ ha)

/-- The entry under a key in a list. -/
def find? : List (κ × β) → κ → Option β
  | [], _ => none
  | (known, entry) :: rest, key => if known = key then some entry else find? rest key

/-- The entry under a key. -/
def get? (keyed : Keyed κ β) (key : κ) : Option β := find? keyed.entries key

/-- Whether a key has an entry. -/
def contains (keyed : Keyed κ β) (key : κ) : Bool := decide (key ∈ keyed.keys)

@[simp] theorem get?_empty (key : κ) : (empty : Keyed κ β).get? key = none := rfl

/-- **A new key comes last**, a known one keeps its place. -/
theorem keys_set (keyed : Keyed κ β) (key : κ) (entry : β) :
    (keyed.set key entry).keys
      = if key ∈ keyed.keys then keyed.keys else keyed.keys ++ [key] :=
  map_fst_upsert keyed.entries key entry

/-- A write under a new key makes one entry more, a write under a known key none. -/
theorem size_set (keyed : Keyed κ β) (key : κ) (entry : β) :
    (keyed.set key entry).size = if key ∈ keyed.keys then keyed.size else keyed.size + 1 := by
  have hsize (known : Keyed κ β) : known.size = known.keys.length :=
    (List.length_map Prod.fst).symm
  rw [hsize, hsize, keys_set]
  split
  · rfl
  · exact List.length_append

/-- **The last writing wins**: after a write its key has the new entry and every other key the
entry it had. -/
theorem get?_set (keyed : Keyed κ β) (key : κ) (entry : β) (other : κ) :
    (keyed.set key entry).get? other = if other = key then some entry else keyed.get? other := by
  show find? (upsert keyed.entries key entry) other = _
  unfold get?
  induction keyed.entries with
  | nil => by_cases h : key = other <;> simp [upsert, find?, h, eq_comm]
  | cons first rest ih =>
    obtain ⟨known, old⟩ := first
    by_cases hk : known = key
    · subst hk
      by_cases ho : known = other
      · simp [upsert, find?, ho]
      · have ho' : ¬ other = known := fun e => ho e.symm
        simp [upsert, find?, ho, ho']
    · by_cases ho : known = other
      · subst ho
        simp [upsert, find?, hk]
      · simp [upsert, find?, hk, ho, ih]

/-- Nothing is empty once an entry was written. -/
@[simp] theorem isEmpty_set (keyed : Keyed κ β) (key : κ) (entry : β) :
    (keyed.set key entry).isEmpty = false := by
  show (upsert keyed.entries key entry).isEmpty = false
  cases keyed.entries with
  | nil => rfl
  | cons first rest => by_cases h : first.1 = key <;> simp [upsert, h]

end Keyed

end Conform
