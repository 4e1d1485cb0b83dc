import Conform.Failures
import Conform.Proofs.Paths
import Mathlib.Data.List.Induction

set_option autoImplicit false

/-!
# Recording and filing failures

A recorded failure is never lost: failures that are recorded or filed under a segment join those
that were there, and the failure that came first stays first.  Where the keys of a part cannot
collide, filing the part appends its failures one by one, and so does filing several parts, each
under a segment of its own.

## Main definitions

* `Conform.Failures.recordAll` — failures recorded one after the other.
* `Conform.Failures.entriesUnder` — the failures of a part, seen from outside.
* `Conform.Failures.absorbEach` — the failures of several parts, filed one part after the other.
* `Conform.Failures.filed` — these failures, seen from outside.
* `Conform.Failures.totalSize` — how many failures several parts have together.

## Main results

* `Conform.Keyed.ext_of_get?` — entries are known from their keys and their look-ups.
* `Conform.Failures.keys_recordAll`, `Conform.Failures.get?_recordAll` — the keys in the order of
  their first recording, each with the message recorded last.
* `Conform.Failures.absorb_root_record` — a failure that a part recorded last is recorded last where
  the part is filed.
* `Conform.Failures.isEmpty_absorb` — filing the failures of a part leaves no failures only if
  there were none and the part has none.
* `Conform.Failures.head?_record`, `Conform.Failures.head?_absorb` — which failure comes first.
* `Conform.Failures.get?_absorb`, `Conform.Failures.get?_absorb_position` — a look-up after a part
  was filed.
* `Conform.Failures.entries_absorbEach`, `Conform.Failures.size_absorbEach` — no failure of several
  parts gets lost.
-/

namespace Conform

/-! ## Keys that are new -/

namespace Keyed

variable {κ β : Type} [DecidableEq κ]

/-- An entry under a new key comes after all others. -/
theorem upsert_of_notMem (entries : List (κ × β)) {key : κ} (h : key ∉ entries.map Prod.fst)
    (entry : β) : upsert entries key entry = entries ++ [(key, entry)] := by
  induction entries with
  | nil => rfl
  | cons first rest ih =>
    obtain ⟨known, old⟩ := first
    simp only [List.map_cons, List.mem_cons, not_or] at h
    have hk : ¬ known = key := fun e => h.1 e.symm
    rw [upsert, if_neg hk, ih h.2, List.cons_append]

theorem entries_set_of_notMem (keyed : Keyed κ β) {key : κ} (h : key ∉ keyed.keys) (entry : β) :
    (keyed.set key entry).entries = keyed.entries ++ [(key, entry)] :=
  upsert_of_notMem keyed.entries h entry

/-- What is found is under a key that there is. -/
theorem mem_keys_of_find? {entries : List (κ × β)} {key : κ} {entry : β}
    (h : find? entries key = some entry) : key ∈ entries.map Prod.fst := by
  induction entries with
  | nil => exact nomatch h
  | cons first rest ih =>
    obtain ⟨known, old⟩ := first
    by_cases hk : known = key
    · subst hk
      simp
    · rw [find?, if_neg hk] at h
      exact List.mem_cons_of_mem _ (ih h)

/-- Nothing is found under a key that there is not. -/
theorem find?_of_notMem {entries : List (κ × β)} {key : κ} (h : key ∉ entries.map Prod.fst) :
    find? entries key = none :=
  Option.eq_none_iff_forall_not_mem.mpr fun _ hfound => h (mem_keys_of_find? hfound)

/-- **Entries are known from their keys in order and from their look-ups.** -/
theorem ext_of_get? {keyed keyed' : Keyed κ β} (hkeys : keyed.keys = keyed'.keys)
    (hget : ∀ key, keyed.get? key = keyed'.get? key) : keyed = keyed' := by
  obtain ⟨entries, nodup⟩ := keyed
  obtain ⟨entries', nodup'⟩ := keyed'
  apply Keyed.ext
  simp only [keys, get?] at hkeys hget ⊢
  induction entries generalizing entries' with
  | nil => exact (List.map_eq_nil_iff.mp hkeys.symm).symm
  | cons first rest ih =>
    obtain ⟨key, entry⟩ := first
    cases entries' with
    | nil => exact absurd hkeys (List.cons_ne_nil _ _)
    | cons first' rest' =>
      obtain ⟨key', entry'⟩ := first'
      obtain ⟨hkey, hrest⟩ := List.cons.inj hkeys
      obtain rfl : key = key' := hkey
      rw [List.map_cons, List.nodup_cons] at nodup nodup'
      obtain rfl : entry = entry' := by simpa [find?] using hget key
      refine congrArg _ (ih nodup.2 rest' nodup'.2 hrest fun other => ?_)
      by_cases ho : key = other
      · subst ho
        rw [find?_of_notMem nodup.1, find?_of_notMem nodup'.1]
      · simpa [find?, ho] using hget other

/-- A look-up among entries whose keys were changed without collisions. -/
theorem find?_map_key {f : κ → κ} (hf : Function.Injective f) (entries : List (κ × β)) (key : κ) :
    find? (entries.map fun entry => (f entry.1, entry.2)) (f key) = find? entries key := by
  induction entries with
  | nil => rfl
  | cons first rest ih =>
    obtain ⟨known, old⟩ := first
    simp only [List.map_cons, find?, hf.eq_iff, ih]

/-- One more key comes last if it is a new one. -/
theorem eraseDups_concat (known : List κ) (next : κ) :
    (known ++ [next]).eraseDups
      = if next ∈ known then known.eraseDups else known.eraseDups ++ [next] := by
  rw [List.eraseDups_append]
  split <;> simp [List.removeAll, List.eraseDups_cons, *]

/-- Keys none of which stands twice all stay. -/
theorem eraseDups_of_nodup {known : List κ} (h : known.Nodup) : known.eraseDups = known := by
  induction known using List.reverseRecOn with
  | nil => rfl
  | append_singleton known next ih =>
    obtain ⟨hknown, -, hnew⟩ := List.nodup_append.mp h
    have hnext : next ∉ known := fun hmem => hnew next hmem next List.mem_cons_self rfl
    rw [eraseDups_concat, if_neg hnext, ih hknown]

end Keyed

namespace Failures

/-! ## One failure after the other -/

/-- Records failures one after the other. -/
def recordAll (failures : Failures) (recorded : List (String × String)) : Failures :=
  recorded.foldl (fun known entry => known.record entry.1 entry.2) failures

theorem recordAll_concat (failures : Failures) (recorded : List (String × String))
    (last : String × String) :
    failures.recordAll (recorded ++ [last])
      = (failures.recordAll recorded).record last.1 last.2 :=
  List.foldl_append

/-- **The keys of failures recorded one after the other** come in the order in which they were first
recorded. -/
theorem keys_recordAll (failures : Failures) (recorded : List (String × String)) :
    (failures.recordAll recorded).keys = (failures.keys ++ recorded.map Prod.fst).eraseDups := by
  induction recorded using List.reverseRecOn with
  | nil =>
    rw [List.map_nil, List.append_nil]
    exact (Keyed.eraseDups_of_nodup failures.nodup).symm
  | append_singleton earlier last ih =>
    rw [recordAll_concat, record, Keyed.keys_set, ih, List.map_append, ← List.append_assoc,
      List.map_singleton, Keyed.eraseDups_concat]
    simp only [List.mem_eraseDups]

/-- **The message of a key is the one that was recorded last.** -/
theorem get?_recordAll (failures : Failures) (recorded : List (String × String)) (key : String) :
    (failures.recordAll recorded).get? key
      = (recorded.reverse.lookup key).or (failures.get? key) := by
  induction recorded using List.reverseRecOn with
  | nil => rfl
  | append_singleton earlier last ih =>
    rw [recordAll_concat, record, Keyed.get?_set, ih, List.reverse_concat, List.lookup_cons]
    by_cases h : key = last.1
    · simp [h]
    · simp [h, beq_eq_false_iff_ne.mpr h]

/-! ## Whether there are failures -/

/-- There are no failures only before the first one. -/
theorem eq_empty_of_isEmpty {failures : Failures} (h : failures.isEmpty = true) :
    failures = empty :=
  Keyed.ext (List.isEmpty_iff.mp h)

@[simp] theorem isEmpty_empty : empty.isEmpty = true := rfl

@[simp] theorem isEmpty_record (failures : Failures) (key message : String) :
    (record failures key message).isEmpty = false :=
  Keyed.isEmpty_set failures key message

/-- Recording one failure after another leaves none only if there was none before and none came. -/
theorem isEmpty_foldl_record (segment : String) :
    ∀ (entries : List (String × String)) (failures : Failures),
      (entries.foldl (fun known entry => record known (Path.qualify segment entry.1) entry.2)
        failures).isEmpty = (failures.isEmpty && entries.isEmpty)
  | [], failures => by simp
  | entry :: rest, failures => by
    rw [List.foldl_cons, isEmpty_foldl_record segment rest]
    simp

/-- **No failure gets lost**: after the failures of a part were filed there are none only if there
were none before and the part has none. -/
@[simp] theorem isEmpty_absorb (failures : Failures) (segment : String) (part : Failures) :
    (absorb failures segment part).isEmpty = (failures.isEmpty && part.isEmpty) :=
  isEmpty_foldl_record segment part.entries failures

/-- What recording a failure keeps, filing the failures of a part keeps as well. -/
theorem absorb_induction {P : Failures → Prop}
    (hrecord : ∀ known key message, P known → P (record known key message)) {failures : Failures}
    (h : P failures) (segment : String) (part : Failures) : P (absorb failures segment part) := by
  unfold absorb
  induction part.entries generalizing failures with
  | nil => exact h
  | cons entry rest ih => exact ih (hrecord _ _ _ h)

/-! ## The first failure -/

/-- **The first failure stays first**, also if its key is recorded again. -/
theorem head?_record {failures : Failures} {first : String} (h : failures.keys.head? = some first)
    (key message : String) : (record failures key message).keys.head? = some first := by
  rw [record, Keyed.keys_set]
  split
  · exact h
  · rw [List.head?_append, h, Option.some_or]

/-- A part that is filed before anything was recorded gives the first failure. -/
theorem head?_absorb (segment : String) {part : Failures} {first : String}
    (h : part.keys.head? = some first) :
    (absorb empty segment part).keys.head? = some (Path.qualify segment first) := by
  unfold Keyed.keys at h
  unfold absorb
  cases hentries : part.entries with
  | nil => simp [hentries] at h
  | cons entry rest =>
    obtain rfl : entry.1 = first := by simpa [hentries] using h
    suffices hkept : ∀ known : Failures,
        known.keys.head? = some (Path.qualify segment entry.1) →
          (rest.foldl (fun known entry => record known (Path.qualify segment entry.1) entry.2)
            known).keys.head? = some (Path.qualify segment entry.1) from
      hkept _ rfl
    clear hentries
    induction rest with
    | nil => exact fun known hk => hk
    | cons later rest ih => exact fun known hk => ih _ (head?_record hk _ _)

/-! ## Filing without collisions -/

/-- Failures under new keys are appended one by one. -/
theorem entries_foldl_record {segment : String}
    (hinj : Function.Injective (Path.qualify segment)) :
    ∀ (entries : List (String × String)) (failures : Failures), (entries.map Prod.fst).Nodup →
      (∀ key ∈ entries.map Prod.fst, Path.qualify segment key ∉ failures.keys) →
      (entries.foldl (fun known entry => record known (Path.qualify segment entry.1) entry.2)
          failures).entries
        = failures.entries ++ entries.map fun entry => (Path.qualify segment entry.1, entry.2)
  | [], failures, _, _ => by simp
  | entry :: rest, failures, hnodup, hnew => by
    rw [List.map_cons, List.nodup_cons] at hnodup
    have hfirst : Path.qualify segment entry.1 ∉ failures.keys :=
      hnew entry.1 List.mem_cons_self
    rw [List.foldl_cons, entries_foldl_record hinj rest _ hnodup.2, record,
      Keyed.entries_set_of_notMem failures hfirst, List.append_assoc]
    · rfl
    · intro key hkey hmem
      rw [record, Keyed.keys_set, if_neg hfirst] at hmem
      obtain hold | hsame := List.mem_append.mp hmem
      · exact hnew key (List.mem_cons_of_mem _ hkey) hold
      · have heq : key = entry.1 := hinj (List.mem_singleton.mp hsame)
        exact hnodup.1 (heq ▸ hkey)

/-- The failures of a part, with a segment before each key. -/
def entriesUnder (part : Failures) (segment : String) : List (String × String) :=
  part.entries.map fun entry => (Path.qualify segment entry.1, entry.2)

/-- **Failures filed without collisions come last**, with the segment before each key. -/
theorem entries_absorb {segment : String} (hinj : Function.Injective (Path.qualify segment))
    {failures part : Failures} (hnew : ∀ key, Path.qualify segment key ∉ failures.keys) :
    (absorb failures segment part).entries = failures.entries ++ part.entriesUnder segment :=
  entries_foldl_record hinj part.entries failures part.nodup fun key _ => hnew key

/-- Failures filed first are those of the part, with the segment before each key. -/
theorem entries_absorb_empty {segment : String}
    (hinj : Function.Injective (Path.qualify segment)) (part : Failures) :
    (absorb empty segment part).entries
      = part.entries.map fun entry => (Path.qualify segment entry.1, entry.2) :=
  entries_absorb hinj fun _ hmem => nomatch hmem

/-- Failures that are filed at the root stay what they are. -/
theorem absorb_root (part : Failures) : absorb empty "" part = part := by
  apply Keyed.ext
  rw [entries_absorb_empty (fun key key' h => by simpa using h)]
  simp

/-! ## Look-up -/

/-- **A look-up after a part was filed** finds what was filed, or else what was recorded before. -/
theorem get?_absorb (failures : Failures) (segment : String) (part : Failures) (key : String) :
    (absorb failures segment part).get? key
      = ((absorb empty segment part).get? key).or (failures.get? key) := by
  unfold absorb
  induction part.entries generalizing failures with
  | nil => rfl
  | cons entry rest ih =>
    rw [List.foldl_cons, List.foldl_cons, ih, ih (record empty _ _), Option.or_assoc]
    congr 1
    rw [record, record, Keyed.get?_set, Keyed.get?_set]
    split <;> rfl

/-- Failures that are filed at the root are recorded one after the other. -/
theorem absorb_root_eq (failures part : Failures) :
    absorb failures "" part = failures.recordAll part.entries := by
  simp only [absorb, recordAll, Path.qualify_empty_left]

/-- **A failure that a part recorded last** is recorded last where the part is filed at the root. -/
theorem absorb_root_record (failures part : Failures) (key message : String) :
    absorb failures "" (part.record key message)
      = (absorb failures "" part).record key message := by
  have hkeys (known : Failures) :
      (absorb failures "" known).keys = (failures.keys ++ known.keys).eraseDups := by
    rw [absorb_root_eq, keys_recordAll]
    rfl
  have hget (known : Failures) (other : String) :
      (absorb failures "" known).get? other = (known.get? other).or (failures.get? other) := by
    rw [get?_absorb, absorb_root]
  apply Keyed.ext_of_get?
  · rw [hkeys, record, record, Keyed.keys_set, Keyed.keys_set, hkeys]
    by_cases hp : key ∈ part.keys
    · simp [hp]
    · rw [if_neg hp, ← List.append_assoc, Keyed.eraseDups_concat]
      simp only [List.mem_eraseDups]
  · intro other
    rw [hget, record, record, Keyed.get?_set, Keyed.get?_set, hget]
    split <;> rfl

/-- A failure that was filed under a position is one of the part. -/
theorem get?_absorb_position {index : Nat} {part : Failures} {key message : String} :
    (absorb empty (Path.position index) part).get? key = some message ↔
      ∃ inner, key = Path.qualify (Path.position index) inner ∧ part.get? inner = some message := by
  have hinj : Function.Injective (Path.qualify (Path.position index)) :=
    fun inner inner' h => (Path.qualify_position_inj.mp h).2
  unfold Keyed.get?
  rw [entries_absorb_empty hinj]
  constructor
  · intro h
    have hmem := Keyed.mem_keys_of_find? h
    rw [List.map_map] at hmem
    obtain ⟨entry, -, rfl⟩ := List.mem_map.mp hmem
    exact ⟨entry.1, rfl, by rw [← h, ← Keyed.find?_map_key hinj]; rfl⟩
  · rintro ⟨inner, rfl, h⟩
    rw [Keyed.find?_map_key hinj, h]

/-! ## Several parts -/

/-- Failures, and after them those of several parts, each filed under the segment of its number. -/
def absorbEach (segment : Nat → String) : Failures → Nat → List Failures → Failures
  | failures, _, [] => failures
  | failures, start, part :: later =>
    absorbEach segment (failures.absorb (segment start) part) (start + 1) later

/-- Several parts leave no failures only if there were none and no part has any. -/
theorem isEmpty_absorbEach (segment : Nat → String) (parts : List Failures) (failures : Failures)
    (start : Nat) :
    (absorbEach segment failures start parts).isEmpty
      = (failures.isEmpty && parts.all (·.isEmpty)) := by
  induction parts generalizing failures start with
  | nil => simp [absorbEach]
  | cons part later ih => rw [absorbEach, ih, isEmpty_absorb, List.all_cons, Bool.and_assoc]

/-- **No failure of several parts gets lost**, and none is written over: they come one after the
other, part by part, with the segment of the part before each key.

**Proof sketch.** Induction on the parts.  The invariant is that no key opens with a segment that is
still to come; the segments filed so far have smaller numbers, and a key shows the number of the
segment that it opens with. -/
theorem entries_absorbEach {segment : Nat → String} (hs : Path.Separates segment) :
    ∀ (parts : List Failures) (failures : Failures) (start : Nat),
      (∀ index ≥ start, ∀ key, Path.qualify (segment index) key ∉ failures.keys) →
        (absorbEach segment failures start parts).entries
          = failures.entries ++
            (parts.zipIdx start).flatMap fun (part, index) => part.entriesUnder (segment index)
  | [], failures, start, _ => by simp [absorbEach]
  | part :: later, failures, start, hnew => by
    have hfirst : (failures.absorb (segment start) part).entries
        = failures.entries ++ part.entriesUnder (segment start) :=
      entries_absorb (hs.injective start) (hnew start (Nat.le_refl start))
    have hlater : ∀ index ≥ start + 1, ∀ key,
        Path.qualify (segment index) key ∉ (failures.absorb (segment start) part).keys := by
      intro index hindex key hmem
      rw [Keyed.keys, hfirst, List.map_append, List.mem_append] at hmem
      obtain hold | hfiled := hmem
      · exact hnew index (by omega) key hold
      · rw [entriesUnder, List.map_map] at hfiled
        obtain ⟨entry, -, hsame⟩ := List.mem_map.mp hfiled
        have hstart : start = index := (hs hsame).1
        omega
    rw [absorbEach, entries_absorbEach hs later _ _ hlater, hfirst, List.zipIdx_cons,
      List.flatMap_cons, List.append_assoc]

/-- The failures of several parts, one part after the other, each with the segment of its number
before its keys. -/
def filed (segment : Nat → String) (parts : List Failures) : List (String × String) :=
  parts.zipIdx.flatMap fun (part, index) => part.entriesUnder (segment index)

theorem filed_cons (segment : Nat → String) (part : Failures) (later : List Failures) :
    filed segment (part :: later)
      = part.entriesUnder (segment 0) ++ filed (fun index => segment (index + 1)) later := by
  rw [filed, List.zipIdx_cons, List.flatMap_cons, List.zipIdx_succ, List.flatMap_map]
  rfl

/-- Parts that come later have the later numbers. -/
theorem filed_append (segment : Nat → String) (parts later : List Failures) :
    filed segment (parts ++ later)
      = filed segment parts ++ filed (fun index => segment (parts.length + index)) later := by
  induction parts generalizing segment with
  | nil => simp [filed]
  | cons part rest ih =>
    have hlength (index : Nat) : rest.length + index + 1 = rest.length + 1 + index := by omega
    simp only [List.cons_append, filed_cons, ih, List.append_assoc, List.length_cons, hlength]

/-- **Parts of a part** have two segments before their keys, the outer one first. -/
theorem entriesUnder_of_filed {segment : Nat → String} {whole : Failures} {parts : List Failures}
    (h : whole.entries = filed segment parts) (outer : String) :
    whole.entriesUnder outer = filed (fun index => Path.qualify outer (segment index)) parts := by
  simp only [entriesUnder, h, filed, List.map_flatMap, List.map_map, Function.comp_def,
    Path.qualify_assoc]

/-- How many failures several parts have together. -/
def totalSize : List Failures → Nat
  | [] => 0
  | part :: later => part.size + totalSize later

/-- There are as many failures as before and in the parts together. -/
theorem size_absorbEach {segment : Nat → String} (hs : Path.Separates segment)
    (parts : List Failures) (failures : Failures) (start : Nat)
    (hnew : ∀ index ≥ start, ∀ key, Path.qualify (segment index) key ∉ failures.keys) :
    (absorbEach segment failures start parts).size = failures.size + totalSize parts := by
  have hparts : ∀ (parts : List Failures) (start : Nat),
      ((parts.zipIdx start).flatMap fun (part, index) =>
        part.entriesUnder (segment index)).length = totalSize parts := by
    intro parts
    induction parts with
    | nil => exact fun _ => rfl
    | cons part later ih =>
      intro start
      have hpart : (part.entriesUnder (segment start)).length = part.size := List.length_map _
      rw [List.zipIdx_cons, List.flatMap_cons, List.length_append, ih, totalSize, ← hpart]
  rw [Keyed.size, entries_absorbEach hs parts failures start hnew, List.length_append, hparts,
    Keyed.size]

end Failures

end Conform
