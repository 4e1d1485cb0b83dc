import Conform.Proofs.Assembly

set_option autoImplicit false

/-!
# Entries that are shared

A validator that was given a metadata key hands it on to everything that is made from it, so that
all of them show one entry, the one that was written last.  This is followed through histories:
builder calls, annotations of the validators made so far, and writes to the registries by anybody
else come in any order.  At every moment of such a history the registries are what the writes made
of them.

A key that is generated is one that nobody has.  That wants a store whose registries hold no key
that is yet to be generated, and writers who use the keys that there are.

## Main definitions

* `Conform.Metadata.Store.Knows`, `Conform.Metadata.Store.Sound` — the keys that there are, and
  registries that hold no others.
* `Conform.Metadata.Store.replay` — what writes make of the registries.
* `Conform.Metadata.Store.openings` — the writes to keys that a registry did not hold.
* `Conform.Validator.Makes` — one builder call.
* `Conform.Validator.History` — what may happen to a validator, to what is made from it and to the
  registries.

## Main results

* `Conform.Metadata.Store.shown?_replay`, `Conform.Metadata.Store.size_replay` — entries and sizes
  after writes.
* `Conform.Validator.Makes.handle?_eq` — builder calls keep the handle.
* `Conform.Validator.annotated_of_keyless`, `Conform.Validator.Annotated.annotate`,
  `Conform.Validator.annotated_bindTo` — how a validator comes by a handle.
* `Conform.Validator.History.registry_eq` — the registries at a moment of a history.
* `Conform.Validator.entry_follows_value` — what callers may rely on.
-/

namespace Conform

namespace Metadata

/-- A write of an entry. -/
structure Write where
  /-- The key, and the registry it is written in. -/
  target : Handle
  /-- The entry. -/
  entry : Entry

/-- The entry that was last written under a handle.  The latest write stands first. -/
def lastWritten (handle : Handle) : List Write → Option Entry
  | [] => none
  | latest :: earlier =>
    if handle = latest.target then some latest.entry else lastWritten handle earlier

namespace Store

/-! ## Keys -/

/-- A key that there is: one that a user can choose, or one that was generated. -/
def Knows (store : Store) : Key → Prop
  | .named _ => True
  | .generated serial => serial < store.issued

/-- The registries hold keys that there are. -/
def Sound (store : Store) : Prop :=
  ∀ scope, ∀ key ∈ (store.registry scope).keys, store.Knows key

theorem sound_empty : Store.empty.Sound := by
  intro scope key hm
  cases scope <;> exact nomatch hm

/-- A write issues no key. -/
@[simp] theorem issued_write (store : Store) (scope : Scope) (key : Key) (entry : Entry) :
    (store.write scope key entry).issued = store.issued := by
  cases scope <;> rfl

/-- Generating a key writes no entry. -/
@[simp] theorem registry_generate (store : Store) (scope : Scope) :
    store.generate.2.registry scope = store.registry scope := by
  cases scope <;> rfl

/-- Keys that there are remain. -/
theorem Knows.mono {store later : Store} {key : Key} (h : store.Knows key)
    (hissued : store.issued ≤ later.issued) : later.Knows key := by
  cases key with
  | named text => trivial
  | generated serial => exact Nat.lt_of_lt_of_le h hissued

theorem Knows.write {store : Store} {known : Key} (h : store.Knows known) (scope : Scope) (key : Key)
    (entry : Entry) : (store.write scope key entry).Knows known :=
  h.mono (Nat.le_of_eq (issued_write store scope key entry).symm)

theorem Knows.generate {store : Store} {known : Key} (h : store.Knows known) :
    store.generate.2.Knows known :=
  h.mono (Nat.le_succ store.issued)

/-- A key that is generated is a new one. -/
theorem not_knows_generate (store : Store) : ¬ store.Knows store.generate.1 :=
  Nat.lt_irrefl _

theorem knows_generate (store : Store) : store.generate.2.Knows store.generate.1 :=
  Nat.lt_succ_self _

/-- Registries that hold keys that there are hold no key that is generated next. -/
theorem Sound.generate_notMem {store : Store} (h : store.Sound) (scope : Scope) :
    store.generate.1 ∉ (store.registry scope).keys :=
  fun hm => store.not_knows_generate (h scope _ hm)

theorem Sound.generate {store : Store} (h : store.Sound) : store.generate.2.Sound := by
  intro scope key hm
  rw [registry_generate] at hm
  exact (h scope key hm).generate

/-- Writing under a key that there is leaves registries that hold such keys. -/
theorem Sound.write {store : Store} (h : store.Sound) {key : Key} (hk : store.Knows key)
    (scope : Scope) (entry : Entry) : (store.write scope key entry).Sound := by
  intro seen held hm
  refine Knows.write ?_ scope key entry
  rw [registry_write] at hm
  split at hm
  · rw [Keyed.keys_set] at hm
    split at hm
    · exact h seen held hm
    · obtain hold | hnew := List.mem_append.mp hm
      · exact h seen held hold
      · rwa [List.mem_singleton.mp hnew]
  · exact h seen held hm

/-! ## Writes in a row -/

/-- What writes make of the registries.  The latest write stands first. -/
def replay (start : Store) : List Write → Store
  | [] => start
  | latest :: earlier =>
    (start.replay earlier).write latest.target.scope latest.target.key latest.entry

/-- **The entry last written is shown**, or what was shown at the start if none was written. -/
theorem shown?_replay (start : Store) (handle : Handle) (writes : List Write) :
    (start.replay writes).shown? handle
      = (lastWritten handle writes).or (start.shown? handle) := by
  induction writes with
  | nil => rfl
  | cons latest earlier ih =>
    rw [replay, shown?_write, lastWritten]
    split
    · rfl
    · exact ih

/-- The writes to keys that a registry did not hold when they were written. -/
def openings (start : Store) (scope : Scope) : List Write → List Write
  | [] => []
  | latest :: earlier =>
    if latest.target.scope = scope ∧
        latest.target.key ∉ ((start.replay earlier).registry scope).keys then
      latest :: start.openings scope earlier
    else start.openings scope earlier

/-- **A registry grows by the writes to keys that it did not hold**, and by no others. -/
theorem size_replay (start : Store) (scope : Scope) (writes : List Write) :
    ((start.replay writes).registry scope).size
      = (start.registry scope).size + (start.openings scope writes).length := by
  induction writes with
  | nil => rfl
  | cons latest earlier ih =>
    rw [replay, openings, registry_write]
    by_cases hscope : scope = latest.target.scope
    · by_cases hheld : latest.target.key ∈ ((start.replay earlier).registry scope).keys
      · rw [if_pos hscope, Keyed.size_set, if_pos hheld, if_neg (fun h => h.2 hheld), ih]
      · rw [if_pos hscope, Keyed.size_set, if_neg hheld, if_pos ⟨hscope.symm, hheld⟩, ih,
          List.length_cons, Nat.add_assoc]
    · rw [if_neg hscope, if_neg (fun h => hscope h.1.symm), ih]

end Store

end Metadata

namespace Validator

open Metadata

/-! ## Builder calls -/

/-- **One builder call** on a validator: one more operation, a wrapper, one more position or one more
alternative. -/
inductive Makes : Validator → Validator → Prop
  | operate (base : Validator) (operation : Operation base.Operand) :
    Makes base (base.operate operation)
  | orNull (base : Validator) : Makes base base.orNull
  | orDefault (base : Validator) (default : Value) : Makes base (base.orDefault default)
  | withDefault {base changed : Validator} {default : Value}
    (h : base.withDefault? default = some changed) : Makes base changed
  | many (base : Validator) : Makes base base.many
  | and (base next : Validator) : Makes base (base.and next)
  | or (base next : Validator) : Makes base (base.or next)

/-- **What a builder call makes has the handle of its receiver.** -/
theorem Makes.handle?_eq {base made : Validator} (h : base.Makes made) :
    made.handle? = base.handle? := by
  cases h with
  | operate operation => cases base <;> rfl
  | orNull => rfl
  | orDefault default => rfl
  | withDefault h =>
    cases base with
    | nullable inner old core =>
      obtain rfl := Option.some.inj h
      rfl
    | _ => exact nomatch h
  | many => rfl
  | and next =>
    unfold Validator.and
    split
    · split <;> rfl
    · rfl
  | or next => cases base <;> rfl

/-! ## Annotations -/

section Annotate

variable {validator : Validator} {store : Store} (scope : Scope) (entry : Entry)

@[simp] theorem handle?_withHandle (handle : Option Handle) :
    (validator.withHandle handle).handle? = handle := by
  cases validator <;> rfl

/-- An annotation writes under the key that the validator has. -/
theorem annotate_of_handle {handle : Handle} (h : validator.handle? = some handle) :
    validator.annotate scope entry store
      = (validator.withHandle (some ⟨scope, handle.key⟩), store.write scope handle.key entry) := by
  simp only [annotate, h]

/-- An annotation of a validator without a key writes under one that is generated. -/
theorem annotate_of_keyless (h : validator.handle? = none) :
    validator.annotate scope entry store
      = (validator.withHandle (some ⟨scope, store.generate.1⟩),
          store.generate.2.write scope store.generate.1 entry) := by
  simp only [annotate, h]

end Annotate

/-- A validator has a handle, to a key that there is in a store that is sound. -/
structure Annotated (handle : Handle) (validator : Validator) (store : Store) : Prop where
  /-- The validator has the handle. -/
  handle?_eq : validator.handle? = some handle
  /-- The registries hold keys that there are. -/
  sound : store.Sound
  /-- The key of the handle is one of them. -/
  knows : store.Knows handle.key

/-- A validator that holds the key under which an entry was written is annotated, and the entry is
shown. -/
theorem annotated_write {store : Store} (hsound : store.Sound) {key : Key} (hk : store.Knows key)
    (scope : Scope) (entry : Entry) (validator : Validator) :
    Annotated ⟨scope, key⟩ (validator.withHandle (some ⟨scope, key⟩)) (store.write scope key entry) ∧
      (store.write scope key entry).shown? ⟨scope, key⟩ = some entry := by
  refine ⟨⟨handle?_withHandle _, hsound.write hk scope entry, hk.write scope key entry⟩, ?_⟩
  rw [Store.shown?_write, if_pos rfl]

/-- **A validator without a key is given a new one**, under which its entry is shown. -/
theorem annotated_of_keyless {validator : Validator} {store : Store}
    (h : validator.handle? = none) (hsound : store.Sound) (scope : Scope) (entry : Entry) :
    Annotated ⟨scope, store.generate.1⟩ (validator.annotate scope entry store).1
        (validator.annotate scope entry store).2 ∧
      (validator.annotate scope entry store).2.shown? ⟨scope, store.generate.1⟩ = some entry := by
  rw [annotate_of_keyless scope entry h]
  exact annotated_write hsound.generate store.knows_generate scope entry validator

/-- A validator that has a key keeps it, and takes the entry of the registry it is annotated in. -/
theorem Annotated.annotate {handle : Handle} {validator : Validator} {store : Store}
    (h : Annotated handle validator store) (scope : Scope) (entry : Entry) :
    Annotated ⟨scope, handle.key⟩ (validator.annotate scope entry store).1
        (validator.annotate scope entry store).2 ∧
      (validator.annotate scope entry store).2.shown? ⟨scope, handle.key⟩ = some entry := by
  rw [annotate_of_handle scope entry h.handle?_eq]
  exact annotated_write h.sound h.knows scope entry validator

/-- A validator can be bound to a key, whether or not there is an entry under it. -/
theorem annotated_bindTo {handle : Handle} {store : Store} (hsound : store.Sound)
    (hk : store.Knows handle.key) (validator : Validator) :
    Annotated handle (validator.bindTo handle) store :=
  ⟨handle?_withHandle _, hsound, hk⟩

/-! ## Histories -/

/-- **What may happen** to a validator with a handle, from some store on: `History` tells the writes
so far, the latest one first, the validators made so far, and the store.  A key that is used is one
that there is, and generated keys come from annotations. -/
inductive History (handle : Handle) (first : Validator) (start : Store) :
    List Write → List Validator → Store → Prop
  /-- Nothing happened yet. -/
  | start : History handle first start [] [first] start
  /-- A validator is made from one of those there are. -/
  | build {writes : List Write} {kin : List Validator} {store : Store} {base made : Validator}
    (h : History handle first start writes kin store) (hb : base ∈ kin) (hm : base.Makes made) :
    History handle first start writes (made :: kin) store
  /-- One of the validators is annotated in the registry of the handle. -/
  | annotate {writes : List Write} {kin : List Validator} {store : Store} {base : Validator}
    (h : History handle first start writes kin store) (hb : base ∈ kin) (entry : Entry) :
    History handle first start (⟨handle, entry⟩ :: writes)
      ((base.annotate handle.scope entry store).1 :: kin)
      (base.annotate handle.scope entry store).2
  /-- Somebody writes to a registry. -/
  | insert {writes : List Write} {kin : List Validator} {store : Store}
    (h : History handle first start writes kin store) (target : Handle) (entry : Entry)
    (hk : store.Knows target.key) :
    History handle first start (⟨target, entry⟩ :: writes) kin
      (store.write target.scope target.key entry)
  /-- Another validator is given a key of its own. -/
  | elsewhere {writes : List Write} {kin : List Validator} {store : Store} {stranger : Validator}
    (h : History handle first start writes kin store) (hs : stranger.handle? = none)
    (scope : Scope) (entry : Entry) :
    History handle first start (⟨⟨scope, store.generate.1⟩, entry⟩ :: writes) kin
      (stranger.annotate scope entry store).2

namespace History

variable {handle : Handle} {first : Validator} {start store : Store} {writes : List Write}
  {kin : List Validator}

/-- **All that was made from a validator has its handle.** -/
theorem handle?_eq (hfirst : first.handle? = some handle)
    (h : History handle first start writes kin store) :
    ∀ validator ∈ kin, validator.handle? = some handle := by
  induction h with
  | start =>
    intro validator hv
    rwa [List.mem_singleton.mp hv]
  | build _ hb hm ih =>
    exact List.forall_mem_cons.mpr ⟨hm.handle?_eq.trans (ih _ hb), ih⟩
  | annotate _ hb entry ih =>
    refine List.forall_mem_cons.mpr ⟨?_, ih⟩
    rw [annotate_of_handle _ entry (ih _ hb)]
    exact handle?_withHandle _
  | insert _ target entry hk ih => exact ih
  | elsewhere _ hs scope entry ih => exact ih

/-- **The registries are what the writes made of them.** -/
theorem registry_eq (hfirst : first.handle? = some handle)
    (h : History handle first start writes kin store) (scope : Scope) :
    store.registry scope = (start.replay writes).registry scope := by
  have hwrite {before replayed : Store} (heq : before.registry scope = replayed.registry scope)
      (write : Write) :
      (before.write write.target.scope write.target.key write.entry).registry scope
        = (replayed.write write.target.scope write.target.key write.entry).registry scope := by
    rw [Store.registry_write, Store.registry_write, heq]
  induction h with
  | start => rfl
  | build _ hb hm ih => exact ih
  | annotate h hb entry ih =>
    rw [annotate_of_handle _ entry (h.handle?_eq hfirst _ hb)]
    exact hwrite ih ⟨handle, entry⟩
  | insert _ target entry hk ih => exact hwrite ih ⟨target, entry⟩
  | elsewhere _ hs other entry ih =>
    rw [annotate_of_keyless other entry hs]
    exact hwrite ((Store.registry_generate _ _).trans ih) ⟨⟨other, _⟩, entry⟩

/-- At every moment the registries hold keys that there are, and the key of the handle is one of
them. -/
theorem sound (hfirst : Annotated handle first start)
    (h : History handle first start writes kin store) :
    store.Sound ∧ store.Knows handle.key := by
  induction h with
  | start => exact ⟨hfirst.sound, hfirst.knows⟩
  | build _ hb hm ih => exact ih
  | annotate h hb entry ih =>
    rw [annotate_of_handle _ entry (h.handle?_eq hfirst.handle?_eq _ hb)]
    exact ⟨ih.1.write ih.2 _ entry, ih.2.write _ _ entry⟩
  | insert _ target entry hk ih => exact ⟨ih.1.write hk _ entry, ih.2.write _ _ entry⟩
  | @elsewhere _ _ before _ _ hs scope entry ih =>
    rw [annotate_of_keyless scope entry hs]
    exact ⟨ih.1.generate.write before.knows_generate scope entry, ih.2.generate.write _ _ entry⟩

end History

/-- **An entry belongs to the key, not to the validator.**  A validator was given a key, and then
anything happened: builder calls on it and on what was made from it, annotations of any of these in
the registry, writes to the registries, new keys for other validators.  All that was made has the
handle, and shows the entry last written under it, or the one from the start.  Every other handle
shows what was last written under that one.  Each registry has as many entries more as there were
writes to keys that it did not hold.  A validator without a key is given one that nobody has, which
then shows its entry. -/
theorem entry_follows_value {handle : Handle} {first : Validator} {start store : Store}
    {writes : List Write} {kin : List Validator} (hfirst : Annotated handle first start)
    (h : History handle first start writes kin store) :
    (∀ validator ∈ kin, validator.handle? = some handle ∧
      validator.shown? store = (lastWritten handle writes).or (start.shown? handle)) ∧
    (∀ other, store.shown? other = (lastWritten other writes).or (start.shown? other)) ∧
    (∀ scope, (store.registry scope).size
      = (start.registry scope).size + (start.openings scope writes).length) ∧
    ∀ (stranger : Validator) scope entry, stranger.handle? = none →
      ∃ key, ¬ store.Knows key ∧ key ≠ handle.key ∧
        (∀ seen, key ∉ (store.registry seen).keys) ∧
        Annotated ⟨scope, key⟩ (stranger.annotate scope entry store).1
          (stranger.annotate scope entry store).2 ∧
        (stranger.annotate scope entry store).2.shown? ⟨scope, key⟩ = some entry := by
  have hshown (other : Handle) :
      store.shown? other = (lastWritten other writes).or (start.shown? other) := by
    rw [← Store.shown?_replay, Store.shown?, Store.shown?, h.registry_eq hfirst.handle?_eq]
  obtain ⟨hsound, hknows⟩ := h.sound hfirst
  refine ⟨fun validator hv => ?_, hshown, fun scope => ?_, fun stranger scope entry hs => ?_⟩
  · have hhandle : validator.handle? = some handle := h.handle?_eq hfirst.handle?_eq validator hv
    refine ⟨hhandle, ?_⟩
    rw [Validator.shown?, hhandle]
    exact hshown handle
  · rw [← Store.size_replay, h.registry_eq hfirst.handle?_eq]
  · have hnew : ¬ store.Knows store.generate.1 := store.not_knows_generate
    exact ⟨store.generate.1, hnew, fun heq => hnew (heq ▸ hknows), hsound.generate_notMem,
      annotated_of_keyless hs hsound scope entry⟩

/-- A text that is described as a tag is listed, and the list is described as tags.  Then somebody
writes under a key of their own, a pair is made of the text and a number, and a flag is described.
The text shows what was said of the list, and the registry has three entries. -/
theorem entry_follows_value_of_listed_tag :
    let told (title : String) : Entry := ⟨some title, none, [], false, []⟩
    let tag := (ofType .string).annotate .shared (told "tag") .empty
    let tags := tag.1.many.annotate .shared (told "tags") tag.2
    let written := tags.2.write .shared (.named "user") (told "user")
    let flag := (ofType .boolean).annotate .shared (told "flag") written
    let pair := tag.1.and (ofType .integer)
    tag.1.shown? flag.2 = some (told "tags") ∧ pair.shown? flag.2 = some (told "tags") ∧
      flag.1.shown? flag.2 = some (told "flag") ∧ (flag.2.registry .shared).size = 3 := by
  intro told tag tags written flag pair
  have htag : Annotated ⟨.shared, .generated 0⟩ tag.1 tag.2 :=
    (annotated_of_keyless rfl Store.sound_empty .shared (told "tag")).1
  have hlisted : History ⟨.shared, .generated 0⟩ tag.1 tag.2 [] [tag.1.many, tag.1] tag.2 :=
    History.start.build List.mem_cons_self (.many _)
  have hwritten := (hlisted.annotate List.mem_cons_self (told "tags")).insert
    ⟨.shared, .named "user"⟩ (told "user") trivial
  have hkeyless : (ofType .boolean).handle? = none := rfl
  have hflag := hwritten.elsewhere hkeyless .shared (told "flag")
  have hpair := hflag.build (List.mem_of_getLast? rfl) (.and tag.1 (ofType .integer))
  obtain ⟨hkin, hshown, hsize, -⟩ := entry_follows_value htag hpair
  refine ⟨(hkin tag.1 (List.mem_of_getLast? rfl)).2, (hkin pair List.mem_cons_self).2,
    hshown ⟨.shared, .generated 1⟩, hsize .shared⟩

end Validator

end Conform
