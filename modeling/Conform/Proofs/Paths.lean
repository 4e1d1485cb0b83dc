import Conform.Path

set_option autoImplicit false

/-!
# Laws of failure keys

A key is read from the outside in: a segment put before a key can be put there in one step or in
several, and the positions and alternatives that a key opens with can be read off it again.

## Main definitions

* `Conform.Path.attached` — the characters of a key as they follow a segment.
* `Conform.Path.trail` — the positions on the way to a place in a value, as one segment.
* `Conform.Path.Separates` — numbered segments, each of which shows in the keys that open with it.
* `Conform.Path.Step` — a position or an alternative, as one step on the way to a failure.

## Main results

* `Conform.Path.qualify_assoc` — segments are put before a key in one step or in several.
* `Conform.Path.qualify_position_inj` — a key that opens with a position shows that position and
  the rest.
* `Conform.Path.separates_position`, `Conform.Path.separates_alternative` — positions and
  alternatives are told apart.
* `Conform.Path.foldr_qualify_inj` — a key shows every step of the way that it opens with.
-/

namespace Conform.Path

/-! ## Characters -/

/-- The characters of a key as they follow a segment. -/
def attached : List Char → List Char
  | [] => []
  | '[' :: rest => '[' :: rest
  | key => '.' :: key

theorem attached_cons_append (c : Char) (front rest : List Char) :
    attached (c :: front ++ rest) = attached (c :: front) ++ rest := by
  by_cases hc : c = '['
  · subst hc
    rfl
  · simp [attached, hc]

/-- The characters of a key are known from how they follow a segment. -/
theorem attached_injective {key key' : List Char} (h : attached key = attached key') :
    key = key' := by
  unfold attached at h
  split at h <;> split at h <;> simp_all

theorem toList_qualify {segment : String} (hs : segment ≠ "") (key : String) :
    (qualify segment key).toList = segment.toList ++ attached key.toList := by
  unfold qualify attached
  rw [if_neg hs]
  split <;> simp_all

theorem qualify_ne_empty {segment : String} (hs : segment ≠ "") (key : String) :
    qualify segment key ≠ "" := by
  intro hq
  have hlist := toList_qualify hs key
  rw [hq] at hlist
  simp_all

/-! ## Several segments -/

/-- **Segments are put before a key in one step or in several.** -/
theorem qualify_assoc (outer inner key : String) :
    qualify outer (qualify inner key) = qualify (qualify outer inner) key := by
  by_cases ho : outer = ""
  · subst ho
    simp
  by_cases hi : inner = ""
  · subst hi
    simp
  obtain ⟨c, front, hfront⟩ := List.exists_cons_of_ne_nil
    (fun h => hi (String.toList_eq_nil_iff.mp h))
  apply String.toList_injective
  rw [toList_qualify ho, toList_qualify hi, toList_qualify (qualify_ne_empty ho inner),
    toList_qualify ho, hfront, attached_cons_append, List.append_assoc]

/-- The positions on the way to a place in a value, the outermost first, as one segment. -/
def trail : List Nat → String
  | [] => ""
  | index :: rest => qualify (position index) (trail rest)

/-- One more position on the way. -/
theorem qualify_trail_cons (index : Nat) (places : List Nat) (key : String) :
    qualify (trail (index :: places)) key = qualify (position index) (qualify (trail places) key) :=
  (qualify_assoc _ _ _).symm

/-! ## Positions -/

theorem position_ne_empty (index : Nat) : position index ≠ "" := by
  intro h
  have hlist := congrArg String.toList h
  simp [position] at hlist

/-- A key that opens with a position opens with a bracket. -/
theorem head?_qualify_position (index : Nat) (key : String) :
    (qualify (position index) key).toList.head? = some '[' := by
  rw [toList_qualify (position_ne_empty index)]
  simp [position]

/-- A character that is in neither of two texts marks the end of both. -/
theorem eq_of_append_cons_eq {c : Char} {rest rest' : List Char} :
    ∀ {front front' : List Char}, c ∉ front → c ∉ front' →
      front ++ c :: rest = front' ++ c :: rest' → front = front' ∧ rest = rest'
  | [], [], _, _, h => ⟨rfl, by simpa using h⟩
  | [], d :: later', _, hf', h => by
    have hd : c = d := (List.cons.inj h).1
    exact absurd (hd ▸ List.mem_cons_self) hf'
  | d :: later, [], hf, _, h => by
    have hd : d = c := (List.cons.inj h).1
    exact absurd (hd ▸ List.mem_cons_self) hf
  | d :: later, d' :: later', hf, hf', h => by
    obtain ⟨rfl, hlater⟩ := List.cons.inj h
    obtain ⟨rfl, hrest⟩ := eq_of_append_cons_eq (fun hm => hf (List.mem_cons_of_mem _ hm))
      (fun hm => hf' (List.mem_cons_of_mem _ hm)) hlater
    exact ⟨rfl, hrest⟩

/-- A number is known from its digits. -/
theorem toString_injective {m n : Nat} (h : (toString m).toList = (toString n).toList) : m = n := by
  have hdigits : Nat.toDigits 10 m = Nat.toDigits 10 n := by
    simpa only [Nat.toString_eq_repr, Nat.toList_repr] using h
  have hread := congrArg (fun digits => Nat.ofDigitChars 10 digits 0) hdigits
  simpa using hread

/-- A number is written in digits. -/
theorem isDigit_of_mem_toString {n : Nat} {c : Char} (h : c ∈ (toString n).toList) :
    c.isDigit = true := by
  rw [Nat.toString_eq_repr, Nat.toList_repr] at h
  exact Nat.isDigit_of_mem_toDigits (by omega) (by omega) h

/-- The digits of a number do not close a bracket. -/
theorem bracket_notMem_toString (n : Nat) : ']' ∉ (toString n).toList :=
  fun h => absurd (isDigit_of_mem_toString h) (by decide)

/-- **A key that opens with a position shows that position and the rest.** -/
theorem qualify_position_inj {i j : Nat} {key key' : String} :
    qualify (position i) key = qualify (position j) key' ↔ i = j ∧ key = key' := by
  constructor
  · intro h
    have hlist := congrArg String.toList h
    rw [toList_qualify (position_ne_empty i), toList_qualify (position_ne_empty j)] at hlist
    simp only [position, String.toList_append, List.append_assoc] at hlist
    have hbody : (toString i).toList ++ ']' :: attached key.toList
        = (toString j).toList ++ ']' :: attached key'.toList := by
      simpa using hlist
    obtain ⟨hindex, hkey⟩ := eq_of_append_cons_eq (bracket_notMem_toString i)
      (bracket_notMem_toString j) hbody
    exact ⟨toString_injective hindex, String.toList_injective (attached_injective hkey)⟩
  · rintro ⟨rfl, rfl⟩
    rfl

/-- A key that opens with one position opens with no other one. -/
theorem position_prefix_iff {i j : Nat} {key : String} :
    (position i).toList <+: (qualify (position j) key).toList ↔ i = j := by
  rw [toList_qualify (position_ne_empty j)]
  constructor
  · rintro ⟨rest, h⟩
    simp only [position, String.toList_append, List.append_assoc] at h
    have hbody : (toString i).toList ++ ']' :: rest
        = (toString j).toList ++ ']' :: attached key.toList := by simpa using h
    exact toString_injective
      (eq_of_append_cons_eq (bracket_notMem_toString i) (bracket_notMem_toString j) hbody).1
  · rintro rfl
    exact List.prefix_append _ _

/-! ## Alternatives -/

theorem alternative_ne_empty (index : Nat) : alternative index ≠ "" := by
  intro h
  have hlist := congrArg String.toList h
  simp [alternative] at hlist

/-- Two texts that go on with something else than digits show the digits they open with. -/
theorem eq_of_digits_append_eq {digits digits' rest rest' : List Char}
    (hd : ∀ c ∈ digits, c.isDigit = true) (hd' : ∀ c ∈ digits', c.isDigit = true)
    (hr : rest.takeWhile Char.isDigit = []) (hr' : rest'.takeWhile Char.isDigit = [])
    (h : digits ++ rest = digits' ++ rest') : digits = digits' ∧ rest = rest' := by
  have htaken := congrArg (List.takeWhile Char.isDigit) h
  rw [List.takeWhile_append_of_pos hd, List.takeWhile_append_of_pos hd', hr, hr', List.append_nil,
    List.append_nil] at htaken
  subst htaken
  exact ⟨rfl, List.append_cancel_left h⟩

/-- What follows a segment is no further digit. -/
theorem takeWhile_isDigit_attached (key : List Char) :
    (attached key).takeWhile Char.isDigit = [] := by
  unfold attached
  split <;> simp

/-- **A key that opens with an alternative shows that alternative and the rest**: the number of the
alternative ends where its digits end. -/
theorem qualify_alternative_inj {i j : Nat} {key key' : String} :
    qualify (alternative i) key = qualify (alternative j) key' ↔ i = j ∧ key = key' := by
  constructor
  · intro h
    have hlist := congrArg String.toList h
    rw [toList_qualify (alternative_ne_empty i), toList_qualify (alternative_ne_empty j)] at hlist
    simp only [alternative, String.toList_append, List.append_assoc] at hlist
    have hbody : (toString i).toList ++ attached key.toList
        = (toString j).toList ++ attached key'.toList := by
      simpa using hlist
    obtain ⟨hindex, hkey⟩ := eq_of_digits_append_eq (fun _ => isDigit_of_mem_toString)
      (fun _ => isDigit_of_mem_toString) (takeWhile_isDigit_attached _)
      (takeWhile_isDigit_attached _) hbody
    exact ⟨toString_injective hindex, String.toList_injective (attached_injective hkey)⟩
  · rintro ⟨rfl, rfl⟩
    rfl

/-! ## Numbered segments -/

/-- **Numbered segments that separate keys**: a key that opens with one of them shows which one it
is, and the rest. -/
def Separates (segment : Nat → String) : Prop :=
  ∀ {i j : Nat} {key key' : String},
    qualify (segment i) key = qualify (segment j) key' → i = j ∧ key = key'

theorem separates_position : Separates position := qualify_position_inj.mp

theorem separates_alternative : Separates alternative := qualify_alternative_inj.mp

/-- A segment of its own number keeps keys apart. -/
theorem Separates.injective {segment : Nat → String} (h : Separates segment) (index : Nat) :
    Function.Injective (qualify (segment index)) := fun _ _ heq => (h heq).2

/-! ## Positions and alternatives together -/

/-- A key that opens with a position opens with no alternative: their first characters differ. -/
theorem qualify_position_ne_alternative (i j : Nat) (key key' : String) :
    qualify (position i) key ≠ qualify (alternative j) key' := by
  intro h
  have hopens := head?_qualify_position i key
  rw [h, toList_qualify (alternative_ne_empty j)] at hopens
  simp [alternative] at hopens

/-- One step on the way to a failure: into an item of a list or a tuple, or into an alternative of a
union. -/
inductive Step where
  | position (index : Nat)
  | alternative (index : Nat)
  deriving DecidableEq, Repr

/-- The segment of a step. -/
def Step.segment : Step → String
  | position index => Path.position index
  | alternative index => Path.alternative index

/-- **A key shows the step that it opens with**, and the rest. -/
theorem qualify_segment_inj {step step' : Step} {key key' : String} :
    qualify step.segment key = qualify step'.segment key' ↔ step = step' ∧ key = key' := by
  cases step with
  | position i =>
    cases step' with
    | position j => simpa [Step.segment] using qualify_position_inj
    | alternative j => simpa [Step.segment] using qualify_position_ne_alternative i j key key'
  | alternative i =>
    cases step' with
    | position j => simpa [Step.segment] using (qualify_position_ne_alternative j i key' key).symm
    | alternative j => simpa [Step.segment] using qualify_alternative_inj

/-- **A key shows the way that it opens with, step by step**, if it is known how many steps there
are.  A check may have a name that looks like further steps, so that their number does not show. -/
theorem foldr_qualify_inj {key key' : String} :
    ∀ {steps steps' : List Step}, steps.length = steps'.length →
      (steps.foldr (fun step => qualify step.segment) key
          = steps'.foldr (fun step => qualify step.segment) key' ↔ steps = steps' ∧ key = key')
  | [], [], _ => by simp
  | step :: rest, step' :: rest', h => by
    have hrest : rest.length = rest'.length := Nat.succ.inj h
    rw [List.foldr_cons, List.foldr_cons, qualify_segment_inj, foldr_qualify_inj hrest,
      List.cons.injEq, and_assoc]

end Conform.Path
