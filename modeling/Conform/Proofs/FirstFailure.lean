import Conform.Proofs.Assembly
import Conform.Proofs.SideBySide

set_option autoImplicit false

/-!
# The failure that comes first

The fault of a strict run is the failure that a tolerant run records first.  A strict run builds the
key of its fault from the inside out, segment by segment, and a tolerant run files the failures of
each part under the segment of that part; both come to the same key.  Only a union tells them apart:
a strict run names the union, where a tolerant run lists the failures of its first alternative.

## Main definitions

* `Conform.Account.opening` — the key of the fault is related to the key recorded first.
* `Conform.Path.NamesUnion` — a key that names a union, and a key inside its first alternative.

## Main results

* `Conform.Validator.strict_failure_first` — the fault of a strict parse and the first failure of a
  tolerant one.
-/

namespace Conform

/-! ## Keys related to the one recorded first -/

/-- The first key names a union somewhere in a value, the second one a failure in the first
alternative of that union. -/
def Path.NamesUnion (key first : String) : Prop :=
  ∃ places inner, key = Path.qualify (Path.trail places) Fault.unionCheck ∧
    first = Path.qualify (Path.trail places) (Path.qualify (Path.alternative 0) inner)

/-- Seen from an enclosing list or tuple, a key names the same union. -/
theorem Path.NamesUnion.placed {key first : String} (h : Path.NamesUnion key first) (index : Nat) :
    Path.NamesUnion (Path.qualify (Path.position index) key)
      (Path.qualify (Path.position index) first) := by
  obtain ⟨places, inner, rfl, rfl⟩ := h
  refine ⟨index :: places, inner, ?_, ?_⟩
  · rw [Path.qualify_trail_cons]
  · rw [Path.qualify_trail_cons]

namespace Account

variable {related : String → String → Prop}

/-- The key of the fault is related to the key that was recorded first. -/
def opening (related : String → String → Prop) : Account := fun fault failures =>
  ∃ key first, fault.key? = some key ∧ failures.keys.head? = some first ∧ related key first

/-- **Nothing recorded later moves the failure that came first**, so that the keys stay related. -/
theorem lawful_opening (hrefl : ∀ key, related key key)
    (hplaced : ∀ key first, related key first → ∀ index,
      related (Path.qualify (Path.position index) key)
        (Path.qualify (Path.position index) first)) :
    (opening related).Lawful where
  recordable {fault _} h := by
    obtain ⟨key, first, hkey, -, -⟩ := h
    cases fault with
    | configuration kind => exact nomatch hkey
    | _ => rfl
  nonempty {_ failures} h := by
    obtain ⟨key, first, -, hfirst, -⟩ := h
    cases hempty : failures.isEmpty with
    | false => rfl
    | true =>
      rw [Failures.eq_empty_of_isEmpty hempty] at hfirst
      exact nomatch hfirst
  refused {fault key} hkey := ⟨key, key, hkey, rfl, hrefl key⟩
  recorded key message h := by
    obtain ⟨known, first, hkey, hfirst, hrelated⟩ := h
    exact ⟨known, first, hkey, Failures.head?_record hfirst key message, hrelated⟩
  placed {fault _} index h := by
    obtain ⟨key, first, hkey, hfirst, hrelated⟩ := h
    refine ⟨_, _, ?_, Failures.head?_absorb _ hfirst, hplaced key first hrelated index⟩
    rw [Fault.key?_under, hkey, Option.map_some]

/-- Where there is no union, the two keys are one. -/
theorem lawful_opening_eq : (opening Eq).Lawful :=
  lawful_opening (fun _ => rfl) fun _ _ h _ => h ▸ rfl

/-- The two keys are one, or the first one names a union. -/
theorem lawful_opening_or : (opening fun key first => key = first ∨ Path.NamesUnion key first).Lawful :=
  lawful_opening (fun _ => Or.inl rfl) fun key first h index => by
    obtain rfl | hnames := h
    · exact Or.inl rfl
    · exact Or.inr (hnames.placed index)

/-- **A union that fails is named in place of the failures of its first alternative**, whatever
these are. -/
theorem ofUnions_opening_or :
    (opening fun key first => key = first ∨ Path.NamesUnion key first).OfUnions := by
  rintro fault failures ⟨-, first, -, hfirst, -⟩ message
  refine ⟨Fault.unionCheck, _, rfl, Failures.head?_absorb _ hfirst, Or.inr ⟨[], first, ?_, ?_⟩⟩
  · rw [Path.trail, Path.qualify_empty_left]
  · rw [Path.trail, Path.qualify_empty_left]

end Account

/-! ## Parsing -/

/-- Where the tolerant run comes to an outcome, a strict run that stopped did so with a fault, of
which the failures recorded tell. -/
theorem Parallel.exists_fault {α : Type} {tells : Account} {strict tolerant : Run (Outcome α)}
    (h : Parallel tells strict tolerant) {outcome : Outcome α} {stop : Stop}
    (ht : tolerant.result = .ok outcome) (hs : strict.result = .error stop) :
    ∃ fault, stop = .fault fault ∧ tells fault outcome.failures := by
  unfold Parallel Run.Tracks at h
  rw [ht, hs] at h
  cases stop with
  | fault fault => exact ⟨fault, rfl, h⟩
  | panic => exact h.elim

namespace Validator

/-- **The fault of a strict parse is the first failure of a tolerant one.**  Where the tolerant
parse does not panic and the strict one is refused, the strict one stops with a fault that has a
key, and the tolerant one reports failures.  The key of the fault is the one that comes first among
them, or it names a union at some place in the value and the first failure is one of the first
alternative of that union; without unions the keys are one.  A failure that is recorded again leaves
the first one where it is.

**Proof sketch.** Both runs go side by side (`evaluate_parallel`), with the key of the fault related
to the key that was recorded first (`lawful_opening_or`, and `lawful_opening_eq` if there are no
unions). -/
theorem strict_failure_first {validator : Validator} (h : validator.Composed)
    {scheduling : Scheduling} (hp : scheduling.Permits validator.requiresAsync)
    (store : Metadata.Store) (value : Value)
    (hpanic : (validator.parse store ⟨.tolerant, scheduling⟩ value).result ≠ .error .panic)
    {stop : Stop}
    (hs : (validator.parse store ⟨.strict, scheduling⟩ value).result = .error stop) :
    ∃ fault key report first,
      stop = .fault fault ∧ fault.key? = some key ∧
      (validator.parse store ⟨.tolerant, scheduling⟩ value).result = .ok report ∧
      report.outcome.failures.keys.head? = some first ∧
      (validator.UnionFree → key = first) ∧
      (key = first ∨ ∃ places inner, key = Path.qualify (Path.trail places) Fault.unionCheck ∧
        first = Path.qualify (Path.trail places) (Path.qualify (Path.alternative 0) inner)) ∧
      ∀ again message,
        (report.outcome.failures.record again message).keys.head? = some first := by
  have hstrict : (validator.evaluate ⟨.strict, scheduling⟩ value).result = .error stop :=
    (parse_error_iff h hp).mp hs
  obtain ⟨outcome, htolerant⟩ := exists_outcome h hp fun hpanic' =>
    hpanic ((parse_error_iff h hp).mpr hpanic')
  have hreport : (validator.parse store ⟨.tolerant, scheduling⟩ value).result
      = .ok ⟨outcome, validator.shown? store⟩ := (parse_ok_iff h hp).mpr ⟨htolerant, rfl⟩
  obtain ⟨fault, rfl, key, first, hkey, hfirst, hnames⟩ :=
    (evaluate_parallel Account.lawful_opening_or h (Or.inl Account.ofUnions_opening_or) scheduling
      value).exists_fault htolerant hstrict
  refine ⟨fault, key, _, first, rfl, hkey, hreport, hfirst, fun hfree => ?_, hnames,
    fun again message => Failures.head?_record hfirst again message⟩
  obtain ⟨other, hother, known, head, hknown, hhead, heq⟩ :=
    (evaluate_parallel Account.lawful_opening_eq h (Or.inr hfree) scheduling
      value).exists_fault htolerant hstrict
  obtain rfl : fault = other := Stop.fault.inj hother
  rw [hkey] at hknown
  rw [hfirst] at hhead
  exact (Option.some.inj hknown).trans (heq.trans (Option.some.inj hhead).symm)

/-- A list of texts and integers is refused because of its second item.  A strict parse names the
union there, a tolerant one lists first that the item is no text. -/
theorem strict_failure_first_of_second_item :
    let validator := ((ofType .string).or (ofType .integer)).many
    let items : Value := .arr [.str "a", .null]
    let summary := "no alternative matched (@0.type: expected string, received null; "
      ++ "@1.type: expected integer, received null)"
    validator.Composed ∧ Scheduling.sync.Permits validator.requiresAsync ∧
      (validator.parse .empty ⟨.tolerant, .sync⟩ items).result ≠ .error .panic ∧
      (validator.parse .empty ⟨.strict, .sync⟩ items).result
        = .error (.fault (.validation "[1].union" summary)) ∧
      ∃ report places inner,
        (validator.parse .empty ⟨.tolerant, .sync⟩ items).result = .ok report ∧
        report.outcome.failures.keys.head? = some "[1].@0.type" ∧
        "[1].union" = Path.qualify (Path.trail places) Fault.unionCheck ∧
        "[1].@0.type"
          = Path.qualify (Path.trail places) (Path.qualify (Path.alternative 0) inner) := by
  intro validator items summary
  have h : validator.Composed := composed_or trivial trivial
  have hp : Scheduling.sync.Permits validator.requiresAsync := fun _ => rfl
  have hpanic : (validator.parse .empty ⟨.tolerant, .sync⟩ items).result ≠ .error .panic := nofun
  have hs : (validator.parse .empty ⟨.strict, .sync⟩ items).result
      = .error (.fault (.validation "[1].union" summary)) := rfl
  refine ⟨h, hp, hpanic, hs, ?_⟩
  obtain ⟨fault, key, report, first, hstop, hkey, hreport, hfirst, -, hnames, -⟩ :=
    strict_failure_first h hp .empty items hpanic hs
  obtain rfl : key = "[1].union" := by
    rw [← Stop.fault.inj hstop] at hkey
    exact (Option.some.inj hkey).symm
  obtain rfl : first = "[1].@0.type" := by
    have hreported : (validator.parse .empty ⟨.tolerant, .sync⟩ items).result.map
        (fun report => report.outcome.failures.keys.head?) = .ok (some "[1].@0.type") := rfl
    rw [hreport] at hreported
    exact Option.some.inj (hfirst.symm.trans (Except.ok.inj hreported))
  obtain ⟨places, inner, hunion, hinner⟩ := hnames.resolve_left (by decide)
  exact ⟨report, places, inner, hreport, hfirst, hunion, hinner⟩

end Validator

end Conform
