import Conform.Proofs.OutcomeInvariant

set_option autoImplicit false

/-!
# Values of another kind

A leaf, a list and a tuple ask something of a value before anything else: that it can be held, or
that it is an array.  A value that does not meet this is refused under the name `type`, and the
message tells the kind that was asked for and the kind that came.

The message goes by the kind of the value, and the leaf by what it can hold.  These are two
classifications, and they agree on every value but one sort: an integer that does not fit a signed
word is of the kind of integers, and no leaf of integers can hold it.  Such an integer is refused as
"expected integer, received integer"; every other refusal names two kinds that differ, the second of
which the validator never takes.

A check of the user may have the name `type` and any message, but such a check is called before it
fails.  A refusal for the kind of a value is therefore told by a run that calls nothing.

## Main definitions

* `Conform.Form` — what a leaf, a list or a tuple asks of a value before anything else.
* `Conform.Form.holds`, `Conform.Form.Takes` — by the value itself, and by its kind.
* `Conform.Form.Exceeds` — an integer that does not fit a signed word, for a leaf of integers.
* `Conform.Validator.Mismatches` — a value is refused for its kind, and nothing is called.
* `Conform.Run.Discreet` — a run that calls nothing has nothing to say of kinds.

## Main results

* `Conform.Form.holds_iff` — where the two classifications agree.
* `Conform.Validator.mismatches_iff` — which values are refused for their kind.
* `Conform.Validator.mismatches_name_kinds` — what such a refusal says.
* `Conform.Validator.wide_integer_misreported` — the one sort of refusal that misleads.
-/

namespace Conform

variable {α β : Type} {strategy : Strategy}

/-! ## Two classifications -/

/-- **What a validator asks of a value before anything else**: that a leaf of some type can hold it,
or that it is an array. -/
inductive Form where
  | single (type : LeafType)
  | array
  deriving DecidableEq, Repr

namespace Form

/-- What a message says was expected. -/
def name : Form → String
  | single type => type.name
  | array => "array"

/-- Whether a value meets what is asked: the leaf can hold it, or it has items. -/
def holds : Form → Value → Bool
  | single type, value => (type.read? value).isSome
  | array, value => value.items?.isSome

/-- **The kinds that a form is for**: the kind of its own name, for numbers the integers as well,
and for a leaf of any value all of them. -/
def Takes (form : Form) (kind : Kind) : Prop :=
  kind.name = form.name ∨ form = single .number ∧ kind = .integer ∨ form = single .any

instance (form : Form) (kind : Kind) : Decidable (form.Takes kind) :=
  inferInstanceAs (Decidable (_ ∨ _))

/-- An integer is asked for, and the value is one that does not fit a signed word. -/
def Exceeds (form : Form) (value : Value) : Prop :=
  form = single .integer ∧ ∃ i, value = .int i ∧ ¬ Value.InWord i

/-- What exceeds a form has the kind that the form is named for. -/
theorem Exceeds.name_eq {form : Form} {value : Value} (h : form.Exceeds value) :
    value.kind.name = form.name := by
  obtain ⟨rfl, i, rfl, -⟩ := h
  rfl

/-- Where an integer exceeds a form, another integer meets it. -/
theorem Exceeds.exists_holds {form : Form} {value : Value} (h : form.Exceeds value) :
    ∃ other : Value, other.kind = value.kind ∧ form.holds other = true := by
  obtain ⟨rfl, i, rfl, -⟩ := h
  exact ⟨.int 0, rfl, rfl⟩

/-- **Where the two classifications agree.**  A value meets what is asked exactly if its kind is one
that the form is for, but for an integer that exceeds the form.

**Proof sketch.** By the form and the value.  Whether the names of two kinds are equal is decided by
spelling them; only for an integer and a leaf of integers does the value matter beyond its kind. -/
theorem holds_iff (form : Form) (value : Value) :
    form.holds value = true ↔ form.Takes value.kind ∧ ¬ form.Exceeds value := by
  cases form with
  | array =>
    cases value <;> simp [holds, Value.items?, Takes, Exceeds, Value.kind, Kind.name, name]
  | single type =>
    cases type with
    | integer =>
      cases value with
      | int i =>
        by_cases hi : Value.InWord i <;>
          simp [holds, LeafType.read?, Value.toInt64?, hi, Takes, Exceeds, Value.kind, Kind.name,
            name, LeafType.name]
      | _ =>
        simp [holds, LeafType.read?, Value.toInt64?, Takes, Exceeds, Value.kind, Kind.name, name,
          LeafType.name]
    | _ =>
      cases value <;>
        simp [holds, LeafType.read?, Value.toFloat?, Takes, Exceeds, Value.kind, Kind.name, name,
          LeafType.name]

-- an integer is a number as well, but a number with a fraction is no integer
example : (single .number).Takes .integer ∧ ¬ (single .integer).Takes .number := by decide

end Form

/-! ## Runs that call nothing -/

/-- A key inside an item is not the name of a kind mismatch. -/
theorem Path.qualify_position_ne_typeCheck (index : Nat) (key : String) :
    Path.qualify (Path.position index) key ≠ Fault.typeCheck := by
  intro h
  have hopens := Path.head?_qualify_position index key
  rw [h] at hopens
  exact absurd hopens (by decide)

/-- The failures of an item are not filed under the name of a kind mismatch. -/
theorem Failures.get?_typeCheck_absorb {failures : Failures}
    (h : failures.get? Fault.typeCheck = none) (index : Nat) (part : Failures) :
    (failures.absorb (Path.position index) part).get? Fault.typeCheck = none := by
  rw [get?_absorb, h, Option.or_none, Option.eq_none_iff_forall_not_mem]
  intro message hmessage
  obtain ⟨inner, hkey, -⟩ := get?_absorb_position.mp hmessage
  exact Path.qualify_position_ne_typeCheck index inner hkey.symm

/-- **A discreet run**: if it calls nothing, it comes to a good result, and a fault that it stops
with is not filed under the name of a kind mismatch. -/
def Run.Discreet (good : α → Prop) (run : Run α) : Prop :=
  run.trace = [] → run.Ends good fun fault => fault.key? ≠ some Fault.typeCheck

/-- Nothing is recorded under the name of a kind mismatch. -/
def Outcome.Unmarked (outcome : Outcome α) : Prop :=
  outcome.failures.get? Fault.typeCheck = none

namespace Run

variable {good : α → Prop} {good' : β → Prop}

theorem discreet_pure {a : α} (h : good a) : (pure a : Run α).Discreet good := fun _ => h

/-- A run that begins with a call is discreet. -/
theorem discreet_call_bind {role : Role} {origin : Origin} {name : String} {subject : Value}
    {next : Unit → Run β} : (call role origin name subject >>= next).Discreet good' :=
  fun h => absurd h (List.cons_ne_nil _ _)

/-- **Discreet runs one after the other**: together they call nothing only if neither does. -/
theorem Discreet.bind {run : Run α} {next : α → Run β} (h : run.Discreet good)
    (hn : ∀ a, good a → (next a).Discreet good') : (run >>= next).Discreet good' := by
  intro htrace
  obtain ⟨trace, (fault | _) | a⟩ := run
  · exact h htrace
  · trivial
  · obtain ⟨hfirst, hnext⟩ := List.append_eq_nil_iff.mp htrace
    exact hn a (h hfirst) hnext

theorem Discreet.map {f : α → β} {run : Run α} (h : run.Discreet fun a => good' (f a)) :
    (f <$> run).Discreet good' := by
  rw [map_eq_pure_bind]
  exact h.bind fun a ha => discreet_pure ha

/-- Less may be said of the result of a discreet run. -/
theorem Discreet.mono {good'' : α → Prop} {run : Run α} (h : run.Discreet good)
    (hg : ∀ a, good a → good'' a) : run.Discreet good'' :=
  fun htrace => (h htrace).mono hg fun _ hf => hf

/-- What an item comes to is seen from its list, so that its fault is filed under its position. -/
theorem discreet_under_position (run : Run α) (index : Nat) :
    (run.under (Path.position index)).Discreet fun _ => True := by
  intro _
  obtain ⟨trace, (fault | _) | a⟩ := run
  · show (fault.under (Path.position index)).key? ≠ some Fault.typeCheck
    rw [Fault.key?_under]
    intro hkey
    obtain ⟨inner, -, hinner⟩ := Option.map_eq_some_iff.mp hkey
    exact Path.qualify_position_ne_typeCheck index inner hinner
  · trivial
  · trivial

end Run

/-- An operation is called, or it is a check that cannot be awaited. -/
theorem Operation.advance_discreet {good : Progress α → Prop} (kind : String)
    (progress : Progress α) (operation : Operation α) :
    (operation.advance strategy kind progress).Discreet good := by
  cases operation with
  | check c => exact Run.discreet_call_bind
  | asyncCheck c =>
    unfold advance
    cases strategy.scheduling with
    | sync => exact fun _ => nofun
    | async => exact Run.discreet_call_bind
  | transformation t => exact Run.discreet_call_bind

/-- **Operations that are not called leave the value alone.** -/
theorem Pipeline.run_discreet (kind : String) (pipeline : Pipeline α) (a : α) :
    (pipeline.run strategy kind a).Discreet (· = .success a) := by
  refine Run.Discreet.map ?_
  unfold resume
  cases pipeline.operations with
  | nil => exact Run.discreet_pure rfl
  | cons operation rest =>
    rw [List.foldlM_cons]
    have hfirst : (operation.advance strategy kind ⟨a, .empty⟩).Discreet fun _ => False :=
      operation.advance_discreet kind ⟨a, .empty⟩
    exact hfirst.bind fun _ h => h.elim

/-- What a validator's last operations add is called for. -/
theorem Core.finish_discreet (core : Core α) (kind : String) {outcome : Outcome α}
    (h : outcome.Unmarked) : (core.finish strategy kind outcome).Discreet Outcome.Unmarked := by
  unfold finish
  cases outcome.value with
  | none => exact Run.discreet_pure h
  | some a =>
    refine (core.pipeline.run_discreet kind a).bind fun own hown => ?_
    subst hown
    exact Run.discreet_pure h

/-- A refusal under another name is discreet. -/
theorem refuse_discreet {fault : Fault} {key : String} (hk : fault.key? = some key)
    (hne : key ≠ Fault.typeCheck) :
    (refuse strategy fault : Run (Outcome α)).Discreet Outcome.Unmarked := by
  intro _
  cases hm : strategy.mode with
  | strict =>
    rw [refuse_strict hm, Run.ends_fail, hk]
    exact fun h => hne (Option.some.inj h)
  | tolerant =>
    rw [refuse_tolerant hm hk, Run.ends_pure, Outcome.Unmarked, Outcome.failure, Failures.record,
      Keyed.get?_set, if_neg hne.symm]
    rfl

/-- A refusal for the kind of a value is not. -/
theorem not_discreet_refuse (expected : String) (value : Value) :
    ¬ (refuse strategy (.typeMismatch expected value) : Run (Outcome α)).Discreet
      Outcome.Unmarked := by
  intro h
  have hends := h (trace_refuse _ _)
  cases hm : strategy.mode with
  | strict =>
    rw [refuse_strict hm, Run.ends_fail] at hends
    exact hends rfl
  | tolerant =>
    rw [refuse_tolerant hm rfl, Run.ends_pure, Outcome.Unmarked, Outcome.failure, Failures.record,
      Keyed.get?_set, if_pos rfl] at hends
    exact Option.some_ne_none _ hends

/-- The message of a refusal tells what was expected. -/
theorem eq_of_message_eq {expected expected' : String} {value : Value}
    (h : (Fault.typeMismatch expected value).message
      = (Fault.typeMismatch expected' value).message) : expected = expected' := by
  have hreceived : "expected " ++ expected ++ ", received " ++ value.kind.name
      = "expected " ++ expected' ++ ", received " ++ value.kind.name := h
  have hexpected := (String.append_left_inj ", received ").mp
    ((String.append_left_inj value.kind.name).mp hreceived)
  exact (String.append_right_inj "expected ").mp hexpected

/-- Refusals for the kind of one value are told apart by what was expected. -/
theorem eq_of_refuse_eq {expected expected' : String} {value : Value}
    (h : (refuse strategy (.typeMismatch expected value) : Run (Outcome α))
      = refuse strategy (.typeMismatch expected' value)) : expected = expected' := by
  cases hm : strategy.mode with
  | strict =>
    rw [refuse_strict hm, refuse_strict hm] at h
    have hfault := Stop.fault.inj (Except.error.inj (congrArg Run.result h))
    exact eq_of_message_eq (congrArg Fault.message hfault)
  | tolerant =>
    rw [refuse_tolerant hm rfl, refuse_tolerant hm rfl] at h
    have houtcome := Except.ok.inj (congrArg Run.result h)
    have hentry := congrArg (fun outcome => outcome.failures.get? Fault.typeCheck) houtcome
    simp only [Outcome.failure, Failures.record, Keyed.get?_set, if_true] at hentry
    exact eq_of_message_eq (Option.some.inj hentry)

/-! ## Parts before the whole -/

/-- Items come to their outcomes discreetly. -/
theorem Items.outcomes_discreet (element : Evaluator) (position : Nat) (items : List Value) :
    (outcomes element position items).Discreet fun _ => True := by
  induction items generalizing position with
  | nil => exact Run.discreet_pure trivial
  | cons item rest ih =>
    refine (Run.discreet_under_position _ position).bind fun outcome _ => ?_
    exact (ih (position + 1)).bind fun later _ => Run.discreet_pure trivial

/-- No failure of an item is filed under the name of a kind mismatch. -/
theorem Items.get?_typeCheck_absorb {failures : Failures} {found : List (Outcome Value)}
    (h : failures.get? Fault.typeCheck = none) (position : Nat) :
    (absorb failures position found).get? Fault.typeCheck = none := by
  induction found generalizing failures position with
  | nil => exact h
  | cons outcome later ih => exact ih (Failures.get?_typeCheck_absorb h _ _) _

/-- A list says nothing of the kind of an array. -/
theorem Items.evaluate_discreet (element : Evaluator) (core : Core (List Value))
    (items : List Value) :
    (evaluate strategy element core (.arr items)).Discreet Outcome.Unmarked := by
  refine (core.pipeline.run_discreet "list" items).bind fun own hown => ?_
  subst hown
  refine (outcomes_discreet element 0 items).bind fun found _ => ?_
  exact Run.discreet_pure (get?_typeCheck_absorb rfl 0)

/-- Positions are gathered discreetly. -/
theorem Positions.gather_discreet {arity : Nat} (elements : Fin arity → Evaluator)
    (items : Vector Value arity) :
    ∀ (k : Nat) (h : k ≤ arity), (gather elements items k h).Discreet fun gathered =>
      gathered.failures.get? Fault.typeCheck = none
  | 0, _ => Run.discreet_pure rfl
  | k + 1, h => by
    refine (gather_discreet elements items k (Nat.le_of_succ_le h)).bind fun before hbefore => ?_
    refine (Run.discreet_under_position _ k).bind fun outcome _ => ?_
    exact Run.discreet_pure (Failures.get?_typeCheck_absorb hbefore k outcome.failures)

/-- A tuple says nothing of the kind of an array; of its length it may. -/
theorem Positions.evaluateArray_discreet {arity : Nat} (elements : Fin arity → Evaluator)
    (core : Core (Vector Value arity)) (items : List Value) :
    (evaluateArray strategy elements core (.arr items)).Discreet Outcome.Unmarked := by
  have hevaluate : (evaluate strategy elements items).Discreet Outcome.Unmarked := by
    unfold evaluate
    cases Value.exactly? arity items with
    | none => exact refuse_discreet rfl (by decide)
    | some exact =>
      refine (gather_discreet elements exact arity (Nat.le_refl arity)).bind fun gathered h => ?_
      exact Run.discreet_pure h
  refine hevaluate.bind fun outcome houtcome => ?_
  refine (core.finish_discreet "tuple" houtcome).bind fun finished hfinished => ?_
  exact Run.discreet_pure hfinished

/-! ## Refusals for the kind of a value -/

namespace Validator

/-- What a leaf, a list or a tuple asks of a value before anything else; the other validators ask
nothing by themselves. -/
def form? : Validator → Option Form
  | leaf type _ => some (.single type)
  | list .. => some .array
  | tuple .. => some .array
  | _ => none

/-- **A value is refused for its kind**: the run calls nothing and ends with the refusal, or records
it as the mode wants it. -/
def Mismatches (strategy : Strategy) (validator : Validator) (expected : String)
    (value : Value) : Prop :=
  validator.evaluate strategy value = refuse strategy (.typeMismatch expected value)

variable {validator : Validator} {form : Form} {value : Value}

/-- A value that does not meet what is asked is refused for its kind. -/
theorem evaluate_of_not_holds (h : validator.form? = some form) (hv : form.holds value = false) :
    validator.Mismatches strategy form.name value := by
  cases validator with
  | leaf type core =>
    obtain rfl : Form.single type = form := Option.some.inj h
    have hread : type.read? value = none := by simpa [Form.holds] using hv
    simp only [Mismatches, evaluate, Leaf.evaluate, hread, Form.name]
  | list element core =>
    obtain rfl : Form.array = form := Option.some.inj h
    have hitems : value.items? = none := by simpa [Form.holds] using hv
    simp only [Mismatches, evaluate, Items.evaluate, hitems, Form.name]
  | tuple arity elements core =>
    obtain rfl : Form.array = form := Option.some.inj h
    have hitems : value.items? = none := by simpa [Form.holds] using hv
    simp only [Mismatches, evaluate, Positions.evaluateArray, hitems, Form.name]
  | _ => exact absurd h (by simp [form?])

/-- What meets an array is an array. -/
theorem exists_arr_of_holds (hv : Form.array.holds value = true) : ∃ items, value = .arr items := by
  cases value with
  | arr items => exact ⟨items, rfl⟩
  | _ => exact absurd hv (by simp [Form.holds, Value.items?])

/-- A value that meets what is asked is taken up, and nothing is said of its kind. -/
theorem evaluate_discreet (h : validator.form? = some form) (hv : form.holds value = true) :
    (validator.evaluate strategy value).Discreet Outcome.Unmarked := by
  cases validator with
  | leaf type core =>
    obtain rfl : Form.single type = form := Option.some.inj h
    obtain ⟨a, hread⟩ := Option.isSome_iff_exists.mp hv
    simp only [evaluate, Leaf.evaluate, hread]
    refine Run.Discreet.map ((core.pipeline.run_discreet type.name a).mono fun own hown => ?_)
    subst hown
    rfl
  | list element core =>
    obtain rfl : Form.array = form := Option.some.inj h
    obtain ⟨items, rfl⟩ := exists_arr_of_holds hv
    exact Items.evaluate_discreet _ core items
  | tuple arity elements core =>
    obtain rfl : Form.array = form := Option.some.inj h
    obtain ⟨items, rfl⟩ := exists_arr_of_holds hv
    exact Positions.evaluateArray_discreet _ core items
  | _ => exact absurd h (by simp [form?])

/-- **A value is refused for its kind exactly if it does not meet what is asked**, and the refusal
names what that is. -/
theorem mismatches_iff (h : validator.form? = some form) {expected : String} :
    validator.Mismatches strategy expected value ↔
      expected = form.name ∧ form.holds value = false := by
  constructor
  · intro hm
    cases hv : form.holds value with
    | true =>
      have hdiscreet : (validator.evaluate strategy value).Discreet Outcome.Unmarked :=
        evaluate_discreet h hv
      rw [hm] at hdiscreet
      exact absurd hdiscreet (not_discreet_refuse expected value)
    | false =>
      exact ⟨eq_of_refuse_eq (hm.symm.trans (evaluate_of_not_holds h hv)), rfl⟩
  · rintro ⟨rfl, hv⟩
    exact evaluate_of_not_holds h hv

/-- A refusal under a name is what a caller is given. -/
theorem settle_refuse {fault : Fault} {key : String} (hk : fault.key? = some key) :
    settle strategy.mode (refuse strategy fault) = refuse strategy fault := by
  cases hm : strategy.mode with
  | strict =>
    rw [refuse_strict hm]
    rfl
  | tolerant =>
    rw [refuse_tolerant hm hk]
    rfl

/-- **A caller of a validator that may be run is given the refusal for the kind of a value.** -/
theorem parse_of_mismatches {expected : String}
    (hm : validator.Mismatches strategy expected value)
    (hp : strategy.scheduling.Permits validator.requiresAsync) (store : Metadata.Store) :
    validator.parse store strategy value
      = (fun outcome => ⟨outcome, validator.shown? store⟩) <$>
          refuse strategy (.typeMismatch expected value) := by
  rw [parse, ensureRunnable_of_permits hp, pure_bind, hm, settle_refuse rfl, ← bind_pure_comp]

/-- **What a refusal for the kind of a value says.**  For a leaf, a list and a tuple with any parts
and operations, for every value and in every way to run it:

* A leaf can hold a value, and a list or a tuple takes up its items, exactly if the value is of a
  kind that the validator is for and no integer that is too wide for a leaf of integers.
* Every other value is refused for its kind, before anything is called, and no other one is.  The
  refusal names what was asked for and the kind that came, and every caller is given it.
* The two kinds in a refusal are the same exactly if an integer is too wide for a leaf of integers.
  Only then does the validator take other values of the kind that the refusal says was received. -/
theorem mismatches_name_kinds (h : validator.form? = some form) (strategy : Strategy)
    (value : Value) :
    (form.holds value = true ↔ form.Takes value.kind ∧ ¬ form.Exceeds value) ∧
      ∀ expected,
        (validator.Mismatches strategy expected value ↔
          expected = form.name ∧ form.holds value = false) ∧
        (validator.Mismatches strategy expected value →
          (strategy.scheduling.Permits validator.requiresAsync → ∀ store,
            validator.parse store strategy value
              = (fun outcome => ⟨outcome, validator.shown? store⟩) <$>
                  refuse strategy (.typeMismatch expected value)) ∧
          (expected = value.kind.name ↔ form.Exceeds value) ∧
          ((∃ other : Value, other.kind = value.kind ∧
            ∀ expected', ¬ validator.Mismatches strategy expected' other) ↔
              form.Exceeds value)) := by
  refine ⟨form.holds_iff value, fun expected => ⟨mismatches_iff h, fun hm => ?_⟩⟩
  obtain ⟨rfl, hv⟩ := (mismatches_iff h).mp hm
  -- a value that is refused is too wide as soon as its kind is one that is taken
  have hexceeds (htakes : form.Takes value.kind) : form.Exceeds value := by
    by_contra hfits
    rw [(form.holds_iff value).mpr ⟨htakes, hfits⟩] at hv
    exact absurd hv (by decide)
  refine ⟨fun hp store => parse_of_mismatches hm hp store,
    ⟨fun hname => hexceeds (Or.inl hname.symm), fun hwide => hwide.name_eq.symm⟩,
    ?_, fun hwide => ?_⟩
  · rintro ⟨other, hkind, hother⟩
    have hholds : form.holds other = true := by
      by_contra hfalse
      exact hother form.name ((mismatches_iff h).mpr ⟨rfl, Bool.eq_false_iff.mpr hfalse⟩)
    exact hexceeds (hkind ▸ ((form.holds_iff other).mp hholds).1)
  · obtain ⟨other, hkind, hholds⟩ := hwide.exists_holds
    refine ⟨other, hkind, fun expected' hother => ?_⟩
    rw [((mismatches_iff h).mp hother).2] at hholds
    exact Bool.false_ne_true hholds

/-- A pair with a check that fails under the name `type`, in the words of a refusal.  An object is
refused for its kind; an array is not, whatever the check says of it. -/
theorem mismatches_name_kinds_of_misnamed_check :
    let check : Action :=
      .check "type" "expected array, received array" none fun _ => .answer false
    let pair := ((ofType .integer).and (ofType .string)).act check
    let array := Value.arr [.int 1, .str "a"]
    pair.form? = some .array ∧
      pair.Mismatches ⟨.tolerant, .sync⟩ "array" (.obj []) ∧
      (pair.parse .empty ⟨.tolerant, .sync⟩ (.obj [])).result
        = .ok ⟨.failure "type" "expected array, received object", none⟩ ∧
      "array" ≠ (Value.obj []).kind.name ∧
      (pair.evaluate ⟨.tolerant, .sync⟩ array).result
        = .ok ⟨some array, .ofList [("type", "expected array, received array")], none⟩ ∧
      ¬ pair.Mismatches ⟨.tolerant, .sync⟩ "array" array := by
  intro check pair array
  obtain ⟨-, hobject⟩ := @mismatches_name_kinds pair .array rfl ⟨.tolerant, .sync⟩ (.obj [])
  obtain ⟨-, harray⟩ := @mismatches_name_kinds pair .array rfl ⟨.tolerant, .sync⟩ array
  have hm : pair.Mismatches ⟨.tolerant, .sync⟩ "array" (.obj []) :=
    (hobject "array").1.mpr ⟨rfl, rfl⟩
  obtain ⟨hparse, hsame, -⟩ := (hobject "array").2 hm
  refine ⟨rfl, hm, ?_, fun hname => absurd (hsame.mp hname).1 (by decide), rfl,
    fun hmismatch => ?_⟩
  · rw [hparse (fun _ => rfl)]
    rfl
  · exact absurd ((harray "array").1.mp hmismatch).2 (by decide)

/-- **A leaf of integers does not take an integer that is too wide for a signed word, and says that
an integer was received.**  The integer before it still fits and is taken. -/
theorem wide_integer_misreported :
    let wide := Value.int 9223372036854775808
    let count := ofType .integer
    wide.kind.name = count.kind ∧ LeafType.integer.read? wide = none ∧
      (count.parse .empty ⟨.strict, .sync⟩ wide).result
        = .error (.fault (.validation "type" "expected integer, received integer")) ∧
      (count.parse .empty ⟨.tolerant, .sync⟩ wide).result
        = .ok ⟨.failure "type" "expected integer, received integer", none⟩ ∧
      (count.parse .empty ⟨.strict, .sync⟩ (.int 9223372036854775807)).result
        = .ok ⟨.success (.int 9223372036854775807), none⟩ ∧
      ¬ ∀ value : Value, (LeafType.integer.read? value).isSome = true ↔ value.kind = .integer := by
  intro wide count
  have hread : LeafType.integer.read? wide = none := rfl
  refine ⟨rfl, hread, rfl, rfl, rfl, fun hall => ?_⟩
  have hholds := (hall wide).mpr rfl
  rw [hread] at hholds
  exact Bool.false_ne_true hholds

end Validator

end Conform
