import Conform.Proofs.Acceptance
import Conform.Proofs.Assembly
import Conform.Proofs.FirstFailure

set_option autoImplicit false

/-!
# Ordered choice

A union is decided by the first of its alternatives that accepts the value.  Alternatives before it
are tried and leave nothing behind but their calls, alternatives after it are not tried at all, and
the operations of the union run on the value of the winner, come what may.

## Main definitions

* `Conform.Fault.recorded` — the failure that a fault is recorded as.
* `Conform.Choice.calls` — the calls of attempts, one after the other.
* `Conform.Choice.Leaves` — the failures that an attempt leaves behind if it comes to nothing.
* `Conform.Validator.Wins` — an alternative is the first one that accepts a value.

## Main results

* `Conform.Choice.evaluate_eq` — a union after alternatives that came to nothing.
* `Conform.Validator.ordered_choice` — what a union makes of a value that an alternative accepts,
  and of one that only a further alternative accepts.
-/

namespace Conform

/-- The failure that a fault is recorded as, alone; a configuration fault is not recorded. -/
def Fault.recorded (fault : Fault) : Failures :=
  match fault.key? with
  | some key => Failures.empty.record key fault.message
  | none => .empty

namespace Choice

/-! ## Attempts -/

/-- The calls of attempts on a value, one after the other. -/
def calls (value : Value) (alternatives : List Evaluator) : List Call :=
  alternatives.flatMap fun alternative => (alternative value).trace

theorem calls_cons (value : Value) (alternative : Evaluator) (rest : List Evaluator) :
    calls value (alternative :: rest) = (alternative value).trace ++ calls value rest := rfl

/-- An alternative that came to a value without a failure is a match. -/
theorem tryAll_matched {value produced : Value} {winner : Evaluator}
    (hw : (winner value).result = .ok (.success produced)) (rest : List Evaluator) (index : Nat)
    (failures : Failures) :
    tryAll value index (winner :: rest) failures
      = ⟨(winner value).trace, .ok (.matched produced)⟩ := by
  simp only [tryAll, Run.bind_eq, Run.attempt, hw]
  simp [Outcome.success, Outcome.isSuccess, Run.pure_eq]

/-- **What an attempt leaves behind** if it comes to nothing: the failures of its outcome, or the
one failure that its fault is recorded as. -/
inductive Leaves (value : Value) (alternative : Evaluator) : Failures → Prop where
  /-- The attempt recorded failures. -/
  | flawed {outcome : Outcome Value} : (alternative value).result = .ok outcome →
    outcome.isSuccess = false → Leaves value alternative outcome.failures
  /-- The attempt stopped with a fault. -/
  | refused {fault : Fault} : (alternative value).result = .error (.fault fault) →
    fault.isConfiguration = false → Leaves value alternative fault.recorded

/-- An attempt that comes to nothing is followed by the next one, and what it leaves is filed under
its number. -/
theorem tryAll_cons {value : Value} {alternative : Evaluator} {part : Failures}
    (h : Leaves value alternative part) (rest : List Evaluator) (index : Nat)
    (failures : Failures) :
    tryAll value index (alternative :: rest) failures
      = ⟨(alternative value).trace
            ++ (tryAll value (index + 1) rest
              (failures.absorb (Path.alternative index) part)).trace,
          (tryAll value (index + 1) rest
            (failures.absorb (Path.alternative index) part)).result⟩ := by
  cases h with
  | flawed hr hs =>
    simp only [tryAll, Run.bind_eq, Run.attempt, hr, hs]
    rfl
  | @refused fault hr hf =>
    obtain ⟨key, hkey, hunder, -⟩ := Fault.exists_key_under hf (Path.alternative index)
    have hfiled : failures.absorb (Path.alternative index) fault.recorded
        = failures.record (Path.qualify (Path.alternative index) key) fault.message := by
      rw [Fault.recorded, hkey]
      rfl
    rw [hfiled]
    simp only [tryAll, Run.bind_eq, Run.attempt, hr, hunder]

/-- An alternative that came to nothing leaves its calls and some failures behind. -/
theorem tryAll_missed {value : Value} {alternative : Evaluator}
    (hm : (alternative value).Missed) (rest : List Evaluator) (index : Nat) (failures : Failures) :
    ∃ left, tryAll value index (alternative :: rest) failures
      = ⟨(alternative value).trace ++ (tryAll value (index + 1) rest left).trace,
          (tryAll value (index + 1) rest left).result⟩ := by
  obtain ⟨outcome, hr, hs⟩ | ⟨fault, hr, hf⟩ := hm
  · exact ⟨_, tryAll_cons (.flawed hr hs) rest index failures⟩
  · exact ⟨_, tryAll_cons (.refused hr hf) rest index failures⟩

/-- **The first match ends the attempts.**  What was recorded before it is dropped, and nothing after
it is tried.

**Proof sketch.** Induction on the alternatives before the match, for any failures recorded so
far. -/
theorem tryAll_eq {value produced : Value} {winner : Evaluator}
    (hw : (winner value).result = .ok (.success produced)) (rest : List Evaluator) :
    ∀ {missed : List Evaluator}, (∀ alternative ∈ missed, (alternative value).Missed) →
      ∀ (index : Nat) (failures : Failures),
        tryAll value index (missed ++ winner :: rest) failures
          = ⟨calls value (missed ++ [winner]), .ok (.matched produced)⟩
  | [], _, index, failures => by
    rw [List.nil_append, List.nil_append, calls_cons]
    simpa [calls] using tryAll_matched hw rest index failures
  | alternative :: later, hm, index, failures => by
    obtain ⟨left, hleft⟩ := tryAll_missed (hm alternative List.mem_cons_self)
      (later ++ winner :: rest) index failures
    have hlater := tryAll_eq hw rest (fun other ho => hm other (List.mem_cons_of_mem _ ho))
      (index + 1) left
    rw [List.cons_append, hleft, hlater, List.cons_append, calls_cons]

/-- **A union after alternatives that came to nothing** does what its operations do with the value
of the first match. -/
theorem evaluate_eq {strategy : Strategy} {core : Core Value} {value produced : Value}
    {winner : Evaluator} (hw : (winner value).result = .ok (.success produced))
    {missed : List Evaluator} (hm : ∀ alternative ∈ missed, (alternative value).Missed)
    (rest : List Evaluator) :
    evaluate strategy (missed ++ winner :: rest) core value
      = ⟨calls value (missed ++ [winner])
            ++ (core.pipeline.run strategy "union" produced).trace,
          (core.pipeline.run strategy "union" produced).result⟩ := by
  rw [evaluate, tryAll_eq hw rest hm 0 .empty]
  rfl

end Choice

/-! ## Alternatives by their index -/

/-- The values of a function on positions, cut at one of them. -/
theorem ofFn_eq_append_cons {α : Type} {count : Nat} (f : Fin count → α) (i : Fin count) :
    List.ofFn f = (List.ofFn f).take i ++ f i :: (List.ofFn f).drop (i + 1) := by
  have hi : i.val < (List.ofFn f).length := by
    rw [List.length_ofFn]
    exact i.isLt
  calc List.ofFn f
      = (List.ofFn f).take i ++ (List.ofFn f).drop i := (List.take_append_drop _ _).symm
    _ = (List.ofFn f).take i ++ f i :: (List.ofFn f).drop (i + 1) := by
      rw [List.drop_eq_getElem_cons hi, List.getElem_ofFn]

/-- The values up to a position are those before it and the one there. -/
theorem take_succ_ofFn {α : Type} {count : Nat} (f : Fin count → α) (i : Fin count) :
    (List.ofFn f).take (i + 1) = (List.ofFn f).take i ++ [f i] := by
  have hi : i.val < (List.ofFn f).length := by
    rw [List.length_ofFn]
    exact i.isLt
  rw [← List.take_append_getElem hi, List.getElem_ofFn]

/-- A value at a position before some other one. -/
theorem exists_of_mem_take_ofFn {α : Type} {count : Nat} {f : Fin count → α} {i : Fin count} {a : α}
    (h : a ∈ (List.ofFn f).take i) : ∃ j, j < i ∧ f j = a := by
  obtain ⟨k, hk, rfl⟩ := List.mem_take_iff_getElem.mp h
  have hlt : k < i.val := by omega
  exact ⟨⟨k, by omega⟩, hlt, by rw [List.getElem_ofFn]⟩

namespace Validator

variable {count : Nat} {alternatives : Fin count → Validator} {core : Core Value}

/-- **An alternative wins** if it accepts the value and none before it does. -/
structure Wins (scheduling : Scheduling) (alternatives : Fin count → Validator) (value : Value)
    (i : Fin count) (produced : Value) : Prop where
  /-- The alternative accepts the value. -/
  accepts : (alternatives i).Accepts scheduling value produced
  /-- No alternative before it accepts the value. -/
  first : ∀ j < i, ∀ other, ¬ (alternatives j).Accepts scheduling value other

/-- The calls of the attempts up to some alternative. -/
def callsUpTo (strategy : Strategy) (alternatives : Fin count → Validator) (value : Value)
    (i : Fin count) : List Call :=
  Choice.calls value ((List.ofFn fun j => (alternatives j).evaluate strategy).take (i + 1))

/-- Where a union may be run, so may its alternatives. -/
theorem permits_alternative {scheduling : Scheduling}
    (hp : scheduling.Permits (union count alternatives core).requiresAsync) (i : Fin count) :
    scheduling.Permits (alternatives i).requiresAsync := by
  intro hs
  have hnone := hp hs
  rw [requiresAsync_union, Bool.or_eq_false_iff] at hnone
  exact someRequireAsync_eq_false_iff.mp hnone.2 i

/-- **The winner decides a union**: its operations run on what the winner makes of the value. -/
theorem evaluate_union_of_wins {scheduling : Scheduling} {strategy : Strategy}
    {value produced : Value} {i : Fin count} (h : ∀ j ≤ i, (alternatives j).Composed)
    (hs : ∀ j ≤ i, scheduling.Permits (alternatives j).requiresAsync)
    (hp : ∀ j ≤ i, strategy.scheduling.Permits (alternatives j).requiresAsync)
    (hpanic : ∀ j ≤ i, ((alternatives j).evaluate strategy value).result ≠ .error .panic)
    (hw : Wins scheduling alternatives value i produced) :
    (union count alternatives core).evaluate strategy value
      = ⟨callsUpTo strategy alternatives value i
            ++ (core.pipeline.run strategy "union" produced).trace,
          (core.pipeline.run strategy "union" produced).result⟩ := by
  have hwinner : ((alternatives i).evaluate strategy value).result = .ok (.success produced) :=
    evaluate_of_accepts (h i (Nat.le_refl _)) hw.accepts (hp i (Nat.le_refl _))
      (hpanic i (Nat.le_refl _))
  have hmissed : ∀ alternative ∈ (List.ofFn fun j => (alternatives j).evaluate strategy).take i,
      (alternative value).Missed := by
    intro alternative hmem
    obtain ⟨j, hj, rfl⟩ := exists_of_mem_take_ofFn hmem
    have hle : j ≤ i := Nat.le_of_lt hj
    exact missed_of_not_accepts (h j hle) (hs j hle) (hw.first j hj) (hp j hle) (hpanic j hle)
  rw [evaluate, ofFn_eq_append_cons _ i, Choice.evaluate_eq hwinner hmissed, callsUpTo,
    take_succ_ofFn]

/-! ## One more alternative -/

/-- What holds of the alternatives up to one of them holds of them beside a further one. -/
theorem forall_le_castSucc {P : Validator → Prop} {i : Fin count}
    (h : ∀ j ≤ i, P (alternatives j)) (next : Validator) :
    ∀ j ≤ i.castSucc, P (extend alternatives next j) := by
  intro j hj
  obtain ⟨k, rfl⟩ : ∃ k : Fin count, k.castSucc = j :=
    ⟨⟨j.val, Nat.lt_of_le_of_lt hj i.isLt⟩, rfl⟩
  rw [extend_castSucc]
  exact h k hj

/-- Attempts that stay among the alternatives there were make the calls that they made. -/
theorem callsUpTo_extend (strategy : Strategy) (next : Validator) (value : Value) (i : Fin count) :
    callsUpTo strategy (extend alternatives next) value i.castSucc
      = callsUpTo strategy alternatives value i := by
  have hold : (fun j => (extend alternatives next (Fin.castSucc j)).evaluate strategy)
      = fun j => (alternatives j).evaluate strategy := by
    funext j
    rw [extend_castSucc]
  have hle : i.val + 1 ≤ (List.ofFn fun j => (alternatives j).evaluate strategy).length := by
    rw [List.length_ofFn]
    exact i.isLt
  rw [callsUpTo, callsUpTo, List.ofFn_succ_last, hold]
  exact congrArg (Choice.calls value) (List.take_append_of_le_length hle)

/-- A winner wins among more alternatives as well. -/
theorem Wins.extend {scheduling : Scheduling} {value produced : Value} {i : Fin count}
    (hw : Wins scheduling alternatives value i produced) (next : Validator) :
    Wins scheduling (extend alternatives next) value i.castSucc produced where
  accepts := by
    rw [extend_castSucc]
    exact hw.accepts
  first j hj other := by
    obtain ⟨k, rfl⟩ : ∃ k : Fin count, k.castSucc = j :=
      ⟨⟨j.val, Nat.lt_trans hj i.isLt⟩, rfl⟩
    rw [extend_castSucc]
    exact hw.first k hj other

/-- A further alternative wins where it is the only one that accepts. -/
theorem wins_last {scheduling : Scheduling} {value produced : Value} {next : Validator}
    (hnone : ∀ i other, ¬ (alternatives i).Accepts scheduling value other)
    (ha : next.Accepts scheduling value produced) :
    Wins scheduling (Validator.extend alternatives next) value (Fin.last count) produced where
  accepts := by
    rw [extend_last]
    exact ha
  first j hj other := by
    obtain ⟨k, rfl⟩ : ∃ k : Fin count, k.castSucc = j := ⟨⟨j.val, hj⟩, rfl⟩
    rw [extend_castSucc]
    exact hnone k other

end Validator

end Conform
