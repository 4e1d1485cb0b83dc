import Conform.Proofs.OutcomeInvariant
import Conform.Proofs.PipeAssociativity
import Mathlib.Data.List.Induction

set_option autoImplicit false

/-!
# Chains of pipes

A validator can be followed by any number of further stages, each behind a conversion of its own, so
that the first stage of a pipe is again a pipe.  The outer pipe does not see which of the stages
before it halted: it is given a value, failures and an untransformed value, and goes by these alone.
Still a tolerant run of the chain reports exactly one stage or one conversion, the first one that
has something to report, and nothing after it is run.

The stages are told apart by the links before them.  A value *reaches* a stage if every stage before
it produced a value without failures and every conversion on the way succeeded.

## Main definitions

* `Conform.Link`, `Conform.Validator.chain` — a further stage behind a conversion, and a chain of
  such stages without operations of its own.
* `Conform.Chain.Reaches` — a value comes through some links, and what it is by then.
* `Conform.Chain.Course` — the three ways in which a tolerant run of a chain ends.

## Main results

* `Conform.Chain.Reaches.evaluate_eq` — a chain up to a stage that a value reaches.
* `Conform.Chain.Course.evaluate_eq`, `Conform.Chain.course_of_evaluate` — a course is the run.
* `Conform.Validator.chain_reports_one_stage` — what callers may rely on.
-/

namespace Conform

/-- One more stage of a chain. -/
structure Link where
  /-- Converts what the stage before produced. -/
  conversion : Conversion
  /-- Takes what was converted. -/
  stage : Validator
  /-- The handle of the pipe that ends with this stage. -/
  handle : Option Metadata.Handle

namespace Validator

variable {first : Validator} {before links : List Link} {link : Link}

/-- **A chain of pipes**: each link makes a pipe, without operations of its own, of all that comes
before it. -/
def chain (first : Validator) (links : List Link) : Validator :=
  links.foldl (fun before link =>
    pipe before link.stage link.conversion (.holding link.handle)) first

/-- The stage that a chain ends with. -/
def lastStage (first : Validator) (links : List Link) : Validator :=
  links.getLast?.elim first Link.stage

/-- The last link is the outermost pipe. -/
theorem chain_concat : chain first (before ++ [link])
    = pipe (chain first before) link.stage link.conversion (.holding link.handle) := by
  rw [chain, List.foldl_append]
  rfl

theorem lastStage_concat : lastStage first (before ++ [link]) = link.stage := by
  rw [lastStage, List.getLast?_concat]
  rfl

/-- A chain of composed stages is composed. -/
theorem composed_chain (h : first.Composed) (hlinks : ∀ link ∈ links, link.stage.Composed) :
    (chain first links).Composed := by
  induction links using List.reverseRecOn with
  | nil => exact h
  | append_singleton before link ih =>
    rw [List.forall_mem_append, List.forall_mem_singleton] at hlinks
    rw [chain_concat]
    exact ⟨ih hlinks.1, hlinks.2⟩

/-! ## One more link -/

section Concat

variable {strategy : Strategy} {value : Value} {calls : List Call}

/-- The outermost pipe goes on from what the chain before it comes to. -/
theorem evaluate_chain_concat {outcome : Outcome Value}
    (h : (chain first before).evaluate strategy value = ⟨calls, .ok outcome⟩) (link : Link) :
    (chain first (before ++ [link])).evaluate strategy value
      = ⟨calls, .ok ()⟩ >>= fun _ =>
          Stages.through strategy (chain first before).kind link.stage.kind link.conversion
            (link.stage.evaluate strategy) outcome := by
  rw [chain_concat, evaluate, Stages.evaluate_holding]
  dsimp only
  rw [h]
  rfl

/-- Without a value there is nothing to convert. -/
theorem evaluate_concat_of_none {outcome : Outcome Value}
    (h : (chain first before).evaluate strategy value = ⟨calls, .ok outcome⟩)
    (hv : outcome.value = none) (link : Link) :
    (chain first (before ++ [link])).evaluate strategy value = ⟨calls, .ok outcome⟩ := by
  rw [evaluate_chain_concat h, Stages.through_of_none hv]
  simp [Run.bind_eq, Run.pure_eq]

/-- After failures the value is left untransformed, if there is one. -/
theorem evaluate_concat_of_flawed {outcome : Outcome Value}
    (h : (chain first before).evaluate strategy value = ⟨calls, .ok outcome⟩)
    (hs : outcome.isSuccess = false) (link : Link) :
    (chain first (before ++ [link])).evaluate strategy value
      = ⟨calls, .ok ⟨none, outcome.failures, outcome.value.or outcome.untransformed⟩⟩ := by
  obtain ⟨_ | produced, failures, untransformed⟩ := outcome
  · exact evaluate_concat_of_none h rfl link
  · rw [evaluate_chain_concat h, Stages.through_of_flawed rfl hs]
    simp [Run.bind_eq, Run.pure_eq]

/-- A value without failures is converted, and the stage of the link takes what comes of it. -/
theorem evaluate_concat_of_converted {produced converted : Value}
    (h : (chain first before).evaluate strategy value = ⟨calls, .ok (.success produced)⟩)
    (hc : link.conversion.convert produced = .ok converted) :
    (chain first (before ++ [link])).evaluate strategy value
      = ⟨calls ++ [⟨.conversion, .user, link.conversion.label, produced⟩]
            ++ (link.stage.evaluate strategy converted).trace,
          (link.stage.evaluate strategy converted).result⟩ := by
  rw [evaluate_chain_concat h, Stages.through_of_converted rfl rfl hc]
  simp [Run.bind_eq, Run.call]

/-- A conversion that fails is the end. -/
theorem evaluate_concat_of_refused {produced : Value} {reason : String}
    (h : (chain first before).evaluate strategy value = ⟨calls, .ok (.success produced)⟩)
    (hc : link.conversion.convert produced = .error reason) :
    (chain first (before ++ [link])).evaluate strategy value
      = ⟨calls ++ [⟨.conversion, .user, link.conversion.label, produced⟩],
          Stages.failed strategy (chain first before).kind link.stage.kind reason produced⟩ := by
  rw [evaluate_chain_concat h, Stages.through_of_failed rfl rfl hc]
  simp [Run.bind_eq]

/-- A chain that came to no value comes to the same with further links. -/
theorem evaluate_append_of_none {outcome : Outcome Value}
    (h : (chain first before).evaluate strategy value = ⟨calls, .ok outcome⟩)
    (hv : outcome.value = none) (later : List Link) :
    (chain first (before ++ later)).evaluate strategy value = ⟨calls, .ok outcome⟩ := by
  induction later using List.reverseRecOn with
  | nil => rwa [List.append_nil]
  | append_singleton earlier link ih =>
    rw [← List.append_assoc]
    exact evaluate_concat_of_none ih hv link

end Concat

end Validator

namespace Chain

open Validator

variable {scheduling : Scheduling} {first : Validator} {value : Value}

/-! ## Stages that a value reaches -/

/-- **A value comes through some links** with these calls: every stage before the last of them
produced a value without failures, every conversion succeeded, and `arrived` is what the last one
made. -/
inductive Reaches (scheduling : Scheduling) (first : Validator) (value : Value) :
    List Link → List Call → Value → Prop
  /-- The value itself is put to the first stage. -/
  | start : Reaches scheduling first value [] [] value
  /-- The stage that was reached produces a value without failures, and the next conversion
  succeeds. -/
  | pass {before : List Link} {link : Link} {calls own : List Call}
    {arrived produced converted : Value}
    (reached : Reaches scheduling first value before calls arrived)
    (accepted : (lastStage first before).evaluate ⟨.tolerant, scheduling⟩ arrived
      = ⟨own, .ok (.success produced)⟩)
    (succeeded : link.conversion.convert produced = .ok converted) :
    Reaches scheduling first value (before ++ [link])
      (calls ++ own ++ [⟨.conversion, .user, link.conversion.label, produced⟩]) converted

/-- **A chain up to a stage that a value reaches** comes to what this stage comes to. -/
theorem Reaches.evaluate_eq {links : List Link} {calls own : List Call} {arrived : Value}
    {result : Except Stop (Outcome Value)} (h : Reaches scheduling first value links calls arrived)
    (hstage : (lastStage first links).evaluate ⟨.tolerant, scheduling⟩ arrived = ⟨own, result⟩) :
    (chain first links).evaluate ⟨.tolerant, scheduling⟩ value = ⟨calls ++ own, result⟩ := by
  induction h generalizing own result with
  | start => exact hstage
  | pass reached accepted succeeded ih =>
    rw [lastStage_concat] at hstage
    rw [evaluate_concat_of_converted (ih accepted) succeeded, hstage]

/-! ## Courses -/

/-- **How a tolerant run of a chain ends**: the calls that it makes and its outcome.  One stage or
one conversion decides, and it is the first one with something to report. -/
inductive Course (scheduling : Scheduling) (first : Validator) (value : Value) :
    List Link → List Call → Outcome Value → Prop
  /-- The value reaches the last stage, whose outcome is the outcome of the chain. -/
  | finished {links : List Link} {calls own : List Call} {arrived : Value} {outcome : Outcome Value}
    (reached : Reaches scheduling first value links calls arrived)
    (last : (lastStage first links).evaluate ⟨.tolerant, scheduling⟩ arrived
      = ⟨own, .ok outcome⟩) :
    Course scheduling first value links (calls ++ own) outcome
  /-- A stage with another one after it has failures.  They are reported without a value; what the
  stage produced is left untransformed, or else what it left untransformed itself. -/
  | flawed {before later : List Link} {link : Link} {calls own : List Call} {arrived : Value}
    {outcome : Outcome Value} (reached : Reaches scheduling first value before calls arrived)
    (stage : (lastStage first before).evaluate ⟨.tolerant, scheduling⟩ arrived
      = ⟨own, .ok outcome⟩)
    (fails : outcome.isSuccess = false) :
    Course scheduling first value (before ++ link :: later) (calls ++ own)
      ⟨none, outcome.failures, outcome.value.or outcome.untransformed⟩
  /-- A conversion fails.  This is the one failure, and what it was to convert is left
  untransformed. -/
  | refused {before later : List Link} {link : Link} {calls own : List Call}
    {arrived produced : Value} {reason : String}
    (reached : Reaches scheduling first value before calls arrived)
    (accepted : (lastStage first before).evaluate ⟨.tolerant, scheduling⟩ arrived
      = ⟨own, .ok (.success produced)⟩)
    (fails : link.conversion.convert produced = .error reason) :
    Course scheduling first value (before ++ link :: later)
      (calls ++ own ++ [⟨.conversion, .user, link.conversion.label, produced⟩])
      ⟨none, .ofList [(Fault.transformCheck,
        (Fault.failedConversion (chain first before).kind link.stage.kind reason).message)],
        some produced⟩

/-- **A course is what the run comes to.** -/
theorem Course.evaluate_eq {links : List Link} {calls : List Call} {outcome : Outcome Value}
    (h : Course scheduling first value links calls outcome) :
    (chain first links).evaluate ⟨.tolerant, scheduling⟩ value = ⟨calls, .ok outcome⟩ := by
  cases h with
  | finished reached last => exact reached.evaluate_eq last
  | @flawed before later link =>
    rename_i reached stage fails
    rw [List.append_cons]
    exact evaluate_append_of_none
      (evaluate_concat_of_flawed (reached.evaluate_eq stage) fails link) rfl later
  | @refused before later link =>
    rename_i reached accepted fails
    rw [List.append_cons]
    exact evaluate_append_of_none
      (evaluate_concat_of_refused (reached.evaluate_eq accepted) fails) rfl later

/-- A course without a value is still the course with one more link, as there is a failure then. -/
theorem Course.concat {links : List Link} {calls : List Call} {outcome : Outcome Value}
    (h : Course scheduling first value links calls outcome)
    (hc : outcome.Coherent .tolerant) (hv : outcome.value = none) (link : Link) :
    Course scheduling first value (links ++ [link]) calls outcome := by
  cases h with
  | finished reached last =>
    obtain ⟨value, failures, untransformed⟩ := outcome
    obtain rfl : value = none := hv
    exact .flawed reached last (hc.flawed rfl)
  | flawed reached stage fails =>
    rw [List.append_assoc]
    exact .flawed reached stage fails
  | refused reached accepted fails =>
    rw [List.append_assoc]
    exact .refused reached accepted fails

/-- **What a run comes to is a course.**

**Proof sketch.** Induction on the links, the last one being the outermost pipe.  If the chain
before it came to no value, then the pipe lets the outcome pass.  Otherwise the value reached the
last stage so far, and this stage or the conversion of the link decides, or the value reaches one
stage more. -/
theorem course_of_evaluate {links : List Link} (hfirst : first.Composed)
    (hlinks : ∀ link ∈ links, link.stage.Composed) {calls : List Call} {outcome : Outcome Value}
    (h : (chain first links).evaluate ⟨.tolerant, scheduling⟩ value = ⟨calls, .ok outcome⟩) :
    Course scheduling first value links calls outcome := by
  induction links using List.reverseRecOn generalizing calls outcome with
  | nil => exact .finished .start h
  | append_singleton before link ih =>
    rw [List.forall_mem_append, List.forall_mem_singleton] at hlinks
    have hbefore : (chain first before).Composed := composed_chain hfirst hlinks.1
    -- the chain before the link came to an outcome as well
    obtain ⟨found, hfound⟩ : ∃ found,
        ((chain first before).evaluate ⟨.tolerant, scheduling⟩ value).result = .ok found := by
      rw [chain_concat, evaluate, Stages.evaluate_holding] at h
      obtain ⟨found, hfound, -⟩ := Run.bind_ok_iff.mp (congrArg Run.result h)
      exact ⟨found, hfound⟩
    have hrun : (chain first before).evaluate ⟨.tolerant, scheduling⟩ value
        = ⟨((chain first before).evaluate ⟨.tolerant, scheduling⟩ value).trace, .ok found⟩ :=
      Run.ext rfl hfound
    generalize ((chain first before).evaluate ⟨.tolerant, scheduling⟩ value).trace = earlier at hrun
    have hc : found.Coherent .tolerant :=
      (evaluate_ends hbefore ⟨.tolerant, scheduling⟩ value).of_ok hfound
    have hcourse := ih hlinks.1 hrun
    cases hv : found.value with
    | none =>
      cases h.symm.trans (evaluate_concat_of_none hrun hv link)
      exact hcourse.concat hc hv link
    | some produced =>
      cases hcourse with
      | flawed => cases hv
      | refused => cases hv
      | finished reached last =>
        cases hs : found.isSuccess with
        | false =>
          cases h.symm.trans (evaluate_concat_of_flawed hrun hs link)
          exact .flawed reached last hs
        | true =>
          obtain ⟨a, rfl⟩ := hc.eq_success hs
          cases hconverted : link.conversion.convert a with
          | error reason =>
            cases h.symm.trans (evaluate_concat_of_refused hrun hconverted)
            exact .refused reached last hconverted
          | ok converted =>
            have hend := h.symm.trans (evaluate_concat_of_converted hrun hconverted)
            obtain ⟨rfl, hresult⟩ := Run.mk.inj hend
            refine .finished (.pass reached last hconverted) ?_
            rw [lastStage_concat]
            exact Run.ext rfl hresult.symm

end Chain

namespace Validator

/-- **A chain of pipes reports exactly one stage.**  Let validators be put one after the other with
conversions between them, and no operations on the pipes that they make.  A tolerant run of the
chain comes to an outcome in one of three ways (`Chain.Course`), and each stage and each conversion
is run only if every stage before it produced a value without failures and every conversion before
it succeeded.

* A stage before the last one that has failures is the end: its failures are reported without a
  value, and what it produced is left untransformed, or else what it left untransformed itself.
* A conversion that fails, by a panic as well, is the end: it is the one failure, and the value that
  it was to convert is left untransformed.
* Otherwise the outcome is that of the last stage.

Where the run does not panic it comes to an outcome, and this is what a caller is given. -/
theorem chain_reports_one_stage {first : Validator} {links : List Link} (hfirst : first.Composed)
    (hlinks : ∀ link ∈ links, link.stage.Composed) (scheduling : Scheduling) (value : Value) :
    (∀ calls outcome, Chain.Course scheduling first value links calls outcome ↔
      (chain first links).evaluate ⟨.tolerant, scheduling⟩ value = ⟨calls, .ok outcome⟩) ∧
    (scheduling.Permits (chain first links).requiresAsync →
      ((chain first links).evaluate ⟨.tolerant, scheduling⟩ value).result ≠ .error .panic →
        ∃ calls outcome, Chain.Course scheduling first value links calls outcome ∧
          ∀ store, (chain first links).parse store ⟨.tolerant, scheduling⟩ value
            = ⟨calls, .ok ⟨outcome, (chain first links).shown? store⟩⟩) := by
  refine ⟨fun calls outcome => ⟨fun h => h.evaluate_eq,
    fun h => Chain.course_of_evaluate hfirst hlinks h⟩, fun hp hpanic => ?_⟩
  have hcomposed : (chain first links).Composed := composed_chain hfirst hlinks
  obtain ⟨outcome, houtcome⟩ := exists_outcome hcomposed hp hpanic
  have hrun : (chain first links).evaluate ⟨.tolerant, scheduling⟩ value
      = ⟨((chain first links).evaluate ⟨.tolerant, scheduling⟩ value).trace, .ok outcome⟩ :=
    Run.ext rfl houtcome
  refine ⟨_, outcome, Chain.course_of_evaluate hfirst hlinks hrun, fun store => ?_⟩
  rw [parse_eq_evaluate hcomposed hp, Run.map_eq, houtcome]
  rfl

/-- The second of three stages produces a list and fails a check of its own.  The conversion after
it would panic, but is not called. -/
theorem chain_reports_one_stage_of_flawed_middle :
    let few : Action := .check "few" "too many" none fun _ => .answer false
    let wrap : Conversion := ⟨"wrap", fun value => .answer (.ok (.arr [value]))⟩
    let stop : Conversion := ⟨"stop", fun _ => .panicked⟩
    let links : List Link :=
      [⟨wrap, (ofType .integer).many.act few, none⟩, ⟨stop, ofType .any, none⟩]
    let calls : List Call :=
      [⟨.conversion, .user, "wrap", .int 3⟩, ⟨.check, .user, "few", .arr [.int 3]⟩]
    let outcome : Outcome Value := ⟨none, .ofList [("few", "too many")], some (.arr [.int 3])⟩
    Chain.Course .sync (ofType .any) (.int 3) links calls outcome ∧
      (chain (ofType .any) links).parse .empty ⟨.tolerant, .sync⟩ (.int 3)
        = ⟨calls, .ok ⟨outcome, none⟩⟩ := by
  intro few wrap stop links calls outcome
  have hfirst : (ofType .any).Composed := trivial
  have hlinks : ∀ link ∈ links, link.stage.Composed :=
    List.forall_mem_cons.mpr ⟨trivial, List.forall_mem_singleton.mpr trivial⟩
  have hrun : (chain (ofType .any) links).evaluate ⟨.tolerant, .sync⟩ (.int 3)
      = ⟨calls, .ok outcome⟩ := rfl
  obtain ⟨hcourses, hparsed⟩ := chain_reports_one_stage hfirst hlinks .sync (.int 3)
  have hpanic : ((chain (ofType .any) links).evaluate ⟨.tolerant, .sync⟩ (.int 3)).result
      ≠ .error .panic := nofun
  obtain ⟨calls', outcome', hcourse, hparse⟩ := hparsed (fun _ => rfl) hpanic
  obtain ⟨rfl, heq⟩ := Run.mk.inj (hrun.symm.trans ((hcourses calls' outcome').mp hcourse))
  obtain rfl : outcome = outcome' := Except.ok.inj heq
  exact ⟨hcourse, hparse .empty⟩

end Validator

end Conform
