import Conform.Proofs.PipeChains
import Conform.Proofs.ProjectionOptions
import Conform.Proofs.ShownChecks

set_option autoImplicit false

/-!
# Stages in the schema of a pipe

The schema of a pipe is that of its first stage, with the schema of the second one in a member of
its own.  That member is written over whatever the first stage has under this name, and a first
stage that is a pipe itself has its own second stage there.  So the schema of a chain of pipes shows
the first stage and the last one, and the stages between them leave no trace.

The operations of a pipe constrain the schema of the second stage, and they meet what the operations
of that stage put there before.  Keywords are added one by one, but the list of checks is written
over the list that the stage has of its own.

## Main results

* `Conform.Validator.document_chain` — the schema of a chain.
* `Conform.Validator.chain_describes_ends` — what the schema of a chain keeps of its stages.
* `Conform.Schema.layOver_of_unshown` — checks without a keyword, laid over an object.
* `Conform.Validator.pipe_checks_replace` — what the checks of a pipe make of its second stage.
-/

namespace Conform

open Schema

namespace Validator

variable {options : Options} {store : Metadata.Store} {first input output : Validator}
  {before : List Link} {link : Link}

/-! ## Chains of pipes -/

/-- The schema of a validator as a document is an object. -/
theorem isObject_document {validator : Validator} (h : validator.Composed) :
    (validator.document options store).IsObject := by
  unfold document
  cases options.dialect with
  | none => exact isObject_fragment h
  | some dialect => exact (isObject_fragment h).set _ _

/-- **A pipe without operations** puts the schema of its second stage into that of the first one. -/
theorem fragment_pipe_holding {conversion : Conversion} {handle : Option Metadata.Handle}
    (h : input.Composed) (hs : Silent options store handle) :
    (pipe input output conversion (.holding handle)).fragment options store
      = (input.fragment options store).set "x-output" (output.fragment options store) := by
  rw [fragment_pipe h hs]
  cases hc : options.includeChecks <;>
    simp [Core.holding, Pipeline.summaries, Pipeline.empty, Constraints.ofSummaries,
      Constraints.nothing, Constraints.layOver]

/-- The document of a pipe without operations, which names its dialect as that of the first stage
does. -/
theorem document_pipe_holding {conversion : Conversion} {handle : Option Metadata.Handle}
    (h : input.Composed) (hs : Silent options store handle) :
    (pipe input output conversion (.holding handle)).document options store
      = (input.document options store).set "x-output" (output.fragment options store) := by
  unfold document
  rw [fragment_pipe_holding h hs]
  cases options.dialect with
  | none => rfl
  | some dialect => exact (isObject_fragment h).set_comm (by decide)

/-- **The document of a chain of pipes** is that of the first stage with the schema of the last one
in it.

**Proof sketch.** Induction on the links before the last one, which is the outermost pipe.  Each
link writes its stage over the stage of the link before it. -/
theorem document_chain (hfirst : first.Composed) (hbefore : ∀ link ∈ before, link.stage.Composed)
    (hs : ∀ link' ∈ before ++ [link], Silent options store link'.handle) :
    (chain first (before ++ [link])).document options store
      = (first.document options store).set "x-output" (link.stage.fragment options store) := by
  rw [chain_concat, document_pipe_holding (composed_chain hfirst hbefore) (hs link (by simp))]
  induction before using List.reverseRecOn with
  | nil => rfl
  | append_singleton earlier previous ih =>
    rw [List.forall_mem_append, List.forall_mem_singleton] at hbefore
    have hprevious : Silent options store previous.handle := hs previous (by simp)
    have hearlier : ∀ link' ∈ earlier ++ [link], Silent options store link'.handle := by
      intro link' hmem
      obtain hmem | hmem := List.mem_append.mp hmem
      · exact hs link' (by simp [hmem])
      · exact hs link' (by simp [List.mem_singleton.mp hmem])
    rw [chain_concat, document_pipe_holding (composed_chain hfirst hbefore.1) hprevious,
      (isObject_document (composed_chain hfirst hbefore.1)).set_set, ih hbefore.1 hearlier]

/-- A validator whose operations constrain its schema as a whole describes no second stage. -/
theorem get?_output_document (h : first.isDirect = true)
    (he : first.EntryLeaves options store "x-output") :
    (first.document options store).get? "x-output" = none := by
  obtain ⟨described, hobject, -, hnone, hplace, hfragment⟩ := exists_described h options store
  have houtput : (first.fragment options store).get? "x-output" = none := by
    rw [hfragment, get?_complete hplace (spared_of_notMem (by decide)) he hobject, hnone]
  have hisObject : (first.fragment options store).IsObject := hfragment ▸ isObject_complete hobject
  unfold document
  cases options.dialect with
  | none => exact houtput
  | some dialect => exact (hisObject.get?_set _ _ _).trans houtput

/-- **The schema of a chain of pipes describes both of its ends, and nothing between them.**  Let
validators be put one after the other, with no operations on the pipes that they make and no
metadata entry that is shown for one of these.

* The document of the chain has the schema of the last stage as its second stage, and every other
  member is that of the document of the first stage.
* A first stage whose operations constrain its schema as a whole can be told from the document: it
  is what is left without the second stage.
* The last pipe keeps every member of the document before it exactly if the second stage in it, if
  there is one, has the schema of its own.
* So a stage between two others is described only if it has the schema of the next one. -/
theorem chain_describes_ends (hfirst : first.Composed)
    (hbefore : ∀ link ∈ before, link.stage.Composed)
    (hs : ∀ link' ∈ before ++ [link], Silent options store link'.handle) :
    let described := first.document options store
    let inner := (chain first before).document options store
    let shown := (chain first (before ++ [link])).document options store
    let last := link.stage.fragment options store
    (shown.get? "x-output" = some last ∧
        ∀ name, name ≠ "x-output" → shown.get? name = described.get? name) ∧
      (first.isDirect = true → first.EntryLeaves options store "x-output" →
        shown.without "x-output" = described) ∧
      (shown.Extends inner ↔ ∀ held, inner.get? "x-output" = some held → held = last) ∧
      ∀ previous ∈ before.getLast?,
        (shown.Extends inner ↔ previous.stage.fragment options store = last) := by
  intro described inner shown last
  have hdescribed : described.IsObject := isObject_document hfirst
  have hchain : (chain first before).Composed := composed_chain hfirst hbefore
  have hshown : shown = described.set "x-output" last := document_chain hfirst hbefore hs
  have hinner : shown = inner.set "x-output" last := by
    unfold shown
    rw [chain_concat, document_pipe_holding hchain (hs link (by simp))]
  have hextends :
      shown.Extends inner ↔ ∀ held, inner.get? "x-output" = some held → held = last := by
    rw [hinner]
    exact (isObject_document hchain).extends_set_iff
  refine ⟨⟨?_, fun name hne => ?_⟩, fun hdirect he => ?_, hextends, fun previous hmem => ?_⟩
  · rw [hshown, hdescribed.get?_set, if_pos rfl]
  · rw [hshown, hdescribed.get?_set, if_neg hne]
  · rw [hshown, hdescribed.without_set (get?_output_document hdirect he)]
  · obtain ⟨earlier, rfl⟩ := List.getLast?_eq_some_iff.mp hmem
    have hearlier := (List.forall_mem_append.mp hbefore).1
    have hheld : inner.get? "x-output" = some (previous.stage.fragment options store) := by
      unfold inner
      rw [document_chain hfirst hearlier fun link' hlink => hs link' (List.mem_append_left _ hlink)]
      exact (hdescribed.get?_set _ _ _).trans (if_pos rfl)
    simp only [hextends, hheld, Option.some.injEq, forall_eq']

/-- A text is put into a list, and a number is read from this: the document shows the text and the
number, and of the list nothing. -/
theorem chain_describes_ends_of_wrapped_text :
    let wrap : Conversion := ⟨"wrap", fun value => .answer (.ok (.arr [value]))⟩
    let read : Conversion := ⟨"read", fun _ => .answer (.error "no number")⟩
    let texts : Link := ⟨wrap, (ofType .string).many, none⟩
    let number : Link := ⟨read, ofType .integer, none⟩
    let inner := (chain (ofType .string) [texts]).document .standard .empty
    let shown := (chain (ofType .string) [texts, number]).document .standard .empty
    shown.get? "x-output" = some (.object [("type", .str "integer")]) ∧
      shown.without "x-output" = (ofType .string).document .standard .empty ∧
      ¬ shown.Extends inner := by
  intro wrap read texts number inner shown
  have hlinks : ∀ link ∈ [texts], link.stage.Composed := List.forall_mem_singleton.mpr trivial
  have hsilent : ∀ link' ∈ [texts] ++ [number], Silent .standard .empty link'.handle :=
    List.forall_mem_cons.mpr ⟨fun _ => rfl, List.forall_mem_singleton.mpr fun _ => rfl⟩
  have hfirst : (ofType .string).Composed := trivial
  obtain ⟨⟨houtput, -⟩, hrecovered, -, hmiddle⟩ := chain_describes_ends hfirst hlinks hsilent
  refine ⟨houtput, hrecovered rfl (fun _ entry hentry => absurd hentry nofun), fun hextends => ?_⟩
  have hsame := (hmiddle texts rfl).mp hextends
  have htype : Value.str "array" = .str "integer" :=
    Option.some.inj (congrArg (Value.get? · "type") hsame)
  exact absurd (Value.str.inj htype) (by decide)

/-- **The second stage of a pipe that is itself a first stage is lost.**  Of a text read as an
integer, and the integer read as a boolean, the document shows the text and the boolean.  So no
function tells the document of the first stage from that of the pipe. -/
theorem middle_stage_lost :
    let parse : Conversion := ⟨"parse_int", fun _ => .answer (.ok (.int 0))⟩
    let nonzero : Conversion := ⟨"nonzero", fun _ => .answer (.ok (.bool true))⟩
    let digits := (ofType .string).thenTo parse (ofType .integer)
    let flag := digits.thenTo nonzero (ofType .boolean)
    (digits.document .standard .empty).get? "x-output"
        = some (.object [("type", .str "integer")]) ∧
      flag.document .standard .empty
        = .object [("$schema", .str draft202012), ("type", .str "string"),
          ("x-output", .object [("type", .str "boolean")])] ∧
      ¬ ∃ recover : Value → Value, ∀ input output conversion, input.Composed → output.Composed →
        recover ((pipe input output conversion .blank).document .standard .empty)
          = input.document .standard .empty := by
  intro parse nonzero digits flag
  have hdigits : (digits.document .standard .empty).get? "x-output"
      = some (.object [("type", .str "integer")]) := by
    unfold digits parse
    rfl
  have hflag : flag.document .standard .empty
      = .object [("$schema", .str draft202012), ("type", .str "string"),
        ("x-output", .object [("type", .str "boolean")])] := by
    unfold flag digits nonzero parse
    rfl
  -- a pipe without the second stage has the same document
  have hwithout : ((ofType .string).thenTo nonzero (ofType .boolean)).document .standard .empty
      = flag.document .standard .empty := by
    rw [hflag]
    unfold nonzero
    rfl
  refine ⟨hdigits, hflag, fun ⟨recover, hrecover⟩ => ?_⟩
  have hlong := hrecover digits (ofType .boolean) nonzero ⟨trivial, trivial⟩ trivial
  have hshort := hrecover (ofType .string) (ofType .boolean) nonzero trivial trivial
  have hsame : digits.document .standard .empty = (ofType .string).document .standard .empty :=
    hlong.symm.trans ((congrArg recover hwithout.symm).trans hshort)
  rw [hsame] at hdigits
  exact absurd hdigits nofun

end Validator

/-! ## Checks of a pipe -/

namespace Schema

/-- Checks without a keyword, laid over an object, write their list into it. -/
theorem layOver_of_unshown {options : Options} {summaries : List Operation.Summary} {value : Value}
    (hc : options.includeChecks = true) (h : value.IsObject)
    (hunshown : ∀ summary ∈ summaries, summary.shown? = none) :
    (Constraints.ofSummaries summaries).layOver options value
      = if (summaries.filterMap Operation.Summary.listed?).isEmpty then value
        else value.set "x-checks" (.arr (summaries.filterMap Operation.Summary.listed?)) := by
  have hkeywords : (Constraints.ofSummaries summaries).keywords = [] := by
    rw [ofSummaries_eq, List.filterMap_eq_nil_iff.mpr hunshown]
    rfl
  rw [layOver_with_checks hc, hkeywords, Value.overlay_nil, h.overlay_singleton]

/-- The list of checks in an object after another one was written. -/
theorem checks_set {value : Value} (h : value.IsObject) (entries : List Value) :
    checks (value.set "x-checks" (.arr entries)) = entries := by
  rw [checks, h.get?_set, if_pos rfl]
  rfl

end Schema

namespace Validator

variable {options : Options} {store : Metadata.Store} {input output : Validator}
  {conversion : Conversion} {core : Core Value}

/-- **The checks of a pipe replace those that its second stage lists.**  Let the operations of a
pipe be checks that no keyword shows, or transformations, let the lists of checks be wanted, and let
no metadata entry be shown for the pipe.

* The schema of the pipe is that of the first stage with a second stage in it, which is the schema
  of the second stage itself, but for the list of checks if the pipe has any.
* Every check of the pipe is represented there.
* That list continues the list of the second stage exactly if one of the two is empty. -/
theorem pipe_checks_replace (hi : input.Composed) (ho : output.Composed)
    (hc : options.includeChecks = true) (hs : Silent options store core.handle)
    (hunshown : ∀ summary ∈ core.pipeline.summaries, summary.shown? = none) :
    let own := core.pipeline.summaries.filterMap Operation.Summary.listed?
    let described := output.fragment options store
    let shown := if own.isEmpty then described else described.set "x-checks" (.arr own)
    (pipe input output conversion core).fragment options store
        = (input.fragment options store).set "x-output" shown ∧
      (∀ name, name ≠ "x-checks" → shown.get? name = described.get? name) ∧
      (∀ summary ∈ core.pipeline.summaries, summary.Represented shown) ∧
      (checks shown = checks described ++ own ↔ checks described = [] ∨ own = []) := by
  intro own described shown
  have hdescribed : described.IsObject := isObject_fragment ho
  refine ⟨?_, fun name hne => ?_, fun summary hmem => ?_, ?_⟩
  · rw [fragment_pipe hi hs, layOver_of_unshown hc hdescribed hunshown]
  · unfold shown
    split
    · rfl
    · rw [hdescribed.get?_set, if_neg hne]
  · refine Operation.Summary.represented_of_listed (hunshown summary hmem) fun entry hl => ?_
    have hentry : entry ∈ own := List.mem_filterMap.mpr ⟨summary, hmem, hl⟩
    unfold shown
    rw [if_neg (by simpa using List.ne_nil_of_mem hentry), checks_set hdescribed]
    exact hentry
  · unfold shown
    cases hown : own with
    | nil => simp
    | cons entry rest => simp [checks_set hdescribed]

/-- A text read as a number that is not negative: the pipe has a check without a parameter and one
that has to be awaited, and the second stage has a check with a keyword. -/
theorem pipe_checks_replace_of_natural_number :
    let parse : Conversion := ⟨"parse_int", fun _ => .answer (.ok (.int 0))⟩
    let least : Action := .check "min" "negative" (some (.int 0)) fun _ => .answer true
    let natural := (ofType .integer).act least
    let even : Action := .check "refine" "must be even" none fun _ => .answer true
    let remote : Action := .asyncCheck "remote" "out of reach" fun _ => .answer (.ready true)
    let number := (((ofType .string).thenTo parse natural).act even).act remote
    number.fragment .standard .empty
      = .object [("type", .str "string"),
          ("x-output", .object [("minimum", .int 0), ("type", .str "integer"),
            ("x-checks", .arr [Constraints.listed "refine" "must be even" false,
              Constraints.listed "remote" "out of reach" true])])] := by
  intro parse least natural even remote number
  have hinput : (ofType .string).Composed := trivial
  have houtput : natural.Composed := trivial
  let core : Core Value := (Core.blank.push even.operation).push remote.operation
  have hunshown : ∀ summary ∈ core.pipeline.summaries, summary.shown? = none :=
    List.forall_mem_cons.mpr ⟨rfl, List.forall_mem_singleton.mpr rfl⟩
  have hreplaced := @pipe_checks_replace .standard .empty (ofType .string) natural parse core
    hinput houtput rfl (fun _ => rfl) hunshown
  exact hreplaced.1

/-- **The checks that the second stage lists are lost** if the pipe has a check to list.  The pipe
demands an even integer that is positive, and its schema says of the integer that it is positive. -/
theorem output_checks_lost :
    let parse : Conversion := ⟨"parse_int", fun _ => .answer (.ok (.int 0))⟩
    let even : Action := .check "refine" "must be even" none fun _ => .answer true
    let positive : Action := .check "refine" "must be positive" none fun _ => .answer true
    let output := (ofType .integer).act even
    let number := ((ofType .string).thenTo parse output).act positive
    let shown : Value := .object [("type", .str "integer"),
      ("x-checks", .arr [Constraints.listed "refine" "must be positive" false])]
    checks (output.fragment .standard .empty)
        = [Constraints.listed "refine" "must be even" false] ∧
      (number.fragment .standard .empty).get? "x-output" = some shown ∧
      checks shown ≠ checks (output.fragment .standard .empty)
        ++ [Constraints.listed "refine" "must be positive" false] := by
  intro parse even positive output number shown
  have houtput : checks (output.fragment .standard .empty)
      = [Constraints.listed "refine" "must be even" false] := by
    unfold output even
    rfl
  have hnumber : (number.fragment .standard .empty).get? "x-output" = some shown := by
    unfold number output positive even parse
    rfl
  refine ⟨houtput, hnumber, fun hcontinued => ?_⟩
  rw [houtput] at hcontinued
  exact absurd (congrArg List.length hcontinued) (by decide)

end Validator

end Conform
