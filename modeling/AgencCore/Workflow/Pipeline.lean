import AgencCore.Foundations.Records

/-
  The pipeline executor.

  A pipeline is a list of tool calls. Before each of them the executor writes a checkpoint with the
  results so far, and asks for approval if the step needs it. A failed call is skipped, repeated or
  ends the pipeline. The checkpoint is removed at the end.

  `PipelineRun.advance` goes from one await point to the next. A process can die between any two of
  them; what the backend holds remains. The backend takes a write or a removal as a whole, and a
  checkpoint that is read back is the one that was written by this version of the code.
-/

namespace AgencCore.Workflow

open Foundations

section

inductive PipelineStepErrorPolicy where
  | retry
  | skip
  | abort
deriving DecidableEq

structure PipelineStep (α : Type) where
  name : String
  tool : String
  args : α
  requiresApproval : Option Bool := none
  onError : Option PipelineStepErrorPolicy := none
  maxRetries : Option JsNumber := none
deriving DecidableEq

/- The steps, and the results they start from. -/
structure Pipeline (α : Type) where
  id : String
  steps : List (PipelineStep α)
  results : Record String
  createdAt : JsNumber

inductive PipelineStatus where
  | running
  | completed
  | failed
  | halted
deriving DecidableEq

inductive WorkflowCompletionState where
  | completed
  | partially
  | blocked
deriving DecidableEq

def resolvePipelineCompletionState (status : PipelineStatus)
    (completedSteps : Nat) : WorkflowCompletionState :=
  match status with
  | .completed => .completed
  | .halted => .blocked
  | _ => if completedSteps > 0 then .partially else .blocked

structure PipelineResult where
  status : PipelineStatus
  completionState : WorkflowCompletionState
  results : Record String
  completedSteps : Nat
  totalSteps : Nat
  resumeFrom : Option Nat := none
  error : Option String := none

inductive CheckpointTrust where
  | trusted
  | needsRevalidation
deriving DecidableEq

structure PipelineCheckpoint (α : Type) where
  pipeline : Pipeline α
  stepIndex : Nat
  results : Record String
  status : PipelineStatus
  trust : CheckpointTrust

/- What a handler is told about the step it is called for. -/
structure EffectExecutionContext where
  pipelineId : String
  stepName : String
  stepIndex : Nat

inductive ToolOutcome where
  | returned (result : String)
  | threw (message : String)

/-
  A deterministic handler, and how texts are judged: whether a result is a failure, the text of that
  failure, and lower case.
-/
structure PipelineHost (α : Type) where
  toolHandler : EffectExecutionContext → String → α → ToolOutcome
  didToolCallFail : String → Bool
  failureText : String → String
  toLowerCase : String → String

def deterministicErrorPatterns : List String :=
  ["refusing destructive overwrite", "is denied", "permission denied", "not allowed",
    "shell operators/newlines are not allowed", "matches deny prefix", "path restricted to"]

/- `text.includes(part)` -/
def textIncludes (text part : String) : Bool :=
  text.toList.tails.any (fun rest => part.toList.isPrefixOf rest)

structure StepResult where
  result : String
  error : Option String

variable {α : Type}
variable (host : PipelineHost α)

def isDeterministicPipelineStepError (error : String) : Bool :=
  deterministicErrorPatterns.any (fun pattern => textIncludes (host.toLowerCase error) pattern)

/- An error without a text does not count as one. -/
def executeStep (pipelineId : String) (step : PipelineStep α) (stepIndex : Nat) : StepResult :=
  match host.toolHandler ⟨pipelineId, step.name, stepIndex⟩ step.tool step.args with
  | .threw message => ⟨"", some message⟩
  | .returned result => if host.didToolCallFail result then ⟨result, some (host.failureText result)⟩
      else ⟨result, none⟩

/- The error of a step, if it has a text. -/
def StepResult.failure (result : StepResult) : Option String :=
  result.error.filter (fun error => error ≠ "")

----------
-- Execution
----------

/-
  Where an execution is: before a write of the running or of the halted checkpoint, behind the first
  of them, before a tool call, before a repeated call, before the removal of the checkpoint, or at
  its end.
-/
inductive Phase where
  | saving (index : Nat) (results : Record String)
  | gated (index : Nat) (results : Record String)
  | halting (index : Nat) (results : Record String)
  | calling (index : Nat) (results : Record String)
  | retrying (index : Nat) (results : Record String) (error : String) (attempt : Nat)
  | removing (result : PipelineResult)
  | returned (result : PipelineResult)

/-
  An execution, the checkpoint the backend holds, whether the executor has the pipeline in its
  active set, and the steps whose tool was called, in order.
-/
structure PipelineRun (α : Type) where
  pipeline : Pipeline α
  phase : Phase
  checkpoint : Option (PipelineCheckpoint α)
  active : Bool
  calls : List Nat

def loopPhase (pipeline : Pipeline α) (index : Nat) (results : Record String) : Phase :=
  if index < pipeline.steps.length then .saving index results
  else
    .removing
      { status := .completed, completionState := .completed, results := results
        completedSteps := index, totalSteps := pipeline.steps.length }

/- The end of a pipeline at a step that failed. -/
def failedPhase (pipeline : Pipeline α) (index : Nat) (results : Record String)
    (error : String) : Phase :=
  .removing
    { status := .failed, completionState := resolvePipelineCompletionState .failed index
      results := results, completedSteps := index, totalSteps := pipeline.steps.length
      error := some error }

/- The head of the loop over the attempts. -/
def retryPhase (pipeline : Pipeline α) (step : PipelineStep α) (index : Nat)
    (results : Record String) (error : String) (attempt : Nat) : Phase :=
  if JsNumber.le (.ofInt attempt) (step.maxRetries.getD 0) then
    .retrying index results error attempt
  else failedPhase pipeline index results error

/- `handleStepError`, up to its first await point. -/
def handleStepError (pipeline : Pipeline α) (step : PipelineStep α) (index : Nat)
    (results : Record String) (error : String) : Phase :=
  match step.onError.getD .abort with
  | .skip => loopPhase pipeline (index + 1) (results.assign step.name ("SKIPPED: " ++ error))
  | .retry =>
    if JsNumber.lt 0 (step.maxRetries.getD 0) && !isDeterministicPipelineStepError host error then
      retryPhase pipeline step index results error 1
    else failedPhase pipeline index results error
  | .abort => failedPhase pipeline index results error

def calledPhase (pipeline : Pipeline α) (step : PipelineStep α) (index : Nat)
    (results : Record String) : Phase :=
  let stepResult := executeStep host pipeline.id step index
  match stepResult.failure with
  | some error => handleStepError host pipeline step index results error
  | none => loopPhase pipeline (index + 1) (results.assign step.name stepResult.result)

/- What follows a repeated call. -/
def retriedPhase (pipeline : Pipeline α) (step : PipelineStep α) (index : Nat)
    (results : Record String) (error : String) (attempt : Nat) : Phase :=
  let retryResult := executeStep host pipeline.id step index
  match retryResult.failure with
  | none => loopPhase pipeline (index + 1) (results.assign step.name retryResult.result)
  | some retryError =>
    if isDeterministicPipelineStepError host retryError then
      failedPhase pipeline index results error
    else retryPhase pipeline step index results error (attempt + 1)

/- `serializePipelineCheckpoint`, for a live pipeline. -/
def liveCheckpoint (pipeline : Pipeline α) (index : Nat) (results : Record String)
    (status : PipelineStatus) : PipelineCheckpoint α := ⟨pipeline, index, results, status, .trusted⟩

/-
  Go on to the next await point. `requiresApproval` says which steps have to be approved at the
  time.
-/
def PipelineRun.advance (requiresApproval : PipelineStep α → Bool)
    (run : PipelineRun α) : PipelineRun α :=
  let pipeline := run.pipeline
  match run.phase with
  | .saving index results =>
    { run with
      checkpoint := some (liveCheckpoint pipeline index results .running)
      phase := .gated index results }
  | .gated index results =>
    match pipeline.steps[index]? with
    | none => run
    | some step =>
      { run with
        phase :=
          if step.requiresApproval.getD false && requiresApproval step then .halting index results
          else .calling index results }
  | .halting index results =>
    { run with
      checkpoint := some (liveCheckpoint pipeline index results .halted)
      phase := .returned
        { status := .halted, completionState := resolvePipelineCompletionState .halted index
          results := results, completedSteps := index, totalSteps := pipeline.steps.length
          resumeFrom := some index } }
  | .calling index results =>
    match pipeline.steps[index]? with
    | none => run
    | some step =>
      { run with
        phase := calledPhase host pipeline step index results, calls := run.calls ++ [index] }
  | .retrying index results error attempt =>
    match pipeline.steps[index]? with
    | none => run
    | some step =>
      { run with
        phase := retriedPhase host pipeline step index results error attempt
        calls := run.calls ++ [index] }
  | .removing result => { run with checkpoint := none, active := false, phase := .returned result }
  | .returned _ => run

/- `execute`, up to its first await point. -/
def execute (active : Bool) (checkpoint : Option (PipelineCheckpoint α)) (pipeline : Pipeline α)
    (startFrom : Nat) : PipelineRun α :=
  if active then
    { pipeline := pipeline
      phase := .returned
        { status := .failed, completionState := .blocked, results := pipeline.results
          completedSteps := 0, totalSteps := pipeline.steps.length
          error := some ("Pipeline \"" ++ pipeline.id ++ "\" is already running") }
      checkpoint := checkpoint, active := true, calls := [] }
  else
    { pipeline := pipeline, phase := loopPhase pipeline startFrom pipeline.results
      checkpoint := checkpoint, active := true, calls := [] }

/- `resume`, up to the first await point of `execute`. -/
def resume (active : Bool) (pipelineId : String) (checkpoint : Option (PipelineCheckpoint α)) :
    Except String (PipelineRun α) :=
  match checkpoint with
  | none => .error ("No checkpoint found for pipeline \"" ++ pipelineId ++ "\"")
  | some saved =>
    if saved.trust = .needsRevalidation then
      .error ("Checkpoint for pipeline \"" ++ pipelineId ++
        "\" requires provenance revalidation before resume")
    else
      .ok (execute active checkpoint { saved.pipeline with results := saved.results }
        saved.stepIndex)

end

end AgencCore.Workflow
