import AgencCore.Foundations.Runs
import AgencCore.Workflow.PipelineResume

/-
  The calls of a pipeline.

  Nothing is assumed of the tools: the handler may answer differently whenever it is called, and the
  approvals may change. The steps are called one after the other. A step is called again after an
  error only if its policy says so, as often as it allows, and the next step comes when a call gave
  no error text or the step may be skipped.
-/

namespace AgencCore.Workflow

open Foundations List

variable {α : Type}

/- The tools and the approvals at an await point. -/
structure Surroundings (α : Type) where
  host : PipelineHost α
  requiresApproval : PipelineStep α → Bool

/- The steps that were called, and whether the call gave no error. -/
abbrev CallLog := List (Nat × Bool)

structure LoggedRun (α : Type) where
  run : PipelineRun α
  log : CallLog

def callOk (host : PipelineHost α) (pipeline : Pipeline α) (step : PipelineStep α)
    (index : Nat) : Bool := (executeStep host pipeline.id step index).failure.isNone

def logged (host : PipelineHost α) (pipeline : Pipeline α) (log : CallLog) : Phase → CallLog
| .calling index _ | .retrying index _ _ _ =>
  match pipeline.steps[index]? with
  | none => log
  | some step => log ++ [(index, callOk host pipeline step index)]
| _ => log

def LoggedRun.go (s : LoggedRun α) (now : Surroundings α) : LoggedRun α where
  run := s.run.advance now.host now.requiresApproval
  log := logged now.host s.run.pipeline s.log s.run.phase

/- The policy of the step allows so many calls. -/
def Tried (pipeline : Pipeline α) (index calls : Nat) : Prop :=
  ∀ step ∈ pipeline.steps[index]?, calls ≤ 1 ∨ step.onError.getD .abort = .retry ∧
    JsNumber.le (.ofInt (calls - 1 : Nat)) (step.maxRetries.getD 0) = true

/- Calls of the steps from `start` on that are done with: errors, and a last call of each. -/
inductive Blocks (pipeline : Pipeline α) (start : Nat) : CallLog → Nat → Prop
  | start : Blocks pipeline start [] start
  | step {front : CallLog} {index errors : Nat} {ok : Bool}
      (hFront : Blocks pipeline start front index) (hTried : Tried pipeline index (errors + 1))
      (hLast : ok = true ∨ ∀ step ∈ pipeline.steps[index]?, step.onError.getD .abort = .skip) :
      Blocks pipeline start (front ++ replicate errors (index, false) ++ [(index, ok)]) (index + 1)

/- Behind the blocks a step was called in vain. -/
structure Fits (pipeline : Pipeline α) (start : Nat) (log : CallLog) (index : Nat)
    (errors : Nat) : Prop where
  tried : Tried pipeline index errors
  blocks : ∃ front, Blocks pipeline start front index ∧ log = front ++ replicate errors (index, false)

def Phase.Fits (pipeline : Pipeline α) (start : Nat) (log : CallLog) : Phase → Prop
| .saving index _ | .gated index _ | .halting index _ | .calling index _ =>
  Workflow.Fits pipeline start log index 0
| .retrying index _ _ attempt => Workflow.Fits pipeline start log index attempt ∧
    ∀ step ∈ pipeline.steps[index]?, step.onError.getD .abort = .retry ∧
      JsNumber.le (.ofInt attempt) (step.maxRetries.getD 0) = true
| .removing result | .returned result => ∃ index errors,
    Workflow.Fits pipeline start log index errors ∧
      (result.status = .completed → errors = 0 ∧ pipeline.steps.length ≤ index)

variable {pipeline : Pipeline α}
variable {start index errors : Nat}
variable {log : CallLog}

theorem Blocks.fits (h : Blocks pipeline start log index) : Fits pipeline start log index 0 :=
  ⟨fun _ _ => .inl (Nat.zero_le _), log, h, by simp⟩

theorem fits_loopPhase (h : Blocks pipeline start log index) (results : Record String) :
    (loopPhase pipeline index results).Fits pipeline start log := by
  unfold loopPhase
  split
  · exact h.fits
  · exact ⟨index, 0, h.fits, fun _ => ⟨rfl, not_lt.mp ‹_›⟩⟩

theorem fits_failedPhase (h : Fits pipeline start log index errors) (results : Record String)
    (error : String) : (failedPhase pipeline index results error).Fits pipeline start log :=
  ⟨index, errors, h, nofun⟩

variable {step : PipelineStep α}

theorem fits_retryPhase (h : Fits pipeline start log index errors)
    (hStep : pipeline.steps[index]? = some step) (hPolicy : step.onError.getD .abort = .retry)
    (results : Record String) (error : String) :
    (retryPhase pipeline step index results error errors).Fits pipeline start log := by
  unfold retryPhase
  split
  · refine ⟨h, fun other hOther => ?_⟩
    cases hStep.symm.trans hOther
    exact ⟨hPolicy, ‹_›⟩
  · exact fits_failedPhase h results error

/- One more call: the step is done with, or was called in vain once more. -/
theorem Fits.call (h : Fits pipeline start log index errors)
    (hTried : Tried pipeline index (errors + 1)) (ok : Bool) :
    (ok = true ∨ (∀ step ∈ pipeline.steps[index]?, step.onError.getD .abort = .skip) →
      Blocks pipeline start (log ++ [(index, ok)]) (index + 1)) ∧
      (ok = false → Fits pipeline start (log ++ [(index, ok)]) index (errors + 1)) := by
  rcases h.blocks with ⟨front, hFront, rfl⟩
  refine ⟨hFront.step hTried, ?_⟩
  rintro rfl
  exact ⟨hTried, front, hFront, by rw [replicate_succ', append_assoc]⟩

variable {host : PipelineHost α}

theorem fits_calledPhase (h : Fits pipeline start log index 0)
    (hStep : pipeline.steps[index]? = some step) (results : Record String) :
    (calledPhase host pipeline step index results).Fits pipeline start
      (log ++ [(index, callOk host pipeline step index)]) := by
  have hCall := h.call (fun _ _ => .inl le_rfl) (callOk host pipeline step index)
  unfold calledPhase
  unfold callOk at *
  dsimp only
  cases hFailure : (executeStep host pipeline.id step index).failure with
  | none =>
    rw [hFailure] at hCall
    exact fits_loopPhase (hCall.1 (.inl rfl)) _
  | some error =>
    rw [hFailure] at hCall
    have hVain := hCall.2 rfl
    dsimp only [handleStepError]
    split
    · refine fits_loopPhase (hCall.1 (.inr fun other hOther => ?_)) _
      cases hStep.symm.trans hOther
      assumption
    · split
      · exact fits_retryPhase hVain hStep ‹_› _ _
      · exact fits_failedPhase hVain _ _
    · exact fits_failedPhase hVain _ _

theorem fits_retriedPhase (h : Fits pipeline start log index errors)
    (hStep : pipeline.steps[index]? = some step) (hPolicy : step.onError.getD .abort = .retry)
    (hLe : JsNumber.le (.ofInt errors) (step.maxRetries.getD 0) = true) (results : Record String)
    (error : String) : (retriedPhase host pipeline step index results error errors).Fits pipeline
      start (log ++ [(index, callOk host pipeline step index)]) := by
  have hTried : Tried pipeline index (errors + 1) := by
    intro other hOther
    cases hStep.symm.trans hOther
    exact .inr ⟨hPolicy, hLe⟩
  have hCall := h.call hTried (callOk host pipeline step index)
  unfold retriedPhase
  unfold callOk at *
  dsimp only
  cases hFailure : (executeStep host pipeline.id step index).failure with
  | none =>
    rw [hFailure] at hCall
    exact fits_loopPhase (hCall.1 (.inl rfl)) _
  | some retryError =>
    rw [hFailure] at hCall
    dsimp only
    split
    · exact fits_failedPhase (hCall.2 rfl) _ _
    · exact fits_retryPhase (hCall.2 rfl) hStep hPolicy _ _

theorem Phase.Fits.next {phase : Phase} (h : phase.Fits pipeline start log)
    (requiresApproval : PipelineStep α → Bool) :
    (nextPhase host requiresApproval pipeline phase).Fits pipeline start
      (logged host pipeline log phase) := by
  unfold nextPhase PipelineRun.advance logged
  cases phase with
  | saving | removing | returned => exact h
  | halting index => exact ⟨index, 0, h, nofun⟩
  | gated index =>
    dsimp only
    split
    · exact h
    · dsimp only
      split <;> exact h
  | calling index results =>
    cases hStep : pipeline.steps[index]? with
    | none => simpa only [hStep] using h
    | some step => simpa only [hStep] using fits_calledPhase h hStep results
  | retrying index results error attempt =>
    cases hStep : pipeline.steps[index]? with
    | none => simpa only [hStep] using h
    | some step =>
      rcases h.2 step hStep with ⟨hRetry, hLe⟩
      simpa only [hStep] using fits_retriedPhase h.1 hStep hRetry hLe results error

/-
  Whatever the tools answer, the calls are blocks of calls of the steps in turn, with calls in vain
  of one step behind them; if the execution has completed, the blocks are those of all steps.
-/
theorem pipeline_calls_in_blocks (checkpoint : Option (PipelineCheckpoint α))
    (pipeline : Pipeline α) (start : Nat) (surroundings : List (Surroundings α)) :
    let s := runSteps LoggedRun.go ⟨execute false checkpoint pipeline start, []⟩ surroundings
    ∃ index errors, Fits pipeline start s.log index errors ∧
      ∀ result, s.run.phase = .returned result → result.status = .completed →
        errors = 0 ∧ pipeline.steps.length ≤ index := by
  intro s
  have hRun : s.run.pipeline = pipeline ∧ s.run.phase.Fits pipeline start s.log := by
    refine List.foldlRecOn surroundings _ (motive := fun s : LoggedRun α =>
      s.run.pipeline = pipeline ∧ s.run.phase.Fits pipeline start s.log)
      ⟨rfl, fits_loopPhase .start _⟩ ?_
    rintro s ⟨rfl, hFits⟩ now _
    refine ⟨advance_pipeline _ _ _, ?_⟩
    dsimp only [LoggedRun.go]
    rw [advance_phase]
    exact hFits.next _
  have hFits := hRun.2
  generalize s.run.phase = phase at hFits
  cases phase with
  | saving index | gated index | halting index | calling index => exact ⟨index, 0, hFits, nofun⟩
  | retrying index _ _ attempt => exact ⟨index, attempt, hFits.1, nofun⟩
  | removing => exact hFits.imp (fun _ h => h.imp (fun _ h => ⟨h.1, nofun⟩))
  | returned =>
    rcases hFits with ⟨index, errors, hFits, hCompleted⟩
    exact ⟨index, errors, hFits, fun _ hPhase => by cases hPhase; exact hCompleted⟩

end AgencCore.Workflow
