import AgencCore.Workflow.Pipeline

/-
  Resuming a pipeline.

  A resumed execution is compared with one that is never interrupted, with the approvals that hold
  when it is resumed. It starts in a phase that the uninterrupted execution goes through as well,
  and from there on they do the same. A process that died can so be resumed as if it had not
  stopped, as long as the backend has a checkpoint. A halted pipeline stays in the active set, and
  the same executor refuses to resume it.
-/

namespace AgencCore.Workflow

open Foundations List

section

variable {α : Type}
variable (host : PipelineHost α)
variable (requiresApproval : PipelineStep α → Bool)

/- What an execution goes on to. -/
def nextPhase (pipeline : Pipeline α) (phase : Phase) : Phase :=
  (PipelineRun.advance host requiresApproval ⟨pipeline, phase, none, false, []⟩).phase

def calledSteps (pipeline : Pipeline α) : Phase → List Nat
| .calling index _ => if index < pipeline.steps.length then [index] else []
| .retrying index _ _ _ => if index < pipeline.steps.length then [index] else []
| _ => []

theorem advance_pipeline (run : PipelineRun α) :
    (run.advance host requiresApproval).pipeline = run.pipeline := by
  rcases run with ⟨pipeline, phase, _, _, _⟩
  cases phase with
  | gated index | calling index | retrying index =>
    simp only [PipelineRun.advance]
    cases pipeline.steps[index]? <;> rfl
  | _ => rfl

theorem advance_phase (run : PipelineRun α) : (run.advance host requiresApproval).phase =
      nextPhase host requiresApproval run.pipeline run.phase := by
  rcases run with ⟨pipeline, phase, _, _, _⟩
  cases phase with
  | gated index | calling index | retrying index =>
    simp only [PipelineRun.advance, nextPhase]
    cases pipeline.steps[index]? <;> rfl
  | _ => rfl

/- A call is noted unless there is no such step. -/
theorem advance_calls (run : PipelineRun α) : (run.advance host requiresApproval).calls =
      run.calls ++ calledSteps run.pipeline run.phase := by
  rcases run with ⟨pipeline, phase, _, _, calls⟩
  cases phase with
  | gated index _ =>
    simp only [PipelineRun.advance, calledSteps]
    cases pipeline.steps[index]? <;> simp
  | calling index | retrying index =>
    simp only [PipelineRun.advance, calledSteps]
    cases hStep : pipeline.steps[index]? with
    | none => rw [if_neg (List.getElem?_eq_none_iff.mp hStep).not_gt, append_nil]
    | some step => rw [if_pos (List.getElem?_eq_some_iff.mp hStep).1]
  | _ => simp [PipelineRun.advance, calledSteps]

----------
-- Progress
----------

variable {host : PipelineHost α}
variable {requiresApproval : PipelineStep α → Bool}

/- What can follow the call of a step. -/
inductive AfterCall (pipeline : Pipeline α) (index : Nat) : Phase → Prop
| next (results : Record String) : AfterCall pipeline index (loopPhase pipeline (index + 1) results)
| retry (results : Record String) (error : String) (attempt : Nat) :
    AfterCall pipeline index (.retrying index results error attempt)
| failed (results : Record String) (error : String) :
    AfterCall pipeline index (failedPhase pipeline index results error)

variable (pipeline : Pipeline α)
variable (step : PipelineStep α)

theorem retryPhase_afterCall (index : Nat)
    (results : Record String) (error : String) (attempt : Nat) :
    AfterCall pipeline index (retryPhase pipeline step index results error attempt) := by
  unfold retryPhase
  split
  · exact .retry _ _ _
  · exact .failed _ _

theorem calledPhase_afterCall (index : Nat)
    (results : Record String) :
    AfterCall pipeline index (calledPhase host pipeline step index results) := by
  unfold calledPhase
  dsimp only
  split
  · unfold handleStepError
    split
    · exact .next _
    · split
      · exact retryPhase_afterCall _ _ _ _ _ _
      · exact .failed _ _
    · exact .failed _ _
  · exact .next _

theorem retriedPhase_afterCall (index : Nat)
    (results : Record String) (error : String) (attempt : Nat) :
    AfterCall pipeline index (retriedPhase host pipeline step index results error attempt) := by
  unfold retriedPhase
  dsimp only
  split
  · exact .next _
  · split
    · exact .failed _ _
    · exact retryPhase_afterCall _ _ _ _ _ _

/- Twice the step an execution is at, and one more once its tool was called. -/
def Phase.place : Phase → Option Nat
| .saving index _ | .gated index _ | .halting index _ | .calling index _ => some (2 * index)
| .retrying index _ _ _ => some (2 * index + 1)
| _ => none

/- The place is in range and does not go back. -/
def Moves (pipeline : Pipeline α) (phase phase' : Phase) : Prop :=
  ∀ q ∈ phase'.place, q / 2 < pipeline.steps.length ∧ (∃ p ∈ phase.place, p ≤ q) ∧
    ∀ i ∈ calledSteps pipeline phase, 2 * i < q

variable {pipeline : Pipeline α}

theorem loopPhase_place {index : Nat} {results : Record String} {p : Nat}
    (hMem : p ∈ (loopPhase pipeline index results).place) :
    p = 2 * index ∧ index < pipeline.steps.length := by
  unfold loopPhase at hMem
  split at hMem
  · next hLess =>
      cases hMem
      exact ⟨rfl, hLess⟩
  · cases hMem

variable {phase phase' : Phase}

theorem Moves.of_place {p q : Nat} (hPlace : phase.place = some p) (hPlace' : phase'.place = some q)
    (hRange : q / 2 < pipeline.steps.length) (hLe : p ≤ q)
    (hCalled : ∀ i ∈ calledSteps pipeline phase, 2 * i < q) : Moves pipeline phase phase' := by
  intro m hMem
  cases hPlace'.symm.trans hMem
  exact ⟨hRange, ⟨p, hPlace, hLe⟩, hCalled⟩

theorem Moves.of_end (hPlace : phase'.place = none) : Moves pipeline phase phase' := by
  intro q hMem
  cases hPlace.symm.trans hMem

/- After a call the step itself has been called. -/
theorem AfterCall.moves {index p : Nat} (hLess : index < pipeline.steps.length)
    (hPlace : phase.place = some p) (hLe : p ≤ 2 * index + 1)
    (hCalled : calledSteps pipeline phase = [index]) (hAfter : AfterCall pipeline index phase') :
    Moves pipeline phase phase' := by
  cases hAfter with
  | next results =>
    unfold loopPhase
    split
    · exact .of_place hPlace rfl (by omega) (by omega) (by rw [hCalled]; simp)
    · exact .of_end rfl
  | retry results error attempt =>
    exact .of_place hPlace rfl (by omega) hLe (by rw [hCalled]; simp)
  | failed results error => exact .of_end rfl

section

variable {step : PipelineStep α}
variable {index : Nat}
variable (hStep : pipeline.steps[index]? = some step)
include hStep

variable (results : Record String)

theorem nextPhase_gated : nextPhase host requiresApproval pipeline (.gated index results) =
      if step.requiresApproval.getD false && requiresApproval step then .halting index results
      else .calling index results := by
  simp only [nextPhase, PipelineRun.advance, hStep]

theorem nextPhase_calling : nextPhase host requiresApproval pipeline (.calling index results) =
      calledPhase host pipeline step index results := by
  simp only [nextPhase, PipelineRun.advance, hStep]

theorem nextPhase_retrying (error : String) (attempt : Nat) :
    nextPhase host requiresApproval pipeline (.retrying index results error attempt) =
      retriedPhase host pipeline step index results error attempt := by
  simp only [nextPhase, PipelineRun.advance, hStep]

end

/- From a phase in range an execution moves on. -/
theorem nextPhase_moves {pipeline : Pipeline α}
    (hRange : ∀ p ∈ phase.place, p / 2 < pipeline.steps.length) :
    Moves pipeline phase (nextPhase host requiresApproval pipeline phase) := by
  have hLess {p index : Nat} (hPlace : phase.place = some p) (hIndex : p / 2 = index) :
      index < pipeline.steps.length := hIndex ▸ hRange p hPlace
  cases phase with
  | saving index results => exact .of_place rfl rfl (hRange _ rfl) le_rfl nofun
  | gated index results =>
    rw [nextPhase_gated (getElem?_eq_getElem (hLess rfl (by omega)))]
    split
    · exact .of_place rfl rfl (hRange _ rfl) le_rfl nofun
    · exact .of_place rfl rfl (hRange _ rfl) le_rfl nofun
  | halting | removing | returned => exact .of_end rfl
  | calling index results =>
    have hLess : index < _ := hLess rfl (by omega)
    rw [nextPhase_calling (getElem?_eq_getElem hLess)]
    exact (calledPhase_afterCall _ _ _ _).moves hLess rfl (Nat.le_succ _) (if_pos hLess)
  | retrying index results error attempt =>
    have hLess : index < _ := hLess rfl (by omega)
    rw [nextPhase_retrying (getElem?_eq_getElem hLess)]
    exact (retriedPhase_afterCall _ _ _ _ _ _).moves hLess rfl le_rfl (if_pos hLess)

/- The calls of an execution that started at a step. -/
structure InOrder (first : Nat) (run : PipelineRun α) : Prop where
  range : ∀ p ∈ run.phase.place, p / 2 < run.pipeline.steps.length
  ahead : ∀ p ∈ run.phase.place, 2 * first ≤ p
  called : ∀ i ∈ run.calls, first ≤ i
  behind : ∀ i ∈ run.calls, ∀ p ∈ run.phase.place, 2 * i < p

theorem mem_calledSteps {pipeline : Pipeline α} {i : Nat} (hMem : i ∈ calledSteps pipeline phase) :
    ∃ p ∈ phase.place, p / 2 = i := by
  cases phase with
  | calling index | retrying index =>
    rw [calledSteps] at hMem
    split at hMem
    · rw [List.mem_singleton.mp hMem]
      exact ⟨_, rfl, by omega⟩
    · cases hMem
  | _ => cases hMem

theorem InOrder.advance {first : Nat} {run : PipelineRun α} (hOrder : InOrder first run) :
    InOrder first (run.advance host requiresApproval) := by
  have hMoves :
      Moves run.pipeline run.phase (nextPhase host requiresApproval run.pipeline run.phase) :=
    nextPhase_moves hOrder.range
  constructor
  · rw [advance_phase, advance_pipeline]
    exact fun q hMem => (hMoves q hMem).1
  · rw [advance_phase]
    intro q hMem
    rcases (hMoves q hMem).2.1 with ⟨p, hPlace, hLe⟩
    exact (hOrder.ahead p hPlace).trans hLe
  · rw [advance_calls]
    refine List.forall_mem_append.mpr ⟨hOrder.called, fun i hNew => ?_⟩
    rcases mem_calledSteps hNew with ⟨p, hPlace, rfl⟩
    have hAhead := hOrder.ahead p hPlace
    omega
  · rw [advance_calls, advance_phase]
    refine List.forall_mem_append.mpr ⟨fun i hOld q hMem => ?_, fun i hNew q hMem =>
      (hMoves q hMem).2.2 i hNew⟩
    rcases (hMoves q hMem).2.1 with ⟨p, hPlace, hLe⟩
    exact (hOrder.behind i hOld p hPlace).trans_le hLe

theorem inOrder_execute (checkpoint : Option (PipelineCheckpoint α)) (pipeline : Pipeline α)
    (startFrom : Nat) : InOrder startFrom (execute false checkpoint pipeline startFrom) := by
  constructor
  · intro p hMem
    rcases loopPhase_place hMem with ⟨rfl, hLess⟩
    change 2 * startFrom / 2 < pipeline.steps.length
    omega
  · intro p hMem
    rw [(loopPhase_place hMem).1]
  · exact nofun
  · exact nofun

end

----------
-- Executions Side By Side
----------

section

variable {α : Type}
variable (host : PipelineHost α)
variable (requiresApproval : PipelineStep α → Bool)

/- An execution after a number of await points. -/
def PipelineRun.advances (run : PipelineRun α) (count : Nat) : PipelineRun α :=
  (PipelineRun.advance host requiresApproval)^[count] run

def ReturnsWith (run : PipelineRun α) (result : PipelineResult) (calls : List Nat) : Prop :=
  ∃ count, (run.advances host requiresApproval count).phase = .returned result ∧
      (run.advances host requiresApproval count).calls = calls

/- The execution from the first step on. -/
def startRun (pipeline : Pipeline α) : PipelineRun α := execute false none pipeline 0

variable {host : PipelineHost α}
variable {requiresApproval : PipelineStep α → Bool}

theorem advances_succ (run : PipelineRun α) (count : Nat) :
    run.advances host requiresApproval (count + 1) =
      (run.advances host requiresApproval count).advance host requiresApproval :=
  Function.iterate_succ_apply' _ _ _

theorem advances_add (run : PipelineRun α) (count more : Nat) :
    run.advances host requiresApproval (count + more) =
      (run.advances host requiresApproval count).advances host requiresApproval more := by
  rw [PipelineRun.advances, Nat.add_comm, Function.iterate_add_apply]
  rfl

variable {run : PipelineRun α}

/- What every step keeps holds at every await point. -/
theorem advances_invariant (holds : PipelineRun α → Prop)
    (hStep : ∀ run, holds run → holds (run.advance host requiresApproval))
    (hStart : holds run) (count : Nat) : holds (run.advances host requiresApproval count) := by
  induction count with
  | zero => exact hStart
  | succ count ih =>
    rw [advances_succ]
    exact hStep _ ih

theorem advances_pipeline (run : PipelineRun α) (count : Nat) :
    (run.advances host requiresApproval count).pipeline = run.pipeline :=
  advances_invariant (fun other => other.pipeline = run.pipeline)
    (fun other hSame => (advance_pipeline _ _ other).trans hSame) rfl count

/- An execution that has returned stays as it is. -/
theorem advances_of_returned {result : PipelineResult}
    (hPhase : run.phase = .returned result) (count : Nat) :
    run.advances host requiresApproval count = run := by
  apply advances_invariant (fun other => other = run)
  · intro other hSame
    rw [hSame, PipelineRun.advance, hPhase]
  · rfl

theorem lt_of_returned {result : PipelineResult} {count total : Nat}
    (hReturned : (run.advances host requiresApproval total).phase = .returned result)
    (hLive : ∀ result, (run.advances host requiresApproval count).phase ≠ .returned result) :
    count < total := by
  by_contra hEarly
  have hStays : (run.advances host requiresApproval total).advances host requiresApproval
      (count - total) = _ := advances_of_returned hReturned _
  rw [← advances_add, Nat.add_sub_cancel' (not_lt.mp hEarly)] at hStays
  exact hLive result (hStays ▸ hReturned)

/- Later calls are added to the earlier ones. -/
theorem calls_advances (run : PipelineRun α) (count : Nat) :
    run.calls <+: (run.advances host requiresApproval count).calls := by
  apply advances_invariant (fun other => run.calls <+: other.calls)
  · intro other hFront
    rw [advance_calls]
    exact hFront.trans (prefix_append _ _)
  · exact prefix_rfl

/-
  Two executions of the same steps in the same phase. The first one has made some calls more, before
  the others.
-/
structure Alike (front : List Nat) (run run' : PipelineRun α) : Prop where
  pipeline : run'.pipeline = { run.pipeline with results := run'.pipeline.results }
  phase : run'.phase = run.phase
  calls : run.calls = front ++ run'.calls

/- Only the steps and the name of a pipeline matter. -/
theorem nextPhase_of_results (pipeline : Pipeline α) (results : Record String) (phase : Phase) :
    nextPhase host requiresApproval { pipeline with results := results } phase =
      nextPhase host requiresApproval pipeline phase := by
  cases phase with
  | gated index | calling index | retrying index =>
    simp only [nextPhase, PipelineRun.advance]
    cases pipeline.steps[index]? <;> rfl
  | _ => rfl

variable {front : List Nat}

theorem Alike.advance {run' : PipelineRun α}
    (hAlike : Alike front run run') :
    Alike front (run.advance host requiresApproval) (run'.advance host requiresApproval) := by
  constructor
  · rw [advance_pipeline, advance_pipeline]
    exact hAlike.pipeline
  · rw [advance_phase, advance_phase, hAlike.pipeline, hAlike.phase, nextPhase_of_results]
  · have hCalled : calledSteps run'.pipeline run'.phase = calledSteps run.pipeline run.phase := by
      rw [hAlike.phase, hAlike.pipeline]
      cases run.phase <;> rfl
    rw [advance_calls, advance_calls, hAlike.calls, hCalled, append_assoc]

theorem Alike.advances {run' : PipelineRun α} (hAlike : Alike front run run')
    (count : Nat) :
    Alike front (run.advances host requiresApproval count)
      (run'.advances host requiresApproval count) := by
  induction count with
  | zero => exact hAlike
  | succ count ih =>
    rw [advances_succ, advances_succ]
    exact ih.advance

/- Calls in front of a step, followed by later ones. -/
theorem filter_from_step {first : Nat} {calls : List Nat} (hFront : ∀ i ∈ front, i < first)
    (hCalls : ∀ i ∈ calls, first ≤ i) : (front ++ calls).filter (fun i => first ≤ i) = calls := by
  rw [filter_append, List.filter_eq_nil_iff.mpr (fun i hMem => by simpa using hFront i hMem),
    List.filter_eq_self.mpr (fun i hMem => by simpa using hCalls i hMem), nil_append]

/-
  An execution that starts where another one gets to returns what that one returns, after the calls
  that are left.
-/
theorem returnsWith_of_alike {first : Nat} {run' : PipelineRun α} (count : Nat)
    (hBehind : ∀ i ∈ (run.advances host requiresApproval count).calls, i < first)
    (hAhead : InOrder first run')
    (hLive : ∀ result, (run.advances host requiresApproval count).phase ≠ .returned result)
    (hAlike : Alike (run.advances host requiresApproval count).calls
        (run.advances host requiresApproval count) run') (result : PipelineResult)
    (calls : List Nat) :
    (∃ all, ReturnsWith host requiresApproval run result all ∧
        calls = all.filter (fun i => first ≤ i)) ↔
      ReturnsWith host requiresApproval run' result calls := by
  have hSplit : ∀ more,
        ((run.advances host requiresApproval (count + more)).calls).filter (fun i => first ≤ i) =
          (run'.advances host requiresApproval more).calls := by
    intro more
    rw [advances_add, (hAlike.advances more).calls]
    exact filter_from_step hBehind
      (advances_invariant (InOrder first) (fun _ hOrder => hOrder.advance) hAhead more).called
  have hPhase : ∀ more, (run'.advances host requiresApproval more).phase =
          (run.advances host requiresApproval (count + more)).phase := by
    intro more
    rw [advances_add]
    exact (hAlike.advances more).phase
  constructor
  · rintro ⟨all, ⟨total, hReturned, hAll⟩, hCalls⟩
    have hLater := (lt_of_returned hReturned hLive).le
    rcases Nat.exists_eq_add_of_le hLater with ⟨more, rfl⟩
    exact ⟨more, (hPhase more).trans hReturned, by rw [hCalls, ← hAll, hSplit]⟩
  · rintro ⟨more, hReturned, hCalls⟩
    exact ⟨_, ⟨count + more, (hPhase more).symm.trans hReturned, rfl⟩, by rw [hSplit, hCalls]⟩

----------
-- Stopped Executions
----------

/- The uninterrupted execution gets into a phase. -/
def Reaches (host : PipelineHost α) (requiresApproval : PipelineStep α → Bool)
    (pipeline : Pipeline α) (phase : Phase) : Prop :=
  ∃ count, ((startRun pipeline).advances host requiresApproval count).phase = phase

/- The last phase before the current one that does not depend on an approval. -/
def Phase.origin : Phase → Option Phase
| .saving index results => some (.saving index results)
| .gated index results => some (.saving index results)
| .halting index results => some (.saving index results)
| .calling index results => some (.calling index results)
| .retrying index results error attempt => some (.retrying index results error attempt)
| _ => none

variable {before after : PipelineStep α → Bool}
variable {pipeline : Pipeline α}
variable {phase : Phase}

theorem Reaches.next (hReaches : Reaches host after pipeline phase) :
    Reaches host after pipeline (nextPhase host after pipeline phase) := by
  rcases hReaches with ⟨count, rfl⟩
  refine ⟨count + 1, ?_⟩
  rw [advances_succ, advance_phase, advances_pipeline]
  rfl

/- The uninterrupted execution is in order. -/
theorem inOrder_advances (count : Nat) :
    InOrder 0 ((startRun pipeline).advances host after count) :=
  advances_invariant (InOrder 0) (fun _ hOrder => hOrder.advance)
    (inOrder_execute none pipeline 0) count

theorem Reaches.range (hReaches : Reaches host after pipeline phase) :
    ∀ p ∈ phase.place, p / 2 < pipeline.steps.length := by
  rcases hReaches with ⟨count, rfl⟩
  have hOrder : InOrder 0 ((startRun pipeline).advances host after count) := inOrder_advances count
  have hRange := hOrder.range
  rw [advances_pipeline] at hRange
  exact hRange

theorem Reaches.calling {index : Nat} {results : Record String} {step : PipelineStep α}
    (hReaches : Reaches host after pipeline (.saving index results))
    (hStep : pipeline.steps[index]? = some step)
    (hFree : ¬ (step.requiresApproval.getD false && after step) = true) :
    Reaches host after pipeline (.calling index results) := by
  have hNext : Reaches host after pipeline (nextPhase host after pipeline (.gated index results)) :=
    hReaches.next.next
  rwa [nextPhase_gated hStep, if_neg hFree] at hNext

theorem Reaches.lt_length (hReaches : Reaches host after pipeline phase) {p index : Nat}
    (hPlace : phase.place = some p) (hIndex : p / 2 = index) : index < pipeline.steps.length :=
  hIndex ▸ hReaches.range p hPlace

/-
  What is known of an execution that is stopped. Its phase and its checkpoint are those of the
  uninterrupted one, and it is active unless it has removed the checkpoint.
-/
structure StoppedWell (host : PipelineHost α) (after : PipelineStep α → Bool)
    (pipeline : Pipeline α) (run : PipelineRun α) : Prop where
  same : run.pipeline = pipeline
  origin : ∀ phase ∈ run.phase.origin, Reaches host after pipeline phase
  saved : ∀ saved ∈ run.checkpoint, saved.pipeline = pipeline ∧ saved.trust = .trusted ∧
        Reaches host after pipeline (.saving saved.stepIndex saved.results)
  active : (∀ result, run.phase ≠ .returned result) → run.active = true
  removing : ∀ result, run.phase = .removing result → result.status ≠ .halted
  halted : ∀ result, run.phase = .returned result →
      result.status = .halted →
        run.active = true ∧ ∃ saved ∈ run.checkpoint, result.resumeFrom = some saved.stepIndex

/- What follows a call does not wait for an approval. -/
structure Unblocked (phase : Phase) : Prop where
  origin : ∀ other ∈ phase.origin, other = phase
  live : ∀ result, phase ≠ .returned result
  removing : ∀ result, phase = .removing result → result.status ≠ .halted

theorem Unblocked.of_origin (hOrigin : phase.origin = some phase) : Unblocked phase := by
  refine ⟨fun other hMem => ?_, ?_, ?_⟩
  · exact (Option.some.inj (hOrigin.symm.trans hMem)).symm
  all_goals rintro result rfl; cases hOrigin

theorem Unblocked.of_removing {result : PipelineResult} (hStatus : result.status ≠ .halted) :
    Unblocked (.removing result) := by
  refine ⟨nofun, nofun, fun other hSame => ?_⟩
  cases hSame
  exact hStatus

theorem unblocked_loopPhase (pipeline : Pipeline α) (index : Nat) (results : Record String) :
    Unblocked (loopPhase pipeline index results) := by
  unfold loopPhase
  split
  · exact .of_origin rfl
  · exact .of_removing nofun

theorem AfterCall.unblocked {index : Nat}
    (hAfter : AfterCall pipeline index phase) : Unblocked phase := by
  cases hAfter with
  | next results => exact unblocked_loopPhase _ _ _
  | retry results error attempt => exact .of_origin rfl
  | failed results error => exact .of_removing nofun

/- A call leads both executions into the same phase. -/
theorem StoppedWell.of_call (hRun : StoppedWell host after pipeline run)
    (hLive : ∀ result, run.phase ≠ .returned result) {index : Nat}
    (hAfter : AfterCall pipeline index phase) (hReaches : Reaches host after pipeline phase)
    (calls : List Nat) :
    StoppedWell host after pipeline { run with phase := phase, calls := calls } := by
  have hUnblocked := hAfter.unblocked
  refine ⟨hRun.same, ?_, hRun.saved, fun _ => hRun.active hLive, hUnblocked.removing, ?_⟩
  · intro other hMem
    rw [hUnblocked.origin other hMem]
    exact hReaches
  · exact fun result hReturned => absurd hReturned (hUnblocked.live result)

/- The approvals that are asked for later were before. -/
theorem StoppedWell.advance (hGranted : ∀ step, after step = true → before step = true)
    (hRun : StoppedWell host after pipeline run) :
    StoppedWell host after pipeline (run.advance host before) := by
  rcases run with ⟨own, phase, checkpoint, active, calls⟩
  have hSame : own = pipeline := hRun.same
  subst hSame
  cases phase with
  | saving index results =>
    have hReaches := hRun.origin _ rfl
    refine ⟨rfl, hRun.origin, ?_, fun _ => hRun.active nofun, nofun, nofun⟩
    intro saved hMem
    cases hMem
    exact ⟨rfl, rfl, hReaches⟩
  | gated index results =>
    have hReaches := hRun.origin _ rfl
    have hStep := getElem?_eq_getElem (hReaches.lt_length rfl (by omega : _ = index))
    simp only [PipelineRun.advance]
    rw [hStep]
    dsimp only
    split
    · exact ⟨rfl, hRun.origin, hRun.saved, fun _ => hRun.active nofun, nofun, nofun⟩
    · next hFree =>
        refine ⟨rfl, ?_, hRun.saved, fun _ => hRun.active nofun, nofun, nofun⟩
        intro other hMem
        cases hMem
        refine hReaches.calling hStep (fun hBlocked => hFree ?_)
        rw [Bool.and_eq_true] at hBlocked ⊢
        exact ⟨hBlocked.1, hGranted _ hBlocked.2⟩
  | halting index results =>
    have hReaches := hRun.origin _ rfl
    refine ⟨rfl, nofun, ?_, ?_, nofun, ?_⟩
    · intro saved hMem
      cases hMem
      exact ⟨rfl, rfl, hReaches⟩
    · exact fun hLive => absurd rfl (hLive _)
    · intro result hReturned _
      cases hReturned
      exact ⟨hRun.active nofun, _, rfl, rfl⟩
  | calling index results =>
    have hReaches := hRun.origin _ rfl
    have hStep := getElem?_eq_getElem (hReaches.lt_length rfl (by omega : _ = index))
    have hNext := hReaches.next
    rw [nextPhase_calling hStep] at hNext
    simp only [PipelineRun.advance]
    rw [hStep]
    exact hRun.of_call nofun (calledPhase_afterCall _ _ _ _) hNext _
  | retrying index results error attempt =>
    have hReaches := hRun.origin _ rfl
    have hStep := getElem?_eq_getElem (hReaches.lt_length rfl (by omega : _ = index))
    have hNext := hReaches.next
    rw [nextPhase_retrying hStep] at hNext
    simp only [PipelineRun.advance]
    rw [hStep]
    exact hRun.of_call nofun (retriedPhase_afterCall _ _ _ _ _ _) hNext _
  | removing result =>
    refine ⟨rfl, nofun, nofun, ?_, nofun, ?_⟩
    · exact fun hLive => absurd rfl (hLive _)
    · intro other hReturned hHalted
      cases hReturned
      exact absurd hHalted (hRun.removing result rfl)
  | returned result => exact hRun

theorem stoppedWell_start : StoppedWell host after pipeline (startRun pipeline) := by
  have hUnblocked := unblocked_loopPhase pipeline 0 pipeline.results
  refine ⟨rfl, ?_, nofun, fun _ => rfl, hUnblocked.removing, ?_⟩
  · intro other hMem
    rw [hUnblocked.origin other hMem]
    exact ⟨0, rfl⟩
  · exact fun result hReturned => absurd hReturned (hUnblocked.live result)

----------
-- Resuming
----------

/-
  How an execution stopped and is resumed: on the same executor after it has halted, or by another
  process, which may find that the checkpoint has expired.
-/
inductive Stop where
  | halt
  | death (expired : Bool)
deriving DecidableEq

def Stop.resume (stop : Stop) (run : PipelineRun α) : Except String (PipelineRun α) :=
  match stop with
  | .halt => Workflow.resume run.active run.pipeline.id run.checkpoint
  | .death expired =>
    Workflow.resume false run.pipeline.id (if expired then none else run.checkpoint)

/- A halted execution is resumed once its step needs no approval any more. -/
def Stop.Approved (stop : Stop) (after : PipelineStep α → Bool) (run : PipelineRun α) : Prop :=
  stop = .halt →
    ∃ result index step,
      run.phase = .returned result ∧ result.status = .halted ∧ result.resumeFrom = some index ∧
        run.pipeline.steps[index]? = some step ∧ after step = false

/-
  The resumed execution returns exactly what the uninterrupted one does, after calling exactly the
  steps that one calls from the checkpoint on.
-/
def AsIfNeverStopped (host : PipelineHost α) (after : PipelineStep α → Bool)
    (stopped : PipelineRun α) (resumed : Except String (PipelineRun α)) : Prop :=
  ∃ saved ∈ stopped.checkpoint, ∃ run, resumed = .ok run ∧
      ∀ result calls, (∃ all, ReturnsWith host after (startRun stopped.pipeline) result all ∧
            calls = all.filter (fun i => saved.stepIndex ≤ i)) ↔
          ReturnsWith host after run result calls

variable {stopped : PipelineRun α}

/- A checkpoint that is found leads on. -/
theorem StoppedWell.resumed (hStopped : StoppedWell host after pipeline stopped)
    {saved : PipelineCheckpoint α} (hSaved : stopped.checkpoint = some saved) :
    AsIfNeverStopped host after stopped ((Stop.death false).resume stopped) := by
  rcases hStopped.saved saved hSaved with ⟨hOwn, hTrust, count, hPhase⟩
  have hLess : saved.stepIndex < pipeline.steps.length :=
    Reaches.lt_length ⟨count, hPhase⟩ rfl (by omega)
  refine ⟨saved, hSaved,
    execute false (some saved) { pipeline with results := saved.results } saved.stepIndex, ?_, ?_⟩
  · unfold Stop.resume Workflow.resume
    dsimp only
    rw [if_neg Bool.false_ne_true, hSaved]
    dsimp only
    rw [if_neg (by rw [hTrust]; decide), hOwn]
  · have hOrder : InOrder 0 ((startRun pipeline).advances host after count) :=
      inOrder_advances count
    rw [hStopped.same]
    intro result calls
    refine returnsWith_of_alike count ?_
      (inOrder_execute (some saved) { pipeline with results := saved.results }
        saved.stepIndex) ?_ ⟨?_, ?_, ?_⟩ result calls
    · intro i hMem
      have hBehind := hOrder.behind i hMem
      rw [hPhase] at hBehind
      exact Nat.lt_of_mul_lt_mul_left (hBehind _ rfl)
    · rw [hPhase]
      exact nofun
    · rw [advances_pipeline]
      rfl
    · rw [hPhase]
      exact if_pos hLess
    · exact (append_nil _).symm

/- The executor that halted refuses to go on. -/
theorem StoppedWell.refused (hStopped : StoppedWell host after pipeline stopped)
    (hApproved : Stop.halt.Approved after stopped) :
    ¬ AsIfNeverStopped host after stopped (Stop.halt.resume stopped) := by
  rcases hApproved rfl with ⟨halted, index, step, hPhase, hStatus, hFrom, hStep, hFree⟩
  rcases hStopped.halted halted hPhase hStatus with ⟨hActive, saved, hSaved, hIndex⟩
  cases hFrom.symm.trans hIndex
  rintro ⟨other, hOther, run, hRun, hSame⟩
  cases hSaved.symm.trans hOther
  rcases hStopped.saved saved hSaved with ⟨hOwn, hTrust, hReaches⟩
  rw [hStopped.same] at hStep hSame
  -- It returns at once, without a call.
  have hRefused : run = execute true (some saved) { pipeline with results := saved.results }
        saved.stepIndex := by
    unfold Stop.resume Workflow.resume at hRun
    have hGet : stopped.checkpoint = some saved := hSaved
    dsimp only at hRun
    rw [hGet] at hRun
    dsimp only at hRun
    rw [if_neg (by rw [hTrust]; decide), hOwn, hActive] at hRun
    cases hRun
    rfl
  have hNone : ∃ result, ReturnsWith host after run result [] := by
    rw [hRefused]
    exact ⟨_, 0, rfl, rfl⟩
  rcases hNone with ⟨result, hReturned⟩
  rcases (hSame result []).mpr hReturned with ⟨all, ⟨total, hEnd, hAll⟩, hEmpty⟩
  -- The uninterrupted execution calls the step.
  rcases hReaches.calling hStep (by simp [hFree]) with ⟨count, hCount⟩
  have hLater : count < total := lt_of_returned hEnd (by rw [hCount]; nofun)
  rcases Nat.exists_eq_add_of_lt hLater with ⟨more, rfl⟩
  have hCalled : saved.stepIndex ∈ ((startRun pipeline).advances host after (count + 1)).calls := by
    rw [advances_succ, advance_calls, hCount, advances_pipeline, calledSteps]
    have hLess : saved.stepIndex < (startRun pipeline).pipeline.steps.length :=
      (List.getElem?_eq_some_iff.mp hStep).1
    rw [if_pos hLess]
    simp
  have hIn : saved.stepIndex ∈ all := by
    have hOrder : count + more + 1 = count + 1 + more := by omega
    rw [hOrder, advances_add] at hAll
    rw [← hAll]
    exact (calls_advances _ more).subset hCalled
  have hKept : saved.stepIndex ∈ all.filter (fun i => saved.stepIndex ≤ i) :=
    List.mem_filter.mpr ⟨hIn, decide_eq_true (Nat.le_refl _)⟩
  rw [← hEmpty] at hKept
  cases hKept

/-
  Wherever an execution is stopped, it is resumed as if it had never stopped if and only if another
  process takes over and finds its checkpoint.
-/
theorem resumed_iff_died_with_checkpoint (host : PipelineHost α)
    (before after : PipelineStep α → Bool)
    (hGranted : ∀ step, after step = true → before step = true) (pipeline : Pipeline α)
    (count : Nat) (stop : Stop)
    (hApproved : stop.Approved after ((startRun pipeline).advances host before count)) :
    let stopped := (startRun pipeline).advances host before count
    AsIfNeverStopped host after stopped (stop.resume stopped) ↔
      stop = .death false ∧ stopped.checkpoint.isSome = true := by
  intro stopped
  have hStopped : StoppedWell host after pipeline stopped :=
    advances_invariant (StoppedWell host after pipeline) (fun _ hRun => hRun.advance hGranted)
      stoppedWell_start count
  constructor
  · intro hSame
    rcases hSame with ⟨saved, hSaved, run, hRun, hReturns⟩
    have hSome : stopped.checkpoint.isSome = true := Option.isSome_iff_exists.mpr ⟨saved, hSaved⟩
    refine ⟨?_, hSome⟩
    cases stop with
    | halt => exact absurd ⟨saved, hSaved, run, hRun, hReturns⟩ (hStopped.refused hApproved)
    | death expired => cases expired with
        | false => rfl
        | true => cases hRun
  · rintro ⟨rfl, hSome⟩
    rcases Option.isSome_iff_exists.mp hSome with ⟨saved, hSaved⟩
    exact hStopped.resumed hSaved

/- A host whose only tool always answers. -/
def PipelineHost.answering : PipelineHost Unit where
  toolHandler := fun _ _ _ => .returned "done"
  didToolCallFail := fun _ => false
  failureText := fun text => text
  toLowerCase := fun text => text

/- Two calls, and the second one needs an approval. -/
def gatedPipeline : Pipeline Unit where
  id := "deploy"
  steps :=
    [{ name := "build", tool := "shell", args := () },
      { name := "release", tool := "shell", args := (), requiresApproval := some true }]
  results := .empty
  createdAt := 0

/- The status and the error an execution has returned. -/
def Phase.outcome : Phase → Option (PipelineStatus × Option String)
| .returned result => some (result.status, result.error)
| _ => none

/- A process that dies after the first call. -/
theorem died_pipeline_resumed :
    let stopped := (startRun gatedPipeline).advances .answering (fun _ => false) 3
    AsIfNeverStopped .answering (fun _ => false) stopped ((Stop.death false).resume stopped) :=
  (resumed_iff_died_with_checkpoint .answering _ _
    (fun _ hNever => hNever) gatedPipeline 3 (.death false) nofun).mpr ⟨rfl, by decide +kernel⟩

/-
  A pipeline that halted for an approval. Once it is given, the same executor says that the pipeline
  is running, and the uninterrupted execution completes.
-/
theorem halted_pipeline_refused :
    let stopped := (startRun gatedPipeline).advances .answering (fun _ => true) 6
    stopped.phase.outcome = some (.halted, none) ∧
      (Stop.halt.resume stopped).map (fun run => (run.phase.outcome, run.calls)) =
        .ok (some (.failed, some "Pipeline \"deploy\" is already running"), []) ∧
      ((startRun gatedPipeline).advances .answering (fun _ => false) 7).phase.outcome =
        some (.completed, none) := by decide +kernel

end

end AgencCore.Workflow
