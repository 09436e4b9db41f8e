import AgencCore.Workflow.ExecutionKernel

/-
  Planner steps as the orchestrator runs them.

  The result of the sub-pipeline of a deterministic step is mapped to a completed node whatever its
  status, and every result is taken to satisfy the dependants. Children report failures and
  fallbacks themselves.
-/

namespace AgencCore.Gateway

open Foundations List
open Workflow

inductive PipelineStatus where
  | completed
  | failed
  | halted
deriving DecidableEq

/- How a step ends: its sub-pipeline, its child, or its own text; or it is not run at all. -/
inductive StepEnd where
  | subPipeline (status : PipelineStatus)
  | child (outcome : NodeOutcome)
  | synthesis
  | cancelled
deriving DecidableEq

def mapDeterministicPipelineResultToNodeOutcome (_ : PipelineStatus) : NodeOutcome := .completed

def StepEnd.toNodeOutcome : StepEnd → NodeOutcome
| .subPipeline status => mapDeterministicPipelineResultToNodeOutcome status
| .child outcome => outcome
| .synthesis => .completed
| .cancelled => .failed

def assessPlannerDependencySatisfaction (_ : StepEnd) : Bool := true

/- A step that is recovered by its fallback counts. -/
def StepEnd.succeeded : StepEnd → Bool
| .subPipeline status => status = .completed
| .child outcome => outcome = .completed ∨ outcome = .recovered
| .synthesis => true
| .cancelled => false

def StepEnd.subPipelineBroke : StepEnd → Bool
| .subPipeline status => status ≠ .completed
| _ => false

structure PlanAction where
  index : Nat
  stepEnd : StepEnd

structure PlanState where
  kernel : KernelState
  ended : List (String × StepEnd)

def planStart (run : PlannerRun) : PlanState := ⟨run.start, []⟩

def planStep (run : PlannerRun) (s : PlanState) (action : PlanAction) : PlanState :=
  { kernel := run.step s.kernel
      ⟨action.index, action.stepEnd.toNodeOutcome,
        assessPlannerDependencySatisfaction action.stepEnd⟩
    ended := s.ended ++
      (s.kernel.running[action.index]?.map (fun node => (node.1, action.stepEnd))).toList }

/- A completed plan has no step that failed, and nothing is started behind a broken step. -/
structure ReallySucceeded (run : PlannerRun) (s : PlanState) : Prop where
  steps : s.kernel.result = some .completed → ∀ name ∈ run.names,
    name ∈ s.kernel.satisfied ∧ ∃ entry ∈ s.ended, entry.1 = name ∧ entry.2.succeeded = true
  dependants : ∀ entry ∈ s.ended, entry.2.subPipelineBroke = true →
    ∀ started ∈ s.kernel.started, ¬ Relation.TransGen run.DependsOn started.1 entry.1

----------
-- Completed Plans
----------

/- Only blocked steps are unmet, and what is met has succeeded. -/
structure PlanSound (run : PlannerRun) (s : PlanState) : Prop where
  kernel : run.Sound s.kernel
  unmet : s.kernel.unsatisfied ⊆ s.kernel.blockedStepNames
  met : ∀ name ∈ s.kernel.satisfied, ∃ entry ∈ s.ended, entry.1 = name ∧ entry.2.succeeded = true
  whole : s.kernel.result = some .completed → run.names ⊆ s.kernel.satisfied
  unbroken : ∀ entry ∈ s.ended, entry.2.subPipelineBroke = false

variable {run : PlannerRun} {s : PlanState}

theorem schedule_frame (exclusiveRunning : Bool) {s : KernelState}
    (hUnmet : s.unsatisfied ⊆ s.blockedStepNames) (rest : List String) :
    let next := run.schedule exclusiveRunning s rest
    next.unsatisfied ⊆ next.blockedStepNames ∧ next.satisfied = s.satisfied := by
  induction rest generalizing s with
  | nil => exact ⟨hUnmet, rfl⟩
  | cons name rest ih =>
    have hBlock : (s.block name).unsatisfied ⊆ (s.block name).blockedStepNames := by
      refine List.cons_subset.mpr ⟨mem_append_right _ mem_cons_self, ?_⟩
      exact List.Subset.trans hUnmet (subset_append_left _ _)
    have hBegin := @ih (s.begin name false) hUnmet
    unfold PlannerRun.schedule
    split_ifs
    · exact ⟨hUnmet, rfl⟩
    · exact ih hBlock
    · exact ⟨hUnmet, rfl⟩
    · exact ⟨hUnmet, rfl⟩
    · exact ih hUnmet
    · exact hBegin
    · exact ih hUnmet
    · exact ih hUnmet

/- What a pass leaves, and that it completes a plan only if every step is met. -/
theorem pass_frame {s : KernelState} {order : List String} (hSafe : run.Safe order s)
    (hOk : run.materializeDag = .ok order) (hUnmet : s.unsatisfied ⊆ s.blockedStepNames) :
    let next := run.pass s order
    next.unsatisfied ⊆ next.blockedStepNames ∧ next.satisfied = s.satisfied ∧
      (next.result = some .completed → run.names ⊆ next.satisfied) := by
  rcases schedule_frame (s.running.any (·.2)) hUnmet order with ⟨hUnmet', hSame⟩
  have hNext : run.Safe order (run.schedule (s.running.any (·.2)) s order) :=
    hSafe.schedule (by simp) order
  refine ⟨hUnmet', hSame, ?_⟩
  intro hDone name hName
  change (run.schedule (s.running.any (·.2)) s order).verdict = _ at hDone
  unfold KernelState.verdict at hDone
  split_ifs at hDone with hRunning hPending hBlocked
  · cases hDone
  · cases hDone
  · have hPlace := hNext.placed name ((Workflow.PlannerRun.materializeDag_ok hOk).2.1 hName)
    rw [not_not.mp hBlocked] at hUnmet'
    rw [not_not.mp hRunning, not_not.mp hPending, eq_nil_of_subset_nil hUnmet'] at hPlace
    have hMet : name ∈ (run.schedule (s.running.any (·.2)) s order).satisfied := by
      simpa using hPlace
    exact hMet

theorem PlanSound.start (run : PlannerRun) : PlanSound run (planStart run) := by
  have hRefuse (result : KernelResult) (hResult : result ≠ .completed)
      (hSound : run.Sound (.refuse result)) : PlanSound run ⟨.refuse result, []⟩ :=
    ⟨hSound, nil_subset _, forall_mem_nil _,
      fun hSame => absurd (Option.some.inj hSame) hResult, forall_mem_nil _⟩
  have hSound := Workflow.PlannerRun.Sound.start run
  unfold planStart
  unfold PlannerRun.start at hSound ⊢
  split_ifs at hSound ⊢
  · exact hRefuse _ nofun hSound
  · exact hRefuse _ nofun hSound
  · cases hError : run.delegate.validationError with
    | some error => exact hRefuse _ nofun (by rwa [hError] at hSound)
    | none =>
      rw [hError] at hSound
      cases hOk : run.materializeDag with
      | error error => exact hRefuse _ nofun (by rwa [hOk] at hSound)
      | ok order =>
        rw [hOk] at hSound
        rcases pass_frame (.start run order) hOk (nil_subset _) with ⟨hUnmet, hSame, hWhole⟩
        refine ⟨hSound, hUnmet, ?_, hWhole, forall_mem_nil _⟩
        dsimp only
        rw [hSame]
        exact forall_mem_nil _

theorem succeeded_of_outcome {stepEnd : StepEnd} (hWhole : stepEnd.subPipelineBroke = false)
    (hFailed : stepEnd.toNodeOutcome ≠ .failed) (hHalted : stepEnd.toNodeOutcome ≠ .halted)
    (hThrown : stepEnd.toNodeOutcome ≠ .thrown) : stepEnd.succeeded = true := by
  cases stepEnd with
  | subPipeline status => simpa [StepEnd.subPipelineBroke, StepEnd.succeeded] using hWhole
  | child outcome =>
    cases outcome <;> simp_all [StepEnd.toNodeOutcome, StepEnd.succeeded]
  | synthesis => rfl
  | cancelled => exact absurd rfl hFailed

theorem PlanSound.step (hSound : PlanSound run s) {action : PlanAction}
    (hWhole : action.stepEnd.subPipelineBroke = false) : PlanSound run (planStep run s action) := by
  have hKernel := hSound.kernel.step
    ⟨action.index, action.stepEnd.toNodeOutcome,
      assessPlannerDependencySatisfaction action.stepEnd⟩
  have hMet : ∀ name ∈ s.kernel.satisfied, ∃ entry ∈ (planStep run s action).ended,
      entry.1 = name ∧ entry.2.succeeded = true := by
    intro name hName
    rcases hSound.met name hName with ⟨entry, hEntry, hEnd⟩
    exact ⟨entry, mem_append_left _ hEntry, hEnd⟩
  have hUnbroken : ∀ entry ∈ (planStep run s action).ended, entry.2.subPipelineBroke = false := by
    intro entry hEntry
    rcases List.mem_append.mp hEntry with hOld | hNew
    · exact hSound.unbroken entry hOld
    · rcases Option.map_eq_some_iff.mp (Option.mem_toList.mp hNew) with ⟨_, _, rfl⟩
      exact hWhole
  -- every branch but the last two leaves the sets alone
  suffices hSets : (planStep run s action).kernel.unsatisfied ⊆
      (planStep run s action).kernel.blockedStepNames ∧
      (∀ name ∈ (planStep run s action).kernel.satisfied,
        ∃ entry ∈ (planStep run s action).ended, entry.1 = name ∧ entry.2.succeeded = true) ∧
      ((planStep run s action).kernel.result = some .completed →
        run.names ⊆ (planStep run s action).kernel.satisfied) from
    ⟨hKernel, hSets.1, hSets.2.1, hSets.2.2, hUnbroken⟩
  unfold planStep PlannerRun.step at hMet ⊢
  dsimp only at hMet ⊢
  split
  · next order name exclusive hResult hOk hNode =>
    rcases hSound.kernel.goesOn hResult with ⟨_, hOk', hSafe⟩
    cases hOk.symm.trans hOk'
    have hCurrent := (hSafe.current _ (mem_of_getElem? hNode)).1
    split
    · exact ⟨hSound.unmet, hMet, nofun⟩
    · exact ⟨hSound.unmet, hMet, nofun⟩
    · exact ⟨hSound.unmet, hMet, nofun⟩
    · next hFailed hHalted hThrown =>
      have hAssessed : assessPlannerDependencySatisfaction action.stepEnd = true := rfl
      rw [if_pos hAssessed]
      have hFinish := hSafe.finish hNode (subset_cons_self name _) (List.Subset.refl _)
        (List.forall_mem_cons.mpr ⟨subset_cons_of_subset _ hCurrent, fun other hOther =>
          subset_cons_of_subset _ (hSafe.closed other hOther)⟩) (Or.inl mem_cons_self)
      rcases pass_frame hFinish hOk hSound.unmet with ⟨hUnmet, hSame, hDone⟩
      refine ⟨hUnmet, ?_, hDone⟩
      rw [hSame]
      refine List.forall_mem_cons.mpr ⟨⟨(name, action.stepEnd), ?_, rfl, ?_⟩, hMet⟩
      · simp [hNode]
      · exact succeeded_of_outcome hWhole hFailed hHalted hThrown
  · exact ⟨hSound.unmet, hMet, hSound.whole⟩

/- As long as every sub-pipeline returns completed, a completed plan has succeeded. -/
theorem completed_plan_succeeded (run : PlannerRun) {actions : List PlanAction}
    (hWhole : ∀ action ∈ actions, action.stepEnd.subPipelineBroke = false) :
    ReallySucceeded run (runSteps (planStep run) (planStart run) actions) := by
  have hSound : PlanSound run (runSteps (planStep run) (planStart run) actions) :=
    List.foldlRecOn actions (planStep run) (PlanSound.start run)
      (fun _ hSound action hAction => hSound.step (hWhole action hAction))
  refine ⟨fun hDone name hName => ?_, ?_⟩
  · have hMet := hSound.whole hDone hName
    exact ⟨hMet, hSound.met name hMet⟩
  · intro entry hEntry hBroke
    rw [hSound.unbroken entry hEntry] at hBroke
    cases hBroke

/- The second step needs the first. -/
def twoSteps : PlannerRun :=
  { steps := [⟨"a", []⟩, ⟨"b", ["a"]⟩], edges := [], startFrom := 0
    delegate := ⟨none, fun _ => false, none⟩ }

theorem two_steps_succeeded :
    ReallySucceeded twoSteps (runSteps (planStep twoSteps) (planStart twoSteps)
      [⟨0, .subPipeline .completed⟩, ⟨0, .child .recovered⟩]) :=
  completed_plan_succeeded twoSteps (by decide +kernel)

/- A failed sub-pipeline, and a plan that is completed. -/
theorem failed_step_completes :
    ¬ ReallySucceeded twoSteps (runSteps (planStep twoSteps) (planStart twoSteps)
      [⟨0, .subPipeline .failed⟩, ⟨0, .child .completed⟩]) := by
  intro hReally
  have hMet := (hReally.steps (by decide +kernel) "a" (by decide +kernel)).2
  exact absurd hMet (by decide +kernel)

end AgencCore.Gateway
