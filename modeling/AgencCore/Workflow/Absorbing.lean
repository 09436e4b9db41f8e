import AgencCore.Foundations.Worklist
import AgencCore.Workflow.Monitor

/-
  When terminal statuses are final.

  A completion is handled unless the node is completed, and a failure unless the node is failed or
  cancelled. An input that reports the opposite of a terminal status therefore changes it, and the
  workflow is settled once more. This happens when a node was cancelled by the cascade while its
  task went on to complete, or when a disputed task is resolved after it was reported as failed.

  Without such inputs terminal statuses are final and there is one workflow-level call at most.
-/

namespace AgencCore.Workflow

open Foundations OrderedMap

/- Nodes with a terminal status are as they were, and nothing was decided about the workflow. -/
structure KeepsTerminal (w w' : MonitoredWorkflow) : Prop where
  nodes : ∀ name node, w.nodes.get? name = some node →
      node.status.isTerminal = true → w'.nodes.get? name = some node
  known : ∀ name, (w.nodes.get? name).isSome = true → (w'.nodes.get? name).isSome = true
  status : w'.status = w.status
  workflowCalls : w'.workflowCalls = w.workflowCalls

theorem KeepsTerminal.refl (w : MonitoredWorkflow) : KeepsTerminal w w :=
  ⟨fun _ _ h _ => h, fun _ h => h, rfl, rfl⟩

theorem KeepsTerminal.trans {w₁ w₂ w₃ : MonitoredWorkflow} (h₁ : KeepsTerminal w₁ w₂)
    (h₂ : KeepsTerminal w₂ w₃) : KeepsTerminal w₁ w₃ :=
  ⟨fun name node hGet hTerm => h₂.nodes name node (h₁.nodes name node hGet hTerm) hTerm,
    fun name hSome => h₂.known name (h₁.known name hSome), h₂.status.trans h₁.status,
    h₂.workflowCalls.trans h₁.workflowCalls⟩

/- What each step of a loop keeps, the loop keeps. -/
theorem KeepsTerminal.foldl {f : MonitoredWorkflow → String → MonitoredWorkflow}
    (hStep : ∀ w name, KeepsTerminal w (f w name)) (names : List String) (w : MonitoredWorkflow) :
    KeepsTerminal w (names.foldl f w) := by
  induction names generalizing w with
  | nil => exact .refl w
  | cons name rest ih => exact (hStep w name).trans (ih _)

/- Storing a node that was open, with a node-level call. -/
theorem update_keepsTerminal {w : MonitoredWorkflow} {name : String} {old : WorkflowNode}
    (hGet : w.nodes.get? name = some old) (hOpen : old.status.isTerminal = false)
    (node : WorkflowNode) {call : WorkflowCall} (hCall : call.isWorkflowLevel = false) :
    KeepsTerminal w (w.update name node call) := by
  refine ⟨?_, ?_, rfl, ?_⟩
  · intro other kept hOther hTerm
    have hNe : name ≠ other := by
      intro hEq
      subst hEq
      rw [hGet] at hOther
      cases hOther
      rw [hOpen] at hTerm
      cases hTerm
    exact (get?_set_of_ne _ _ hNe).trans hOther
  · intro other hOther
    refine (congrArg Option.isSome (get?_set w.nodes name other node)).trans ?_
    split
    · rfl
    · exact hOther
  · simp [MonitoredWorkflow.workflowCalls, MonitoredWorkflow.update, hCall]

theorem cancelChild_keepsTerminal (failedName : String) (w : MonitoredWorkflow) (kid : String) :
    KeepsTerminal w (cancelChild failedName w kid) := by
  unfold cancelChild
  split
  · exact .refl w
  · next kidNode hGet =>
      split
      · exact .refl w
      · next hOpen => exact update_keepsTerminal hGet (Bool.not_eq_true _ ▸ hOpen) _ rfl

/- The cascade, as a loop over the visited nodes. -/
theorem cascadeLoop_eq_foldl (edges : List WorkflowEdge) (failedName : String) (fuel : Nat)
    (queue : List String) (w : MonitoredWorkflow) :
    cascadeLoop edges failedName fuel queue w =
      (Worklist.visits (childrenOf edges) fuel queue).foldl
        (fun w current => (childrenOf edges current).foldl (cancelChild failedName) w) w := by
  induction fuel generalizing queue w with
  | zero => rfl
  | succ fuel ih => cases queue with
      | nil => rfl
      | cons current queue =>
        rw [cascadeLoop, ih]
        rfl

theorem cascade_keepsTerminal (w : MonitoredWorkflow) (failedName : String) :
    KeepsTerminal w (cascadeCancelDescendants w failedName) := by
  unfold cascadeCancelDescendants
  rw [cascadeLoop_eq_foldl]
  apply KeepsTerminal.foldl
  intro w current
  exact KeepsTerminal.foldl (cancelChild_keepsTerminal failedName) _ w

----------
-- Final Statuses
----------

/- A decided workflow has no open nodes, and an undecided one has made no workflow-level call. -/
structure Sound (w : MonitoredWorkflow) : Prop where
  resolved : w.status.isTerminal = true →
      ∀ name node, w.nodes.get? name = some node → node.status.isTerminal = true
  quiet : w.status.isTerminal = false → w.workflowCalls = []
  once : w.workflowCalls.length ≤ 1

/- Terminal statuses of the first are those of the second. -/
structure Absorbs (w w' : MonitoredWorkflow) : Prop where
  nodes : ∀ name node, w.nodes.get? name = some node →
      node.status.isTerminal = true →
        ∃ node', w'.nodes.get? name = some node' ∧ node'.status = node.status
  status : w.status.isTerminal = true → w'.status = w.status

theorem Absorbs.refl (w : MonitoredWorkflow) : Absorbs w w :=
  ⟨fun _ node h _ => ⟨node, h, rfl⟩, fun _ => rfl⟩

theorem Absorbs.trans {w₁ w₂ w₃ : MonitoredWorkflow} (h₁ : Absorbs w₁ w₂) (h₂ : Absorbs w₂ w₃) :
    Absorbs w₁ w₃ := by
  constructor
  · intro name node hGet hTerm
    rcases h₁.nodes name node hGet hTerm with ⟨node₂, hGet₂, hEq₂⟩
    rcases h₂.nodes name node₂ hGet₂ (hEq₂ ▸ hTerm) with ⟨node₃, hGet₃, hEq₃⟩
    exact ⟨node₃, hGet₃, hEq₃.trans hEq₂⟩
  · intro hTerm
    have hEq := h₁.status hTerm
    exact (h₂.status (hEq ▸ hTerm)).trans hEq

variable (now : Int)

/-
  The check either changes nothing or decides the workflow, all of whose nodes are then resolved.
-/
theorem checkTerminalState_cases (w : MonitoredWorkflow) : checkTerminalState now w = w ∨
      ((∀ name node, w.nodes.get? name = some node → node.status.isTerminal = true) ∧
        ∃ status call, status.isTerminal = true ∧ call.isWorkflowLevel = true ∧
            checkTerminalState now w = w.settle now status call) := by
  have hValue : ∀ name node, w.nodes.get? name = some node →
        node.status ∈ w.nodes.values.map (·.status) := by
    intro name node hGet
    exact List.mem_map_of_mem ((mem_values_iff _ _).mpr ⟨name, hGet⟩)
  unfold checkTerminalState
  dsimp only
  split
  · next hAll =>
      refine .inr ⟨?_, .completed, .workflowCompleted, rfl, rfl, rfl⟩
      intro name node hGet
      have hDone := List.all_eq_true.mp hAll _ (hValue name node hGet)
      rw [of_decide_eq_true hDone]
      rfl
  · split
    · next hSettled =>
        have hResolved :
            ∀ name node, w.nodes.get? name = some node → node.status.isTerminal = true := by
          intro name node hGet
          rw [Bool.and_eq_true, Bool.not_eq_true', List.any_eq_false] at hSettled
          have hOpen := hSettled.2 _ (hValue name node hGet)
          cases hStatus : node.status <;> simp [hStatus] at hOpen <;> rfl
        split
        · exact .inr ⟨hResolved, .partiallyCompleted, .workflowFailed, rfl, rfl, rfl⟩
        · exact .inr ⟨hResolved, .failed, .workflowFailed, rfl, rfl, rfl⟩
    · exact .inl rfl

theorem checkTerminalState_nodes (w : MonitoredWorkflow) :
    (checkTerminalState now w).nodes = w.nodes := by
  rcases checkTerminalState_cases now w with hEq | ⟨_, status, call, _, _, hEq⟩
  · rw [hEq]
  · rw [hEq]
    rfl

variable {w : MonitoredWorkflow}

/-
  Resolving a node of an undecided workflow and checking it: the check makes the first
  workflow-level call, if any.
-/
theorem checkTerminalState_sound {w' : MonitoredWorkflow} (hSound : Sound w)
    (hOpen : w.status.isTerminal = false) (hKeeps : KeepsTerminal w w') :
    Sound (checkTerminalState now w') ∧ Absorbs w (checkTerminalState now w') := by
  have hQuiet : w'.workflowCalls = [] := hKeeps.workflowCalls.trans (hSound.quiet hOpen)
  constructor
  · rcases checkTerminalState_cases now w' with hEq | ⟨hResolved, status, call, hStatus, hCall, hEq⟩
    · rw [hEq]
      refine ⟨?_, fun _ => hQuiet, by simp [hQuiet]⟩
      intro hTerm
      rw [hKeeps.status, hOpen] at hTerm
      cases hTerm
    · rw [hEq]
      refine ⟨fun _ => hResolved, ?_, ?_⟩
      · intro hNot
        have hTerm : (w'.settle now status call).status.isTerminal = true := hStatus
        rw [hTerm] at hNot
        cases hNot
      · have hCalls : (w'.settle now status call).workflowCalls = w'.workflowCalls ++ [call] := by
          simp [MonitoredWorkflow.workflowCalls, MonitoredWorkflow.settle, hCall]
        rw [hCalls, hQuiet]
        rfl
  · constructor
    · intro name node hGet hTerm
      refine ⟨node, ?_, rfl⟩
      rw [checkTerminalState_nodes]
      exact hKeeps.nodes name node hGet hTerm
    · intro hTerm
      rw [hOpen] at hTerm
      cases hTerm

----------
-- One Input
----------

/- The opposite of what a terminal status says. -/
def Outcome.contradicts : Outcome → WorkflowNodeStatus → Bool
| .completed, .failed => true
| .completed, .cancelled => true
| .failed _, .completed => true
| _, _ => false

/- A report that contradicts the status of its node. -/
def MonitoredWorkflow.contradicts (w : MonitoredWorkflow) : Option (String × Outcome) → Bool
| none => false
| some (name, outcome) =>
  match w.nodes.get? name with
  | none => false
  | some node => outcome.contradicts node.status

/- An input whose report contradicts the terminal status its node has when the input arrives. -/
def MonitorState.contradicts (m : MonitorState) (input : MonitorInput) : Bool :=
  m.workflow.contradicts (m.report input)

variable {name : String}
variable {node : WorkflowNode}

/- An open node belongs to an undecided workflow. -/
theorem Sound.undecided (hSound : Sound w)
    (hGet : w.nodes.get? name = some node)
    (hOpen : node.status.isTerminal = false) : w.status.isTerminal = false := by
  cases hStatus : w.status.isTerminal with
  | false => rfl
  | true =>
    rw [hSound.resolved hStatus name node hGet] at hOpen
    cases hOpen

theorem handleNodeCompleted_sound (hSound : Sound w)
    (hAgrees : w.contradicts (some (name, .completed)) = false) :
    Sound (handleNodeCompleted now w name) ∧ Absorbs w (handleNodeCompleted now w name) := by
  unfold handleNodeCompleted
  split
  · exact ⟨hSound, .refl w⟩
  · next node hGet =>
      split
      · exact ⟨hSound, .refl w⟩
      · next hNot =>
          have hOpen : node.status.isTerminal = false := by
            simp only [MonitoredWorkflow.contradicts, hGet] at hAgrees
            cases hStatus : node.status <;>
              simp_all [Outcome.contradicts, WorkflowNodeStatus.isTerminal]
          exact checkTerminalState_sound now hSound (hSound.undecided hGet hOpen)
            (update_keepsTerminal hGet hOpen _ rfl)

theorem handleNodeFailed_sound (hSound : Sound w)
    {error : String} (hAgrees : w.contradicts (some (name, .failed error)) = false) :
    Sound (handleNodeFailed now w name error) ∧ Absorbs w (handleNodeFailed now w name error) := by
  unfold handleNodeFailed
  split
  · exact ⟨hSound, .refl w⟩
  · next node hGet =>
      split
      · exact ⟨hSound, .refl w⟩
      · next hNot =>
          have hOpen : node.status.isTerminal = false := by
            simp only [MonitoredWorkflow.contradicts, hGet] at hAgrees
            cases hStatus : node.status <;>
              simp_all [Outcome.contradicts, WorkflowNodeStatus.isTerminal]
          have hUpdate : KeepsTerminal w
                (w.update name { node with
                    status := .failed, error := some error } (.nodeFailed name error)) :=
            update_keepsTerminal hGet hOpen _ rfl
          apply checkTerminalState_sound now hSound (hSound.undecided hGet hOpen)
          split
          · exact hUpdate.trans (cascade_keepsTerminal _ _)
          · exact hUpdate

variable {report : Option (String × Outcome)}

theorem deliver_sound (hSound : Sound w)
    (hAgrees : w.contradicts report = false) :
    Sound (w.deliver now report) ∧ Absorbs w (w.deliver now report) := by
  match report with
  | none => exact ⟨hSound, .refl w⟩
  | some (name, .completed) => exact handleNodeCompleted_sound now hSound hAgrees
  | some (name, .failed error) => exact handleNodeFailed_sound now hSound hAgrees

/- A reported node is completed afterwards. -/
theorem handleNodeCompleted_status (hGet : w.nodes.get? name = some node) : ∃ node',
      (handleNodeCompleted now w name).nodes.get? name = some node' ∧
        node'.status = .completed := by
  unfold handleNodeCompleted
  rw [hGet]
  dsimp only
  split
  · next hDone => exact ⟨node, hGet, hDone⟩
  · rw [checkTerminalState_nodes]
    exact ⟨_, get?_set_self _ _ _, rfl⟩

/- A completed node that is reported again has failed. -/
theorem handleNodeFailed_status (error : String)
    (hGet : w.nodes.get? name = some node)
    (hDone : node.status = .completed) :
    ∃ node', (handleNodeFailed now w name error).nodes.get? name = some node' ∧
        node'.status = .failed := by
  unfold handleNodeFailed
  rw [hGet]
  simp only [hDone]
  have hSet :
      (w.update name { node with
          status := .failed, error := some error } (.nodeFailed name error)).nodes.get? name =
        some { node with status := .failed, error := some error } := get?_set_self _ _ _
  rw [if_neg (by decide), checkTerminalState_nodes]
  split
  · exact ⟨_, (cascade_keepsTerminal _ _).nodes name _ hSet rfl, rfl⟩
  · exact ⟨_, hSet, rfl⟩

/- A contradicting report changes a terminal status. -/
theorem deliver_not_absorbs
    (hContra : w.contradicts report = true) : ¬Absorbs w (w.deliver now report) := by
  intro hAbsorbs
  match report with
  | none => cases hContra
  | some (name, outcome) =>
    simp only [MonitoredWorkflow.contradicts] at hContra
    split at hContra
    · cases hContra
    · next node hGet =>
        have hTerm : node.status.isTerminal = true := by
          cases hStatus : node.status <;> cases outcome <;>
            simp_all [Outcome.contradicts, WorkflowNodeStatus.isTerminal]
        rcases hAbsorbs.nodes name node hGet hTerm with ⟨node', hGet', hSame⟩
        cases outcome with
        | completed =>
          rcases handleNodeCompleted_status now hGet with ⟨_, hNow, hStatus⟩
          cases hNow.symm.trans hGet'
          simp [← hSame, hStatus, Outcome.contradicts] at hContra
        | failed error =>
          have hDone : node.status = .completed := by
            cases hStatus : node.status <;> simp_all [Outcome.contradicts]
          rcases handleNodeFailed_status now error hGet hDone with ⟨_, hNow, hStatus⟩
          cases hNow.symm.trans hGet'
          rw [hStatus, hDone] at hSame
          cases hSame

----------
-- Runs
----------

namespace MonitorState

theorem advancePoll_workflow (m : MonitorState) (poll : Nat) :
    (m.advancePoll poll).workflow = m.workflow := by
  unfold advancePoll
  split
  · rfl
  · split <;> rfl

/- An input acts on the workflow through its report. -/
theorem step_workflow (m : MonitorState) (input : MonitorInput) :
    ∃ now, (m.step input).workflow = m.workflow.deliver now (m.report input) := by
  cases input with
  | taskCompleted taskId now => exact ⟨now, rfl⟩
  | taskCancelled taskId now => exact ⟨now, rfl⟩
  | pollStart => exact ⟨0, rfl⟩
  | pollAnswer poll answer now => exact ⟨now, advancePoll_workflow _ poll⟩

/- No input contradicts the status it meets. -/
def Agrees (m : MonitorState) (inputs : List MonitorInput) : Prop :=
  ∀ before input after, inputs = before ++ input :: after → (m.run before).contradicts input = false

variable {m : MonitorState}

theorem Agrees.tail {input : MonitorInput} {rest : List MonitorInput}
    (hAgrees : m.Agrees (input :: rest)) : (m.step input).Agrees rest := by
  intro before next after hEq
  exact hAgrees (input :: before) next after (by rw [hEq]; rfl)

theorem run_sound {inputs : List MonitorInput} (hSound : Sound m.workflow)
    (hAgrees : m.Agrees inputs) :
    Sound (m.run inputs).workflow ∧ Absorbs m.workflow (m.run inputs).workflow := by
  induction inputs generalizing m with
  | nil => exact ⟨hSound, .refl _⟩
  | cons input rest ih =>
    rcases m.step_workflow input with ⟨now, hStep⟩
    have hHead : m.contradicts input = false := hAgrees [] input rest rfl
    have hDelivered := deliver_sound now hSound hHead
    rw [← hStep] at hDelivered
    have hRest := ih hDelivered.1 hAgrees.tail
    exact ⟨hRest.1, hDelivered.2.trans hRest.2⟩

/- A status that is terminal at some point of the run is the same at every later point. -/
def TerminalsFinal (m : MonitorState) (inputs : List MonitorInput) : Prop :=
  ∀ before middle after, inputs = before ++ middle ++ after →
      Absorbs (m.run before).workflow (m.run (before ++ middle)).workflow

theorem run_append (m : MonitorState) (before after : List MonitorInput) :
    m.run (before ++ after) = (m.run before).run after := List.foldl_append

theorem Agrees.append {before after : List MonitorInput}
    (hAgrees : m.Agrees (before ++ after)) : m.Agrees before ∧ (m.run before).Agrees after := by
  constructor
  · intro first input second hEq
    exact hAgrees first input (second ++ after) (by simp [hEq])
  · intro first input second hEq
    have hInput := hAgrees (before ++ first) input second (by simp [hEq])
    rwa [run_append] at hInput

/-
  From a sound state, terminal statuses are final and the workflow-level calls at most one exactly
  when no input contradicts the status it meets.
-/
theorem terminalsFinal_iff (hSound : Sound m.workflow)
    (inputs : List MonitorInput) :
    (m.TerminalsFinal inputs ∧ (m.run inputs).workflow.workflowCalls.length ≤ 1) ↔
      m.Agrees inputs := by
  constructor
  · rintro ⟨hFinal, _⟩ before input after hEq
    rcases (m.run before).step_workflow input with ⟨now, hStep⟩
    have hAbsorbs := hFinal before [input] after (by simp [hEq])
    rw [run_append] at hAbsorbs
    have hNow : ((m.run before).run [input]).workflow =
          (m.run before).workflow.deliver now ((m.run before).report input) := hStep
    rw [hNow] at hAbsorbs
    cases hContra : (m.run before).contradicts input with
    | false => rfl
    | true => exact (deliver_not_absorbs now hContra hAbsorbs).elim
  · intro hAgrees
    refine ⟨?_, (run_sound hSound hAgrees).1.once⟩
    intro before middle after hEq
    subst hEq
    have hFirst := hAgrees.append.1.append
    have hReached := run_sound hSound hFirst.1
    rw [run_append]
    exact (run_sound hReached.1 hFirst.2).2

end MonitorState

namespace SubmittedWorkflow

/- Monitoring starts without a decision. -/
theorem monitor_sound (s : SubmittedWorkflow) : Sound s.monitor.workflow := by
  refine ⟨?_, fun _ => rfl, Nat.zero_le _⟩
  intro hTerm
  cases hTerm

/-
  A run of the monitor over an accepted workflow: terminal statuses are final and there is at most
  one workflow-level call exactly when no input reports the opposite of the terminal status its node
  has.
-/
theorem terminals_final_iff (s : SubmittedWorkflow) (inputs : List MonitorInput) :
    (s.monitor.TerminalsFinal inputs ∧ (s.monitor.run inputs).workflow.workflowCalls.length ≤ 1) ↔
      s.monitor.Agrees inputs := MonitorState.terminalsFinal_iff s.monitor_sound inputs

end SubmittedWorkflow

/- A parent with one child. -/
def sampleWorkflow : SubmittedWorkflow where
  definition :=
    { id := "release", tasks := [⟨"build"⟩, ⟨"publish"⟩]
      edges := [⟨"build", "publish", .ordering⟩] }
  accepted := by decide +kernel
  taskId := fun name => "id-" ++ name
  taskPda := fun name => "pda-" ++ name
  cancelOnParentFailure := true

/-
  The parent is cancelled on-chain and the child completes, each task having one outcome. The
  cascade has cancelled the child and the workflow has failed; the completion then changes the child
  and reports the failure again.
-/
theorem cascaded_child_completes :
    let failed := sampleWorkflow.monitor.run [.taskCancelled "id-build" 1]
    let changed := sampleWorkflow.monitor.run
      [.taskCancelled "id-build" 1, .taskCompleted "id-publish" 2]
    (failed.workflow.nodes.get? "publish").map (·.status) = some .cancelled ∧
      (changed.workflow.nodes.get? "publish").map (·.status) = some .completed ∧
      failed.workflow.workflowCalls = [.workflowFailed] ∧
      changed.workflow.workflowCalls = [.workflowFailed, .workflowFailed] := by decide +kernel

end AgencCore.Workflow
