import AgencCore.Foundations.CycleSearch
import AgencCore.Foundations.Records

/-
  The monitor of one workflow.

  A monitor hears `taskCompleted` and `taskCancelled` events and polls the tasks of the nodes that
  are still created. A poll suspends at each fetch, so several polls may be under way and an answer
  may reach a node whose status has changed since the fetch began. `MonitorState.step` is one such
  input; what happens between two inputs is a run of synchronous code.

  The calls of the user's callbacks are recorded in order. The callbacks themselves are assumed to
  return and not to change the workflow. Each workflow has its own record, and the listeners of a
  monitor only loop over these records.
-/

namespace AgencCore.Workflow

open Foundations

inductive OnChainDependencyType where
  | none
  | data
  | ordering
  | proof
deriving DecidableEq

/- The discriminant, as it is shown in messages. -/
def OnChainDependencyType.text : OnChainDependencyType → String
| .none => "0"
| .data => "1"
| .ordering => "2"
| .proof => "3"

structure TaskTemplate where
  name : String
deriving DecidableEq

/- An edge from a parent (`from`) to a child (`to`). -/
structure WorkflowEdge where
  source : String
  target : String
  dependencyType : OnChainDependencyType
deriving DecidableEq

structure WorkflowDefinition where
  id : String
  tasks : List TaskTemplate
  edges : List WorkflowEdge
deriving DecidableEq

def WorkflowDefinition.names (definition : WorkflowDefinition) : List String :=
  definition.tasks.map (·.name)

/- The children of a task, in the order of the edges. -/
def childrenOf (edges : List WorkflowEdge) (name : String) : List String :=
  (edges.filter (fun edge => edge.source = name)).map (·.target)

/- The message of a `WorkflowValidationError`. -/
abbrev ValidationResult := Except String Unit

/- The names seen so far reject a second use. -/
def checkTaskNames : List String → List TaskTemplate → ValidationResult
| _, [] => .ok ()
| seen, task :: rest => do
    throwIf (isBlank task.name) "Task name must be a non-empty string"
    throwIf (decide (task.name ∈ seen)) s!"Duplicate task name: \"{task.name}\""
    checkTaskNames (task.name :: seen) rest

def checkEdge (names : List String) (edge : WorkflowEdge) : ValidationResult := do
  throwIf (!decide (edge.source ∈ names))
    s!"Edge references unknown task \"{edge.source}\" in \"from\" field"
  throwIf (!decide (edge.target ∈ names))
    s!"Edge references unknown task \"{edge.target}\" in \"to\" field"
  throwIf (decide (edge.source = edge.target))
    s!"Self-loop detected: task \"{edge.source}\" depends on itself"
  throwIf (decide (edge.dependencyType = .none))
    (s!"Invalid dependency type {edge.dependencyType.text} on edge \"{edge.source}\" -> \"{edge.target}\". " ++
      "Must be Data (1), Ordering (2), or Proof (3)")

/- The children seen so far reject a second parent. -/
def checkSingleParents : List String → List WorkflowEdge → ValidationResult
| _, [] => .ok ()
| childSeen, edge :: rest => do
    throwIf (decide (edge.target ∈ childSeen))
      (s!"Multi-parent detected: task \"{edge.target}\" has more than one incoming edge. " ++
        "On-chain tasks support only one parent (depends_on: Option<Pubkey>)")
    checkSingleParents (edge.target :: childSeen) rest

def checkNoCycles (names : List String) (edges : List WorkflowEdge) : ValidationResult :=
  match CycleSearch.search (childrenOf edges) names with
  | some (false, _) => .ok ()
  | some (true, _) => .error "Cycle detected in workflow edges"
  -- not taken: there is fuel for every node
  | none => .error "Maximum call stack size exceeded"

def validateWorkflow (definition : WorkflowDefinition) : ValidationResult := do
  throwIf definition.tasks.isEmpty "Workflow must have at least one task"
  checkTaskNames [] definition.tasks
  forEachM (checkEdge definition.names) definition.edges
  checkSingleParents [] definition.edges
  checkNoCycles definition.names definition.edges

----------
-- The State Of A Monitor
----------

inductive WorkflowNodeStatus where
  | pending
  | creating
  | created
  | completed
  | failed
  | cancelled
deriving DecidableEq

/- The statuses a node is meant to keep. -/
def WorkflowNodeStatus.isTerminal : WorkflowNodeStatus → Bool
| .completed => true
| .failed => true
| .cancelled => true
| _ => false

inductive WorkflowStatus where
  | pending
  | running
  | completed
  | failed
  | partiallyCompleted
deriving DecidableEq

/- `isTerminal(state)` -/
def WorkflowStatus.isTerminal : WorkflowStatus → Bool
| .completed => true
| .failed => true
| .partiallyCompleted => true
| _ => false

/- A node. Identifiers are in their textual form. -/
structure WorkflowNode where
  name : String
  taskId : Option String
  taskPda : Option String
  status : WorkflowNodeStatus
  error : Option String
  completedAt : Option Int
deriving DecidableEq

abbrev WorkflowNodes := OrderedMap String WorkflowNode

structure WorkflowState where
  id : String
  definition : WorkflowDefinition
  status : WorkflowStatus
  nodes : WorkflowNodes
  completedAt : Option Int

/- A call of one of the user's callbacks. -/
inductive WorkflowCall where
  | nodeCompleted (name : String)
  | nodeFailed (name error : String)
  | nodeCancelled (name reason : String)
  | workflowCompleted
  | workflowFailed
deriving DecidableEq

def WorkflowCall.isWorkflowLevel : WorkflowCall → Bool
| .workflowCompleted => true
| .workflowFailed => true
| _ => false

structure MonitoredWorkflow where
  state : WorkflowState
  cancelOnParentFailure : Bool
  taskIdToName : OrderedMap String String
  calls : List WorkflowCall

namespace MonitoredWorkflow

def nodes (w : MonitoredWorkflow) : WorkflowNodes := w.state.nodes

def status (w : MonitoredWorkflow) : WorkflowStatus := w.state.status

/- Store a node and record a call. -/
def update (w : MonitoredWorkflow) (name : String) (node : WorkflowNode)
    (call : WorkflowCall) : MonitoredWorkflow :=
  { w with
    state := { w.state with nodes := w.state.nodes.set name node }, calls := w.calls ++ [call] }

/- Settle the workflow and record a call. -/
def settle (w : MonitoredWorkflow) (now : Int) (status : WorkflowStatus)
    (call : WorkflowCall) : MonitoredWorkflow :=
  { w with
    state := { w.state with
      status := status, completedAt := some now }, calls := w.calls ++ [call] }

/- The workflow-level calls made so far. -/
def workflowCalls (w : MonitoredWorkflow) : List WorkflowCall :=
  w.calls.filter WorkflowCall.isWorkflowLevel

end MonitoredWorkflow

def checkTerminalState (now : Int) (w : MonitoredWorkflow) : MonitoredWorkflow :=
  let statuses := w.nodes.values.map (·.status)
  let allCompleted := statuses.all (fun status => status = .completed)
  let anyFailed := statuses.any (fun status => status = .failed)
  let anyCancelled := statuses.any (fun status => status = .cancelled)
  let anyPending :=
    statuses.any (fun status => status = .pending || status = .creating || status = .created)
  if allCompleted then w.settle now .completed .workflowCompleted
  else if (anyFailed || anyCancelled) && !anyPending then
    let anyCompleted := statuses.any (fun status => status = .completed)
    if anyCompleted && !w.cancelOnParentFailure then
      w.settle now .partiallyCompleted .workflowFailed
    else w.settle now .failed .workflowFailed
  else w

/- Cancel a child unless it is resolved already. -/
def cancelChild (failedName : String) (w : MonitoredWorkflow) (kid : String) : MonitoredWorkflow :=
  match w.nodes.get? kid with
  -- not taken: the ends of an edge are nodes
  | none => w
  | some kidNode => if kidNode.status.isTerminal then w
      else
        let reason := s!"Parent node \"{failedName}\" failed"
        w.update kid { kidNode with
            status := .cancelled, error := some reason } (.nodeCancelled kid reason)

/-
  The queue of the cascade has no marks. In a forest every node enters it once at most, so the
  number of edges bounds the rounds.
-/
def cascadeLoop (edges : List WorkflowEdge) (failedName : String) :
    Nat → List String → MonitoredWorkflow → MonitoredWorkflow
| 0, _, w => w
| _ + 1, [], w => w
| fuel + 1, current :: queue, w =>
  cascadeLoop edges failedName fuel (queue ++ childrenOf edges current)
    ((childrenOf edges current).foldl (cancelChild failedName) w)

def cascadeCancelDescendants (w : MonitoredWorkflow) (failedName : String) : MonitoredWorkflow :=
  let edges := w.state.definition.edges
  cascadeLoop edges failedName (edges.length + 1) [failedName] w

def handleNodeCompleted (now : Int) (w : MonitoredWorkflow)
    (nodeName : String) : MonitoredWorkflow :=
  match w.nodes.get? nodeName with
  | none => w
  | some node => if node.status = .completed then w
      else
        checkTerminalState now
          (w.update nodeName { node with
              status := .completed, completedAt := some now } (.nodeCompleted nodeName))

def handleNodeFailed (now : Int) (w : MonitoredWorkflow)
    (nodeName error : String) : MonitoredWorkflow :=
  match w.nodes.get? nodeName with
  | none => w
  | some node => if node.status = .failed || node.status = .cancelled then w
      else
        let failed := w.update nodeName { node with
            status := .failed, error := some error } (.nodeFailed nodeName error)
        checkTerminalState now
          (if w.cancelOnParentFailure then cascadeCancelDescendants failed nodeName
          else failed)

----------
-- Events And Polls
----------

/- The key of the status in a task account. -/
inductive OnChainTaskStatus where
  | «open»
  | inProgress
  | pendingValidation
  | completed
  | cancelled
  | disputed
deriving DecidableEq

/- What an input reports about the task of a node. A disputed task is reported as a failure. -/
inductive Outcome where
  | completed
  | failed (error : String)
deriving DecidableEq

def OnChainTaskStatus.outcome : OnChainTaskStatus → Option Outcome
| .completed => some .completed
| .cancelled => some (.failed "Task status: cancelled")
| .disputed => some (.failed "Task status: disputed")
| _ => none

/- A poll that waits for a fetch, and the nodes after it. -/
structure Poll where
  node : String
  rest : List String
deriving DecidableEq

/- Go on to the next node that is polled. -/
def nextPoll (nodes : WorkflowNodes) : List String → Option Poll
| [] => none
| name :: rest =>
  match nodes.get? name with
  | none => nextPoll nodes rest
  | some node => if node.status ≠ .created || node.taskPda.isNone then nextPoll nodes rest
      else some ⟨name, rest⟩

structure MonitorState where
  workflow : MonitoredWorkflow
  polls : List Poll

/- The answer to a fetch, `none` when it fails. -/
inductive MonitorInput where
  | taskCompleted (taskId : String) (now : Int)
  | taskCancelled (taskId : String) (now : Int)
  | pollStart
  | pollAnswer (poll : Nat) (answer : Option OnChainTaskStatus) (now : Int)
deriving DecidableEq

/- Handle what was reported about a node. -/
def MonitoredWorkflow.deliver (w : MonitoredWorkflow) (now : Int) :
    Option (String × Outcome) → MonitoredWorkflow
| none => w
| some (name, .completed) => handleNodeCompleted now w name
| some (name, .failed error) => handleNodeFailed now w name error

namespace MonitorState

def nodeOf (m : MonitorState) (taskId : String) : Option String :=
  (m.workflow.taskIdToName.get? taskId).filter (fun name => name ≠ "")

/- What an input reports, and about which node. -/
def report (m : MonitorState) : MonitorInput → Option (String × Outcome)
| .taskCompleted taskId _ => (m.nodeOf taskId).map (fun name => (name, .completed))
| .taskCancelled taskId _ =>
  (m.nodeOf taskId).map (fun name => (name, .failed "Task cancelled on-chain"))
| .pollStart => none
| .pollAnswer poll answer _ =>
  m.polls[poll]?.bind (fun p =>
    (answer.bind OnChainTaskStatus.outcome).map (fun outcome => (p.node, outcome)))

/- A poll goes on after its answer was handled. -/
def advancePoll (m : MonitorState) (poll : Nat) : MonitorState :=
  match m.polls[poll]? with
  | none => m
  | some p =>
    match nextPoll m.workflow.nodes p.rest with
    | none => { m with polls := m.polls.eraseIdx poll }
    | some next => { m with polls := m.polls.set poll next }

def step (m : MonitorState) : MonitorInput → MonitorState
| .pollStart =>
  { m with polls := m.polls ++ (nextPoll m.workflow.nodes m.workflow.nodes.keys).toList }
| .taskCompleted taskId now =>
  { m with workflow := m.workflow.deliver now (m.report (.taskCompleted taskId now)) }
| .taskCancelled taskId now =>
  { m with workflow := m.workflow.deliver now (m.report (.taskCancelled taskId now)) }
| .pollAnswer poll answer now =>
  ({ m with workflow := m.workflow.deliver now (m.report (.pollAnswer poll answer now)) } :
    MonitorState).advancePoll poll

def run (m : MonitorState) (inputs : List MonitorInput) : MonitorState := inputs.foldl step m

end MonitorState

def startMonitoring (state : WorkflowState) (cancelOnParentFailure : Bool) : MonitoredWorkflow :=
  { state := state, cancelOnParentFailure := cancelOnParentFailure
    taskIdToName := state.nodes.entries.foldl (fun ids entry =>
        match entry.2.taskId with
        | none => ids
        | some taskId => ids.set taskId entry.1) OrderedMap.empty, calls := [] }

/-
  A workflow that was accepted and whose tasks were all created on-chain, under the given
  identifiers.
-/
structure SubmittedWorkflow where
  definition : WorkflowDefinition
  accepted : validateWorkflow definition = .ok ()
  taskId : String → String
  taskPda : String → String
  cancelOnParentFailure : Bool

namespace SubmittedWorkflow

def createdNode (s : SubmittedWorkflow) (name : String) : WorkflowNode :=
  { name := name, taskId := some (s.taskId name), taskPda := some (s.taskPda name)
    status := .created, error := none, completedAt := none }

def monitor (s : SubmittedWorkflow) : MonitorState :=
  { workflow := startMonitoring
      { id := s.definition.id, definition := s.definition, status := .running
        nodes := OrderedMap.ofList (s.definition.names.map (fun name => (name, s.createdNode name)))
        completedAt := none } s.cancelOnParentFailure, polls := [] }

end SubmittedWorkflow

end AgencCore.Workflow
