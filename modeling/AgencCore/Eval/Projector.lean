import AgencCore.Eval.CanonicalJson

/-
  Projection of on-chain events to trajectory records.

  The inputs are sorted, and a loop over them drops what is malformed, unknown or a duplicate,
  follows the lifecycles of tasks, disputes and speculations, and appends one event for each input
  that is left.

  Slots and sequence numbers are integers. The fingerprint of an input is the text of an object with
  four fields; it is kept as a record of the four texts, which the whole text determines.
-/

namespace AgencCore.Eval

open Foundations

section

inductive ReplayLifecycleType where
  | task
  | dispute
  | speculation
deriving DecidableEq

def ReplayLifecycleType.text : ReplayLifecycleType → String
| .task => "task"
| .dispute => "dispute"
| .speculation => "speculation"

/- `scope.toUpperCase()` -/
def ReplayLifecycleType.upperText : ReplayLifecycleType → String
| .task => "TASK"
| .dispute => "DISPUTE"
| .speculation => "SPECULATION"

/- The states of a lifecycle and its transitions. -/
structure Lifecycle (σ : Type) where
  scope : ReplayLifecycleType
  text : σ → String
  transitions : σ → List σ
  allowedStarts : List σ

/- What a violation says about the event. -/
structure TransitionDetails where
  entityId : String
  eventName : String
  eventType : String
  signature : String
  slot : Int
  sourceEventSequence : Int
deriving DecidableEq

structure TransitionValidationViolation where
  scope : ReplayLifecycleType
  details : TransitionDetails
  fromState : Option String
  toState : String
  reason : String
  anomalyCode : String
deriving DecidableEq

variable {σ : Type}
variable [DecidableEq σ]

def deriveAnomalyCode (lifecycle : Lifecycle σ) (previousState : Option σ)
    (nextState : σ) : String :=
  match previousState with
  | none => lifecycle.scope.upperText ++ "_INVALID_START"
  | some previous =>
    if previous = nextState ∧ lifecycle.text nextState = "completed" then "TASK_DOUBLE_COMPLETE"
    else if lifecycle.transitions previous = [] then
      lifecycle.scope.upperText ++ "_TERMINAL_TRANSITION"
    else "UNKNOWN_TRANSITION"

def validateTransition (lifecycle : Lifecycle σ) (details : TransitionDetails)
    (previousState : Option σ) (nextState : σ) : Option TransitionValidationViolation :=
  let code := deriveAnomalyCode lifecycle previousState nextState
  match previousState with
  | none => if nextState ∈ lifecycle.allowedStarts then none
      else
        some
          { scope := lifecycle.scope, details := details, fromState := none
            toState := lifecycle.text nextState, reason := "none -> " ++ lifecycle.text nextState
            anomalyCode := code }
  | some previous => if nextState ∈ lifecycle.transitions previous then none
      else
        some
          { scope := lifecycle.scope, details := details
            fromState := some (lifecycle.text previous), toState := lifecycle.text nextState
            reason := lifecycle.text previous ++ " -> " ++ lifecycle.text nextState
            anomalyCode := code }

def transitionViolationMessage (violation : TransitionValidationViolation) : String :=
  violation.scope.text ++ ":" ++ violation.details.entityId ++ "@" ++
    violation.details.signature ++ ": " ++ violation.reason ++ " for " ++
    violation.details.eventName

/- Whether a start or a transition is in the tables. -/
def admits (transitions : σ → List σ) (starts : List σ) (previous : Option σ) (next : σ) : Bool :=
  match previous with
  | none => next ∈ starts
  | some previous => next ∈ transitions previous

/- There is a violation unless the tables admit it. -/
theorem validateTransition_eq_none_iff (lifecycle : Lifecycle σ) (details : TransitionDetails)
    (previousState : Option σ) (nextState : σ) :
    validateTransition lifecycle details previousState nextState = none ↔
      admits lifecycle.transitions lifecycle.allowedStarts previousState nextState = true := by
  unfold validateTransition admits
  cases previousState <;> simp

end

inductive OnChainTaskStatus where
  | «open»
  | inProgress
  | pendingValidation
  | completed
  | cancelled
  | disputed
deriving DecidableEq

inductive OnChainDisputeStatus where
  | active
  | resolved
  | expired
  | cancelled
deriving DecidableEq

def onChainTaskTransitions : OnChainTaskStatus → List OnChainTaskStatus
| .open => [.inProgress, .cancelled]
| .inProgress => [.inProgress, .completed, .cancelled, .disputed, .pendingValidation]
| .pendingValidation => [.completed, .disputed]
| .completed => []
| .cancelled => []
| .disputed => [.completed, .cancelled]

def onChainTaskStartStates : List OnChainTaskStatus := [.open]

def onChainDisputeTransitions : OnChainDisputeStatus → List OnChainDisputeStatus
| .active => [.resolved, .expired, .cancelled]
| .resolved => []
| .expired => []
| .cancelled => []

def onChainDisputeStartStates : List OnChainDisputeStatus := [.active]

----------
-- Events
----------

inductive OnChainEventName where
  | taskCreated
  | taskClaimed
  | taskCompleted
  | taskCancelled
  | dependentTaskCreated
  | disputeInitiated
  | disputeVoteCast
  | disputeResolved
  | disputeExpired
  | disputeCancelled
  | arbiterVotesCleanedUp
  | stateUpdated
  | protocolInitialized
  | rewardDistributed
  | rateLimitHit
  | migrationCompleted
  | protocolVersionUpdated
  | rateLimitsUpdated
  | protocolFeeUpdated
  | reputationChanged
  | bondDeposited
  | bondLocked
  | bondReleased
  | bondSlashed
  | speculativeCommitmentCreated
  | agentRegistered
  | agentUpdated
  | agentDeregistered
  | agentSuspended
  | agentUnsuspended
deriving DecidableEq

/- `KNOWN_EVENT_NAMES`, with the names as texts. -/
def knownEventNames : List (String × OnChainEventName) :=
  [("taskCreated", .taskCreated), ("taskClaimed", .taskClaimed), ("taskCompleted", .taskCompleted),
    ("taskCancelled", .taskCancelled), ("dependentTaskCreated", .dependentTaskCreated),
    ("disputeInitiated", .disputeInitiated), ("disputeVoteCast", .disputeVoteCast),
    ("disputeResolved", .disputeResolved), ("disputeExpired", .disputeExpired),
    ("disputeCancelled", .disputeCancelled), ("arbiterVotesCleanedUp", .arbiterVotesCleanedUp),
    ("stateUpdated", .stateUpdated), ("protocolInitialized", .protocolInitialized),
    ("rewardDistributed", .rewardDistributed), ("rateLimitHit", .rateLimitHit),
    ("migrationCompleted", .migrationCompleted),
    ("protocolVersionUpdated", .protocolVersionUpdated), ("rateLimitsUpdated", .rateLimitsUpdated),
    ("protocolFeeUpdated", .protocolFeeUpdated), ("reputationChanged", .reputationChanged),
    ("bondDeposited", .bondDeposited), ("bondLocked", .bondLocked), ("bondReleased", .bondReleased),
    ("bondSlashed", .bondSlashed), ("speculativeCommitmentCreated", .speculativeCommitmentCreated),
    ("agentRegistered", .agentRegistered), ("agentUpdated", .agentUpdated),
    ("agentDeregistered", .agentDeregistered), ("agentSuspended", .agentSuspended),
    ("agentUnsuspended", .agentUnsuspended)]

inductive TaskLifecycleState where
  | discovered
  | claimed
  | completed
  | failed
  | disputed
deriving DecidableEq

def TaskLifecycleState.text : TaskLifecycleState → String
| .discovered => "discovered"
| .claimed => "claimed"
| .completed => "completed"
| .failed => "failed"
| .disputed => "disputed"

inductive DisputeLifecycleState where
  | initiated
  | voteCast
  | resolved
  | cancelled
  | expired
deriving DecidableEq

def DisputeLifecycleState.text : DisputeLifecycleState → String
| .initiated => "dispute:initiated"
| .voteCast => "dispute:vote_cast"
| .resolved => "dispute:resolved"
| .cancelled => "dispute:cancelled"
| .expired => "dispute:expired"

inductive SpeculationLifecycleState where
  | started
  | confirmed
  | aborted
deriving DecidableEq

def SpeculationLifecycleState.text : SpeculationLifecycleState → String
| .started => "speculation_started"
| .confirmed => "speculation_confirmed"
| .aborted => "speculation_aborted"

/-
  The type of a trajectory event. The states of the three lifecycles are types; no lifecycle follows
  the others.
-/
inductive TrajectoryType where
  | task (state : TaskLifecycleState)
  | dispute (state : DisputeLifecycleState)
  | speculation (state : SpeculationLifecycleState)
  | untracked (text : String)
deriving DecidableEq

def TrajectoryType.text : TrajectoryType → String
| .task state => state.text
| .dispute state => state.text
| .speculation state => state.text
| .untracked text => text

def trajectoryEventBySource : OnChainEventName → TrajectoryType
| .taskCreated => .task .discovered
| .taskClaimed => .task .claimed
| .taskCompleted => .task .completed
| .taskCancelled => .task .failed
| .dependentTaskCreated => .task .discovered
| .disputeInitiated => .dispute .initiated
| .disputeVoteCast => .dispute .voteCast
| .disputeResolved => .dispute .resolved
| .disputeExpired => .dispute .expired
| .disputeCancelled => .dispute .cancelled
| .arbiterVotesCleanedUp => .untracked "dispute:arbiter_votes_cleaned_up"
| .stateUpdated => .untracked "protocol:state_updated"
| .protocolInitialized => .untracked "protocol:protocol_initialized"
| .rewardDistributed => .untracked "protocol:reward_distributed"
| .rateLimitHit => .untracked "protocol:rate_limit_hit"
| .migrationCompleted => .untracked "protocol:migration_completed"
| .protocolVersionUpdated => .untracked "protocol:protocol_version_updated"
| .rateLimitsUpdated => .untracked "protocol:rate_limits_updated"
| .protocolFeeUpdated => .untracked "protocol:protocol_fee_updated"
| .reputationChanged => .untracked "protocol:reputation_changed"
| .bondDeposited => .untracked "bond:deposited"
| .bondLocked => .untracked "bond:locked"
| .bondReleased => .speculation .confirmed
| .bondSlashed => .speculation .aborted
| .speculativeCommitmentCreated => .speculation .started
| .agentRegistered => .untracked "agent:registered"
| .agentUpdated => .untracked "agent:updated"
| .agentDeregistered => .untracked "agent:deregistered"
| .agentSuspended => .untracked "agent:suspended"
| .agentUnsuspended => .untracked "agent:unsuspended"

def eventSortOrder : List (String × Nat) :=
  [("discovered", 10), ("claimed", 20), ("completed", 30), ("failed", 40), ("disputed", 45),
    ("speculation_started", 50), ("speculation_confirmed", 60), ("speculation_aborted", 70),
    ("dispute:initiated", 80), ("dispute:vote_cast", 90),
    ("dispute:resolved", 100), ("dispute:cancelled", 110), ("dispute:expired", 120),
    ("dispute:arbiter_votes_cleaned_up", 130), ("agent:registered", 140), ("agent:updated", 150),
    ("agent:deregistered", 160), ("agent:suspended", 170), ("agent:unsuspended", 180),
    ("protocol:state_updated", 190), ("protocol:protocol_initialized", 200),
    ("protocol:reward_distributed", 210), ("protocol:rate_limit_hit", 220),
    ("protocol:migration_completed", 230), ("protocol:protocol_version_updated", 240),
    ("protocol:rate_limits_updated", 250), ("protocol:protocol_fee_updated", 260),
    ("protocol:reputation_changed", 270), ("bond:deposited", 280), ("bond:locked", 290),
    ("bond:released", 291), ("bond:slashed", 292)]

def eventSortRank (eventType : String) : Nat := (eventSortOrder.lookup eventType).getD 1000

def taskTransitions : TaskLifecycleState → List TaskLifecycleState
| .discovered => [.claimed, .failed]
| .claimed => [.completed, .failed, .disputed]
| .disputed => [.completed, .failed]
| .completed => []
| .failed => []

def disputeTransitions : DisputeLifecycleState → List DisputeLifecycleState
| .initiated => [.voteCast, .resolved, .cancelled, .expired]
| .voteCast => [.resolved, .cancelled, .expired]
| .resolved => []
| .cancelled => []
| .expired => []

def speculationTransitions : SpeculationLifecycleState → List SpeculationLifecycleState
| .started => [.confirmed, .aborted]
| .confirmed => []
| .aborted => []

def taskLifecycle : Lifecycle TaskLifecycleState :=
  { scope := .task, text := TaskLifecycleState.text, transitions := taskTransitions
    allowedStarts := [.discovered] }

def disputeLifecycle : Lifecycle DisputeLifecycleState :=
  { scope := .dispute, text := DisputeLifecycleState.text, transitions := disputeTransitions
    allowedStarts := [.initiated] }

def speculationLifecycle : Lifecycle SpeculationLifecycleState :=
  { scope := .speculation, text := SpeculationLifecycleState.text
    transitions := speculationTransitions, allowedStarts := [.started] }

section

structure ReplayTraceContext where
  traceId : String
  spanId : String
  parentSpanId : Option String
  sampled : Bool
deriving DecidableEq

structure OnChainProjectionInput where
  eventName : String
  event : JsValue
  slot : Int
  signature : String
  timestampMs : Option JsNumber := none
  traceContext : Option ReplayTraceContext := none
  sourceEventSequence : Option Int := none

/- The known name of an input, if it has one. -/
def OnChainProjectionInput.known? (input : OnChainProjectionInput) : Option OnChainEventName :=
  knownEventNames.lookup input.eventName

/- The type of an input; an unknown name is its own type. -/
def OnChainProjectionInput.typeText (input : OnChainProjectionInput) : String :=
  match input.known? with
  | some name => (trajectoryEventBySource name).text
  | none => input.eventName

/- The four fields of a fingerprint, the payload as text. -/
structure Fingerprint where
  slot : Int
  signature : String
  sourceEventName : String
  eventPayload : String
deriving DecidableEq

structure SortedItem where
  input : OnChainProjectionInput
  sourceEventSequence : Int
  trajectorySortKey : Nat
  fingerprint : Fingerprint

variable (host : EvalHost)

def buildFingerprint (input : OnChainProjectionInput) : Fingerprint :=
  { slot := input.slot, signature := input.signature, sourceEventName := input.eventName
    eventPayload := stableStringifyJson host (.object (sanitizePayload host input.event)) }

def Fingerprint.text (fingerprint : Fingerprint) : String :=
  "\x7b\"eventPayload\":" ++ fingerprint.eventPayload ++
    ",\"signature\":" ++ quoteText fingerprint.signature ++ ",\"slot\":" ++
    host.text.numberToString (JsNumber.ofInt fingerprint.slot) ++ ",\"sourceEventName\":" ++
    quoteText fingerprint.sourceEventName ++ "\x7d"

def sortedItem (input : OnChainProjectionInput) (fallbackSequence : Nat) : SortedItem :=
  { input := input, sourceEventSequence := input.sourceEventSequence.getD fallbackSequence
    trajectorySortKey := eventSortRank input.typeText, fingerprint := buildFingerprint host input }

/- The comparator; texts that differ are not looked past. -/
def compareItems (left right : SortedItem) : Ordering :=
  if left.input.slot ≠ right.input.slot then compare left.input.slot right.input.slot
  else if left.input.signature ≠ right.input.signature then
    host.text.localeCompare left.input.signature right.input.signature
  else if left.trajectorySortKey ≠ right.trajectorySortKey then
    compare left.trajectorySortKey right.trajectorySortKey
  else if left.input.eventName ≠ right.input.eventName then
    host.text.localeCompare left.input.eventName right.input.eventName
  else if left.fingerprint ≠ right.fingerprint then
    host.text.localeCompare (left.fingerprint.text host) (right.fingerprint.text host)
  else compare left.sourceEventSequence right.sourceEventSequence

def sortInputs (events : List OnChainProjectionInput) : List SortedItem :=
  sortBy (compareItems host) (events.mapIdx (fun index input => sortedItem host input index))

end

structure ProjectedTimelineEvent where
  seq : Nat
  type : TrajectoryType
  taskPda : Option String
  timestampMs : JsNumber
  payload : List (String × Json)
  slot : Int
  signature : String
  sourceEventName : String
  sourceEventSequence : Nat

structure ProjectionTelemetry where
  totalInputs : Nat
  projectedEvents : Nat
  duplicatesDropped : Nat
  unknownEvents : List String
  transitionConflicts : List String
  transitionViolations : List TransitionValidationViolation
  malformedInputs : List String
deriving DecidableEq

structure DisputeReplayState where
  disputeId : String
  taskId : String
  status : DisputeLifecycleState
  votesFor : Int
  votesAgainst : Int
  totalVoters : Nat
  voterSignatures : List String
  resolutionOutcome : Option JsNumber
  slashApplied : Bool
  initiatorSlashApplied : Bool
  resolvedAtSlot : Option Int
deriving DecidableEq

/- The variables of the loop over the sorted inputs. -/
structure Projection where
  telemetry : ProjectionTelemetry
  eventIds : List Fingerprint
  taskStates : OrderedMap String TaskLifecycleState
  disputeStates : OrderedMap String DisputeLifecycleState
  speculationStates : OrderedMap String SpeculationLifecycleState
  disputeReplayStates : OrderedMap String DisputeReplayState
  projected : List ProjectedTimelineEvent

def Projection.start (totalInputs : Nat) : Projection :=
  { telemetry :=
      { totalInputs := totalInputs, projectedEvents := 0, duplicatesDropped := 0
        unknownEvents := [], transitionConflicts := [], transitionViolations := []
        malformedInputs := [] }, eventIds := [], taskStates := OrderedMap.empty
    disputeStates := OrderedMap.empty, speculationStates := OrderedMap.empty
    disputeReplayStates := OrderedMap.empty, projected := [] }

namespace Projection

def addMalformed (p : Projection) (message : String) : Projection :=
  { p with
    telemetry := { p.telemetry with malformedInputs := p.telemetry.malformedInputs ++ [message] } }

def addConflict (p : Projection) (message : String) : Projection :=
  { p with
    telemetry := { p.telemetry with
      transitionConflicts := p.telemetry.transitionConflicts ++ [message] } }

def addViolation (p : Projection) (violation : Option TransitionValidationViolation) : Projection :=
  match violation with
  | none => p
  | some violation =>
    { p with
      telemetry := { p.telemetry with
        transitionViolations := p.telemetry.transitionViolations ++ [violation]
        transitionConflicts :=
          p.telemetry.transitionConflicts ++ [transitionViolationMessage violation] } }

end Projection

----------
-- One Input
----------

section

structure EventContext where
  taskPda : Option String
  disputePda : Option String
  speculationPda : Option String

variable (host : EvalHost)

def getContext (eventName : OnChainEventName) (event : JsValue) : EventContext :=
  { taskPda := toPublicKeyString host ((event.field "taskId").orElse (event.field "task"))
    disputePda := toPublicKeyString host (event.field "disputeId")
    speculationPda :=
      match eventName with
      | .speculativeCommitmentCreated => toPublicKeyString host (event.field "task")
      | .bondReleased => toPublicKeyString host (event.field "commitment")
      | .bondSlashed => toPublicKeyString host (event.field "commitment")
      | _ => none }

def timestampOf (value : JsValue) : Option JsNumber :=
  match value with
  | .number value => if value.isFinite && JsNumber.le 0 value then some value
      else none
  | _ => none

def resolveTimestamp (input : OnChainProjectionInput) : JsNumber :=
  ((input.timestampMs.bind (fun value => timestampOf (.number value))).or
    (timestampOf (input.event.field "timestamp"))).getD 0

def detailsOf (item : SortedItem) (entityId eventType : String) : TransitionDetails :=
  { entityId := entityId, eventName := item.input.eventName, eventType := eventType
    signature := item.input.signature, slot := item.input.slot
    sourceEventSequence := item.sourceEventSequence }

def projectTask (item : SortedItem) (context : EventContext) (next : TaskLifecycleState)
    (p : Projection) : Projection :=
  match truthy context.taskPda with
  | none =>
    p.addConflict ("task:" ++ item.input.eventName ++
      "@" ++ item.input.signature ++ ": missing_task_id")
  | some taskPda =>
    let checked := p.addViolation
      (validateTransition taskLifecycle (detailsOf item taskPda next.text)
        (p.taskStates.get? taskPda) next)
    { checked with taskStates := checked.taskStates.set taskPda next }

/-
  An initiated dispute also moves its task to disputed, if the task is in a state that allows it.
-/
def projectDisputedTask (item : SortedItem) (context : EventContext)
    (p : Projection) : Projection :=
  match truthy context.taskPda with
  | none => p
  | some taskPda =>
    match p.taskStates.get? taskPda with
    | none => p
    | some previous =>
      if .disputed ∈ taskTransitions previous then
        let checked := p.addViolation
          (validateTransition taskLifecycle (detailsOf item taskPda "disputed")
            (some previous) .disputed)
        { checked with taskStates := checked.taskStates.set taskPda .disputed }
      else p

/- Change the replay state of a dispute that has one. -/
def Projection.updateDispute (p : Projection) (disputePda : String)
    (change : DisputeReplayState → DisputeReplayState) : Projection :=
  match p.disputeReplayStates.get? disputePda with
  | none => p
  | some state =>
    { p with disputeReplayStates := p.disputeReplayStates.set disputePda (change state) }

/- A vote count, `none` if it is not an integer. -/
def voteCount : JsValue → Option Int
| .bigint value => some value
| value => host.bigIntOf (value.orElse (.number 0))

def replayDispute (eventName : OnChainEventName) (item : SortedItem) (context : EventContext)
    (disputePda : String) (p : Projection) : Except String Projection :=
  let event := item.input.event
  match eventName with
  | .disputeInitiated =>
    .ok { p with
      disputeReplayStates :=
        p.disputeReplayStates.set disputePda
          { disputeId := disputePda, taskId := context.taskPda.getD "", status := .initiated
            votesFor := 0, votesAgainst := 0, totalVoters := 0, voterSignatures := []
            resolutionOutcome := none, slashApplied := false, initiatorSlashApplied := false
            resolvedAtSlot := none } }
  | .disputeVoteCast =>
    match p.disputeReplayStates.get? disputePda with
    | none => .ok p
    | some _ =>
      match voteCount host (event.field "votesFor"),
        voteCount host (event.field "votesAgainst") with
      | some votesFor, some votesAgainst =>
        .ok (p.updateDispute disputePda (fun state =>
          { state with
            votesFor := votesFor, votesAgainst := votesAgainst, totalVoters := state.totalVoters + 1
            voterSignatures := state.voterSignatures ++ [item.input.signature]
            status := .voteCast }))
      | _, _ => .error "Cannot convert value to a BigInt"
  | .disputeResolved =>
    .ok (p.updateDispute disputePda (fun state =>
      { state with status := .resolved, resolutionOutcome :=
          match event.field "outcome" with
          | .number outcome => some outcome
          | _ => none, resolvedAtSlot := some item.input.slot }))
  | .disputeCancelled =>
    .ok (p.updateDispute disputePda (fun state => { state with status := .cancelled }))
  | .disputeExpired =>
    .ok (p.updateDispute disputePda (fun state => { state with status := .expired }))
  | _ => .ok p

def projectDispute (eventName : OnChainEventName) (item : SortedItem) (context : EventContext)
    (next : DisputeLifecycleState) (p : Projection) : Except String Projection :=
  match truthy context.disputePda with
  | none =>
    .ok (p.addConflict ("dispute:" ++ item.input.eventName ++ "@" ++
      item.input.signature ++ ": missing_dispute_id"))
  | some disputePda =>
    let checked := p.addViolation
      (validateTransition disputeLifecycle (detailsOf item disputePda next.text)
        (p.disputeStates.get? disputePda) next)
    replayDispute host eventName item context disputePda
      { checked with disputeStates := checked.disputeStates.set disputePda next }

def projectSpeculation (item : SortedItem) (context : EventContext)
    (next : SpeculationLifecycleState) (p : Projection) : Projection :=
  match truthy (context.speculationPda.or context.taskPda) with
  | none => p
  | some speculationKey =>
    let checked := p.addViolation
      (validateTransition speculationLifecycle (detailsOf item speculationKey next.text)
        (p.speculationStates.get? speculationKey) next)
    { checked with speculationStates := checked.speculationStates.set speculationKey next }

----------
-- The Projection
----------

def traceFields (trace : ReplayTraceContext) : Json :=
  .object
    ([("traceId", .string trace.traceId), ("spanId", .string trace.spanId)] ++
      (match trace.parentSpanId with
      | none => []
      | some parentSpanId => [("parentSpanId", .string parentSpanId)]) ++
      [("sampled", .bool trace.sampled)])

/- The fields that say where an event comes from. -/
def onchainFields (input : OnChainProjectionInput) (type : TrajectoryType)
    (orderedSequence : Nat) : Json :=
  .object
    ([("eventName", .string input.eventName), ("eventType", .string type.text),
      ("signature", .string input.signature), ("slot", .number (JsNumber.ofInt input.slot)),
      ("sourceEventSequence", .number (JsNumber.ofInt orderedSequence))] ++
      (match input.traceContext with
      | none => []
      | some trace => [("trace", traceFields trace)]))

/- Follow the lifecycles an event belongs to. -/
def projectLifecycles (eventName : OnChainEventName) (item : SortedItem) (context : EventContext)
    (p : Projection) : Except String Projection :=
  match trajectoryEventBySource eventName with
  | .task next => .ok (projectTask item context next p)
  | .dispute next =>
    projectDispute host eventName item context next
      (if eventName = .disputeInitiated then projectDisputedTask item context p
      else p)
  | .speculation next => .ok (projectSpeculation item context next p)
  | .untracked _ => .ok p

/- The event that is appended for an input. -/
def projectedEvent (eventName : OnChainEventName) (item : SortedItem) (context : EventContext)
    (orderedSequence : Nat) (seq : Nat) : ProjectedTimelineEvent :=
  let input := item.input
  let type := trajectoryEventBySource eventName
  { seq := seq, type := type, taskPda := context.taskPda.or (match type with
      | .speculation _ => context.speculationPda
      | _ => none), timestampMs := resolveTimestamp input
    payload := setField (sanitizePayload host input.event)
      "onchain" (onchainFields input type orderedSequence), slot := input.slot
    signature := input.signature, sourceEventName := input.eventName
    sourceEventSequence := orderedSequence }

/- An input that passed the checks and is no duplicate. -/
def projectKnown (eventName : OnChainEventName) (orderedSequence : Nat) (item : SortedItem)
    (p : Projection) : Except String Projection := do
  let context := getContext host eventName item.input.event
  let followed ← projectLifecycles host eventName item context
    { p with eventIds := p.eventIds ++ [item.fingerprint] }
  .ok
    { followed with
      projected := followed.projected ++
        [projectedEvent host eventName item context orderedSequence (followed.projected.length + 1)]
      telemetry := { followed.telemetry with
        projectedEvents := followed.telemetry.projectedEvents + 1 } }

/- One round of the loop. -/
def projectItem (p : Projection) (entry : Nat × SortedItem) : Except String Projection :=
  let item := entry.2
  let input := item.input
  if input.eventName = "" then .ok (p.addMalformed "invalid_projection_input")
  else if input.slot < 0 then .ok (p.addMalformed ("invalid_slot:" ++ input.eventName))
  else if input.signature = "" then .ok (p.addMalformed ("invalid_signature:" ++ input.eventName))
  else
    match input.known? with
    | none =>
      .ok { p with
        telemetry := { p.telemetry with
          unknownEvents := p.telemetry.unknownEvents ++ [input.eventName] } }
    | some eventName =>
      if item.fingerprint ∈ p.eventIds then
        .ok { p with
          telemetry := { p.telemetry with duplicatesDropped := p.telemetry.duplicatesDropped + 1 } }
      else projectKnown host eventName entry.1 item p

structure ProjectionOptions where
  traceId : Option String := none
  seed : Option Int := none
  strictProjection : Bool := false

structure TrajectoryTrace where
  schemaVersion : Nat
  traceId : String
  seed : Int
  createdAtMs : Int
  metadata : List (String × Json)
  events : List ProjectedTimelineEvent

structure ProjectionResult where
  trace : TrajectoryTrace
  events : List ProjectedTimelineEvent
  telemetry : ProjectionTelemetry
  disputes : OrderedMap String DisputeReplayState

/- The appended events, renumbered and sanitized. -/
def finishEvents (projected : List ProjectedTimelineEvent) : List ProjectedTimelineEvent :=
  projected.mapIdx (fun index event =>
    { event with
      seq := index + 1, payload := sanitizePayload host (Json.object event.payload).toJsValue })

def projectSorted (totalInputs : Nat) (items : List SortedItem) : Except String Projection :=
  (items.mapIdx (fun index item => (index, item))).foldlM
    (projectItem host) (Projection.start totalInputs)

def projectOnChainEvents (events : List OnChainProjectionInput) (options : ProjectionOptions) :
    Except String ProjectionResult := do
  let p ← projectSorted host events.length (sortInputs host events)
  let traceEvents := finishEvents host p.projected
  if options.strictProjection ∧ p.telemetry.transitionViolations ≠ [] then
    .error ("Replay projection strict mode failed: " ++
      "; ".intercalate p.telemetry.transitionConflicts)
  else
    .ok
      { telemetry := p.telemetry, events := traceEvents, disputes := p.disputeReplayStates
        trace :=
          { schemaVersion := 1, traceId := options.traceId.getD "onchain-projection"
            seed := options.seed.getD 0, createdAtMs := 0
            metadata := [("type", .string "onchain_projection")], events := traceEvents } }

----------
-- What The Lifecycles Leave Alone
----------

/- The seen fingerprints and appended events are the same. -/
structure SameEvents (p p' : Projection) : Prop where
  eventIds : p'.eventIds = p.eventIds
  projected : p'.projected = p.projected

theorem SameEvents.trans {p₁ p₂ p₃ : Projection} (h₁ : SameEvents p₁ p₂) (h₂ : SameEvents p₂ p₃) :
    SameEvents p₁ p₃ := ⟨h₂.eventIds.trans h₁.eventIds, h₂.projected.trans h₁.projected⟩

theorem addViolation_sameEvents (p : Projection)
    (violation : Option TransitionValidationViolation) :
    SameEvents p (p.addViolation violation) := by cases violation <;> exact ⟨rfl, rfl⟩

theorem projectTask_sameEvents (item : SortedItem) (context : EventContext)
    (next : TaskLifecycleState) (p : Projection) :
    SameEvents p (projectTask item context next p) := by
  unfold projectTask
  split
  · exact ⟨rfl, rfl⟩
  · exact (addViolation_sameEvents p _).trans ⟨rfl, rfl⟩

theorem projectDisputedTask_sameEvents (item : SortedItem) (context : EventContext)
    (p : Projection) : SameEvents p (projectDisputedTask item context p) := by
  unfold projectDisputedTask
  repeat' split
  all_goals first
    | exact ⟨rfl, rfl⟩
    | exact (addViolation_sameEvents p _).trans ⟨rfl, rfl⟩

theorem projectSpeculation_sameEvents (item : SortedItem) (context : EventContext)
    (next : SpeculationLifecycleState) (p : Projection) :
    SameEvents p (projectSpeculation item context next p) := by
  unfold projectSpeculation
  split
  · exact ⟨rfl, rfl⟩
  · exact (addViolation_sameEvents p _).trans ⟨rfl, rfl⟩

theorem updateDispute_sameEvents (p : Projection) (disputePda : String)
    (change : DisputeReplayState → DisputeReplayState) :
    SameEvents p (p.updateDispute disputePda change) := by
  unfold Projection.updateDispute
  split <;> exact ⟨rfl, rfl⟩

variable {host : EvalHost}
variable {eventName : OnChainEventName}
variable {item : SortedItem}
variable {context : EventContext}
variable {p p' : Projection}

theorem replayDispute_sameEvents {disputePda : String}
    (hOk : replayDispute host eventName item context disputePda p = .ok p') : SameEvents p p' := by
  unfold replayDispute at hOk
  dsimp only at hOk
  repeat' split at hOk
  all_goals cases hOk
  all_goals first
    | exact ⟨rfl, rfl⟩
    | exact updateDispute_sameEvents _ _ _

theorem projectDispute_sameEvents {next : DisputeLifecycleState}
    (hOk : projectDispute host eventName item context next p = .ok p') : SameEvents p p' := by
  unfold projectDispute at hOk
  split at hOk
  · cases hOk
    exact ⟨rfl, rfl⟩
  · next disputePda _ =>
      have hReplay := replayDispute_sameEvents hOk
      have hChecked := addViolation_sameEvents p
        (validateTransition disputeLifecycle (detailsOf item disputePda next.text)
          (p.disputeStates.get? disputePda) next)
      exact ⟨hReplay.eventIds.trans hChecked.eventIds, hReplay.projected.trans hChecked.projected⟩

theorem projectLifecycles_sameEvents
    (hOk : projectLifecycles host eventName item context p = .ok p') : SameEvents p p' := by
  unfold projectLifecycles at hOk
  split at hOk
  · cases hOk
    exact projectTask_sameEvents _ _ _ p
  · have hDispute := projectDispute_sameEvents hOk
    split at hDispute
    · exact (projectDisputedTask_sameEvents _ _ p).trans hDispute
    · exact hDispute
  · cases hOk
    exact projectSpeculation_sameEvents _ _ _ p
  · cases hOk
    exact ⟨rfl, rfl⟩

theorem projectKnown_of_followed {orderedSequence : Nat} {followed : Projection}
    (hOk : projectLifecycles host eventName item (getContext host eventName item.input.event)
        { p with eventIds := p.eventIds ++ [item.fingerprint] } = .ok followed) :
    projectKnown host eventName orderedSequence item p =
      .ok
        { followed with
          projected := followed.projected ++
            [projectedEvent host eventName item (getContext host eventName item.input.event)
              orderedSequence (followed.projected.length + 1)]
          telemetry := { followed.telemetry with
            projectedEvents := followed.telemetry.projectedEvents + 1 } } := by
  unfold projectKnown
  dsimp only
  rw [hOk]
  rfl

end

end AgencCore.Eval
