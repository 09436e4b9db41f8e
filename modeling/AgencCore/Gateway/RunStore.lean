import AgencCore.Gateway.Dispatch
import AgencCore.Gateway.Transcript

/-
  The stored state of a background run.

  Of one session, the store keeps the run, its checkpoint, its transcript and the wake events that
  wait for it. A run carries a lease: its owner, when it ends, and a fence token that grows with
  every claim. A save with an older token is rejected.

  Calls for a session run one at a time, but for a collection, which reads and writes as it pleases.
  Here each call is described by what it reads and what it then writes.
-/

namespace AgencCore.Gateway

open Foundations

structure WakeId where
  createdAt : JsNumber
  sequence : Nat
deriving DecidableEq

/- Signals come from wake events or from elsewhere. -/
inductive SignalId where
  | wake (id : WakeId)
  | other (text : String)
deriving DecidableEq

inductive SignalType where
  | userInput
  | approval
  | externalEvent
  | toolResult
  | processExit
  | webhook
deriving DecidableEq

structure RunSignal where
  id : SignalId
  type : SignalType
  content : String
  timestamp : JsNumber
deriving DecidableEq

structure BackgroundRun where
  updatedAt : JsNumber
  pendingSignals : List RunSignal
  internalHistory : List LLMMessage
  fenceToken : JsNumber
  leaseOwnerId : Option String
  leaseExpiresAt : Option JsNumber
deriving DecidableEq

/- The token as a whole number of at least one. -/
def fenceOf (fenceToken : JsNumber) : Nat := (readPositive fenceToken).getD 1

def coerceRun (run : BackgroundRun) : BackgroundRun :=
  { run with fenceToken := .ofInt (fenceOf run.fenceToken) }

def readRun (run : BackgroundRun) : Stored BackgroundRun :=
  if run.updatedAt.isFinite then
    .valid (coerceRun
      { run with
        pendingSignals := run.pendingSignals.filter (·.timestamp.isFinite)
        leaseExpiresAt := run.leaseExpiresAt.filter JsNumber.isFinite })
  else .damaged

----------
-- Wake Events
----------

inductive WakeReason where
  | start
  | timer
  | busyRetry
  | recovery
  | daemonShutdown
  | signal (type : SignalType)
deriving DecidableEq

inductive WakeDomain where
  | approval
  | operator
  | process
  | tool
  | scheduler
  | webhook
  | external
deriving DecidableEq

structure WakeEvent where
  id : WakeId
  type : WakeReason
  domain : WakeDomain
  content : String
  createdAt : JsNumber
  availableAt : JsNumber
  sequence : Nat
  deliveryCount : Nat
  maxDeliveryAttempts : JsNumber
  dedupeKey : Option String
deriving DecidableEq

inductive WakeFailure where
  | queueOverflow
  | attemptsExhausted
deriving DecidableEq

structure WakeDeadLetter where
  event : WakeEvent
  failedAt : JsNumber
  reason : WakeFailure
deriving DecidableEq

structure WakeQueue where
  nextSequence : Nat
  events : List WakeEvent
  deadLetters : List WakeDeadLetter
deriving DecidableEq

def buildDefaultWakeQueue : WakeQueue := ⟨1, [], []⟩

def wakeEventPriority : WakeDomain → Nat
| .approval => 0
| .operator => 1
| .process => 2
| .tool => 3
| .scheduler => 4
| .webhook => 5
| .external => 6

def compareWakeEvents (left right : WakeEvent) : Ordering :=
  (compareNumbers left.availableAt right.availableAt).then
    ((compare (wakeEventPriority left.domain) (wakeEventPriority right.domain)).then
      (compare left.sequence right.sequence))

def WakeEvent.isReadable (event : WakeEvent) : Bool :=
  event.createdAt.isFinite && event.availableAt.isFinite

def WakeEvent.readBack (event : WakeEvent) : WakeEvent :=
  { event with maxDeliveryAttempts := readAttempts event.maxDeliveryAttempts }

/- `coerceWakeEvent`, after the event was stored. -/
def readWakeEvent (event : WakeEvent) : Option WakeEvent :=
  if event.isReadable then some event.readBack else none

def readWakeDeadLetter (letter : WakeDeadLetter) : Option WakeDeadLetter :=
  if letter.failedAt.isFinite then
    (readWakeEvent letter.event).map (fun event => { letter with event := event })
  else none

/- `coerceWakeQueue`, after the queue was stored. -/
def readWakeQueue (queue : WakeQueue) : WakeQueue :=
  let events := sortBy compareWakeEvents (queue.events.filterMap readWakeEvent)
  { nextSequence := if 0 < queue.nextSequence then queue.nextSequence
      else events.length + 1, events := events
    deadLetters := queue.deadLetters.filterMap readWakeDeadLetter }

structure EnqueueWakeEventParams where
  type : WakeReason
  domain : WakeDomain
  content : String
  createdAt : Option JsNumber := none
  availableAt : Option JsNumber := none
  maxDeliveryAttempts : Option JsNumber := none
  dedupeKey : Option String := none
deriving DecidableEq

def wakeQueueMaxEvents : Nat := 256

def WakeQueue.existingIndex (queue : WakeQueue) (params : EnqueueWakeEventParams) : Option Nat :=
  params.dedupeKey.bind (fun key => queue.events.findIdx? (fun event => event.dedupeKey = some key))

/- The event of a call, in the place of an older one. -/
def EnqueueWakeEventParams.toEvent (params : EnqueueWakeEventParams) (createdAt : JsNumber)
    (nextSequence : Nat) (existing : Option WakeEvent) : WakeEvent :=
  { id := (existing.map (·.id)).getD ⟨createdAt, nextSequence⟩, type := params.type
    domain := params.domain, content := params.content
    createdAt := (existing.map (·.createdAt)).getD createdAt
    availableAt := params.availableAt.getD createdAt
    sequence := (existing.map (·.sequence)).getD nextSequence
    deliveryCount := (existing.map (·.deliveryCount)).getD 0
    maxDeliveryAttempts := params.maxDeliveryAttempts.getD defaultMaxDeliveryAttempts
    dedupeKey := params.dedupeKey }

/- The events with the new one among them, in order. -/
def WakeQueue.placed (queue : WakeQueue) (params : EnqueueWakeEventParams)
    (event : WakeEvent) : List WakeEvent :=
  sortBy compareWakeEvents (match queue.existingIndex params with
    | some index => queue.events.set index event
    | none => queue.events ++ [event])

/- The first events are buried if there are too many. -/
def WakeQueue.enqueueWakeEvent (queue : WakeQueue) (params : EnqueueWakeEventParams)
    (createdAt : JsNumber) : WakeEvent × WakeQueue :=
  let index? := queue.existingIndex params
  let event := params.toEvent createdAt queue.nextSequence
    (index?.bind (fun index => queue.events[index]?))
  let events := queue.placed params event
  let excess := events.length - wakeQueueMaxEvents
  (event,
    { nextSequence := if index?.isSome then queue.nextSequence
        else queue.nextSequence + 1, events := events.drop excess
      deadLetters := queue.deadLetters ++
        (events.take excess).map (fun event => ⟨event, createdAt, .queueOverflow⟩) })

/- What becomes of the events of a queue on delivery. -/
structure WakeDelivery where
  deliverable : List WakeEvent
  deadLetters : List WakeDeadLetter
  remaining : List WakeEvent
deriving DecidableEq

def WakeEvent.counted (event : WakeEvent) : WakeEvent :=
  { event with deliveryCount := event.deliveryCount + 1 }

def WakeDelivery.take (existingSignalIds : List SignalId) (now limit : JsNumber)
    (delivery : WakeDelivery) (event : WakeEvent) : WakeDelivery :=
  if now.lt event.availableAt then { delivery with remaining := delivery.remaining ++ [event] }
  else if limit.le (.ofInt delivery.deliverable.length) then
    { delivery with remaining := delivery.remaining ++ [event] }
  else if SignalId.wake event.id ∈ existingSignalIds then delivery
  else if event.maxDeliveryAttempts.le (.ofInt (event.deliveryCount + 1)) then
    { delivery with
      deadLetters := delivery.deadLetters ++ [⟨event.counted, now, .attemptsExhausted⟩] }
  else { delivery with deliverable := delivery.deliverable ++ [event.counted] }

/- The signal of an event, if it is of such a type. -/
def WakeEvent.toSignal (event : WakeEvent) : Option RunSignal :=
  match event.type with
  | .signal type =>
    some
      { id := .wake event.id, type := type, content := event.content, timestamp := event.createdAt }
  | _ => none

def deliverDueWakeEvents (run : BackgroundRun) (queue : WakeQueue)
    (now limit : JsNumber) : BackgroundRun × WakeQueue :=
  let delivery := queue.events.foldl
    (WakeDelivery.take (run.pendingSignals.map (·.id)) now limit)
    ⟨[], queue.deadLetters, []⟩
  (if delivery.deliverable = [] then run
    else
      coerceRun
        { run with
          updatedAt := now
          pendingSignals := run.pendingSignals ++
            delivery.deliverable.filterMap WakeEvent.toSignal },
    { queue with events := delivery.remaining, deadLetters := delivery.deadLetters })

/- The queue without the dead letters that are too old. -/
def WakeQueue.collect (queue : WakeQueue) (wakeDeadLetterRetentionMs now : JsNumber) :
    Option WakeQueue :=
  let retained := queue.deadLetters.filter (fun letter =>
    now.lt (letter.failedAt.add wakeDeadLetterRetentionMs))
  if retained.length = queue.deadLetters.length then none
  else some { queue with deadLetters := retained }

----------
-- Sessions
----------

/-
  What is stored of a session, and the number of random identifiers that were drawn for its
  transcript.
-/
structure SessionStore where
  run : Stored BackgroundRun
  checkpoint : Stored BackgroundRun
  transcript : List TranscriptEvent
  uuids : Nat
  wakeQueue : WakeQueue
deriving DecidableEq

def SessionStore.empty : SessionStore := ⟨.absent, .absent, [], 0, buildDefaultWakeQueue⟩

namespace SessionStore

variable (store : SessionStore)

def loadConversationHistory : List LLMMessage := recoverTranscriptHistory store.transcript

/- The history of a transcript that is not empty. -/
def overlay (run : BackgroundRun) : BackgroundRun :=
  if store.loadConversationHistory = [] then run
  else { run with internalHistory := store.loadConversationHistory }

/- A damaged run is put away and does not come back. -/
def loadRun : Option BackgroundRun × SessionStore :=
  match store.run with
  | .absent => (none, store)
  | .damaged => (none, { store with run := .absent })
  | .valid run => (some (store.overlay run), store)

def loadCheckpoint : Option BackgroundRun :=
  match store.checkpoint with
  | .valid run => some (store.overlay run)
  | _ => none

def writeRun (run : BackgroundRun) : SessionStore := { store with run := readRun run }

def writeWakeQueue (queue : WakeQueue) : SessionStore :=
  { store with wakeQueue := readWakeQueue queue }

def syncConversationHistory (host : HistoryHost) (support : TranscriptSupport) (reason : SyncReason)
    (history : List LLMMessage) : SessionStore :=
  let events := syncEvents host reason store.uuids store.loadConversationHistory history
  { store with
    transcript := appendTranscriptBatch support store.transcript events
    uuids := store.uuids + events.length }

end SessionStore

inductive SaveRejection where
  | fenceConflict (attemptedFenceToken currentFenceToken : JsNumber)
  | leaseOwnerMismatch (attempted current : String)
deriving DecidableEq

/- Why a record may not be written over the current one. -/
def saveRejection (current : Option BackgroundRun)
    (validated : BackgroundRun) : Option SaveRejection :=
  match current, validated.leaseOwnerId with
  | some current, some owner =>
    if validated.fenceToken.lt current.fenceToken then
      some (.fenceConflict validated.fenceToken current.fenceToken)
    else
      match givenText current.leaseOwnerId with
      | some currentOwner =>
        if current.fenceToken.lt validated.fenceToken ∧ currentOwner ≠ owner then
          some (.leaseOwnerMismatch owner currentOwner)
        else none
      | none => none
  | _, _ => none

/- A save up to its write: the transcript comes first. -/
def SessionStore.beginSave (store : SessionStore) (host : HistoryHost) (support : TranscriptSupport)
    (validated : BackgroundRun) : Option SaveRejection × SessionStore :=
  let store := store.syncConversationHistory host support .saveRun validated.internalHistory
  let (current, store) := store.loadRun
  (saveRejection current validated, store)

def SessionStore.saveRun (store : SessionStore) (host : HistoryHost) (support : TranscriptSupport)
    (run : BackgroundRun) : Option SaveRejection × SessionStore :=
  let validated := coerceRun run
  match store.beginSave host support validated with
  | (some rejection, store) => (some rejection, store)
  | (none, store) => (none, store.writeRun validated)

/- The run with a new lease, unless another one is active. -/
def claimLease (current : BackgroundRun) (workers : List WorkerRecord) (leaseDurationMs : JsNumber)
    (instanceId : String) (now : JsNumber) : Option BackgroundRun :=
  let leaseIsActive :=
    (givenText current.leaseOwnerId).any (fun owner =>
      owner ≠ instanceId && current.leaseExpiresAt.any (fun expiresAt => now.lt expiresAt) &&
        (buildActiveWorkerMap workers now).has owner)
  if leaseIsActive then none
  else
    some (coerceRun
      { current with
        updatedAt := now, fenceToken := current.fenceToken.add 1, leaseOwnerId := some instanceId
        leaseExpiresAt := some (now.add leaseDurationMs) })

/- The fields of a run that a release may change. -/
structure RunUpdates where
  pendingSignals : Option (List RunSignal) := none
  internalHistory : Option (List LLMMessage) := none
  fenceToken : Option JsNumber := none
deriving DecidableEq

/- The run without a lease, unless it is somebody else's. -/
def releaseLease (current : BackgroundRun) (instanceId : String) (now : JsNumber)
    (updates : RunUpdates) : Option BackgroundRun :=
  if (givenText current.leaseOwnerId).any (fun owner => owner ≠ instanceId) then none
  else
    some (coerceRun
      { updatedAt := now, pendingSignals := updates.pendingSignals.getD current.pendingSignals
        internalHistory := updates.internalHistory.getD current.internalHistory
        fenceToken := updates.fenceToken.getD current.fenceToken, leaseOwnerId := none
        leaseExpiresAt := none })

/- The run without a lease that has run out. -/
def collectLease (run : BackgroundRun) (now : JsNumber) : Option BackgroundRun :=
  if (givenText run.leaseOwnerId).isSome &&
      run.leaseExpiresAt.any (fun expiresAt => expiresAt.le now) then
    some { run with updatedAt := now, leaseOwnerId := none, leaseExpiresAt := none }
  else none

----------
-- Interleaved Calls
----------

/-
  What the call of a session that has begun does next: write a run, for a claim, a save or a
  release, or read the wake queue, or write it, after the run or on its own.
-/
inductive PendingCall where
  | claimed (instanceId : String) (run : BackgroundRun)
  | saving (owner : String) (run : BackgroundRun)
  | released (run : BackgroundRun)
  | enqueued (event : WakeEvent) (queue : WakeQueue)
  | delivering (run : Option BackgroundRun) (now limit : JsNumber)
  | delivered (run : BackgroundRun) (queue : WakeQueue)
  | dequeued (queue : WakeQueue)
deriving DecidableEq

/- What a collection has read and is about to write. -/
inductive CollectorWrite where
  | run (read write : BackgroundRun)
  | wakeQueue (read write : WakeQueue)
deriving DecidableEq

/-
  The store with the call that has begun, the collections on their way, and the leases that were
  granted so far.
-/
structure SessionState where
  store : SessionStore
  pending : Option PendingCall
  collectors : List CollectorWrite
  grants : List (String × Nat)
deriving DecidableEq

/- A session in which no call has begun. -/
def SessionState.start (store : SessionStore) (run : Option BackgroundRun) : SessionState :=
  { store := { store with run := (run.map readRun).getD .absent }, pending := none, collectors := []
    grants := [] }

structure SessionConfig where
  host : HistoryHost
  support : TranscriptSupport
  leaseDurationMs : JsNumber

inductive SessionStep where
  | claim (workers : List WorkerRecord) (instanceId : String) (now : JsNumber)
  | release (instanceId : String) (now : JsNumber) (updates : RunUpdates)
  | save (owner : String) (run : BackgroundRun)
  | enqueue (params : EnqueueWakeEventParams) (clock : JsNumber)
  | deliver (now limit : JsNumber)
  | proceed
  | collectLease (now : JsNumber)
  | collectWake (retention now : JsNumber)
  | collectorWrite (index : Nat)
deriving DecidableEq

namespace SessionState

variable (state : SessionState)

def readRunThen (next : BackgroundRun → Option PendingCall) : SessionState :=
  match state.pending with
  | some _ => state
  | none =>
    let (current, store) := state.store.loadRun
    { state with store := store, pending := current.bind next }

/- A save with a lease, up to its write. -/
def beginSave (config : SessionConfig) (owner : String) (run : BackgroundRun) : SessionState :=
  match state.pending with
  | some _ => state
  | none => let validated := coerceRun { run with leaseOwnerId := some owner }
      match state.store.beginSave config.host config.support validated with
      | (some _, store) => { state with store := store }
      | (none, store) => { state with store := store, pending := some (.saving owner validated) }

def beginEnqueue (params : EnqueueWakeEventParams) (clock : JsNumber) : SessionState :=
  match state.pending with
  | some _ => state
  | none =>
    let (event, queue) :=
      state.store.wakeQueue.enqueueWakeEvent params (params.createdAt.getD clock)
    { state with pending := some (.enqueued event queue) }

def beginDeliver (now limit : JsNumber) : SessionState :=
  match state.pending with
  | some _ => state
  | none =>
    let (run, store) := state.store.loadRun
    { state with store := store, pending := some (.delivering run now limit) }

/- The call that has begun makes its next access. -/
def proceed : SessionState :=
  match state.pending with
  | none => state
  | some (.claimed instanceId run) =>
    { state with
      store := state.store.writeRun run, pending := none
      grants := state.grants ++ [(instanceId, fenceOf run.fenceToken)] }
  | some (.saving _ run) => { state with store := state.store.writeRun run, pending := none }
  | some (.released run) => { state with store := state.store.writeRun run, pending := none }
  | some (.enqueued _ queue) =>
    { state with store := state.store.writeWakeQueue queue, pending := none }
  | some (.delivering none _ _) => { state with pending := none }
  | some (.delivering (some run) now limit) =>
    let (run, queue) := deliverDueWakeEvents run state.store.wakeQueue now limit
    { state with pending := some (.delivered run queue) }
  | some (.delivered run queue) =>
    { state with store := state.store.writeRun run, pending := some (.dequeued queue) }
  | some (.dequeued queue) =>
    { state with store := state.store.writeWakeQueue queue, pending := none }

/- A collection reads the run. -/
def beginCollectLease (now : JsNumber) : SessionState :=
  let (run, store) := state.store.loadRun
  { state with
    store := store
    collectors := state.collectors ++
      (run.bind (fun run => (collectLease run now).map
        (fun next => CollectorWrite.run run next))).toList }

/- A collection reads the wake queue. -/
def beginCollectWake (retention now : JsNumber) : SessionState :=
  let queue := state.store.wakeQueue
  { state with
    collectors := state.collectors ++
      ((queue.collect retention now).map (fun next => CollectorWrite.wakeQueue queue next)).toList }

/- A collection writes what it has made of what it read. -/
def collectorWrite (index : Nat) : SessionState :=
  match state.collectors[index]? with
  | none => state
  | some (.run _ write) =>
    { state with
      store := state.store.writeRun write, collectors := state.collectors.eraseIdx index }
  | some (.wakeQueue _ write) =>
    { state with
      store := state.store.writeWakeQueue write, collectors := state.collectors.eraseIdx index }

def step (config : SessionConfig) : SessionStep → SessionState
| .claim workers instanceId now =>
  state.readRunThen (fun current =>
    (claimLease current workers config.leaseDurationMs instanceId now).map (.claimed instanceId))
| .release instanceId now updates =>
  state.readRunThen (fun current => (releaseLease current instanceId now updates).map .released)
| .save owner run => state.beginSave config owner run
| .enqueue params clock => state.beginEnqueue params clock
| .deliver now limit => state.beginDeliver now limit
| .proceed => state.proceed
| .collectLease now => state.beginCollectLease now
| .collectWake retention now => state.beginCollectWake retention now
| .collectorWrite index => state.collectorWrite index

end SessionState

/- A run without a lease. -/
def BackgroundRun.unleased : BackgroundRun :=
  { updatedAt := 0, pendingSignals := [], internalHistory := [], fenceToken := 1
    leaseOwnerId := none, leaseExpiresAt := none }

def SessionConfig.plain : SessionConfig := ⟨.plain, .native, 45000⟩

end AgencCore.Gateway
