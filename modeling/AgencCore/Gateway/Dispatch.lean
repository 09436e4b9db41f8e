import AgencCore.Foundations.OrderedMap
import AgencCore.Gateway.Stored

/-
  The dispatch queue of the background run store.

  Items wait in a queue until a worker of their pool claims them. A beacon says how long the queue
  is and when its first item is due. Every operation runs alone, under the lock of the queue.

  A record is kept here as it is read back: JSON writes a number that is not finite as `null`, and a
  record with such a number in a field that has to be one is dropped, or taken for damaged if it is
  the queue itself.

  The identifier of an item is made from its time and its sequence number; no two such texts are the
  same, so it is the pair of them.
-/

namespace AgencCore.Gateway

open Foundations

inductive WorkerPool where
  | generic
  | browser
  | desktop
  | code
  | research
  | approval
  | remoteMcp
  | remoteSession
deriving DecidableEq

inductive DispatchReason where
  | start
  | timer
  | busyRetry
  | recovery
  | userInput
  | approval
  | externalEvent
  | toolResult
  | processExit
  | webhook
  | daemonShutdown
  | resume
  | heartbeat
  | admissionRetry
deriving DecidableEq

structure DispatchId where
  createdAt : JsNumber
  sequence : Nat
deriving DecidableEq

structure DispatchItem where
  id : DispatchId
  sessionId : String
  pool : WorkerPool
  reason : DispatchReason
  priority : JsNumber
  enqueuedAt : JsNumber
  availableAt : JsNumber
  sequence : Nat
  deliveryCount : Nat
  maxDeliveryAttempts : JsNumber
  dedupeKey : Option String
  preferredWorkerId : Option String
  affinityKey : Option String
  claimOwnerId : Option String
  claimExpiresAt : Option JsNumber
deriving DecidableEq

inductive DispatchFailure where
  | queueOverflow
  | attemptsExhausted
deriving DecidableEq

structure DispatchDeadLetter where
  item : DispatchItem
  failedAt : JsNumber
  reason : DispatchFailure
deriving DecidableEq

structure DispatchQueue where
  nextSequence : Nat
  updatedAt : JsNumber
  items : List DispatchItem
  deadLetters : List DispatchDeadLetter
deriving DecidableEq

structure DispatchBeacon where
  revision : Nat
  updatedAt : JsNumber
  queueDepth : Nat
  nextAvailableAt : Option JsNumber
deriving DecidableEq

inductive WorkerState where
  | active
  | draining
deriving DecidableEq

structure WorkerRecord where
  workerId : String
  pools : List WorkerPool
  state : WorkerState
  lastHeartbeatAt : JsNumber
  heartbeatTtlMs : Nat
  maxConcurrentRuns : Nat
  inFlightRuns : Nat
  affinityKeys : List String
deriving DecidableEq

def dispatchPriority : DispatchReason → Nat
| .approval => 0
| .resume => 1
| .userInput => 2
| .processExit => 3
| .toolResult => 4
| .webhook => 5
| .externalEvent => 6
| .heartbeat => 7
| .start => 8
| .recovery => 9
| .timer => 10
| .busyRetry => 11
| .admissionRetry => 12
| .daemonShutdown => 13

def compareDispatchItems (left right : DispatchItem) : Ordering :=
  (compareNumbers left.availableAt right.availableAt).then
    ((compare (dispatchPriority left.reason) (dispatchPriority right.reason)).then
      ((compareNumbers left.priority right.priority).then (compare left.sequence right.sequence)))

----------
-- Storage
----------

def dispatchQueueMaxItems : Nat := 512

/- `coerceDispatchItem`, after the item was stored. -/
def readItem (item : DispatchItem) : Option DispatchItem :=
  if item.priority.isFinite && item.enqueuedAt.isFinite && item.availableAt.isFinite then
    some
      { item with
        maxDeliveryAttempts := readAttempts item.maxDeliveryAttempts
        claimExpiresAt := item.claimExpiresAt.filter JsNumber.isFinite }
  else none

/- `coerceDispatchDeadLetter`, after it was stored. -/
def readDeadLetter (letter : DispatchDeadLetter) : Option DispatchDeadLetter :=
  if letter.failedAt.isFinite then
    (readItem letter.item).map (fun item => { letter with item := item })
  else none

/- `coerceDispatchQueue`, after the queue was stored. -/
def readQueue (queue : DispatchQueue) : Stored DispatchQueue :=
  if queue.updatedAt.isFinite then
    .valid
      { queue with
        items := sortBy compareDispatchItems (queue.items.filterMap readItem)
        deadLetters := queue.deadLetters.filterMap readDeadLetter }
  else .damaged

/- `coerceDispatchBeacon`, after the beacon was stored. -/
def readBeacon (beacon : DispatchBeacon) : Stored DispatchBeacon :=
  if beacon.updatedAt.isFinite then
    .valid { beacon with nextAvailableAt := beacon.nextAvailableAt.filter JsNumber.isFinite }
  else .damaged

structure DispatchStore where
  queue : Stored DispatchQueue
  beacon : Stored DispatchBeacon
  workers : List WorkerRecord
deriving DecidableEq

def DispatchStore.empty : DispatchStore := ⟨.absent, .absent, []⟩

def buildDefaultDispatchQueue (now : JsNumber) : DispatchQueue := ⟨0, now, [], []⟩

def buildDispatchBeacon (queue : DispatchQueue) (revision : Nat) : DispatchBeacon :=
  { revision := revision, updatedAt := queue.updatedAt, queueDepth := queue.items.length
    nextAvailableAt := queue.items.head?.map (·.availableAt) }

namespace DispatchStore

variable (store : DispatchStore)

def currentRevision : Nat :=
  match store.beacon with
  | .valid beacon => beacon.revision
  | _ => 0

def saveDispatchQueueAndBeacon (queue : DispatchQueue)
    (previousRevision : Option Nat) : DispatchStore :=
  let revision := previousRevision.getD store.currentRevision + 1
  { store with queue := readQueue queue, beacon := readBeacon (buildDispatchBeacon queue revision) }

/- A damaged queue is replaced by an empty one. -/
def loadDispatchQueue (clock : JsNumber) : DispatchQueue × DispatchStore :=
  match store.queue with
  | .absent => (buildDefaultDispatchQueue clock, store)
  | .damaged =>
    let fallback := buildDefaultDispatchQueue clock
    (fallback, store.saveDispatchQueueAndBeacon fallback (some 0))
  | .valid queue => (queue, store)

/- A damaged beacon is replaced by one for the queue. -/
def loadDispatchBeacon (clock : JsNumber) : DispatchStore :=
  match store.beacon with
  | .damaged =>
    let (queue, store) := store.loadDispatchQueue clock
    { store with beacon := readBeacon (buildDispatchBeacon queue 0) }
  | _ => store

end DispatchStore

----------
-- Items
----------

structure EnqueueDispatchParams where
  sessionId : String
  pool : WorkerPool
  reason : DispatchReason
  createdAt : Option JsNumber := none
  availableAt : Option JsNumber := none
  priority : Option JsNumber := none
  maxDeliveryAttempts : Option JsNumber := none
  dedupeKey : Option String := none
  preferredWorkerId : Option String := none
  affinityKey : Option String := none
deriving DecidableEq

/- The item of an enqueue, in the place of an older one. -/
def EnqueueDispatchParams.toItem (params : EnqueueDispatchParams) (createdAt : JsNumber)
    (nextSequence : Nat) (existing : Option DispatchItem) : DispatchItem :=
  { id := (existing.map (·.id)).getD ⟨createdAt, nextSequence⟩
    sessionId := params.sessionId, pool := params.pool, reason := params.reason
    priority := params.priority.getD 0
    enqueuedAt := (existing.map (·.enqueuedAt)).getD createdAt
    availableAt := params.availableAt.getD createdAt
    sequence := (existing.map (·.sequence)).getD nextSequence
    deliveryCount := (existing.map (·.deliveryCount)).getD 0
    maxDeliveryAttempts := params.maxDeliveryAttempts.getD defaultMaxDeliveryAttempts
    dedupeKey := params.dedupeKey, preferredWorkerId := params.preferredWorkerId
    affinityKey := params.affinityKey, claimOwnerId := existing.bind (·.claimOwnerId)
    claimExpiresAt := existing.bind (·.claimExpiresAt) }

/- The queue with an item put in its place. -/
def DispatchQueue.enqueue (queue : DispatchQueue) (params : EnqueueDispatchParams)
    (createdAt : JsNumber) : DispatchItem × DispatchQueue :=
  let index? := params.dedupeKey.bind (fun key =>
    queue.items.findIdx? (fun item => item.dedupeKey = some key))
  let existing := index?.bind (fun index => queue.items[index]?)
  let item := params.toItem createdAt queue.nextSequence existing
  let placed := sortBy compareDispatchItems (match index? with
    | some index => queue.items.set index item
    | none => queue.items ++ [item])
  (item,
    { nextSequence := if index?.isSome then queue.nextSequence
        else queue.nextSequence + 1, updatedAt := createdAt
      items := placed.take dispatchQueueMaxItems
      deadLetters := queue.deadLetters ++
        (placed.drop dispatchQueueMaxItems).reverse.map
          (fun item => ⟨item, createdAt, .queueOverflow⟩) })

def DispatchStore.enqueueDispatch (store : DispatchStore) (params : EnqueueDispatchParams)
    (clock : JsNumber) : DispatchItem × DispatchStore :=
  let createdAt := params.createdAt.getD clock
  let (queue, store) := store.loadDispatchQueue clock
  let (item, next) := queue.enqueue params createdAt
  (item, store.saveDispatchQueueAndBeacon next none)

def isLive (now : JsNumber) (worker : WorkerRecord) : Bool :=
  worker.state = .active && now.lt (worker.lastHeartbeatAt.add (.ofInt worker.heartbeatTtlMs))

def buildActiveWorkerMap (workers : List WorkerRecord)
    (now : JsNumber) : OrderedMap String WorkerRecord :=
  OrderedMap.ofList ((workers.filter (isLive now)).map (fun worker => (worker.workerId, worker)))

/- The item is claimed, and its owner is still there. -/
def isHeld (activeWorkers : OrderedMap String WorkerRecord) (now : JsNumber)
    (item : DispatchItem) : Bool :=
  match givenText item.claimOwnerId, givenNumber item.claimExpiresAt with
  | some owner, some expiresAt =>
    now.lt expiresAt && (activeWorkers.get? owner).any (fun worker => worker.state = .active)
  | _, _ => false

/- Another worker is preferred, and it is there. -/
def defersToPreferred (activeWorkers : OrderedMap String WorkerRecord) (workerId : String)
    (item : DispatchItem) : Bool :=
  (givenText item.preferredWorkerId).any (fun preferred =>
    preferred ≠ workerId &&
      (activeWorkers.get? preferred).any (fun worker => worker.state = .active))

def defersToAffinity (activeWorkers : OrderedMap String WorkerRecord) (workerId : String)
    (item : DispatchItem) : Bool :=
  (givenText item.affinityKey).any (fun affinityKey =>
    activeWorkers.values.any (fun worker =>
      worker.workerId ≠ workerId && worker.affinityKeys.contains affinityKey))

/- The item is due and may go to the worker. -/
def mayClaim (activeWorkers : OrderedMap String WorkerRecord) (workerId : String)
    (pools : List WorkerPool) (now : JsNumber) (item : DispatchItem) : Bool :=
  pools.contains item.pool && !now.lt item.availableAt && !isHeld activeWorkers now item &&
    !defersToPreferred activeWorkers workerId item && !defersToAffinity activeWorkers workerId item

def DispatchItem.claimedBy (item : DispatchItem) (workerId : String)
    (expiresAt : JsNumber) : DispatchItem :=
  { item with
    deliveryCount := item.deliveryCount + 1, claimOwnerId := some workerId
    claimExpiresAt := some expiresAt }

/- The place of the item that a worker is handed. -/
def claimIndex (workers : List WorkerRecord) (items : List DispatchItem) (workerId : String)
    (pools : List WorkerPool) (now : JsNumber) : Option Nat :=
  match workers.find? (fun worker => worker.workerId = workerId) with
  | none => none
  | some worker =>
    if worker.state = .draining ∨ worker.inFlightRuns ≥ worker.maxConcurrentRuns then none
    else items.findIdx? (mayClaim (buildActiveWorkerMap workers now) workerId pools now)

/- What is handed out, and the queue with the claim. -/
def DispatchQueue.claim (queue : DispatchQueue) (workers : List WorkerRecord)
    (dispatchClaimDurationMs : JsNumber) (workerId : String) (pools : List WorkerPool)
    (now : JsNumber) : Option (DispatchItem × DispatchQueue) :=
  (claimIndex workers queue.items workerId pools now).bind
    (fun index => queue.items[index]?.map (fun item =>
      let claimed := item.claimedBy workerId (now.add dispatchClaimDurationMs)
      (claimed, { queue with updatedAt := now, items := queue.items.set index claimed })))

def DispatchStore.claimDispatchForWorker (store : DispatchStore)
    (dispatchClaimDurationMs : JsNumber) (workerId : String) (pools : List WorkerPool)
    (now clock : JsNumber) : Option DispatchItem × DispatchStore :=
  let (queue, store) := store.loadDispatchQueue clock
  match queue.claim store.workers dispatchClaimDurationMs workerId pools now with
  | none => (none, store)
  | some (claimed, next) => (some claimed, store.saveDispatchQueueAndBeacon next none)

/- Load the queue, change it, and save it if it changed. -/
def DispatchStore.update (store : DispatchStore) (change : DispatchQueue → Option DispatchQueue)
    (clock : JsNumber) : DispatchStore :=
  let (queue, store) := store.loadDispatchQueue clock
  match change queue with
  | none => store
  | some next => store.saveDispatchQueueAndBeacon next none

/- The queue without some items, if there were any. -/
def DispatchQueue.remove (queue : DispatchQueue) (removed : DispatchItem → Bool)
    (now : JsNumber) : Option DispatchQueue :=
  let items := queue.items.filter (fun item => !removed item)
  if items.length = queue.items.length then none
  else some { queue with updatedAt := now, items := items }

def DispatchStore.completeDispatch (store : DispatchStore) (dispatchId : DispatchId)
    (workerId : String) (now clock : JsNumber) : DispatchStore :=
  store.update
    (fun queue => queue.remove
      (fun item => item.id = dispatchId && item.claimOwnerId = some workerId) now) clock

def DispatchStore.pruneDispatchesForSession (store : DispatchStore) (sessionId : String)
    (excludeDispatchId : Option DispatchId) (now clock : JsNumber) : DispatchStore :=
  store.update
    (fun queue => queue.remove
      (fun item => item.sessionId = sessionId && !decide (some item.id = excludeDispatchId)) now)
    clock

/- The part of `deleteRun` that has the lock of the queue. -/
def DispatchStore.deleteRun (store : DispatchStore) (sessionId : String)
    (clock : JsNumber) : DispatchStore :=
  let (queue, store) := store.loadDispatchQueue clock
  match queue.remove (fun item => item.sessionId = sessionId) clock with
  | none => store
  | some next => { store with queue := readQueue next }

def DispatchItem.released (item : DispatchItem) (availableAt : JsNumber)
    (preferredWorkerId : Option String) : DispatchItem :=
  { item with
    availableAt := availableAt, preferredWorkerId := preferredWorkerId.or item.preferredWorkerId
    claimOwnerId := none, claimExpiresAt := none }

/- The queue after a release, unless somebody else claims. -/
def DispatchQueue.release (queue : DispatchQueue) (dispatchId : DispatchId) (workerId : String)
    (availableAt : Option JsNumber) (preferredWorkerId : Option String)
    (now : JsNumber) : Option DispatchQueue :=
  (queue.items.findIdx? (fun item =>
    item.id = dispatchId)).bind (fun index =>
      queue.items[index]?.bind (fun item =>
        if (givenText item.claimOwnerId).any (fun owner => owner ≠ workerId) then none
        else
          let released := item.released (availableAt.getD now) preferredWorkerId
          if released.maxDeliveryAttempts.le (.ofInt released.deliveryCount) then
            some
              { queue with
                updatedAt := now, items := queue.items.eraseIdx index
                deadLetters := queue.deadLetters ++ [⟨released, now, .attemptsExhausted⟩] }
          else
            some
              { queue with
                updatedAt := now
                items := sortBy compareDispatchItems (queue.items.set index released) }))

def DispatchStore.releaseDispatch (store : DispatchStore) (dispatchId : DispatchId)
    (workerId : String) (availableAt : Option JsNumber) (preferredWorkerId : Option String)
    (now clock : JsNumber) : DispatchStore :=
  store.update (fun queue => queue.release dispatchId workerId availableAt preferredWorkerId now)
    clock

def DispatchItem.hasExpiredClaim (now : JsNumber) (item : DispatchItem) : Bool :=
  (givenText item.claimOwnerId).isSome &&
    item.claimExpiresAt.any (fun expiresAt => expiresAt.le now)

/- The claim of an item that has run out is taken back. -/
def DispatchItem.dropExpiredClaim (now : JsNumber) (item : DispatchItem) : DispatchItem :=
  if item.hasExpiredClaim now then { item with claimOwnerId := none, claimExpiresAt := none }
  else item

def DispatchQueue.collect (queue : DispatchQueue) (dispatchDeadLetterRetentionMs now : JsNumber) :
    DispatchQueue :=
  { queue with
    updatedAt := now, items := queue.items.map (fun item => item.dropExpiredClaim now)
    deadLetters := queue.deadLetters.filter (fun letter =>
      now.lt (letter.failedAt.add dispatchDeadLetterRetentionMs)) }

/- The part of `garbageCollect` that has this lock. -/
def DispatchStore.collectDispatches (store : DispatchStore)
    (dispatchDeadLetterRetentionMs now clock : JsNumber) : DispatchStore :=
  store.update (fun queue => some (queue.collect dispatchDeadLetterRetentionMs now)) clock

def defaultWorkerHeartbeatTtlMs : Nat := 20000

/-
  Save the workers. Without a readable time the registry is damaged and read as an empty one, and a
  worker without a pool or a readable heartbeat is dropped.
-/
def DispatchStore.saveWorkers (store : DispatchStore) (workers : List WorkerRecord)
    (now : JsNumber) : DispatchStore :=
  { store with
    workers :=
      if now.isFinite then
        workers.filter (fun worker => worker.pools ≠ [] && worker.lastHeartbeatAt.isFinite)
      else [] }

structure HeartbeatParams where
  workerId : String
  pools : List WorkerPool
  maxConcurrentRuns : JsNumber
  state : Option WorkerState := none
  currentSessionIds : Option (List String) := none
  affinityKeys : Option (List String) := none
deriving DecidableEq

/- The worker with a new heartbeat comes last. -/
def DispatchStore.heartbeatWorker (store : DispatchStore) (workerHeartbeatTtlMs : JsNumber)
    (params : HeartbeatParams) (now : JsNumber) : DispatchStore :=
  let worker : WorkerRecord :=
    { workerId := params.workerId, pools := params.pools.eraseDups
      state := params.state.getD .active, lastHeartbeatAt := now
      heartbeatTtlMs := (readPositive workerHeartbeatTtlMs).getD defaultWorkerHeartbeatTtlMs
      maxConcurrentRuns := (readPositive params.maxConcurrentRuns).getD 1
      inFlightRuns := (params.currentSessionIds.map List.length).getD 0
      affinityKeys := (params.affinityKeys.map List.eraseDups).getD [] }
  store.saveWorkers
    (store.workers.filter (fun other => other.workerId ≠ params.workerId) ++ [worker]) now

def DispatchStore.setWorkerDrainState (store : DispatchStore) (workerId : String) (draining : Bool)
    (now : JsNumber) : DispatchStore :=
  match store.workers.find? (fun worker => worker.workerId = workerId) with
  | none => store
  | some existing =>
    let next : WorkerRecord :=
      { existing with state := if draining then .draining else .active, lastHeartbeatAt := now }
    store.saveWorkers (store.workers.map (fun worker => if worker.workerId = workerId then next
        else worker)) now

def DispatchStore.removeWorker (store : DispatchStore) (workerId : String)
    (clock : JsNumber) : DispatchStore :=
  store.saveWorkers (store.workers.filter (fun worker => worker.workerId ≠ workerId)) clock

/- The part of `garbageCollect` for the workers. -/
def DispatchStore.collectWorkers (store : DispatchStore) (now : JsNumber) : DispatchStore :=
  store.saveWorkers
    (store.workers.filter (fun worker =>
      now.lt (worker.lastHeartbeatAt.add (.ofInt worker.heartbeatTtlMs)))) now

structure DispatchConfig where
  dispatchClaimDurationMs : JsNumber := 45000
  workerHeartbeatTtlMs : JsNumber := 20000

/-
  The operations on the dispatch queue and on the workers, each with what the clock shows when it is
  carried out.
-/
inductive DispatchOp where
  | enqueue (params : EnqueueDispatchParams) (clock : JsNumber)
  | claim (workerId : String) (pools : List WorkerPool) (now clock : JsNumber)
  | complete (dispatchId : DispatchId) (workerId : String) (now clock : JsNumber)
  | release (dispatchId : DispatchId) (workerId : String) (availableAt : Option JsNumber)
      (preferredWorkerId : Option String) (now clock : JsNumber)
  | prune (sessionId : String) (excludeDispatchId : Option DispatchId) (now clock : JsNumber)
  | deleteRun (sessionId : String) (clock : JsNumber)
  | collect (dispatchDeadLetterRetentionMs now clock : JsNumber)
  | collectWorkers (now : JsNumber)
  | heartbeat (params : HeartbeatParams) (now : JsNumber)
  | drain (workerId : String) (draining : Bool) (now : JsNumber)
  | removeWorker (workerId : String) (clock : JsNumber)
  | loadQueue (clock : JsNumber)
  | loadBeacon (clock : JsNumber)
deriving DecidableEq

def DispatchStore.step (config : DispatchConfig) (store : DispatchStore) :
    DispatchOp → DispatchStore
| .enqueue params clock => (store.enqueueDispatch params clock).2
| .claim workerId pools now clock =>
  (store.claimDispatchForWorker config.dispatchClaimDurationMs workerId pools now clock).2
| .complete dispatchId workerId now clock => store.completeDispatch dispatchId workerId now clock
| .release dispatchId workerId availableAt preferred now clock =>
  store.releaseDispatch dispatchId workerId availableAt preferred now clock
| .prune sessionId excludeDispatchId now clock =>
  store.pruneDispatchesForSession sessionId excludeDispatchId now clock
| .deleteRun sessionId clock => store.deleteRun sessionId clock
| .collect retention now clock => store.collectDispatches retention now clock
| .collectWorkers now => store.collectWorkers now
| .heartbeat params now => store.heartbeatWorker config.workerHeartbeatTtlMs params now
| .drain workerId draining now => store.setWorkerDrainState workerId draining now
| .removeWorker workerId clock => store.removeWorker workerId clock
| .loadQueue clock => (store.loadDispatchQueue clock).2
| .loadBeacon clock => store.loadDispatchBeacon clock

end AgencCore.Gateway
