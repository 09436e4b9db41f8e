import AgencCore.Gateway.Dispatch

/-
  Who is handed a dispatch item.

  A worker leaves an item to the worker the item prefers, or to one that has its affinity, as long
  as that one is alive. The other worker need not have room for the item or be registered for its
  pool, and it may leave the item to somebody else in turn.
-/

namespace AgencCore.Gateway

open Foundations Option

section

variable {workers : List WorkerRecord}
variable {now : JsNumber}

theorem mem_of_activeWorker {workerId : String} {worker : WorkerRecord}
    (hGet : (buildActiveWorkerMap workers now).get? workerId = some worker) :
    worker ∈ workers ∧ isLive now worker = true ∧ worker.workerId = workerId := by
  have hMem := OrderedMap.mem_of_get?_ofList hGet
  rcases List.mem_map.mp hMem with ⟨entry, hEntry, hPair⟩
  cases hPair
  exact ⟨List.mem_of_mem_filter hEntry, List.of_mem_filter hEntry, rfl⟩

variable (workers : List WorkerRecord)

/- A worker is among the active ones if a record of it is. -/
theorem activeWorker_any_iff (now : JsNumber) (workerId : String) :
    ((buildActiveWorkerMap workers now).get? workerId).any
        (fun worker => decide (worker.state = .active)) = true ↔
      ∃ worker ∈ workers, isLive now worker = true ∧ worker.workerId = workerId := by
  constructor
  · intro hAny
    rw [any_eq_true] at hAny
    rcases hAny with ⟨worker, hGet, _⟩
    exact ⟨worker, mem_of_activeWorker hGet⟩
  · rintro ⟨worker, hMem, hLive, hId⟩
    have hKey : workerId ∈ (buildActiveWorkerMap workers now).keys := by
      refine (OrderedMap.mem_keys_ofList _ _).mpr ?_
      rw [List.map_map]
      exact List.mem_map.mpr ⟨worker, List.mem_filter.mpr ⟨hMem, hLive⟩, hId⟩
    rcases isSome_iff_exists.mp ((OrderedMap.mem_keys_iff _ _).mp hKey) with ⟨found, hGet⟩
    have hFound := (mem_of_activeWorker hGet).2.1
    rw [hGet, any_some]
    simp only [isLive, Bool.and_eq_true] at hFound
    exact hFound.1

/- A live worker of the pool that has room for a run. -/
def hasRoom (now : JsNumber) (pool : WorkerPool) (worker : WorkerRecord) : Bool :=
  isLive now worker && worker.pools.contains pool &&
    decide (worker.inFlightRuns < worker.maxConcurrentRuns)

def underLiveClaim (workers : List WorkerRecord) (now : JsNumber) (item : DispatchItem) : Bool :=
  item.claimOwnerId.any (fun owner =>
    item.claimExpiresAt.any (fun expiresAt =>
      now.lt expiresAt && workers.any (fun worker => isLive now worker && worker.workerId = owner)))

/- The item is due and free, and somebody has room for it. -/
def Claimable (workers : List WorkerRecord) (now : JsNumber) (item : DispatchItem) : Prop :=
  item.availableAt.le now = true ∧ underLiveClaim workers now item = false ∧
    ∃ worker ∈ workers, hasRoom now item.pool worker = true

/- The store whose queue holds nothing but the item. -/
def DispatchStore.holding (store : DispatchStore) (queue : DispatchQueue)
    (item : DispatchItem) : DispatchStore :=
  { store with queue := .valid { queue with items := [item] } }

/- The worker asks for a dispatch and is handed the item. -/
def isHandedTo (store : DispatchStore) (queue : DispatchQueue)
    (dispatchClaimDurationMs now clock : JsNumber) (item : DispatchItem)
    (worker : WorkerRecord) : Bool :=
  ((store.holding queue item).claimDispatchForWorker
    dispatchClaimDurationMs worker.workerId worker.pools now
    clock).1.any (fun claimed => claimed.id = item.id)

/- A claimable item is handed to some worker with room. -/
def NeverStuck (store : DispatchStore) (queue : DispatchQueue)
    (dispatchClaimDurationMs now clock : JsNumber) (item : DispatchItem) : Prop :=
  Claimable store.workers now item →
    ∃ worker ∈ store.workers, hasRoom now item.pool worker = true ∧
        isHandedTo store queue dispatchClaimDurationMs now clock item worker = true

/-
  The worker has room, also in the record that is looked up for it, and there is nobody it would
  leave the item to: if the preferred worker is alive, it is this one, and no other active worker
  has the affinity of the item.
-/
structure TakesItem (workers : List WorkerRecord) (now : JsNumber) (item : DispatchItem)
    (worker : WorkerRecord) : Prop where
  room : hasRoom now item.pool worker = true
  registered : ∃ found, workers.find? (fun other => other.workerId = worker.workerId) = some found ∧
      found.state = .active ∧ found.inFlightRuns < found.maxConcurrentRuns
  preferred : ∀ other ∈ workers, isLive now other = true →
      givenText item.preferredWorkerId = some other.workerId → other.workerId = worker.workerId
  affinity : ∀ key, givenText item.affinityKey = some key →
      ∀ other ∈ (buildActiveWorkerMap workers now).values,
        key ∈ other.affinityKeys → other.workerId = worker.workerId

variable {workers : List WorkerRecord}
variable {item : DispatchItem}

theorem isHeld_eq_false (hFree : underLiveClaim workers now item = false) :
    isHeld (buildActiveWorkerMap workers now) now item = false := by
  unfold isHeld
  split
  · rename_i owner expiresAt hOwner hExpires
    rw [← Bool.not_eq_true, Bool.and_eq_true, activeWorker_any_iff]
    rintro ⟨hLater, worker, hMem, hLive, hId⟩
    unfold underLiveClaim at hFree
    rw [eq_of_givenText hOwner, eq_of_givenNumber hExpires,
      any_some, any_some, hLater, Bool.true_and, List.any_eq_false] at hFree
    exact hFree worker hMem (by simp [hLive, hId])
  · rfl

theorem defersToPreferred_eq_false_iff (now : JsNumber)
    (item : DispatchItem) (workerId : String) :
    defersToPreferred (buildActiveWorkerMap workers now) workerId item = false ↔
      ∀ other ∈ workers, isLive now other = true →
        givenText item.preferredWorkerId = some other.workerId → other.workerId = workerId := by
  unfold defersToPreferred
  rw [← Bool.not_eq_true, any_eq_true]
  constructor
  · intro hNone other hMem hLive hPreferred
    by_contra hNe
    refine hNone ⟨other.workerId, hPreferred, ?_⟩
    rw [Bool.and_eq_true, activeWorker_any_iff]
    exact ⟨by simpa using hNe, other, hMem, hLive, rfl⟩
  · rintro hAll ⟨preferred, hPreferred, hDefers⟩
    rw [Bool.and_eq_true, activeWorker_any_iff] at hDefers
    rcases hDefers with ⟨hNe, other, hMem, hLive, hId⟩
    have hSame := hAll other hMem hLive (hId ▸ hPreferred)
    rw [hId] at hSame
    simp [hSame] at hNe

theorem defersToAffinity_eq_false_iff (now : JsNumber)
    (item : DispatchItem) (workerId : String) :
    defersToAffinity (buildActiveWorkerMap workers now) workerId item = false ↔
      ∀ key, givenText item.affinityKey = some key →
        ∀ other ∈ (buildActiveWorkerMap workers now).values,
          key ∈ other.affinityKeys → other.workerId = workerId := by
  unfold defersToAffinity
  rw [← Bool.not_eq_true, any_eq_true]
  constructor
  · intro hNone key hKey other hMem hHas
    by_contra hNe
    refine hNone ⟨key, hKey, List.any_eq_true.mpr ⟨other, hMem, ?_⟩⟩
    simpa [hNe] using hHas
  · rintro hAll ⟨key, hKey, hAny⟩
    rcases List.any_eq_true.mp hAny with ⟨other, hMem, hOther⟩
    rw [Bool.and_eq_true] at hOther
    have hSame := hAll key hKey other hMem (List.contains_iff_mem.mp hOther.2)
    simp [hSame] at hOther

----------
-- Handed Items
----------

variable (store : DispatchStore)
variable (queue : DispatchQueue)
variable (dispatchClaimDurationMs now clock : JsNumber)
variable (item : DispatchItem)
variable (worker : WorkerRecord)

/- From a queue of one item, only that item is handed out. -/
theorem isHandedTo_eq (worker : WorkerRecord) :
    isHandedTo store queue dispatchClaimDurationMs now clock item worker =
      (claimIndex store.workers [item] worker.workerId worker.pools now).isSome := by
  have hLoad : (store.holding queue item).loadDispatchQueue clock =
        ({ queue with items := [item] }, store.holding queue item) := rfl
  have hWorkers : (store.holding queue item).workers = store.workers := rfl
  unfold isHandedTo DispatchStore.claimDispatchForWorker
  rw [hLoad]
  dsimp only
  rw [hWorkers, DispatchQueue.claim]
  cases hIndex : claimIndex store.workers [item] worker.workerId worker.pools now with
  | none => rfl
  | some index =>
    have hZero : index = 0 := by
      have hBound : index < [item].length := by
        unfold claimIndex at hIndex
        split at hIndex
        · cases hIndex
        · split at hIndex
          · cases hIndex
          · rw [List.findIdx?_eq_some_iff_getElem] at hIndex
            exact hIndex.1
      simpa using hBound
    subst hZero
    simp [DispatchItem.claimedBy]

theorem claimIndex_isSome_iff (workers : List WorkerRecord) (worker : WorkerRecord) :
    (claimIndex workers [item] worker.workerId worker.pools now).isSome = true ↔
      (∃ found, workers.find? (fun other => other.workerId = worker.workerId) = some found ∧
          found.state = .active ∧ found.inFlightRuns < found.maxConcurrentRuns) ∧
        mayClaim (buildActiveWorkerMap workers now)
          worker.workerId worker.pools now item = true := by
  unfold claimIndex
  cases hFind : workers.find? (fun other => decide (other.workerId = worker.workerId)) with
  | none => simp
  | some found =>
    have hState : found.state = .draining ↔ found.state ≠ .active := by cases found.state <;> simp
    by_cases hFit : found.state = .active ∧ found.inFlightRuns < found.maxConcurrentRuns
    · have hNot : ¬ (found.state = .draining ∨ found.inFlightRuns ≥ found.maxConcurrentRuns) := by
        rw [hState]
        rintro (hBusy | hFull)
        · exact hBusy hFit.1
        · omega
      simp only [if_neg hNot]
      simp [hFit.1, hFit.2]
    · have hOr : found.state = .draining ∨ found.inFlightRuns ≥ found.maxConcurrentRuns := by
        rw [hState]
        by_contra hNone
        push Not at hNone
        exact hFit hNone
      simp only [if_pos hOr]
      simp only [isSome_none, Bool.false_eq_true, false_iff, not_and]
      rintro ⟨other, hSame, hOther⟩
      cases hSame
      exact absurd hOther hFit

variable {store now item} in
theorem isHandedTo_iff_takesItem (hItem : Claimable store.workers now item)
    (hRoom : hasRoom now item.pool worker = true) :
    isHandedTo store queue dispatchClaimDurationMs now clock item worker = true ↔
      TakesItem store.workers now item worker := by
  have hPool : worker.pools.contains item.pool = true := by
    simp only [hasRoom, Bool.and_eq_true] at hRoom
    exact hRoom.1.2
  have hDue : now.lt item.availableAt = false := ((JsNumber.le_eq_true_iff _ _).mp hItem.1).2.2
  have hFree := isHeld_eq_false hItem.2.1
  rw [isHandedTo_eq, claimIndex_isSome_iff]
  unfold mayClaim
  rw [hPool, hDue, hFree]
  simp only [Bool.not_false, Bool.true_and, Bool.and_eq_true,
    Bool.not_eq_true', defersToPreferred_eq_false_iff, defersToAffinity_eq_false_iff]
  constructor
  · rintro ⟨hFound, hPreferred, hAffinity⟩
    exact ⟨hRoom, hFound, hPreferred, hAffinity⟩
  · intro hTakes
    exact ⟨hTakes.registered, hTakes.preferred, hTakes.affinity⟩

/-
  A claimable item is not stuck exactly if some worker takes it: one with room that would not leave
  it to another.
-/
theorem never_stuck_iff : NeverStuck store queue dispatchClaimDurationMs now clock item ↔
      (Claimable store.workers now item →
        ∃ worker ∈ store.workers, TakesItem store.workers now item worker) := by
  refine forall_congr' ?_
  intro hItem
  constructor
  · rintro ⟨worker, hMem, hRoom, hHanded⟩
    exact ⟨worker, hMem,
      (isHandedTo_iff_takesItem queue dispatchClaimDurationMs clock worker hItem hRoom).mp hHanded⟩
  · rintro ⟨worker, hMem, hTakes⟩
    exact ⟨worker, hMem, hTakes.room,
      (isHandedTo_iff_takesItem queue dispatchClaimDurationMs clock worker hItem
        hTakes.room).mpr hTakes⟩

/- An item without wishes, made at time zero. -/
def DispatchItem.plain (sessionId : String) : DispatchItem :=
  { id := ⟨0, 0⟩, sessionId := sessionId, pool := .generic, reason := .start, priority := 0
    enqueuedAt := 0, availableAt := 0, sequence := 0, deliveryCount := 0
    maxDeliveryAttempts := defaultMaxDeliveryAttempts, dedupeKey := none, preferredWorkerId := none
    affinityKey := none, claimOwnerId := none, claimExpiresAt := none }

/- An idle worker that was heard of at time zero. -/
def WorkerRecord.idle (workerId : String) (affinityKeys : List String) : WorkerRecord :=
  { workerId := workerId, pools := [.generic], state := .active, lastHeartbeatAt := 0
    heartbeatTtlMs := defaultWorkerHeartbeatTtlMs, maxConcurrentRuns := 1, inFlightRuns := 0
    affinityKeys := affinityKeys }

/- Two idle workers leave an item to each other. -/
theorem shared_affinity_stuck :
    ¬ NeverStuck { DispatchStore.empty with workers := [.idle "a" ["repo"], .idle "b" ["repo"]] }
      (buildDefaultDispatchQueue 0) 45000 1 1
      { DispatchItem.plain "s" with affinityKey := some "repo" } := by
  unfold NeverStuck Claimable
  decide +kernel

end

end AgencCore.Gateway
