import AgencCore.Gateway.Dispatch

/-
  What the operations do to the dispatch queue.

  An operation changes the queue it has loaded, or leaves it alone. If the times it is given are
  finite, the queue that it saves is in order and nothing of it is lost when it is read back.
-/

namespace AgencCore.Gateway

open Foundations List DispatchQueue Option

def DispatchItem.isReadable (item : DispatchItem) : Bool :=
  item.priority.isFinite && item.enqueuedAt.isFinite && item.availableAt.isFinite

variable (item : DispatchItem)

theorem DispatchItem.isReadable_iff : item.isReadable = true ↔
      item.priority.isFinite = true ∧ item.enqueuedAt.isFinite = true ∧
        item.availableAt.isFinite = true := by
  unfold isReadable
  simp only [Bool.and_eq_true, and_assoc]

/- What decides the place of an item in the queue. -/
def DispatchItem.sortKey (item : DispatchItem) : ℚ × Nat × ℚ × Nat :=
  (numberValue item.availableAt, dispatchPriority item.reason, numberValue item.priority,
    item.sequence)

def keyOrder : ℚ × Nat × ℚ × Nat → ℚ × Nat × ℚ × Nat → Ordering :=
  compareLex (compareOn (fun key => key.1))
    (compareLex (compareOn (fun key => key.2.1))
      (compareLex (compareOn (fun key => key.2.2.1)) (compareOn (fun key => key.2.2.2))))

instance : Std.TransCmp keyOrder := by
  unfold keyOrder
  infer_instance

/- Items are ordered by their keys. -/
def itemOrder (left right : DispatchItem) : Ordering := keyOrder left.sortKey right.sortKey

instance : Std.TransCmp itemOrder where
  eq_swap := by
    intro left right
    unfold itemOrder
    exact Std.OrientedCmp.eq_swap
  isLE_trans := by
    intro left middle right hFirst hSecond
    unfold itemOrder at hFirst hSecond ⊢
    exact Std.TransCmp.isLE_trans hFirst hSecond

theorem compareDispatchItems_eq {left right : DispatchItem} (hLeft : left.isReadable = true)
    (hRight : right.isReadable = true) :
    compareDispatchItems left right = itemOrder left right := by
  rcases left.isReadable_iff.mp hLeft with ⟨hPl, _, hAl⟩
  rcases right.isReadable_iff.mp hRight with ⟨hPr, _, hAr⟩
  unfold compareDispatchItems
  rw [compareNumbers_eq hAl hAr, compareNumbers_eq hPl hPr]
  rfl

def SortedItems (items : List DispatchItem) : Prop :=
  (items.map DispatchItem.sortKey).Pairwise (fun left right => (keyOrder left right).isLE = true)

theorem sortedItems_iff (items : List DispatchItem) :
    SortedItems items ↔ items.Pairwise (fun left right => (itemOrder left right).isLE = true) :=
  pairwise_map

variable {items : List DispatchItem}

theorem SortedItems.sublist {items' : List DispatchItem} (hSorted : SortedItems items)
    (hSub : items'.Sublist items) : SortedItems items' := List.Pairwise.sublist (hSub.map _) hSorted

theorem SortedItems.of_keys {items' : List DispatchItem} (hSorted : SortedItems items)
    (hKeys : items'.map DispatchItem.sortKey = items.map DispatchItem.sortKey) :
    SortedItems items' := by
  unfold SortedItems
  rw [hKeys]
  exact hSorted

theorem sortBy_compareDispatchItems
    (hReadable : ∀ item ∈ items, item.isReadable = true) :
    sortBy compareDispatchItems items = sortBy itemOrder items := by
  refine sortBy_congr ?_
  intro left hLeft right hRight
  exact compareDispatchItems_eq (hReadable left hLeft) (hReadable right hRight)

theorem sortedItems_sortBy
    (hReadable : ∀ item ∈ items, item.isReadable = true) :
    SortedItems (sortBy compareDispatchItems items) := by
  rw [sortBy_compareDispatchItems hReadable, sortedItems_iff]
  exact pairwise_sortBy itemOrder items

variable {item : DispatchItem}

/- The first item of a sorted queue is due first. -/
theorem SortedItems.head_le {head : DispatchItem} {rest : List DispatchItem}
    (hSorted : SortedItems (head :: rest))
    (hReadable : ∀ item ∈ head :: rest, item.isReadable = true)
    (hMem : item ∈ head :: rest) : head.availableAt.le item.availableAt = true := by
  have hLe : numberValue head.availableAt ≤ numberValue item.availableAt := by
    rcases List.mem_cons.mp hMem with hHead | hRest
    · rw [hHead]
    · have hOrder : (itemOrder head item).isLE = true :=
        rel_of_pairwise_cons ((sortedItems_iff _).mp hSorted) hRest
      by_contra hGt
      have hCompare : compare (numberValue head.availableAt) (numberValue item.availableAt) = .gt :=
        compare_gt_iff_gt.mpr (not_le.mp hGt)
      simp [itemOrder, keyOrder, DispatchItem.sortKey, compareLex, compareOn, hCompare] at hOrder
  have hFinite (item : DispatchItem) (hMem : item ∈ head :: rest) :
      item.availableAt = .finite (numberValue item.availableAt) := by
    have hTime := (item.isReadable_iff.mp (hReadable item hMem)).2.2
    cases hAt : item.availableAt with
    | finite q => rfl
    | nan | posInf | negInf => rw [hAt] at hTime; cases hTime
  rw [hFinite head mem_cons_self, hFinite item hMem, JsNumber.le_finite]
  exact decide_eq_true hLe

def DispatchItem.readBack (item : DispatchItem) : DispatchItem :=
  { item with
    maxDeliveryAttempts := readAttempts item.maxDeliveryAttempts
    claimExpiresAt := item.claimExpiresAt.filter JsNumber.isFinite }

def DispatchDeadLetter.readBack (letter : DispatchDeadLetter) : DispatchDeadLetter :=
  { letter with item := letter.item.readBack }

def DispatchQueue.readBack (queue : DispatchQueue) : DispatchQueue :=
  { queue with
    items := queue.items.map DispatchItem.readBack
    deadLetters := queue.deadLetters.map DispatchDeadLetter.readBack }

/- Nothing of the queue is lost, and it is in order. -/
structure DispatchQueue.WellMade (queue : DispatchQueue) : Prop where
  items : ∀ item ∈ queue.items, item.isReadable = true
  letters : ∀ letter ∈ queue.deadLetters,
    letter.failedAt.isFinite = true ∧ letter.item.isReadable = true
  sorted : SortedItems queue.items

theorem readItem_eq (hReadable : item.isReadable = true) :
    readItem item = some item.readBack := if_pos hReadable

theorem readDeadLetter_eq {letter : DispatchDeadLetter} (hFailed : letter.failedAt.isFinite = true)
    (hReadable : letter.item.isReadable = true) : readDeadLetter letter = some letter.readBack := by
  unfold readDeadLetter
  rw [if_pos hFailed, readItem_eq hReadable]
  rfl

theorem map_sortKey_readBack (items : List DispatchItem) :
    (items.map DispatchItem.readBack).map DispatchItem.sortKey =
      items.map DispatchItem.sortKey := by
  rw [List.map_map]
  rfl

variable {queue : DispatchQueue}

theorem DispatchQueue.WellMade.readBack (hMade : queue.WellMade) : queue.readBack.WellMade where
  items := forall_mem_map.mpr hMade.items
  letters := forall_mem_map.mpr hMade.letters
  sorted := hMade.sorted.of_keys (map_sortKey_readBack queue.items)

/- A queue that is well made is read back as it was. -/
theorem readQueue_eq (hUpdated : queue.updatedAt.isFinite = true)
    (hMade : queue.WellMade) : readQueue queue = .valid queue.readBack := by
  have hItems : queue.items.filterMap readItem = queue.items.map DispatchItem.readBack :=
    filterMap_of_forall_some (fun item hMem => readItem_eq (hMade.items item hMem))
  have hLetters : queue.deadLetters.filterMap readDeadLetter =
        queue.deadLetters.map DispatchDeadLetter.readBack :=
    filterMap_of_forall_some (fun letter hMem =>
      readDeadLetter_eq (hMade.letters letter hMem).1 (hMade.letters letter hMem).2)
  have hSorted : sortBy compareDispatchItems (queue.items.map DispatchItem.readBack) =
        queue.items.map DispatchItem.readBack := by
    have hOrder := sortBy_compareDispatchItems hMade.readBack.items
    exact hOrder.trans (sortBy_eq_self ((sortedItems_iff _).mp hMade.readBack.sorted))
  unfold readQueue
  rw [if_pos hUpdated, hItems, hLetters, hSorted]
  rfl

----------
-- Changes Of The Queue
----------

/- How an item is found by its dedupe key. -/
def DispatchQueue.existingIndex (queue : DispatchQueue)
    (params : EnqueueDispatchParams) : Option Nat :=
  params.dedupeKey.bind (fun key => queue.items.findIdx? (fun item => item.dedupeKey = some key))

/- The items of the queue with the new one among them. -/
def DispatchQueue.placed (queue : DispatchQueue) (params : EnqueueDispatchParams)
    (item : DispatchItem) : List DispatchItem :=
  match queue.existingIndex params with
  | some index => queue.items.set index item
  | none => queue.items ++ [item]

theorem DispatchQueue.enqueue_eq (queue : DispatchQueue) (params : EnqueueDispatchParams)
    (createdAt : JsNumber) :
    ∃ item : DispatchItem, item = params.toItem createdAt queue.nextSequence
        ((queue.existingIndex params).bind (fun index => queue.items[index]?)) ∧
      queue.enqueue params createdAt =
        (item,
          { nextSequence := if (queue.existingIndex params).isSome then queue.nextSequence
              else queue.nextSequence + 1, updatedAt := createdAt
            items := (sortBy compareDispatchItems
              (queue.placed params item)).take dispatchQueueMaxItems
            deadLetters := queue.deadLetters ++
              ((sortBy compareDispatchItems
                (queue.placed params item)).drop dispatchQueueMaxItems).reverse.map
                (fun item => ⟨item, createdAt, .queueOverflow⟩) }) := ⟨_, rfl, rfl⟩

variable {params : EnqueueDispatchParams}

theorem forall_readable_set (hItems : ∀ item ∈ items, item.isReadable = true)
    (hNew : item.isReadable = true) (index : Nat) :
    ∀ other ∈ items.set index item, other.isReadable = true := by
  intro other hMem
  rcases mem_or_eq_of_mem_set hMem with hOld | rfl
  · exact hItems other hOld
  · exact hNew

variable {createdAt : JsNumber}

theorem toItem_isReadable
    (nextSequence : Nat) {existing : Option DispatchItem} (hCreated : createdAt.isFinite = true)
    (hAvailable : (params.availableAt.getD createdAt).isFinite = true)
    (hPriority : (params.priority.getD 0).isFinite = true)
    (hExisting : ∀ item, existing = some item → item.isReadable = true) :
    (params.toItem createdAt nextSequence existing).isReadable = true := by
  rw [DispatchItem.isReadable_iff]
  refine ⟨hPriority, ?_, hAvailable⟩
  cases existing with
  | none => exact hCreated
  | some item => exact (item.isReadable_iff.mp (hExisting item rfl)).2.1

theorem DispatchQueue.WellMade.enqueue (hMade : queue.WellMade)
    (hCreated : createdAt.isFinite = true)
    (hAvailable : (params.availableAt.getD createdAt).isFinite = true)
    (hPriority : (params.priority.getD 0).isFinite = true) :
    (queue.enqueue params createdAt).2.WellMade := by
  rcases queue.enqueue_eq params createdAt with ⟨item, hItem, hEnqueue⟩
  have hNew : item.isReadable = true := by
    rw [hItem]
    refine toItem_isReadable _ hCreated hAvailable hPriority ?_
    intro old hOld
    rcases bind_eq_some_iff.mp hOld with ⟨index, _, hGet⟩
    exact hMade.items old (mem_of_getElem? hGet)
  have hPlaced : ∀ other ∈ queue.placed params item, other.isReadable = true := by
    unfold placed
    split
    · exact forall_readable_set hMade.items hNew _
    · exact forall_mem_append.mpr ⟨hMade.items, forall_mem_singleton.mpr hNew⟩
  have hSorted := sortedItems_sortBy hPlaced
  rw [hEnqueue]
  refine ⟨?_, ?_, hSorted.sublist (take_sublist _ _)⟩
  · intro other hMem
    exact hPlaced other ((mem_sortBy _ _ _).mp (mem_of_mem_take hMem))
  · refine forall_mem_append.mpr ⟨hMade.letters, forall_mem_map.mpr ?_⟩
    intro other hOther
    exact ⟨hCreated, hPlaced other
      ((mem_sortBy _ _ _).mp (mem_of_mem_drop (List.mem_reverse.mp hOther)))⟩

variable {workers : List WorkerRecord}
variable {dispatchClaimDurationMs now : JsNumber}
variable {workerId : String}
variable {pools : List WorkerPool}
variable {claimed : DispatchItem}
variable {next : DispatchQueue}

theorem DispatchQueue.claim_eq_some (hClaim :
      queue.claim workers dispatchClaimDurationMs workerId pools now = some (claimed, next)) :
    ∃ index item, claimIndex workers queue.items workerId pools now = some index ∧
        queue.items[index]? = some item ∧
        claimed = item.claimedBy workerId (now.add dispatchClaimDurationMs) ∧
        next = { queue with updatedAt := now, items := queue.items.set index claimed } := by
  rcases bind_eq_some_iff.mp hClaim with ⟨index, hIndex, hMap⟩
  rcases map_eq_some_iff.mp hMap with ⟨item, hItem, hPair⟩
  cases hPair
  exact ⟨index, item, hIndex, hItem, rfl, rfl⟩

theorem DispatchQueue.WellMade.claim (hMade : queue.WellMade)
    (hClaim :
      queue.claim workers dispatchClaimDurationMs workerId pools now = some (claimed, next)) :
    next.WellMade := by
  rcases claim_eq_some hClaim with ⟨index, item, _, hItem, hClaimed, hNext⟩
  have hRead : claimed.isReadable = true := by
    rw [hClaimed]
    exact hMade.items item (mem_of_getElem? hItem)
  rw [hNext]
  exact ⟨forall_readable_set hMade.items hRead _, hMade.letters,
    hMade.sorted.of_keys (map_set_of_eq hItem (by rw [hClaimed]; rfl))⟩

variable {removed : DispatchItem → Bool}

theorem DispatchQueue.remove_eq_some (hRemove : queue.remove removed now = some next) :
    (∃ item ∈ queue.items, removed item = true) ∧
      next =
        { queue with
          updatedAt := now, items := queue.items.filter (fun item => !removed item) } := by
  unfold remove at hRemove
  dsimp only at hRemove
  split at hRemove
  · cases hRemove
  · rename_i hLength
    refine ⟨?_, (Option.some.inj hRemove).symm⟩
    by_contra hNone
    push Not at hNone
    refine hLength (congrArg List.length (List.filter_eq_self.mpr ?_))
    intro item hMem
    simpa using hNone item hMem

theorem DispatchQueue.WellMade.remove (hMade : queue.WellMade)
    (hRemove : queue.remove removed now = some next) : next.WellMade := by
  rw [(remove_eq_some hRemove).2]
  exact ⟨fun item hMem => hMade.items item (mem_of_mem_filter hMem), hMade.letters,
    hMade.sorted.sublist filter_sublist⟩

variable {dispatchId : DispatchId}
variable {availableAt : Option JsNumber}
variable {preferredWorkerId : Option String}

/- A release buries the item or puts it back. -/
theorem DispatchQueue.release_eq_some
    (hRelease : queue.release dispatchId workerId availableAt preferredWorkerId now = some next) :
    ∃ index item released, queue.items[index]? = some item ∧
        released = item.released (availableAt.getD now) preferredWorkerId ∧
        ((item.maxDeliveryAttempts.le (.ofInt item.deliveryCount) = true ∧
            next =
              { queue with
                updatedAt := now, items := queue.items.eraseIdx index
                deadLetters := queue.deadLetters ++ [⟨released, now, .attemptsExhausted⟩] }) ∨
          (item.maxDeliveryAttempts.le (.ofInt item.deliveryCount) = false ∧
            next =
              { queue with
                updatedAt := now
                items := sortBy compareDispatchItems (queue.items.set index released) })) := by
  rcases bind_eq_some_iff.mp hRelease with ⟨index, _, hBind⟩
  rcases bind_eq_some_iff.mp hBind with ⟨item, hItem, hIf⟩
  split at hIf
  · cases hIf
  · refine ⟨index, item, _, hItem, rfl, ?_⟩
    dsimp only at hIf
    split at hIf
    · rename_i hLimit
      exact Or.inl ⟨hLimit, (Option.some.inj hIf).symm⟩
    · rename_i hLimit
      exact Or.inr ⟨Bool.eq_false_iff.mpr hLimit, (Option.some.inj hIf).symm⟩

theorem DispatchQueue.WellMade.release (hMade : queue.WellMade)
    (hNow : now.isFinite = true)
    (hAvailable : (availableAt.getD now).isFinite = true)
    (hRelease : queue.release dispatchId workerId availableAt preferredWorkerId now = some next) :
    next.WellMade := by
  rcases release_eq_some hRelease with
    ⟨index, item, released, hItem, hReleased, hCases⟩
  have hOld := item.isReadable_iff.mp (hMade.items item (mem_of_getElem? hItem))
  have hRead : released.isReadable = true := by
    rw [hReleased, DispatchItem.isReadable_iff]
    exact ⟨hOld.1, hOld.2.1, hAvailable⟩
  have hSet := forall_readable_set hMade.items hRead index
  rcases hCases with ⟨_, hNext⟩ | ⟨_, hNext⟩
  · rw [hNext]
    exact ⟨fun other hMem => hMade.items other (mem_of_mem_eraseIdx hMem),
      forall_mem_append.mpr ⟨hMade.letters, forall_mem_singleton.mpr ⟨hNow, hRead⟩⟩,
      hMade.sorted.sublist (eraseIdx_sublist _ _)⟩
  · rw [hNext]
    exact ⟨fun other hMem => hSet other ((mem_sortBy _ _ _).mp hMem), hMade.letters,
      sortedItems_sortBy hSet⟩

@[simp] theorem DispatchItem.isReadable_dropExpiredClaim (now : JsNumber) :
    (item.dropExpiredClaim now).isReadable = item.isReadable := by
  unfold dropExpiredClaim
  split <;> rfl

@[simp] theorem DispatchItem.sortKey_dropExpiredClaim (now : JsNumber) :
    (item.dropExpiredClaim now).sortKey = item.sortKey := by
  unfold dropExpiredClaim
  split <;> rfl

theorem DispatchQueue.WellMade.collect (hMade : queue.WellMade)
    (retention now : JsNumber) : (queue.collect retention now).WellMade := by
  refine ⟨forall_mem_map.mpr (fun item hMem => ?_),
    fun letter hMem => hMade.letters letter (mem_of_mem_filter hMem), hMade.sorted.of_keys ?_⟩
  · rw [DispatchItem.isReadable_dropExpiredClaim]
    exact hMade.items item hMem
  · rw [DispatchQueue.collect, List.map_map]
    exact map_congr_left (fun item _ => item.sortKey_dropExpiredClaim now)

----------
-- Steps
----------

/- What the clock shows to the operation. -/
def DispatchOp.clock : DispatchOp → JsNumber
| .enqueue _ clock => clock
| .claim _ _ _ clock => clock
| .complete _ _ _ clock => clock
| .release _ _ _ _ _ clock => clock
| .prune _ _ _ clock => clock
| .deleteRun _ clock => clock
| .collect _ _ clock => clock
| .collectWorkers now => now
| .heartbeat _ now => now
| .drain _ _ now => now
| .removeWorker _ clock => clock
| .loadQueue clock => clock
| .loadBeacon clock => clock

/- The queue that the operation saves, if it saves one. -/
def DispatchOp.change (config : DispatchConfig) (workers : List WorkerRecord)
    (queue : DispatchQueue) : DispatchOp → Option DispatchQueue
| .enqueue params clock => some (queue.enqueue params (params.createdAt.getD clock)).2
| .claim workerId pools now _ =>
  (queue.claim workers config.dispatchClaimDurationMs workerId pools now).map Prod.snd
| .complete dispatchId workerId now _ =>
  queue.remove (fun item => item.id = dispatchId && item.claimOwnerId = some workerId) now
| .release dispatchId workerId availableAt preferred now _ =>
  queue.release dispatchId workerId availableAt preferred now
| .prune sessionId excludeDispatchId now _ =>
  queue.remove
    (fun item => item.sessionId = sessionId && !decide (some item.id = excludeDispatchId)) now
| .deleteRun sessionId clock => queue.remove (fun item => item.sessionId = sessionId) clock
| .collect retention now _ => some (queue.collect retention now)
| _ => none

/- The run of a session is deleted. -/
def DispatchOp.isDeleteRun : DispatchOp → Bool
| .deleteRun _ _ => true
| _ => false

/- The times that the operation writes down are finite. -/
def DispatchOp.TimesFinite : DispatchOp → Prop
| .enqueue params clock =>
  let createdAt := params.createdAt.getD clock
  createdAt.isFinite = true ∧ (params.availableAt.getD createdAt).isFinite = true ∧
    (params.priority.getD 0).isFinite = true
| .claim _ _ now _ => now.isFinite = true
| .complete _ _ now _ => now.isFinite = true
| .release _ _ availableAt _ now _ => now.isFinite = true ∧ (availableAt.getD now).isFinite = true
| .prune _ _ now _ => now.isFinite = true
| .deleteRun _ clock => clock.isFinite = true
| .collect _ now _ => now.isFinite = true
| _ => True

instance (op : DispatchOp) : Decidable op.TimesFinite := by
  cases op <;> unfold DispatchOp.TimesFinite <;> infer_instance

def DispatchStore.queued (store : DispatchStore) : List DispatchItem :=
  match store.queue with
  | .valid queue => queue.items
  | _ => []

/- The queue that an operation finds. -/
def DispatchStore.loaded (store : DispatchStore) (clock : JsNumber) : DispatchQueue :=
  (store.loadDispatchQueue clock).1

variable (config : DispatchConfig)
variable {store : DispatchStore}

theorem loadDispatchQueue_eq (hIntact : store.queue ≠ .damaged) (clock : JsNumber) :
    store.loadDispatchQueue clock = (store.loaded clock, store) := by
  unfold DispatchStore.loaded DispatchStore.loadDispatchQueue
  cases hQueue : store.queue with
  | absent | valid => rfl
  | damaged => exact absurd hQueue hIntact

theorem loaded_items (store : DispatchStore) (clock : JsNumber) :
    (store.loaded clock).items = store.queued := by
  unfold DispatchStore.loaded DispatchStore.loadDispatchQueue DispatchStore.queued
  cases store.queue <;> rfl

def DispatchStore.saved (store : DispatchStore) (op : DispatchOp)
    (next : DispatchQueue) : DispatchStore :=
  if op.isDeleteRun then { store with queue := readQueue next }
  else store.saveDispatchQueueAndBeacon next none

theorem update_eq (hIntact : store.queue ≠ .damaged) (change : DispatchQueue → Option DispatchQueue)
    (clock : JsNumber) : store.update change clock = match change (store.loaded clock) with
      | none => store
      | some next => store.saveDispatchQueueAndBeacon next none := by
  have hLoad := loadDispatchQueue_eq hIntact clock
  unfold DispatchStore.update
  cases hChange : change (store.loaded clock) with
  | none | some => simp only [hLoad, hChange]

theorem claimDispatchForWorker_snd (hIntact : store.queue ≠ .damaged) (workerId : String)
    (pools : List WorkerPool) (now clock : JsNumber) :
    (store.claimDispatchForWorker config.dispatchClaimDurationMs workerId pools now clock).2 =
      store.update
        (fun queue => (queue.claim store.workers config.dispatchClaimDurationMs workerId pools
          now).map Prod.snd) clock := by
  rw [update_eq hIntact]
  unfold DispatchStore.claimDispatchForWorker
  rw [loadDispatchQueue_eq hIntact]
  dsimp only
  cases (store.loaded clock).claim store.workers
      config.dispatchClaimDurationMs workerId pools now with
  | none | some => rfl

/- The queue and the beacon stay as they are, or the changed queue is saved. -/
def DispatchOp.Yields (op : DispatchOp) (store after : DispatchStore) : Prop :=
  (∃ workers, op.change config store.workers (store.loaded op.clock) = none ∧
      after = { store with workers := workers }) ∨
    ∃ next, op.change config store.workers (store.loaded op.clock) = some next ∧
        after = store.saved op next

theorem update_yields (hQueue : store.queue ≠ .damaged) {op : DispatchOp}
    (hKept : op.isDeleteRun = false) :
    op.Yields config store
      (store.update (fun queue => op.change config store.workers queue) op.clock) := by
  rw [DispatchOp.Yields, update_eq hQueue]
  unfold DispatchStore.saved
  rw [hKept]
  cases op.change config store.workers (store.loaded op.clock) with
  | none => exact Or.inl ⟨store.workers, rfl, rfl⟩
  | some next => exact Or.inr ⟨next, rfl, rfl⟩

theorem step_eq (hQueue : store.queue ≠ .damaged) (hBeacon : store.beacon ≠ .damaged)
    (op : DispatchOp) : op.Yields config store (store.step config op) := by
  cases op with
  | enqueue params clock =>
    refine Or.inr ⟨_, rfl, ?_⟩
    change (store.enqueueDispatch params clock).2 = _
    unfold DispatchStore.enqueueDispatch
    rw [loadDispatchQueue_eq hQueue]
    rfl
  | claim workerId pools now clock =>
    have hClaim := claimDispatchForWorker_snd config hQueue workerId pools now clock
    rw [← DispatchStore.step] at hClaim
    rw [hClaim]
    exact update_yields config hQueue rfl
  | complete | release | prune | collect => exact update_yields config hQueue rfl
  | deleteRun sessionId clock =>
    change DispatchOp.Yields config _ store (store.deleteRun sessionId clock)
    unfold DispatchStore.deleteRun
    rw [loadDispatchQueue_eq hQueue]
    dsimp only
    cases hNext : (store.loaded clock).remove (fun item => item.sessionId = sessionId) clock with
    | none => exact Or.inl ⟨store.workers, hNext, rfl⟩
    | some next => exact Or.inr ⟨next, hNext, rfl⟩
  | collectWorkers | heartbeat | removeWorker => exact Or.inl ⟨_, rfl, rfl⟩
  | drain workerId draining now =>
    change DispatchOp.Yields config _ store (store.setWorkerDrainState workerId draining now)
    unfold DispatchStore.setWorkerDrainState
    cases store.workers.find? (fun worker => decide (worker.workerId = workerId)) with
    | none => exact Or.inl ⟨store.workers, rfl, rfl⟩
    | some existing => exact Or.inl ⟨_, rfl, rfl⟩
  | loadQueue clock =>
    refine Or.inl ⟨store.workers, rfl, ?_⟩
    change (store.loadDispatchQueue clock).2 = _
    rw [loadDispatchQueue_eq hQueue]
  | loadBeacon clock =>
    refine Or.inl ⟨store.workers, rfl, ?_⟩
    change store.loadDispatchBeacon clock = _
    unfold DispatchStore.loadDispatchBeacon
    split
    · rename_i hState
      exact absurd hState hBeacon
    · rfl

theorem change_wellMade {op : DispatchOp}
    (hMade : queue.WellMade) (hTimes : op.TimesFinite)
    (hChange : op.change config workers queue = some next) :
    next.WellMade ∧ next.updatedAt.isFinite = true := by
  have hRemove {removed : DispatchItem → Bool} {now : JsNumber} (hNow : now.isFinite = true)
      (hRemove : queue.remove removed now = some next) :
      next.WellMade ∧ next.updatedAt.isFinite = true := by
    refine ⟨hMade.remove hRemove, ?_⟩
    rw [(remove_eq_some hRemove).2]
    exact hNow
  cases op with
  | enqueue params clock =>
    cases hChange
    exact ⟨hMade.enqueue hTimes.1 hTimes.2.1 hTimes.2.2, hTimes.1⟩
  | claim workerId pools now clock =>
    rcases map_eq_some_iff.mp hChange with ⟨⟨claimed, saved⟩, hClaim, rfl⟩
    refine ⟨hMade.claim hClaim, ?_⟩
    rcases claim_eq_some hClaim with ⟨_, _, _, _, _, hNext⟩
    rw [hNext]
    exact hTimes
  | complete | prune | deleteRun => exact hRemove hTimes hChange
  | release dispatchId workerId availableAt preferred now clock =>
    refine ⟨hMade.release hTimes.1 hTimes.2 hChange, ?_⟩
    rcases release_eq_some hChange with ⟨_, _, _, _, _, ⟨_, hNext⟩ | ⟨_, hNext⟩⟩ <;>
    · rw [hNext]
      exact hTimes.1
  | collect retention now clock =>
    cases hChange
    exact ⟨hMade.collect retention now, hTimes⟩
  | collectWorkers | heartbeat | drain | removeWorker | loadQueue | loadBeacon => cases hChange

end AgencCore.Gateway
