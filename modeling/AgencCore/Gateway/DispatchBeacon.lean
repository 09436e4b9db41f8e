import AgencCore.Foundations.Runs
import AgencCore.Gateway.DispatchChanges

/-
  The beacon of the dispatch queue.

  Whoever waits for the queue reads the beacon. It mirrors the queue after every operation but one:
  when a run is deleted, its items leave the queue and the beacon stays as it was.
-/

namespace AgencCore.Gateway

open Foundations

/- The time is the smallest one at which an item is due. -/
def NextDue (items : List DispatchItem) (time : Option JsNumber) : Prop :=
  (time = none ↔ items = []) ∧
    ∀ due ∈ time,
      (∃ item ∈ items, item.availableAt = due) ∧ ∀ item ∈ items, due.le item.availableAt = true

/- An absent beacon stands for an empty queue. -/
def DispatchStore.Mirrors (store : DispatchStore) : Prop :=
  match store.beacon with
  | .absent => store.queued = []
  | .damaged => False
  | .valid beacon =>
    beacon.queueDepth = store.queued.length ∧ NextDue store.queued beacon.nextAvailableAt

/- A change of the queue comes with a later revision. -/
def RevisionGrows (store store' : DispatchStore) : Prop :=
  store'.queue ≠ store.queue → store.currentRevision < store'.currentRevision

def BeaconRight (config : DispatchConfig) (store : DispatchStore) (op : DispatchOp) : Prop :=
  (store.step config op).Mirrors ∧ RevisionGrows store (store.step config op)

/- The times are finite, and no run is deleted that has items in the queue. -/
def KeepsBeacon (store : DispatchStore) (op : DispatchOp) : Prop := op.TimesFinite ∧ match op with
    | .deleteRun sessionId _ => ∀ item ∈ store.queued, item.sessionId ≠ sessionId
    | _ => True

----------
-- Queue And Beacon In Step
----------

/- Beacon and queue were saved together, or not yet. -/
inductive DispatchStore.InStep : DispatchStore → Prop
  | fresh (workers : List WorkerRecord) : DispatchStore.InStep ⟨.absent, .absent, workers⟩
  | saved (workers : List WorkerRecord) (queue : DispatchQueue) (beacon : DispatchBeacon)
      (hMade : queue.WellMade) (hDepth : beacon.queueDepth = queue.items.length)
      (hNext : beacon.nextAvailableAt = queue.items.head?.map (·.availableAt)) :
      DispatchStore.InStep ⟨.valid queue, .valid beacon, workers⟩

namespace DispatchStore.InStep

variable {store : DispatchStore}
variable (hStep : store.InStep)
include hStep

theorem queue_intact : store.queue ≠ .damaged := by
  cases hStep <;> exact nofun

theorem beacon_intact : store.beacon ≠ .damaged := by
  cases hStep <;> exact nofun

theorem loaded_wellMade (clock : JsNumber) :
    (store.loaded clock).WellMade := by
  cases hStep with
  | fresh workers =>
    exact ⟨(fun _ hMem => nomatch hMem), (fun _ hMem => nomatch hMem), List.Pairwise.nil⟩
  | saved workers queue beacon hMade hDepth hNext => exact hMade

theorem mirrors : store.Mirrors := by
  cases hStep with
  | fresh workers => exact rfl
  | saved workers queue beacon hMade hDepth hNext =>
    refine ⟨hDepth, ?_⟩
    change NextDue queue.items beacon.nextAvailableAt
    rw [hNext]
    cases hItems : queue.items with
    | nil => simp [NextDue]
    | cons head rest =>
      refine ⟨by simp, ?_⟩
      intro due hDue
      cases hDue
      refine ⟨⟨head, List.mem_cons_self, rfl⟩, ?_⟩
      intro item hMem
      have hSorted := hMade.sorted
      have hReadable := hMade.items
      rw [hItems] at hSorted hReadable
      exact hSorted.head_le hReadable hMem

omit hStep in
theorem head_availableAt_finite {queue : DispatchQueue} (hMade : queue.WellMade) :
    (queue.items.head?.map (·.availableAt)).filter JsNumber.isFinite =
      queue.items.head?.map (·.availableAt) := by
  cases hItems : queue.items with
  | nil => rfl
  | cons head rest =>
    have hRead := hMade.items head (by simp [hItems])
    exact Option.filter_some_pos (head.isReadable_iff.mp hRead).2.2

omit hStep in
/- What is saved together is in step. -/
theorem save {next : DispatchQueue} (hUpdated : next.updatedAt.isFinite = true)
    (hMade : next.WellMade) (store : DispatchStore) :
    (store.saveDispatchQueueAndBeacon next none).InStep ∧
      store.currentRevision < (store.saveDispatchQueueAndBeacon next none).currentRevision := by
  have hBeacon (revision : Nat) : readBeacon (buildDispatchBeacon next revision) =
        .valid (buildDispatchBeacon next revision) := by
    unfold readBeacon buildDispatchBeacon
    rw [if_pos hUpdated, head_availableAt_finite hMade]
  have hSave : store.saveDispatchQueueAndBeacon next none =
        ⟨.valid next.readBack, .valid (buildDispatchBeacon next (store.currentRevision + 1)),
          store.workers⟩ := by
    unfold DispatchStore.saveDispatchQueueAndBeacon
    dsimp only
    rw [readQueue_eq hUpdated hMade, Option.getD_none, hBeacon]
  rw [hSave]
  refine ⟨saved _ _ _ hMade.readBack ?_ ?_, Nat.lt_succ_self _⟩
  · exact (List.length_map _).symm
  · change next.items.head?.map _ = (next.items.map DispatchItem.readBack).head?.map _
    rw [List.head?_map, Option.map_map]
    rfl

variable (config : DispatchConfig)

omit hStep in
/- No item goes when a run without items is deleted. -/
theorem deleteRun_change {sessionId : String} (clock : JsNumber)
    (hFree : ∀ item ∈ store.queued, item.sessionId ≠ sessionId) :
    DispatchOp.change config store.workers (store.loaded clock)
        (.deleteRun sessionId clock) = none := by
  cases hChange : DispatchOp.change config store.workers
      (store.loaded clock) (.deleteRun sessionId clock) with
  | none => rfl
  | some next =>
    rcases (DispatchQueue.remove_eq_some hChange).1 with ⟨item, hMem, hSession⟩
    rw [loaded_items] at hMem
    exact absurd (of_decide_eq_true hSession) (hFree item hMem)

theorem with_workers (workers : List WorkerRecord) :
    DispatchStore.InStep { store with workers := workers } := by
  cases hStep with
  | fresh old => exact fresh workers
  | saved old queue beacon hMade hDepth hNext => exact saved workers queue beacon hMade hDepth hNext

theorem step {op : DispatchOp} (hKeeps : KeepsBeacon store op) :
    BeaconRight config store op ∧ (store.step config op).InStep := by
  have hNext : (store.step config op).InStep ∧ RevisionGrows store (store.step config op) := by
    rcases step_eq config hStep.queue_intact hStep.beacon_intact op with
      ⟨workers, _, hSame⟩ | ⟨next, hChange, hSaved⟩
    · rw [hSame]
      exact ⟨hStep.with_workers workers, fun hNe => absurd rfl hNe⟩
    · rcases change_wellMade config (hStep.loaded_wellMade _) hKeeps.1 hChange with
        ⟨hMade, hUpdated⟩
      have hNotDelete : op.isDeleteRun = false := by
        cases op with
        | deleteRun sessionId clock =>
          have hNone := deleteRun_change config clock hKeeps.2
          exact absurd (hNone.symm.trans hChange) nofun
        | _ => rfl
      have hSave : store.saved op next = store.saveDispatchQueueAndBeacon next none := by
        unfold DispatchStore.saved
        rw [hNotDelete]
        rfl
      rw [hSaved, hSave]
      have hBoth := save hUpdated hMade store
      exact ⟨hBoth.1, fun _ => hBoth.2⟩
  exact ⟨⟨hNext.1.mirrors, hNext.2⟩, hNext.1⟩

end DispatchStore.InStep

/-
  From an empty store, the beacon is right after every operation of a run in which no run with
  queued items is deleted.
-/
theorem beacon_mirrors_queue (config : DispatchConfig) (ops : List DispatchOp)
    (hKeeps : AlongRun (DispatchStore.step config) KeepsBeacon .empty ops) :
    AlongRun (DispatchStore.step config) (BeaconRight config) .empty ops := by
  refine AlongRun.of_invariant ?_ (DispatchStore.InStep.fresh []) hKeeps
  intro store op hStep hOp
  exact hStep.step config hOp

/- An item is queued, claimed and completed. -/
theorem worked_off_queue_mirrored : AlongRun (DispatchStore.step {}) (BeaconRight {}) .empty
      [ .enqueue { sessionId := "s", pool := .generic, reason := .start } 1,
        .heartbeat { workerId := "w", pools := [.generic], maxConcurrentRuns := 1 } 2,
        .claim "w" [.generic] 3 3, .complete ⟨1, 0⟩ "w" 4 4 ] := by
  refine beacon_mirrors_queue {} _ ?_
  refine ⟨⟨?_, trivial⟩, ⟨?_, trivial⟩, ⟨?_, trivial⟩, ⟨?_, trivial⟩, trivial⟩ <;> decide

/- The beacon still shows the item of a deleted run. -/
theorem deleted_run_still_shown : ¬ AlongRun (DispatchStore.step {}) (BeaconRight {}) .empty
      [ .enqueue
          { sessionId := "s", pool := .generic, reason := .start } 1, .deleteRun "s" 2 ] := by
  rintro ⟨_, ⟨hMirrors, _⟩, _⟩
  have hDepth : (1 : Nat) = 0 := hMirrors.1
  exact absurd hDepth (by decide)

end AgencCore.Gateway
