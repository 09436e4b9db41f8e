import AgencCore.Eval.Simulation

/-
  What the projection of a legal history reports.

  A legal history in increasing slots is projected without a violation exactly when no task is
  claimed twice and no dispute voted on twice. Collaborative tasks and contested disputes have such
  histories.
-/

namespace AgencCore.Eval

open Foundations List

variable {host : EvalHost}

def slotOf (entry : Nat × SortedItem) : Int := entry.2.input.slot

/-
  A legal history, carried by items in increasing slots. No item is dropped, since the fingerprints
  seen so far have smaller slots.
-/
theorem projectItems_simulates {entries : List (Nat × SortedItem)} {history : List ChainEvent}
    (hCarries : List.Forall₂ (fun entry event => Carries host entry.2.input event) entries history)
    (hPrints : ∀ entry ∈ entries, entry.2.fingerprint.slot = slotOf entry)
    (hSlots : entries.Pairwise (fun a b => slotOf a < slotOf b)) {c c' : ChainState}
    {claimed voted : List EntityId} {p : Projection}
    (hSeen : ∀ fingerprint ∈ p.eventIds, ∀ entry ∈ entries, fingerprint.slot < slotOf entry)
    (hSim : Simulates host c claimed voted p) (hLegal : legalRun c history = some c') :
    ∃ p', entries.foldlM (projectItem host) p = .ok p' ∧
        Simulates host c' (claimed ++ history.filterMap ChainEvent.claimed?)
          (voted ++ history.filterMap ChainEvent.voted?) p' := by
  induction hCarries generalizing c claimed voted p with
  | nil =>
    cases hLegal
    exact ⟨p, rfl, by simpa using hSim⟩
  | @cons entry event entries history hHead _ ih =>
    have hPrint := hPrints entry mem_cons_self
    rcases Option.bind_eq_some_iff.mp hLegal with ⟨c₁, hStep, hRest⟩
    have hNew : entry.2.fingerprint ∉ p.eventIds := by
      intro hIn
      have hLt := hSeen _ hIn entry mem_cons_self
      rw [hPrint] at hLt
      exact lt_irrefl _ hLt
    rcases projectItem_simulates hSim hHead hNew hStep entry.1 with ⟨p₁, hOk, hSim₁, hIds⟩
    have hSeen₁ :
        ∀ fingerprint ∈ p₁.eventIds, ∀ other ∈ entries, fingerprint.slot < slotOf other := by
      intro fingerprint hIn other hOther
      rw [hIds, mem_append, mem_singleton] at hIn
      rcases hIn with hOld | hEq
      · exact hSeen _ hOld other (mem_cons_of_mem _ hOther)
      · rw [hEq, hPrint]
        exact (List.pairwise_cons.mp hSlots).1 other hOther
    rcases ih (fun other hOther => hPrints other (mem_cons_of_mem _ hOther))
        (List.pairwise_cons.mp hSlots).2 hSeen₁ hSim₁ hRest with ⟨p', hRun, hSim'⟩
    refine ⟨p', ?_, ?_⟩
    · rw [foldlM_cons, bind_eq_ok_iff]
      exact ⟨p₁, hOk, hRun⟩
    · rw [append_assoc, append_assoc] at hSim'
      cases hClaim : event.claimed? <;> cases hVote : event.voted? <;>
        simpa [hClaim, hVote] using hSim'

theorem simulates_start (host : EvalHost) (total : Nat) :
    Simulates host ChainState.empty [] [] (Projection.start total) := by
  refine
    { tasks := fun _ => rfl, disputes := fun _ => rfl, unclaimed := fun _ _ => not_mem_nil
      inProgress := ?_, unvoted := fun _ _ => not_mem_nil
      clean := by simp [Projection.start] }
  intro id hGet
  cases hGet

def itemsOf (host : EvalHost) (inputs : List OnChainProjectionInput) : List SortedItem :=
  inputs.mapIdx (fun index input => sortedItem host input index)

/- Inputs in increasing slots are sorted already. -/
theorem sortInputs_eq_itemsOf (host : EvalHost) {inputs : List OnChainProjectionInput}
    (hSlots : inputs.Pairwise (fun a b => a.slot < b.slot)) :
    sortInputs host inputs = itemsOf host inputs := by
  apply sortBy_eq_self
  rw [← map_mapIdx_eq_self (fun index input => sortedItem host input index)
    (·.input) (fun _ _ => rfl) inputs, pairwise_map] at hSlots
  apply hSlots.imp
  intro a b hLt
  have hCompare : compare a.input.slot b.input.slot = .lt := compare_lt_iff_lt.mpr hLt
  rw [compareItems, if_pos (ne_of_lt hLt), hCompare]
  rfl

/- The loop over a legal history in increasing slots. -/
theorem projectSorted_simulates {inputs : List OnChainProjectionInput} {history : List ChainEvent}
    (hCarries : List.Forall₂ (Carries host) inputs history)
    (hSlots : inputs.Pairwise (fun a b => a.slot < b.slot)) {c' : ChainState}
    (hLegal : legalRun ChainState.empty history = some c') :
    ∃ p, projectSorted host inputs.length (sortInputs host inputs) = .ok p ∧
        (p.telemetry.transitionViolations = [] ↔ NoRepeats history) := by
  have hInputs : ((itemsOf host inputs).mapIdx
        (fun index item => (index, item))).map (·.2.input) = inputs := by
    have hItems := map_mapIdx_eq_self (fun index item => (index, item)) Prod.snd
      (fun _ _ => rfl) (itemsOf host inputs)
    have hMap := congrArg (List.map (fun item : SortedItem => item.input)) hItems
    rw [List.map_map] at hMap
    exact hMap.trans (map_mapIdx_eq_self _ _ (fun _ _ => rfl) inputs)
  have hPrints : ∀ entry ∈ (itemsOf host inputs).mapIdx (fun index item => (index, item)),
        entry.2.fingerprint.slot = slotOf entry := by
    intro entry hEntry
    rcases List.mem_mapIdx.mp hEntry with ⟨i, hi, rfl⟩
    simp [slotOf, itemsOf, sortedItem, buildFingerprint]
  rw [← hInputs, forall₂_map_left_iff] at hCarries
  rw [sortInputs_eq_itemsOf host hSlots]
  rw [← hInputs, pairwise_map] at hSlots
  rcases projectItems_simulates hCarries hPrints hSlots (by simp [Projection.start])
      (simulates_start host inputs.length) hLegal with ⟨p, hRun, hSim⟩
  exact ⟨p, hRun, hSim.clean⟩

/-
  A legal history of tasks and disputes in increasing slots is projected without a transition
  violation, and strict projection returns, exactly when no task is claimed twice and no dispute
  voted on twice.
-/
theorem legal_history_clean_iff (host : EvalHost) {inputs : List OnChainProjectionInput}
    {history : List ChainEvent} (hCarries : List.Forall₂ (Carries host) inputs history)
    (hSlots : inputs.Pairwise (fun a b => a.slot < b.slot))
    (hLegal : (legalRun ChainState.empty history).isSome = true) (options : ProjectionOptions) :
    (∃ result,
        projectOnChainEvents host inputs { options with strictProjection := false } = .ok result ∧
          (result.telemetry.transitionViolations = [] ↔ NoRepeats history)) ∧
      ((∃ result,
        projectOnChainEvents host inputs { options with strictProjection := true } = .ok result) ↔
        NoRepeats history) := by
  rcases Option.isSome_iff_exists.mp hLegal with ⟨c', hLegal⟩
  rcases projectSorted_simulates hCarries hSlots hLegal with ⟨p, hRun, hClean⟩
  unfold projectOnChainEvents
  rw [hRun]
  refine ⟨⟨_, rfl, hClean⟩, ?_⟩
  rw [← hClean]
  simp only [true_and, Except.bind, bind]
  constructor
  · rintro ⟨result, hOk⟩
    by_contra hViolations
    rw [if_pos hViolations] at hOk
    cases hOk
  · intro hNone
    rw [if_neg (not_not.mpr hNone)]
    exact ⟨_, rfl⟩

def sampleTask : EntityId := ⟨List.replicate 32 7, rfl⟩

def sampleInput (eventName : String) (slot : Int) : OnChainProjectionInput :=
  { eventName := eventName, event := .object [("taskId", .bytes sampleTask.1)], slot := slot
    signature := "sig" }

theorem sampleInput_carries {eventName : String} {slot : Int} {event : ChainEvent}
    (hName : knownEventNames.lookup eventName = some event.name) (hSlot : 0 ≤ slot)
    (hTask : event.task? = some sampleTask) (hDispute : event.dispute? = none)
    (hVote : event.voted? = none) : Carries EvalHost.basic (sampleInput eventName slot) event where
  name := hName
  slot := hSlot
  signature := by simp [sampleInput]
  task := by
    intro id hId
    rw [hTask] at hId
    cases hId
    rfl
  dispute := by simp [hDispute]
  votes := by simp [hVote]

/- A task that is created, claimed and completed. -/
theorem sample_lifecycle_clean : (legalRun ChainState.empty
        [.taskCreated sampleTask, .taskClaimed sampleTask,
          .taskCompleted sampleTask]).isSome = true ∧
      ∃ result, projectOnChainEvents EvalHost.basic
          [sampleInput "taskCreated" 1, sampleInput "taskClaimed" 2, sampleInput "taskCompleted" 3]
          { strictProjection := true } = .ok result := by
  have hLegal : (legalRun ChainState.empty
        [.taskCreated sampleTask, .taskClaimed sampleTask,
          .taskCompleted sampleTask]).isSome = true := by decide +kernel
  have hCarries : List.Forall₂ (Carries EvalHost.basic)
        [sampleInput "taskCreated" 1, sampleInput "taskClaimed" 2, sampleInput "taskCompleted" 3]
        [.taskCreated sampleTask, .taskClaimed sampleTask, .taskCompleted sampleTask] :=
    .cons (sampleInput_carries rfl (by decide) rfl rfl rfl)
      (.cons (sampleInput_carries rfl (by decide) rfl rfl rfl)
        (.cons (sampleInput_carries rfl (by decide) rfl rfl rfl) .nil))
  exact ⟨hLegal, (legal_history_clean_iff EvalHost.basic
    hCarries (by decide) hLegal {}).2.mpr (by decide +kernel)⟩

/- A second worker claims a collaborative task, which the chain admits and the projector reports. -/
theorem second_claim_reported : (legalRun ChainState.empty
        [.taskCreated sampleTask, .taskClaimed sampleTask, .taskClaimed sampleTask]).isSome = true ∧
      (projectOnChainEvents EvalHost.basic
          [sampleInput "taskCreated" 1, sampleInput "taskClaimed" 2, sampleInput "taskClaimed" 3]
          {}).toOption.map
        (fun result =>
          result.telemetry.transitionViolations.map (·.reason)) =
        some ["claimed -> claimed"] ∧
      (projectOnChainEvents EvalHost.basic
          [sampleInput "taskCreated" 1, sampleInput "taskClaimed" 2, sampleInput "taskClaimed" 3]
          { strictProjection := true }).toOption.isNone = true := by decide +kernel

end AgencCore.Eval
