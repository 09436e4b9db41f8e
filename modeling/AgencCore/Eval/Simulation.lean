import AgencCore.Eval.Projector

/-
  The projector follows the chain.

  The lifecycle tables of the projector follow the matrices of the chain except in two places: they
  do not admit a second claim of a task, and not a second vote on a dispute. `Simulates` relates the
  two systems and counts the claims and votes, so that the reports of the projector are known after
  each step.
-/

namespace AgencCore.Eval

open Foundations List Option OrderedMap

/- The identifier of a task or dispute: 32 bytes. -/
abbrev EntityId := { bytes : List UInt8 // bytes.length = 32 }

inductive ChainEvent where
  | taskCreated (task : EntityId)
  | dependentTaskCreated (task : EntityId)
  | taskClaimed (task : EntityId)
  | taskCompleted (task : EntityId)
  | taskCancelled (task : EntityId)
  | disputeInitiated (dispute task : EntityId)
  | disputeVoteCast (dispute : EntityId)
  | disputeResolved (dispute : EntityId)
  | disputeExpired (dispute : EntityId)
  | disputeCancelled (dispute : EntityId)
deriving DecidableEq

namespace ChainEvent

def name : ChainEvent → OnChainEventName
| .taskCreated _ => .taskCreated
| .dependentTaskCreated _ => .dependentTaskCreated
| .taskClaimed _ => .taskClaimed
| .taskCompleted _ => .taskCompleted
| .taskCancelled _ => .taskCancelled
| .disputeInitiated _ _ => .disputeInitiated
| .disputeVoteCast _ => .disputeVoteCast
| .disputeResolved _ => .disputeResolved
| .disputeExpired _ => .disputeExpired
| .disputeCancelled _ => .disputeCancelled

/- The task an event is about, where it matters. -/
def task? : ChainEvent → Option EntityId
| .taskCreated task => some task
| .dependentTaskCreated task => some task
| .taskClaimed task => some task
| .taskCompleted task => some task
| .taskCancelled task => some task
| .disputeInitiated _ task => some task
| _ => none

def dispute? : ChainEvent → Option EntityId
| .disputeInitiated dispute _ => some dispute
| .disputeVoteCast dispute => some dispute
| .disputeResolved dispute => some dispute
| .disputeExpired dispute => some dispute
| .disputeCancelled dispute => some dispute
| _ => none

def claimed? : ChainEvent → Option EntityId
| .taskClaimed task => some task
| _ => none

def voted? : ChainEvent → Option EntityId
| .disputeVoteCast dispute => some dispute
| _ => none

end ChainEvent

structure ChainState where
  tasks : OrderedMap EntityId OnChainTaskStatus
  disputes : OrderedMap EntityId OnChainDisputeStatus

namespace ChainState

def empty : ChainState := ⟨OrderedMap.empty, OrderedMap.empty⟩

/- Give a task a status, if the matrix admits it. -/
def moveTask (c : ChainState) (task : EntityId) (status : OnChainTaskStatus) : Option ChainState :=
  if admits onChainTaskTransitions onChainTaskStartStates (c.tasks.get? task) status then
    some { c with tasks := c.tasks.set task status }
  else none

/- Give a dispute a status, if the matrix admits it. -/
def moveDispute (c : ChainState) (dispute : EntityId)
    (status : OnChainDisputeStatus) : Option ChainState :=
  if admits onChainDisputeTransitions onChainDisputeStartStates
      (c.disputes.get? dispute) status then
    some { c with disputes := c.disputes.set dispute status }
  else none

/- A vote needs an active dispute and changes no status. -/
def vote (c : ChainState) (dispute : EntityId) : Option ChainState :=
  if c.disputes.get? dispute = some .active then some c
  else none

/- The state after an event, `none` if it is not legal. -/
def step (c : ChainState) : ChainEvent → Option ChainState
| .taskCreated task => c.moveTask task .open
| .dependentTaskCreated task => c.moveTask task .open
| .taskClaimed task => c.moveTask task .inProgress
| .taskCompleted task => c.moveTask task .completed
| .taskCancelled task => c.moveTask task .cancelled
| .disputeInitiated dispute task =>
  (c.moveTask task .disputed).bind (fun c => c.moveDispute dispute .active)
| .disputeVoteCast dispute => c.vote dispute
| .disputeResolved dispute => c.moveDispute dispute .resolved
| .disputeExpired dispute => c.moveDispute dispute .expired
| .disputeCancelled dispute => c.moveDispute dispute .cancelled

end ChainState

/- The state after a history, `none` if it is not legal. -/
def legalRun (c : ChainState) (history : List ChainEvent) : Option ChainState :=
  history.foldlM ChainState.step c

/- No task is claimed twice, no dispute voted on twice. -/
def NoRepeats (history : List ChainEvent) : Prop :=
  (history.filterMap ChainEvent.claimed?).Nodup ∧ (history.filterMap ChainEvent.voted?).Nodup

instance (history : List ChainEvent) : Decidable (NoRepeats history) :=
  inferInstanceAs (Decidable (_ ∧ _))

variable (host : EvalHost)

/- The key under which the projector follows an entity. -/
def keyOf (id : EntityId) : String := host.base58 id.1

/-
  A well-formed input that carries an event: it has the name of the event and the identifiers of its
  task and dispute, and a vote has its counts.
-/
structure Carries (input : OnChainProjectionInput) (event : ChainEvent) : Prop where
  name : input.known? = some event.name
  slot : 0 ≤ input.slot
  signature : input.signature ≠ ""
  task : ∀ id ∈ event.task?, (getContext host event.name input.event).taskPda = some (keyOf host id)
  dispute : ∀ id ∈ event.dispute?,
      (getContext host event.name input.event).disputePda = some (keyOf host id)
  votes : event.voted?.isSome = true →
      (voteCount host (input.event.field "votesFor")).isSome = true ∧
        (voteCount host (input.event.field "votesAgainst")).isSome = true

variable {host}

theorem keyOf_inj {a b : EntityId} : keyOf host a = keyOf host b ↔ a = b := by
  constructor
  · intro hEq
    exact Subtype.ext (host.base58_injective a.1 b.1 a.2 b.2 hEq)
  · rintro rfl
    rfl

theorem truthy_keyOf (id : EntityId) : truthy (some (keyOf host id)) = some (keyOf host id) := by
  have hNe : keyOf host id ≠ "" := host.base58_ne_empty id.1 id.2
  simp [truthy, hNe]

/- Reading a map at a key after a change at another one. -/
theorem get?_set_keyOf {α : Type} (m : OrderedMap String α) (id other : EntityId) (a : α) :
    (m.set (keyOf host id) a).get? (keyOf host other) = if id = other then some a
      else m.get? (keyOf host other) := by
  rw [get?_set]
  exact if_congr keyOf_inj rfl rfl

/- The state of a task in the tables of the projector. -/
def taskStateOf : OnChainTaskStatus → TaskLifecycleState
| .open => .discovered
| .inProgress => .claimed
| .pendingValidation => .claimed
| .completed => .completed
| .cancelled => .failed
| .disputed => .disputed

/- The state of a dispute, given whether it was voted on. -/
def disputeStateOf (voted : Bool) : OnChainDisputeStatus → DisputeLifecycleState
| .active => if voted then .voteCast else .initiated
| .resolved => .resolved
| .expired => .expired
| .cancelled => .cancelled

/-
  The projector follows the chain, `claimed` and `voted` being the claims and votes so far. It has
  reported nothing exactly when they hold no repetition.
-/
structure Simulates (host : EvalHost) (c : ChainState) (claimed voted : List EntityId)
    (p : Projection) : Prop where
  tasks : ∀ id, p.taskStates.get? (keyOf host id) = (c.tasks.get? id).map taskStateOf
  disputes : ∀ id, p.disputeStates.get? (keyOf host id) =
      (c.disputes.get? id).map (disputeStateOf (decide (id ∈ voted)))
  unclaimed : ∀ id, c.tasks.get? id = none ∨ c.tasks.get? id = some .open → id ∉ claimed
  inProgress : ∀ id, c.tasks.get? id = some .inProgress → id ∈ claimed
  unvoted : ∀ id, c.disputes.get? id = none → id ∉ voted
  clean : p.telemetry.transitionViolations = [] ↔ claimed.Nodup ∧ voted.Nodup

/- The tables follow the task matrix except at a new claim. -/
theorem taskLifecycle_admits_iff {previous : Option OnChainTaskStatus} {next : OnChainTaskStatus}
    (hNext : next ≠ .pendingValidation)
    (hAdmits : admits onChainTaskTransitions onChainTaskStartStates previous next = true) :
    admits taskLifecycle.transitions taskLifecycle.allowedStarts
        (previous.map taskStateOf) (taskStateOf next) = true ↔
      ¬(previous = some .inProgress ∧ next = .inProgress) := by
  revert hNext hAdmits
  cases previous with
  | none => cases next <;> decide
  | some previous => cases previous <;> cases next <;> decide

/- The tables admit what the dispute matrix admits. -/
theorem disputeLifecycle_admits (voted : Bool) {previous : Option OnChainDisputeStatus}
    {next : OnChainDisputeStatus} (hStart : previous = none → voted = false)
    (hAdmits : admits onChainDisputeTransitions onChainDisputeStartStates previous next = true) :
    admits disputeLifecycle.transitions disputeLifecycle.allowedStarts
      (previous.map (disputeStateOf voted)) (disputeStateOf voted next) = true := by
  revert hStart hAdmits
  cases previous with
  | none => cases next <;> cases voted <;> decide
  | some previous => cases previous <;> cases next <;> cases voted <;> decide

/- A first vote is admitted and a further one is not. -/
theorem disputeLifecycle_admits_vote (voted : Bool) :
    admits disputeLifecycle.transitions disputeLifecycle.allowedStarts
        (some (disputeStateOf voted .active)) .voteCast = true ↔ voted = false := by
  cases voted <;> decide

----------
-- Steps Of The Projector
----------

variable {host : EvalHost}
variable {c c' : ChainState}
variable {claimed voted : List EntityId}
variable {p p' : Projection}

structure SameLifecycles (p p' : Projection) : Prop where
  taskStates : p'.taskStates = p.taskStates
  disputeStates : p'.disputeStates = p.disputeStates
  violations : p'.telemetry.transitionViolations = p.telemetry.transitionViolations

theorem Simulates.congr (hSim : Simulates host c claimed voted p) (hSame : SameLifecycles p p') :
    Simulates host c claimed voted p' :=
  { tasks := fun id => hSame.taskStates ▸ hSim.tasks id
    disputes := fun id => hSame.disputeStates ▸ hSim.disputes id, unclaimed := hSim.unclaimed
    inProgress := hSim.inProgress, unvoted := hSim.unvoted, clean := hSame.violations ▸ hSim.clean }

@[simp] theorem addViolation_taskStates (p : Projection)
    (violation : Option TransitionValidationViolation) :
    (p.addViolation violation).taskStates = p.taskStates := by cases violation <;> rfl

@[simp] theorem addViolation_disputeStates (p : Projection)
    (violation : Option TransitionValidationViolation) :
    (p.addViolation violation).disputeStates = p.disputeStates := by cases violation <;> rfl

/- A report stays clean when the tables admit the step. -/
theorem addViolation_clean_iff {σ : Type} [DecidableEq σ] (p : Projection) (lifecycle : Lifecycle σ)
    (details : TransitionDetails) (previous : Option σ) (next : σ) :
    (p.addViolation
        (validateTransition lifecycle details previous next)).telemetry.transitionViolations = [] ↔
      p.telemetry.transitionViolations = [] ∧
        admits lifecycle.transitions lifecycle.allowedStarts previous next = true := by
  rw [← validateTransition_eq_none_iff lifecycle details]
  cases validateTransition lifecycle details previous next <;> simp [Projection.addViolation]

variable {id : EntityId}

theorem moveTask_eq_some {status : OnChainTaskStatus}
    (hMove : c.moveTask id status = some c') :
    admits onChainTaskTransitions onChainTaskStartStates (c.tasks.get? id) status = true ∧
      c' = { c with tasks := c.tasks.set id status } := by
  unfold ChainState.moveTask at hMove
  split at hMove
  · next hAdmits => exact ⟨hAdmits, by cases hMove; rfl⟩
  · cases hMove

variable {status : OnChainDisputeStatus}

theorem moveDispute_eq_some
    (hMove : c.moveDispute id status = some c') :
    admits onChainDisputeTransitions onChainDisputeStartStates (c.disputes.get? id) status = true ∧
      c' = { c with disputes := c.disputes.set id status } := by
  unfold ChainState.moveDispute at hMove
  split at hMove
  · next hAdmits => exact ⟨hAdmits, by cases hMove; rfl⟩
  · cases hMove

theorem nodup_append_singleton {α : Type} (l : List α) (a : α) :
    (l ++ [a]).Nodup ↔ l.Nodup ∧ a ∉ l := by simpa [and_comm] using nodup_concat l a

/- The claim that a new status of a task stands for. -/
def claimOf (id : EntityId) (status : OnChainTaskStatus) : List EntityId :=
  if status = .inProgress then [id] else []

variable (hSim : Simulates host c claimed voted p)
include hSim

/-
  A task that gets a new status in both systems. The report stays clean unless the task was claimed
  before and is claimed again.
-/
theorem Simulates.setTask {status : OnChainTaskStatus} (hMove : c.moveTask id status = some c')
    (hTasks : p'.taskStates = p.taskStates.set (keyOf host id) (taskStateOf status))
    (hDisputes : p'.disputeStates = p.disputeStates)
    (hClean : p'.telemetry.transitionViolations = [] ↔
        p.telemetry.transitionViolations = [] ∧
          ¬(c.tasks.get? id = some .inProgress ∧ status = .inProgress)) :
    Simulates host c' (claimed ++ claimOf id status) voted p' := by
  obtain ⟨hAdmits, rfl⟩ := moveTask_eq_some hMove
  have hFresh : status = .inProgress → (id ∉ claimed ↔ ¬(c.tasks.get? id = some .inProgress)) := by
    rintro rfl
    constructor
    · intro hNot hGet
      exact hNot (hSim.inProgress id hGet)
    · intro hNot
      apply hSim.unclaimed
      revert hAdmits hNot
      cases hGet : c.tasks.get? id with
      | none => simp
      | some previous => cases previous <;> decide
  refine
    { tasks := ?_, disputes := fun other => hDisputes ▸ hSim.disputes other, unclaimed := ?_
      inProgress := ?_, unvoted := hSim.unvoted, clean := ?_ }
  · intro other
    rw [hTasks, get?_set_keyOf, get?_set, hSim.tasks]
    split <;> rfl
  · intro other hOther
    rw [get?_set] at hOther
    by_cases hEq : id = other
    · -- only a task without a status becomes open
      subst hEq
      have hOpen : status = .open := by simpa using hOther
      subst hOpen
      have hNone : c.tasks.get? id = none := by
        revert hAdmits
        cases c.tasks.get? id with
        | none => intro _; rfl
        | some previous => cases previous <;> decide
      simpa [claimOf] using hSim.unclaimed id (.inl hNone)
    · rw [if_neg hEq] at hOther
      rw [mem_append, not_or]
      refine ⟨hSim.unclaimed other hOther, ?_⟩
      unfold claimOf
      split <;> simp [Ne.symm hEq]
  · intro other hOther
    rcases get?_set_eq_some hOther with ⟨rfl, rfl⟩ | ⟨_, hOld⟩
    · simp [claimOf]
    · exact mem_append_left _ (hSim.inProgress other hOld)
  · rw [hClean, hSim.clean]
    unfold claimOf
    by_cases hClaim : status = .inProgress
    · rw [if_pos hClaim, nodup_append_singleton, hFresh hClaim]
      simp only [hClaim, and_true]
      exact and_right_comm
    · simp [hClaim]

/- A dispute that gets a new status in both systems. -/
theorem Simulates.setDispute (hMove : c.moveDispute id status = some c')
    (hTasks : p'.taskStates = p.taskStates)
    (hDisputes : p'.disputeStates =
        p.disputeStates.set (keyOf host id) (disputeStateOf (decide (id ∈ voted)) status))
    (hClean : p'.telemetry.transitionViolations = [] ↔ p.telemetry.transitionViolations = []) :
    Simulates host c' claimed voted p' := by
  obtain ⟨_, rfl⟩ := moveDispute_eq_some hMove
  refine
    { tasks := fun other => hTasks ▸ hSim.tasks other, disputes := ?_, unclaimed := hSim.unclaimed
      inProgress := hSim.inProgress, unvoted := ?_, clean := hClean.trans hSim.clean }
  · intro other
    rw [hDisputes, get?_set_keyOf, get?_set, hSim.disputes]
    by_cases hEq : id = other
    · subst hEq
      simp
    · simp [hEq]
  · intro other hOther
    rw [get?_set] at hOther
    split at hOther
    · cases hOther
    · exact hSim.unvoted other hOther

/- A vote, which is reported unless it is the first one. -/
theorem Simulates.castVote
    (hActive : c.disputes.get? id = some .active) (hTasks : p'.taskStates = p.taskStates)
    (hDisputes : p'.disputeStates = p.disputeStates.set (keyOf host id) .voteCast)
    (hClean :
      p'.telemetry.transitionViolations = [] ↔ p.telemetry.transitionViolations = [] ∧ id ∉ voted) :
    Simulates host c claimed (voted ++ [id]) p' := by
  refine
    { tasks := fun other => hTasks ▸ hSim.tasks other, disputes := ?_, unclaimed := hSim.unclaimed
      inProgress := hSim.inProgress, unvoted := ?_, clean := ?_ }
  · intro other
    rw [hDisputes, get?_set_keyOf, hSim.disputes]
    by_cases hEq : id = other
    · subst hEq
      simp [hActive, disputeStateOf]
    · simp [hEq, Ne.symm hEq]
  · intro other hOther
    have hNe : other ≠ id := by
      rintro rfl
      rw [hActive] at hOther
      cases hOther
    simpa [hNe] using hSim.unvoted other hOther
  · rw [hClean, hSim.clean, nodup_append_singleton]
    exact and_assoc

variable {context : EventContext}

theorem projectTask_simulates (item : SortedItem)
    (hKey : context.taskPda = some (keyOf host id))
    {status : OnChainTaskStatus} (hStatus : status ≠ .pendingValidation)
    (hMove : c.moveTask id status = some c') :
    Simulates host c' (claimed ++ claimOf id status) voted
      (projectTask item context (taskStateOf status) p) := by
  unfold projectTask
  rw [hKey, truthy_keyOf]
  refine hSim.setTask hMove (by simp) (by simp) ?_
  rw [← taskLifecycle_admits_iff hStatus (moveTask_eq_some hMove).1, ← hSim.tasks]
  exact addViolation_clean_iff _ _ _ _ _

theorem projectDisputedTask_simulates (item : SortedItem)
    (hKey : context.taskPda = some (keyOf host id))
    (hMove : c.moveTask id .disputed = some c') :
    Simulates host c' claimed voted (projectDisputedTask item context p) := by
  have hAdmits := (moveTask_eq_some hMove).1
  have hClaimed : p.taskStates.get? (keyOf host id) = some .claimed := by
    rw [hSim.tasks]
    revert hAdmits
    cases c.tasks.get? id with
    | none => decide
    | some previous => cases previous <;> decide
  have hNone : validateTransition taskLifecycle (detailsOf item (keyOf host id) "disputed")
        (some .claimed) .disputed = none := rfl
  have hSet : Simulates host c' (claimed ++ claimOf id .disputed) voted
        { p with taskStates := p.taskStates.set (keyOf host id) .disputed } :=
    hSim.setTask hMove rfl rfl (by simp)
  unfold projectDisputedTask
  rw [hKey, truthy_keyOf]
  simp only [hClaimed, hNone]
  simpa [claimOf, taskTransitions, Projection.addViolation] using hSet

omit hSim in
/- A replay state changes nothing about the lifecycles. -/
theorem updateDispute_same (p : Projection) (disputePda : String)
    (change : DisputeReplayState → DisputeReplayState) :
    SameLifecycles p (p.updateDispute disputePda change) := by
  unfold Projection.updateDispute
  split <;> exact ⟨rfl, rfl, rfl⟩

variable {event : ChainEvent}
variable {item : SortedItem}

omit hSim in
theorem replayDispute_same
    (hCarries : Carries host item.input event) (context : EventContext) (disputePda : String)
    (p : Projection) :
    ∃ p',
      replayDispute host event.name item context disputePda p = .ok p' ∧ SameLifecycles p p' := by
  cases event with
  | disputeInitiated dispute task => exact ⟨_, rfl, rfl, rfl, rfl⟩
  | disputeVoteCast dispute =>
    obtain ⟨hFor, hAgainst⟩ := hCarries.votes rfl
    rcases isSome_iff_exists.mp hFor with ⟨votesFor, hFor⟩
    rcases isSome_iff_exists.mp hAgainst with ⟨votesAgainst, hAgainst⟩
    unfold replayDispute
    simp only [ChainEvent.name, hFor, hAgainst]
    split
    · exact ⟨p, rfl, rfl, rfl, rfl⟩
    · exact ⟨_, rfl, updateDispute_same _ _ _⟩
  | disputeResolved | disputeExpired | disputeCancelled => exact ⟨_, rfl, updateDispute_same _ _ _⟩
  | _ => exact ⟨p, rfl, rfl, rfl, rfl⟩

variable (hCarries : Carries host item.input event)
variable (hKey : context.disputePda = some (keyOf host id))
include hCarries hKey

omit hSim in
/- A dispute event, up to what it does to the tables. -/
theorem projectDispute_ok (next : DisputeLifecycleState)
    (p : Projection) :
    ∃ p',
      projectDispute host event.name item context next p = .ok p' ∧ p'.taskStates = p.taskStates ∧
        p'.disputeStates = p.disputeStates.set (keyOf host id) next ∧
        (p'.telemetry.transitionViolations = [] ↔
          p.telemetry.transitionViolations = [] ∧
            admits disputeLifecycle.transitions disputeLifecycle.allowedStarts
              (p.disputeStates.get? (keyOf host id)) next = true) := by
  unfold projectDispute
  rw [hKey, truthy_keyOf]
  dsimp only
  rcases replayDispute_same hCarries context (keyOf host id)
      { p.addViolation
          (validateTransition disputeLifecycle (detailsOf item (keyOf host id) next.text)
            (p.disputeStates.get? (keyOf host id)) next) with
        disputeStates :=
          (p.addViolation
            (validateTransition disputeLifecycle (detailsOf item (keyOf host id) next.text)
              (p.disputeStates.get? (keyOf host id)) next)).disputeStates.set
            (keyOf host id) next } with ⟨p', hOk, hSame⟩
  refine ⟨p', hOk, ?_, ?_, ?_⟩
  · rw [hSame.taskStates]
    simp
  · rw [hSame.disputeStates]
    simp
  · rw [hSame.violations]
    exact addViolation_clean_iff _ _ _ _ _

theorem projectDispute_simulates (hMove : c.moveDispute id status = some c') : ∃ p',
      projectDispute host event.name item context (disputeStateOf (decide (id ∈ voted)) status) p =
          .ok p' ∧ Simulates host c' claimed voted p' := by
  rcases projectDispute_ok hCarries hKey (disputeStateOf (decide (id ∈ voted)) status) p with
    ⟨p', hOk, hTasks, hDisputes, hClean⟩
  refine ⟨p', hOk, hSim.setDispute hMove hTasks hDisputes ?_⟩
  rw [hClean, hSim.disputes]
  apply and_iff_left
  apply disputeLifecycle_admits _ _ (moveDispute_eq_some hMove).1
  intro hNone
  simpa using hSim.unvoted id hNone

theorem projectVote_simulates (hActive : c.disputes.get? id = some .active) : ∃ p',
      projectDispute host event.name item context .voteCast p = .ok p' ∧
        Simulates host c claimed (voted ++ [id]) p' := by
  rcases projectDispute_ok hCarries hKey .voteCast p with ⟨p', hOk, hTasks, hDisputes, hClean⟩
  refine ⟨p', hOk, hSim.castVote hActive hTasks hDisputes ?_⟩
  rw [hClean, hSim.disputes, hActive, map_some, disputeLifecycle_admits_vote]
  simp

omit hKey

/- The lifecycles follow an event to a state of the chain. -/
def Follows (host : EvalHost) (c' : ChainState) (claimed voted : List EntityId) (p : Projection)
    (event : ChainEvent) (item : SortedItem) : Prop :=
  ∃ p', projectLifecycles host event.name item (getContext host event.name item.input.event) p =
        .ok p' ∧
      Simulates host c' (claimed ++ event.claimed?.toList) (voted ++ event.voted?.toList) p'

/- Events that only change the status of a task. -/
theorem follows_taskEvent {status : OnChainTaskStatus} (hId : event.task? = some id)
    (hStatus : status ≠ .pendingValidation) (hMove : c.moveTask id status = some c')
    (hType : trajectoryEventBySource event.name = .task (taskStateOf status))
    (hClaim : event.claimed?.toList = claimOf id status) (hVote : event.voted? = none) :
    Follows host c' claimed voted p event item := by
  refine ⟨_, by rw [projectLifecycles, hType], ?_⟩
  rw [hClaim, hVote, toList_none, append_nil]
  exact projectTask_simulates hSim item (hCarries.task id hId) hStatus hMove

theorem follows_disputeEnd (hId : event.dispute? = some id)
    (hMove : c.moveDispute id status = some c')
    (hType :
      trajectoryEventBySource event.name = .dispute (disputeStateOf (decide (id ∈ voted)) status))
    (hName : event.name ≠ .disputeInitiated) (hClaim : event.claimed? = none)
    (hVote : event.voted? = none) : Follows host c' claimed voted p event item := by
  rcases projectDispute_simulates hSim hCarries (hCarries.dispute id hId) hMove with
    ⟨p', hOk, hSim'⟩
  refine ⟨p', ?_, ?_⟩
  · rw [projectLifecycles, hType]
    simpa only [if_neg hName] using hOk
  · rwa [hClaim, hVote, toList_none, append_nil, append_nil]

/- One legal event, carried by an input. -/
theorem projectLifecycles_simulates
    (hStep : c.step event = some c') : Follows host c' claimed voted p event item := by
  cases event with
  | taskCreated | dependentTaskCreated | taskClaimed | taskCompleted | taskCancelled =>
    exact follows_taskEvent hSim hCarries rfl (by decide) hStep rfl rfl rfl
  | disputeResolved | disputeExpired | disputeCancelled =>
    exact follows_disputeEnd hSim hCarries rfl hStep rfl (by simp [ChainEvent.name]) rfl rfl
  | disputeVoteCast dispute =>
    have hVote : c.vote dispute = some c' := hStep
    unfold ChainState.vote at hVote
    split at hVote
    · next hActive =>
        cases hVote
        rcases projectVote_simulates hSim hCarries (hCarries.dispute dispute rfl) hActive with
          ⟨p', hOk, hSim'⟩
        refine ⟨p', hOk, ?_⟩
        exact (append_nil claimed).symm ▸ hSim'
    · cases hVote
  | disputeInitiated dispute task =>
    rcases bind_eq_some_iff.mp hStep with ⟨c₁, hTaskMove, hDisputeMove⟩
    have hMoved := projectDisputedTask_simulates hSim item (hCarries.task task rfl) hTaskMove
    -- a dispute that becomes active was not voted on
    have hUnvoted : dispute ∉ voted := by
      apply hMoved.unvoted
      have hAdmits := (moveDispute_eq_some hDisputeMove).1
      revert hAdmits
      cases c₁.disputes.get? dispute with
      | none => intro _; rfl
      | some previous => cases previous <;> decide
    rcases projectDispute_simulates hMoved hCarries
        (hCarries.dispute dispute rfl) hDisputeMove with ⟨p', hOk, hSim'⟩
    rw [decide_eq_false hUnvoted] at hOk
    refine ⟨p', hOk, ?_⟩
    exact (append_nil claimed).symm ▸ (append_nil voted).symm ▸ hSim'

/- One round of the loop on an input that is not dropped. -/
theorem projectItem_simulates
    (hNew : item.fingerprint ∉ p.eventIds) (hStep : c.step event = some c') (index : Nat) :
    ∃ p', projectItem host p (index, item) = .ok p' ∧
        Simulates host c' (claimed ++ event.claimed?.toList) (voted ++ event.voted?.toList) p' ∧
        p'.eventIds = p.eventIds ++ [item.fingerprint] := by
  have hSeen :
      Simulates host c claimed voted { p with eventIds := p.eventIds ++ [item.fingerprint] } :=
    hSim.congr ⟨rfl, rfl, rfl⟩
  rcases projectLifecycles_simulates hSeen hCarries hStep with ⟨followed, hOk, hSim'⟩
  have hName : item.input.eventName ≠ "" := by
    intro hEmpty
    have hKnown := hCarries.name
    rw [OnChainProjectionInput.known?, hEmpty] at hKnown
    cases hKnown
  have hProject : projectItem host p (index, item) = projectKnown host event.name index item p := by
    unfold projectItem
    simp only [hCarries.name, if_neg hName, if_neg (not_lt.mpr hCarries.slot),
      if_neg hCarries.signature, if_neg hNew]
  refine ⟨_, hProject.trans (projectKnown_of_followed hOk), hSim'.congr ⟨rfl, rfl, rfl⟩,
    (projectLifecycles_sameEvents hOk).eventIds⟩

end AgencCore.Eval
