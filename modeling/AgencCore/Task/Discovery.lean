import AgencCore.Foundations.Numbers
import AgencCore.Foundations.Runs

/-
  Task discovery.

  Tasks are found by polling and by events. Both paths skip a task that has been seen and notify the
  listeners of one that passes the filter. A poll checks and marks a task at once; an event is
  checked before the task is fetched, and marked after the reply. A task is notified once exactly if
  no reply comes for a task that has been marked meanwhile.
-/

namespace AgencCore.Task

open Foundations List

section

inductive OnChainTaskStatus where
  | open
  | inProgress
  | pendingValidation
  | completed
  | cancelled
  | disputed
deriving DecidableEq

inductive TaskType where
  | exclusive
  | collaborative
  | competitive
  | bidExclusive
deriving DecidableEq

/- The fields of a task that a filter reads. -/
structure OnChainTask where
  requiredCapabilities : Nat
  constraintHash : List UInt8
  rewardAmount : Nat
  maxWorkers : Nat
  currentWorkers : Nat
  status : OnChainTaskStatus
  taskType : TaskType
  deadline : Int

structure TaskFilterConfig where
  minRewardLamports : Option Nat := none
  maxRewardLamports : Option Nat := none
  taskTypes : Option (List TaskType) := none
  minDeadlineBufferSeconds : Option JsNumber := none
  privateOnly : Bool := false
  publicOnly : Bool := false
  -- a filter of the caller, which can throw
  customFilter : Option (OnChainTask → Except Unit Bool) := none

def hasRequiredCapabilities (agentCapabilities requiredCapabilities : Nat) : Bool :=
  agentCapabilities &&& requiredCapabilities == requiredCapabilities

def manualValidationSentinel : List UInt8 := "agenc-manual-validation-v2-seed!".toUTF8.toList

def hasConstraintHash (task : OnChainTask) : Bool := task.constraintHash.any (fun byte => byte != 0)

def isManualValidationTask (task : OnChainTask) : Bool :=
  task.constraintHash == manualValidationSentinel

def isPrivateTask (task : OnChainTask) : Bool :=
  hasConstraintHash task && !isManualValidationTask task

/- Whether the deadline leaves the time that is asked for. -/
def hasDeadlineBuffer (nowSeconds : Int) (task : OnChainTask)
    (minBuffer : Option JsNumber) : Bool :=
  match minBuffer with
  | none => true
  | some minBuffer =>
    !(JsNumber.lt (.ofInt 0) minBuffer && decide (0 < task.deadline) &&
      JsNumber.lt (.ofInt (task.deadline - nowSeconds)) minBuffer)

/- The checks in their order; the last one can throw. -/
def matchesFilter (nowSeconds : Int) (task : OnChainTask) (agentCapabilities : Nat)
    (filter : TaskFilterConfig) : Except Unit Bool :=
  if task.status ≠ .open ∧ task.status ≠ .inProgress then .ok false
  else if !hasRequiredCapabilities agentCapabilities task.requiredCapabilities then .ok false
  else if task.maxWorkers ≤ task.currentWorkers then .ok false
  else if filter.minRewardLamports.any (fun least => task.rewardAmount < least) then .ok false
  else if filter.maxRewardLamports.any (fun most => most < task.rewardAmount) then .ok false
  else if filter.taskTypes.any (fun types => !types.isEmpty && !types.contains task.taskType) then
    .ok false
  else if !hasDeadlineBuffer nowSeconds task filter.minDeadlineBufferSeconds then .ok false
  else if filter.privateOnly && !isPrivateTask task then .ok false
  else if filter.publicOnly && isPrivateTask task then .ok false
  else
    match filter.customFilter with
    | none => .ok true
    | some customFilter => customFilter task

----------
-- Discovery
----------

inductive TaskDiscoveryMode where
  | poll
  | event
  | hybrid
deriving DecidableEq

structure DiscoveryConfig where
  filter : TaskFilterConfig
  mode : TaskDiscoveryMode

/-
  The polls and fetches are those that have no reply yet. A poll of the timer reads the capabilities
  when its reply comes; a manual poll has its own.
-/
structure TaskDiscovery where
  seenTaskPdas : List String := []
  running : Bool := false
  paused : Bool := false
  hasTimer : Bool := false
  subscriptions : Nat := 0
  agentCapabilities : Nat := 0
  polls : List (Option Nat) := []
  fetches : List String := []

/- A task account and the time at which it is filtered. -/
structure Candidate where
  taskPda : String
  task : OnChainTask
  nowSeconds : Int

inductive DiscoveryEvent where
  | start (agentCapabilities : Nat)
  | stop
  | unsubscribed
  | pause
  | resume
  | pollTick
  | poll (agentCapabilities : Nat)
  | pollReply (i : Nat) (claimable : Option (List Candidate))
  | taskCreated (taskPda : String)
  | fetchReply (i : Nat) (task : Option OnChainTask) (nowSeconds : Int)
  | clearSeen

namespace TaskDiscovery

variable (config : DiscoveryConfig)

/- `seenTaskPdas.add(taskPda)` -/
def markSeen (discovery : TaskDiscovery) (taskPda : String) : TaskDiscovery :=
  { discovery with seenTaskPdas := if taskPda ∈ discovery.seenTaskPdas then discovery.seenTaskPdas
      else discovery.seenTaskPdas ++ [taskPda] }

def executePollCycle (discovery : TaskDiscovery) : TaskDiscovery :=
  if discovery.paused then discovery
  else { discovery with polls := discovery.polls ++ [none] }

/- The loop over the tasks; a filter that throws ends it. -/
def pollCandidates (agentCapabilities : Nat) :
    TaskDiscovery → List Candidate → List String × TaskDiscovery
| discovery, [] => ([], discovery)
| discovery, candidate :: rest =>
  if candidate.taskPda ∈ discovery.seenTaskPdas then pollCandidates agentCapabilities discovery rest
  else
    match matchesFilter candidate.nowSeconds candidate.task agentCapabilities config.filter with
    | .error _ => ([], discovery)
    | .ok false => pollCandidates agentCapabilities discovery rest
    | .ok true =>
      let (later, discovery) :=
        pollCandidates agentCapabilities (discovery.markSeen candidate.taskPda) rest
      (candidate.taskPda :: later, discovery)

/- Whether a task that was fetched passes the filter. -/
def passes (discovery : TaskDiscovery) (task : Option OnChainTask) (nowSeconds : Int) : Bool :=
  match task with
  | none => false
  | some task => match matchesFilter nowSeconds task discovery.agentCapabilities config.filter with
      | .ok true => true
      | _ => false

/- A reply of `fetchTask` to an event. -/
def fetched (discovery : TaskDiscovery) (taskPda : String) (task : Option OnChainTask)
    (nowSeconds : Int) : List String × TaskDiscovery :=
  if discovery.passes config task nowSeconds then ([taskPda], discovery.markSeen taskPda)
  else ([], discovery)

end TaskDiscovery

variable (config : DiscoveryConfig)

open TaskDiscovery

/- The tasks that an event is passed on for, and the state. -/
def discoveryStep (discovery : TaskDiscovery) : DiscoveryEvent → List String × TaskDiscovery
| .start agentCapabilities => if discovery.running then ([], discovery)
    else let started := { discovery with running := true, agentCapabilities := agentCapabilities }
      let polling := if config.mode = .event then started
        else { started.executePollCycle with hasTimer := true }
      ([], if config.mode = .poll then polling
        else { polling with subscriptions := polling.subscriptions + 1 })
| .stop =>
  if discovery.running then
    ([], { discovery with running := false, paused := false, hasTimer := false })
  else ([], discovery)
| .unsubscribed => ([], { discovery with subscriptions := discovery.subscriptions - 1 })
| .pause => ([], { discovery with paused := discovery.paused || discovery.running })
| .resume => ([], { discovery with paused := false })
| .pollTick => if discovery.hasTimer then ([], discovery.executePollCycle)
    else ([], discovery)
| .poll agentCapabilities =>
  ([], { discovery with polls := discovery.polls ++ [some agentCapabilities] })
| .pollReply i claimable =>
  match discovery.polls[i]? with
  | none => ([], discovery)
  | some capabilities =>
    pollCandidates config (capabilities.getD discovery.agentCapabilities)
      { discovery with polls := discovery.polls.eraseIdx i } (claimable.getD [])
| .taskCreated taskPda =>
  if discovery.subscriptions = 0 ∨ discovery.paused ∨ taskPda ∈ discovery.seenTaskPdas then
    ([], discovery)
  else ([], { discovery with fetches := discovery.fetches ++ [taskPda] })
| .fetchReply i task nowSeconds =>
  match discovery.fetches[i]? with
  | none => ([], discovery)
  | some taskPda =>
    fetched config { discovery with fetches := discovery.fetches.eraseIdx i }
      taskPda task nowSeconds
| .clearSeen => ([], { discovery with seenTaskPdas := [] })

----------
-- Notifications
----------

open TaskDiscovery

/- The tasks notified up to the next `clearSeen`, and later. -/
def epochs (discovery : TaskDiscovery) : List DiscoveryEvent → List String × List (List String)
| [] => ([], [])
| event :: rest =>
  let (notified, next) := discoveryStep config discovery event
  let (current, later) := epochs next rest
  match event with
  | .clearSeen => ([], current :: later)
  | _ => (notified ++ current, later)

/- Between two calls of `clearSeen`, no task comes twice. -/
def NotifiedOnce (discovery : TaskDiscovery) (events : List DiscoveryEvent) : Prop :=
  (epochs config discovery events).1.Nodup ∧
    ∀ epoch ∈ (epochs config discovery events).2, epoch.Nodup

/- A task that is passed on after its fetch has not been marked as seen in the meantime. -/
def FreshReply (discovery : TaskDiscovery) : DiscoveryEvent → Prop
| .fetchReply i task nowSeconds =>
  ∀ taskPda ∈ discovery.fetches[i]?, discovery.passes config task nowSeconds = true →
    taskPda ∉ discovery.seenTaskPdas
| _ => True

/- What a poll passes on is new, and is marked. -/
theorem pollCandidates_seen (agentCapabilities : Nat) (discovery : TaskDiscovery)
    (candidates : List Candidate) :
    (pollCandidates config agentCapabilities discovery candidates).2.seenTaskPdas =
      discovery.seenTaskPdas ++ (pollCandidates config agentCapabilities discovery candidates).1 ∧
    (discovery.seenTaskPdas.Nodup →
      (discovery.seenTaskPdas ++
        (pollCandidates config agentCapabilities discovery candidates).1).Nodup) := by
  induction candidates generalizing discovery with
  | nil => simp [pollCandidates]
  | cons candidate rest ih =>
    unfold pollCandidates
    split
    · exact ih discovery
    · next hNew =>
        split
        · simp
        · exact ih discovery
        · dsimp only
          have hMarked : (discovery.markSeen
              candidate.taskPda).seenTaskPdas =
                discovery.seenTaskPdas ++ [candidate.taskPda] := by simp [markSeen, hNew]
          rcases ih (discovery.markSeen candidate.taskPda) with ⟨hSeen, hNodup⟩
          rw [hMarked, append_assoc] at hSeen hNodup
          exact ⟨hSeen, fun hBefore => hNodup (by simpa using hBefore.concat hNew)⟩

variable {discovery : TaskDiscovery}

/- A new task that is passed on is marked. -/
theorem fetched_seen {taskPda : String} {task : Option OnChainTask}
    {nowSeconds : Int}
    (hFresh : discovery.passes config task nowSeconds = true → taskPda ∉ discovery.seenTaskPdas) :
    (fetched config discovery taskPda task nowSeconds).2.seenTaskPdas =
      discovery.seenTaskPdas ++ (fetched config discovery taskPda task nowSeconds).1 ∧
    (discovery.seenTaskPdas.Nodup →
      (discovery.seenTaskPdas ++ (fetched config discovery taskPda task nowSeconds).1).Nodup) := by
  unfold fetched
  split
  · next hPasses =>
      have hNew := hFresh hPasses
      exact ⟨by simp [markSeen, hNew], fun hBefore => by simpa using hBefore.concat hNew⟩
  · simp

variable {event : DiscoveryEvent}

/- Steps that are no cause for a second notification. -/
theorem step_seen (hKeeps : event ≠ .clearSeen)
    (hFresh : FreshReply config discovery event) :
    (discoveryStep config discovery event).2.seenTaskPdas =
      discovery.seenTaskPdas ++ (discoveryStep config discovery event).1 ∧
    (discovery.seenTaskPdas.Nodup →
      (discovery.seenTaskPdas ++ (discoveryStep config discovery event).1).Nodup) := by
  cases event with
  | clearSeen => exact (hKeeps rfl).elim
  | pollReply i claimable =>
    unfold discoveryStep
    dsimp only
    split
    · simp
    · exact pollCandidates_seen config _ _ _
  | fetchReply i task nowSeconds =>
    unfold discoveryStep
    dsimp only
    split
    · simp
    · next taskPda hGet => exact fetched_seen config (hFresh taskPda (Option.mem_def.mpr hGet))
  | start agentCapabilities =>
    unfold discoveryStep executePollCycle
    dsimp only
    split
    · simp
    · split <;> split <;> simp <;> split <;> rfl
  | pollTick =>
    unfold discoveryStep executePollCycle
    dsimp only
    split
    · split <;> simp
    · simp
  | stop | taskCreated =>
    unfold discoveryStep
    dsimp only
    split <;> simp
  | _ => simp [discoveryStep]

/- A stale reply passes on a task that has been seen. -/
theorem step_stale
    (hStale : ¬ FreshReply config discovery event) :
    ∃ taskPda ∈ discovery.seenTaskPdas, (discoveryStep config discovery event).1 = [taskPda] := by
  cases event with
  | fetchReply i task nowSeconds =>
    unfold FreshReply at hStale
    push Not at hStale
    rcases hStale with ⟨taskPda, hGet, hPasses, hSeen⟩
    refine ⟨taskPda, hSeen, ?_⟩
    unfold discoveryStep
    simp only [Option.mem_def.mp hGet]
    exact congrArg Prod.fst (if_pos hPasses)
  | _ => exact (hStale trivial).elim

/- The epochs of a run from a state that has seen tasks. -/
theorem epochs_nodup_iff (hSeen : discovery.seenTaskPdas.Nodup)
    (events : List DiscoveryEvent) :
    ((discovery.seenTaskPdas ++ (epochs config discovery events).1).Nodup ∧
        ∀ epoch ∈ (epochs config discovery events).2, epoch.Nodup) ↔
      AlongRun (fun discovery event => (discoveryStep config discovery event).2)
        (FreshReply config) discovery events := by
  induction events generalizing discovery with
  | nil => simpa [epochs, AlongRun] using hSeen
  | cons event rest ih =>
    by_cases hClear : event = .clearSeen
    · subst hClear
      have hNil : (discoveryStep config discovery .clearSeen).2.seenTaskPdas.Nodup := nodup_nil
      have hFresh : FreshReply config discovery .clearSeen := trivial
      rw [AlongRun, ← ih hNil, and_iff_right hFresh]
      change (discovery.seenTaskPdas ++ []).Nodup ∧
        (∀ epoch ∈ (epochs config _ rest).1 :: (epochs config _ rest).2, epoch.Nodup) ↔ _
      rw [append_nil, and_iff_right hSeen, forall_mem_cons]
      exact Iff.rfl
    · have hEpochs : epochs config discovery
          (event :: rest) =
            ((discoveryStep config discovery event).1 ++
              (epochs config (discoveryStep config discovery event).2 rest).1,
              (epochs config (discoveryStep config discovery event).2 rest).2) := by
        cases event with
        | clearSeen => exact (hClear rfl).elim
        | _ => rfl
      rw [hEpochs]
      unfold AlongRun
      dsimp only
      by_cases hFresh : FreshReply config discovery event
      · rcases step_seen config hClear hFresh with ⟨hNext, hNodup⟩
        have hRest := ih (hNext ▸ hNodup hSeen)
        rw [← hRest, hNext, append_assoc]
        exact (and_iff_right hFresh).symm
      · rcases step_stale config hFresh with ⟨taskPda, hMem, hPassed⟩
        refine iff_of_false ?_ (fun hAlong => hFresh hAlong.1)
        rintro ⟨hNodup, _⟩
        rw [hPassed, nodup_append] at hNodup
        exact hNodup.2.2 taskPda hMem taskPda (by simp) rfl

/- Every task is notified once between two `clearSeen` calls exactly if no reply is stale. -/
theorem notified_once_iff (events : List DiscoveryEvent) : NotifiedOnce config {} events ↔
      AlongRun (fun discovery event => (discoveryStep config discovery event).2)
        (FreshReply config) {} events := by
  rw [← epochs_nodup_iff config nodup_nil]
  rfl

/- A task that anyone can take. -/
def openTask : OnChainTask :=
  { requiredCapabilities := 0, constraintHash := [], rewardAmount := 1, maxWorkers := 1
    currentWorkers := 0, status := .open, taskType := .exclusive, deadline := 0 }

/- A poll finds the task while its event is being fetched. -/
theorem poll_overtakes_event : ¬ NotifiedOnce { filter := {}, mode := .hybrid } {}
      [.start 0, .taskCreated "task", .pollReply 0 (some [⟨"task", openTask, 0⟩]),
        .fetchReply 0 (some openTask) 0] := by
  unfold NotifiedOnce
  decide +kernel

end

end AgencCore.Task
