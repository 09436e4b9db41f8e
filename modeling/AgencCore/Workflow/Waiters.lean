import AgencCore.Foundations.Runs
import AgencCore.Workflow.Absorbing

/-
  Waiting for the end of a workflow.

  A caller of `waitForTerminal` gets a promise. The monitor keeps one pair of functions and one
  timer handle for each workflow, and every caller writes over them. The promises are named here by
  the order of the calls that made them.

  `IdealWaiters` answers each caller on its own. The monitor does the same in a run exactly when,
  each time the workflow is decided, every caller that still waits is the one whose function the
  monitor holds.
-/

namespace AgencCore.Workflow

open Foundations List

inductive Promise where
  | pending
  | resolved
  | rejected
deriving DecidableEq

/- Only the first answer to a promise counts. -/
def Promise.answer (answer : Promise) : Promise → Promise
| .pending => answer
| settled => settled

/- Whether a call of `waitForTerminal` starts a timer. -/
def startsTimer (timeoutMs : Option JsNumber) : Bool := timeoutMs.any (fun ms => JsNumber.lt 0 ms)

/-
  The promises in the order they were returned, the promise whose functions are stored, the stored
  timer, and the timers that may still fire. A timer has the number of the promise it rejects.
-/
structure Waiters where
  monitor : MonitorState
  promises : List Promise
  resolveTerminal : Option Nat
  timeoutHandle : Option Nat
  timers : List Nat

namespace Waiters

/- Nobody has waited yet. -/
def start (monitor : MonitorState) : Waiters :=
  { monitor := monitor, promises := [], resolveTerminal := none, timeoutHandle := none
    timers := [] }

def isTerminal (w : Waiters) : Bool := w.monitor.workflow.status.isTerminal

def waitForTerminal (w : Waiters) (timeoutMs : Option JsNumber) : Waiters :=
  if w.isTerminal then { w with promises := w.promises ++ [.resolved] }
  else
    let waiter := w.promises.length
    let waiting : Waiters :=
      { w with promises := w.promises ++ [.pending], resolveTerminal := some waiter }
    if startsTimer timeoutMs then
      { waiting with timeoutHandle := some waiter, timers := w.timers ++ [waiter] }
    else waiting

/- The callback of a timer that was not cleared. -/
def timeout (w : Waiters) (waiter : Nat) : Waiters :=
  if waiter ∈ w.timers then
    { w with
      resolveTerminal := none, promises := w.promises.modify waiter (Promise.answer .rejected)
      timers := w.timers.filter (fun t => t ≠ waiter) }
  else w

def resolveWorkflow (w : Waiters) : Waiters :=
  { w with
    timeoutHandle := none, timers := w.timers.filter (fun t => w.timeoutHandle ≠ some t)
    promises :=
      match w.resolveTerminal with
      | none => w.promises
      | some waiter => w.promises.modify waiter (Promise.answer .resolved)
    resolveTerminal := none }

/- Whether the check after this input decides the workflow. -/
def decides (w : Waiters) (input : MonitorInput) : Bool :=
  w.monitor.workflow.workflowCalls.length < (w.monitor.step input).workflow.workflowCalls.length

end Waiters

inductive WaiterEvent where
  | input (input : MonitorInput)
  | wait (timeoutMs : Option JsNumber)
  | timeout (waiter : Nat)
deriving DecidableEq

namespace Waiters

def step (w : Waiters) : WaiterEvent → Waiters
| .input input =>
  let next := { w with monitor := w.monitor.step input }
  if w.decides input then next.resolveWorkflow
  else next
| .wait timeoutMs => w.waitForTerminal timeoutMs
| .timeout waiter => w.timeout waiter

end Waiters

/-
  Every waiter has its own timer: it is rejected when that timer fires while it waits, and everyone
  who still waits is resolved as soon as the workflow is terminal.
-/
structure IdealWaiters where
  monitor : MonitorState
  promises : List Promise
  timed : List Nat

namespace IdealWaiters

def start (monitor : MonitorState) : IdealWaiters :=
  { monitor := monitor, promises := [], timed := [] }

def isTerminal (w : IdealWaiters) : Bool := w.monitor.workflow.status.isTerminal

/- Answer everyone once the workflow is terminal. -/
def announce (w : IdealWaiters) : IdealWaiters :=
  if w.isTerminal then { w with promises := w.promises.map (Promise.answer .resolved) }
  else w

def step (w : IdealWaiters) : WaiterEvent → IdealWaiters
| .input input => announce { w with monitor := w.monitor.step input }
| .wait timeoutMs =>
  announce
    { w with
      promises := w.promises ++ [.pending]
      timed := w.timed ++ if startsTimer timeoutMs then [w.promises.length]
        else [] }
| .timeout waiter =>
  if waiter ∈ w.timed then
    { w with promises := w.promises.modify waiter (Promise.answer .rejected) }
  else w

theorem announce_of_terminal {w : IdealWaiters} (hTerm : w.isTerminal = true) :
    w.announce = { w with promises := w.promises.map (Promise.answer .resolved) } := by
  unfold announce
  rw [if_pos hTerm]

theorem announce_of_open {w : IdealWaiters} (hOpen : w.isTerminal = false) : w.announce = w := by
  unfold announce
  rw [hOpen]
  rfl

end IdealWaiters

----------
-- Deciding Inputs
----------

/- A workflow that was left undecided, or that was decided with one more workflow-level call. -/
def DecidedOnce (w w' : MonitoredWorkflow) : Prop :=
  (w'.status = w.status ∧ w'.workflowCalls = w.workflowCalls) ∨
    (w'.status.isTerminal = true ∧ w'.workflowCalls.length = w.workflowCalls.length + 1)

theorem checkTerminalState_decidedOnce (now : Int) {w w' : MonitoredWorkflow}
    (hStatus : w'.status = w.status) (hCalls : w'.workflowCalls = w.workflowCalls) :
    DecidedOnce w (checkTerminalState now w') := by
  rcases checkTerminalState_cases now w' with hEq | ⟨_, status, call, hTerm, hLevel, hEq⟩
  · rw [hEq]
    exact .inl ⟨hStatus, hCalls⟩
  · rw [hEq]
    refine .inr ⟨hTerm, ?_⟩
    rw [← hCalls]
    simp [MonitoredWorkflow.workflowCalls, MonitoredWorkflow.settle, hLevel]

/- A node-level call is not a workflow-level one. -/
theorem update_workflowCalls (w : MonitoredWorkflow) (name : String) (node : WorkflowNode)
    {call : WorkflowCall} (hLevel : call.isWorkflowLevel = false) :
    (w.update name node call).workflowCalls = w.workflowCalls := by
  simp [MonitoredWorkflow.workflowCalls, MonitoredWorkflow.update, hLevel]

theorem handleNodeCompleted_decidedOnce (now : Int) (w : MonitoredWorkflow) (name : String) :
    DecidedOnce w (handleNodeCompleted now w name) := by
  unfold handleNodeCompleted
  split
  · exact .inl ⟨rfl, rfl⟩
  · split
    · exact .inl ⟨rfl, rfl⟩
    · refine checkTerminalState_decidedOnce now ?_ ?_
      · rfl
      · exact update_workflowCalls w name _ rfl

theorem handleNodeFailed_decidedOnce (now : Int) (w : MonitoredWorkflow) (name error : String) :
    DecidedOnce w (handleNodeFailed now w name error) := by
  unfold handleNodeFailed
  split
  · exact .inl ⟨rfl, rfl⟩
  · next node hGet =>
      split
      · exact .inl ⟨rfl, rfl⟩
      · dsimp only
        split
        · have hKeeps := cascade_keepsTerminal
            (w.update name { node with
                status := .failed, error := some error } (.nodeFailed name error)) name
          exact checkTerminalState_decidedOnce now hKeeps.status
            (hKeeps.workflowCalls.trans (update_workflowCalls w name _ rfl))
        · refine checkTerminalState_decidedOnce now ?_ ?_
          · rfl
          · exact update_workflowCalls w name _ rfl

/- One input decides the workflow at most once. -/
theorem MonitorState.step_decidedOnce (m : MonitorState) (input : MonitorInput) :
    DecidedOnce m.workflow (m.step input).workflow := by
  rcases m.step_workflow input with ⟨now, hStep⟩
  rw [hStep]
  match m.report input with
  | none => exact .inl ⟨rfl, rfl⟩
  | some (name, .completed) => exact handleNodeCompleted_decidedOnce now _ name
  | some (name, .failed error) => exact handleNodeFailed_decidedOnce now _ name error

namespace Waiters

variable {w : Waiters}
variable {input : MonitorInput}

theorem isTerminal_of_decides (hDecides : w.decides input = true) :
    (w.monitor.step input).workflow.status.isTerminal = true := by
  rcases w.monitor.step_decidedOnce input with ⟨_, hCalls⟩ | ⟨hTerm, _⟩
  · simp [decides, hCalls] at hDecides
  · exact hTerm

theorem isTerminal_of_not_decides (hDecides : w.decides input = false)
    (hTerm : (w.monitor.step input).workflow.status.isTerminal = true) : w.isTerminal = true := by
  rcases w.monitor.step_decidedOnce input with ⟨hStatus, _⟩ | ⟨_, hCalls⟩
  · rw [hStatus] at hTerm
    exact hTerm
  · simp [decides, hCalls] at hDecides

end Waiters

----------
-- Agreement
----------

/- Everyone who waits is in the place the monitor keeps. -/
def Waiters.HeldWaiting (w : Waiters) : Prop :=
  ∀ waiter : Nat, w.promises[waiter]? = some .pending → w.resolveTerminal = some waiter

/-
  An input after which the workflow is terminal finds everyone who waits in the place the monitor
  keeps.
-/
def Waiters.HoldsEveryWaiter (w : Waiters) : WaiterEvent → Prop
| .input input => (w.monitor.step input).workflow.status.isTerminal = true → w.HeldWaiting
| _ => True

/-
  The monitor and the ideal have given the same answers, and whoever waits with a timeout has a
  timer that may fire.
-/
structure Waiters.Matches (w : Waiters) (ideal : IdealWaiters) : Prop where
  monitor : ideal.monitor = w.monitor
  promises : ideal.promises = w.promises
  timers : ∀ waiter ∈ w.timers, waiter ∈ ideal.timed
  waiting : ∀ waiter ∈ ideal.timed, w.promises[waiter]? = some .pending → waiter ∈ w.timers
  timed : ∀ waiter ∈ ideal.timed, waiter < w.promises.length
  answered : w.isTerminal = true → .pending ∉ w.promises

namespace Waiters

theorem answer_resolved (p : Promise) : p ≠ .pending → Promise.answer .resolved p = p := by
  intro hSettled
  cases p with
  | pending => exact absurd rfl hSettled
  | resolved | rejected => rfl

/- Nobody waits after everyone was resolved. -/
theorem pending_not_mem_resolved (promises : List Promise) :
    .pending ∉ promises.map (Promise.answer .resolved) := by
  intro hMem
  rcases List.mem_map.mp hMem with ⟨p, _, hAnswer⟩
  cases p <;> cases hAnswer

/- Resolving everyone changes nothing if nobody waits. -/
theorem map_resolved_of_settled {promises : List Promise} (hSettled : .pending ∉ promises) :
    promises.map (Promise.answer .resolved) = promises := by
  conv_rhs => rw [← List.map_id promises]
  apply map_congr_left
  intro p hMem
  exact answer_resolved p (fun hPending => hSettled (hPending ▸ hMem))

/- What the monitor resolves, promise by promise. -/
theorem resolveWorkflow_promises (w : Waiters) (waiter : Nat) :
    w.resolveWorkflow.promises[waiter]? =
      if w.resolveTerminal = some waiter then w.promises[waiter]?.map (Promise.answer .resolved)
      else w.promises[waiter]? := by
  unfold resolveWorkflow
  cases hSlot : w.resolveTerminal with
  | none => simp
  | some held =>
    simp only [Option.some.injEq]
    rw [getElem?_modify]
    split
    · rfl
    · simp

/- If the place is held by whoever waits, all are resolved. -/
theorem resolveWorkflow_promises_of_held {w : Waiters} (hHeld : w.HeldWaiting) :
    w.resolveWorkflow.promises = w.promises.map (Promise.answer .resolved) := by
  apply ext_getElem?
  intro waiter
  rw [resolveWorkflow_promises, getElem?_map]
  split
  · rfl
  · next hOther => cases hGet : w.promises[waiter]? with
      | none => rfl
      | some p =>
        rw [Option.map_some, answer_resolved p]
        intro hPending
        exact hOther (hHeld waiter (hPending ▸ hGet))

----------
-- One Event
----------

variable {w : Waiters}
variable {ideal : IdealWaiters}
variable {promises : List Promise}
variable {waiter : Nat}

/- A settled promise ignores a timer. -/
theorem modify_rejected_of_settled
    (hSettled : promises[waiter]? ≠ some .pending) :
    promises.modify waiter (Promise.answer .rejected) = promises := by
  apply ext_getElem?
  intro other
  rw [getElem?_modify]
  cases hGet : promises[other]? with
  | none => rfl
  | some p =>
    rw [Option.map_eq_map, Option.map_some]
    split
    · next hSame =>
        subst hSame
        cases p with
        | pending => exact absurd hGet hSettled
        | resolved | rejected => rfl
    · rfl

/- A timer leaves nobody waiting who did not wait before. -/
theorem pending_modify_rejected {other : Nat}
    (hPending : (promises.modify waiter (Promise.answer .rejected))[other]? = some .pending) :
    other ≠ waiter ∧ promises[other]? = some .pending := by
  rw [getElem?_modify] at hPending
  cases hGet : promises[other]? with
  | none => simp [hGet] at hPending
  | some p =>
    simp only [hGet, Option.map_eq_map, Option.map_some, Option.some.injEq] at hPending
    split at hPending
    · cases p <;> cases hPending
    · next hOther => exact ⟨fun hSame => hOther hSame.symm, congrArg some hPending⟩

/- The timer of a new waiter has its number. -/
theorem timed_lt {timed : List Nat}
    (hTimed : ∀ waiter ∈ timed, waiter < promises.length) (timeoutMs : Option JsNumber)
    (p : Promise) : ∀ waiter ∈ timed ++ (if startsTimer timeoutMs then [promises.length]
        else []), waiter < (promises ++ [p]).length := by
  intro waiter hMem
  rw [length_append, length_singleton]
  rcases List.mem_append.mp hMem with hOld | hNew
  · exact Nat.lt_succ_of_lt (hTimed waiter hOld)
  · split at hNew
    · rw [List.mem_singleton.mp hNew]
      exact Nat.lt_succ_self _
    · cases hNew

theorem Matches.waitForTerminal (hMatches : w.Matches ideal) (timeoutMs : Option JsNumber) :
    (w.step (.wait timeoutMs)).Matches (ideal.step (.wait timeoutMs)) := by
  rcases ideal with ⟨monitor, promises, timed⟩
  rcases hMatches with ⟨rfl, rfl, hTimers, hWaiting, hTimed, hAnswered⟩
  cases hTerm : w.isTerminal with
  | true =>
    have hResolved : (w.promises ++ [Promise.pending]).map (Promise.answer .resolved) =
          w.promises ++ [Promise.resolved] := by
      rw [map_append, map_resolved_of_settled (hAnswered hTerm)]
      rfl
    have hNone : .pending ∉ w.promises ++ [Promise.resolved] := by
      rw [← hResolved]
      exact pending_not_mem_resolved _
    have hStep : w.step (.wait timeoutMs) = { w with promises := w.promises ++ [.resolved] } := by
      simp only [step, Waiters.waitForTerminal, hTerm, if_true]
    rw [hStep, IdealWaiters.step, IdealWaiters.announce_of_terminal]
    swap
    · exact hTerm
    refine ⟨rfl, hResolved, ?_, ?_, ?_, fun _ => hNone⟩
    · intro waiter hMem
      exact mem_append_left _ (hTimers waiter hMem)
    · intro waiter _ hPending
      exact absurd (mem_of_getElem? hPending) hNone
    · exact timed_lt hTimed timeoutMs .resolved
  | false =>
    have hStep : w.step (.wait timeoutMs) =
          { w with
            promises := w.promises ++ [.pending], resolveTerminal := some w.promises.length
            timeoutHandle := if startsTimer timeoutMs then some w.promises.length
              else w.timeoutHandle
            timers := w.timers ++ if startsTimer timeoutMs then [w.promises.length]
              else [] } := by
      simp only [step, Waiters.waitForTerminal, hTerm]
      cases startsTimer timeoutMs <;> simp
    rw [hStep, IdealWaiters.step, IdealWaiters.announce_of_open]
    swap
    · exact hTerm
    refine ⟨rfl, rfl, ?_, ?_, ?_, ?_⟩
    · intro waiter hMem
      rcases List.mem_append.mp hMem with hOld | hNew
      · exact mem_append_left _ (hTimers waiter hOld)
      · exact mem_append_right _ hNew
    · intro waiter hMem hPending
      rcases List.mem_append.mp hMem with hOld | hNew
      · rw [getElem?_append_left (hTimed waiter hOld)] at hPending
        exact mem_append_left _ (hWaiting waiter hOld hPending)
      · exact mem_append_right _ hNew
    · exact timed_lt hTimed timeoutMs .pending
    · intro hNow
      cases hTerm.symm.trans hNow

theorem Matches.timeout (hMatches : w.Matches ideal) (waiter : Nat) :
    (w.step (.timeout waiter)).Matches (ideal.step (.timeout waiter)) := by
  rcases ideal with ⟨monitor, promises, timed⟩
  rcases hMatches with ⟨rfl, rfl, hTimers, hWaiting, hTimed, hAnswered⟩
  simp only [step, IdealWaiters.step, Waiters.timeout]
  by_cases hRunning : waiter ∈ w.timers
  · rw [if_pos hRunning, if_pos (hTimers waiter hRunning)]
    refine ⟨rfl, rfl, ?_, ?_, ?_, ?_⟩
    · intro other hMem
      exact hTimers other (List.mem_filter.mp hMem).1
    · intro other hMem hPending
      rcases pending_modify_rejected hPending with ⟨hOther, hBefore⟩
      exact List.mem_filter.mpr ⟨hWaiting other hMem hBefore, by simp [hOther]⟩
    · intro other hMem
      rw [length_modify]
      exact hTimed other hMem
    · intro hTerm hMem
      rcases getElem?_of_mem hMem with ⟨other, hGet⟩
      exact hAnswered hTerm (mem_of_getElem? (pending_modify_rejected hGet).2)
  · rw [if_neg hRunning]
    split
    · next hOwn =>
        -- The timer was cleared after the answer.
        rw [modify_rejected_of_settled (fun hPending => hRunning (hWaiting waiter hOwn hPending))]
        exact ⟨rfl, rfl, hTimers, hWaiting, hTimed, hAnswered⟩
    · exact ⟨rfl, rfl, hTimers, hWaiting, hTimed, hAnswered⟩

theorem step_input_monitor (w : Waiters) (input : MonitorInput) :
    (w.step (.input input)).monitor = w.monitor.step input := by
  rw [step]
  split <;> rfl

theorem step_input_timers {input : MonitorInput}
    (hMem : waiter ∈ (w.step (.input input)).timers) : waiter ∈ w.timers := by
  rw [step] at hMem
  split at hMem
  · exact (List.mem_filter.mp hMem).1
  · exact hMem

theorem Matches.input (hMatches : w.Matches ideal) {input : MonitorInput}
    (hHolds : w.HoldsEveryWaiter (.input input)) :
    (w.step (.input input)).Matches (ideal.step (.input input)) := by
  rcases ideal with ⟨monitor, promises, timed⟩
  rcases hMatches with ⟨rfl, rfl, hTimers, hWaiting, hTimed, hAnswered⟩
  cases hTerm : (w.monitor.step input).workflow.status.isTerminal with
  | false =>
    have hDecides : w.decides input = false := by
      cases hDecides : w.decides input with
      | false => rfl
      | true => cases hTerm.symm.trans (isTerminal_of_decides hDecides)
    rw [IdealWaiters.step, IdealWaiters.announce_of_open, step, hDecides]
    swap
    · exact hTerm
    refine ⟨rfl, rfl, hTimers, hWaiting, hTimed, ?_⟩
    intro hNow
    cases hTerm.symm.trans hNow
  | true =>
    have hStep : (w.step (.input input)).promises = w.promises.map (Promise.answer .resolved) := by
      rw [step]
      split
      · exact resolveWorkflow_promises_of_held (hHolds hTerm)
      · next hDecides =>
          exact (map_resolved_of_settled
            (hAnswered (isTerminal_of_not_decides (Bool.not_eq_true _ ▸ hDecides) hTerm))).symm
    rw [IdealWaiters.step, IdealWaiters.announce_of_terminal]
    swap
    · exact hTerm
    refine ⟨(step_input_monitor w input).symm, hStep.symm, ?_, ?_, ?_, ?_⟩
    · intro waiter hMem
      exact hTimers waiter (step_input_timers hMem)
    · intro waiter _ hPending
      rw [hStep] at hPending
      exact absurd (mem_of_getElem? hPending) (pending_not_mem_resolved _)
    · intro waiter hMem
      rw [hStep, length_map]
      exact hTimed waiter hMem
    · intro _
      rw [hStep]
      exact pending_not_mem_resolved _

----------
-- Runs
----------

variable {event : WaiterEvent}

theorem Matches.step (hMatches : w.Matches ideal)
    (hHolds : w.HoldsEveryWaiter event) : (w.step event).Matches (ideal.step event) := by
  cases event with
  | input input => exact hMatches.input hHolds
  | wait timeoutMs => exact hMatches.waitForTerminal timeoutMs
  | timeout waiter => exact hMatches.timeout waiter

/- A waiter whose place was taken is not resolved. -/
theorem pending_after_input (input : MonitorInput) {waiter : Nat}
    (hPending : w.promises[waiter]? = some .pending) (hTaken : w.resolveTerminal ≠ some waiter) :
    (w.step (.input input)).promises[waiter]? = some .pending := by
  rw [step]
  split
  · rw [resolveWorkflow_promises, if_neg hTaken]
    exact hPending
  · exact hPending

/- Right answers to an event need the place to be held. -/
theorem Matches.holdsEveryWaiter (hMatches : w.Matches ideal)
    (hSame : (w.step event).promises = (ideal.step event).promises) : w.HoldsEveryWaiter event := by
  cases event with
  | wait | timeout => trivial
  | input input =>
    intro hTerm waiter hPending
    by_contra hTaken
    have hStays := pending_after_input input hPending hTaken
    rw [hSame, IdealWaiters.step, IdealWaiters.announce_of_terminal] at hStays
    · exact pending_not_mem_resolved _ (mem_of_getElem? hStays)
    · show ((ideal.monitor.step input).workflow.status).isTerminal = true
      rw [hMatches.monitor]
      exact hTerm

/-
  After every part of a run each promise is as the ideal leaves it: rejected by its own timer if
  that came first, otherwise resolved once the workflow is terminal.
-/
def Answers (w : Waiters) (ideal : IdealWaiters) (events : List WaiterEvent) : Prop :=
  ∀ n, (runSteps step w (events.take n)).promises =
      (runSteps IdealWaiters.step ideal (events.take n)).promises

theorem Matches.answers_iff (hMatches : w.Matches ideal) (events : List WaiterEvent) :
    w.Answers ideal events ↔ AlongRun Waiters.step HoldsEveryWaiter w events := by
  induction events generalizing w ideal with
  | nil =>
    refine ⟨fun _ => trivial, fun _ n => ?_⟩
    rw [take_nil]
    exact hMatches.promises.symm
  | cons event rest ih =>
    constructor
    · intro hAnswers
      have hHolds := hMatches.holdsEveryWaiter (hAnswers 1)
      exact ⟨hHolds, (ih (hMatches.step hHolds)).mp (fun n => hAnswers (n + 1))⟩
    · rintro ⟨hHolds, hRest⟩ n
      cases n with
      | zero => exact hMatches.promises.symm
      | succ n => exact (ih (hMatches.step hHolds)).mpr hRest n

theorem start_matches (monitor : MonitorState) : (start monitor).Matches (.start monitor) :=
  ⟨rfl, rfl, forall_mem_nil _, forall_mem_nil _, forall_mem_nil _, fun _ => not_mem_nil⟩

end Waiters

/-
  In a run of any monitored workflow, every promise is answered as it should be exactly when the
  workflow never becomes terminal while someone waits whose place in the monitor was taken or
  cleared by another waiter.
-/
theorem waiters_answered_iff (monitor : MonitorState) (events : List WaiterEvent) :
    (Waiters.start monitor).Answers (.start monitor) events ↔
      AlongRun Waiters.step Waiters.HoldsEveryWaiter (.start monitor) events :=
  (Waiters.start_matches monitor).answers_iff events

/-
  Two callers wait, without timeouts, for a workflow that then fails. The second has taken the place
  of the first, whose promise stays pending although the workflow is terminal.
-/
theorem first_waiter_forgotten :
    let events : List WaiterEvent := [.wait none, .wait none, .input (.taskCancelled "id-build" 1)]
    let after := runSteps Waiters.step (.start sampleWorkflow.monitor) events
    after.isTerminal = true ∧ after.promises = [.pending, .resolved] ∧
      ¬(Waiters.start sampleWorkflow.monitor).Answers (.start sampleWorkflow.monitor) events := by
  refine ⟨by decide +kernel, by decide +kernel, ?_⟩
  intro hAnswers
  exact absurd (hAnswers 3) (by decide +kernel)

end AgencCore.Workflow
