import AgencCore.Foundations.Runs
import AgencCore.Gateway.RunStore

/-
  The bus that wakes a session when an event is due.

  A call of the bus reads and writes the wake queue of the session, clears the timer of the session
  and sets a new one for the first event. A timer that fires, and an event that is due at once, ask
  for a dispatch. A dispatch calls `onWakeReady` from a microtask. As long as one is wanted or
  running, further requests are dropped.

  The bus is described for one session, since its maps have one entry for each. Every access of the
  store and every continuation is a step of its own. A timer may fire at any time, and a dispatch
  comes to an end at some time.
-/

namespace AgencCore.Gateway

open Foundations List

/-
  A call in flight, by what it does next. A call of `enqueue` that may dispatch carries its event to
  the end.
-/
inductive BusCall where
  | enqueuing (params : EnqueueWakeEventParams) (createdAt : JsNumber) (dispatchReady : Bool)
  | draining (now : JsNumber)
  | counting (event : Option WakeEvent)
  | counted (queuedCount : Nat) (event : Option WakeEvent)
  | arming (event : Option WakeEvent)
  | armed (nextAvailableAt : Option JsNumber) (event : Option WakeEvent)
  | finishing (event : WakeEvent)
deriving DecidableEq

structure WakeTimer where
  id : Nat
  delayMs : JsNumber
deriving DecidableEq

/-
  The bus with the store of the session, the calls in flight and the timers that are armed. Of the
  dispatches, some are still microtasks and some are running. The events that were enqueued since
  `onWakeReady` was called last are kept too.
-/
structure BusState where
  store : SessionStore
  calls : List BusCall
  timers : List WakeTimer
  nextTimer : Nat
  sessionTimer : Option Nat
  queuedCount : Option Nat
  nextAvailability : Option (Option JsNumber)
  ready : Bool
  microtasks : Nat
  running : Nat
  unannounced : List WakeId
deriving DecidableEq

inductive BusStep where
  | enqueue (params : EnqueueWakeEventParams) (clock : JsNumber) (dispatchReady : Option Bool)
  | drain (now : JsNumber)
  | recover
  | clear
  | dispatchNow
  | advance (index : Nat) (now : JsNumber)
  | fire (timer : Nat)
  | wake
  | complete
deriving DecidableEq

def BusState.start (store : SessionStore) : BusState :=
  { store := store, calls := [], timers := [], nextTimer := 0, sessionTimer := none
    queuedCount := none, nextAvailability := none, ready := false, microtasks := 0, running := 0
    unannounced := [] }

namespace BusState

variable (state : BusState)

def dispatchReady : BusState :=
  if state.ready then state
  else { state with ready := true, microtasks := state.microtasks + 1 }

def clearTimer : BusState :=
  { state with
    timers := state.timers.filter (fun timer => some timer.id ≠ state.sessionTimer)
    sessionTimer := none }

/- The second half of `armNextWake`. -/
def setTimer (nextAvailableAt : Option JsNumber) (now : JsNumber) : BusState :=
  match nextAvailableAt with
  | none => { state with nextAvailability := some none }
  | some availableAt =>
    { state with
      nextAvailability := some (some availableAt)
      timers := state.timers ++ [⟨state.nextTimer, JsNumber.max 0 (availableAt.sub now)⟩]
      nextTimer := state.nextTimer + 1, sessionTimer := some state.nextTimer }

def become (index : Nat) (call : BusCall) : BusState :=
  { state with calls := state.calls.set index call }

def finish (index : Nat) : BusState := { state with calls := state.calls.eraseIdx index }

/- What remains in the queue after due events are delivered. -/
def deliver (now maxBatchSize : JsNumber) : SessionStore :=
  match state.store.loadRun with
  | (none, store) => store
  | (some run, store) =>
    let (run, queue) := deliverDueWakeEvents run store.wakeQueue now maxBatchSize
    (store.writeRun run).writeWakeQueue queue

/- A call in flight makes its next access or goes on. -/
def advance (maxBatchSize : JsNumber) (index : Nat) (now : JsNumber) : BusState :=
  match state.calls[index]? with
  | none => state
  | some (.enqueuing params createdAt dispatchReady) =>
    let (event, queue) := state.store.wakeQueue.enqueueWakeEvent params createdAt
    { state with
      store := state.store.writeWakeQueue queue
      calls := state.calls.set index (.counting (if dispatchReady then some event
        else none)), unannounced := state.unannounced ++ [event.id] }
  | some (.draining now) =>
    let store := state.deliver now maxBatchSize
    { state with
      store := store, calls := state.calls.set index (.counted store.wakeQueue.events.length none) }
  | some (.counting event) =>
    state.become index (.counted state.store.wakeQueue.events.length event)
  | some (.counted queuedCount event) =>
    { state.clearTimer with
      queuedCount := some queuedCount, calls := state.calls.set index (.arming event) }
  | some (.arming event) =>
    state.become index
      (.armed (state.store.wakeQueue.events.head?.map (·.availableAt)) event)
  | some (.armed nextAvailableAt none) => (state.setTimer nextAvailableAt now).finish index
  | some (.armed nextAvailableAt (some event)) =>
    (state.setTimer nextAvailableAt now).become index (.finishing event)
  | some (.finishing event) => if event.availableAt.le now then (state.finish index).dispatchReady
      else state.finish index

/- A timer fires: it leaves the map, whoever is in it. -/
def fire (timer : Nat) : BusState :=
  if timer ∈ state.timers.map (·.id) then
    { state with
      timers := state.timers.filter (fun other => other.id ≠ timer)
      sessionTimer := none }.dispatchReady
  else state

/- The microtask of a dispatch calls `onWakeReady`. -/
def wake : BusState :=
  match state.microtasks with
  | 0 => state
  | count + 1 => { state with microtasks := count, running := state.running + 1, unannounced := [] }

/- A call of `onWakeReady` is over. -/
def complete : BusState :=
  match state.running with
  | 0 => state
  | count + 1 => { state with running := count, ready := false }

def clear : BusState :=
  { state.clearTimer with ready := false, queuedCount := none, nextAvailability := none }

def begin (call : BusCall) : BusState := { state with calls := state.calls ++ [call] }

def step (maxBatchSize : JsNumber) (state : BusState) : BusStep → BusState
| .enqueue params clock dispatchReady =>
  state.begin (.enqueuing params (params.createdAt.getD clock) (dispatchReady ≠ some false))
| .drain now => state.begin (.draining now)
| .recover => state.begin (.counting none)
| .clear => state.clear
| .dispatchNow => state.dispatchReady
| .advance index now => state.advance maxBatchSize index now
| .fire timer => state.fire timer
| .wake => state.wake
| .complete => state.complete

/- No timer, no dispatch and no call. -/
def Quiescent : Prop :=
  state.timers = [] ∧ state.microtasks = 0 ∧ state.running = 0 ∧ state.calls = []

/- A queued event that came after the last announcement. -/
def HasNews : Prop := ∃ event ∈ state.store.wakeQueue.events, event.id ∈ state.unannounced

instance : Decidable state.Quiescent := by
  unfold Quiescent
  infer_instance

instance : Decidable state.HasNews := by
  unfold HasNews
  infer_instance

/- A bus at rest has announced every queued event. -/
def NoWakeLost : Prop := state.Quiescent → ¬ state.HasNews

instance : Decidable state.NoWakeLost := by
  unfold NoWakeLost
  infer_instance

end BusState

/-
  The session is not cleared, and while `onWakeReady` runs, a timer fires only if no event has come
  since it was called.
-/
def KeepsWakeups (state : BusState) : BusStep → Prop
| .clear => False
| .fire _ => state.microtasks = 0 → 0 < state.running → ¬ state.HasNews
| _ => True

instance (state : BusState) (step : BusStep) : Decidable (KeepsWakeups state step) := by
  cases step <;> unfold KeepsWakeups <;> infer_instance

----------
-- Announcements To Come
----------

/- The call will set a timer, if there is an event. -/
def BusCall.willArm : BusCall → Bool
| .armed none _ => false
| .finishing _ => false
| _ => true

namespace BusState

/- Something is under way that leads to an announcement. -/
def Awaited (state : BusState) : Prop :=
  0 < state.microtasks ∨ state.timers ≠ [] ∨ ∃ call ∈ state.calls, call.willArm = true

/- News are awaited, and `ready` tells of a dispatch. -/
structure Sound (state : BusState) : Prop where
  awaited : state.HasNews → state.Awaited
  ready : state.ready = true → 0 < state.microtasks ∨ 0 < state.running

variable {state : BusState}

theorem sound_start (store : SessionStore) : (BusState.start store).Sound := by
  refine ⟨?_, nofun⟩
  rintro ⟨event, _, hNew⟩
  exact absurd hNew not_mem_nil

theorem Sound.noWakeLost (hSound : state.Sound) : state.NoWakeLost := by
  rintro ⟨hTimers, hMicrotasks, _, hCalls⟩ hNews
  rcases hSound.awaited hNews with hMicro | hTimer | hCall
  · omega
  · exact hTimer hTimers
  · rcases hCall with ⟨call, hMem, _⟩
    rw [hCalls] at hMem
    cases hMem

/- A call that goes on to arm is under way. -/
theorem Awaited.of_set {calls : List BusCall} {index : Nat} {call next : BusCall}
    (hCalls : state.calls = calls.set index next) (hCall : calls[index]? = some call)
    (hNext : next.willArm = true) : state.Awaited := by
  refine Or.inr (Or.inr ⟨next, ?_, hNext⟩)
  rcases List.getElem?_eq_some_iff.mp hCall with ⟨hBound, _⟩
  rw [hCalls]
  exact mem_set hBound _

/- The end of a call that does not arm is no loss. -/
theorem Awaited.of_ended {before : BusState} (hAwaited : before.Awaited) {index : Nat}
    {call : BusCall} (hCall : before.calls[index]? = some call) (hEnded : call.willArm = false)
    (hMicrotasks : before.microtasks ≤ state.microtasks) (hTimers : before.timers = state.timers)
    (hCalls : state.calls = before.calls.eraseIdx index ∨
      ∃ next, state.calls = before.calls.set index next) : state.Awaited := by
  rcases hAwaited with hMicro | hTimer | hOther
  · exact Or.inl (Nat.lt_of_lt_of_le hMicro hMicrotasks)
  · exact Or.inr (Or.inl (hTimers ▸ hTimer))
  · rcases hOther with ⟨other, hMem, hArms⟩
    refine Or.inr (Or.inr ⟨other, ?_, hArms⟩)
    rcases getElem?_of_mem hMem with ⟨place, hPlace⟩
    have hElsewhere : index ≠ place := by
      intro hHere
      subst hHere
      rw [hCall] at hPlace
      cases hPlace
      rw [hEnded] at hArms
      cases hArms
    rcases hCalls with hErased | ⟨next, hSet⟩
    · rw [hErased, mem_eraseIdx_iff_getElem?]
      exact ⟨place, hElsewhere.symm, hPlace⟩
    · rw [hSet]
      exact mem_of_getElem? ((getElem?_set_ne hElsewhere).trans hPlace)

variable (hSound : state.Sound)
include hSound

theorem Sound.dispatchReady : state.dispatchReady.Sound := by
  unfold BusState.dispatchReady
  split
  · exact hSound
  · exact ⟨fun _ => Or.inl (Nat.succ_pos _), fun _ => Or.inl (Nat.succ_pos _)⟩

theorem Sound.begin (call : BusCall) : (state.begin call).Sound := by
  refine ⟨?_, hSound.ready⟩
  intro hNews
  rcases hSound.awaited hNews with hMicro | hTimer | hOther
  · exact Or.inl hMicro
  · exact Or.inr (Or.inl hTimer)
  · rcases hOther with ⟨other, hMem, hArms⟩
    exact Or.inr (Or.inr ⟨other, mem_append_left _ hMem, hArms⟩)

/- The timer is set, or the queue was empty. -/
theorem Sound.armed {index : Nat} {nextAvailableAt : Option JsNumber}
    {event : Option WakeEvent} (hCall : state.calls[index]? = some (.armed nextAvailableAt event))
    (now : JsNumber) {next : BusState}
    (hNext : next = (state.setTimer nextAvailableAt now).finish index ∨
        ∃ call, next = (state.setTimer nextAvailableAt now).become index call) : next.Sound := by
  cases nextAvailableAt with
  | none =>
    rcases hNext with hFinished | ⟨call, hBecome⟩
    · subst hFinished
      refine ⟨?_, hSound.ready⟩
      intro hNews
      exact (hSound.awaited hNews).of_ended hCall rfl le_rfl rfl (Or.inl rfl)
    · subst hBecome
      refine ⟨?_, hSound.ready⟩
      intro hNews
      exact (hSound.awaited hNews).of_ended hCall rfl le_rfl rfl (Or.inr ⟨call, rfl⟩)
  | some availableAt =>
    have hTimer : (state.setTimer (some availableAt) now).timers ≠ [] :=
      append_ne_nil_of_right_ne_nil _ (cons_ne_nil _ _)
    rcases hNext with hFinished | ⟨call, hBecome⟩
    · subst hFinished
      exact ⟨fun _ => Or.inr (Or.inl hTimer), hSound.ready⟩
    · subst hBecome
      exact ⟨fun _ => Or.inr (Or.inl hTimer), hSound.ready⟩

theorem Sound.advance (maxBatchSize : JsNumber) (index : Nat)
    (now : JsNumber) : (state.advance maxBatchSize index now).Sound := by
  unfold BusState.advance
  cases hCall : state.calls[index]? with
  | none => exact hSound
  | some call => cases call with
      | enqueuing | draining | counting | counted =>
        exact ⟨fun _ => .of_set rfl hCall rfl, hSound.ready⟩
      | arming event =>
        refine ⟨?_, hSound.ready⟩
        rintro ⟨queued, hMem, _⟩
        -- the queue that is read is not empty
        refine .of_set rfl hCall ?_
        cases hEvents : state.store.wakeQueue.events with
        | nil =>
          change queued ∈ state.store.wakeQueue.events at hMem
          rw [hEvents] at hMem
          cases hMem
        | cons first rest => rfl
      | armed nextAvailableAt event => cases event with
          | none => exact hSound.armed hCall now (Or.inl rfl)
          | some event => exact hSound.armed hCall now (Or.inr ⟨.finishing event, rfl⟩)
      | finishing event =>
        have hFinished : (state.finish index).Sound := by
          refine ⟨?_, hSound.ready⟩
          intro hNews
          exact (hSound.awaited hNews).of_ended hCall rfl le_rfl rfl (Or.inl rfl)
        dsimp only
        split
        · exact hFinished.dispatchReady
        · exact hFinished

theorem Sound.fire {timer : Nat}
    (hKeeps : KeepsWakeups state (.fire timer)) : (state.fire timer).Sound := by
  unfold BusState.fire
  split
  · unfold BusState.dispatchReady
    dsimp only
    split
    · -- the request is dropped
      rename_i hReady
      refine ⟨?_, hSound.ready⟩
      intro hNews
      rcases Nat.eq_zero_or_pos state.microtasks with hNone | hSome
      · have hRunning : 0 < state.running := by
          rcases hSound.ready hReady with hMicro | hRuns
          · omega
          · exact hRuns
        exact absurd hNews (hKeeps hNone hRunning)
      · exact Or.inl hSome
    · exact ⟨fun _ => Or.inl (Nat.succ_pos _), fun _ => Or.inl (Nat.succ_pos _)⟩
  · exact hSound

theorem Sound.wake : state.wake.Sound := by
  unfold BusState.wake
  split
  · exact hSound
  · refine ⟨?_, fun _ => Or.inr (Nat.succ_pos _)⟩
    rintro ⟨event, _, hNew⟩
    exact absurd hNew not_mem_nil

theorem Sound.complete : state.complete.Sound := by
  unfold BusState.complete
  split
  · exact hSound
  · exact ⟨hSound.awaited, nofun⟩

theorem Sound.step (maxBatchSize : JsNumber) {step : BusStep}
    (hKeeps : KeepsWakeups state step) : (state.step maxBatchSize step).Sound := by
  cases step with
  | enqueue | drain | recover => exact hSound.begin _
  | clear => exact hKeeps.elim
  | dispatchNow => exact hSound.dispatchReady
  | advance index now => exact hSound.advance maxBatchSize index now
  | fire timer => exact hSound.fire hKeeps
  | wake => exact hSound.wake
  | complete => exact hSound.complete

end BusState

/-
  From any store, after every interleaving in which no timer is wasted on a dispatch that came
  before the news, a bus at rest has announced every queued event.
-/
theorem no_wake_lost (maxBatchSize : JsNumber) (store : SessionStore) (steps : List BusStep)
    (hKeeps : AlongRun (BusState.step maxBatchSize) KeepsWakeups (.start store) steps) :
    (runSteps (BusState.step maxBatchSize) (.start store) steps).NoWakeLost := by
  have hSound : (runSteps (BusState.step maxBatchSize) (.start store) steps).Sound := by
    refine runSteps_invariant ?_ (BusState.sound_start store) hKeeps
    intro state step hSound hStep
    exact hSound.step maxBatchSize hStep
  exact hSound.noWakeLost

/- An event that is due at once, for a bus. -/
def BusStep.input (content : String) : BusStep :=
  .enqueue { type := .signal .userInput, domain := .operator, content := content } 1 none

/- A call of the bus from its first step to its last. -/
def BusStep.toEnd : List BusStep := List.replicate 6 (.advance 0 1)

/- The timer fires when the first dispatch is over. -/
theorem later_timer_wakes : (runSteps (BusState.step 32) (.start .empty)
      (.input "go" :: BusStep.toEnd ++ [.wake, .input "on"] ++ BusStep.toEnd ++
        [.complete, .fire 1, .wake, .complete])).NoWakeLost := by
  refine no_wake_lost 32 _ _ ?_
  decide +kernel

/- The timer of the second event fires too early. -/
theorem early_timer_is_lost : ¬ (runSteps (BusState.step 32) (.start .empty)
      (.input "go" :: BusStep.toEnd ++ [.wake, .input "on"] ++ BusStep.toEnd ++
        [.fire 1, .complete])).NoWakeLost := by decide +kernel

end AgencCore.Gateway
