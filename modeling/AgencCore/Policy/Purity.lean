import AgencCore.Policy.Denials

/-
  When simulations are invisible.

  A simulation writes nothing to the logs of the budgets, but a denied one is recorded as a
  violation and can trip the circuit breaker. If every simulation is allowed, or is made while the
  breaker can no longer or not at all be tripped, then leaving the simulations out changes neither a
  decision nor the mode.
-/

namespace AgencCore.Policy

open Foundations List

inductive PolicyCall where
  | evaluate (now : ℚ) (action : PolicyAction)
  | simulate (now : ℚ) (action : PolicyAction)

namespace PolicyCall

def now : PolicyCall → ℚ
| .evaluate now _ => now
| .simulate now _ => now

def isEvaluate : PolicyCall → Bool
| .evaluate _ _ => true
| .simulate _ _ => false

end PolicyCall

def withoutSimulations (calls : List PolicyCall) : List PolicyCall :=
  calls.filter PolicyCall.isEvaluate

namespace PolicyEngine

variable (host : PolicyHost)

def call (engine : PolicyEngine) : PolicyCall → PolicyEngine
| .evaluate now action => (engine.evaluate host now action).2
| .simulate now action => (engine.simulate host now action).2

/- The decisions of the evaluations, and the last engine. -/
def runCalls (engine : PolicyEngine) : List PolicyCall → List PolicyDecision × PolicyEngine
| [] => ([], engine)
| .evaluate now action :: rest =>
  let (decision, engine) := engine.evaluate host now action
  let (decisions, engine) := engine.runCalls rest
  (decision :: decisions, engine)
| .simulate now action :: rest => (engine.simulate host now action).2.runCalls rest

/- The breaker is tripped already, or is not switched on. -/
def BreakerIdle (engine : PolicyEngine) : Prop :=
  engine.mode ≠ none ∨
    ∀ cfg, engine.policy.bundle.circuitBreaker = some cfg → cfg.enabled ≠ some true

/- A simulation that is allowed or cannot trip anything. -/
def Unrecorded (engine : PolicyEngine) : PolicyCall → Prop
| .evaluate _ _ => True
| .simulate now action => (engine.simulate host now action).1.allowed = true ∨ engine.BreakerIdle

/- Every call is unrecorded in the state it is made in. -/
def AllUnrecorded (engine : PolicyEngine) : List PolicyCall → Prop
| [] => True
| call :: rest => engine.Unrecorded host call ∧ (engine.call host call).AllUnrecorded rest

----------
-- Engines That Differ In Their Violations
----------

def withViolations (engine : PolicyEngine) (events : List ℚ) : PolicyEngine :=
  { engine with violationEvents := events }

/-
  Engines that differ in the recorded violations only, and there in nothing that the breaker counts
  from a time on.
-/
structure Alike (now : ℚ) (engine engine' : PolicyEngine) : Prop where
  frame : engine' = engine.withViolations engine'.violationEvents
  recent : engine.BreakerIdle ∨
    ∀ later, now ≤ later → engine.recentViolations later = engine'.recentViolations later

theorem Alike.refl (now : ℚ) (engine : PolicyEngine) : Alike now engine engine :=
  ⟨rfl, Or.inr (fun _ _ => rfl)⟩

/- Pruning keeps what is counted later. -/
theorem recentViolations_pruned (engine engine' : PolicyEngine) {now later : ℚ}
    (hLater : now ≤ later) (hPolicy : engine'.policy = engine.policy)
    (hEvents : engine'.violationEvents = engine.recentViolations now) :
    engine'.recentViolations later = engine.recentViolations later := by
  have hPruned := hEvents
  unfold recentViolations at hPruned ⊢
  rw [hPolicy]
  cases hBreaker : engine.policy.bundle.circuitBreaker with
  | none => rfl
  | some cfg =>
    rw [hBreaker] at hPruned
    dsimp only at hPruned ⊢
    rw [hPruned, filter_filter]
    apply filter_congr
    intro time _
    cases hSince : (cutoffOf later cfg.windowMs).le (.finite time) with
    | false => rfl
    | true => simp [cutoffOf_le_of_later hLater hSince]

theorem maybeAutoTrip_of_idle {engine : PolicyEngine} (hIdle : engine.BreakerIdle) (now : ℚ) :
    engine.maybeAutoTripCircuitBreaker now = engine := by
  unfold maybeAutoTripCircuitBreaker
  cases hBreaker : engine.policy.bundle.circuitBreaker with
  | none => rfl
  | some cfg =>
    dsimp only
    rw [if_pos]
    rcases hIdle with hMode | hOff
    · exact Or.inr hMode
    · exact Or.inl (hOff cfg hBreaker)

variable {engine engine' : PolicyEngine}
variable {now : ℚ}

theorem checked_idle (hIdle : engine.BreakerIdle) (now : ℚ) (consumeBudgets : Bool)
    (action : PolicyAction) : (engine.checked host now consumeBudgets action).BreakerIdle := by
  rcases checkPolicy_frame host engine now consumeBudgets action with ⟨hPolicy, hMode, _⟩
  have hSame : (engine.checked host now consumeBudgets action).policy = engine.policy ∧
        (engine.checked host now consumeBudgets action).mode = engine.mode := ⟨hPolicy, hMode⟩
  unfold BreakerIdle
  rw [hSame.1, hSame.2]
  exact hIdle

/- With an idle breaker, a denial changes no mode. -/
theorem denied_of_idle (hIdle : engine.BreakerIdle) (now : ℚ) (consumeBudgets : Bool)
    (action : PolicyAction) :
    engine.denied host now consumeBudgets action =
      (engine.checked host now consumeBudgets action).recordViolation now := by
  have hRecorded :
      ((engine.checked host now consumeBudgets action).recordViolation now).BreakerIdle :=
    checked_idle host hIdle now consumeBudgets action
  exact maybeAutoTrip_of_idle hRecorded now

/- A simulation leaves the checks without a trace. -/
theorem checked_simulate (engine : PolicyEngine) (now : ℚ) (action : PolicyAction) :
    engine.checked host now false action = engine.withViolations (engine.recentViolations now) := by
  have hDry : (engine.checkPolicy host now false action).2 = engine := by
    unfold checkPolicy checkAndConsumeActionBudget
      checkAndConsumeSpendBudget checkAndConsumeTokenBudget
    dsimp only
    split
    · rw [checkScopes_dry, checkScopes_dry, checkScopes_dry]
    · rfl
  unfold checked
  rw [hDry]
  rfl

----------
-- Simulations Are Invisible
----------

variable {host : PolicyHost}
variable {start now : ℚ}

/- Engines that count the same violations are one engine. -/
theorem evaluate_eq_of_recent (hFrame : engine' = engine.withViolations engine'.violationEvents)
    (hRecent : engine.recentViolations now = engine'.recentViolations now) (action : PolicyAction) :
    engine'.evaluate host now action = engine.evaluate host now action := by
  have hPruned : engine'.pruneViolations now = engine.pruneViolations now := by
    unfold pruneViolations
    rw [← hRecent, hFrame]
    rfl
  unfold evaluate evaluateInternal
  rw [hPruned]

/- With an idle breaker, the violations do not matter. -/
theorem evaluate_of_idle (hFrame : engine' = engine.withViolations engine'.violationEvents)
    (hIdle : engine.BreakerIdle) (action : PolicyAction) :
    (engine.evaluate host now action).1 = (engine'.evaluate host now action).1 ∧
      Alike now (engine.evaluate host now action).2 (engine'.evaluate host now action).2 := by
  have hIdle' : engine'.BreakerIdle := by
    rw [hFrame]
    exact hIdle
  have hChecked := checked_idle host hIdle now true action
  have hSame : engine'.checked host now true action =
        (engine.checked host now true action).withViolations (engine'.recentViolations now) := by
    rw [hFrame]
    unfold checked withViolations
    rw [checkPolicy_violations]
  have hViolations :
      engine'.violationsOf host now true action = engine.violationsOf host now true action := by
    rw [hFrame]
    unfold violationsOf withViolations
    rw [checkPolicy_violations]
    rfl
  unfold evaluate
  rw [evaluateInternal_eq, evaluateInternal_eq, hViolations,
    denied_of_idle host hIdle, denied_of_idle host hIdle', hSame]
  split
  · exact ⟨rfl, rfl, Or.inl hChecked⟩
  · exact ⟨rfl, rfl, Or.inl hChecked⟩

variable (hAlike : Alike start engine engine')
include hAlike

theorem Alike.evaluate (hNow : start ≤ now)
    (action : PolicyAction) :
    (engine.evaluate host now action).1 = (engine'.evaluate host now action).1 ∧
      Alike now (engine.evaluate host now action).2 (engine'.evaluate host now action).2 := by
  rcases hAlike.recent with hIdle | hRecent
  · exact evaluate_of_idle hAlike.frame hIdle action
  · rw [evaluate_eq_of_recent hAlike.frame (hRecent now hNow)]
    exact ⟨rfl, Alike.refl now _⟩

theorem Alike.simulate (hNow : start ≤ now)
    {action : PolicyAction} (hUnrecorded : engine.Unrecorded host (.simulate now action)) :
    Alike now (engine.simulate host now action).2 engine' := by
  have hFrame : ∀ events,
      engine' = (engine.withViolations events).withViolations engine'.violationEvents := by
    intro events
    exact hAlike.frame
  rcases hUnrecorded with hAllowed | hIdle
  · have hNone := (allowed_iff host engine now false action).mp hAllowed
    unfold PolicyEngine.simulate
    rw [evaluateInternal_eq, if_pos hNone, checked_simulate]
    refine ⟨hFrame _, ?_⟩
    rcases hAlike.recent with hIdle | hRecent
    · exact Or.inl hIdle
    · refine Or.inr (fun later hLater => ?_)
      rw [← hRecent later (hNow.trans hLater)]
      exact recentViolations_pruned engine _ hLater rfl rfl
  · unfold PolicyEngine.simulate
    rw [evaluateInternal_eq, denied_of_idle host hIdle, checked_simulate]
    split
    · exact ⟨hFrame _, Or.inl hIdle⟩
    · exact ⟨hFrame _, Or.inl hIdle⟩

theorem runCalls_alike {calls : List PolicyCall} (hStart : ∀ call ∈ calls, start ≤ call.now)
    (hClock : (calls.map PolicyCall.now).Pairwise (· ≤ ·))
    (hUnrecorded : engine.AllUnrecorded host calls) :
    (engine.runCalls host calls).1 = (engine'.runCalls host (withoutSimulations calls)).1 ∧
      (engine.runCalls host calls).2.mode =
        (engine'.runCalls host (withoutSimulations calls)).2.mode := by
  induction calls generalizing start engine engine' with
  | nil =>
    refine ⟨rfl, ?_⟩
    change engine.mode = engine'.mode
    rw [hAlike.frame]
    rfl
  | cons call rest ih =>
    rw [map_cons, pairwise_cons] at hClock
    have hLater : ∀ later ∈ rest, call.now ≤ later.now :=
      fun later hMem => hClock.1 later.now (mem_map_of_mem hMem)
    have hNow := hStart call mem_cons_self
    rcases hUnrecorded with ⟨hCall, hRest⟩
    cases call with
    | evaluate now action =>
      have hStep : (engine.evaluate host now action).1 = (engine'.evaluate host now action).1 ∧
            Alike now (engine.evaluate host now action).2
              (engine'.evaluate host now action).2 := hAlike.evaluate hNow action
      rcases hStep with ⟨hDecision, hNext⟩
      rcases ih hNext hLater hClock.2 hRest with ⟨hDecisions, hMode⟩
      exact ⟨congrArg₂ List.cons hDecision hDecisions, hMode⟩
    | simulate now action => exact ih (hAlike.simulate hNow hCall) hLater hClock.2 hRest

omit hAlike

/-
  If no simulation is recorded, leaving the simulations out of a run changes no decision and not the
  mode.
-/
theorem simulations_invisible (host : PolicyHost) (engine : PolicyEngine) (calls : List PolicyCall)
    (hClock : (calls.map PolicyCall.now).Pairwise (· ≤ ·))
    (hUnrecorded : engine.AllUnrecorded host calls) :
    (engine.runCalls host calls).1 = (engine.runCalls host (withoutSimulations calls)).1 ∧
      (engine.runCalls host calls).2.mode =
        (engine.runCalls host (withoutSimulations calls)).2.mode := by
  cases calls with
  | nil => exact ⟨rfl, rfl⟩
  | cons first rest =>
    refine runCalls_alike (Alike.refl first.now engine) ?_ hClock hUnrecorded
    rw [map_cons, pairwise_cons] at hClock
    intro call hMem
    rcases mem_cons.mp hMem with hFirst | hRest
    · rw [hFirst]
    · exact hClock.1 call.now (mem_map_of_mem hRest)

/- One violation trips the breaker into safe mode. -/
def trippingPolicy : RuntimePolicyConfig :=
  { bundle :=
      { enabled := some true, denyActions := some ["transfer"]
        circuitBreaker := some
          { enabled := some true, threshold := .ofInt 1, windowMs := .ofInt 1000
            mode := .safeMode } }, defaultTenantId := none, defaultProjectId := none
    tenantBundles := none, projectBundles := none }

def writeAction : PolicyAction := { type := .custom, name := "note", access := .write }

theorem allowed_simulation_invisible : ((create trippingPolicy).runCalls PolicyHost.basic
        [.simulate 0 writeAction, .evaluate 1 transferAction]).1 =
      ((create trippingPolicy).runCalls PolicyHost.basic [.evaluate 1 transferAction]).1 :=
  (simulations_invisible PolicyHost.basic (create trippingPolicy)
    [.simulate 0 writeAction, .evaluate 1 transferAction] (by decide)
    ⟨Or.inl (by decide +kernel), trivial, trivial⟩).1

/- A denied simulation makes a later evaluation fail. -/
theorem simulation_trips_breaker : ((create trippingPolicy).runCalls PolicyHost.basic
        [.simulate 0 transferAction, .evaluate 1 writeAction]).1.map
        PolicyDecision.allowed = [false] ∧
      ((create trippingPolicy).runCalls PolicyHost.basic
        (withoutSimulations [.simulate 0 transferAction, .evaluate 1 writeAction])).1.map
        PolicyDecision.allowed = [true] := by decide +kernel

end PolicyEngine

end AgencCore.Policy
