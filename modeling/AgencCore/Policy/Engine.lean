import AgencCore.Policy.Budgets

/-
  The policy engine.

  An evaluation checks the circuit breaker, the static rules and the budgets, and is allowed if
  nothing is violated. A denied evaluation is recorded, and enough of them in a window trip the
  circuit breaker. The clock is read once in an evaluation. A simulation is an evaluation that does
  not write to the logs of the budgets.
-/

namespace AgencCore.Policy

open Foundations

structure PolicyEngine where
  policy : RuntimePolicyConfig
  -- `none` is the mode "normal"
  mode : Option CircuitBreakerMode := none
  circuitBreakerReason : Option String := none
  trippedAtMs : Option ℚ := none
  actionEvents : UsageLogs Unit := fun _ => []
  spendEvents : UsageLogs Int := fun _ => []
  tokenEvents : UsageLogs JsNumber := fun _ => []
  violationEvents : List ℚ := []

structure PolicyDecision where
  allowed : Bool
  mode : Option CircuitBreakerMode
  violations : List PolicyViolation
deriving DecidableEq

namespace PolicyEngine

def create (policy : RuntimePolicyConfig) : PolicyEngine := { policy := policy }

def resolved (engine : PolicyEngine) (action : PolicyAction) : ResolvedPolicyContext :=
  resolvePolicyContext (some engine.policy) action.scope

/- The violations that the breaker still counts. -/
def recentViolations (engine : PolicyEngine) (now : ℚ) : List ℚ :=
  match engine.policy.bundle.circuitBreaker with
  | none => []
  | some cfg =>
    engine.violationEvents.filter (fun timestamp =>
      (cutoffOf now cfg.windowMs).le (.finite timestamp))

def pruneViolations (engine : PolicyEngine) (now : ℚ) : PolicyEngine :=
  { engine with violationEvents := engine.recentViolations now }

def checkCircuitMode (engine : PolicyEngine) (action : PolicyAction) : Option PolicyViolation :=
  match engine.mode with
  | none => none
  | some .pauseDiscovery =>
    if action.type = .taskDiscovery then
      some (buildViolation .circuitBreakerActive action
        "Discovery is paused by circuit breaker" none)
    else none
  | some .haltSubmissions =>
    if action.type = .txSubmission then
      some (buildViolation .circuitBreakerActive action
        "Submissions are halted by circuit breaker" none)
    else none
  | some .safeMode =>
    if action.access = .write then
      some (buildViolation .circuitBreakerActive action "Safe mode blocks write actions" none)
    else none

def recordViolation (engine : PolicyEngine) (now : ℚ) : PolicyEngine :=
  { engine with violationEvents := engine.violationEvents ++ [now] }

def maybeAutoTripCircuitBreaker (engine : PolicyEngine) (now : ℚ) : PolicyEngine :=
  match engine.policy.bundle.circuitBreaker with
  | none => engine
  | some cfg => if cfg.enabled ≠ some true ∨ engine.mode ≠ none then engine
      else
        let engine := engine.pruneViolations now
        if JsNumber.lt (.ofInt engine.violationEvents.length) cfg.threshold then engine
        else
          { engine with
            mode := some cfg.mode, circuitBreakerReason := some "auto_threshold"
            trippedAtMs := some now }

variable (host : PolicyHost)

/- The checks of the rules and budgets, and the new logs. -/
def checkPolicy (engine : PolicyEngine) (now : ℚ) (consumeBudgets : Bool) (action : PolicyAction) :
    List PolicyViolation × PolicyEngine :=
  let resolved := engine.resolved action
  if isEnabled resolved.policy then
    let (actionViolation, actionEvents) :=
      checkAndConsumeActionBudget action resolved now consumeBudgets engine.actionEvents
    let (spendViolation, spendEvents) :=
      checkAndConsumeSpendBudget action resolved now consumeBudgets engine.spendEvents
    let (tokenViolation, tokenEvents) :=
      checkAndConsumeTokenBudget action resolved now consumeBudgets engine.tokenEvents
    (staticViolations host action resolved.policy ++
      [actionViolation, spendViolation, tokenViolation, checkRuntimeBudget action resolved,
        checkProcessBudget action resolved].reduceOption,
      { engine with
        actionEvents := actionEvents, spendEvents := spendEvents, tokenEvents := tokenEvents })
  else ([], engine)

def evaluateInternal (engine : PolicyEngine) (now : ℚ) (consumeBudgets : Bool)
    (action : PolicyAction) : PolicyDecision × PolicyEngine :=
  let engine := engine.pruneViolations now
  let modeViolation := engine.checkCircuitMode action
  let (policyViolations, engine) := engine.checkPolicy host now consumeBudgets action
  let violations := modeViolation.toList ++ policyViolations
  if violations = [] then ({ allowed := true, mode := engine.mode, violations := [] }, engine)
  else let engine := (engine.recordViolation now).maybeAutoTripCircuitBreaker now
    ({ allowed := false, mode := engine.mode, violations := violations }, engine)

def evaluate (engine : PolicyEngine) (now : ℚ) (action : PolicyAction) :
    PolicyDecision × PolicyEngine := engine.evaluateInternal host now true action

def simulate (engine : PolicyEngine) (now : ℚ) (action : PolicyAction) :
    PolicyDecision × PolicyEngine := engine.evaluateInternal host now false action

----------
-- What An Evaluation Does
----------

/- Tripping the breaker changes the mode, at most. -/
theorem maybeAutoTripCircuitBreaker_frame (engine : PolicyEngine) (now : ℚ) :
    (engine.maybeAutoTripCircuitBreaker now).policy = engine.policy ∧
      (engine.maybeAutoTripCircuitBreaker now).actionEvents = engine.actionEvents ∧
      (engine.maybeAutoTripCircuitBreaker now).spendEvents = engine.spendEvents ∧
      (engine.maybeAutoTripCircuitBreaker now).tokenEvents = engine.tokenEvents := by
  unfold maybeAutoTripCircuitBreaker
  split
  · exact ⟨rfl, rfl, rfl, rfl⟩
  · split
    · exact ⟨rfl, rfl, rfl, rfl⟩
    · dsimp only
      split <;> exact ⟨rfl, rfl, rfl, rfl⟩

theorem checkPolicy_frame (engine : PolicyEngine) (now : ℚ) (consumeBudgets : Bool)
    (action : PolicyAction) :
    (engine.checkPolicy host now consumeBudgets action).2.policy = engine.policy ∧
      (engine.checkPolicy host now consumeBudgets action).2.mode = engine.mode ∧
      (engine.checkPolicy host now consumeBudgets
        action).2.violationEvents = engine.violationEvents := by
  unfold checkPolicy
  dsimp only
  split <;> exact ⟨rfl, rfl, rfl⟩

/- The budgets do not depend on the recorded violations. -/
theorem checkPolicy_violations (engine : PolicyEngine) (events : List ℚ) (now : ℚ)
    (consumeBudgets : Bool) (action : PolicyAction) :
    ({ engine with violationEvents := events }).checkPolicy host now consumeBudgets action =
      ((engine.checkPolicy host now consumeBudgets action).1,
        { (engine.checkPolicy host now consumeBudgets
            action).2 with violationEvents := events }) := by
  unfold checkPolicy resolved
  dsimp only
  split <;> rfl

/- The violations that an evaluation finds. -/
def violationsOf (engine : PolicyEngine) (now : ℚ) (consumeBudgets : Bool)
    (action : PolicyAction) : List PolicyViolation :=
  (engine.checkCircuitMode action).toList ++ (engine.checkPolicy host now consumeBudgets action).1

/- The engine after the checks, before the outcome. -/
def checked (engine : PolicyEngine) (now : ℚ) (consumeBudgets : Bool)
    (action : PolicyAction) : PolicyEngine :=
  { (engine.checkPolicy host now consumeBudgets action).2 with
    violationEvents := engine.recentViolations now }

def denied (engine : PolicyEngine) (now : ℚ) (consumeBudgets : Bool)
    (action : PolicyAction) : PolicyEngine :=
  ((engine.checked host now consumeBudgets
    action).recordViolation now).maybeAutoTripCircuitBreaker now

theorem evaluateInternal_eq (engine : PolicyEngine) (now : ℚ) (consumeBudgets : Bool)
    (action : PolicyAction) :
    engine.evaluateInternal host now consumeBudgets action =
      if engine.violationsOf host now consumeBudgets action = [] then
        ({ allowed := true, mode := (engine.checked host now consumeBudgets action).mode
           violations := [] }, engine.checked host now consumeBudgets action)
      else
        ({ allowed := false, mode := (engine.denied host now consumeBudgets action).mode
           violations := engine.violationsOf host now consumeBudgets action },
          engine.denied host now consumeBudgets action) := by
  have hChecked := checkPolicy_violations host engine
    (engine.recentViolations now) now consumeBudgets action
  unfold evaluateInternal pruneViolations
  dsimp only
  rw [hChecked]
  rfl

/- The logs after an evaluation are those of the checks. -/
theorem evaluateInternal_logs (engine : PolicyEngine) (now : ℚ) (consumeBudgets : Bool)
    (action : PolicyAction) : let checked := (engine.checkPolicy host now consumeBudgets action).2
    let evaluated := (engine.evaluateInternal host now consumeBudgets action).2
    evaluated.policy = engine.policy ∧ evaluated.actionEvents = checked.actionEvents ∧
      evaluated.spendEvents = checked.spendEvents ∧
      evaluated.tokenEvents = checked.tokenEvents := by
  have hPolicy := (checkPolicy_frame host engine now consumeBudgets action).1
  dsimp only
  rw [evaluateInternal_eq]
  split
  · exact ⟨hPolicy, rfl, rfl, rfl⟩
  · rcases maybeAutoTripCircuitBreaker_frame
        ((engine.checked host now consumeBudgets action).recordViolation now) now with
      ⟨hSame, hAction, hSpend, hToken⟩
    exact ⟨hSame.trans hPolicy, hAction, hSpend, hToken⟩

theorem allowed_iff (engine : PolicyEngine) (now : ℚ) (consumeBudgets : Bool)
    (action : PolicyAction) :
    (engine.evaluateInternal host now consumeBudgets action).1.allowed = true ↔
      engine.violationsOf host now consumeBudgets action = [] := by
  rw [evaluateInternal_eq]
  split
  · next hNone => simp [hNone]
  · next hSome => simp [hSome]

end PolicyEngine

end AgencCore.Policy
