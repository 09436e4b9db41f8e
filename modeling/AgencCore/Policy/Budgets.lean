import AgencCore.Foundations.UsageLog
import AgencCore.Policy.StaticRules

/-
  The budgets of the policy engine.

  A budget is counted in up to four scopes: globally, for the tenant, for the project and for the
  run. Actions, lamports and tokens are counted in logs, one for each scope; a check drops what is
  older than its own window, and charges the log if the budget is not exceeded. The scopes are
  checked one after the other up to the first that is exceeded.
-/

namespace AgencCore.Policy

open Foundations

section

structure ScopedBudget (β : Type) where
  scopeLabel : ScopeLabel
  scopeValue : Option String
  budget : Option β

/- An identifier that selects a scope. -/
def scopeId (id : Option String) : Option String := id.filter (fun id => id ≠ "")

def runId (action : PolicyAction) : Option String :=
  scopeId (action.scope.bind (·.runId))

/- The scopes of an action, in the order of the checks. -/
def scopedBudgets {β : Type} (action : PolicyAction) (resolved : ResolvedPolicyContext)
    (globalBudget tenantBudget projectBudget runBudget : Option β) : List (ScopedBudget β) :=
  [⟨.global, none, globalBudget⟩] ++
    (scopeId resolved.tenantId).toList.map (fun id => ⟨.tenant, some id, tenantBudget⟩) ++
    (scopeId resolved.projectId).toList.map (fun id => ⟨.project, some id, projectBudget⟩) ++
    (runId action).toList.map (fun id => ⟨.run, some id, runBudget⟩)

def ScopedBudget.scopeKey {β : Type} (candidate : ScopedBudget β) : String :=
  let value := candidate.scopeValue.getD ""
  match candidate.scopeLabel with
  | .global => "global"
  | .tenant => "tenant:" ++ value
  | .project => "project:" ++ value
  | .run => "run:" ++ value

def rulesInScopes {β : Type} (action : PolicyAction) (resolved : ResolvedPolicyContext)
    (globalBudget : Option β) (scopedRules : Option (ScopedBudgetRules β)) :
    List (ScopedBudget β) :=
  scopedBudgets action resolved globalBudget (scopedRules.bind (·.tenant))
    (scopedRules.bind (·.project)) (scopedRules.bind (·.run))

def exactKey (action : PolicyAction) : String := action.type.text ++ ":" ++ action.name

def wildcardKey (action : PolicyAction) : String := action.type.text ++ ":*"

/- The budget of an action, else that of its type. -/
def actionBudget (action : PolicyAction) (budgets : Option (Record PolicyBudgetRule)) :
    Option PolicyBudgetRule :=
  (budgets.bind (fun budgets => budgets.get? (exactKey action))).or
    (budgets.bind (fun budgets => budgets.get? (wildcardKey action)))

def actionBudgets (action : PolicyAction) (resolved : ResolvedPolicyContext) :
    List (ScopedBudget PolicyBudgetRule) :=
  let scopedRules := resolved.policy.scopedActionBudgets
  scopedBudgets action resolved (actionBudget action resolved.policy.actionBudgets)
    (actionBudget action (scopedRules.bind (·.tenant)))
    (actionBudget action (scopedRules.bind (·.project)))
    (actionBudget action (scopedRules.bind (·.run)))

def spendBudgets (action : PolicyAction) (resolved : ResolvedPolicyContext) :
    List (ScopedBudget SpendBudgetRule) :=
  rulesInScopes action resolved resolved.policy.spendBudget resolved.policy.scopedSpendBudgets

def tokenBudgets (action : PolicyAction) (resolved : ResolvedPolicyContext) :
    List (ScopedBudget TokenBudgetRule) :=
  rulesInScopes action resolved resolved.policy.tokenBudget resolved.policy.scopedTokenBudgets

----------
-- Counting
----------

/- The logs of one kind, empty unless they were written. -/
abbrev UsageLogs (α : Type) := String → List (Charge α)

/- The start of a window that ends now. -/
def cutoffOf (now : ℚ) (windowMs : JsNumber) : JsNumber := JsNumber.sub (.finite now) windowMs

/- What a later window counts, an earlier one counts too. -/
theorem cutoffOf_le_of_later {now later time : ℚ} {windowMs : JsNumber} (hLater : now ≤ later)
    (hSince : (cutoffOf later windowMs).le (.finite time) = true) :
    (cutoffOf now windowMs).le (.finite time) = true := by
  cases windowMs with
  | nan | negInf => cases hSince
  | posInf => rfl
  | finite w =>
    have hCutoff : ∀ t : ℚ, cutoffOf t (.finite w) = .finite (t + -w) := fun _ => rfl
    rw [hCutoff, JsNumber.le_finite, decide_eq_true_iff] at hSince ⊢
    linarith

/-
  How a log is checked and charged: its key, its window, the amount, whether the usage so far is too
  much, and whether a check that fails writes the shortened log back.
-/
structure Meter (α ν : Type) where
  key : String
  windowMs : JsNumber
  amount : α
  exceeded : ν → Bool
  violation : ν → PolicyViolation
  writesBack : Bool

namespace Meter

variable {α ν : Type}
variable [AddCommMonoid ν]
variable (weight : α → ν)

def consume (meter : Meter α ν) (now : ℚ) (consuming : Bool) (logs : UsageLogs α) :
    Option PolicyViolation × UsageLogs α :=
  let cutoff := cutoffOf now meter.windowMs
  let bucket := recent cutoff (logs meter.key)
  let current := usage weight cutoff (logs meter.key)
  if meter.exceeded current then
    (some (meter.violation current),
      if consuming && meter.writesBack then Function.update logs meter.key bucket
      else logs)
  else (none, if consuming then Function.update logs meter.key (bucket ++ [⟨now, meter.amount⟩])
      else logs)

end Meter

variable {α ν : Type}
variable [AddCommMonoid ν]

/- The scopes in turn, up to the first violation. -/
def checkScopes (weight : α → ν) (now : ℚ) (consuming : Bool) :
    List (Meter α ν) → UsageLogs α → Option PolicyViolation × UsageLogs α
| [], logs => (none, logs)
| meter :: rest, logs =>
  match meter.consume weight now consuming logs with
  | (some violation, logs) => (some violation, logs)
  | (none, logs) => checkScopes weight now consuming rest logs

def actionWeight : Unit → Nat := fun _ => 1

/- `consumeActionBudget`, with its arguments. -/
def actionMeter (action : PolicyAction) (candidate : ScopedBudget PolicyBudgetRule) :
    Option (Meter Unit Nat) :=
  candidate.budget.map (fun budget =>
    { key := candidate.scopeKey ++ ":" ++ exactKey action, windowMs := budget.windowMs, amount := ()
      exceeded := fun observed => budget.limit.le (.ofInt observed)
      violation := fun observed =>
        buildViolation .actionBudgetExceeded action
          ("Action budget exceeded for \"" ++ action.name ++ "\"")
          (some (.actionBudget candidate.scopeLabel
            candidate.scopeValue budget.limit budget.windowMs observed)), writesBack := true })

/- `consumeSpendBudget`, with its arguments. -/
def spendMeter (action : PolicyAction) (spendLamports : Int)
    (candidate : ScopedBudget SpendBudgetRule) : Option (Meter Int Int) :=
  candidate.budget.map (fun budget =>
    { key := candidate.scopeKey, windowMs := budget.windowMs, amount := spendLamports
      exceeded := fun currentSpend => decide (budget.limitLamports < currentSpend + spendLamports)
      violation := fun currentSpend =>
        buildViolation .spendBudgetExceeded action "Spend budget exceeded"
          (some (.spendBudget candidate.scopeLabel candidate.scopeValue
            (toString budget.limitLamports) (toString currentSpend) (toString spendLamports)))
      writesBack := false })

/- `consumeTokenBudget`, with its arguments. -/
def tokenMeter (action : PolicyAction) (tokenCount : JsNumber)
    (candidate : ScopedBudget TokenBudgetRule) : Option (Meter JsNumber JsNumber) :=
  candidate.budget.map (fun budget =>
    { key := candidate.scopeKey, windowMs := budget.windowMs, amount := tokenCount
      exceeded := fun currentTokens => budget.limitTokens.lt (currentTokens + tokenCount)
      violation := fun currentTokens =>
        buildViolation .tokenBudgetExceeded action "Token budget exceeded"
          (some (.tokenBudget candidate.scopeLabel candidate.scopeValue budget.limitTokens
            currentTokens tokenCount)), writesBack := false })

def actionMeters (action : PolicyAction) (resolved : ResolvedPolicyContext) :
    List (Meter Unit Nat) := (actionBudgets action resolved).filterMap (actionMeter action)

/- Without an amount, there is nothing to check. -/
def spendMeters (action : PolicyAction) (resolved : ResolvedPolicyContext) : List (Meter Int Int) :=
  match action.spendLamports with
  | none => []
  | some spendLamports => (spendBudgets action resolved).filterMap (spendMeter action spendLamports)

def tokenMeters (action : PolicyAction) (resolved : ResolvedPolicyContext) :
    List (Meter JsNumber JsNumber) :=
  match action.tokenCount with
  | none => []
  | some tokenCount => (tokenBudgets action resolved).filterMap (tokenMeter action tokenCount)

def checkAndConsumeActionBudget (action : PolicyAction) (resolved : ResolvedPolicyContext) (now : ℚ)
    (consuming : Bool) : UsageLogs Unit → Option PolicyViolation × UsageLogs Unit :=
  checkScopes actionWeight now consuming (actionMeters action resolved)

def checkAndConsumeSpendBudget (action : PolicyAction) (resolved : ResolvedPolicyContext) (now : ℚ)
    (consuming : Bool) : UsageLogs Int → Option PolicyViolation × UsageLogs Int :=
  checkScopes id now consuming (spendMeters action resolved)

def checkAndConsumeTokenBudget (action : PolicyAction) (resolved : ResolvedPolicyContext) (now : ℚ)
    (consuming : Bool) : UsageLogs JsNumber → Option PolicyViolation × UsageLogs JsNumber :=
  checkScopes id now consuming (tokenMeters action resolved)

end

/- A finite sample for the scope, else the common one. -/
def resolveScopedNumericValue (baseValue : Option JsNumber) (scopedValues : ScopedSamples)
    (scopeLabel : ScopeLabel) : Option JsNumber :=
  ((scopedValues scopeLabel).filter JsNumber.isFinite).or baseValue

/- The first scope whose sample is above its ceiling. -/
def checkCeilings {β : Type} (code : PolicyViolationCode) (message : String) (action : PolicyAction)
    (baseValue : Option JsNumber) (scopedValues : ScopedSamples) (ceiling : β → JsNumber)
    (details : ScopeLabel → Option String → JsNumber → JsNumber → PolicyViolationDetails)
    (budgets : List (ScopedBudget β)) : Option PolicyViolation := if baseValue = none then none
  else
    budgets.findSome? (fun candidate =>
      match candidate.budget, resolveScopedNumericValue baseValue
          scopedValues candidate.scopeLabel with
      | some budget, some observed => if observed.le (ceiling budget) then none
          else
            some (buildViolation code action message
              (some (details candidate.scopeLabel candidate.scopeValue (ceiling budget) observed)))
      | _, _ => none)

def checkRuntimeBudget (action : PolicyAction) (resolved : ResolvedPolicyContext) :
    Option PolicyViolation :=
  checkCeilings .runtimeBudgetExceeded "Runtime budget exceeded" action action.elapsedRuntimeMs
    action.elapsedRuntimeMsByScope RuntimeBudgetRule.maxElapsedMs .runtimeBudget
    (rulesInScopes action resolved resolved.policy.runtimeBudget
      resolved.policy.scopedRuntimeBudgets)

def checkProcessBudget (action : PolicyAction) (resolved : ResolvedPolicyContext) :
    Option PolicyViolation :=
  checkCeilings .processBudgetExceeded "Managed-process budget exceeded" action
    action.processCount action.processCountByScope ProcessBudgetRule.maxConcurrent .processBudget
    (rulesInScopes action resolved resolved.policy.processBudget
      resolved.policy.scopedProcessBudgets)

end AgencCore.Policy
