import AgencCore.Foundations.Records

/-
  Policy bundles, actions and violations.

  An optional field is an `Option`. Risk scores and budget limits are numbers of the scripting host,
  lamports are integers. The metadata of an action is read by two checks only, which take the
  strings of two arrays; an entry that is not a string is `MetadataEntry.other`.
-/

namespace AgencCore.Policy

open Foundations

inductive PolicyClass where
  | readOnly
  | reversibleSideEffect
  | destructiveSideEffect
  | irreversibleFinancialAction
  | credentialSecretAccess
deriving DecidableEq

def PolicyClass.text : PolicyClass → String
| .readOnly => "read_only"
| .reversibleSideEffect => "reversible_side_effect"
| .destructiveSideEffect => "destructive_side_effect"
| .irreversibleFinancialAction => "irreversible_financial_action"
| .credentialSecretAccess => "credential_secret_access"

/- The modes a circuit breaker can be tripped into. -/
inductive CircuitBreakerMode where
  | pauseDiscovery
  | haltSubmissions
  | safeMode
deriving DecidableEq

structure PolicyBudgetRule where
  limit : JsNumber
  windowMs : JsNumber
deriving DecidableEq

structure SpendBudgetRule where
  limitLamports : Int
  windowMs : JsNumber
deriving DecidableEq

structure TokenBudgetRule where
  limitTokens : JsNumber
  windowMs : JsNumber
deriving DecidableEq

structure RuntimeBudgetRule where
  maxElapsedMs : JsNumber
deriving DecidableEq

structure ProcessBudgetRule where
  maxConcurrent : JsNumber
deriving DecidableEq

/- Rules of one kind for the three scopes. -/
structure ScopedBudgetRules (α : Type) where
  tenant : Option α
  project : Option α
  run : Option α
deriving DecidableEq

structure NetworkAccessRule where
  allowHosts : Option (List String)
  denyHosts : Option (List String)
deriving DecidableEq

structure WriteScopeRule where
  allowRoots : Option (List String)
  denyRoots : Option (List String)
deriving DecidableEq

structure PolicyClassRule where
  deny : Option Bool
  maxRiskScore : Option JsNumber
deriving DecidableEq

structure CircuitBreakerConfig where
  enabled : Option Bool
  threshold : JsNumber
  windowMs : JsNumber
  mode : CircuitBreakerMode
deriving DecidableEq

structure RuntimePolicyBundleConfig where
  enabled : Option Bool := none
  allowActions : Option (List String) := none
  denyActions : Option (List String) := none
  toolAllowList : Option (List String) := none
  toolDenyList : Option (List String) := none
  credentialAllowList : Option (List String) := none
  networkAccess : Option NetworkAccessRule := none
  writeScope : Option WriteScopeRule := none
  actionBudgets : Option (Record PolicyBudgetRule) := none
  spendBudget : Option SpendBudgetRule := none
  tokenBudget : Option TokenBudgetRule := none
  runtimeBudget : Option RuntimeBudgetRule := none
  processBudget : Option ProcessBudgetRule := none
  scopedActionBudgets : Option (ScopedBudgetRules (Record PolicyBudgetRule)) := none
  scopedSpendBudgets : Option (ScopedBudgetRules SpendBudgetRule) := none
  scopedTokenBudgets : Option (ScopedBudgetRules TokenBudgetRule) := none
  scopedRuntimeBudgets : Option (ScopedBudgetRules RuntimeBudgetRule) := none
  scopedProcessBudgets : Option (ScopedBudgetRules ProcessBudgetRule) := none
  maxRiskScore : Option JsNumber := none
  policyClassRules : Option (OrderedMap PolicyClass PolicyClassRule) := none
  circuitBreaker : Option CircuitBreakerConfig := none

/- The global bundle with its overlays. -/
structure RuntimePolicyConfig where
  bundle : RuntimePolicyBundleConfig
  defaultTenantId : Option String
  defaultProjectId : Option String
  tenantBundles : Option (Record RuntimePolicyBundleConfig)
  projectBundles : Option (Record RuntimePolicyBundleConfig)

----------
-- Actions And Violations
----------

inductive PolicyActionType where
  | toolCall
  | taskDiscovery
  | taskClaim
  | taskExecution
  | txSubmission
  | custom
deriving DecidableEq

def PolicyActionType.text : PolicyActionType → String
| .toolCall => "tool_call"
| .taskDiscovery => "task_discovery"
| .taskClaim => "task_claim"
| .taskExecution => "task_execution"
| .txSubmission => "tx_submission"
| .custom => "custom"

inductive PolicyAccess where
  | read
  | write
deriving DecidableEq

structure PolicyEvaluationScope where
  tenantId : Option String
  projectId : Option String
  runId : Option String := none

/- The scopes a budget can be counted in. -/
inductive ScopeLabel where
  | global
  | tenant
  | project
  | run
deriving DecidableEq

/- Samples of a quantity for single scopes. -/
abbrev ScopedSamples := ScopeLabel → Option JsNumber

/- An entry of an array in the metadata of an action. -/
inductive MetadataEntry where
  | string (value : String)
  | other

/-
  An action. `networkHosts` and `writePaths` are the entries of the metadata under these names,
  `none` unless there is an array.
-/
structure PolicyAction where
  type : PolicyActionType
  name : String
  access : PolicyAccess := .read
  policyClass : Option PolicyClass := none
  riskScore : Option JsNumber := none
  spendLamports : Option Int := none
  tokenCount : Option JsNumber := none
  elapsedRuntimeMs : Option JsNumber := none
  elapsedRuntimeMsByScope : ScopedSamples := fun _ => none
  processCount : Option JsNumber := none
  processCountByScope : ScopedSamples := fun _ => none
  scope : Option PolicyEvaluationScope := none
  networkHosts : Option (List MetadataEntry) := none
  writePaths : Option (List MetadataEntry) := none

inductive PolicyViolationCode where
  | circuitBreakerActive
  | toolDenied
  | actionDenied
  | actionBudgetExceeded
  | spendBudgetExceeded
  | tokenBudgetExceeded
  | runtimeBudgetExceeded
  | processBudgetExceeded
  | riskThresholdExceeded
  | policyClassDenied
  | policyClassRiskExceeded
  | networkAccessDenied
  | writeScopeDenied
deriving DecidableEq

inductive PolicyViolationDetails where
  | policyClass (policyClass : PolicyClass)
  | classRisk (policyClass : PolicyClass) (maxRiskScore riskScore : JsNumber)
  | risk (maxRiskScore riskScore : JsNumber)
  | host (host : String)
  | path (path : String)
  | actionBudget (scope : ScopeLabel) (scopeValue : Option String) (limit windowMs : JsNumber)
      (observed : Nat)
  | spendBudget (scope : ScopeLabel) (scopeValue : Option String)
      (limitLamports currentLamports attemptedLamports : String)
  | tokenBudget (scope : ScopeLabel) (scopeValue : Option String)
      (limitTokens currentTokens attemptedTokens : JsNumber)
  | runtimeBudget (scope : ScopeLabel) (scopeValue : Option String)
      (maxElapsedMs observedElapsedMs : JsNumber)
  | processBudget (scope : ScopeLabel) (scopeValue : Option String)
      (maxConcurrent observedConcurrent : JsNumber)
deriving DecidableEq

structure PolicyViolation where
  code : PolicyViolationCode
  message : String
  actionType : PolicyActionType
  actionName : String
  details : Option PolicyViolationDetails
deriving DecidableEq

/-
  What the checks take from the host: case mapping, number rendering, the regular expression engine,
  whose compiler rejects some patterns, and the working directory.
-/
structure PolicyHost where
  toLowerCase : String → String
  toFixed : Nat → JsNumber → String
  regExpTest : String → String → Option Bool
  cwd : String

/- ASCII case mapping, and no regular expressions. -/
def PolicyHost.basic : PolicyHost where
  toLowerCase := fun s => String.ofList (s.toList.map Char.toLower)
  toFixed := fun _ number => TextHost.basic.numberToString number
  regExpTest := fun _ _ => none
  cwd := "/"

end AgencCore.Policy
