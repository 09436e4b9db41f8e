import AgencCore.Policy.Bundles
import AgencCore.Policy.Matching

/-
  The static rules of the policy engine.

  Each check reads an action and a bundle and returns the first violation it finds. Budgets and the
  circuit breaker, which depend on earlier actions, are not part of these rules. The checks run when
  the bundle is enabled, in the order of `staticViolations`.
-/

namespace AgencCore.Policy

open Foundations

section

def buildViolation (code : PolicyViolationCode) (action : PolicyAction) (message : String)
    (details : Option PolicyViolationDetails) : PolicyViolation :=
  { code := code, message := message, actionType := action.type, actionName := action.name
    details := details }

/- The deny-list and the allow-list of names. -/
def checkNameLists (code : PolicyViolationCode) (noun : String) (action : PolicyAction)
    (denyList allowList : Option (List String)) : Option PolicyViolation :=
  if action.name ∈ entriesOf denyList then
    some (buildViolation code action
      (noun ++ " \"" ++ action.name ++ "\" is denied by policy") none)
  else if entriesOf allowList ≠ [] ∧ action.name ∉ entriesOf allowList then
    some (buildViolation code action
      (noun ++ " \"" ++ action.name ++ "\" is not in allow-list") none)
  else none

def checkToolRules (action : PolicyAction) (policy : RuntimePolicyBundleConfig) :
    Option PolicyViolation :=
  if action.type ≠ .toolCall then none
  else checkNameLists .toolDenied "Tool" action policy.toolDenyList policy.toolAllowList

def checkActionRules (action : PolicyAction) (policy : RuntimePolicyBundleConfig) :
    Option PolicyViolation :=
  checkNameLists .actionDenied "Action" action policy.denyActions policy.allowActions

variable (host : PolicyHost)

/- A class ceiling rejects what is above it. -/
def checkPolicyClass (action : PolicyAction) (policy : RuntimePolicyBundleConfig) :
    Option PolicyViolation :=
  match action.policyClass with
  | none => none
  | some policyClass =>
    match classRule? policy.policyClassRules policyClass with
    | none => none
    | some rule =>
      if rule.deny = some true then
        some (buildViolation .policyClassDenied action
          ("Policy class \"" ++ policyClass.text ++ "\" is denied by policy")
          (some (.policyClass policyClass)))
      else
        match rule.maxRiskScore, action.riskScore with
        | some maxRiskScore, some riskScore =>
          if maxRiskScore.lt riskScore then
            some (buildViolation .policyClassRiskExceeded action
              ("Policy class \"" ++ policyClass.text ++ "\" risk " ++
                host.toFixed 3 riskScore ++ " exceeds max " ++ host.toFixed 3 maxRiskScore)
              (some (.classRisk policyClass maxRiskScore riskScore)))
          else none
        | _, _ => none

/-
  The global ceiling rejects what is not at or below it, so unlike a class ceiling it also rejects a
  score that cannot be compared.
-/
def checkRisk (action : PolicyAction) (policy : RuntimePolicyBundleConfig) :
    Option PolicyViolation :=
  match policy.maxRiskScore, action.riskScore with
  | some maxRisk, some riskScore => if riskScore.le maxRisk then none
      else
        some (buildViolation .riskThresholdExceeded action
          ("Risk score " ++ host.toFixed 3 riskScore ++ " exceeds max " ++ host.toFixed 3 maxRisk)
          (some (.risk maxRisk riskScore)))
  | _, _ => none

----------
-- Hosts And Paths
----------

def usableEntries (list : Option (List String)) : List String :=
  (entriesOf list).filter (fun entry => !isBlank entry)

/- The texts of a metadata array that are not blank. -/
def metadataTexts (entries : Option (List MetadataEntry)) : List String :=
  (entries.getD []).filterMap (fun entry =>
      match entry with
      | .string value => if isBlank value then none else some value
      | .other => none)

def findDeniedHost (networkHosts : List String) (rule : NetworkAccessRule) : Option String :=
  networkHosts.find? (fun name =>
    (usableEntries rule.denyHosts).any (fun pattern => globMatch host pattern name))

/- The first host that no allowed pattern matches. -/
def findDisallowedHost (networkHosts : List String) (rule : NetworkAccessRule) : Option String :=
  if usableEntries rule.allowHosts = [] then none
  else
    networkHosts.find? (fun name =>
      !(usableEntries rule.allowHosts).any (fun pattern => globMatch host pattern name))

def checkNetworkAccess (action : PolicyAction) (policy : RuntimePolicyBundleConfig) :
    Option PolicyViolation :=
  match policy.networkAccess with
  | none => none
  | some rule =>
    let networkHosts := metadataTexts action.networkHosts
    match findDeniedHost host networkHosts rule with
    | some deniedHost =>
      some (buildViolation .networkAccessDenied action
        ("Network access to host \"" ++ deniedHost ++ "\" is denied by policy")
        (some (.host deniedHost)))
    | none => match findDisallowedHost host networkHosts rule with
        | some disallowedHost =>
          some (buildViolation .networkAccessDenied action
            ("Network access to host \"" ++ disallowedHost ++
              "\" is outside the allowed host set") (some (.host disallowedHost)))
        | none => none

/- What is wrong with one path, as message and details. -/
def writePathViolation (rule : WriteScopeRule) (candidate : String) :
    Option (String × PolicyViolationDetails) :=
  if !isAbsolute candidate then
    some ("Write path \"" ++ candidate ++ "\" is relative and cannot be validated against " ++
      "policy.writeScope", .path candidate)
  else if (usableEntries rule.denyRoots).any (fun root => pathMatchesRoot host candidate root) then
    some ("Write path \"" ++ candidate ++ "\" is denied by policy.writeScope", .path candidate)
  else if
      usableEntries rule.allowRoots ≠ [] ∧
        !(usableEntries rule.allowRoots).any (fun root => pathMatchesRoot host candidate root) then
    some ("Write path \"" ++ candidate ++ "\" is outside the allowed write roots", .path candidate)
  else none

def findWriteScopeViolation (writePaths : List String) (rule : WriteScopeRule) :
    Option (String × PolicyViolationDetails) := writePaths.findSome? (writePathViolation host rule)

def checkWriteScope (action : PolicyAction) (policy : RuntimePolicyBundleConfig) :
    Option PolicyViolation :=
  match policy.writeScope with
  | none => none
  | some rule =>
    (findWriteScopeViolation host (metadataTexts action.writePaths) rule).map
      (fun denied => buildViolation .writeScopeDenied action denied.1 (some denied.2))

/- The violations of the static rules, in their order. -/
def staticViolations (action : PolicyAction) (policy : RuntimePolicyBundleConfig) :
    List PolicyViolation :=
  [checkToolRules action policy, checkActionRules action policy,
    checkPolicyClass host action policy, checkRisk host action policy,
    checkNetworkAccess host action policy, checkWriteScope host action policy].reduceOption

/- An enabled bundle rejects what violates a rule. -/
def rejects (policy : RuntimePolicyBundleConfig) (action : PolicyAction) : Bool :=
  isEnabled policy && !(staticViolations host action policy).isEmpty

theorem rejects_eq_true_iff (policy : RuntimePolicyBundleConfig) (action : PolicyAction) :
    rejects host policy action = true ↔
      isEnabled policy = true ∧
        ((checkToolRules action policy).isSome ∨ (checkActionRules action policy).isSome ∨
          (checkPolicyClass host action policy).isSome ∨ (checkRisk host action policy).isSome ∨
          (checkNetworkAccess host action policy).isSome ∨
          (checkWriteScope host action policy).isSome) := by
  unfold rejects staticViolations
  rw [Bool.and_eq_true]
  apply and_congr_right
  intro _
  cases checkToolRules action policy <;> cases checkActionRules action policy <;>
    cases checkPolicyClass host action policy <;> cases checkRisk host action policy <;>
    cases checkNetworkAccess host action policy <;> cases checkWriteScope host action policy <;>
    simp [List.reduceOption]

end

end AgencCore.Policy
