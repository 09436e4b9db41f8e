import AgencCore.Policy.Types

/-
  Merging of policy bundles.

  An overlay is merged into a bundle field by field: allow-lists are intersected, deny-lists united,
  limits and ceilings take the smaller value and windows the larger one. The intersection treats an
  empty list like a missing one, as the checks do.
-/

namespace AgencCore.Policy

open Foundations

def intersectOptionalLists (current next : Option (List String)) : Option (List String) :=
  match current with
  | none => next
  | some [] => next
  | some (first :: rest) =>
    match next with
    | none => some (first :: rest)
    | some [] => some (first :: rest)
    | some (other :: others) => some ((first :: rest).filter (fun value => value ∈ other :: others))

def unionOptionalLists (current next : Option (List String)) : Option (List String) :=
  match current, next with
  | none, none => none
  | _, _ => some (current.getD [] ++ next.getD []).eraseDups

abbrev entriesOf (list : Option (List String)) : List String := list.getD []

/- The entries of an intersection: those on every list that has entries at all. -/
theorem mem_intersectOptionalLists (current next : Option (List String)) (value : String) :
    value ∈ entriesOf (intersectOptionalLists current next) ↔
      (entriesOf current ≠ [] ∨ entriesOf next ≠ []) ∧
        (entriesOf current ≠ [] → value ∈ entriesOf current) ∧
        (entriesOf next ≠ [] → value ∈ entriesOf next) := by
  unfold intersectOptionalLists entriesOf
  rcases current with _ | (_ | ⟨a, as⟩) <;> rcases next with _ | (_ | ⟨b, bs⟩) <;> simp

theorem mem_unionOptionalLists (current next : Option (List String)) (value : String) :
    value ∈ entriesOf (unionOptionalLists current next) ↔
      value ∈ entriesOf current ∨ value ∈ entriesOf next := by
  unfold unionOptionalLists entriesOf
  cases current <;> cases next <;> simp

----------
-- Rules
----------

def mergeOptional {α : Type} (merge : α → α → α) (current next : Option α) : Option α :=
  match current, next with
  | none, next => next
  | some a, none => some a
  | some a, some b => some (merge a b)

def mergeBudgetRule : Option PolicyBudgetRule → Option PolicyBudgetRule → Option PolicyBudgetRule :=
  mergeOptional (fun current next =>
    ⟨current.limit.min next.limit, current.windowMs.max next.windowMs⟩)

def mergeSpendBudgetRule :
    Option SpendBudgetRule → Option SpendBudgetRule → Option SpendBudgetRule :=
  mergeOptional (fun current next =>
    ⟨if current.limitLamports < next.limitLamports then current.limitLamports
      else next.limitLamports, current.windowMs.max next.windowMs⟩)

def mergeTokenBudgetRule :
    Option TokenBudgetRule → Option TokenBudgetRule → Option TokenBudgetRule :=
  mergeOptional (fun current next =>
    ⟨current.limitTokens.min next.limitTokens, current.windowMs.max next.windowMs⟩)

def mergeRuntimeBudgetRule :
    Option RuntimeBudgetRule → Option RuntimeBudgetRule → Option RuntimeBudgetRule :=
  mergeOptional (fun current next => ⟨current.maxElapsedMs.min next.maxElapsedMs⟩)

def mergeProcessBudgetRule :
    Option ProcessBudgetRule → Option ProcessBudgetRule → Option ProcessBudgetRule :=
  mergeOptional (fun current next => ⟨current.maxConcurrent.min next.maxConcurrent⟩)

def mergeBudgetMaps (current next : Option (Record PolicyBudgetRule)) :
    Option (Record PolicyBudgetRule) :=
  match current, next with
  | none, none => none
  | _, _ =>
    let copied := OrderedMap.ofList (Record.objectEntries (current.getD OrderedMap.empty))
    some
      ((Record.objectEntries (next.getD OrderedMap.empty)).foldl
        (fun merged entry => match mergeBudgetRule (merged.get? entry.1) (some entry.2) with
          | none => merged
          | some rule => merged.set entry.1 rule) copied)

def mergeScoped {α : Type} (merge : Option α → Option α → Option α)
    (current next : Option (ScopedBudgetRules α)) : Option (ScopedBudgetRules α) :=
  match current, next with
  | none, none => none
  | _, _ =>
    some
      { tenant := merge (current.bind (·.tenant))
          (next.bind (·.tenant))
        project := merge (current.bind (·.project))
          (next.bind (·.project))
        run := merge (current.bind (·.run)) (next.bind (·.run)) }

def mergeNetworkAccess (current next : Option NetworkAccessRule) : Option NetworkAccessRule :=
  match current, next with
  | none, none => none
  | _, _ =>
    some
      { allowHosts := intersectOptionalLists (current.bind (·.allowHosts))
          (next.bind (·.allowHosts))
        denyHosts := unionOptionalLists (current.bind (·.denyHosts))
          (next.bind (·.denyHosts)) }

def mergeWriteScope (current next : Option WriteScopeRule) : Option WriteScopeRule :=
  match current, next with
  | none, none => none
  | _, _ =>
    some
      { allowRoots := intersectOptionalLists (current.bind (·.allowRoots))
          (next.bind (·.allowRoots))
        denyRoots := unionOptionalLists (current.bind (·.denyRoots))
          (next.bind (·.denyRoots)) }

/- The smaller of two ceilings that may be missing. -/
def mergeMaxRiskScore : Option JsNumber → Option JsNumber → Option JsNumber :=
  mergeOptional JsNumber.min

/- The rule of a class, `undefined` when there is none. -/
def classRule? (rules : Option (OrderedMap PolicyClass PolicyClassRule))
    (key : PolicyClass) : Option PolicyClassRule := rules.bind (fun rules => rules.get? key)

def mergeClassRule (existing incoming : Option PolicyClassRule) : PolicyClassRule :=
  { deny := some
      ((existing.bind (·.deny)).getD false ||
        (incoming.bind (·.deny)).getD false)
    maxRiskScore := mergeMaxRiskScore (existing.bind (·.maxRiskScore))
      (incoming.bind (·.maxRiskScore)) }

def mergePolicyClassRules (current next : Option (OrderedMap PolicyClass PolicyClassRule)) :
    Option (OrderedMap PolicyClass PolicyClassRule) :=
  match current, next with
  | none, none => none
  | _, _ =>
    let keys :=
      ((current.getD OrderedMap.empty).keys ++ (next.getD OrderedMap.empty).keys).eraseDups
    some (OrderedMap.ofList
      (keys.map (fun key => (key, mergeClassRule (classRule? current key) (classRule? next key)))))

theorem classRule?_mergePolicyClassRules
    (current next : Option (OrderedMap PolicyClass PolicyClassRule)) (key : PolicyClass) :
    classRule? (mergePolicyClassRules current next) key =
      if (classRule? current key).isSome || (classRule? next key).isSome then
        some (mergeClassRule (classRule? current key) (classRule? next key))
      else none := by
  have hKeys : ∀ rules : Option (OrderedMap PolicyClass PolicyClassRule),
        key ∈ (rules.getD OrderedMap.empty).keys ↔ (classRule? rules key).isSome = true := by
    intro rules
    rw [OrderedMap.mem_keys_iff]
    cases rules <;> simp [classRule?]
  by_cases hNone : current = none ∧ next = none
  · rw [hNone.1, hNone.2]
    simp [mergePolicyClassRules, classRule?]
  · have hMerged : mergePolicyClassRules current next =
          some (OrderedMap.ofList
            (((current.getD OrderedMap.empty).keys ++
              (next.getD OrderedMap.empty).keys).eraseDups.map
              (fun key =>
                (key, mergeClassRule (classRule? current key) (classRule? next key))))) := by
      cases current <;> cases next <;> first
          | exact (hNone ⟨rfl, rfl⟩).elim
          | rfl
    rw [hMerged]
    unfold classRule?
    rw [Option.bind_some, OrderedMap.get?_ofList_map]
    apply if_congr _ rfl rfl
    rw [List.mem_eraseDups, List.mem_append, hKeys, hKeys, ← Bool.or_eq_true]
    rfl

/- `Boolean(flag)` -/
def isEnabled (bundle : RuntimePolicyBundleConfig) : Bool := bundle.enabled.getD false

/- A missing bundle is merged like an empty one. -/
def mergePolicyBundles (base overlay : Option RuntimePolicyBundleConfig) :
    RuntimePolicyBundleConfig :=
  let base := base.getD {}
  let overlay := overlay.getD {}
  { enabled := some (isEnabled base || isEnabled overlay)
    allowActions := intersectOptionalLists base.allowActions overlay.allowActions
    denyActions := unionOptionalLists base.denyActions overlay.denyActions
    toolAllowList := intersectOptionalLists base.toolAllowList overlay.toolAllowList
    toolDenyList := unionOptionalLists base.toolDenyList overlay.toolDenyList
    credentialAllowList := intersectOptionalLists
      base.credentialAllowList overlay.credentialAllowList
    networkAccess := mergeNetworkAccess base.networkAccess overlay.networkAccess
    writeScope := mergeWriteScope base.writeScope overlay.writeScope
    actionBudgets := mergeBudgetMaps base.actionBudgets overlay.actionBudgets
    spendBudget := mergeSpendBudgetRule base.spendBudget overlay.spendBudget
    tokenBudget := mergeTokenBudgetRule base.tokenBudget overlay.tokenBudget
    runtimeBudget := mergeRuntimeBudgetRule base.runtimeBudget overlay.runtimeBudget
    processBudget := mergeProcessBudgetRule base.processBudget overlay.processBudget
    scopedActionBudgets := mergeScoped mergeBudgetMaps
      base.scopedActionBudgets overlay.scopedActionBudgets
    scopedSpendBudgets := mergeScoped mergeSpendBudgetRule
      base.scopedSpendBudgets overlay.scopedSpendBudgets
    scopedTokenBudgets := mergeScoped mergeTokenBudgetRule
      base.scopedTokenBudgets overlay.scopedTokenBudgets
    scopedRuntimeBudgets := mergeScoped mergeRuntimeBudgetRule
      base.scopedRuntimeBudgets overlay.scopedRuntimeBudgets
    scopedProcessBudgets := mergeScoped mergeProcessBudgetRule
      base.scopedProcessBudgets overlay.scopedProcessBudgets
    maxRiskScore := mergeMaxRiskScore base.maxRiskScore overlay.maxRiskScore
    policyClassRules := mergePolicyClassRules base.policyClassRules overlay.policyClassRules
    circuitBreaker :=
      match overlay.circuitBreaker with
      | some breaker => some breaker
      | none => base.circuitBreaker }

structure ResolvedPolicyContext where
  tenantId : Option String
  projectId : Option String
  policy : RuntimePolicyBundleConfig

/-
  Merge the overlay of a scope. An empty identifier selects no scope, and one without an overlay
  merges an empty one.
-/
def mergeScopeBundle (bundles : Option (Record RuntimePolicyBundleConfig)) (id : Option String)
    (resolved : RuntimePolicyBundleConfig) : RuntimePolicyBundleConfig :=
  match id.filter (fun id => id ≠ "") with
  | none => resolved
  | some id => mergePolicyBundles (some resolved) (bundles.bind (fun bundles => bundles.get? id))

def resolvePolicyContext (policy : Option RuntimePolicyConfig)
    (scope : Option PolicyEvaluationScope) : ResolvedPolicyContext :=
  let tenantId :=
    (scope.bind (·.tenantId)).or
      (policy.bind (·.defaultTenantId))
  let projectId :=
    (scope.bind (·.projectId)).or
      (policy.bind (·.defaultProjectId))
  let resolved := mergePolicyBundles (policy.map (·.bundle)) none
  { tenantId := tenantId, projectId := projectId
    policy :=
      mergeScopeBundle (policy.bind (·.projectBundles)) projectId
        (mergeScopeBundle (policy.bind (·.tenantBundles)) tenantId resolved) }

end AgencCore.Policy
