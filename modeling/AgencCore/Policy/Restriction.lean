import AgencCore.Policy.StaticRules

/-
  What merging does to the actions a bundle rejects.

  A `PolicyView` says what the static rules see of a bundle, as sets: the entries of each deny-list
  and allow-list, the risk scores above a ceiling, the denied classes. Merging bundles combines
  their views. Denied entries and rejected scores only grow, but two things can be lost: an
  allow-list, when two of them have no usable entry in common, since an empty list allows
  everything; and the ceiling of a class, when the other one is not a number.
-/

namespace AgencCore.Policy

open Foundations List JsNumber Option

/- The entries of a deny-list and of an allow-list. -/
@[ext]
structure AccessView where
  deny : Set String
  allow : Set String

/-
  The entries two allow-lists allow together. A list without entries allows everything, so it does
  not count.
-/
def commonEntries (first second : Set String) : Set String := {entry |
    (first.Nonempty ∨ second.Nonempty) ∧ (first.Nonempty → entry ∈ first) ∧
      (second.Nonempty → entry ∈ second)}

def AccessView.combine (first second : AccessView) : AccessView :=
  { deny := first.deny ∪ second.deny, allow := commonEntries first.allow second.allow }

/-
  A value is rejected if a usable denied entry hits it, or if there are usable allowed entries and
  none hits it.
-/
def AccessView.Rejects (view : AccessView) (usable hits : String → Bool) : Prop :=
  (∃ entry ∈ view.deny, usable entry = true ∧ hits entry = true) ∨
  ((∃ entry ∈ view.allow, usable entry = true) ∧
    ∀ entry ∈ view.allow, usable entry = true → hits entry = false)

/-
  What the static rules see of a bundle. `classScores` are the scores above the ceiling of a class,
  `unordered` the classes whose ceiling is not a number.
-/
@[ext]
structure PolicyView where
  tools : AccessView
  actions : AccessView
  deniedClasses : Set PolicyClass
  unordered : Set PolicyClass
  classScores : PolicyClass → Set JsNumber
  riskScores : Set JsNumber
  hosts : AccessView
  writes : AccessView
  writeScoped : Prop

def PolicyView.combine (first second : PolicyView) : PolicyView :=
  { tools := first.tools.combine second.tools
    actions := first.actions.combine second.actions
    deniedClasses := first.deniedClasses ∪ second.deniedClasses
    unordered := first.unordered ∪ second.unordered
    classScores := fun policyClass => {score |
      policyClass ∉ first.unordered ∪ second.unordered ∧
        (score ∈ first.classScores policyClass ∨ score ∈ second.classScores policyClass)}
    riskScores := first.riskScores ∪ second.riskScores
    hosts := first.hosts.combine second.hosts
    writes := first.writes.combine second.writes
    writeScoped := first.writeScoped ∨ second.writeScoped }

/- The actions the static rules of a view reject. -/
def PolicyView.Rejects (host : PolicyHost) (view : PolicyView) (action : PolicyAction) : Prop :=
  (action.type = .toolCall ∧
    view.tools.Rejects (fun _ => true) (fun entry => entry == action.name)) ∨
  view.actions.Rejects (fun _ => true) (fun entry => entry == action.name) ∨
  (∃ policyClass, action.policyClass = some policyClass ∧
    (policyClass ∈ view.deniedClasses ∨
      ∃ score, action.riskScore = some score ∧ score ∈ view.classScores policyClass)) ∨
  (∃ score, action.riskScore = some score ∧ score ∈ view.riskScores) ∨
  (∃ name ∈ metadataTexts action.networkHosts,
    view.hosts.Rejects (fun entry => !isBlank entry) (fun pattern => globMatch host pattern name)) ∨
  (view.writeScoped ∧
    ∃ path ∈ metadataTexts action.writePaths, isAbsolute path = false ∨
        view.writes.Rejects (fun entry => !isBlank entry)
          (fun root => pathMatchesRoot host path root))

def entrySet (list : Option (List String)) : Set String := {entry | entry ∈ entriesOf list}

def accessOf (deny allow : Option (List String)) : AccessView :=
  { deny := entrySet deny, allow := entrySet allow }

/- Whether a class is denied, if its rule says so. -/
def classDeny (bundle : RuntimePolicyBundleConfig) (policyClass : PolicyClass) : Option Bool :=
  (classRule? bundle.policyClassRules policyClass).bind (·.deny)

/- The ceiling of a class, if it has one. -/
def classCeiling (bundle : RuntimePolicyBundleConfig)
    (policyClass : PolicyClass) : Option JsNumber :=
  (classRule? bundle.policyClassRules policyClass).bind (·.maxRiskScore)

def viewOf (bundle : RuntimePolicyBundleConfig) : PolicyView :=
  { tools := accessOf bundle.toolDenyList bundle.toolAllowList
    actions := accessOf bundle.denyActions bundle.allowActions
    deniedClasses := {policyClass | classDeny bundle policyClass = some true}
    unordered := {policyClass |
      ∃ ceiling ∈ classCeiling bundle policyClass, ceiling.isNaN = true}
    classScores := fun policyClass => {score |
      ∃ ceiling ∈ classCeiling bundle policyClass, ceiling.lt score = true}
    riskScores := {score | ∃ ceiling ∈ bundle.maxRiskScore, score.le ceiling = false}
    hosts := accessOf (bundle.networkAccess.bind (·.denyHosts))
      (bundle.networkAccess.bind (·.allowHosts))
    writes := accessOf (bundle.writeScope.bind (·.denyRoots))
      (bundle.writeScope.bind (·.allowRoots))
    writeScoped := bundle.writeScope.isSome = true }

----------
-- Rejections Read From The View
----------

/- The rejections of two lists, from their usable entries. -/
theorem accessOf_rejects_iff (deny allow : Option (List String)) (usable hits : String → Bool) :
    (accessOf deny allow).Rejects usable hits ↔
      ((entriesOf deny).filter usable).any hits = true ∨
        ((entriesOf allow).filter usable ≠ [] ∧
          ((entriesOf allow).filter usable).any hits = false) := by
  have hSome :
      (∃ entry ∈ entriesOf allow, usable entry = true) ↔ (entriesOf allow).filter usable ≠ [] := by
    rw [Ne, filter_eq_nil_iff]
    push Not
    rfl
  have hMiss : (∀ entry ∈ entriesOf allow, usable entry = true → hits entry = false) ↔
        ((entriesOf allow).filter usable).any hits = false := by simp [List.any_eq_false]
  have hHit : (∃ entry ∈ entriesOf deny, usable entry = true ∧ hits entry = true) ↔
        ((entriesOf deny).filter usable).any hits = true := by simp [List.any_eq_true]
  rw [← hSome, ← hMiss, ← hHit]
  rfl

theorem checkNameLists_isSome_iff (code : PolicyViolationCode) (noun : String)
    (action : PolicyAction) (denyList allowList : Option (List String)) :
    (checkNameLists code noun action denyList allowList).isSome = true ↔
      (accessOf denyList allowList).Rejects (fun _ => true)
        (fun entry => entry == action.name) := by
  have hAny : ∀ names : List String,
        names.any (fun entry => entry == action.name) = decide (action.name ∈ names) := by
    intro names
    rw [any_beq', contains_eq_mem]
  rw [accessOf_rejects_iff]
  simp only [filter_true, hAny, decide_eq_true_eq, decide_eq_false_iff_not]
  unfold checkNameLists
  split
  · simp [*]
  · split <;> simp [*]

variable (host : PolicyHost)
variable (action : PolicyAction)
variable (policy : RuntimePolicyBundleConfig)

theorem checkPolicyClass_isSome_iff : (checkPolicyClass host action policy).isSome = true ↔
      ∃ policyClass, action.policyClass = some policyClass ∧
          (policyClass ∈ (viewOf policy).deniedClasses ∨
            ∃ score, action.riskScore = some score ∧
              score ∈ (viewOf policy).classScores policyClass) := by
  unfold checkPolicyClass viewOf classDeny classCeiling
  cases action.policyClass with
  | none => simp
  | some policyClass => cases hRule : classRule? policy.policyClassRules policyClass with
      | none => simp [hRule]
      | some rule =>
        by_cases hDeny : rule.deny = some true
        · simp [hRule, hDeny]
        · cases hMax : rule.maxRiskScore <;> cases action.riskScore <;> simp [hRule, hDeny, hMax]

theorem checkRisk_isSome_iff : (checkRisk host action policy).isSome = true ↔
      ∃ score, action.riskScore = some score ∧ score ∈ (viewOf policy).riskScores := by
  unfold checkRisk viewOf
  cases policy.maxRiskScore <;> cases action.riskScore <;> simp

theorem checkNetworkAccess_isSome_iff : (checkNetworkAccess host action policy).isSome = true ↔
      ∃ name ∈ metadataTexts action.networkHosts,
        (viewOf policy).hosts.Rejects (fun entry => !isBlank entry)
          (fun pattern => globMatch host pattern name) := by
  simp only [viewOf, accessOf_rejects_iff]
  unfold checkNetworkAccess
  cases policy.networkAccess with
  | none => simp
  | some rule =>
    have hSome : (findDeniedHost host (metadataTexts action.networkHosts) rule).isSome = true ∨
          (findDisallowedHost host (metadataTexts action.networkHosts) rule).isSome = true ↔
        ∃ name ∈ metadataTexts action.networkHosts,
          (usableEntries rule.denyHosts).any (fun pattern => globMatch host pattern name) = true ∨
            (usableEntries rule.allowHosts ≠ [] ∧
              (usableEntries rule.allowHosts).any
                (fun pattern => globMatch host pattern name) = false) := by
      unfold findDeniedHost findDisallowedHost
      rw [find?_isSome]
      split
      · next hEmpty => simp [hEmpty]
      · next hUsable =>
          rw [find?_isSome, ← exists_or]
          simp only [hUsable, Bool.not_eq_true', not_false_eq_true, ne_eq, true_and]
          exact exists_congr fun name => and_or_left.symm
    refine Iff.trans ?_ hSome
    cases hDenied : findDeniedHost host (metadataTexts action.networkHosts) rule <;>
      cases hDisallowed : findDisallowedHost host (metadataTexts action.networkHosts) rule <;>
      simp [hDenied, hDisallowed]

theorem checkWriteScope_isSome_iff : (checkWriteScope host action policy).isSome = true ↔
      (viewOf policy).writeScoped ∧
        ∃ path ∈ metadataTexts action.writePaths, isAbsolute path = false ∨
            (viewOf policy).writes.Rejects (fun entry => !isBlank entry)
              (fun root => pathMatchesRoot host path root) := by
  simp only [viewOf, accessOf_rejects_iff]
  unfold checkWriteScope
  cases policy.writeScope with
  | none => simp
  | some rule =>
    have hPath : ∀ path, (writePathViolation host rule path).isSome = true ↔
            (isAbsolute path = false ∨
              (usableEntries rule.denyRoots).any
                  (fun root => pathMatchesRoot host path root) = true ∨
                (usableEntries rule.allowRoots ≠ [] ∧
                  (usableEntries rule.allowRoots).any
                    (fun root => pathMatchesRoot host path root) = false)) := by
      intro path
      unfold writePathViolation
      split
      · simp_all
      · split
        · simp_all
        · split <;> simp_all
    rw [isSome_map]
    unfold findWriteScopeViolation
    rw [findSome?_isSome_iff]
    simp only [hPath]
    exact ⟨fun h => ⟨rfl, h⟩, fun h => h.2⟩

/- An enabled bundle rejects what its view rejects. -/
theorem rejects_iff_view (action : PolicyAction) : rejects host policy action = true ↔
      isEnabled policy = true ∧ (viewOf policy).Rejects host action := by
  rw [rejects_eq_true_iff]
  apply and_congr_right
  intro _
  unfold PolicyView.Rejects
  rw [← checkPolicyClass_isSome_iff, ← checkRisk_isSome_iff, ← checkNetworkAccess_isSome_iff,
    ← checkWriteScope_isSome_iff]
  apply or_congr
  · unfold checkToolRules
    by_cases hTool : action.type = .toolCall
    · rw [if_neg (not_not.mpr hTool), checkNameLists_isSome_iff]
      exact ⟨fun h => ⟨hTool, h⟩, fun h => h.2⟩
    · simp [hTool]
  · exact or_congr_left (checkNameLists_isSome_iff _ _ _ _ _)

----------
-- Views Of Merged Bundles
----------

theorem nonempty_entrySet_iff (list : Option (List String)) :
    (entrySet list).Nonempty ↔ entriesOf list ≠ [] := by
  rw [Ne, eq_nil_iff_forall_not_mem]
  push Not
  rfl

theorem accessOf_merged (deny otherDeny allow otherAllow : Option (List String)) :
    accessOf (unionOptionalLists deny otherDeny) (intersectOptionalLists allow otherAllow) =
      (accessOf deny allow).combine (accessOf otherDeny otherAllow) := by
  apply AccessView.ext
  · ext entry
    exact mem_unionOptionalLists deny otherDeny entry
  · ext entry
    refine (mem_intersectOptionalLists allow otherAllow entry).trans ?_
    rw [← nonempty_entrySet_iff, ← nonempty_entrySet_iff]
    rfl

variable (base overlay : RuntimePolicyBundleConfig)

theorem classCeiling_mergePolicyBundles (policyClass : PolicyClass) :
    classCeiling (mergePolicyBundles (some base) (some overlay)) policyClass =
      mergeMaxRiskScore (classCeiling base policyClass) (classCeiling overlay policyClass) := by
  unfold classCeiling mergePolicyBundles
  simp only [getD_some]
  rw [classRule?_mergePolicyClassRules]
  cases classRule? base.policyClassRules policyClass <;>
    cases classRule? overlay.policyClassRules policyClass <;> rfl

theorem classDeny_mergePolicyBundles (policyClass : PolicyClass) :
    classDeny (mergePolicyBundles (some base) (some overlay)) policyClass = some true ↔
      classDeny base policyClass = some true ∨ classDeny overlay policyClass = some true := by
  have hDeny : ∀ deny : Option Bool, deny.getD false = true ↔ deny = some true := by decide
  unfold classDeny mergePolicyBundles
  simp only [getD_some]
  rw [classRule?_mergePolicyClassRules]
  cases classRule? base.policyClassRules policyClass <;>
    cases classRule? overlay.policyClassRules policyClass <;> simp [mergeClassRule, hDeny]

variable (current next : Option JsNumber)

/- A score not below the smaller of two ceilings. -/
theorem exists_mergeMaxRiskScore_le (score : JsNumber) :
    (∃ ceiling ∈ mergeMaxRiskScore current next, score.le ceiling = false) ↔
      (∃ ceiling ∈ current, score.le ceiling = false) ∨
        ∃ ceiling ∈ next, score.le ceiling = false := by
  cases current <;> cases next <;>
    simp [mergeMaxRiskScore, mergeOptional, ← Bool.not_eq_true, le_min_right,
      imp_iff_not_or]

theorem exists_mergeMaxRiskScore_isNaN :
    (∃ ceiling ∈ mergeMaxRiskScore current next, ceiling.isNaN = true) ↔
      (∃ ceiling ∈ current, ceiling.isNaN = true) ∨ ∃ ceiling ∈ next, ceiling.isNaN = true := by
  cases current <;> cases next <;> simp [mergeMaxRiskScore, mergeOptional, isNaN_min]

/-
  A score above the smaller of two class ceilings. With a ceiling that is not a number nothing is
  above it.
-/
theorem exists_mergeMaxRiskScore_lt (score : JsNumber) :
    (∃ ceiling ∈ mergeMaxRiskScore current next, ceiling.lt score = true) ↔
      ¬((∃ ceiling ∈ current, ceiling.isNaN = true) ∨ ∃ ceiling ∈ next, ceiling.isNaN = true) ∧
        ((∃ ceiling ∈ current, ceiling.lt score = true) ∨
          ∃ ceiling ∈ next, ceiling.lt score = true) := by
  have hNaN : ∀ ceiling : JsNumber, ceiling.lt score = true → ceiling.isNaN = false := by
    intro ceiling hLt
    cases ceiling <;> first | rfl | cases hLt
  cases current with
  | none => cases next with
      | none => simp [mergeMaxRiskScore, mergeOptional]
      | some second => simpa [mergeMaxRiskScore, mergeOptional] using hNaN second
  | some first => cases next with
      | none => simpa [mergeMaxRiskScore, mergeOptional] using hNaN first
      | some second =>
        by_cases hMin : (first.min second).isNaN = true
        · have hNot : (first.min second).lt score ≠ true := fun hLt => by simp [hNaN _ hLt] at hMin
          rw [isNaN_min, Bool.or_eq_true] at hMin
          simp [mergeMaxRiskScore, mergeOptional, hNot, hMin]
        · rw [isNaN_min, Bool.not_eq_true, Bool.or_eq_false_iff] at hMin
          simp [mergeMaxRiskScore, mergeOptional, hMin.1, hMin.2,
            lt_min_left score hMin.1 hMin.2]

theorem viewOf_mergePolicyBundles : viewOf (mergePolicyBundles (some base) (some overlay)) =
      (viewOf base).combine (viewOf overlay) := by
  apply PolicyView.ext
  · exact accessOf_merged _ _ _ _
  · exact accessOf_merged _ _ _ _
  · ext policyClass
    exact classDeny_mergePolicyBundles _ _ _
  · ext policyClass
    refine Iff.trans ?_ (exists_mergeMaxRiskScore_isNaN (classCeiling base policyClass)
      (classCeiling overlay policyClass))
    rw [← classCeiling_mergePolicyBundles]
    rfl
  · ext policyClass score
    refine Iff.trans ?_ (exists_mergeMaxRiskScore_lt (classCeiling base policyClass)
      (classCeiling overlay policyClass) score)
    rw [← classCeiling_mergePolicyBundles]
    rfl
  · ext score
    exact exists_mergeMaxRiskScore_le _ _ _
  -- a missing rule has the lists of an empty one
  · refine Eq.trans ?_ (accessOf_merged _ _ _ _)
    simp only [viewOf, mergePolicyBundles, getD_some]
    cases base.networkAccess <;> cases overlay.networkAccess <;> rfl
  · refine Eq.trans ?_ (accessOf_merged _ _ _ _)
    simp only [viewOf, mergePolicyBundles, getD_some]
    cases base.writeScope <;> cases overlay.writeScope <;> rfl
  · have hScoped : (mergeWriteScope base.writeScope overlay.writeScope).isSome = true ↔
          base.writeScope.isSome = true ∨ overlay.writeScope.isSome = true := by
      cases base.writeScope <;> cases overlay.writeScope <;> simp [mergeWriteScope]
    exact propext hScoped

----------
-- Rejections Kept By A Merge
----------

/-
  If one of two bundles rejects the action, then the bundles still reject it together: a usable
  entry of a deny-list of either one hits, a ceiling of either one rejects the score (for a class,
  none of its ceilings being `nan`), or two allow-lists have usable entries in common and none of
  them hits.
-/
def KeepsRejections (base overlay : RuntimePolicyBundleConfig) (action : PolicyAction) : Prop :=
  rejects host base action = true ∨ rejects host overlay action = true →
    ((viewOf base).combine (viewOf overlay)).Rejects host action

/- The overlay a scope selects, empty if there is none. -/
def scopeOverlay (bundles : Option (Record RuntimePolicyBundleConfig))
    (id : Option String) : RuntimePolicyBundleConfig :=
  ((id.filter (fun id => id ≠ "")).bind
    (fun id => bundles.bind (fun bundles => bundles.get? id))).getD {}

/- The global bundle and the overlays of tenant and project, combined in this order. -/
def scopedView (policy : RuntimePolicyConfig) (scope : Option PolicyEvaluationScope) : PolicyView :=
  ((viewOf policy.bundle).combine
    (viewOf (scopeOverlay policy.tenantBundles
      ((scope.bind (·.tenantId)).or policy.defaultTenantId)))).combine
    (viewOf (scopeOverlay policy.projectBundles
      ((scope.bind (·.projectId)).or policy.defaultProjectId)))

theorem AccessView.combine_none (view : AccessView) : view.combine (accessOf none none) = view := by
  apply AccessView.ext
  · ext entry
    simp [AccessView.combine, accessOf, entrySet]
  · ext entry
    have hNone : ¬(entrySet none).Nonempty := by simp [entrySet, Set.Nonempty]
    constructor
    · rintro ⟨hSome, hIn, -⟩
      exact hIn (hSome.resolve_right hNone)
    · intro hIn
      exact ⟨.inl ⟨entry, hIn⟩, fun _ => hIn, fun hSome => (hNone hSome).elim⟩

/- An empty overlay changes nothing. -/
theorem combine_viewOf_empty (bundle : RuntimePolicyBundleConfig) :
    (viewOf bundle).combine (viewOf {}) = viewOf bundle := by
  apply PolicyView.ext
  · exact AccessView.combine_none _
  · exact AccessView.combine_none _
  · ext policyClass
    simp [PolicyView.combine, viewOf, classDeny, classRule?]
  · ext policyClass
    simp [PolicyView.combine, viewOf, classCeiling, classRule?]
  · ext policyClass score
    refine (exists_mergeMaxRiskScore_lt (classCeiling bundle policyClass) none score).symm.trans ?_
    cases hCeiling : classCeiling bundle policyClass <;>
      simp [mergeMaxRiskScore, mergeOptional, viewOf, hCeiling]
  · ext score
    simp [PolicyView.combine, viewOf]
  · exact AccessView.combine_none _
  · exact AccessView.combine_none _
  · simp [PolicyView.combine, viewOf]

theorem isEnabled_mergePolicyBundles : isEnabled (mergePolicyBundles (some base) (some overlay)) =
      (isEnabled base || isEnabled overlay) := rfl

theorem rejects_mergePolicyBundles_iff :
    rejects host (mergePolicyBundles (some base) (some overlay)) action = true ↔
      (isEnabled base = true ∨ isEnabled overlay = true) ∧
        ((viewOf base).combine (viewOf overlay)).Rejects host action := by
  rw [rejects_iff_view, viewOf_mergePolicyBundles, isEnabled_mergePolicyBundles, Bool.or_eq_true]

/-
  What a scope does to a bundle: it enables no less, and combines its view with the one of the
  overlay.
-/
theorem mergeScopeBundle_spec (bundles : Option (Record RuntimePolicyBundleConfig))
    (id : Option String) (resolved : RuntimePolicyBundleConfig) :
    (isEnabled resolved = true → isEnabled (mergeScopeBundle bundles id resolved) = true) ∧
      viewOf (mergeScopeBundle bundles id resolved) =
        (viewOf resolved).combine (viewOf (scopeOverlay bundles id)) := by
  unfold mergeScopeBundle scopeOverlay
  cases id.filter (fun id => id ≠ "") with
  | none => exact ⟨fun h => h, (combine_viewOf_empty _).symm⟩
  | some id =>
    -- A missing overlay is merged as an empty one.
    have hOverlay : ∀ overlay : Option RuntimePolicyBundleConfig,
          mergePolicyBundles (some resolved) overlay =
            mergePolicyBundles (some resolved) (some (overlay.getD {})) := by
      intro overlay
      cases overlay <;> rfl
    simp only [bind_some]
    rw [hOverlay]
    refine ⟨?_, viewOf_mergePolicyBundles _ _⟩
    intro hEnabled
    rw [isEnabled_mergePolicyBundles, hEnabled, Bool.true_or]

theorem resolvePolicyContext_spec (policy : RuntimePolicyConfig)
    (scope : Option PolicyEvaluationScope) :
    (isEnabled policy.bundle = true →
      isEnabled (resolvePolicyContext (some policy) scope).policy = true) ∧
      viewOf (resolvePolicyContext (some policy) scope).policy = scopedView policy scope := by
  have hGlobal : mergePolicyBundles (some policy.bundle) none =
        mergePolicyBundles (some policy.bundle) (some {}) := rfl
  unfold resolvePolicyContext scopedView
  simp only [map_some, bind_some]
  constructor
  · intro hEnabled
    apply (mergeScopeBundle_spec _ _ _).1
    apply (mergeScopeBundle_spec _ _ _).1
    rw [hGlobal, isEnabled_mergePolicyBundles, hEnabled, Bool.true_or]
  · rw [(mergeScopeBundle_spec _ _ _).2, (mergeScopeBundle_spec _ _ _).2, hGlobal,
      viewOf_mergePolicyBundles, combine_viewOf_empty]

/-
  Merging keeps the rejections of both bundles exactly when the bundles still reject together, and
  the bundle of a scope keeps those of the global policy exactly when it rejects together with the
  two overlays.
-/
theorem merge_keeps_rejections_iff (base overlay : RuntimePolicyBundleConfig)
    (policy : RuntimePolicyConfig) (scope : Option PolicyEvaluationScope) (action : PolicyAction) :
    (((rejects host base action = true →
          rejects host (mergePolicyBundles (some base) (some overlay)) action = true) ∧
        (rejects host overlay action = true →
          rejects host (mergePolicyBundles (some base) (some overlay)) action = true)) ↔
      KeepsRejections host base overlay action) ∧
    ((rejects host policy.bundle action = true →
        rejects host (resolvePolicyContext (some policy) scope).policy action = true) ↔
      (rejects host policy.bundle action = true →
        (scopedView policy scope).Rejects host action)) := by
  constructor
  · rw [← or_imp]
    unfold KeepsRejections
    apply imp_congr_right
    intro hRejected
    rw [rejects_mergePolicyBundles_iff]
    refine ⟨fun h => h.2, fun h => ⟨?_, h⟩⟩
    exact hRejected.imp (fun hBase => ((rejects_iff_view _ _ _).mp hBase).1)
      (fun hOver => ((rejects_iff_view _ _ _).mp hOver).1)
  · obtain ⟨hEnabled, hView⟩ := resolvePolicyContext_spec policy scope
    apply imp_congr_right
    intro hRejected
    rw [rejects_iff_view, hView]
    refine ⟨fun h => h.2, fun h => ⟨?_, h⟩⟩
    exact hEnabled ((rejects_iff_view _ _ _).mp hRejected).1

theorem AccessView.combine_comm (first second : AccessView) :
    first.combine second = second.combine first := by
  apply AccessView.ext
  · exact Set.union_comm _ _
  · ext entry
    simp only [AccessView.combine, commonEntries, Set.mem_ofPred_eq]
    tauto

theorem PolicyView.combine_comm (first second : PolicyView) :
    first.combine second = second.combine first := by
  simp only [PolicyView.combine, AccessView.combine_comm first.tools,
    AccessView.combine_comm first.actions, AccessView.combine_comm first.hosts,
    AccessView.combine_comm first.writes, Set.union_comm first.deniedClasses,
    Set.union_comm first.unordered, Set.union_comm first.riskScores, or_comm]

/- The order in which two bundles are merged makes no difference to what is rejected. -/
theorem merge_order_irrelevant (host : PolicyHost) (base overlay : RuntimePolicyBundleConfig)
    (action : PolicyAction) :
    rejects host (mergePolicyBundles (some base) (some overlay)) action =
      rejects host (mergePolicyBundles (some overlay) (some base)) action := by
  rw [Bool.eq_iff_iff, rejects_mergePolicyBundles_iff, rejects_mergePolicyBundles_iff,
    PolicyView.combine_comm, or_comm]

/- A global policy that allows a single tool. -/
def sampleGlobal : RuntimePolicyBundleConfig :=
  { enabled := some true, toolAllowList := some ["system.readFile"] }

def sampleOverlay : RuntimePolicyBundleConfig := { toolAllowList := some ["system.writeFile"] }

def samplePolicy : RuntimePolicyConfig :=
  { bundle := sampleGlobal, defaultTenantId := none, defaultProjectId := none
    tenantBundles := some (OrderedMap.ofList [("tenant-a", sampleOverlay)])
    projectBundles := none }

def sampleScope : PolicyEvaluationScope := { tenantId := some "tenant-a", projectId := none }

def sampleAction : PolicyAction := { type := .toolCall, name := "system.bash" }

/- The two allow-lists have nothing in common, and the merged policy allows every tool. -/
theorem disjoint_allowLists_allow_all : rejects PolicyHost.basic sampleGlobal sampleAction = true ∧
      rejects PolicyHost.basic
          (mergePolicyBundles (some sampleGlobal) (some sampleOverlay)) sampleAction = false ∧
      rejects PolicyHost.basic
          (resolvePolicyContext (some samplePolicy) (some sampleScope)).policy sampleAction =
        false := by decide +kernel

end AgencCore.Policy
