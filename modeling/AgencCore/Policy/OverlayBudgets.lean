import AgencCore.Policy.Budgets

/-
  What an overlay does to the budgets of actions.

  Budget maps are merged key by key, and the budget of an action is the one of its own key before
  that of its type. An overlay tightens the budget of each key, but a budget that it adds for an
  action hides the one that the base has for the type.
-/

namespace AgencCore.Policy

open Foundations

/- The rule of a key, `undefined` when there is none. -/
def budgetRule? (budgets : Option (Record PolicyBudgetRule))
    (key : String) : Option PolicyBudgetRule := budgets.bind (fun budgets => budgets.get? key)

theorem actionBudget_eq (action : PolicyAction) (budgets : Option (Record PolicyBudgetRule)) :
    actionBudget action budgets =
      (budgetRule? budgets (exactKey action)).or (budgetRule? budgets (wildcardKey action)) := rfl

/- Each entry is merged into the map that is there. -/
theorem get?_foldl_mergeBudgetRule {entries : List (String × PolicyBudgetRule)}
    (hNodup : (entries.map Prod.fst).Nodup) (merged : Record PolicyBudgetRule) (key : String) :
    (entries.foldl
        (fun merged entry => match mergeBudgetRule (merged.get? entry.1) (some entry.2) with
          | none => merged
          | some rule => merged.set entry.1 rule) merged).get? key =
      mergeBudgetRule (merged.get? key) (Entries.lookup key entries) := by
  induction entries generalizing merged with
  | nil =>
    cases hGet : merged.get? key <;> simp [Entries.lookup, mergeBudgetRule, mergeOptional, hGet]
  | cons entry rest ih =>
    rcases entry with ⟨name, added⟩
    rcases List.nodup_cons.mp hNodup with ⟨hNew, hRest⟩
    have hStep : ∃ rule, mergeBudgetRule (merged.get? name) (some added) = some rule := by
      cases merged.get? name <;> exact ⟨_, rfl⟩
    rcases hStep with ⟨rule, hRule⟩
    rw [List.foldl_cons, ih hRest]
    dsimp only
    rw [hRule, Entries.lookup]
    dsimp only
    rw [OrderedMap.get?_set]
    by_cases hKey : name = key
    · -- The rest of the entries does not have the key.
      have hNone : Entries.lookup key rest = none := by
        rw [← Option.not_isSome_iff_eq_none, Entries.lookup_isSome_iff, ← hKey]
        exact hNew
      rw [if_pos hKey, if_pos hKey, hNone, ← hKey, hRule]
      rfl
    · rw [if_neg hKey, if_neg hKey]

/- Maps are merged key by key. -/
theorem budgetRule?_mergeBudgetMaps (current next : Option (Record PolicyBudgetRule))
    (key : String) :
    budgetRule? (mergeBudgetMaps current next) key =
      mergeBudgetRule (budgetRule? current key) (budgetRule? next key) := by
  have hGet : ∀ budgets : Option (Record PolicyBudgetRule),
        (budgets.getD OrderedMap.empty).get? key = budgetRule? budgets key := by
    intro budgets
    cases budgets <;> rfl
  by_cases hNone : current = none ∧ next = none
  · rw [hNone.1, hNone.2]
    rfl
  · have hNodup : ((Record.objectEntries (next.getD OrderedMap.empty)).map Prod.fst).Nodup :=
      ((Record.objectEntries_perm _).map Prod.fst).nodup_iff.mpr (OrderedMap.nodup_keys _)
    have hLookup : Entries.lookup key (Record.objectEntries (next.getD OrderedMap.empty)) =
          budgetRule? next key := by
      rw [← hGet next]
      apply Option.ext
      intro rule
      rw [Entries.lookup_eq_some_iff hNodup, (Record.objectEntries_perm _).mem_iff,
        OrderedMap.mem_entries_iff]
    have hFold := get?_foldl_mergeBudgetRule hNodup
      (OrderedMap.ofList (Record.objectEntries (current.getD OrderedMap.empty))) key
    rw [hLookup, Record.get?_ofList_objectEntries, hGet current] at hFold
    rw [← hFold]
    cases current <;> cases next <;> first
        | exact (hNone ⟨rfl, rfl⟩).elim
        | rfl

def budgetMap (bundle : RuntimePolicyBundleConfig) : ScopeLabel → Option (Record PolicyBudgetRule)
| .global => bundle.actionBudgets
| .tenant => bundle.scopedActionBudgets.bind (·.tenant)
| .project => bundle.scopedActionBudgets.bind (·.project)
| .run => bundle.scopedActionBudgets.bind (·.run)

theorem budgetMap_mergePolicyBundles (base overlay : RuntimePolicyBundleConfig)
    (scope : ScopeLabel) :
    budgetMap (mergePolicyBundles (some base) (some overlay)) scope =
      mergeBudgetMaps (budgetMap base scope) (budgetMap overlay scope) := by
  have hScoped :
      ∀ pick : ScopedBudgetRules (Record PolicyBudgetRule) → Option (Record PolicyBudgetRule),
        (∀ current next, (mergeScoped mergeBudgetMaps current next).bind pick =
            mergeBudgetMaps (current.bind pick) (next.bind pick)) →
        ((mergePolicyBundles (some base) (some overlay)).scopedActionBudgets).bind pick =
          mergeBudgetMaps (base.scopedActionBudgets.bind pick)
            (overlay.scopedActionBudgets.bind pick) := fun pick hPick => hPick _ _
  cases scope with
  | global => rfl
  | tenant | project | run =>
    apply hScoped
    intro current next
    cases current <;> cases next <;> rfl

----------
-- Tighter Rules
----------

namespace PolicyBudgetRule

/- The limit is no larger and the window no smaller. -/
def Within (rule bound : PolicyBudgetRule) : Prop :=
  (rule.limit = bound.limit ∨ rule.limit.le bound.limit = true) ∧
    (rule.windowMs = bound.windowMs ∨ bound.windowMs.le rule.windowMs = true)

theorem Within.refl (rule : PolicyBudgetRule) : rule.Within rule := ⟨.inl rfl, .inl rfl⟩

/- No number of the rule is replaced by `nan`. -/
def Comparable (added rule : PolicyBudgetRule) : Prop :=
  (added.limit.isNaN = true → rule.limit.isNaN = true) ∧
    (added.windowMs.isNaN = true → rule.windowMs.isNaN = true)

theorem le_of_lt {a b : JsNumber} (hLess : a.lt b = true) : a.le b = true := by
  cases a <;> cases b <;> simp [JsNumber.lt, JsNumber.le] at hLess ⊢
  exact hLess.le

theorem min_within_iff (a b : JsNumber) :
    (a.min b = a ∨ (a.min b).le a = true) ↔ (b.isNaN = true → a.isNaN = true) := by
  by_cases hLess : b.lt a = true
  · have hLe := le_of_lt hLess
    rcases (JsNumber.le_eq_true_iff b a).mp hLe with ⟨hB, hA, _⟩
    simp [JsNumber.min, hA, hB, hLess, hLe]
  · cases a <;> cases b <;> simp_all [JsNumber.min, JsNumber.isNaN, JsNumber.le]

theorem max_within_iff (a b : JsNumber) :
    (a.max b = a ∨ a.le (a.max b) = true) ↔ (b.isNaN = true → a.isNaN = true) := by
  by_cases hLess : a.lt b = true
  · have hLe := le_of_lt hLess
    rcases (JsNumber.le_eq_true_iff a b).mp hLe with ⟨hA, hB, _⟩
    simp [JsNumber.max, hA, hB, hLess, hLe]
  · cases a <;> cases b <;> simp_all [JsNumber.max, JsNumber.isNaN, JsNumber.le]

/- Merging tightens a rule unless it loses a number. -/
theorem merged_within_iff (rule added : PolicyBudgetRule) :
    (∃ merged ∈ mergeBudgetRule (some rule) (some added), merged.Within rule) ↔
      added.Comparable rule := by
  have hMerged : mergeBudgetRule (some rule) (some added) =
        some ⟨rule.limit.min added.limit, rule.windowMs.max added.windowMs⟩ := rfl
  unfold Comparable
  rw [hMerged, ← min_within_iff, ← max_within_iff]
  constructor
  · rintro ⟨merged, hMem, hWithin⟩
    cases hMem
    exact hWithin
  · exact fun hWithin => ⟨_, rfl, hWithin⟩

end PolicyBudgetRule

/-
  What is asked of an overlay. Where it adds to a rule of the base it gives numbers. A rule that it
  has for the action itself, where the base has one for the type only, is as tight as that one.
-/
def KeepsActionBudget (action : PolicyAction) (base overlay : Option (Record PolicyBudgetRule)) :
    Prop :=
  match budgetRule? base (exactKey action), budgetRule? overlay (exactKey action) with
  | some rule, some added => added.Comparable rule
  | some _, none => True
  | none, some added => ∀ rule ∈ budgetRule? base (wildcardKey action), added.Within rule
  | none, none =>
    ∀ rule ∈ budgetRule? base (wildcardKey action),
      ∀ added ∈ budgetRule? overlay (wildcardKey action), added.Comparable rule

/-
  The budget of an action in a scope is kept or tightened by an overlay if and only if the overlay
  keeps to the base.
-/
theorem overlay_keeps_budget_iff (base overlay : RuntimePolicyBundleConfig) (action : PolicyAction)
    (scope : ScopeLabel) :
    (∀ rule ∈ actionBudget action (budgetMap base scope), ∃ merged ∈ actionBudget action
          (budgetMap (mergePolicyBundles (some base) (some overlay)) scope), merged.Within rule) ↔
      KeepsActionBudget action (budgetMap base scope) (budgetMap overlay scope) := by
  simp only [actionBudget_eq, budgetMap_mergePolicyBundles, budgetRule?_mergeBudgetMaps]
  rw [KeepsActionBudget]
  cases budgetRule? (budgetMap base scope) (exactKey action) with
  | some rule => cases budgetRule? (budgetMap overlay scope) (exactKey action) with
      | some added =>
        dsimp only
        rw [← PolicyBudgetRule.merged_within_iff]
        constructor
        · exact fun hKeeps => hKeeps rule rfl
        · intro hMerged other hMem
          cases hMem
          exact hMerged
      | none =>
        refine ⟨fun _ => trivial, ?_⟩
        intro _ other hMem
        cases hMem
        exact ⟨rule, rfl, .refl rule⟩
  | none =>
    rw [Option.none_or]
    cases budgetRule? (budgetMap overlay scope) (exactKey action) with
    | some added =>
      constructor
      · intro hKeeps rule hMem
        rcases hKeeps rule hMem with ⟨merged, hMerged, hWithin⟩
        cases hMerged
        exact hWithin
      · exact fun hWithin rule hMem => ⟨added, rfl, hWithin rule hMem⟩
    | none =>
      dsimp only
      apply forall₂_congr
      intro rule hMem
      have hRule : budgetRule? (budgetMap base scope) (wildcardKey action) = some rule := hMem
      have hNone : (mergeBudgetRule none none).or
              (mergeBudgetRule (budgetRule? (budgetMap base scope) (wildcardKey action))
                (budgetRule? (budgetMap overlay scope) (wildcardKey action))) =
            mergeBudgetRule (some rule)
              (budgetRule? (budgetMap overlay scope) (wildcardKey action)) := by
        rw [hRule]
        rfl
      rw [hNone]
      cases budgetRule? (budgetMap overlay scope) (wildcardKey action) with
      | none =>
        refine ⟨nofun, ?_⟩
        exact fun _ => ⟨rule, rfl, .refl rule⟩
      | some added =>
        rw [PolicyBudgetRule.merged_within_iff]
        constructor
        · intro hAdded other hOther
          cases hOther
          exact hAdded
        · exact fun hAll => hAll added rfl

/-
  A base that allows one tool call an hour, and an overlay that allows a hundred calls of one tool a
  second.
-/
theorem overlay_hides_wildcard :
    let base : RuntimePolicyBundleConfig :=
      { actionBudgets := some (.ofList [("tool_call:*", ⟨1, 3600000⟩)]) }
    let overlay : RuntimePolicyBundleConfig :=
      { actionBudgets := some (.ofList [("tool_call:fetch", ⟨100, 1000⟩)]) }
    let action : PolicyAction := { type := .toolCall, name := "fetch" }
    actionBudget action (budgetMap base .global) = some ⟨1, 3600000⟩ ∧
      actionBudget action (budgetMap (mergePolicyBundles (some base) (some overlay)) .global) =
        some ⟨100, 1000⟩ := by decide +kernel

end AgencCore.Policy
