import AgencCore.Policy.Denials

/-
  The global spend budget over a run.

  All tenants and projects charge one log, which every check shortens to its own window, and an
  action without a budget charges nothing. The total of what was allowed stays within the budget if
  every action that spends has one, and if the windows start in the order of the evaluations, so
  that no check drops what a later one counts.
-/

namespace AgencCore.Policy

open Foundations List

structure Evaluation where
  now : ℚ
  action : PolicyAction

namespace PolicyEngine

variable (host : PolicyHost)

def evaluateAll (engine : PolicyEngine) (evaluations : List Evaluation) : PolicyEngine :=
  evaluations.foldl
    (fun engine evaluation => (engine.evaluate host evaluation.now evaluation.action).2) engine

def isAllowed (engine : PolicyEngine) (evaluation : Evaluation) : Bool :=
  (engine.evaluate host evaluation.now evaluation.action).1.allowed

def allowedRun (engine : PolicyEngine) : List Evaluation → List Evaluation
| [] => []
| evaluation :: rest =>
  let later := (engine.evaluate host evaluation.now evaluation.action).2.allowedRun rest
  if engine.isAllowed host evaluation then evaluation :: later
  else later

end PolicyEngine

/- What an evaluation spends, and when. -/
def Evaluation.spend (evaluation : Evaluation) : Charge Int :=
  ⟨evaluation.now, evaluation.action.spendLamports.getD 0⟩

/- The budget that the policy sets for an action. -/
def effectiveBudget (policy : RuntimePolicyConfig)
    (action : PolicyAction) : Option SpendBudgetRule :=
  let resolved := (resolvePolicyContext (some policy) action.scope).policy
  if isEnabled resolved then resolved.spendBudget
  else none

def windowStart (policy : RuntimePolicyConfig) (evaluation : Evaluation) : Option JsNumber :=
  match evaluation.action.spendLamports with
  | none => none
  | some _ =>
    (effectiveBudget policy evaluation.action).map
      (fun budget => cutoffOf evaluation.now budget.windowMs)

/- What is spent has a budget, and no window starts before the window of an earlier evaluation. -/
structure SharedWindows (policy : RuntimePolicyConfig) (evaluations : List Evaluation) : Prop where
  budgeted : ∀ evaluation ∈ evaluations, evaluation.spend.amount ≠ 0 →
    effectiveBudget policy evaluation.action ≠ none
  ascending :
    (evaluations.filterMap (windowStart policy)).Pairwise (fun first later => first.le later = true)

namespace PolicyEngine

variable (host : PolicyHost)

theorem policy_evaluate (engine : PolicyEngine) (now : ℚ) (action : PolicyAction) :
    (engine.evaluate host now action).2.policy = engine.policy :=
  (evaluateInternal_logs host engine now true action).1

/- The check of the global budget. -/
def globalSpendMeter (action : PolicyAction) (spendLamports : Int)
    (budget : SpendBudgetRule) : Meter Int Int :=
  { key := "global", windowMs := budget.windowMs, amount := spendLamports
    exceeded := fun currentSpend => decide (budget.limitLamports < currentSpend + spendLamports)
    violation := fun currentSpend =>
      buildViolation .spendBudgetExceeded action "Spend budget exceeded"
        (some (.spendBudget .global none (toString budget.limitLamports) (toString currentSpend)
          (toString spendLamports))), writesBack := false }

/- The global budget is checked first. -/
theorem spendMeters_of_budget {engine : PolicyEngine} {action : PolicyAction} {spendLamports : Int}
    {budget : SpendBudgetRule} (hSpend : action.spendLamports = some spendLamports)
    (hBudget : effectiveBudget engine.policy action = some budget) :
    ∃ rest, whenEnabled spendMeters engine action =
        globalSpendMeter action spendLamports budget :: rest := by
  unfold effectiveBudget at hBudget
  dsimp only at hBudget
  split at hBudget
  · next hEnabled =>
      unfold whenEnabled resolved
      rw [if_pos hEnabled]
      unfold spendMeters spendBudgets rulesInScopes scopedBudgets
      rw [hSpend, hBudget]
      exact ⟨_, rfl⟩
  · cases hBudget

/- Without a budget, the global log is not touched. -/
theorem spendMeters_of_no_budget {engine : PolicyEngine} {action : PolicyAction}
    (hBudget : effectiveBudget engine.policy action = none) :
    ∀ meter ∈ whenEnabled spendMeters engine action, meter.key ≠ "global" := by
  unfold effectiveBudget at hBudget
  dsimp only at hBudget
  unfold whenEnabled resolved
  split at hBudget
  · next hEnabled =>
      rw [if_pos hEnabled]
      unfold spendMeters
      cases action.spendLamports with
      | none => simp
      | some spendLamports =>
        dsimp only
        intro meter hMem hKey
        rcases List.mem_filterMap.mp hMem with ⟨candidate, hCandidate, hMeter⟩
        rcases Option.map_eq_some_iff.mp hMeter with ⟨rule, hRule, hEq⟩
        have hLetter := head?_scopeKey candidate []
        have hScope : candidate.scopeKey = "global" := by rw [← hKey, ← hEq]
        rw [hScope] at hLetter
        have hGlobal : candidate.scopeLabel = .global :=
          ScopeLabel.letter_injective (Option.some.inj hLetter).symm
        simp only [spendBudgets, rulesInScopes, scopedBudgets, mem_append, List.mem_map,
          mem_singleton] at hCandidate
        rcases hCandidate with ((hHead | ⟨_, _, hTail⟩) | ⟨_, _, hTail⟩) |
            ⟨_, _, hTail⟩
        · rw [hHead] at hRule
          rw [hBudget] at hRule
          cases hRule
        all_goals
          rw [← hTail] at hGlobal
          cases hGlobal
  · next hDisabled =>
      rw [if_neg hDisabled]
      simp

----------
-- The Log Covers What Was Allowed
----------

variable {host : PolicyHost}
variable {engine : PolicyEngine}
variable {evaluation : Evaluation}

/- An allowed action has passed the global budget. -/
theorem within_budget_of_allowed {spendLamports : Int} {budget : SpendBudgetRule}
    (hAllowed : engine.isAllowed host evaluation = true)
    (hSpend : evaluation.action.spendLamports = some spendLamports)
    (hBudget : effectiveBudget engine.policy evaluation.action = some budget) :
    (globalSpendMeter evaluation.action spendLamports
      budget).isExceeded id evaluation.now engine.spendEvents = false := by
  rcases spendMeters_of_budget hSpend hBudget with ⟨rest, hMeters⟩
  have hStop := (passes_of_allowed host hAllowed).2
  rw [hMeters] at hStop
  have hHead := (List.find?_eq_none.mp hStop) _ mem_cons_self
  exact Bool.not_eq_true _ ▸ hHead

theorem globalLog_evaluate {spendLamports : Int} {budget : SpendBudgetRule}
    (hSpend : evaluation.action.spendLamports = some spendLamports)
    (hBudget : effectiveBudget engine.policy evaluation.action = some budget) :
    (engine.evaluate host evaluation.now evaluation.action).2.spendEvents "global" =
      if (globalSpendMeter evaluation.action spendLamports
          budget).isExceeded id evaluation.now engine.spendEvents then engine.spendEvents "global"
      else
        recent (cutoffOf evaluation.now budget.windowMs) (engine.spendEvents "global") ++
          [⟨evaluation.now, spendLamports⟩] := by
  rcases spendMeters_of_budget hSpend hBudget with ⟨rest, hMeters⟩
  have hChecked := (evaluate_logs host engine evaluation.now evaluation.action).2.1
  rw [hMeters] at hChecked
  split
  · next hExceeded =>
      exact hChecked.stopped (globalSpendMeter evaluation.action spendLamports budget)
        (by simp [stoppedAt, hExceeded])
  · next hExceeded =>
      exact hChecked.charged (globalSpendMeter evaluation.action spendLamports budget)
        (by simp [chargedMeters, hExceeded])

theorem globalLog_unbudgeted
    (hBudget : effectiveBudget engine.policy evaluation.action = none ∨
        evaluation.action.spendLamports = none) :
    (engine.evaluate host evaluation.now evaluation.action).2.spendEvents "global" =
      engine.spendEvents "global" := by
  have hKeys : ∀ meter ∈ whenEnabled spendMeters engine
      evaluation.action, meter.key ≠ "global" := by
    rcases hBudget with hBudget | hSpend
    · exact spendMeters_of_no_budget hBudget
    · intro meter hMem
      unfold whenEnabled spendMeters at hMem
      rw [hSpend] at hMem
      simp at hMem
  have hChecked := (evaluate_logs host engine evaluation.now evaluation.action).2.1
  refine hChecked.others "global" ?_ ?_
  · intro meter hMem
    exact hKeys meter (chargedMeters_subset id hMem)
  · intro meter hStop
    exact hKeys meter (mem_of_find?_eq_some hStop)

/-
  The global log counts at least what was allowed, from any time on at which no window so far has
  started later.
-/
def Covers (used : List JsNumber) (history : List (Charge Int)) (engine : PolicyEngine) : Prop :=
  ∀ cutoff, (∀ start ∈ used, start.le cutoff = true) →
    usage id cutoff history ≤ usage id cutoff (engine.spendEvents "global")

def allowedCharge (host : PolicyHost) (engine : PolicyEngine)
    (evaluation : Evaluation) : List (Charge Int) :=
  if engine.isAllowed host evaluation then [evaluation.spend]
  else []

theorem usage_allowedCharge_of_zero (hZero : evaluation.spend.amount = 0) (cutoff : JsNumber) :
    usage id cutoff (allowedCharge host engine evaluation) = 0 := by
  unfold allowedCharge
  split
  · rw [usage_singleton]
    simp [hZero]
  · rfl

/- An evaluation adds at most what it spends. -/
theorem usage_allowedCharge_le (hNonneg : 0 ≤ evaluation.spend.amount) (cutoff : JsNumber) :
    usage id cutoff (allowedCharge host engine evaluation) ≤
      usage id cutoff [evaluation.spend] := by
  unfold allowedCharge
  split
  · exact le_rfl
  · rw [usage_nil, usage_singleton]
    split
    · exact hNonneg
    · exact le_rfl

theorem Covers.evaluate {used : List JsNumber} {history : List (Charge Int)}
    (hCovers : Covers used history engine) (hNonneg : 0 ≤ evaluation.spend.amount)
    (hBudgeted : evaluation.spend.amount ≠ 0 →
      effectiveBudget engine.policy evaluation.action ≠ none) :
    Covers (used ++ (windowStart engine.policy evaluation).toList)
      (history ++ allowedCharge host engine evaluation)
      (engine.evaluate host evaluation.now evaluation.action).2 := by
  intro cutoff hStarts
  have hBefore := hCovers cutoff (fun start hMem => hStarts start (mem_append_left _ hMem))
  rw [usage_append]
  cases hSpend : evaluation.action.spendLamports with
  | none =>
    have hZero : evaluation.spend.amount = 0 := by simp [Evaluation.spend, hSpend]
    rw [usage_allowedCharge_of_zero hZero, globalLog_unbudgeted (Or.inr hSpend)]
    simpa using hBefore
  | some spendLamports => cases hBudget : effectiveBudget engine.policy evaluation.action with
      | none =>
        have hZero : evaluation.spend.amount = 0 := by
          by_contra hNe
          exact hBudgeted hNe hBudget
        rw [usage_allowedCharge_of_zero hZero, globalLog_unbudgeted (Or.inl hBudget)]
        simpa using hBefore
      | some budget =>
        have hStart := hStarts (cutoffOf evaluation.now budget.windowMs)
          (by simp [windowStart, hSpend, hBudget])
        have hCharge : evaluation.spend = ⟨evaluation.now, spendLamports⟩ := by
          simp [Evaluation.spend, hSpend]
        rw [globalLog_evaluate hSpend hBudget]
        split
        · next hExceeded =>
            have hDenied : allowedCharge host engine evaluation = [] := by
              refine if_neg (fun hAllowed => ?_)
              rw [within_budget_of_allowed hAllowed hSpend hBudget] at hExceeded
              cases hExceeded
            rw [hDenied]
            simpa using hBefore
        · rw [usage_append, usage_recent id hStart, ← hCharge]
          exact add_le_add hBefore (usage_allowedCharge_le hNonneg cutoff)

----------
-- The Budget Holds
----------

def allowedSpends (host : PolicyHost) (engine : PolicyEngine)
    (evaluations : List Evaluation) : List (Charge Int) :=
  (engine.allowedRun host evaluations).map Evaluation.spend

theorem allowedSpends_cons (evaluation : Evaluation) (rest : List Evaluation) :
    allowedSpends host engine (evaluation :: rest) =
      allowedCharge host engine evaluation ++
        allowedSpends host (engine.evaluate host evaluation.now evaluation.action).2 rest := by
  unfold allowedSpends allowedCharge
  rw [allowedRun]
  split <;> simp

theorem allowedSpends_append (before after : List Evaluation) :
    allowedSpends host engine (before ++ after) =
      allowedSpends host engine before ++
        allowedSpends host (engine.evaluateAll host before) after := by
  induction before generalizing engine with
  | nil => rfl
  | cons evaluation rest ih =>
    rw [cons_append, allowedSpends_cons, ih, allowedSpends_cons, append_assoc]
    rfl

theorem policy_evaluateAll (evaluations : List Evaluation) :
    (engine.evaluateAll host evaluations).policy = engine.policy := by
  induction evaluations generalizing engine with
  | nil => rfl
  | cons evaluation rest ih =>
    have hFirst := policy_evaluate host engine evaluation.now evaluation.action
    rw [← hFirst]
    exact ih

theorem Covers.evaluateAll {used : List JsNumber} {history : List (Charge Int)}
    (hCovers : Covers used history engine) {evaluations : List Evaluation}
    (hNonneg : ∀ evaluation ∈ evaluations, 0 ≤ evaluation.spend.amount)
    (hBudgeted : ∀ evaluation ∈ evaluations, evaluation.spend.amount ≠ 0 →
      effectiveBudget engine.policy evaluation.action ≠ none) :
    Covers (used ++ evaluations.filterMap (windowStart engine.policy))
      (history ++ allowedSpends host engine evaluations) (engine.evaluateAll host evaluations) := by
  induction evaluations generalizing engine used history with
  | nil => simpa [allowedSpends, allowedRun, PolicyEngine.evaluateAll] using hCovers
  | cons evaluation rest ih =>
    have hStep : Covers (used ++ (windowStart engine.policy evaluation).toList)
          (history ++ allowedCharge host engine evaluation)
          (engine.evaluate host evaluation.now evaluation.action).2 :=
      hCovers.evaluate (hNonneg evaluation mem_cons_self)
        (hBudgeted evaluation mem_cons_self)
    have hPolicy := policy_evaluate host engine evaluation.now evaluation.action
    have hRest := ih hStep (fun later hMem => hNonneg later (mem_cons_of_mem _ hMem))
      (fun later hMem => by
        rw [hPolicy]
        exact hBudgeted later (mem_cons_of_mem _ hMem))
    rw [hPolicy] at hRest
    rw [allowedSpends_cons, ← append_assoc]
    have hStarts : (evaluation :: rest).filterMap (windowStart engine.policy) =
          (windowStart engine.policy evaluation).toList ++
            rest.filterMap (windowStart engine.policy) := by
      rw [filterMap_cons]
      cases windowStart engine.policy evaluation <;> rfl
    rw [hStarts, ← append_assoc]
    exact hRest

/-
  In a run with shared windows, the total that was allowed since the start of an action's window is
  within its limit whenever the action is allowed.
-/
theorem spend_budget_holds (host : PolicyHost) (policy : RuntimePolicyConfig)
    (before : List Evaluation) (evaluation : Evaluation) (budget : SpendBudgetRule)
    (hNonneg : ∀ earlier ∈ before ++ [evaluation], 0 ≤ earlier.spend.amount)
    (hShared : SharedWindows policy (before ++ [evaluation]))
    (hAllowed : ((create policy).evaluateAll host before).isAllowed host evaluation = true)
    (hSpend : evaluation.action.spendLamports ≠ none)
    (hBudget : effectiveBudget policy evaluation.action = some budget) :
    usage id (cutoffOf evaluation.now budget.windowMs)
        (allowedSpends host (create policy) (before ++ [evaluation])) ≤ budget.limitLamports := by
  rcases Option.ne_none_iff_exists'.mp hSpend with ⟨spendLamports, hSome⟩
  have hPolicy :
      ((create policy).evaluateAll host before).policy = policy := policy_evaluateAll before
  have hEmpty : Covers [] [] (create policy) := fun _ _ => le_rfl
  have hCovers : Covers ([] ++ before.filterMap (windowStart policy))
        ([] ++ allowedSpends host (create policy) before)
        ((create policy).evaluateAll host before) :=
    hEmpty.evaluateAll (fun earlier hMem => hNonneg earlier (mem_append_left _ hMem))
      (fun earlier hMem => hShared.budgeted earlier (mem_append_left _ hMem))
  -- The window of the last action starts after all others.
  have hStarts : ∀ start ∈ before.filterMap (windowStart policy),
        start.le (cutoffOf evaluation.now budget.windowMs) = true := by
    intro start hStart
    have hPairs := hShared.ascending
    rw [filterMap_append, pairwise_append] at hPairs
    exact hPairs.2.2 start hStart _ (by simp [windowStart, hSome, hBudget])
  have hBefore := hCovers (cutoffOf evaluation.now budget.windowMs) hStarts
  have hPassed := within_budget_of_allowed hAllowed hSome (hPolicy ▸ hBudget)
  have hLimit : usage id (cutoffOf evaluation.now budget.windowMs)
          (((create policy).evaluateAll host before).spendEvents "global") + spendLamports ≤
        budget.limitLamports := by
    simpa [Meter.isExceeded, Meter.current, globalSpendMeter] using hPassed
  have hLast := hNonneg evaluation (by simp)
  have hAmount : evaluation.spend.amount = spendLamports := by simp [Evaluation.spend, hSome]
  have hCharge : usage id (cutoffOf evaluation.now budget.windowMs)
          (allowedSpends host ((create policy).evaluateAll host before)
            [evaluation]) ≤ spendLamports := by
    rw [allowedSpends_cons]
    have hNothing : allowedSpends host
        (((create policy).evaluateAll host before).evaluate
          host evaluation.now evaluation.action).2 [] = [] := rfl
    rw [hNothing, append_nil]
    refine (usage_allowedCharge_le hLast _).trans ?_
    rw [usage_singleton]
    split
    · exact le_of_eq hAmount
    · rw [← hAmount]
      exact hLast
  rw [allowedSpends_append, usage_append]
  rw [nil_append] at hBefore
  exact (add_le_add hBefore hCharge).trans hLimit

/- A tenant with a longer window than the others. -/
def longWindowPolicy : RuntimePolicyConfig :=
  { bundle :=
      { enabled := some true, spendBudget := some
          { limitLamports := 10, windowMs := .ofInt 100 } }, defaultTenantId := none
    defaultProjectId := none
    tenantBundles := some (OrderedMap.ofList
      [("tenant-a",
        { spendBudget := some
            { limitLamports := 10, windowMs := .ofInt 1000 } })]), projectBundles := none }

def spendAction (tenantId : Option String) (amount : Int) : PolicyAction :=
  { type := .txSubmission, name := "pay", access := .write, spendLamports := some amount
    scope := some { tenantId := tenantId, projectId := none } }

/- Two payments that share one window. -/
theorem shared_window_kept : usage id (cutoffOf 50 (.ofInt 100))
        (allowedSpends PolicyHost.basic (create longWindowPolicy)
          ([⟨0, spendAction none 4⟩] ++ [⟨50, spendAction none 6⟩])) ≤ 10 :=
  spend_budget_holds PolicyHost.basic longWindowPolicy
    [⟨0, spendAction none 4⟩] ⟨50, spendAction none 6⟩
    { limitLamports := 10, windowMs := .ofInt 100 } (by decide +kernel)
    ⟨by decide +kernel, by decide +kernel⟩ (by decide +kernel) (by decide +kernel)
    (by decide +kernel)

/-
  The payment of the tenant is dropped by the shorter window of another payment, and not counted
  again.
-/
theorem shorter_window_forgets_spend : ((create longWindowPolicy).evaluateAll PolicyHost.basic
        [⟨0, spendAction (some "tenant-a") 10⟩, ⟨500, spendAction none 10⟩]).isAllowed
        PolicyHost.basic ⟨600, spendAction (some "tenant-a") 0⟩ = true ∧
      effectiveBudget longWindowPolicy (spendAction (some "tenant-a") 0) =
        some { limitLamports := 10, windowMs := .ofInt 1000 } ∧
      usage id (cutoffOf 600 (.ofInt 1000))
          (allowedSpends PolicyHost.basic (create longWindowPolicy)
            [⟨0, spendAction (some "tenant-a") 10⟩, ⟨500, spendAction none 10⟩,
              ⟨600, spendAction (some "tenant-a") 0⟩]) = 20 := by decide +kernel

end PolicyEngine

end AgencCore.Policy
