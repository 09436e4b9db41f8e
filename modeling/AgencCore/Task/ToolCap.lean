import AgencCore.Policy.BudgetState
import AgencCore.Policy.SpendBudget
import AgencCore.Task.CompiledJob
import Mathlib.Data.ENat.Basic
import Mathlib.Algebra.Order.Floor.Semiring

/-
  The cap on the tool calls of a compiled job.

  The budget of the job is looked up for all tools, but each tool is counted in a log of its own.
  What a job can reach is therefore the sum of what its tools are allowed, and the cap is one
  exactly if this sum is within it.
-/

namespace AgencCore.Task

open Foundations List
open Policy

section

/- Tool calls, evaluated in the order of the clock. -/
structure ToolCallRun (evaluations : List Evaluation) : Prop where
  toolCalls : ∀ evaluation ∈ evaluations, evaluation.action.type = .toolCall
  ordered : (evaluations.map Evaluation.now).Pairwise (fun now later => now ≤ later)

/- In the window of the job that ends at a time. -/
def inWindow (job : CompiledJob) (time : ℚ) (evaluation : Evaluation) : Bool :=
  (cutoffOf time (runtimeWindowMs job)).le (.finite evaluation.now) &&
    decide (evaluation.now ≤ time)

def jobEngine (host : JobHost) (job : CompiledJob) : PolicyEngine :=
  createCompiledJobPolicyEngine (resolveCompiledJobEnforcement host job)

/- No window of the job holds more calls than its cap. -/
def CapHolds (host : JobHost) (job : CompiledJob) : Prop :=
  ∀ evaluations, ToolCallRun evaluations → ∀ time, JsNumber.le
      (.ofInt (((jobEngine host job).allowedRun
        host.toPolicyHost evaluations).countP (inWindow job time))) job.policy.maxToolCalls = true

def toolLimit (job : CompiledJob) (name : String) : JsNumber :=
  if hasFetchBudget job ∧ name = "system.httpGet" then job.policy.maxFetches
  else job.policy.maxToolCalls

/- How many calls a limit allows. -/
def allowance : JsNumber → ℕ∞
| .nan => ⊤
| .posInf => ⊤
| .negInf => 0
| .finite q => (⌈q⌉₊ : ℕ)

/-
  How many calls a window can hold. An empty list of tools allows every name, and in a window that
  is not a number there is nothing.
-/
def attainable (job : CompiledJob) : ℕ∞ :=
  if (runtimeWindowMs job).isNaN then 0
  else
    match resolveRuntimeToolNames job with
    | [] => if allowance job.policy.maxToolCalls = 0 then 0 else ⊤
    | first :: rest => ((first :: rest).map (fun name => allowance (toolLimit job name))).sum

/- Without tools, there is no budget for fetching. -/
theorem toolLimit_of_no_tools {job : CompiledJob} (hTools : resolveRuntimeToolNames job = [])
    (name : String) : toolLimit job name = job.policy.maxToolCalls := by
  simp [toolLimit, hasFetchBudget, hTools]

theorem allowance_le_iff (limit : JsNumber) (count : ℕ) :
    allowance limit ≤ count ↔ limit.le (.ofInt count) = true := by
  cases limit with
  | nan => simp [allowance, JsNumber.le]
  | negInf | posInf => simp [allowance, JsNumber.le, JsNumber.ofInt, JsNumber.lt]
  | finite q => simp [allowance, JsNumber.ofInt, JsNumber.le_finite, Nat.ceil_le]

/- Unless it is not a number, a window holds its end. -/
theorem window_holds_end {job : CompiledJob} (hWindow : (runtimeWindowMs job).isNaN = false)
    (now : ℚ) : (cutoffOf now (runtimeWindowMs job)).le (.finite now) = true := by
  unfold runtimeWindowMs JsNumber.max at hWindow ⊢
  cases hLength : job.policy.maxRuntimeMinutes.mul (.ofInt 60000) with
  | nan =>
    rw [hLength] at hWindow
    cases hWindow
  | negInf =>
    simp [cutoffOf, JsNumber.sub, JsNumber.neg, JsNumber.add, JsNumber.ofInt, JsNumber.isNaN,
      JsNumber.lt, JsNumber.le_finite]
  | posInf => rfl
  | finite length =>
    simp only [JsNumber.ofInt, JsNumber.isNaN, JsNumber.lt,
      Bool.or_self, Bool.false_eq_true, if_false, decide_eq_true_iff]
    split
    · next hLong =>
        have hNonneg : (0 : ℚ) ≤ length := by
          norm_num at hLong
          linarith
        simpa [cutoffOf, JsNumber.sub, JsNumber.neg, JsNumber.add, JsNumber.le_finite] using hNonneg
    · simp [cutoffOf, JsNumber.sub, JsNumber.neg, JsNumber.add, JsNumber.le_finite]

----------
-- The Policy In Force
----------

/- The rules for tool calls that the job asks for. -/
structure EnforcesJob (job : CompiledJob) (policy : RuntimePolicyBundleConfig) : Prop where
  enabled : isEnabled policy = true
  tools : entriesOf policy.toolAllowList = resolveRuntimeToolNames job
  toolDenyList : entriesOf policy.toolDenyList = []
  allowActions : entriesOf policy.allowActions = []
  denyActions : entriesOf policy.denyActions = []
  budgets : ∀ key,
    policy.actionBudgets.bind (fun budgets => budgets.get? key) = (toolCallBudgets job).get? key
  unscoped : policy.scopedActionBudgets = none

theorem entriesOf_intersect_none (list : Option (List String)) :
    entriesOf (intersectOptionalLists list none) = entriesOf list := by
  rcases list with _ | (_ | ⟨first, rest⟩) <;> rfl

theorem entriesOf_union_none {list : Option (List String)} (hEmpty : entriesOf list = []) :
    entriesOf (unionOptionalLists list none) = [] := by
  cases list with
  | none => rfl
  | some entries =>
    have hNil : entries = [] := hEmpty
    rw [hNil]
    rfl

theorem get?_mergeBudgetMaps_none (budgets : Option (Record PolicyBudgetRule)) (key : String) :
    (mergeBudgetMaps budgets none).bind (fun budgets => budgets.get? key) =
      budgets.bind (fun budgets => budgets.get? key) := by
  cases budgets with
  | none => rfl
  | some budgets => exact Record.get?_ofList_objectEntries budgets key

variable {policy : RuntimePolicyBundleConfig}

/- Merging an empty overlay keeps the rules of the job. -/
theorem EnforcesJob.merge {job : CompiledJob}
    (hJob : EnforcesJob job policy) : EnforcesJob job (mergePolicyBundles (some policy) none) where
  enabled := by
    have hEnabled : policy.enabled.getD false = true := hJob.enabled
    simp [mergePolicyBundles, isEnabled, hEnabled]
  tools := (entriesOf_intersect_none _).trans hJob.tools
  toolDenyList := entriesOf_union_none hJob.toolDenyList
  allowActions := (entriesOf_intersect_none _).trans hJob.allowActions
  denyActions := entriesOf_union_none hJob.denyActions
  budgets := fun key => (get?_mergeBudgetMaps_none _ key).trans (hJob.budgets key)
  unscoped := by
    unfold mergePolicyBundles
    dsimp only [Option.getD_some, Option.getD_none]
    rw [hJob.unscoped]
    rfl

variable {host : JobHost}
variable {job : CompiledJob}

/- In every scope, the rules of the job are in force. -/
theorem enforcesJob_resolved {engine : PolicyEngine}
    (hPolicy : engine.policy = buildRuntimePolicy host job) (action : PolicyAction) :
    EnforcesJob job (engine.resolved action).policy := by
  have hBuilt : EnforcesJob job (buildRuntimePolicy host job).bundle :=
    ⟨rfl, rfl, rfl, rfl, rfl, fun _ => rfl, rfl⟩
  have hScope : ∀ (id : Option String) {policy : RuntimePolicyBundleConfig},
      EnforcesJob job policy → EnforcesJob job (mergeScopeBundle none id policy) := by
    intro id policy hJob
    unfold mergeScopeBundle
    split
    · exact hJob
    · exact hJob.merge
  unfold PolicyEngine.resolved resolvePolicyContext
  rw [hPolicy]
  exact hScope _ (hScope _ hBuilt.merge)

theorem toolCall_text : PolicyActionType.toolCall.text = "tool_call" := rfl

theorem toolKey_inj {name name' : String} :
    "tool_call" ++ ":" ++ name = "tool_call" ++ ":" ++ name' ↔ name = name' := by
  rw [← String.toList_inj, String.toList_append,
    String.toList_append (t := name'), append_cancel_left_eq, String.toList_inj]

theorem actionBudget_toolCall {action : PolicyAction} (hType : action.type = .toolCall)
    (hJob : EnforcesJob job policy) :
    actionBudget action policy.actionBudgets =
      some ⟨toolLimit job action.name, runtimeWindowMs job⟩ := by
  have hExact : exactKey action = "tool_call" ++ ":" ++ action.name := by
    rw [exactKey, hType, toolCall_text]
  have hWildcard : wildcardKey action = "tool_call" ++ ":" ++ "*" := by
    rw [wildcardKey, hType, toolCall_text]
    rfl
  have hFetch : "tool_call:system.httpGet" = "tool_call" ++ ":" ++ "system.httpGet" := rfl
  have hAll : "tool_call:*" = "tool_call" ++ ":" ++ "*" := rfl
  unfold actionBudget
  rw [hJob.budgets, hJob.budgets, hExact, hWildcard]
  unfold toolCallBudgets toolLimit
  dsimp only
  rw [hFetch, hAll]
  by_cases hBudget : hasFetchBudget job = true
  · rw [if_pos hBudget]
    simp only [OrderedMap.get?_set, toolKey_inj, hBudget,
      true_and, OrderedMap.ofList, foldl_cons, foldl_nil]
    by_cases hName : action.name = "system.httpGet"
    · simp [hName]
    · have hNe : ¬ "system.httpGet" = action.name := fun hEq => hName hEq.symm
      simp only [if_neg hNe, if_neg hName]
      by_cases hStar : "*" = action.name <;> simp [hStar]
  · rw [if_neg hBudget]
    simp only [OrderedMap.get?_set, toolKey_inj, hBudget,
      OrderedMap.ofList, foldl_cons, foldl_nil]
    by_cases hStar : "*" = action.name <;> simp [hStar]

----------
-- One Log For Each Tool
----------

def callKey (name : String) : String := "global" ++ ":" ++ ("tool_call" ++ ":" ++ name)

theorem callKey_inj {name name' : String} : callKey name = callKey name' ↔ name = name' := by
  unfold callKey
  rw [← String.toList_inj, String.toList_append,
    String.toList_append (t := "tool_call" ++ ":" ++ name'),
    append_cancel_left_eq, String.toList_inj, toolKey_inj]

/- An action weighs one, so usage is a number of charges. -/
theorem usage_actionWeight (cutoff : JsNumber) (log : List (Charge Unit)) :
    usage actionWeight cutoff log = (recent cutoff log).length := by simp [usage, actionWeight]

variable {engine : PolicyEngine}
variable (hPolicy : engine.policy = buildRuntimePolicy host job)
include hPolicy

/- A tool call is checked against its own log only. -/
theorem actionMeters_toolCall {action : PolicyAction} (hType : action.type = .toolCall) :
    ∃ meter : Meter Unit Nat, PolicyEngine.whenEnabled actionMeters engine action = [meter] ∧
      meter.key = callKey action.name ∧ meter.windowMs = runtimeWindowMs job ∧
      meter.writesBack = true ∧
      ∀ observed, meter.exceeded observed = (toolLimit job action.name).le (.ofInt observed) := by
  have hJob := enforcesJob_resolved hPolicy action
  have hKey : exactKey action = "tool_call" ++ ":" ++ action.name := by
    rw [exactKey, hType, toolCall_text]
  have hScoped : ∀ (ids : List String) (label : ScopeLabel),
      (ids.map (fun id => (⟨label, some id, none⟩ :
        ScopedBudget PolicyBudgetRule))).filterMap (actionMeter action) = [] := by
    intro ids label
    rw [filterMap_map, filterMap_eq_nil_iff]
    exact fun _ _ => rfl
  unfold PolicyEngine.whenEnabled actionMeters actionBudgets scopedBudgets
  rw [if_pos hJob.enabled, hJob.unscoped, actionBudget_toolCall hType hJob]
  have hNone : actionBudget action none = none := rfl
  simp only [Option.bind_none, hNone, filterMap_append, hScoped, append_nil]
  refine ⟨_, rfl, ?_, rfl, rfl, fun _ => rfl⟩
  change "global" ++ ":" ++ exactKey action = _
  rw [hKey]
  rfl

/- The calls in the log of a tool that a window counts. -/
abbrev recentCalls (job : CompiledJob) (engine : PolicyEngine) (now : ℚ) (name : String) :
    List (Charge Unit) :=
  recent (cutoffOf now (runtimeWindowMs job)) (engine.actionEvents (callKey name))

/- What an evaluation does to the logs of the tools. -/
structure CallChecked (job : CompiledJob) (engine engine' : PolicyEngine) (now : ℚ) (name : String)
    (exceeded : Bool) : Prop where
  limit : exceeded = (toolLimit job name).le (.ofInt (recentCalls job engine now name).length)
  log : engine'.actionEvents (callKey name) =
      recentCalls job engine now name ++ if exceeded then [] else [⟨now, ()⟩]
  others : ∀ other, other ≠ name →
    engine'.actionEvents (callKey other) = engine.actionEvents (callKey other)

variable {evaluation : Evaluation}

theorem evaluate_toolCall (hType : evaluation.action.type = .toolCall) : ∃ exceeded,
      CallChecked job engine (engine.evaluate host.toPolicyHost evaluation.now evaluation.action).2
        evaluation.now evaluation.action.name exceeded ∧
      (engine.isAllowed host.toPolicyHost evaluation = true → exceeded = false) := by
  rcases actionMeters_toolCall hPolicy hType with ⟨meter, hMeters, hKey, hWindow, hBack, hExceeded⟩
  have hChecked := (PolicyEngine.evaluate_logs host.toPolicyHost engine evaluation.now
    evaluation.action).1
  rw [hMeters] at hChecked
  have hLimit : meter.isExceeded actionWeight evaluation.now engine.actionEvents =
        (toolLimit job evaluation.action.name).le
          (.ofInt (recentCalls job engine evaluation.now evaluation.action.name).length) := by
    rw [Meter.isExceeded, hExceeded, Meter.current, usage_actionWeight, hWindow, hKey]
  have hKept : meter.kept evaluation.now engine.actionEvents =
        recentCalls job engine evaluation.now evaluation.action.name := by
    rw [Meter.kept, hWindow, hKey]
  refine ⟨meter.isExceeded actionWeight evaluation.now engine.actionEvents, ⟨hLimit, ?_, ?_⟩, ?_⟩
  · cases hOver : meter.isExceeded actionWeight evaluation.now engine.actionEvents with
    | true =>
      have hLog := hChecked.stopped meter (by simp [stoppedAt, hOver])
      rw [hKey, if_pos hBack, hKept] at hLog
      rw [hLog, if_pos rfl, append_nil]
    | false =>
      have hLog := hChecked.charged meter (by simp [chargedMeters, hOver])
      rw [hKey, hKept] at hLog
      rw [hLog, if_neg Bool.false_ne_true]
  · intro other hNe
    have hKeyNe : meter.key ≠ callKey other := by
      rw [hKey]
      exact fun hEq => hNe (callKey_inj.mp hEq).symm
    refine hChecked.others _ ?_ ?_
    · intro charged hMem
      rw [List.mem_singleton.mp (chargedMeters_subset actionWeight hMem)]
      exact hKeyNe
    · intro stopped hStop
      rw [List.mem_singleton.mp (mem_of_find?_eq_some hStop)]
      exact hKeyNe
  · intro hAllowed
    have hStop := (PolicyEngine.passes_of_allowed host.toPolicyHost hAllowed).1
    rw [hMeters] at hStop
    exact Bool.not_eq_true _ ▸ List.find?_eq_none.mp hStop meter mem_cons_self

/- A list of tools allows the tools on it only. -/
theorem permitted_of_allowed (hType : evaluation.action.type = .toolCall)
    (hAllowed : engine.isAllowed host.toPolicyHost evaluation = true)
    (hTools : resolveRuntimeToolNames job ≠ []) :
    evaluation.action.name ∈ resolveRuntimeToolNames job := by
  have hJob := enforcesJob_resolved hPolicy evaluation.action
  have hNone := (PolicyEngine.allowed_iff host.toPolicyHost
    engine evaluation.now true evaluation.action).mp hAllowed
  have hChecks := (List.append_eq_nil_iff.mp hNone).2
  unfold PolicyEngine.checkPolicy at hChecks
  simp only [hJob.enabled, if_true, append_eq_nil_iff] at hChecks
  have hTool : checkToolRules evaluation.action (engine.resolved evaluation.action).policy = none :=
    List.filterMap_eq_nil_iff.mp hChecks.1 _ mem_cons_self
  by_contra hOutside
  unfold checkToolRules checkNameLists at hTool
  rw [hJob.toolDenyList, hJob.tools] at hTool
  simp [hType, hTools, hOutside] at hTool

----------
-- Counting The Allowed Calls
----------

omit hPolicy

/- A call of a tool since the start of a window. -/
def calledSince (job : CompiledJob) (time : ℚ) (name : String) (evaluation : Evaluation) : Bool :=
  decide (evaluation.action.name = name) &&
    (cutoffOf time (runtimeWindowMs job)).le (.finite evaluation.now)

/- A call of a tool in the window that ends at a time. -/
def calledIn (job : CompiledJob) (time : ℚ) (name : String) (evaluation : Evaluation) : Bool :=
  decide (evaluation.action.name = name) && inWindow job time evaluation

/-
  The log of each tool counts at least the allowed calls of the tool, which no window holds more of
  than allowed.
-/
structure CallsCounted (host : JobHost) (job : CompiledJob) (now : ℚ) (history : List Evaluation)
    (engine : PolicyEngine) : Prop where
  policy : engine.policy = buildRuntimePolicy host job
  covered : ∀ later, now ≤ later → ∀ name,
      history.countP (calledSince job later name) ≤ (recentCalls job engine later name).length
  capped : ∀ time name,
    (history.countP (calledIn job time name) : ℕ∞) ≤ allowance (toolLimit job name)
  permitted : resolveRuntimeToolNames job ≠ [] →
    ∀ evaluation ∈ history, evaluation.action.name ∈ resolveRuntimeToolNames job

variable {history : List Evaluation}

/- The calls in a later window are since the start of this. -/
theorem countP_calledIn_le {now time : ℚ} (hLe : now ≤ time) (name : String) :
    history.countP (calledIn job time name) ≤ history.countP (calledSince job now name) := by
  apply countP_mono_left
  intro evaluation _ hIn
  simp only [calledIn, inWindow, calledSince, Bool.and_eq_true] at hIn ⊢
  exact ⟨hIn.1, cutoffOf_le_of_later hLe hIn.2.1⟩

theorem CallsCounted.within_allowance {now : ℚ}
    (hCounted : CallsCounted host job now history engine)
    (hLater : now ≤ evaluation.now) {engine' : PolicyEngine}
    (hChecked : CallChecked job engine engine' evaluation.now evaluation.action.name false) :
    ((history.countP (calledSince job evaluation.now evaluation.action.name) + 1 : ℕ) : ℕ∞) ≤
      allowance (toolLimit job evaluation.action.name) := by
  have hCovered := hCounted.covered evaluation.now hLater evaluation.action.name
  have hFree : ¬ allowance (toolLimit job evaluation.action.name) ≤
        ((recentCalls job engine evaluation.now evaluation.action.name).length : ℕ∞) := by
    rw [allowance_le_iff, ← hChecked.limit]
    exact Bool.false_ne_true
  refine le_trans ?_ (Order.add_one_le_of_lt (not_le.mp hFree))
  exact_mod_cast Nat.succ_le_succ hCovered

theorem CallsCounted.evaluate {now : ℚ}
    (hCounted : CallsCounted host job now history engine)
    (hLater : now ≤ evaluation.now) (hType : evaluation.action.type = .toolCall) :
    CallsCounted host job evaluation.now
      (history ++ if engine.isAllowed host.toPolicyHost evaluation then [evaluation]
        else []) (engine.evaluate host.toPolicyHost evaluation.now evaluation.action).2 := by
  rcases evaluate_toolCall hCounted.policy hType with ⟨exceeded, hChecked, hAllowed⟩
  refine ⟨(PolicyEngine.policy_evaluate _ _ _ _).trans hCounted.policy, ?_, ?_, ?_⟩
  · intro later hLe name
    have hBefore := hCounted.covered later (hLater.trans hLe) name
    rw [countP_append]
    by_cases hName : evaluation.action.name = name
    · subst hName
      rw [recentCalls, hChecked.log, recent, filter_append, length_append]
      refine add_le_add ?_ ?_
      · rw [← recent, recent_recent_later hLe]
        exact hBefore
      · split
        · next hYes =>
            rw [hAllowed hYes]
            cases hSince : (cutoffOf later (runtimeWindowMs job)).le (.finite evaluation.now) <;>
              simp [calledSince, Charge.since, hSince]
        · simp
    · rw [recentCalls, hChecked.others name (Ne.symm hName)]
      split <;> simpa [calledSince, hName] using hBefore
  · intro time name
    split
    · next hYes =>
        rw [hAllowed hYes] at hChecked
        rw [countP_append, countP_singleton]
        split
        · next hIn =>
            simp only [calledIn, inWindow, Bool.and_eq_true, decide_eq_true_iff] at hIn
            rcases hIn with ⟨rfl, _, hLe⟩
            refine le_trans ?_ (hCounted.within_allowance hLater hChecked)
            exact_mod_cast Nat.succ_le_succ (countP_calledIn_le hLe evaluation.action.name)
        · exact hCounted.capped time name
    · rw [append_nil]
      exact hCounted.capped time name
  · intro hTools
    refine forall_mem_append.mpr ⟨hCounted.permitted hTools, ?_⟩
    split
    · next hYes =>
        exact forall_mem_singleton.mpr (permitted_of_allowed hCounted.policy hType hYes hTools)
    · simp

----------
-- What A Run Can Reach
----------

variable {history evaluations : List Evaluation}

theorem CallsCounted.run {now : ℚ}
    (hCounted : CallsCounted host job now history engine)
    (hRun : ToolCallRun evaluations) (hLater : ∀ evaluation ∈ evaluations, now ≤ evaluation.now) :
    ∃ later, CallsCounted host job later
      (history ++ engine.allowedRun host.toPolicyHost evaluations)
      (engine.evaluateAll host.toPolicyHost evaluations) := by
  induction evaluations generalizing now history engine with
  | nil =>
    rw [PolicyEngine.allowedRun, append_nil]
    exact ⟨now, hCounted⟩
  | cons evaluation rest ih =>
    have hOrdered := List.pairwise_cons.mp hRun.ordered
    have hStep := hCounted.evaluate (hLater evaluation mem_cons_self)
      (hRun.toolCalls evaluation mem_cons_self)
    have hRest := ih hStep
      ⟨fun other hMem => hRun.toolCalls other (mem_cons_of_mem _ hMem), hOrdered.2⟩
      (fun other hMem => hOrdered.1 _ (List.mem_map_of_mem hMem))
    rw [append_assoc] at hRest
    have hSplit : engine.allowedRun host.toPolicyHost (evaluation :: rest) =
          (if engine.isAllowed host.toPolicyHost evaluation then [evaluation]
          else []) ++
          (engine.evaluate host.toPolicyHost evaluation.now
            evaluation.action).2.allowedRun host.toPolicyHost rest := by
      rw [PolicyEngine.allowedRun]
      split <;> rfl
    rw [hSplit]
    exact hRest

theorem CallsCounted.create (now : ℚ) : CallsCounted host job now [] (jobEngine host job) where
  policy := rfl
  covered := fun _ _ _ => Nat.zero_le _
  capped := fun _ _ => bot_le
  permitted := fun _ _ hMem => nomatch hMem

theorem countP_le_sum_calledIn {names : List String}
    (hNames : ∀ evaluation ∈ history, evaluation.action.name ∈ names) (time : ℚ) :
    history.countP (inWindow job time) ≤
      (names.map (fun name => history.countP (calledIn job time name))).sum := by
  induction history with
  | nil => exact Nat.zero_le _
  | cons evaluation rest ih =>
    have hRest := ih (fun other hMem => hNames other (mem_cons_of_mem _ hMem))
    simp only [countP_cons, sum_map_add]
    refine add_le_add hRest ?_
    split
    · next hIn =>
        have hSingle := single_le_sum (fun _ _ => Nat.zero_le _) _
          (List.mem_map_of_mem
            (f := fun name => if calledIn job time name evaluation = true then 1 else 0)
            (hNames evaluation mem_cons_self))
        simpa [calledIn, hIn] using hSingle
    · exact Nat.zero_le _

theorem CallsCounted.le_attainable {now : ℚ}
    (hCounted : CallsCounted host job now history engine) (time : ℚ) :
    (history.countP (inWindow job time) : ℕ∞) ≤ attainable job := by
  unfold attainable
  split
  · next hWindow =>
      rw [nonpos_iff_eq_zero, Nat.cast_eq_zero, countP_eq_zero]
      intro evaluation _ hIn
      cases hLength : runtimeWindowMs job with
      | nan => simp [inWindow, hLength, cutoffOf, JsNumber.sub, JsNumber.neg, JsNumber.add,
          JsNumber.le] at hIn
      | _ =>
        rw [hLength] at hWindow
        cases hWindow
  · split
    · next hTools =>
        split
        · next hNothing =>
            rw [nonpos_iff_eq_zero, Nat.cast_eq_zero, countP_eq_zero]
            intro evaluation hMem hIn
            have hCap := hCounted.capped time evaluation.action.name
            rw [toolLimit_of_no_tools hTools, hNothing, nonpos_iff_eq_zero, Nat.cast_eq_zero,
              countP_eq_zero] at hCap
            exact hCap evaluation hMem (by simp [calledIn, hIn])
        · exact le_top
    · next first rest hTools =>
        have hNames := hCounted.permitted (by rw [hTools]; exact cons_ne_nil _ _)
        rw [hTools] at hNames
        calc (history.countP (inWindow job time) : ℕ∞)
            ≤ (((first :: rest).map (fun name =>
                history.countP (calledIn job time name))).sum : ℕ) := by
              exact_mod_cast countP_le_sum_calledIn hNames time
          _ = ((first :: rest).map (fun name =>
                ((history.countP (calledIn job time name) : ℕ) : ℕ∞))).sum := by
              rw [Nat.cast_list_sum, List.map_map]
              rfl
          _ ≤ ((first :: rest).map (fun name => allowance (toolLimit job name))).sum :=
              sum_le_sum (fun name _ => hCounted.capped time name)

/- No window of a run holds more than is attainable. -/
theorem allowedRun_le_attainable (hRun : ToolCallRun evaluations)
    (time : ℚ) :
    (((jobEngine host job).allowedRun host.toPolicyHost
        evaluations).countP (inWindow job time) : ℕ∞) ≤ attainable job := by
  cases evaluations with
  | nil => exact bot_le
  | cons evaluation rest =>
    have hOrdered := List.pairwise_cons.mp hRun.ordered
    have hLater : ∀ other ∈ evaluation :: rest, evaluation.now ≤ other.now := by
      intro other hMem
      rcases List.mem_cons.mp hMem with rfl | hMem
      · exact le_rfl
      · exact hOrdered.1 _ (List.mem_map_of_mem hMem)
    rcases (CallsCounted.create evaluation.now).run hRun hLater with ⟨_, hCounted⟩
    exact hCounted.le_attainable time

----------
-- Reaching It
----------

/- A call of a tool at time zero. -/
def callOf (name : String) : Evaluation := ⟨0, { type := .toolCall, name := name }⟩

def Permitted (job : CompiledJob) (name : String) : Prop :=
  resolveRuntimeToolNames job = [] ∨ name ∈ resolveRuntimeToolNames job

/- A plain call of a permitted tool breaks no rule. -/
theorem staticViolations_callOf {policy : RuntimePolicyBundleConfig} (hJob : EnforcesJob job policy)
    {name : String} (hPermitted : Permitted job name) :
    staticViolations host.toPolicyHost (callOf name).action policy = [] := by
  have hTool : checkToolRules (callOf name).action policy = none := by
    unfold checkToolRules checkNameLists
    rw [hJob.toolDenyList, hJob.tools]
    rcases hPermitted with hEmpty | hMem
    · simp [callOf, hEmpty]
    · simp [callOf, hMem]
  have hAction : checkActionRules (callOf name).action policy = none := by
    unfold checkActionRules checkNameLists
    rw [hJob.denyActions, hJob.allowActions]
    simp
  have hRisk : checkRisk host.toPolicyHost (callOf name).action policy = none := by
    unfold checkRisk
    split
    · next hScore => cases hScore
    · rfl
  have hNetwork : checkNetworkAccess host.toPolicyHost (callOf name).action policy = none := by
    unfold checkNetworkAccess
    cases policy.networkAccess with
    | none => rfl
    | some rule => simp [callOf, metadataTexts, findDeniedHost, findDisallowedHost]
  have hWrite : checkWriteScope host.toPolicyHost (callOf name).action policy = none := by
    unfold checkWriteScope
    cases policy.writeScope with
    | none | some => rfl
  unfold staticViolations
  rw [hTool, hAction, hRisk, hNetwork, hWrite]
  rfl

theorem callOf_allowed (hPolicy : engine.policy = buildRuntimePolicy host job)
    (hMode : engine.mode = none) {name : String} (hPermitted : Permitted job name)
    (hBelow : (toolLimit job name).le (.ofInt (recentCalls job engine 0 name).length) = false) :
    engine.isAllowed host.toPolicyHost (callOf name) = true ∧
      (engine.evaluate host.toPolicyHost 0 (callOf name).action).2.mode = none := by
  have hJob := enforcesJob_resolved hPolicy (callOf name).action
  have hStatic : staticViolations host.toPolicyHost (callOf name).action
      (engine.resolved (callOf name).action).policy = [] := staticViolations_callOf hJob hPermitted
  have hBudget : (checkAndConsumeActionBudget (callOf name).action
      (engine.resolved (callOf name).action) 0 true engine.actionEvents).1 = none := by
    rcases actionMeters_toolCall hPolicy (show (callOf name).action.type = .toolCall from rfl)
      with ⟨meter, hMeters, hKey, hWindow, _, hExceeded⟩
    unfold PolicyEngine.whenEnabled at hMeters
    rw [if_pos hJob.enabled] at hMeters
    have hFree : meter.isExceeded actionWeight 0 engine.actionEvents = false := by
      rw [Meter.isExceeded, hExceeded, Meter.current, usage_actionWeight, hWindow, hKey]
      exact hBelow
    unfold checkAndConsumeActionBudget
    rw [checkScopes_violation actionWeight 0 true (actionMeters_keys _ _), hMeters]
    simp [stoppedAt, hFree]
  have hNone : engine.violationsOf host.toPolicyHost 0 true (callOf name).action = [] := by
    unfold PolicyEngine.violationsOf PolicyEngine.checkCircuitMode PolicyEngine.checkPolicy
    simp only [hMode, hJob.enabled, if_true, hStatic, hBudget]
    rfl
  refine ⟨(PolicyEngine.allowed_iff _ _ _ _ _).mpr hNone, ?_⟩
  unfold PolicyEngine.evaluate
  rw [PolicyEngine.evaluateInternal_eq, if_pos hNone]
  exact (PolicyEngine.checkPolicy_frame _ _ _ _ _).2.1.trans hMode

/- The logs after calls at time zero. -/
def CalledBefore (names : List String) (engine : PolicyEngine) : Prop :=
  ∀ name, engine.actionEvents (callKey name) = List.replicate (names.count name) ⟨0, ()⟩

/- Calls within the allowances are all allowed. -/
theorem allowedRun_callOf (hWindow : (runtimeWindowMs job).isNaN = false)
    {names before : List String} (hPolicy : engine.policy = buildRuntimePolicy host job)
    (hMode : engine.mode = none) (hBefore : CalledBefore before engine)
    (hPermitted : ∀ name ∈ names, Permitted job name)
    (hWithin : ∀ name, ((before ++ names).count name : ℕ∞) ≤ allowance (toolLimit job name)) :
    engine.allowedRun host.toPolicyHost (names.map callOf) = names.map callOf := by
  induction names generalizing before engine with
  | nil => rfl
  | cons name rest ih =>
    have hRecent : ∀ count,
        recent (cutoffOf 0 (runtimeWindowMs job)) (List.replicate count (⟨0, ()⟩ : Charge Unit)) =
          List.replicate count ⟨0, ()⟩ := by
      intro count
      unfold recent
      rw [filter_replicate_of_pos]
      exact window_holds_end hWindow 0
    have hBelow : (toolLimit job name).le
        (.ofInt (recentCalls job engine 0 name).length) = false := by
      rw [recentCalls, hBefore, hRecent, length_replicate, ← Bool.not_eq_true, ← allowance_le_iff, not_le]
      refine lt_of_lt_of_le ?_ (hWithin name)
      rw [count_append, count_cons_self]
      exact_mod_cast Nat.lt_of_lt_of_le (Nat.lt_succ_self _) (by omega)
    rcases callOf_allowed hPolicy hMode (hPermitted name mem_cons_self) hBelow with
      ⟨hAllowed, hMode'⟩
    rcases evaluate_toolCall hPolicy (show (callOf name).action.type = .toolCall from rfl)
      with ⟨exceeded, hChecked, hFree⟩
    rw [hFree hAllowed] at hChecked
    have hAfter : CalledBefore (before ++ [name])
        (engine.evaluate host.toPolicyHost 0 (callOf name).action).2 := by
      intro other
      by_cases hName : other = name
      · have hLog := hChecked.log
        rw [hName, count_append, count_singleton_self,
          replicate_succ', ← hRecent (before.count name), ← hBefore]
        exact hLog
      · have hLog := hChecked.others other hName
        rw [count_append, count_singleton]
        simp only [beq_iff_eq, Ne.symm hName, if_false, Nat.add_zero]
        exact hLog.trans (hBefore other)
    rw [map_cons, PolicyEngine.allowedRun, if_pos hAllowed]
    congr 1
    refine ih ((PolicyEngine.policy_evaluate _ _ _ _).trans hPolicy) hMode' hAfter
      (fun other hMem => hPermitted other (mem_cons_of_mem _ hMem)) ?_
    intro other
    rw [append_assoc]
    exact hWithin other

variable {count : ℕ}

/- A sum of bounds is reached by choosing within them. -/
theorem exists_names_of_le_sum {names : List String} (hNodup : names.Nodup) (bound : String → ℕ∞)
    (hLe : (count : ℕ∞) ≤ (names.map bound).sum) :
    ∃ chosen : List String, chosen.length = count ∧ (∀ name ∈ chosen, name ∈ names) ∧
      ∀ name, (chosen.count name : ℕ∞) ≤ bound name := by
  induction count with
  | zero => exact ⟨[], rfl, by simp, by simp⟩
  | succ count ih =>
    rcases ih ((Nat.cast_le.mpr count.le_succ).trans hLe) with ⟨chosen, hLength, hMem, hCount⟩
    have hSum : (names.map (fun name => (chosen.count name : ℕ∞))).sum = count := by
      rw [← List.sum_toFinset _ hNodup, ← hLength, ← Nat.cast_sum]
      have hCard := Multiset.sum_count_eq_card (m := (chosen : Multiset String))
        (fun name hName => List.mem_toFinset.mpr (hMem name hName))
      simpa only [Multiset.coe_count, Multiset.coe_card] using congrArg (Nat.cast (R := ℕ∞)) hCard
    -- fewer than the bounds allow are chosen, so one of them has room
    have hLess : (names.map (fun name => (chosen.count name : ℕ∞))).sum < (names.map bound).sum := by
      rw [hSum]
      exact lt_of_lt_of_le (Nat.cast_lt.mpr count.lt_succ_self) hLe
    rcases exists_lt_of_sum_lt _ _ hLess with ⟨name, hName, hRoom⟩
    refine ⟨name :: chosen, by rw [length_cons, hLength], forall_mem_cons.mpr ⟨hName, hMem⟩,
      fun other => ?_⟩
    rw [count_cons]
    split
    · next hSame =>
        rw [← beq_iff_eq.mp hSame, Nat.cast_add, Nat.cast_one]
        exact Order.add_one_le_of_lt hRoom
    · exact hCount other

/- As many different names as needed. -/
theorem exists_distinct_names (count : ℕ) :
    ∃ names : List String, names.length = count ∧ names.Nodup := by
  refine ⟨(List.range count).map (fun i => String.ofList (List.replicate i 'a')), ?_, ?_⟩
  · rw [length_map, length_range]
  · refine List.Nodup.map ?_ nodup_range
    intro i j hEq
    have hLists := String.ofList_injective hEq
    simpa using congrArg List.length hLists

theorem nodup_resolveRuntimeToolNames (job : CompiledJob) :
    (resolveRuntimeToolNames job).Nodup := by
  unfold resolveRuntimeToolNames
  dsimp only
  split
  · exact nodup_eraseDups _
  · exact (nodup_eraseDups _).filter _

/- Calls that make up what is attainable. -/
theorem exists_names_of_le_attainable (hWindow : (runtimeWindowMs job).isNaN = false)
    (hLe : (count : ℕ∞) ≤ attainable job) :
    ∃ names : List String, names.length = count ∧ (∀ name ∈ names, Permitted job name) ∧
      ∀ name, (names.count name : ℕ∞) ≤ allowance (toolLimit job name) := by
  unfold attainable at hLe
  rw [if_neg (by simp [hWindow])] at hLe
  split at hLe
  · next hTools =>
      split at hLe
      · have hZero : count = 0 := by simpa using hLe
        exact ⟨[], hZero.symm, by simp, by simp⟩
      · next hSome =>
          rcases exists_distinct_names count with ⟨names, hLength, hNodup⟩
          refine ⟨names, hLength, fun _ _ => Or.inl hTools, ?_⟩
          intro name
          rw [toolLimit_of_no_tools hTools]
          refine le_trans ?_ (Order.one_le_iff_pos.mpr (pos_iff_ne_zero.mpr hSome))
          exact_mod_cast List.nodup_iff_count_le_one.mp hNodup name
  · next first rest hTools =>
      rw [← hTools] at hLe
      rcases exists_names_of_le_sum (nodup_resolveRuntimeToolNames job) _ hLe with
        ⟨names, hLength, hMem, hCount⟩
      exact ⟨names, hLength, fun name hName => Or.inr (hMem name hName), hCount⟩

theorem exists_run_of_le_attainable (hLe : (count : ℕ∞) ≤ attainable job) :
    ∃ evaluations, ToolCallRun evaluations ∧
      ((jobEngine host job).allowedRun host.toPolicyHost
        evaluations).countP (inWindow job 0) = count := by
  cases hWindow : (runtimeWindowMs job).isNaN with
  | true =>
    have hZero : count = 0 := by simpa [attainable, hWindow] using hLe
    exact ⟨[], ⟨by simp, List.Pairwise.nil⟩, hZero.symm⟩
  | false =>
    rcases exists_names_of_le_attainable hWindow hLe with ⟨names, hLength, hPermitted, hCount⟩
    have hAll : (jobEngine host job).allowedRun
        host.toPolicyHost (names.map callOf) = names.map callOf :=
      allowedRun_callOf hWindow rfl rfl (fun _ => rfl : CalledBefore [] _) hPermitted hCount
    refine ⟨names.map callOf, ⟨?_, ?_⟩, ?_⟩
    · intro evaluation hMem
      rcases List.mem_map.mp hMem with ⟨name, _, rfl⟩
      rfl
    · rw [List.map_map, pairwise_map]
      exact pairwise_of_forall (fun _ _ => le_rfl)
    · rw [hAll, List.countP_eq_length.mpr]
      · rw [length_map, hLength]
      · intro evaluation hMem
        rcases List.mem_map.mp hMem with ⟨name, _, rfl⟩
        unfold inWindow
        rw [Bool.and_eq_true, decide_eq_true_iff]
        exact ⟨window_holds_end hWindow 0, le_rfl⟩

end

/- The cap holds exactly if what the tools of the job are allowed together is within it. -/
theorem tool_call_cap_iff (host : JobHost) (job : CompiledJob) : CapHolds host job ↔
      ∀ count : ℕ, (count : ℕ∞) ≤ attainable job →
        JsNumber.le (.ofInt count) job.policy.maxToolCalls = true := by
  constructor
  · intro hCap count hLe
    rcases exists_run_of_le_attainable hLe with ⟨evaluations, hRun, hCount⟩
    have hHolds := hCap evaluations hRun 0
    rw [hCount] at hHolds
    exact hHolds
  · intro hWithin evaluations hRun time
    exact hWithin _ (allowedRun_le_attainable hRun time)

/- A job that may call one of its two tools once. -/
def twoToolJob : CompiledJob :=
  { jobType := "web_research_brief"
    policy :=
      { allowedTools := [.extractText], allowedDomains := [], writeScope := .none
        networkPolicy := .allowlistOnly, maxRuntimeMinutes := 1, maxToolCalls := 1
        maxFetches := 1 }, workspaceRoot := none, templateId := "template", taskPda := "task" }

/- Both tools are called, within one window. -/
theorem two_tools_exceed_cap : ¬ CapHolds JobHost.basic twoToolJob := by
  intro hCap
  have hRun : ToolCallRun [callOf "system.httpGet", callOf "system.pdfExtractText"] :=
    ⟨by decide +kernel, by decide +kernel⟩
  have hCount := hCap _ hRun 0
  revert hCount
  decide +kernel

/-
  In every window, each tool is called at most as often as its own limit allows, and a job with
  tools calls no other tool.
-/
theorem tool_limits_hold (host : JobHost) (job : CompiledJob) {evaluations : List Evaluation}
    (hRun : ToolCallRun evaluations) :
    let allowed := (jobEngine host job).allowedRun host.toPolicyHost evaluations
    (∀ time name, (allowed.countP (calledIn job time name) : ℕ∞) ≤
        allowance (toolLimit job name)) ∧
      (resolveRuntimeToolNames job ≠ [] →
        ∀ evaluation ∈ allowed, evaluation.action.name ∈ resolveRuntimeToolNames job) := by
  rcases (evaluations.map Evaluation.now).finite_toSet.bddBelow with ⟨now, hNow⟩
  rcases (CallsCounted.create now).run hRun (fun _ hMem => hNow (mem_map_of_mem hMem)) with
    ⟨_, hCounted⟩
  exact ⟨hCounted.capped, hCounted.permitted⟩

theorem fetching_limited : (((jobEngine JobHost.basic twoToolJob).allowedRun
    JobHost.basic.toPolicyHost [callOf "system.httpGet", callOf "system.httpGet"]).countP
      (calledIn twoToolJob 0 "system.httpGet") : ℕ∞) ≤
        allowance (toolLimit twoToolJob "system.httpGet") :=
  (tool_limits_hold JobHost.basic twoToolJob ⟨by decide, by decide +kernel⟩).1 0 "system.httpGet"

end AgencCore.Task
