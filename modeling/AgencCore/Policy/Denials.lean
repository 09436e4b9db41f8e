import AgencCore.Policy.Engine

/-
  What a denied action consumes.

  The scopes of a budget are charged one after the other, up to the first that is exceeded, and a
  later violation does not undo a charge. A denied action consumes nothing if it charges no amount
  but zero and its checks drop nothing that is still counted.

  Main declarations:
    * `ScopesChecked` and `checkScopes_checked`
    * `ConsumesNothing` and `OrdinaryUsage`
    * `PolicyEngine.denied_consumes_nothing_iff`
-/

namespace AgencCore.Policy

open Foundations List Option

section

variable {α ν : Type}
variable [AddCommMonoid ν]
variable (weight : α → ν)

namespace Meter

/- The usage that a check finds. -/
def current (meter : Meter α ν) (now : ℚ) (logs : UsageLogs α) : ν :=
  usage weight (cutoffOf now meter.windowMs) (logs meter.key)

def isExceeded (meter : Meter α ν) (now : ℚ) (logs : UsageLogs α) : Bool :=
  meter.exceeded (meter.current weight now logs)

/- The part of the log that a check keeps. -/
def kept (meter : Meter α ν) (now : ℚ) (logs : UsageLogs α) : List (Charge α) :=
  recent (cutoffOf now meter.windowMs) (logs meter.key)

end Meter

/- The scopes before the first that is exceeded. -/
def chargedMeters (now : ℚ) (logs : UsageLogs α) (meters : List (Meter α ν)) : List (Meter α ν) :=
  meters.takeWhile (fun meter => !meter.isExceeded weight now logs)

/- The first scope that is exceeded. -/
def stoppedAt (now : ℚ) (logs : UsageLogs α) (meters : List (Meter α ν)) : Option (Meter α ν) :=
  meters.find? (fun meter => meter.isExceeded weight now logs)

/- The logs after the scopes have been checked. -/
structure ScopesChecked (now : ℚ) (meters : List (Meter α ν))
    (logs logs' : UsageLogs α) : Prop where
  charged : ∀ meter ∈ chargedMeters weight now logs meters,
    logs' meter.key = meter.kept now logs ++ [⟨now, meter.amount⟩]
  stopped : ∀ meter, stoppedAt weight now logs meters = some meter →
    logs' meter.key = if meter.writesBack then meter.kept now logs
      else logs meter.key
  others : ∀ key, (∀ meter ∈ chargedMeters weight now logs meters, meter.key ≠ key) →
    (∀ meter, stoppedAt weight now logs meters = some meter → meter.key ≠ key) →
    logs' key = logs key

variable {meters : List (Meter α ν)}
variable {meter : Meter α ν}

theorem chargedMeters_subset {now : ℚ} {logs : UsageLogs α}
    (hMem : meter ∈ chargedMeters weight now logs meters) : meter ∈ meters :=
  (takeWhile_sublist _).subset hMem

/- Writing to another log does not change a check. -/
theorem isExceeded_update {key : String} (hNe : meter.key ≠ key) (now : ℚ)
    (logs : UsageLogs α) (log : List (Charge α)) :
    meter.isExceeded weight now (Function.update logs key log) =
      meter.isExceeded weight now logs := by
  unfold Meter.isExceeded Meter.current
  rw [Function.update_of_ne hNe]

omit [AddCommMonoid ν] in
theorem kept_update {key : String} (hNe : meter.key ≠ key) (now : ℚ)
    (logs : UsageLogs α) (log : List (Charge α)) :
    meter.kept now (Function.update logs key log) = meter.kept now logs := by
  unfold Meter.kept
  rw [Function.update_of_ne hNe]

theorem checks_update {key : String}
    (hNe : ∀ meter ∈ meters, meter.key ≠ key) (now : ℚ) (logs : UsageLogs α)
    (log : List (Charge α)) :
    chargedMeters weight now (Function.update logs key log) meters =
        chargedMeters weight now logs meters ∧
      stoppedAt weight now (Function.update logs key log) meters =
        stoppedAt weight now logs meters := by
  unfold chargedMeters stoppedAt
  induction meters with
  | nil => exact ⟨rfl, rfl⟩
  | cons meter rest ih =>
    rcases ih (fun other hMem => hNe other (mem_cons_of_mem _ hMem)) with ⟨hCharged, hStopped⟩
    simp only [takeWhile_cons, find?_cons]
    rw [isExceeded_update weight (hNe meter mem_cons_self), hCharged, hStopped]
    exact ⟨rfl, rfl⟩

theorem checkScopes_cons (now : ℚ) (consuming : Bool) (meter : Meter α ν) (rest : List (Meter α ν))
    (logs : UsageLogs α) :
    checkScopes weight now consuming (meter :: rest) logs =
      if meter.isExceeded weight now logs then
        (some (meter.violation (meter.current weight now logs)),
          if consuming && meter.writesBack then Function.update logs meter.key (meter.kept now logs)
          else logs)
      else checkScopes weight now consuming rest
        (if consuming then
          Function.update logs meter.key (meter.kept now logs ++ [⟨now, meter.amount⟩])
        else logs) := by
  unfold Meter.isExceeded Meter.current Meter.kept
  rw [checkScopes, Meter.consume]
  cases meter.exceeded (usage weight (cutoffOf now meter.windowMs) (logs meter.key)) <;> rfl

omit [AddCommMonoid ν] in
theorem nodup_keys_cons {rest : List (Meter α ν)}
    (hKeys : ((meter :: rest).map Meter.key).Nodup) :
    (∀ other ∈ rest, other.key ≠ meter.key) ∧ (rest.map Meter.key).Nodup := by
  rw [map_cons, nodup_cons] at hKeys
  exact ⟨fun other hMem hEq => hKeys.1 (hEq ▸ List.mem_map_of_mem hMem), hKeys.2⟩

theorem checkScopes_violation (now : ℚ) (consuming : Bool)
    (hKeys : (meters.map Meter.key).Nodup) (logs : UsageLogs α) :
    (checkScopes weight now consuming meters logs).1 =
      (stoppedAt weight now logs meters).map
        (fun meter => meter.violation (meter.current weight now logs)) := by
  induction meters generalizing logs with
  | nil => rfl
  | cons meter rest ih =>
    rcases nodup_keys_cons hKeys with ⟨hNe, hRest⟩
    rw [checkScopes_cons, stoppedAt, find?_cons]
    cases meter.isExceeded weight now logs with
    | true => rfl
    | false =>
      cases consuming with
      | false => exact ih hRest logs
      | true =>
        simp only [Bool.false_eq_true, if_false, if_true]
        rw [ih hRest, (checks_update weight hNe _ _ _).2]
        unfold stoppedAt
        cases hStop : rest.find? (fun meter => meter.isExceeded weight now logs) with
        | none => rfl
        | some other =>
          have hOther := hNe other (mem_of_find?_eq_some hStop)
          simp only [map_some, Meter.current, Function.update_of_ne hOther]

/- Without consuming, nothing is written. -/
theorem checkScopes_dry (now : ℚ) (meters : List (Meter α ν)) (logs : UsageLogs α) :
    (checkScopes weight now false meters logs).2 = logs := by
  induction meters with
  | nil => rfl
  | cons meter rest ih =>
    rw [checkScopes_cons]
    split
    · rfl
    · exact ih

theorem checkScopes_checked (now : ℚ) (hKeys : (meters.map Meter.key).Nodup) (logs : UsageLogs α) :
    ScopesChecked weight now meters logs (checkScopes weight now true meters logs).2 := by
  induction meters generalizing logs with
  | nil =>
    exact ⟨forall_mem_nil _, nofun, fun _ _ _ => rfl⟩
  | cons meter rest ih =>
    rcases nodup_keys_cons hKeys with ⟨hNe, hKeysRest⟩
    rw [checkScopes_cons]
    cases hExceeded : meter.isExceeded weight now logs with
    | true =>
      have hCharged : chargedMeters weight now logs (meter :: rest) = [] := by
        simp [chargedMeters, hExceeded]
      have hStop : stoppedAt weight now logs (meter :: rest) = some meter := by
        simp [stoppedAt, hExceeded]
      refine ⟨by simp [hCharged], ?_, ?_⟩
      · intro other hOther
        rw [hStop, Option.some.injEq] at hOther
        rw [← hOther]
        cases meter.writesBack <;> simp
      · intro key _ hOther
        have hKey := hOther meter hStop
        cases meter.writesBack with
        | false => rfl
        | true => exact Function.update_of_ne hKey.symm _ _
    | false =>
      have hCharged : chargedMeters weight now logs (meter :: rest) =
            meter :: chargedMeters weight now logs rest := by simp [chargedMeters, hExceeded]
      have hStop : stoppedAt weight now logs (meter :: rest) = stoppedAt weight now logs rest := by
        simp [stoppedAt, hExceeded]
      rcases checks_update weight hNe now logs (meter.kept now logs ++ [⟨now, meter.amount⟩]) with
        ⟨hSame, hSameStop⟩
      rcases ih hKeysRest (Function.update logs meter.key
        (meter.kept now logs ++ [⟨now, meter.amount⟩])) with
        ⟨hChargedRest, hStoppedRest, hOthersRest⟩
      rw [hSame] at hChargedRest hOthersRest
      rw [hSameStop] at hStoppedRest hOthersRest
      simp only [Bool.false_eq_true, if_false, if_true]
      refine ⟨?_, ?_, ?_⟩
      · intro other hMem
        rw [hCharged, mem_cons] at hMem
        rcases hMem with rfl | hMem
        · rw [hOthersRest _ (fun later hLater => hNe later (chargedMeters_subset weight hLater))
            (fun later hLater => hNe later (mem_of_find?_eq_some hLater))]
          simp
        · rw [hChargedRest other hMem, kept_update (hNe other (chargedMeters_subset weight hMem))]
      · intro other hOther
        rw [hStop] at hOther
        have hKey := hNe other (mem_of_find?_eq_some hOther)
        rw [hStoppedRest other hOther, kept_update hKey, Function.update_of_ne hKey]
      · intro key hCharges hStops
        rw [hCharged] at hCharges
        rw [hStop] at hStops
        rw [hOthersRest key (fun other hMem => hCharges other (mem_cons_of_mem _ hMem)) hStops]
        exact Function.update_of_ne (hCharges meter mem_cons_self).symm _ _

/- Each kind of scope has keys with its own first letter. -/
def ScopeLabel.letter : ScopeLabel → Char
| .global => 'g'
| .tenant => 't'
| .project => 'p'
| .run => 'r'

theorem ScopeLabel.letter_injective : Function.Injective ScopeLabel.letter := by
  intro a b hEq
  cases a <;> cases b <;> first | rfl | cases hEq

theorem head?_scopeKey {β : Type} (candidate : ScopedBudget β) (rest : List Char) :
    (candidate.scopeKey.toList ++ rest).head? = some candidate.scopeLabel.letter := by
  unfold ScopedBudget.scopeKey
  cases candidate.scopeLabel <;> simp <;> rfl

theorem labels_scopedBudgets {β : Type} (action : PolicyAction) (resolved : ResolvedPolicyContext)
    (globalBudget tenantBudget projectBudget runBudget : Option β) :
    (scopedBudgets action resolved globalBudget tenantBudget
      projectBudget runBudget).Pairwise (fun a b => a.scopeLabel ≠ b.scopeLabel) := by
  unfold scopedBudgets
  cases scopeId resolved.tenantId <;> cases scopeId resolved.projectId <;>
    cases runId action <;> simp

/- The checks of one kind write to different logs. -/
theorem keys_nodup_of_letters {α ν β : Type} {meter? : ScopedBudget β → Option (Meter α ν)}
    (hLetter : ∀ candidate meter, meter? candidate = some meter →
      meter.key.toList.head? = some candidate.scopeLabel.letter)
    {candidates : List (ScopedBudget β)}
    (hLabels : candidates.Pairwise (fun a b => a.scopeLabel ≠ b.scopeLabel)) :
    ((candidates.filterMap meter?).map Meter.key).Nodup := by
  rw [List.Nodup, pairwise_map, pairwise_filterMap]
  apply hLabels.imp
  intro a b hNe meter hMeter meter' hMeter' hEq
  have hA := hLetter a meter hMeter
  rw [hEq, hLetter b meter' hMeter', Option.some.injEq] at hA
  exact hNe (ScopeLabel.letter_injective hA.symm)

variable (action : PolicyAction)
variable (resolved : ResolvedPolicyContext)

theorem actionMeters_keys : ((actionMeters action resolved).map Meter.key).Nodup := by
  refine keys_nodup_of_letters ?_ (labels_scopedBudgets _ _ _ _ _ _)
  intro candidate meter hMeter
  rcases map_eq_some_iff.mp hMeter with ⟨_, _, rfl⟩
  simp only [String.toList_append, append_assoc]
  exact head?_scopeKey candidate _

theorem spendMeters_keys : ((spendMeters action resolved).map Meter.key).Nodup := by
  unfold spendMeters
  cases action.spendLamports with
  | none => exact nodup_nil
  | some spendLamports =>
    refine keys_nodup_of_letters ?_ (labels_scopedBudgets _ _ _ _ _ _)
    intro candidate meter hMeter
    rcases map_eq_some_iff.mp hMeter with ⟨_, _, rfl⟩
    simpa using head?_scopeKey candidate []

theorem tokenMeters_keys : ((tokenMeters action resolved).map Meter.key).Nodup := by
  unfold tokenMeters
  cases action.tokenCount with
  | none => exact nodup_nil
  | some tokenCount =>
    refine keys_nodup_of_letters ?_ (labels_scopedBudgets _ _ _ _ _ _)
    intro candidate meter hMeter
    rcases map_eq_some_iff.mp hMeter with ⟨_, _, rfl⟩
    simpa using head?_scopeKey candidate []

end

----------
-- Counting Later
----------

section

variable {α ν : Type}
variable [AddCommMonoid ν]
variable (weight : α → ν)
variable (now : ℚ)
variable (meters : PolicyAction → List (Meter α ν))

/- A charge made now is counted by a window that reaches back. -/
theorem since_now
    {windowMs : JsNumber}
    (now : ℚ)
    (hWindow : JsNumber.le 0 windowMs = true)
    {amount : α} :
    Charge.since (cutoffOf now windowMs) (⟨now, amount⟩ : Charge α) = true := by
  cases windowMs with
  | nan | negInf => cases hWindow
  | posInf => rfl
  | finite w =>
    have hNonneg : 0 ≤ w := by
      change JsNumber.le (.finite 0) (.finite w) = true at hWindow
      rwa [JsNumber.le_finite, decide_eq_true_iff] at hWindow
    have hCutoff : cutoffOf now (.finite w) = .finite (now + -w) := rfl
    rw [Charge.since, hCutoff, JsNumber.le_finite, decide_eq_true_iff]
    linarith

/- From now on, every check finds the same usage. -/
def CountsAlike (logs logs' : UsageLogs α) : Prop :=
  ∀ later, now ≤ later → ∀ action, ∀ count ∈ meters action,
    count.current weight later logs' = count.current weight later logs

/- Whatever a check dropped weighs nothing, or is too old for every other check of the log. -/
def DropsNothing
    (logs : UsageLogs α)
    (meter : Meter α ν) : Prop :=
  ∀ charge ∈ dropped (cutoffOf now meter.windowMs) (logs meter.key),
    weight charge.amount ≠ 0 → ∀ action, ∀ count ∈ meters action,
      count.key = meter.key → charge.since (cutoffOf now count.windowMs) = false

/-
  The checks of an action charge nothing but zero and drop nothing that is still counted. The scopes
  up to the first that is exceeded are charged; the log of that scope may be written back shortened.
-/
structure ConsumesNothing
    (logs : UsageLogs α)
    (action : PolicyAction) : Prop where
  charged : ∀ meter ∈ chargedMeters weight now logs (meters action),
    weight meter.amount = 0 ∧ DropsNothing weight now meters logs meter
  stopped : ∀ meter, stoppedAt weight now logs (meters action) = some meter →
    meter.writesBack = true → DropsNothing weight now meters logs meter

variable {weight now meters}
variable {logs logs' : UsageLogs α}
variable {meter count : Meter α ν}
variable {added : List (Charge α)}
variable {action : PolicyAction}

/- A log whose old part was replaced, and the same log before. -/
theorem current_replaced
    (hLog : logs' meter.key = meter.kept now logs ++ added)
    (hKey : count.key = meter.key)
    (later : ℚ) :
    let cutoff := cutoffOf later count.windowMs
    let kept := usage weight cutoff (meter.kept now logs)
    count.current weight later logs' = kept + usage weight cutoff added ∧
      count.current weight later logs =
        kept + usage weight cutoff (dropped (cutoffOf now meter.windowMs) (logs meter.key)) := by
  unfold Meter.current
  rw [hKey, hLog, usage_append]
  exact ⟨rfl, (usage_recent_add_dropped weight _ _ _).symm⟩

/- Adding what weighs nothing for what is not counted leaves the usage. -/
theorem DropsNothing.current_eq
    (hDrops : DropsNothing weight now meters logs meter)
    (hLog : logs' meter.key = meter.kept now logs ++ added)
    (hAdded : ∀ charge ∈ added, weight charge.amount = 0)
    {later : ℚ}
    (hLater : now ≤ later)
    {other : PolicyAction}
    (hCount : count ∈ meters other)
    (hKey : count.key = meter.key) :
    count.current weight later logs' = count.current weight later logs := by
  rcases current_replaced hLog hKey later with ⟨hAfter, hBefore⟩
  have hDropped : usage weight (cutoffOf later count.windowMs)
      (dropped (cutoffOf now meter.windowMs) (logs meter.key)) = 0 := by
    refine usage_eq_zero weight ?_
    intro charge hMem hSince
    by_contra hWeighs
    have hNot := hDrops charge hMem hWeighs other count hCount hKey
    rw [Charge.since, cutoffOf_le_of_later hLater hSince] at hNot
    cases hNot
  rw [hAfter, hBefore, hDropped, usage_eq_zero weight (fun charge hMem _ => hAdded charge hMem)]

theorem countsAlike_of_consumesNothing
    (hChecked : ScopesChecked weight now (meters action) logs logs')
    (hNothing : ConsumesNothing weight now meters logs action) :
    CountsAlike weight now meters logs logs' := by
  intro later hLater other count hCount
  by_cases hCharged :
      ∃ meter ∈ chargedMeters weight now logs (meters action), meter.key = count.key
  · rcases hCharged with ⟨meter, hMem, hKey⟩
    rcases hNothing.charged meter hMem with ⟨hZero, hDrops⟩
    exact hDrops.current_eq (hChecked.charged meter hMem)
      (forall_mem_singleton.mpr hZero) hLater hCount hKey.symm
  by_cases hStopped :
      ∃ meter, stoppedAt weight now logs (meters action) = some meter ∧ meter.key = count.key
  · rcases hStopped with ⟨meter, hStop, hKey⟩
    have hLog := hChecked.stopped meter hStop
    by_cases hBack : meter.writesBack = true
    · rw [if_pos hBack, ← append_nil (meter.kept now logs)] at hLog
      exact (hNothing.stopped meter hStop hBack).current_eq hLog (forall_mem_nil _) hLater hCount
        hKey.symm
    · rw [if_neg hBack, hKey] at hLog
      unfold Meter.current
      rw [hLog]
  · have hLog := hChecked.others count.key (fun meter hMem hKey => hCharged ⟨meter, hMem, hKey⟩)
      (fun meter hStop hKey => hStopped ⟨meter, hStop, hKey⟩)
    unfold Meter.current
    rw [hLog]

/- Ordinary amounts in the logs and in the checks of an action, whose windows reach back. -/
structure OrdinaryChecks
    (weight : α → ν)
    (meters : PolicyAction → List (Meter α ν))
    (ordinary : ν → Prop)
    (logs : UsageLogs α)
    (action : PolicyAction) : Prop where
  amounts : Ordinary ordinary
  logged : ∀ key, ∀ charge ∈ logs key, ordinary (weight charge.amount)
  charged : ∀ meter ∈ meters action, ordinary (weight meter.amount)
  windows : ∀ meter ∈ meters action, JsNumber.le 0 meter.windowMs = true

variable {ordinary : ν → Prop}

theorem OrdinaryChecks.kept
    (hChecks : OrdinaryChecks weight meters ordinary logs action)
    (meter : Meter α ν)
    (now : ℚ)
    (cutoff : JsNumber) :
    ordinary (usage weight cutoff (meter.kept now logs)) :=
  hChecks.amounts.usage cutoff
    (fun charge hMem => hChecks.logged meter.key charge (mem_filter.mp hMem).1)

/- What was dropped from a log and is missed by no check. -/
theorem dropsNothing_of_current_eq
    (hChecks : OrdinaryChecks weight meters ordinary logs action)
    (hLog : logs' meter.key = meter.kept now logs ++ added)
    (hAdded : ∀ charge ∈ added, weight charge.amount = 0)
    (hAlike : CountsAlike weight now meters logs logs') :
    DropsNothing weight now meters logs meter := by
  intro charge hMem hWeighs other count hCount hKey
  by_contra hSince
  have hDropped : ∀ charge ∈ dropped (cutoffOf now meter.windowMs) (logs meter.key),
      ordinary (weight charge.amount) :=
    fun charge hMem => hChecks.logged meter.key charge (mem_filter.mp hMem).1
  rcases current_replaced hLog hKey now with ⟨hAfter, hBefore⟩
  have hSame := hAlike now le_rfl other count hCount
  rw [hAfter, hBefore, usage_eq_zero weight (fun charge hMem _ => hAdded charge hMem)] at hSame
  have hNone := hChecks.amounts.cancel (hChecks.kept meter now _) hChecks.amounts.zero
    (hChecks.amounts.usage _ hDropped) hSame
  exact hWeighs (hChecks.amounts.eq_zero_of_usage hDropped hNone.symm charge hMem
    (Bool.not_eq_false _ ▸ hSince))

theorem consumesNothing_of_countsAlike
    (hChecks : OrdinaryChecks weight meters ordinary logs action)
    (hChecked : ScopesChecked weight now (meters action) logs logs')
    (hAlike : CountsAlike weight now meters logs logs') :
    ConsumesNothing weight now meters logs action := by
  constructor
  · intro meter hMem
    have hMeter := chargedMeters_subset weight hMem
    have hLog := hChecked.charged meter hMem
    -- right now the own check counts the charge and nothing of what it dropped
    have hZero : weight meter.amount = 0 := by
      rcases current_replaced hLog rfl now with ⟨hAfter, hBefore⟩
      have hSame := hAlike now le_rfl action meter hMeter
      have hSince : Charge.since (cutoffOf now meter.windowMs) (⟨now, meter.amount⟩ : Charge α) =
          true := since_now now (hChecks.windows meter hMeter)
      have hDropped : usage weight (cutoffOf now meter.windowMs)
          (dropped (cutoffOf now meter.windowMs) (logs meter.key)) = 0 := by
        refine usage_eq_zero weight ?_
        intro charge hOld hCounted
        have hNot := (mem_filter.mp hOld).2
        rw [hCounted] at hNot
        cases hNot
      rw [hAfter, hBefore, hDropped, usage_singleton, if_pos hSince] at hSame
      exact hChecks.amounts.cancel (hChecks.kept meter now _) (hChecks.charged meter hMeter)
        hChecks.amounts.zero hSame
    exact ⟨hZero, dropsNothing_of_current_eq hChecks hLog (forall_mem_singleton.mpr hZero) hAlike⟩
  · intro meter hStop hBack
    have hLog := hChecked.stopped meter hStop
    rw [if_pos hBack, ← append_nil (meter.kept now logs)] at hLog
    exact dropsNothing_of_current_eq hChecks hLog (forall_mem_nil _) hAlike

end

----------
-- Denied Actions
----------

namespace PolicyEngine

/- The checks that an enabled policy makes. -/
def whenEnabled {γ : Type} (meters : PolicyAction → ResolvedPolicyContext → List γ)
    (engine : PolicyEngine) (action : PolicyAction) : List γ :=
  if isEnabled (engine.resolved action).policy then meters action (engine.resolved action)
  else []

/- From now on, the usage of actions, lamports and tokens is counted the same in every scope. -/
structure SameUsage (now : ℚ) (engine engine' : PolicyEngine) : Prop where
  actions : CountsAlike actionWeight now (whenEnabled actionMeters engine) engine.actionEvents
    engine'.actionEvents
  spend : CountsAlike id now (whenEnabled spendMeters engine) engine.spendEvents engine'.spendEvents
  tokens : CountsAlike id now (whenEnabled tokenMeters engine) engine.tokenEvents
    engine'.tokenEvents

/- The checks of an action consume nothing of any kind. -/
structure ConsumesNothing (now : ℚ) (engine : PolicyEngine) (action : PolicyAction) : Prop where
  actions : Policy.ConsumesNothing actionWeight now (whenEnabled actionMeters engine)
    engine.actionEvents action
  spend : Policy.ConsumesNothing id now (whenEnabled spendMeters engine) engine.spendEvents action
  tokens : Policy.ConsumesNothing id now (whenEnabled tokenMeters engine) engine.tokenEvents action

/- A number of tokens. -/
def IsCount (tokens : JsNumber) : Prop := ∃ q : ℚ, 0 ≤ q ∧ tokens = .finite q

/- No window is negative, and neither is any amount that was logged or is to be charged. -/
structure OrdinaryUsage (engine : PolicyEngine) (action : PolicyAction) : Prop where
  actionWindows : ∀ meter ∈ whenEnabled actionMeters engine action,
    JsNumber.le 0 meter.windowMs = true
  spendWindows : ∀ meter ∈ whenEnabled spendMeters engine action,
    JsNumber.le 0 meter.windowMs = true
  tokenWindows : ∀ meter ∈ whenEnabled tokenMeters engine action,
    JsNumber.le 0 meter.windowMs = true
  spent : ∀ key, ∀ charge ∈ engine.spendEvents key, 0 ≤ charge.amount
  spends : ∀ meter ∈ whenEnabled spendMeters engine action, 0 ≤ meter.amount
  tokensUsed : ∀ key, ∀ charge ∈ engine.tokenEvents key, IsCount charge.amount
  tokens : ∀ meter ∈ whenEnabled tokenMeters engine action, IsCount meter.amount

variable (host : PolicyHost)

/- The logs after an evaluation, kind by kind. -/
theorem evaluate_logs (engine : PolicyEngine) (now : ℚ) (action : PolicyAction) :
    ScopesChecked actionWeight now (whenEnabled actionMeters engine action) engine.actionEvents
        (engine.evaluate host now action).2.actionEvents ∧
      ScopesChecked id now (whenEnabled spendMeters engine action) engine.spendEvents
        (engine.evaluate host now action).2.spendEvents ∧
      ScopesChecked id now (whenEnabled tokenMeters engine action) engine.tokenEvents
        (engine.evaluate host now action).2.tokenEvents := by
  rcases evaluateInternal_logs host engine now true action with ⟨_, hAction, hSpend, hToken⟩
  unfold evaluate whenEnabled
  rw [hAction, hSpend, hToken]
  unfold checkPolicy
  dsimp only
  split
  · exact ⟨checkScopes_checked _ now (actionMeters_keys _ _) _,
      checkScopes_checked _ now (spendMeters_keys _ _) _,
      checkScopes_checked _ now (tokenMeters_keys _ _) _⟩
  · refine ⟨checkScopes_checked _ now ?_ _, checkScopes_checked _ now ?_ _,
      checkScopes_checked _ now ?_ _⟩ <;> exact nodup_nil

/- The budgets of an allowed action are not exceeded. -/
theorem passes_of_allowed {engine : PolicyEngine} {now : ℚ} {action : PolicyAction}
    (hAllowed : (engine.evaluate host now action).1.allowed = true) :
    stoppedAt actionWeight now engine.actionEvents (whenEnabled actionMeters engine action) = none ∧
      stoppedAt id now engine.spendEvents (whenEnabled spendMeters engine action) = none := by
  have hNone := (allowed_iff host engine now true action).mp hAllowed
  have hPolicy := (List.append_eq_nil_iff.mp hNone).2
  unfold whenEnabled
  split
  · next hEnabled =>
      unfold checkPolicy at hPolicy
      simp only [hEnabled, if_true, append_eq_nil_iff,
        List.reduceOption, filterMap_eq_nil_iff,
        mem_cons, forall_eq_or_imp, id] at hPolicy
      have hActions := checkScopes_violation actionWeight now
        true (actionMeters_keys action (engine.resolved action)) engine.actionEvents
      have hSpends := checkScopes_violation id now true
        (spendMeters_keys action (engine.resolved action)) engine.spendEvents
      exact ⟨map_eq_none_iff.mp (hActions.symm.trans hPolicy.2.1),
        map_eq_none_iff.mp (hSpends.symm.trans hPolicy.2.2.1)⟩
  · exact ⟨rfl, rfl⟩

theorem ordinary_nat : Ordinary (fun _ : Nat => True) where
  zero := trivial
  add := fun _ _ => trivial
  cancel := fun _ _ _ => Nat.add_left_cancel
  eq_zero := fun _ _ hSum => (Nat.add_eq_zero_iff.mp hSum).1

theorem ordinary_int : Ordinary (fun amount : Int => 0 ≤ amount) where
  zero := le_rfl
  add := Int.add_nonneg
  cancel := fun _ _ _ => Int.add_left_cancel
  eq_zero := by
    intro x y hX hY hSum
    omega

theorem ordinary_count : Ordinary IsCount where
  zero := ⟨0, le_rfl, rfl⟩
  add := by
    rintro _ _ ⟨p, hP, rfl⟩ ⟨q, hQ, rfl⟩
    exact ⟨p + q, add_nonneg hP hQ, rfl⟩
  cancel := by
    rintro _ _ _ ⟨p, _, rfl⟩ ⟨q, _, rfl⟩ ⟨r, _, rfl⟩ hSum
    have hEq : p + q = p + r := JsNumber.finite.inj hSum
    rw [add_left_cancel hEq]
  eq_zero := by
    rintro _ _ ⟨p, hP, rfl⟩ ⟨q, hQ, rfl⟩ hSum
    have hEq : p + q = 0 := JsNumber.finite.inj hSum
    have hZero : p = 0 := by linarith
    rw [hZero]
    rfl

/-
  A denied action that charges no amount but zero, and drops nothing that is still counted, leaves
  the usage of every later time as it was. Unless windows or amounts are negative, no other denied
  action does.
-/
theorem denied_consumes_nothing_iff (engine : PolicyEngine) (now : ℚ) (action : PolicyAction) :
    (engine.evaluate host now action).1.allowed = false →
      (ConsumesNothing now engine action →
        SameUsage now engine (engine.evaluate host now action).2) ∧
      (OrdinaryUsage engine action →
        (SameUsage now engine (engine.evaluate host now action).2 ↔
          ConsumesNothing now engine action)) := by
  intro _
  rcases evaluate_logs host engine now action with ⟨hActions, hSpend, hTokens⟩
  have hKeeps (hNothing : ConsumesNothing now engine action) :
      SameUsage now engine (engine.evaluate host now action).2 :=
    ⟨countsAlike_of_consumesNothing hActions hNothing.actions,
      countsAlike_of_consumesNothing hSpend hNothing.spend,
      countsAlike_of_consumesNothing hTokens hNothing.tokens⟩
  refine ⟨hKeeps, fun hUsage => ⟨fun hSame => ?_, hKeeps⟩⟩
  exact ⟨consumesNothing_of_countsAlike
      ⟨ordinary_nat, fun _ _ _ => trivial, fun _ _ => trivial, hUsage.actionWindows⟩ hActions
      hSame.actions,
    consumesNothing_of_countsAlike ⟨ordinary_int, hUsage.spent, hUsage.spends, hUsage.spendWindows⟩
      hSpend hSame.spend,
    consumesNothing_of_countsAlike
      ⟨ordinary_count, hUsage.tokensUsed, hUsage.tokens, hUsage.tokenWindows⟩ hTokens hSame.tokens⟩

/- A policy that denies an action and limits spending. -/
def denyingPolicy : RuntimePolicyConfig :=
  { bundle :=
      { enabled := some true
        denyActions := some ["transfer"]
        spendBudget := some { limitLamports := 10, windowMs := .ofInt 1000 } }
    defaultTenantId := none
    defaultProjectId := none
    tenantBundles := none
    projectBundles := none }

def spendingAction (name : String) (spendLamports : Int) : PolicyAction :=
  { type := .custom
    name := name
    access := .write
    spendLamports := some spendLamports }

def transferAction : PolicyAction := spendingAction "transfer" 10

/- The engine after an action that was allowed to spend. -/
def spentEngine : PolicyEngine :=
  ((create denyingPolicy).evaluate PolicyHost.basic 0 (spendingAction "pay" 5)).2

/- A denied action that spends nothing leaves the charge of the action before it. -/
theorem denied_without_spend_consumes_nothing :
    (spentEngine.evaluate PolicyHost.basic 1 (spendingAction "transfer" 0)).1.allowed = false ∧
      SameUsage 1 spentEngine
        (spentEngine.evaluate PolicyHost.basic 1 (spendingAction "transfer" 0)).2 := by
  have hDenied : (spentEngine.evaluate PolicyHost.basic 1
      (spendingAction "transfer" 0)).1.allowed = false := by decide +kernel
  refine ⟨hDenied, (denied_consumes_nothing_iff PolicyHost.basic spentEngine 1 _ hDenied).1 ?_⟩
  have hSpend : ∀ meter ∈ whenEnabled spendMeters spentEngine (spendingAction "transfer" 0),
      meter.amount = 0 ∧
        (dropped (cutoffOf 1 meter.windowMs) (spentEngine.spendEvents meter.key)).length = 0 := by
    decide +kernel
  have hStop : (stoppedAt id 1 spentEngine.spendEvents
      (whenEnabled spendMeters spentEngine (spendingAction "transfer" 0))).isNone = true := by
    decide +kernel
  refine ⟨⟨nofun, nofun⟩, ⟨fun meter hMem => ?_, fun meter hMeter => ?_⟩, ⟨nofun, nofun⟩⟩
  · rcases hSpend meter (chargedMeters_subset id hMem) with ⟨hZero, hDropped⟩
    refine ⟨hZero, ?_⟩
    rw [DropsNothing, List.length_eq_zero_iff.mp hDropped]
    exact forall_mem_nil _
  · rw [hMeter] at hStop
    cases hStop

/- The action is denied by name, and its spend is charged. -/
theorem denied_spend_is_charged :
    ((create denyingPolicy).evaluate PolicyHost.basic 0
        transferAction).1.allowed = false ∧
      ¬ SameUsage 0 (create denyingPolicy)
        ((create denyingPolicy).evaluate PolicyHost.basic 0 transferAction).2 := by
  refine ⟨by decide +kernel, ?_⟩
  intro hSame
  have hCounts : ∃ meter ∈ whenEnabled spendMeters (create denyingPolicy)
        transferAction,
      meter.current id 0 ((create denyingPolicy).evaluate PolicyHost.basic 0
          transferAction).2.spendEvents = 10 ∧
        meter.current id 0 (create denyingPolicy).spendEvents = 0 := by decide +kernel
  rcases hCounts with ⟨meter, hMeter, hAfter, hBefore⟩
  have hAlike := hSame.spend 0 le_rfl transferAction meter hMeter
  rw [hAfter, hBefore] at hAlike
  cases hAlike

end PolicyEngine

end AgencCore.Policy
