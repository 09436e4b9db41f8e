import AgencCore.Task.ExecutionGovernor

/-
  The accounts of the execution governor.

  The counters of the governor agree with the leases that are held, and the samples of its services
  with the leases that were granted, as far as a window to come can count them. Limits that are
  whole numbers are therefore kept. A denied call can leave an empty rate state behind, which no
  later call notices.
-/

namespace AgencCore.Task

open Foundations List OrderedMap
open Policy

----------
-- One Call
----------

section

variable (host : TextHost)
variable (controls : CompiledJobExecutionBudgetControls)

/- The rate state of a type, whether or not it was made. -/
def jobService (state : GovernorState) (jobType : String) : Option BudgetStateService :=
  (jobTypeRateLimit controls jobType).map (fun rateLimit =>
    (state.perJobRateState.get? jobType).getD (.create rateLimit.windowMs))

/- States that differ in rate states not yet made, at most. -/
structure Alike (state state' : GovernorState) : Prop where
  globalRateState : state.globalRateState = state'.globalRateState
  services : ∀ jobType, jobService controls state jobType = jobService controls state' jobType
  activeByJobType : state.activeByJobType = state'.activeByJobType
  activeGlobal : state.activeGlobal = state'.activeGlobal
  leases : state.leases = state'.leases

/- The first check that denies. -/
def denial (state : GovernorState) (nowMs : ℚ) (jobType : String) :
    Option CompiledJobExecutionDecision :=
  (checkGlobalConcurrency host controls state).or
    ((checkJobTypeConcurrency host controls state jobType).or
      ((checkGlobalRate host controls state nowMs).or
        (checkJobTypeRate host controls (jobService controls state jobType) jobType nowMs)))

def decided (state : GovernorState) (nowMs : ℚ) (jobType : String) : GovernorState :=
  match denial host controls state nowMs jobType with
  | some _ => state
  | none => grant state (jobService controls state jobType) jobType nowMs

variable {controls}
variable (state : GovernorState)

theorem Alike.refl : Alike controls state state :=
  ⟨rfl, fun _ => rfl, rfl, rfl, rfl⟩

theorem Alike.symm {state state' : GovernorState} (hAlike : Alike controls state state') :
    Alike controls state' state :=
  ⟨hAlike.globalRateState.symm, fun jobType => (hAlike.services jobType).symm,
    hAlike.activeByJobType.symm, hAlike.activeGlobal.symm, hAlike.leases.symm⟩

theorem Alike.trans {state state' state'' : GovernorState} (hAlike : Alike controls state state')
    (hAlike' : Alike controls state' state'') : Alike controls state state'' :=
  ⟨hAlike.globalRateState.trans hAlike'.globalRateState,
    fun jobType => (hAlike.services jobType).trans (hAlike'.services jobType),
    hAlike.activeByJobType.trans hAlike'.activeByJobType,
    hAlike.activeGlobal.trans hAlike'.activeGlobal, hAlike.leases.trans hAlike'.leases⟩

variable (controls) in
theorem getPerJobRateState_fst (jobType : String) :
    (getPerJobRateState controls state jobType).1 = jobService controls state jobType := by
  unfold getPerJobRateState jobService
  cases jobTypeRateLimit controls jobType with
  | none => rfl
  | some rateLimit => cases hGet : state.perJobRateState.get? jobType <;> simp

variable (controls) in
/- Making a rate state is not noticed. -/
theorem getPerJobRateState_alike (jobType : String) :
    Alike controls state (getPerJobRateState controls state jobType).2 := by
  unfold getPerJobRateState
  cases hLimit : jobTypeRateLimit controls jobType with
  | none => exact Alike.refl state
  | some rateLimit => cases hGet : state.perJobRateState.get? jobType with
      | some service => exact Alike.refl state
      | none =>
        refine ⟨rfl, ?_, rfl, rfl, rfl⟩
        intro other
        unfold jobService
        simp only [get?_set]
        by_cases hType : jobType = other
        · rw [← hType, hLimit, if_pos rfl, hGet]
          rfl
        · rw [if_neg hType]

theorem jobService_grant (jobType other : String) (nowMs : ℚ) :
    jobService controls (grant state (jobService controls state jobType) jobType nowMs) other =
      if jobType = other then
        (jobService controls state other).map (fun service => service.recordToolCall other nowMs)
      else jobService controls state other := by
  cases hLimit : jobTypeRateLimit controls jobType with
  | none =>
    have hNone : jobService controls state jobType = none := by simp [jobService, hLimit]
    rw [hNone]
    split
    · next hType =>
        rw [← hType, hNone]
        exact hNone
    · rfl
  | some rateLimit =>
    have hSome : jobService controls state jobType =
        some ((state.perJobRateState.get? jobType).getD (.create rateLimit.windowMs)) := by
      simp [jobService, hLimit]
    rw [hSome]
    by_cases hType : jobType = other
    · rw [← hType, if_pos rfl, hSome]
      simp [jobService, hLimit, grant]
    · rw [if_neg hType]
      unfold jobService grant
      simp only [get?_set, if_neg hType]

/- Granting in alike states leaves alike states. -/
theorem Alike.granted {state state' : GovernorState} (hAlike : Alike controls state state')
    (jobType : String) (nowMs : ℚ) :
    Alike controls (grant state (jobService controls state jobType) jobType nowMs)
      (grant state' (jobService controls state' jobType) jobType nowMs) := by
  rcases hAlike with ⟨hGlobal, hJob, hByType, hActive, hLeases⟩
  refine ⟨by simp [grant, hGlobal], fun other => ?_, by simp [grant, hByType],
    by simp [grant, hActive], by simp [grant, hLeases]⟩
  rw [jobService_grant, jobService_grant, hJob other]

variable (controls) in
/- The decision and the state of a call, up to likeness. -/
theorem acquire_spec (nowMs : ℚ) (jobType : String) :
    (acquire host controls state nowMs jobType).1 =
        (denial host controls state nowMs jobType).getD
          { allowed := true, lease := some state.leases.length } ∧
      Alike controls (decided host controls state nowMs jobType)
        (acquire host controls state nowMs jobType).2 := by
  have hMade := getPerJobRateState_alike controls state jobType
  have hFirst := getPerJobRateState_fst controls state jobType
  unfold acquire decided denial
  cases checkGlobalConcurrency host controls state with
  | some decision => exact ⟨rfl, Alike.refl state⟩
  | none => cases checkJobTypeConcurrency host controls state jobType with
  | some decision => exact ⟨rfl, Alike.refl state⟩
  | none => cases checkGlobalRate host controls state nowMs with
  | some decision => exact ⟨rfl, Alike.refl state⟩
  | none =>
  dsimp only [Option.none_or]
  rw [hFirst]
  cases checkJobTypeRate host controls (jobService controls state jobType) jobType nowMs with
  | some decision => exact ⟨rfl, hMade⟩
  | none =>
    refine ⟨?_, ?_⟩
    · rw [hMade.leases]
      rfl
    · have hGrant := hMade.granted jobType nowMs
      rw [← hMade.services jobType] at hGrant
      exact hGrant

end

----------
-- Answers
----------

section

variable (host : TextHost)
variable {controls : CompiledJobExecutionBudgetControls}
variable {state state' : GovernorState}

theorem Alike.denial_eq (hAlike : Alike controls state state')
    (nowMs : ℚ) (jobType : String) :
    denial host controls state nowMs jobType = denial host controls state' nowMs jobType := by
  unfold denial checkGlobalConcurrency checkJobTypeConcurrency checkGlobalRate
  rw [hAlike.activeGlobal, hAlike.activeByJobType, hAlike.globalRateState, hAlike.services jobType]

theorem Alike.decided_alike (hAlike : Alike controls state state')
    (nowMs : ℚ) (jobType : String) :
    Alike controls (decided host controls state nowMs jobType)
      (decided host controls state' nowMs jobType) := by
  unfold decided
  rw [hAlike.denial_eq host nowMs jobType]
  split
  · exact hAlike
  · exact hAlike.granted jobType nowMs

theorem Alike.release_alike (hAlike : Alike controls state state')
    (lease : Nat) : Alike controls (release state lease) (release state' lease) := by
  unfold release
  rw [← hAlike.leases]
  split
  · exact hAlike
  · split
    · exact hAlike
    · exact ⟨hAlike.globalRateState, hAlike.services, by simp [hAlike.activeByJobType],
        by simp [hAlike.activeGlobal], rfl⟩

/- Alike states answer alike and stay alike. -/
theorem Alike.step (hAlike : Alike controls state state')
    (call : GovernorCall) :
    (governorStep host controls state call).1 = (governorStep host controls state' call).1 ∧
      Alike controls (governorStep host controls state call).2
        (governorStep host controls state' call).2 := by
  cases call with
  | release lease => exact ⟨rfl, hAlike.release_alike lease⟩
  | acquire nowMs jobType =>
    rcases acquire_spec host controls state nowMs jobType with ⟨hDecision, hState⟩
    rcases acquire_spec host controls state' nowMs jobType with ⟨hDecision', hState'⟩
    refine ⟨?_, ?_⟩
    · change some (acquire host controls state nowMs
          jobType).1 = some (acquire host controls state' nowMs jobType).1
      rw [hDecision, hDecision', hAlike.leases, hAlike.denial_eq host nowMs jobType]
    · exact (hState.symm.trans (hAlike.decided_alike host nowMs jobType)).trans hState'

variable {jobType : String}

/- Every check that denies says so. -/
theorem allowed_denial {state : GovernorState} {nowMs : ℚ} {decision : CompiledJobExecutionDecision}
    (hDenial : denial host controls state nowMs jobType = some decision) :
    decision.allowed = false := by
  have hRate : ∀ {reason subject rateLimit service bucket},
      checkRate host reason subject rateLimit service bucket
        nowMs = some decision → decision.allowed = false := by
    intro reason subject rateLimit service bucket hCheck
    unfold checkRate at hCheck
    split at hCheck
    · dsimp only at hCheck
      split at hCheck
      · rw [← Option.some.inj hCheck]
        rfl
      · cases hCheck
    · cases hCheck
  have hBound : ∀ {limit : Option JsNumber} {reason active} {message : JsNumber → String},
      (limit.bind (fun limit => if limit.le active = true then some (deny reason (message limit))
        else none)) = some decision → decision.allowed = false := by
    intro limit reason active message hCheck
    rcases Option.bind_eq_some_iff.mp hCheck with ⟨limit, _, hSome⟩
    split at hSome
    · rw [← Option.some.inj hSome]
      rfl
    · cases hSome
  unfold denial at hDenial
  simp only [Option.or_eq_some_iff] at hDenial
  rcases hDenial with hCheck | ⟨_, hCheck | ⟨_, hCheck |
    ⟨_, hCheck⟩⟩⟩
  · exact hBound hCheck
  · exact hBound hCheck
  · exact hRate hCheck
  · exact hRate hCheck

variable (controls) in
theorem acquire_allowed_iff (state : GovernorState) (nowMs : ℚ) (jobType : String) :
    (acquire host controls state nowMs jobType).1.allowed = true ↔
      denial host controls state nowMs jobType = none := by
  rw [(acquire_spec host controls state nowMs jobType).1]
  cases hDenial : denial host controls state nowMs jobType with
  | none => simp
  | some decision => simp [allowed_denial host hDenial]

/- A denied call leaves an alike state. -/
theorem acquire_denied_alike {state : GovernorState} {nowMs : ℚ}
    (hDenied : (acquire host controls state nowMs jobType).1.allowed = false) :
    Alike controls state (acquire host controls state nowMs jobType).2 := by
  have hState := (acquire_spec host controls state nowMs jobType).2
  unfold decided at hState
  cases hDenial : denial host controls state nowMs jobType with
  | none =>
    rw [(acquire_allowed_iff host controls state nowMs jobType).mpr hDenial] at hDenied
    cases hDenied
  | some decision =>
    rw [hDenial] at hState
    exact hState

----------
-- Rates
----------

/- No closed window holds more charges than the limit. -/
def RateLimitKept
    (rateLimit : CompiledJobExecutionRateLimit)
    (history : List (Charge JsNumber)) : Prop :=
  ∀ time, JsNumber.le (.ofInt (history.countP (inClosedWindow rateLimit.windowMs time)))
      rateLimit.limit = true

/- A service counts a history whose windows keep a limit. -/
structure RateKept (rateLimit : CompiledJobExecutionRateLimit) (bucket : String) (now : ℚ)
    (service : BudgetStateService) (history : List (Charge JsNumber)) : Prop where
  window : (service.ensure bucket).windowMs = rateLimit.windowMs
  tracks : Tracks rateLimit.windowMs now (service.ensure bucket).samples history
  ones : ∀ charge ∈ history, charge.amount = 1
  capped : WholeLimit rateLimit.limit → RateLimitKept rateLimit history

variable {rateLimit : CompiledJobExecutionRateLimit}
variable {bucket : String}
variable {now : ℚ}
variable {service : BudgetStateService}
variable {history : List (Charge JsNumber)}

theorem toolCallRate_eq (service : BudgetStateService) (bucket : String) (nowMs : ℚ) :
    service.toolCallRate bucket nowMs = windowTotal (service.ensure bucket) nowMs := by
  unfold BudgetStateService.toolCallRate BudgetStateService.ensure
  cases service.bySession.get? bucket <;> rfl

theorem usage_ones {log : List (Charge JsNumber)} (hOnes : ∀ charge ∈ log, charge.amount = 1)
    (cutoff : JsNumber) : usage id cutoff log = .ofInt (recent cutoff log).length := by
  induction log with
  | nil => rfl
  | cons charge rest ih =>
    have hRest := ih (fun other hMem => hOnes other (mem_cons_of_mem _ hMem))
    have hOne := hOnes charge mem_cons_self
    unfold usage recent at hRest ⊢
    rw [filter_cons]
    split
    · rw [map_cons, sum_cons, hRest, hOne]
      change JsNumber.add (.ofInt 1) (.ofInt _) = _
      rw [JsNumber.add_ofInt, length_cons]
      congr 1
      push_cast
      ring
    · exact hRest

theorem RateKept.create
    (rateLimit : CompiledJobExecutionRateLimit)
    (bucket : String)
    (now : ℚ) :
    RateKept rateLimit bucket now (.create rateLimit.windowMs) [] :=
  ⟨rfl, fun _ _ => rfl, nofun, fun hWhole _ => hWhole.zero_le⟩

variable (hKept : RateKept rateLimit bucket now service history)
include hKept

theorem RateKept.later {later : ℚ}
    (hLater : now ≤ later) : RateKept rateLimit bucket later service history :=
  { hKept with tracks := hKept.tracks.later hLater }

/- The rate is the number of charges in the window. -/
theorem RateKept.rate {time : ℚ}
    (hLater : now ≤ time) :
    service.toolCallRate bucket time =
      .ofInt (recent (cutoffOf time rateLimit.windowMs) history).length := by
  have hSame := hKept.tracks time hLater
  rw [toolCallRate_eq, windowTotal, hKept.window, ← usage_ones hKept.ones]
  unfold usage
  rw [hSame]

/- A charge below the limit keeps it. -/
theorem RateKept.record
    {time : ℚ}
    (hLater : now ≤ time)
    (hFree : rateLimit.limit.le (service.toolCallRate bucket time) = false) :
    RateKept rateLimit bucket time (service.recordToolCall bucket time)
      (history ++ [⟨time, 1⟩]) := by
  have hEnsure : (service.recordToolCall bucket time).ensure bucket =
        recordSample (service.ensure bucket) 1 time := by
    simp [BudgetStateService.ensure, BudgetStateService.recordToolCall]
  refine ⟨?_, ?_, ?_, ?_⟩
  · rw [hEnsure]
    exact hKept.window
  · rw [hEnsure]
    have hRecord := hKept.tracks.record hLater (1 : JsNumber)
    rw [← hKept.window] at hRecord ⊢
    exact hRecord
  · intro charge hMem
    rcases List.mem_append.mp hMem with hOld | hNew
    · exact hKept.ones charge hOld
    · rw [List.mem_singleton.mp hNew]
  · intro hWhole later
    rw [hKept.rate hLater] at hFree
    have hRoom := hWhole.succ_le hFree
    rw [countP_append, countP_singleton]
    split
    · next hIn =>
        have hLe : time ≤ later := by
          unfold inClosedWindow at hIn
          rw [Bool.and_eq_true, decide_eq_true_iff] at hIn
          exact hIn.2
        refine le_limit_of_le ?_ hRoom
        have hMono := count_within_le_recent hLe rateLimit.windowMs history
        push_cast
        omega
    · exact hKept.capped hWhole later

----------
-- Accounts
----------

omit hKept

structure Grant where
  atMs : ℚ
  jobType : String

def Grant.charge (granted : Grant) : Charge JsNumber := ⟨granted.atMs, 1⟩

def chargesOf (history : List Grant) (jobType : String) : List (Charge JsNumber) :=
  (history.filter (fun granted => granted.jobType = jobType)).map Grant.charge

def GrantedLease.held (lease : GrantedLease) : Bool := !lease.released

def GrantedLease.heldFor (jobType : String) (lease : GrantedLease) : Bool :=
  !lease.released && decide (lease.jobType = jobType)

/- The counters of a state agree with its leases. -/
structure Counted
    (controls : CompiledJobExecutionBudgetControls)
    (history : List Grant)
    (state : GovernorState) : Prop where
  granted : state.leases.map GrantedLease.jobType = history.map Grant.jobType
  active : state.activeGlobal = state.leases.countP GrantedLease.held
  activeFor : ∀ jobType,
    state.activeByJobType.amount jobType = state.leases.countP (GrantedLease.heldFor jobType)
  total : state.activeByJobType.total = state.activeGlobal
  concurrent : ∀ limit, controls.maxConcurrentRuns = some limit → WholeLimit limit →
    JsNumber.le (.ofInt state.activeGlobal) limit = true
  concurrentFor : ∀ jobType limit, jobTypeConcurrentLimit controls jobType = some limit →
    WholeLimit limit → JsNumber.le (.ofInt (state.activeByJobType.amount jobType)) limit = true

/- So do its services with the grants so far. -/
structure Accounted
    (controls : CompiledJobExecutionBudgetControls)
    (now : ℚ)
    (history : List Grant)
    (state : GovernorState) : Prop extends Counted controls history state where
  rate : ∀ rateLimit, controls.executionRateLimit = some rateLimit →
    ∃ service, state.globalRateState = some service ∧
      RateKept rateLimit globalRateBucket now service (history.map Grant.charge)
  rateFor : ∀ jobType rateLimit, jobTypeRateLimit controls jobType = some rateLimit →
    ∃ service, jobService controls state jobType = some service ∧
      RateKept rateLimit jobType now service (chargesOf history jobType)

variable {history : List Grant}

theorem Accounted.create (now : ℚ) :
    Accounted controls now [] (createCompiledJobExecutionGovernor controls) where
  granted := rfl
  active := rfl
  activeFor := fun _ => rfl
  total := rfl
  concurrent := fun _ _ hWhole => hWhole.zero_le
  concurrentFor := fun _ _ _ hWhole => hWhole.zero_le
  rate := by
    intro rateLimit hLimit
    refine ⟨.create rateLimit.windowMs, ?_, .create rateLimit _ _⟩
    simp [createCompiledJobExecutionGovernor, hLimit]
  rateFor := by
    intro jobType rateLimit hLimit
    refine ⟨.create rateLimit.windowMs, ?_, .create rateLimit _ _⟩
    simp [jobService, hLimit, createCompiledJobExecutionGovernor]

variable (hAccounted : Accounted controls now history state)
include hAccounted

theorem Accounted.congr {state' : GovernorState}
    (hAlike : Alike controls state state') : Accounted controls now history state' := by
  cases state
  cases state'
  rcases hAlike with ⟨rfl, hServices, rfl, rfl, rfl⟩
  exact { hAccounted with rateFor := by simpa only [← hServices] using hAccounted.rateFor }

theorem Accounted.later {later : ℚ}
    (hLater : now ≤ later) : Accounted controls later history state :=
  { hAccounted with
    rate := by
      intro rateLimit hLimit
      rcases hAccounted.rate rateLimit hLimit with ⟨service, hService, hKept⟩
      exact ⟨service, hService, hKept.later hLater⟩
    rateFor := by
      intro jobType rateLimit hLimit
      rcases hAccounted.rateFor jobType rateLimit hLimit with ⟨service, hService, hKept⟩
      exact ⟨service, hService, hKept.later hLater⟩ }

/- What the checks of a granted call have found. -/
structure Admits (controls : CompiledJobExecutionBudgetControls) (state : GovernorState) (nowMs : ℚ)
    (jobType : String) : Prop where
  concurrent : ∀ limit, controls.maxConcurrentRuns = some limit →
    limit.le (.ofInt state.activeGlobal) = false
  concurrentFor : ∀ limit, jobTypeConcurrentLimit controls jobType = some limit →
    limit.le (.ofInt (state.activeByJobType.amount jobType)) = false
  rate : ∀ rateLimit service, controls.executionRateLimit = some rateLimit →
    state.globalRateState = some service →
    rateLimit.limit.le (service.toolCallRate globalRateBucket nowMs) = false
  rateFor : ∀ rateLimit service, jobTypeRateLimit controls jobType = some rateLimit →
    jobService controls state jobType = some service →
    rateLimit.limit.le (service.toolCallRate jobType nowMs) = false

omit hAccounted in
theorem admits_of_denial_none {host : TextHost} {nowMs : ℚ}
    (hDenial : denial host controls state nowMs jobType = none) :
    Admits controls state nowMs jobType := by
  unfold denial at hDenial
  simp only [Option.or_eq_none_iff] at hDenial
  rcases hDenial with ⟨hConcurrent, hConcurrentFor, hRate, hRateFor⟩
  have hBound : ∀ {limits : Option JsNumber} {active limit}
      {decide : JsNumber → CompiledJobExecutionDecision},
      (limits.bind (fun limit => if limit.le active = true then some (decide limit)
        else none)) = none → limits = some limit → limit.le active = false := by
    intro limits active limit decide hNone hLimit
    rw [hLimit, Option.bind_some] at hNone
    by_contra hReached
    rw [if_pos (Bool.not_eq_false _ ▸ hReached)] at hNone
    cases hNone
  have hFree : ∀ {reason subject rateLimits services bucket}
      {rateLimit : CompiledJobExecutionRateLimit} {service : BudgetStateService},
      checkRate host reason subject rateLimits services bucket nowMs = none →
      rateLimits = some rateLimit → services = some service →
      rateLimit.limit.le (service.toolCallRate bucket nowMs) = false := by
    intro reason subject rateLimits services bucket rateLimit service hNone hLimit hService
    rw [hLimit, hService] at hNone
    unfold checkRate at hNone
    dsimp only at hNone
    split at hNone
    · cases hNone
    · next hBelow => exact Bool.not_eq_true _ ▸ hBelow
  exact ⟨fun limit hLimit => hBound hConcurrent hLimit,
    fun limit hLimit => hBound hConcurrentFor hLimit,
    fun rateLimit service hLimit hService => hFree hRate hLimit hService,
    fun rateLimit service hLimit hService => hFree hRateFor hLimit hService⟩

----------
-- Granting And Releasing
----------

omit hAccounted in
theorem countP_held_append (leases : List GrantedLease) (jobType other : String) :
    (leases ++ [(⟨jobType, false⟩ : GrantedLease)]).countP (GrantedLease.heldFor other) =
      leases.countP (GrantedLease.heldFor other) + if jobType = other then 1 else 0 := by
  rw [countP_append, countP_singleton]
  simp [GrantedLease.heldFor]

theorem Accounted.grant
    {time : ℚ}
    (hLater : now ≤ time)
    (hAdmits : Admits controls state time jobType) :
    Accounted controls time (history ++ [⟨time, jobType⟩])
      (Task.grant state (jobService controls state jobType) jobType time) := by
  refine ⟨⟨?_, ?_, ?_, ?_, ?_, ?_⟩, ?_, ?_⟩
  · simp [Task.grant, hAccounted.granted]
  · have hActive := hAccounted.active
    simp only [Task.grant, countP_append, countP_singleton, GrantedLease.held,
      Bool.not_false, if_true]
    push_cast
    rw [hActive]
  · intro other
    have hBefore := hAccounted.activeFor other
    simp only [Task.grant, amount_set, countP_held_append]
    by_cases hType : jobType = other
    · rw [if_pos hType, if_pos hType, hType, hBefore]
      push_cast
      rfl
    · rw [if_neg hType, if_neg hType, hBefore]
      rfl
  · have hTotal := hAccounted.total
    simp only [Task.grant, total_set]
    rw [hTotal]
    ring
  · intro limit hLimit hWhole
    exact hWhole.succ_le (hAdmits.concurrent limit hLimit)
  · intro other limit hLimit hWhole
    simp only [Task.grant, amount_set]
    split
    · next hType =>
        rw [← hType] at hLimit
        exact hWhole.succ_le (hAdmits.concurrentFor limit hLimit)
    · exact hAccounted.concurrentFor other limit hLimit hWhole
  · intro rateLimit hLimit
    rcases hAccounted.rate rateLimit hLimit with ⟨service, hService, hKept⟩
    refine ⟨service.recordToolCall globalRateBucket time, by simp [Task.grant, hService], ?_⟩
    rw [map_append]
    exact hKept.record hLater (hAdmits.rate rateLimit service hLimit hService)
  · intro other rateLimit hLimit
    rcases hAccounted.rateFor other rateLimit hLimit with ⟨service, hService, hKept⟩
    rw [jobService_grant]
    by_cases hType : jobType = other
    · subst hType
      rw [if_pos rfl, hService]
      refine ⟨service.recordToolCall jobType time, rfl, ?_⟩
      have hCharges : chargesOf
          (history ++ [⟨time, jobType⟩]) jobType = chargesOf history jobType ++ [⟨time, 1⟩] := by
        simp [chargesOf, Grant.charge]
      rw [hCharges]
      exact hKept.record hLater (hAdmits.rateFor rateLimit service hLimit hService)
    · rw [if_neg hType]
      refine ⟨service, hService, ?_⟩
      have hCharges : chargesOf (history ++ [⟨time, jobType⟩]) other = chargesOf history other := by
        simp [chargesOf, hType]
      rw [hCharges]
      exact hKept.later hLater

omit hAccounted in
/- Releasing a held lease takes it from the count. -/
theorem countP_release {leases : List GrantedLease} {lease : Nat} {granted : GrantedLease}
    (hGet : leases[lease]? = some granted) (hHeld : granted.released = false) (other : String) :
    (leases.set lease { granted with released := true }).countP (GrantedLease.heldFor other) +
        (if granted.jobType = other then 1 else 0) = leases.countP (GrantedLease.heldFor other) ∧
    (leases.set lease { granted with released := true }).countP GrantedLease.held + 1 =
      leases.countP GrantedLease.held := by
  induction leases generalizing lease with
  | nil => cases hGet
  | cons first rest ih =>
    cases lease with
    | zero =>
      have hFirst : first = granted := by simpa using hGet
      subst hFirst
      simp [countP_cons, GrantedLease.heldFor, GrantedLease.held, hHeld]
    | succ lease =>
      have hRest := ih (by simpa using hGet)
      simp only [set_cons_succ, countP_cons]
      omega

theorem Accounted.release (lease : Nat) :
    Accounted controls now history (Task.release state lease) := by
  unfold Task.release
  split
  · exact hAccounted
  · next granted hGet =>
  split
  · exact hAccounted
  · next hHeld =>
  have hFlag : granted.released = false := Bool.not_eq_true _ ▸ hHeld
  have hActive := hAccounted.active
  have hFor := hAccounted.activeFor
  have hCount := countP_release hGet hFlag
  have hOwn := hFor granted.jobType
  have hOwnCount := (hCount granted.jobType).1
  rw [if_pos rfl] at hOwnCount
  -- the lease is held, so neither counter is at zero
  have hPos : 1 ≤ state.activeByJobType.amount granted.jobType := by omega
  have hGlobal : max 0 (state.activeGlobal - 1) = state.activeGlobal - 1 := by
    have hAll := (hCount granted.jobType).2
    omega
  set after := if state.activeByJobType.amount granted.jobType ≤ 1
    then state.activeByJobType.delete granted.jobType
    else
      state.activeByJobType.set granted.jobType
        (state.activeByJobType.amount granted.jobType - 1) with hAfter
  have hAmount : ∀ other, after.amount other =
      state.activeByJobType.amount other - if granted.jobType = other then 1 else 0 := by
    intro other
    rw [hAfter]
    split
    · rw [amount_delete]
      split
      · next hType =>
          rw [← hType]
          omega
      · omega
    · rw [amount_set]
      split
      · next hType => rw [← hType]
      · omega
  have hTotal : after.total = state.activeGlobal - 1 := by
    have hBefore := hAccounted.total
    rw [hAfter]
    split
    · rw [total_delete]
      omega
    · rw [total_set]
      omega
  refine ⟨⟨?_, ?_, ?_, ?_, ?_, ?_⟩, hAccounted.rate, hAccounted.rateFor⟩
  · rw [← hAccounted.granted]
    exact map_set_of_eq hGet rfl
  · dsimp only
    have hAll := (hCount granted.jobType).2
    rw [hGlobal]
    omega
  · intro other
    have hOther := (hCount other).1
    have hBefore := hFor other
    dsimp only
    rw [hAmount]
    by_cases hType : granted.jobType = other
    · rw [if_pos hType] at hOther ⊢
      omega
    · rw [if_neg hType] at hOther ⊢
      omega
  · dsimp only
    rw [hTotal, hGlobal]
  · intro limit hLimit hWhole
    dsimp only
    rw [hGlobal]
    exact le_limit_of_le (by omega) (hAccounted.concurrent limit hLimit hWhole)
  · intro other limit hLimit hWhole
    dsimp only
    rw [hAmount]
    refine le_limit_of_le ?_ (hAccounted.concurrentFor other limit hLimit hWhole)
    split <;> omega

----------
-- Runs
----------

omit hAccounted

/- The time at which a call reads the clock. -/
def GovernorCall.time : GovernorCall → Option ℚ
| .acquire nowMs _ => some nowMs
| .release _ => none

/- The clock does not go back. -/
def ClockOrdered (calls : List GovernorCall) : Prop :=
  (calls.filterMap GovernorCall.time).Pairwise (fun now later => now ≤ later)

variable (controls : CompiledJobExecutionBudgetControls)

def grantOf (state : GovernorState) : GovernorCall → List Grant
| .acquire nowMs jobType =>
  if (acquire host controls state nowMs jobType).1.allowed then [⟨nowMs, jobType⟩]
  else []
| .release _ => []

/- The leases that a sequence of calls is granted. -/
def grants (state : GovernorState) : List GovernorCall → List Grant
| [] => []
| call :: rest =>
  grantOf host controls state call ++ grants (governorStep host controls state call).2 rest

def governorRun (state : GovernorState) (calls : List GovernorCall) : GovernorState :=
  runSteps (fun state call => (governorStep host controls state call).2) state calls

variable {controls}

theorem Accounted.step {now : ℚ} (hAccounted : Accounted controls now history state)
    {call : GovernorCall}
    (hLater : ∀ time ∈ call.time, now ≤ time) :
    Accounted controls (call.time.getD now) (history ++ grantOf host controls state call)
      (governorStep host controls state call).2 := by
  cases call with
  | release lease =>
    rw [grantOf, append_nil]
    exact hAccounted.release lease
  | acquire nowMs jobType =>
    have hLe : now ≤ nowMs := hLater nowMs rfl
    have hState := (acquire_spec host controls state nowMs jobType).2
    refine Accounted.congr ?_ hState
    unfold grantOf decided
    dsimp only
    cases hDenial : denial host controls state nowMs jobType with
    | none =>
      rw [if_pos ((acquire_allowed_iff host controls state nowMs jobType).mpr hDenial)]
      exact hAccounted.grant hLe (admits_of_denial_none hDenial)
    | some decision =>
      rw [if_neg (fun hAllowed => by
        rw [(acquire_allowed_iff host controls state nowMs jobType).mp hAllowed] at hDenial
        cases hDenial), append_nil]
      exact hAccounted.later hLe

theorem Accounted.run {now : ℚ} (hAccounted : Accounted controls now history state)
    {calls : List GovernorCall}
    (hOrdered : ClockOrdered calls)
    (hLater : ∀ time ∈ calls.filterMap GovernorCall.time, now ≤ time) :
    ∃ later, Accounted controls later (history ++ grants host controls state calls)
      (governorRun host controls state calls) := by
  induction calls generalizing now history state with
  | nil =>
    rw [grants, append_nil]
    exact ⟨now, hAccounted⟩
  | cons call rest ih =>
    rw [grants, ← append_assoc]
    cases call with
    | release lease =>
      exact ih (hAccounted.step host nofun) hOrdered hLater
    | acquire nowMs jobType =>
      rcases List.pairwise_cons.mp hOrdered with ⟨hFirst, hRest⟩
      refine ih (hAccounted.step host (fun time hTime => ?_)) hRest hFirst
      exact Option.some.inj hTime ▸ hLater nowMs mem_cons_self

end

----------
-- Leases Are Accounted For
----------

/-
  The accounts of a state and of the grants so far. Only the bounds ask for a limit that a count can
  meet.
-/
structure LeasesAccounted
    (host : TextHost)
    (controls : CompiledJobExecutionBudgetControls)
    (history : List Grant)
    (state : GovernorState) : Prop extends Counted controls history state where
  rate : ∀ rateLimit, controls.executionRateLimit = some rateLimit →
    WholeLimit rateLimit.limit → RateLimitKept rateLimit (history.map Grant.charge)
  rateFor : ∀ jobType rateLimit, jobTypeRateLimit controls jobType = some rateLimit →
    WholeLimit rateLimit.limit → RateLimitKept rateLimit (chargesOf history jobType)
  denied : ∀ nowMs jobType, (acquire host controls state nowMs jobType).1.allowed = false →
    ∀ calls,
      answers (governorStep host controls) (acquire host controls state nowMs jobType).2 calls =
        answers (governorStep host controls) state calls

/-
  Under every controls record the leases are accounted for after every sequence of calls, and each
  of its limits that is a whole number is kept.
-/
theorem leases_accounted
    (host : TextHost)
    {controls : CompiledJobExecutionBudgetControls}
    {calls : List GovernorCall}
    (hOrdered : ClockOrdered calls) :
    LeasesAccounted host controls
      (grants host controls (createCompiledJobExecutionGovernor controls) calls)
      (governorRun host controls (createCompiledJobExecutionGovernor controls) calls) := by
  rcases (calls.filterMap GovernorCall.time).toFinset.bddBelow with ⟨now, hLater⟩
  rcases (Accounted.create now).run host hOrdered
    (fun time hMem => hLater (List.mem_toFinset.mpr hMem)) with ⟨later, hAccounted⟩
  rw [nil_append] at hAccounted
  refine ⟨hAccounted.toCounted, ?_, ?_, ?_⟩
  · intro rateLimit hLimit
    rcases hAccounted.rate rateLimit hLimit with ⟨_, _, hKept⟩
    exact hKept.capped
  · intro jobType rateLimit hLimit
    rcases hAccounted.rateFor jobType rateLimit hLimit with ⟨_, _, hKept⟩
    exact hKept.capped
  · intro nowMs jobType hDenied calls
    exact answers_eq_of_alike (fun _ _ call hAlike => hAlike.step host call)
      (acquire_denied_alike host hDenied).symm calls

/- Two runs at once, two and a half in a second. -/
def pairedControls : CompiledJobExecutionBudgetControls :=
  { maxConcurrentRuns := some 2
    executionRateLimit := some ⟨.finite (5 / 2), 1000⟩ }

/- Three calls, the last of which is denied, and a lease that is released twice. -/
def pairedCalls : List GovernorCall :=
  [.acquire 0 "a", .acquire 1 "b", .acquire 2 "a", .release 0, .release 0]

/- The limit of two is kept and the lease of `b` is counted, whatever the other limit is. -/
theorem paired_leases_accounted :
    (governorRun TextHost.basic pairedControls (createCompiledJobExecutionGovernor pairedControls)
        (pairedCalls.take 3)).activeGlobal = 2 ∧
      JsNumber.le
        (.ofInt (governorRun TextHost.basic pairedControls
          (createCompiledJobExecutionGovernor pairedControls) (pairedCalls.take 3)).activeGlobal)
        2 = true ∧
      (governorRun TextHost.basic pairedControls (createCompiledJobExecutionGovernor pairedControls)
        pairedCalls).leases.countP GrantedLease.held = 1 := by
  have hOrdered : ClockOrdered pairedCalls ∧ ClockOrdered (pairedCalls.take 3) := by
    unfold ClockOrdered
    decide +kernel
  refine ⟨by decide +kernel, ?_, ?_⟩
  · exact (leases_accounted TextHost.basic hOrdered.2).concurrent 2 rfl (Or.inr ⟨2, rfl⟩)
  · have hActive := (@leases_accounted TextHost.basic pairedControls _ hOrdered.1).active
    have hOne : (governorRun TextHost.basic pairedControls
        (createCompiledJobExecutionGovernor pairedControls) pairedCalls).activeGlobal = 1 := by
      decide +kernel
    exact_mod_cast hActive.symm.trans hOne

/- With a limit of one and a half, two runs are active. -/
theorem fractional_limit_exceeded :
    let controls : CompiledJobExecutionBudgetControls :=
      { maxConcurrentRuns := some (.finite (3 / 2)) }
    ∃ limit, controls.maxConcurrentRuns = some limit ∧
      JsNumber.le
        (.ofInt (governorRun TextHost.basic controls (createCompiledJobExecutionGovernor controls)
          [.acquire 0 "a", .acquire 0 "a"]).activeGlobal) limit = false := by
  exact ⟨.finite (3 / 2), rfl, by decide +kernel⟩

end AgencCore.Task
