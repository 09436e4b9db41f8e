import AgencCore.Foundations.Runs
import AgencCore.Policy.BudgetState

/-
  The execution governor of compiled jobs.

  A run of a job needs a lease. The governor limits how many leases are held at once and how many
  are granted in a window, over all jobs and for each type of job. Releasing a lease is a closure
  with a flag of its own; the flags are kept here in the list of the leases, in the order in which
  they were granted.
-/

namespace AgencCore.Task

open Foundations
open Policy

section

structure CompiledJobExecutionRateLimit where
  limit : JsNumber
  windowMs : JsNumber

structure CompiledJobExecutionBudgetControls where
  maxConcurrentRuns : Option JsNumber := none
  maxConcurrentRunsByJobType : Option (Record JsNumber) := none
  executionRateLimit : Option CompiledJobExecutionRateLimit := none
  executionRateLimitByJobType : Option (Record CompiledJobExecutionRateLimit) := none

----------
-- Leases
----------

inductive CompiledJobExecutionDenyReason where
  | executionGlobalConcurrencyLimit
  | executionJobTypeConcurrencyLimit
  | executionGlobalRateLimit
  | executionJobTypeRateLimit
deriving DecidableEq

/- A lease is named by its number. -/
structure CompiledJobExecutionDecision where
  allowed : Bool
  reason : Option CompiledJobExecutionDenyReason := none
  message : Option String := none
  lease : Option Nat := none
deriving DecidableEq

structure GrantedLease where
  jobType : String
  released : Bool

structure GovernorState where
  globalRateState : Option BudgetStateService
  perJobRateState : OrderedMap String BudgetStateService
  activeByJobType : OrderedMap String Int
  activeGlobal : Int
  leases : List GrantedLease

def globalRateBucket : String := "__compiled_job_global__"

variable (host : TextHost)
variable (controls : CompiledJobExecutionBudgetControls)

def createCompiledJobExecutionGovernor : GovernorState :=
  { globalRateState := controls.executionRateLimit.map (fun rateLimit => .create rateLimit.windowMs)
    perJobRateState := OrderedMap.empty, activeByJobType := OrderedMap.empty, activeGlobal := 0
    leases := [] }

def jobTypeRateLimit (jobType : String) : Option CompiledJobExecutionRateLimit :=
  controls.executionRateLimitByJobType.bind (fun limits => limits.get? jobType)

def jobTypeConcurrentLimit (jobType : String) : Option JsNumber :=
  controls.maxConcurrentRunsByJobType.bind (fun limits => limits.get? jobType)

/- The rate state of a type, made when first needed. -/
def getPerJobRateState (state : GovernorState) (jobType : String) :
    Option BudgetStateService × GovernorState :=
  match jobTypeRateLimit controls jobType with
  | none => (none, state)
  | some rateLimit =>
    match state.perJobRateState.get? jobType with
    | some service => (some service, state)
    | none =>
      let service := .create rateLimit.windowMs
      (some service, { state with perJobRateState := state.perJobRateState.set jobType service })

/- A decision that denies. -/
def deny (reason : CompiledJobExecutionDenyReason)
    (message : String) : CompiledJobExecutionDecision :=
  { allowed := false, reason := some reason, message := some message }

def usageText (used limit : JsNumber) : String :=
  host.numberToString used ++ "/" ++ host.numberToString limit

def checkGlobalConcurrency (state : GovernorState) : Option CompiledJobExecutionDecision :=
  controls.maxConcurrentRuns.bind (fun limit =>
    if limit.le (.ofInt state.activeGlobal) then
      some (deny .executionGlobalConcurrencyLimit
        ("Compiled marketplace job concurrency limit " ++ "reached (" ++
          usageText host (.ofInt state.activeGlobal) limit ++ " active)"))
    else none)

def checkJobTypeConcurrency (state : GovernorState) (jobType : String) :
    Option CompiledJobExecutionDecision :=
  (jobTypeConcurrentLimit controls jobType).bind
    (fun limit =>
      let active := JsNumber.ofInt (state.activeByJobType.amount jobType)
      if limit.le active then
        some (deny .executionJobTypeConcurrencyLimit
          ("Compiled job type \"" ++ jobType ++ "\" concurrency limit reached (" ++
            usageText host active limit ++ " active)"))
      else none)

/- A rate limit against the rate of a service. -/
def checkRate (reason : CompiledJobExecutionDenyReason) (subject : String)
    (rateLimit : Option CompiledJobExecutionRateLimit) (service : Option BudgetStateService)
    (bucket : String) (nowMs : ℚ) : Option CompiledJobExecutionDecision :=
  match rateLimit, service with
  | some rateLimit, some service =>
    let rate := service.toolCallRate bucket nowMs
    if rateLimit.limit.le rate then
      some (deny reason
        (subject ++ " rate limit exceeded (" ++ usageText host rate rateLimit.limit ++ " per " ++
          host.numberToString rateLimit.windowMs ++ "ms)"))
    else none
  | _, _ => none

def checkGlobalRate (state : GovernorState) (nowMs : ℚ) : Option CompiledJobExecutionDecision :=
  checkRate host .executionGlobalRateLimit "Compiled marketplace job" controls.executionRateLimit
    state.globalRateState globalRateBucket nowMs

def checkJobTypeRate (service : Option BudgetStateService) (jobType : String)
    (nowMs : ℚ) : Option CompiledJobExecutionDecision :=
  checkRate host .executionJobTypeRateLimit ("Compiled job type \"" ++ jobType ++ "\"")
    (jobTypeRateLimit controls jobType) service jobType nowMs

/- A granted lease is recorded and counted. -/
def grant (state : GovernorState) (service : Option BudgetStateService) (jobType : String)
    (nowMs : ℚ) : GovernorState :=
  { globalRateState := state.globalRateState.map
      (fun service => service.recordToolCall globalRateBucket nowMs)
    perJobRateState :=
      match service with
      | none => state.perJobRateState
      | some service => state.perJobRateState.set jobType (service.recordToolCall jobType nowMs)
    activeByJobType := state.activeByJobType.set jobType (state.activeByJobType.amount jobType + 1)
    activeGlobal := state.activeGlobal + 1, leases := state.leases ++ [⟨jobType, false⟩] }

def acquire (state : GovernorState) (nowMs : ℚ) (jobType : String) :
    CompiledJobExecutionDecision × GovernorState :=
  match checkGlobalConcurrency host controls state with
  | some decision => (decision, state)
  | none =>
  match checkJobTypeConcurrency host controls state jobType with
  | some decision => (decision, state)
  | none =>
  match checkGlobalRate host controls state nowMs with
  | some decision => (decision, state)
  | none => let (service, state) := getPerJobRateState controls state jobType
  match checkJobTypeRate host controls service jobType nowMs with
  | some decision => (decision, state)
  | none =>
    ({ allowed := true, lease := some state.leases.length }, grant state service jobType nowMs)

/- A lease is given back once; further calls do nothing. -/
def release (state : GovernorState) (lease : Nat) : GovernorState :=
  match state.leases[lease]? with
  | none => state
  | some granted => if granted.released then state
      else let current := state.activeByJobType.amount granted.jobType
        { state with
          leases := state.leases.set lease { granted with released := true }
          activeGlobal := max 0 (state.activeGlobal - 1)
          activeByJobType := if current ≤ 1 then state.activeByJobType.delete granted.jobType
            else state.activeByJobType.set granted.jobType (current - 1) }

inductive GovernorCall where
  | acquire (nowMs : ℚ) (jobType : String)
  | release (lease : Nat)

/- A call, with the decision of an `acquire`. -/
def governorStep (state : GovernorState) :
    GovernorCall → Option CompiledJobExecutionDecision × GovernorState
| .acquire nowMs jobType =>
  let (decision, state) := acquire host controls state nowMs jobType
  (some decision, state)
| .release lease => (none, release state lease)

end

end AgencCore.Task
