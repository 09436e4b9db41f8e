import AgencCore.Team.Payout

/-
  The team contract engine.

  Every operation is a function from the engine state to a result and the next engine state, and the
  next state is given for operations that throw as well: what was written before the throw stays
  written. `Call` holds the contract that an operation works on, the audit events it has handed to
  the audit store and the number of times it has read the clock; the readings of the clock are an
  argument.

  A call that is made from inside a hook is rejected, which is the flag `inHook`. The audit store
  keeps the events and its errors are swallowed, so the log of the events handed to it is all that
  is kept of it.
-/

namespace AgencCore.Team

open Foundations

section

structure TeamContractRecord where
  id : String
  creatorId : String
  template : TeamTemplate
  status : TeamContractStatus
  members : OrderedMap String TeamMember
  roleAssignments : OrderedMap String (List String)
  checkpoints : OrderedMap String TeamCheckpointState
  startedAt : Option JsNumber
  completedAt : Option JsNumber
  cancelledAt : Option JsNumber
  finalizedPayout : Option TeamPayoutResult
  auditSequence : Nat
deriving DecidableEq

/- The payloads of the audit events, one for each type. -/
inductive TeamAuditPayload where
  | contractCreated (creatorId templateId : String) (roleCount checkpointCount : Nat)
  | memberJoined (memberId : String) (capabilityMask : Int)
  | memberLeft (memberId : String)
  | roleAssigned (memberId roleId : String)
  | runStarted (activeMembers : Nat)
  | checkpointCompleted (checkpointId roleId memberId : String)
  | checkpointFailed (checkpointId roleId memberId reason : String)
  | contractCancelled (reason : String)
  | payoutFinalized (totalRewardLamports unallocatedLamports : Int)
deriving DecidableEq

structure TeamAuditEvent where
  sequence : Nat
  contractId : String
  atMs : JsNumber
  payload : TeamAuditPayload
deriving DecidableEq

/- The effects of an operation so far. -/
structure Call where
  record : TeamContractRecord
  events : List TeamAuditEvent
  reads : Nat

def Call.now (clock : Nat → JsNumber) (call : Call) : JsNumber := clock call.reads

def recordAuditEvent (clock : Nat → JsNumber) (payload : TeamAuditPayload) (call : Call) : Call :=
  { record := { call.record with auditSequence := call.record.auditSequence + 1 }
    events := call.events ++
      [{ sequence := call.record.auditSequence, contractId := call.record.id, atMs := call.now clock
         payload := payload }], reads := call.reads + 1 }

def stateError (message : String) : Failure := ⟨.teamContractStateError, message⟩

def validationError (message : String) : Failure := ⟨.teamContractValidationError, message⟩

/- Errors of the template checks change their class. -/
def wrapValidationError (checked : Except Failure Unit) : Except Failure Unit :=
  match checked with
  | .ok u => .ok u
  | .error e => .error (validationError e.message)

def assertNotInHook (inHook : Bool) : Except Failure Unit :=
  throwIf inHook (stateError "re-entrant engine mutation from hook is not allowed")

def assertStatus (record : TeamContractRecord) (expected : TeamContractStatus)
    (operation : String) : Except Failure Unit :=
  throwIf (decide (record.status ≠ expected)) (stateError
    s!"cannot {operation} while contract is in state \"{record.status.text}\"")

----------
-- Checkpoint Propagation
----------

/- The checkpoint states of a contract. -/
abbrev Checkpoints := OrderedMap String TeamCheckpointState

/- The status of a checkpoint, `undefined` when unknown. -/
def statusOf? (checkpoints : Checkpoints) (id : String) : Option TeamCheckpointStatus :=
  (checkpoints.get? id).map (·.status)

def hasFailedDependency (checkpoints : Checkpoints) (dependsOn : List String) : Bool :=
  dependsOn.any (fun depId =>
    statusOf? checkpoints depId == some .failed || statusOf? checkpoints depId == some .blocked)

def areDependenciesCompleted (checkpoints : Checkpoints) (dependencies : List String) : Bool :=
  dependencies.all (fun depId => statusOf? checkpoints depId == some .completed)

/- The status that a sweep gives a checkpoint. Completed, failed and blocked ones are skipped. -/
def refreshedStatus (checkpoints : Checkpoints) (checkpoint : TeamCheckpointState) :
    TeamCheckpointStatus :=
  if checkpoint.status = .completed ∨ checkpoint.status = .failed ∨
      checkpoint.status = .blocked then checkpoint.status
  else if hasFailedDependency checkpoints checkpoint.dependsOn then .blocked
  else if areDependenciesCompleted checkpoints checkpoint.dependsOn then .ready
  else .pending

/- Visit one checkpoint; the flag records a change. -/
def refreshOne (acc : Checkpoints × Bool) (id : String) : Checkpoints × Bool :=
  match acc.1.get? id with
  | none => acc
  | some checkpoint =>
    let next := refreshedStatus acc.1 checkpoint
    if next = checkpoint.status then acc
    else (acc.1.set id { checkpoint with status := next }, true)

/- One sweep over all checkpoints, in order. -/
def refreshSweep (checkpoints : Checkpoints) : Checkpoints × Bool :=
  checkpoints.keys.foldl refreshOne (checkpoints, false)

/- Sweep until nothing changes. -/
def refreshLoop : Nat → Checkpoints → Checkpoints
| 0, checkpoints => checkpoints
| fuel + 1, checkpoints =>
  let swept := refreshSweep checkpoints
  if swept.2 then refreshLoop fuel swept.1
  else swept.1

/-
  A checkpoint changes at most twice, so two sweeps for each of them and a last one suffice:
  `refreshCheckpointReadiness_stable`.
-/
def refreshCheckpointReadiness (checkpoints : Checkpoints) : Checkpoints :=
  refreshLoop (2 * checkpoints.size + 1) checkpoints

def areAllRequiredCheckpointsCompleted (checkpoints : Checkpoints) : Bool :=
  checkpoints.values.all (fun checkpoint => !checkpoint.required || checkpoint.status == .completed)

def unseenDependents (checkpoints : Checkpoints) (seen : List String)
    (current : String) : List String :=
  (checkpoints.values.filter (fun checkpoint =>
    decide (current ∈ checkpoint.dependsOn) && !decide (checkpoint.id ∈ seen))).map
    (·.id)

/- Block a checkpoint unless it is completed or failed. -/
def blockOpen (checkpoint : TeamCheckpointState) : TeamCheckpointState :=
  if checkpoint.status ≠ .completed ∧ checkpoint.status ≠ .failed then
    { checkpoint with status := .blocked }
  else checkpoint

/-
  The breadth-first walk over the dependents. The inner loop of the source treats every checkpoint
  once, so its effect is taken for all unseen dependents of the current node together.
-/
def blockLoop : Nat → List String → List String → Checkpoints → Checkpoints
| 0, _, _, checkpoints => checkpoints
| _ + 1, [], _, checkpoints => checkpoints
| fuel + 1, current :: queue, seen, checkpoints =>
  let found := unseenDependents checkpoints seen current
  blockLoop fuel (queue ++ found) (seen ++ found)
    (checkpoints.mapValues (fun _ checkpoint => if checkpoint.id ∈ found then blockOpen checkpoint
      else checkpoint))

/- Every checkpoint enters the queue at most once. -/
def blockDependentCheckpoints (failedCheckpointId : String)
    (checkpoints : Checkpoints) : Checkpoints :=
  blockLoop (checkpoints.size + 1) [failedCheckpointId] [failedCheckpointId] checkpoints

----------
-- Members And Roles
----------

variable (host : TextHost)

/- Throw at two equal neighbours. -/
def assertDistinctNeighbours : List String → Except Failure Unit
| [] => .ok ()
| [_] => .ok ()
| a :: b :: rest => do
    throwIf (decide (b = a)) (validationError s!"duplicate value \"{b}\"")
    assertDistinctNeighbours (b :: rest)

def uniqueSorted (values : List String) : Except Failure (List String) := do
  let sorted := host.sort values
  assertDistinctNeighbours sorted
  .ok sorted

/- The identifier, the capabilities and the roles. -/
def normalizeMemberInput (input : TeamMemberInput) :
    Except Failure (String × Int × List String) := do
  let id ← normalizeIdOrThrow host .teamContractValidationError input.id "member id"
  let ids ← (input.roles.getD []).mapM
    (fun roleId => normalizeIdOrThrow host .teamContractValidationError roleId "role id")
  let roles ← uniqueSorted host ids
  throwIf (decide (input.capabilities < 0))
    (validationError "member capabilities must be a non-negative bigint")
  .ok (id, input.capabilities, roles)

def memberNotActive (memberId : String) : Failure :=
  stateError s!"member \"{memberId}\" is not active"

def activeMember (record : TeamContractRecord) (memberId : String) : Except Failure TeamMember :=
  match record.members.get? memberId with
  | none => .error (memberNotActive memberId)
  | some member => if member.active then .ok member
      else .error (memberNotActive memberId)

/-
  The checks of an assignment: the member, the members of the role so far, and whether the member is
  among them.
-/
def checkAssignment (record : TeamContractRecord) (memberId roleId : String) :
    Except Failure (TeamMember × List String) := do
  let member ← activeMember record memberId
  match record.template.roles.find? (fun candidate => candidate.id == roleId) with
  | none => .error (validationError s!"unknown role \"{roleId}\"")
  | some role => do
      throwIf (!hasCapability member.capabilities role.requiredCapabilities)
        (validationError
          s!"member \"{memberId}\" does not satisfy required capabilities for role \"{roleId}\"")
      let assigned := (record.roleAssignments.get? roleId).getD []
      let maxMembers := role.maxMembers.getD 1
      throwIf (!decide (memberId ∈ assigned) && maxMembers.le (JsNumber.ofInt assigned.length))
        (stateError
          s!"role \"{roleId}\" is full ({assigned.length}/{host.numberToString maxMembers})")
      .ok (member, assigned)

/-
  The assignment lists the member before the member lists the role, so a throw of `uniqueSorted`
  comes after the first write.
-/
def assignRoleInternal (clock : Nat → JsNumber) (memberId roleId : String) (emitAudit : Bool)
    (call : Call) : Except Failure Unit × Call :=
  match checkAssignment host call.record memberId roleId with
  | .error e => (.error e, call)
  | .ok (member, assigned) => if memberId ∈ assigned then (.ok (), call)
      else
        let listed : Call :=
          { call with
            record :=
              { call.record with
                roleAssignments :=
                  call.record.roleAssignments.set roleId (host.sort (assigned ++ [memberId])) } }
        match uniqueSorted host (host.sort (member.roles ++ [roleId])) with
        | .error e => (.error e, listed)
        | .ok roles =>
          let assignedCall : Call :=
            { listed with
              record :=
                { listed.record with
                  members := listed.record.members.set memberId { member with roles := roles } } }
          if emitAudit then
            (.ok (), recordAuditEvent clock (.roleAssigned memberId roleId) assignedCall)
          else (.ok (), assignedCall)

/- Assign the requested roles until one assignment throws. -/
def assignRequestedRoles (clock : Nat → JsNumber) (memberId : String) :
    List String → Call → Except Failure Unit × Call
| [], call => (.ok (), call)
| roleId :: rest, call => match assignRoleInternal host clock memberId roleId true call with
    | (.error e, call') => (.error e, call')
    | (.ok _, call') => assignRequestedRoles clock memberId rest call'

def assertMemberCanActOnRole (record : TeamContractRecord)
    (memberId roleId : String) : Except Failure Unit := do
  let _ ← activeMember record memberId
  throwIf (!decide (memberId ∈ (record.roleAssignments.get? roleId).getD []))
    (stateError s!"member \"{memberId}\" is not assigned to role \"{roleId}\"")

structure TeamContractSnapshot where
  id : String
  creatorId : String
  template : TeamTemplate
  status : TeamContractStatus
  members : List TeamMember
  roleAssignments : Record (List String)
  checkpoints : Record TeamCheckpointState
  startedAt : Option JsNumber
  completedAt : Option JsNumber
  cancelledAt : Option JsNumber
  finalizedPayout : Option TeamPayoutResult
deriving DecidableEq

/- Copy a map into a plain object, in key order. -/
def sortedRecord {α : Type} (source : OrderedMap String α) : Record α :=
  (host.sort source.keys).foldl (fun out key =>
      match source.get? key with
      | none => out
      | some value => Record.assign out key value) OrderedMap.empty

def checkpointRecord (record : TeamContractRecord) : Record TeamCheckpointState :=
  sortedRecord host record.checkpoints

def roleAssignmentRecord (record : TeamContractRecord) : Record (List String) :=
  sortedRecord host (record.roleAssignments.mapValues (fun _ members => host.sort members))

def toSnapshot (record : TeamContractRecord) : TeamContractSnapshot :=
  { id := record.id, creatorId := record.creatorId, template := record.template
    status := record.status, members := host.sortOn (·.id) record.members.values
    roleAssignments := roleAssignmentRecord host record, checkpoints := checkpointRecord host record
    startedAt := record.startedAt, completedAt := record.completedAt
    cancelledAt := record.cancelledAt, finalizedPayout := record.finalizedPayout }

/- What an operation returns. -/
inductive EngineResult where
  | snapshot (contract : TeamContractSnapshot)
  | payout (result : TeamPayoutResult)
deriving DecidableEq

/- The metadata of all members can be frozen, also of those that have left. -/
def TeamContractRecord.freezes (record : TeamContractRecord) : Bool :=
  record.members.values.all (fun member => (member.metadata.getD []).freezes)

def freezeError : Failure := ⟨.typeError, "Cannot freeze array buffer views with elements"⟩

/- The snapshot is frozen when everything has been written. -/
def returnSnapshot (call : Call) : Except Failure EngineResult × Call :=
  (if call.record.freezes then .ok (.snapshot (toSnapshot host call.record))
    else .error freezeError, call)

end

----------
-- Operations On A Contract
----------

structure TeamContractEngineConfig where
  host : TextHost
  requireSingleParentTopology : Option Bool

/- Throw without a write, or go on with the checked data. -/
def afterChecks {α : Type} (call : Call) (checks : Except Failure α)
    (body : α → Except Failure EngineResult × Call) : Except Failure EngineResult × Call :=
  match checks with
  | .error e => (.error e, call)
  | .ok a => body a

section Operations

variable (config : TeamContractEngineConfig)
variable (clock : Nat → JsNumber)

/- Identifiers that the engine itself normalizes. -/
def engineId (raw label : String) : Except Failure String :=
  normalizeIdOrThrow config.host .teamContractValidationError raw label

def checkJoin (record : TeamContractRecord) (input : TeamMemberInput) :
    Except Failure (String × Int × List String) := do
  assertStatus record .draft "join members"
  let member ← normalizeMemberInput config.host input
  throwIf (record.members.has member.1) (stateError
    s!"member \"{member.1}\" already exists in contract")
  .ok member

/- Insert a member that has no role yet. -/
def insertMember (memberId : String) (capabilities : Int) (metadata : Option Metadata)
    (call : Call) : Call :=
  recordAuditEvent clock (.memberJoined memberId capabilities)
    { call with
      record :=
        { call.record with
          members := call.record.members.set memberId
            { id := memberId, capabilities := capabilities, roles := [], active := true
              joinedAt := call.now clock, leftAt := none, metadata := metadata } }
      reads := call.reads + 1 }

/- The member is in before its roles are assigned. -/
def joinContract (input : TeamMemberInput) (call : Call) : Except Failure EngineResult × Call :=
  afterChecks call (checkJoin config call.record input)
    (fun member =>
      match
        assignRequestedRoles config.host clock member.1 member.2.2
          (insertMember clock member.1 member.2.1 input.metadata call) with
      | (.error e, call') => (.error e, call')
      | (.ok _, call') => returnSnapshot config.host call')

def dropAssignments (memberId : String) (roles : List String)
    (roleAssignments : OrderedMap String (List String)) : OrderedMap String (List String) :=
  roles.foldl
    (fun acc roleId =>
      acc.set roleId (((acc.get? roleId).getD []).filter (fun assigned => assigned ≠ memberId)))
    roleAssignments

/- Deactivate a member and free its roles. -/
def removeMember (memberId : String) (member : TeamMember) (call : Call) : Call :=
  recordAuditEvent clock (.memberLeft memberId)
    { call with
      record :=
        { call.record with
          roleAssignments := dropAssignments memberId member.roles call.record.roleAssignments
          members := call.record.members.set memberId
            { member with active := false, leftAt := some (call.now clock), roles := [] } }
      reads := call.reads + 1 }

def checkLeave (record : TeamContractRecord) (memberId : String) :
    Except Failure (String × TeamMember) := do
  assertStatus record .draft "leave members"
  let canonicalMemberId ← engineId config memberId "member id"
  let member ← activeMember record canonicalMemberId
  .ok (canonicalMemberId, member)

def leaveContract (memberId : String) (call : Call) : Except Failure EngineResult × Call :=
  afterChecks call (checkLeave config call.record memberId)
    (fun checked => returnSnapshot config.host (removeMember clock checked.1 checked.2 call))

def checkAssignable (record : TeamContractRecord) (memberId roleId : String) :
    Except Failure (String × String) := do
  assertStatus record .draft "assign roles"
  let member ← engineId config memberId "member id"
  let role ← engineId config roleId "role id"
  .ok (member, role)

def assignRole (memberId roleId : String) (call : Call) : Except Failure EngineResult × Call :=
  afterChecks call (checkAssignable config call.record memberId roleId)
    (fun ids => match assignRoleInternal config.host clock ids.1 ids.2 true call with
      | (.error e, call') => (.error e, call')
      | (.ok _, call') => returnSnapshot config.host call')

/- The member bounds of one role at the start of a run. -/
def checkRoleStaffing (record : TeamContractRecord)
    (role : TeamRoleTemplate) : Except Failure Unit := do
  let assignedCount := ((record.roleAssignments.get? role.id).getD []).length
  let minMembers := role.minMembers.getD 1
  let maxMembers := role.maxMembers.getD 1
  throwIf ((JsNumber.ofInt assignedCount).lt minMembers)
    (stateError
      s!"role \"{role.id}\" requires at least {config.host.numberToString minMembers} members (assigned {assignedCount})")
  throwIf (maxMembers.lt (JsNumber.ofInt assignedCount))
    (stateError
      s!"role \"{role.id}\" allows at most {config.host.numberToString maxMembers} members (assigned {assignedCount})")

/- Activate the contract and refresh its checkpoints. -/
def activate (call : Call) : Call :=
  recordAuditEvent clock
    (.runStarted (call.record.members.values.filter (·.active)).length)
    { call with
      record :=
        { call.record with
          status := .active, startedAt := some (call.now clock)
          checkpoints := refreshCheckpointReadiness call.record.checkpoints }
      reads := call.reads + 1 }

def checkStart (record : TeamContractRecord) : Except Failure Unit := do
  assertStatus record .draft "start run"
  forEachM (checkRoleStaffing config record) record.template.roles
  wrapValidationError
    (validateTeamTemplate record.template (some (config.requireSingleParentTopology.getD true)))

def startRun (call : Call) : Except Failure EngineResult × Call :=
  afterChecks call (checkStart config call.record)
    (fun _ => returnSnapshot config.host (activate clock call))

def cancelContract (reason : Option String) (call : Call) : Except Failure EngineResult × Call :=
  if call.record.status = .cancelled then returnSnapshot config.host call
  else
    afterChecks call
      (throwIf (decide (call.record.status = .completed ∨ call.record.status = .failed))
        (stateError s!"cannot cancel contract in terminal state \"{call.record.status.text}\""))
      (fun _ =>
        returnSnapshot config.host
          (recordAuditEvent clock (.contractCancelled (reason.getD "cancelled"))
            { call with
              record :=
                { call.record with
                  status := .cancelled, cancelledAt := some (call.now clock)
                  completedAt := some (call.now clock) }, reads := call.reads + 1 }))

def checkpointNotFound (checkpointId : String) : Failure :=
  stateError s!"checkpoint \"{checkpointId}\" not found"

def checkCompletion (record : TeamContractRecord) (checkpointId memberId : String)
    (checkpoint : TeamCheckpointState) : Except Failure Unit := do
  throwIf (decide (checkpoint.status = .failed ∨ checkpoint.status = .blocked))
    (stateError
      s!"checkpoint \"{checkpointId}\" cannot be completed from status \"{checkpoint.status.text}\"")
  assertMemberCanActOnRole record memberId checkpoint.roleId
  throwIf (!areDependenciesCompleted record.checkpoints checkpoint.dependsOn)
    (stateError s!"checkpoint \"{checkpointId}\" dependencies are not fully completed")

def findCheckpoint (record : TeamContractRecord) (checkpointId : String) :
    Except Failure TeamCheckpointState :=
  match record.checkpoints.get? checkpointId with
  | none => .error (checkpointNotFound checkpointId)
  | some checkpoint => .ok checkpoint

def locateCompletion (record : TeamContractRecord) (checkpointId memberId : String) :
    Except Failure (String × String × TeamCheckpointState) := do
  assertStatus record .active "complete checkpoints"
  let id ← engineId config checkpointId "checkpoint id"
  let member ← engineId config memberId "member id"
  let checkpoint ← findCheckpoint record id
  .ok (id, member, checkpoint)

def markCompleted (member : String) (completedAt : JsNumber) (outputDigest : Option String)
    (checkpoint : TeamCheckpointState) : TeamCheckpointState :=
  { checkpoint with
    status := .completed, completedBy := some member, completedAt := some completedAt
    outputDigest := (outputDigest.map trim).filter (fun digest => digest ≠ "") }

/- Complete a checkpoint and refresh the others. -/
def recordCompletion (id member : String) (outputDigest : Option String)
    (checkpoint : TeamCheckpointState) (call : Call) : Call :=
  recordAuditEvent clock (.checkpointCompleted id checkpoint.roleId member)
    { call with
      record :=
        { call.record with
          checkpoints := refreshCheckpointReadiness
            (call.record.checkpoints.set id
              (markCompleted member (call.now clock) outputDigest checkpoint)) }
      reads := call.reads + 1 }

/- Set the status to completed, at the next reading. -/
def completeRun (call : Call) : Call :=
  { call with
    record := { call.record with
        status := .completed, completedAt := some (call.now clock) }, reads := call.reads + 1 }

def completeCheckpoint (checkpointId memberId : String) (outputDigest : Option String)
    (call : Call) : Except Failure EngineResult × Call :=
  afterChecks call (locateCompletion config call.record checkpointId memberId)
    (fun found => if found.2.2.status = .completed then returnSnapshot config.host call
      else
        afterChecks call (checkCompletion call.record found.1 found.2.1 found.2.2)
          (fun _ =>
            let recorded := recordCompletion clock found.1 found.2.1 outputDigest found.2.2 call
            if areAllRequiredCheckpointsCompleted recorded.record.checkpoints then
              returnSnapshot config.host (completeRun clock recorded)
            else returnSnapshot config.host recorded))

def locateFailure (record : TeamContractRecord) (checkpointId memberId reason : String) :
    Except Failure (String × String × TeamCheckpointState) := do
  assertStatus record .active "fail checkpoints"
  let id ← engineId config checkpointId "checkpoint id"
  let member ← engineId config memberId "member id"
  throwIf (isBlank reason) (validationError "failure reason must not be empty")
  let checkpoint ← findCheckpoint record id
  .ok (id, member, checkpoint)

def checkFailure (record : TeamContractRecord) (checkpointId memberId : String)
    (checkpoint : TeamCheckpointState) : Except Failure Unit := do
  throwIf (decide (checkpoint.status = .completed))
    (stateError s!"checkpoint \"{checkpointId}\" is already completed")
  assertMemberCanActOnRole record memberId checkpoint.roleId

def markFailed (member : String) (failedAt : JsNumber) (reason : String)
    (checkpoint : TeamCheckpointState) : TeamCheckpointState :=
  { checkpoint with
    status := .failed, failedBy := some member, failedAt := some failedAt
    failureReason := some reason }

/- Fail a checkpoint, block the others and settle. -/
def recordFailure (id member reason : String) (checkpoint : TeamCheckpointState)
    (call : Call) : Call :=
  let failedAt := call.now clock
  let blocked : TeamContractRecord :=
    { call.record with
      checkpoints := blockDependentCheckpoints id
        (call.record.checkpoints.set id (markFailed member failedAt reason checkpoint)) }
  recordAuditEvent clock (.checkpointFailed id checkpoint.roleId member reason)
    { call with
      record :=
        if checkpoint.required then { blocked with status := .failed, completedAt := some failedAt }
        else blocked, reads := call.reads + 1 }

def failCheckpoint (checkpointId memberId reason : String)
    (call : Call) : Except Failure EngineResult × Call :=
  afterChecks call (locateFailure config call.record checkpointId memberId reason)
    (fun found => if found.2.2.status = .failed then returnSnapshot config.host call
      else
        afterChecks call (checkFailure call.record found.1 found.2.1 found.2.2)
          (fun _ =>
            returnSnapshot config.host
              (recordFailure clock found.1 found.2.1 (trim reason) found.2.2 call)))

def contractPayout (totalRewardLamports : Int) (record : TeamContractRecord) :
    Except Failure TeamPayoutResult := do
  throwIf (decide (totalRewardLamports < 0)) (teamPayoutError "total reward must be non-negative")
  computeTeamPayout config.host
    { totalRewardLamports := totalRewardLamports, template := record.template
      checkpoints := checkpointRecord config.host record
      roleAssignments := roleAssignmentRecord config.host record }

/- The checks before a payout is computed. -/
def checkFinalizable (record : TeamContractRecord) : Except Failure Unit := do
  throwIf (decide (record.status = .draft)) (stateError "cannot finalize payout before run start")
  throwIf
    (decide (record.status = .active) && !areAllRequiredCheckpointsCompleted record.checkpoints)
    (stateError "cannot finalize payout while required checkpoints remain incomplete")

def recordPayout (totalRewardLamports : Int) (payout : TeamPayoutResult) (call : Call) : Call :=
  recordAuditEvent clock (.payoutFinalized totalRewardLamports payout.unallocatedLamports)
    { call with record := { call.record with finalizedPayout := some payout } }

/- The status changes before the reward is checked. -/
def finalizePayout (totalRewardLamports : Int) (call : Call) : Except Failure EngineResult × Call :=
  if call.record.status = .cancelled then
    (.error (stateError "cannot finalize payout for cancelled contract"), call)
  else
    match call.record.finalizedPayout with
    | some payout => (.ok (.payout payout), call)
    | none =>
      afterChecks call (checkFinalizable call.record)
        (fun _ => let finished := if call.record.status = .active then completeRun clock call
            else call
          afterChecks finished (contractPayout config totalRewardLamports finished.record)
            (fun payout =>
              (.ok (.payout payout), recordPayout clock totalRewardLamports payout finished)))

end Operations

----------
-- The Engine
----------

structure TeamContractEngine where
  contracts : OrderedMap String TeamContractRecord
  auditLog : List TeamAuditEvent

/- The operations on a contract with their raw arguments. -/
inductive ContractOp where
  | joinContract (member : TeamMemberInput)
  | leaveContract (memberId : String)
  | assignRole (memberId roleId : String)
  | startRun
  | cancelContract (reason : Option String)
  | completeCheckpoint (checkpointId memberId : String) (outputDigest : Option String)
  | failCheckpoint (checkpointId memberId reason : String)
  | finalizePayout (totalRewardLamports : Int)

def ContractOp.run (config : TeamContractEngineConfig) (clock : Nat → JsNumber) :
    ContractOp → Call → Except Failure EngineResult × Call
| .joinContract member => AgencCore.Team.joinContract config clock member
| .leaveContract memberId => AgencCore.Team.leaveContract config clock memberId
| .assignRole memberId roleId => AgencCore.Team.assignRole config clock memberId roleId
| .startRun => AgencCore.Team.startRun config clock
| .cancelContract reason => AgencCore.Team.cancelContract config clock reason
| .completeCheckpoint checkpointId memberId outputDigest =>
  AgencCore.Team.completeCheckpoint config clock checkpointId memberId outputDigest
| .failCheckpoint checkpointId memberId reason =>
  AgencCore.Team.failCheckpoint config clock checkpointId memberId reason
| .finalizePayout totalRewardLamports =>
  AgencCore.Team.finalizePayout config clock totalRewardLamports

inductive EngineOp where
  | createContract (contractId creatorId : String) (template : TeamTemplate)
  | onContract (contractId : String) (op : ContractOp)

/- A call with its clock, possibly from inside a hook. -/
structure EngineCall where
  op : EngineOp
  inHook : Bool
  clock : Nat → JsNumber

namespace TeamContractEngine

def empty : TeamContractEngine := ⟨OrderedMap.empty, []⟩

variable (config : TeamContractEngineConfig)

def getContractRecordOrThrow (engine : TeamContractEngine) (contractId : String) :
    Except Failure (String × TeamContractRecord) := do
  let id ← engineId config contractId "contract id"
  match engine.contracts.get? id with
  | none => .error (stateError s!"contract \"{id}\" not found")
  | some record => .ok (id, record)

/- Run an operation on a contract and keep its effects. -/
def onContract (engine : TeamContractEngine) (inHook : Bool) (contractId : String)
    (body : Call → Except Failure EngineResult × Call) :
    Except Failure EngineResult × TeamContractEngine :=
  match (do
      assertNotInHook inHook
      getContractRecordOrThrow config engine contractId) with
  | .error e => (.error e, engine)
  | .ok (id, record) =>
    let outcome := body ⟨record, [], 0⟩
    (outcome.1,
      { contracts := engine.contracts.set id outcome.2.record
        auditLog := engine.auditLog ++ outcome.2.events })

/- The state of a checkpoint of a new contract. -/
def initialCheckpoint (checkpoint : TeamCheckpointTemplate) : TeamCheckpointState :=
  { id := checkpoint.id, roleId := checkpoint.roleId, label := checkpoint.label
    dependsOn := checkpoint.deps, required := checkpoint.required.getD true
    status :=
      if checkpoint.deps.length = 0 then .ready
      else .pending, completedBy := none, completedAt := none, outputDigest := none
    failedBy := none, failedAt := none, failureReason := none }

def initialRecord (contractId creatorId : String) (template : TeamTemplate) : TeamContractRecord :=
  { id := contractId, creatorId := creatorId, template := template, status := .draft
    members := OrderedMap.empty
    roleAssignments := OrderedMap.ofList (template.roles.map (fun role => (role.id, [])))
    checkpoints := OrderedMap.ofList
      (template.checkpoints.map (fun checkpoint => (checkpoint.id, initialCheckpoint checkpoint)))
    startedAt := none, completedAt := none, cancelledAt := none, finalizedPayout := none
    auditSequence := 1 }

def checkNewContract (engine : TeamContractEngine) (inHook : Bool) (contractId creatorId : String)
    (template : TeamTemplate) : Except Failure (String × String × TeamTemplate) := do
  assertNotInHook inHook
  let id ← engineId config contractId "contract id"
  let creator ← engineId config creatorId "creator id"
  throwIf (engine.contracts.has id) (stateError s!"contract \"{id}\" already exists")
  let normalized ← normalizeTeamTemplate config.host template
  wrapValidationError
    (validateTeamTemplate normalized (some (config.requireSingleParentTopology.getD true)))
  .ok (id, creator, normalized)

def createContract (engine : TeamContractEngine) (inHook : Bool) (clock : Nat → JsNumber)
    (contractId creatorId : String) (template : TeamTemplate) :
    Except Failure EngineResult × TeamContractEngine :=
  match checkNewContract config engine inHook contractId creatorId template with
  | .error e => (.error e, engine)
  | .ok (id, creator, normalized) =>
    let call := recordAuditEvent clock
      (.contractCreated creator normalized.id normalized.roles.length
        normalized.checkpoints.length) ⟨initialRecord id creator normalized, [], 0⟩
    (.ok (.snapshot (toSnapshot config.host call.record)),
      { contracts := engine.contracts.set id call.record
        auditLog := engine.auditLog ++ call.events })

/- One call of the engine: its result and the next state. -/
def apply (engine : TeamContractEngine) (call : EngineCall) :
    Except Failure EngineResult × TeamContractEngine :=
  match call.op with
  | .createContract contractId creatorId template =>
    createContract config engine call.inHook call.clock contractId creatorId template
  | .onContract contractId op =>
    onContract config engine call.inHook contractId (op.run config call.clock)

/- A call, whether it returns or throws, moves the engine. -/
def Step (engine engine' : TeamContractEngine) : Prop :=
  ∃ call, engine' = (apply config engine call).2

/- The states of an engine after any sequence of calls. -/
def Reachable (engine : TeamContractEngine) : Prop :=
  Relation.ReflTransGen (Step config) empty engine

end TeamContractEngine

end AgencCore.Team
