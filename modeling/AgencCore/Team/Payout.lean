import AgencCore.Foundations.Apportionment
import AgencCore.Team.Validation

/-
  Payout computation for team contracts.

  The reward is split over the roles by the payout mode, penalties are taken from the roles that
  failed and given to the others, and every role amount is then split over the members of the role.
  The four stages of `computeTeamPayout` are separate definitions.

  Amounts are integers; their division truncates toward zero.
-/

namespace AgencCore.Team

open Foundations

section

structure TeamPayoutComputationInput where
  totalRewardLamports : Int
  template : TeamTemplate
  checkpoints : Record TeamCheckpointState
  roleAssignments : Record (List String)

def teamPayoutError (message : String) : Failure := ⟨.teamPayoutError, message⟩

/-
  `source[key] ?? 0`. A name inherited from `Object.prototype` reads as an object, which fails every
  numeric check as `NaN` does.
-/
def numberAt (source : Record JsNumber) (key : String) : JsNumber :=
  match source.get? key with
  | some value => value
  | none => if key ∈ objectPrototypeNames then .nan else 0

/-
  Read an amount for arithmetic. What is not an own amount is `undefined` or an inherited object,
  and neither mixes with a bigint.
-/
def bigintAt (source : Record Int) (key : String) : Except Failure Int :=
  match source.get? key with
  | some amount => .ok amount
  | none => .error ⟨.typeError, "Cannot mix BigInt and other types, use explicit conversions"⟩

/- `[...(source[key] ?? [])]` -/
def assignedAt (source : Record (List String)) (key : String) : Except Failure (List String) :=
  match source.get? key with
  | some members => .ok members
  | none =>
    if key ∈ objectPrototypeNames then
      .error ⟨.typeError, "Spread syntax requires ...iterable[Symbol.iterator] to be a function"⟩
    else .ok []

variable (host : TextHost)

/- `BigInt(value)` -/
def toBigInt (value : JsNumber) : Except Failure Int :=
  match value.toBigInt? with
  | some n => .ok n
  | none =>
    .error ⟨.rangeError,
      s!"The number {host.numberToString value} cannot be converted to a BigInt because it is not an integer"⟩

def initializeRoleMap (roleIds : List String) : Record Int :=
  roleIds.foldl (fun out roleId => Record.assign out roleId 0) OrderedMap.empty

def initializeNumericRoleMap (roleIds : List String) (source : Record JsNumber) : Record JsNumber :=
  roleIds.foldl (fun out roleId => Record.assign out roleId (numberAt source roleId))
    OrderedMap.empty

def mergeAmounts (target : Record Int) (delta : OrderedMap String Int) : Record Int :=
  delta.entries.foldl (fun out entry => Record.assign out entry.1 (out.amount entry.1 + entry.2))
    target

def toBigIntMap (source : Record JsNumber) : Except Failure (OrderedMap String Int) := do
  let entries ← source.objectEntries.mapM (fun entry => do
      let n ← toBigInt host entry.2
      .ok (entry.1, n))
  .ok (OrderedMap.ofList entries)

def sumNumbers (values : List JsNumber) : JsNumber := values.foldl JsNumber.add 0

def assertBps (value : JsNumber) (label : String) : Except Failure Unit :=
  throwIf (!value.isInteger || value.lt 0 || (10000 : JsNumber).lt value)
    (teamPayoutError s!"{label} must be an integer between 0 and 10000")

/- Larger remainders first, ties by key. -/
def compareRemainders (a b : String × Int) : Ordering :=
  if a.2 = b.2 then host.localeCompare a.1 b.1
  else if a.2 > b.2 then .lt
  else .gt

/- The loop over the extra slots: one unit for each, until the slots end or a remainder is zero. -/
def giveExtras : Nat → List (String × Int) → OrderedMap String Int → OrderedMap String Int
| 0, _, result => result
| _ + 1, [], result => result
| extraSlots + 1, slot :: rest, result => if slot.2 = 0 then result
    else giveExtras extraSlots rest (result.set slot.1 (result.amount slot.1 + 1))

def allocate (total : Int) (weights : OrderedMap String Int) (denominator : Int) :
    Except Failure (OrderedMap String Int) := do
  let keys := host.sort weights.keys
  forEachM
    (fun key =>
      throwIf (decide (weights.amount key < 0))
        (teamPayoutError s!"allocation weight for \"{key}\" must be non-negative")) keys
  let base := fun key => (total * weights.amount key).tdiv denominator
  let remainder := fun key => (total * weights.amount key).tmod denominator
  let result := OrderedMap.ofList (keys.map (fun key => (key, base key)))
  let allocated := (keys.map base).sum
  let leftover := total - allocated
  throwIf (decide (leftover < 0))
    (teamPayoutError "allocation overflow: allocated amount exceeds total")
  let remainders := sortBy (compareRemainders host) (keys.map (fun key => (key, remainder key)))
  .ok (giveExtras leftover.toNat remainders result)

def allocateByRatio (total : Int) (numerators : OrderedMap String Int) (denominator : Int) :
    Except Failure (OrderedMap String Int) := do
  throwIf (decide (denominator ≤ 0)) (teamPayoutError "allocation denominator must be positive")
  allocate host total numerators denominator

def allocateByWeights (total : Int) (weights : OrderedMap String Int) :
    Except Failure (OrderedMap String Int) := do
  let totalWeight := weights.total
  throwIf (decide (totalWeight ≤ 0))
    (teamPayoutError "allocation requires at least one positive weight")
  allocate host total weights totalWeight

----------
-- The Four Stages
----------

/- Role amounts together with what no role received. -/
structure RoleSplit where
  rolePayouts : Record Int
  unallocatedLamports : Int

def allocateFixed (totalRewardLamports : Int) (roleIds : List String)
    (rolePayoutBps : Record JsNumber) : Except Failure RoleSplit := do
  let bpsByRole := initializeNumericRoleMap roleIds rolePayoutBps
  let sumBps := sumNumbers bpsByRole.objectValues
  throwIf (decide (sumBps ≠ 10000))
    (teamPayoutError
      s!"fixed role payout bps must sum to 10000 (received {host.numberToString sumBps})")
  forEachM (fun entry => assertBps entry.2 s!"fixed payout bps for role \"{entry.1}\"")
    bpsByRole.objectEntries
  let numerators ← toBigIntMap host bpsByRole
  let allocated ← allocateByRatio host totalRewardLamports numerators 10000
  .ok ⟨mergeAmounts (initializeRoleMap roleIds) allocated, 0⟩

def allocateWeighted (totalRewardLamports : Int) (roleIds : List String)
    (roleWeights : Record JsNumber) : Except Failure RoleSplit := do
  let weightsByRole := initializeNumericRoleMap roleIds roleWeights
  let totalWeight := sumNumbers weightsByRole.objectValues
  throwIf (totalWeight.le 0)
    (teamPayoutError "weighted payout requires at least one positive role weight")
  forEachM
    (fun entry =>
      throwIf (!entry.2.isInteger || entry.2.lt 0)
        (teamPayoutError s!"role weight for \"{entry.1}\" must be a non-negative integer"))
    weightsByRole.objectEntries
  let weights ← toBigIntMap host weightsByRole
  let allocated ← allocateByWeights host totalRewardLamports weights
  .ok ⟨mergeAmounts (initializeRoleMap roleIds) allocated, 0⟩

/- The running totals of the milestone loop. -/
structure Realized where
  realizedBps : JsNumber
  realizedRoleBps : Record Int

def realizeCheckpoint (milestoneBps : Record JsNumber) (acc : Realized)
    (checkpoint : TeamCheckpointState) : Except Failure Realized :=
  if checkpoint.status ≠ .completed then .ok acc
  else do
    let bps := numberAt milestoneBps checkpoint.id
    assertBps bps s!"milestone payout bps for checkpoint \"{checkpoint.id}\""
    let n ← toBigInt host bps
    let before ← bigintAt acc.realizedRoleBps checkpoint.roleId
    .ok ⟨acc.realizedBps.add bps, Record.assign acc.realizedRoleBps checkpoint.roleId (before + n)⟩

def allocateMilestone (totalRewardLamports : Int) (roleIds : List String)
    (checkpoints : List TeamCheckpointState) (milestoneBps : Record JsNumber) :
    Except Failure RoleSplit := do
  let realized ← checkpoints.foldlM (realizeCheckpoint host milestoneBps)
    ⟨0, initializeRoleMap roleIds⟩
  throwIf ((10000 : JsNumber).lt realized.realizedBps)
    (teamPayoutError
      s!"milestone payout bps cannot exceed 10000 (received {host.numberToString realized.realizedBps})")
  if realized.realizedBps = 0 then .ok ⟨initializeRoleMap roleIds, totalRewardLamports⟩
  else do
    let n ← toBigInt host realized.realizedBps
    let accountedTotal := (totalRewardLamports * n).tdiv 10000
    let allocated ← allocateByRatio host accountedTotal
      (OrderedMap.ofList realized.realizedRoleBps.objectEntries) n
    .ok ⟨mergeAmounts (initializeRoleMap roleIds) allocated, totalRewardLamports - accountedTotal⟩

def allocateByMode (input : TeamPayoutComputationInput) (roleIds : List String)
    (checkpoints : List TeamCheckpointState) : Except Failure RoleSplit :=
  match input.template.payout.mode with
  | .fixed rolePayoutBps => allocateFixed host input.totalRewardLamports roleIds rolePayoutBps
  | .weighted roleWeights => allocateWeighted host input.totalRewardLamports roleIds roleWeights
  | .milestone milestonePayoutBps =>
    allocateMilestone host input.totalRewardLamports roleIds checkpoints milestonePayoutBps

/- The accumulators of the penalty loop. -/
structure Penalized where
  rolePayouts : Record Int
  rolePenalties : Record Int
  penaltyPool : Int

def penalizeRole (failedRoles : List String) (roleFailurePenaltyBps : Record JsNumber)
    (acc : Penalized) (roleId : String) : Except Failure Penalized := do
  let penaltyBps := numberAt roleFailurePenaltyBps roleId
  assertBps penaltyBps s!"failure penalty bps for role \"{roleId}\""
  if roleId ∉ failedRoles ∨ penaltyBps = 0 then .ok acc
  else do
    let amount ← bigintAt acc.rolePayouts roleId
    let n ← toBigInt host penaltyBps
    let penalty := (amount * n).tdiv 10000
    .ok
      { rolePayouts := Record.assign acc.rolePayouts roleId (amount - penalty)
        rolePenalties := Record.assign acc.rolePenalties roleId penalty
        penaltyPool := acc.penaltyPool + penalty }

def applyPenalties (payout : TeamPayoutConfig) (failedRoles roleIds : List String)
    (rolePayouts : Record Int) : Except Failure Penalized :=
  roleIds.foldlM
    (penalizeRole host failedRoles (payout.roleFailurePenaltyBps.getD OrderedMap.empty))
    ⟨rolePayouts, initializeRoleMap roleIds, 0⟩

/- The accumulators after redistribution. -/
structure Redistributed where
  rolePayouts : Record Int
  unallocatedLamports : Int
  redistributedLamports : Int

/- The roles that share the penalty pool, by their amounts. -/
def eligibleWeightsOf (failedRoles roleIds : List String) (rolePayouts : Record Int) :
    Except Failure (OrderedMap String Int) :=
  roleIds.foldlM (fun weights roleId => if roleId ∈ failedRoles then .ok weights
      else do
        let amount ← bigintAt rolePayouts roleId
        if amount ≤ 0 then .ok weights
        else .ok (weights.set roleId amount)) OrderedMap.empty

def redistributePool (payout : TeamPayoutConfig) (failedRoles roleIds : List String)
    (penalized : Penalized) (unallocatedLamports : Int) : Except Failure Redistributed :=
  if penalized.penaltyPool ≤ 0 then .ok ⟨penalized.rolePayouts, unallocatedLamports, 0⟩
  else if payout.redistributePenalties = some false then
    .ok ⟨penalized.rolePayouts, unallocatedLamports + penalized.penaltyPool, 0⟩
  else do
    let eligibleWeights ← eligibleWeightsOf failedRoles roleIds penalized.rolePayouts
    if eligibleWeights.size = 0 then
      .ok ⟨penalized.rolePayouts, unallocatedLamports + penalized.penaltyPool, 0⟩
    else do
      let redistributed ← allocateByWeights host penalized.penaltyPool eligibleWeights
      .ok ⟨mergeAmounts penalized.rolePayouts redistributed,
        unallocatedLamports, redistributed.total⟩

/- Whether a checkpoint counts for a member of a role. -/
def contributor? (roleId : String) (checkpoint : TeamCheckpointState) : Option String :=
  if checkpoint.roleId ≠ roleId then none
  else if checkpoint.status ≠ .completed then none
  else checkpoint.completedBy.filter (fun id => id ≠ "")

/- Completed checkpoints of the role, counted by member. -/
def contributionWeightsOf (roleId : String) (members : List String)
    (checkpoints : List TeamCheckpointState) : OrderedMap String Int :=
  checkpoints.foldl (fun weights checkpoint =>
      match contributor? roleId checkpoint with
      | none => weights
      | some memberId =>
        if weights.has memberId then weights.set memberId (weights.amount memberId + 1)
        else weights)
    (members.foldl (fun weights memberId => weights.set memberId 0) OrderedMap.empty)

/- Contributors by count, or everybody when there is none. -/
def effectiveWeightsOf (roleId : String) (members : List String)
    (checkpoints : List TeamCheckpointState) : OrderedMap String Int :=
  let contributionWeights := contributionWeightsOf roleId members checkpoints
  if contributionWeights.total > 0 then
    members.foldl
      (fun weights memberId =>
        if contributionWeights.amount memberId > 0 then
          weights.set memberId (contributionWeights.amount memberId)
        else weights) OrderedMap.empty
  else members.foldl (fun weights memberId => weights.set memberId 1) OrderedMap.empty

/- The accumulators of the member loop. -/
structure MemberSplit where
  memberPayouts : Record Int
  unallocatedLamports : Int

/-
  Pay one role. A role called `__proto__` has no own amount; the source then splits an object or
  appends it to the unallocated lamports, so no payout is computed.
-/
def payRole (checkpoints : List TeamCheckpointState) (roleAssignments : Record (List String))
    (rolePayouts : Record Int) (acc : MemberSplit)
    (roleId : String) : Except Failure MemberSplit := do
  let roleAmount ← bigintAt rolePayouts roleId
  if roleAmount = 0 then .ok acc
  else do
    let assigned ← assignedAt roleAssignments roleId
    let members := host.sort assigned
    if members.length = 0 then
      .ok { acc with unallocatedLamports := acc.unallocatedLamports + roleAmount }
    else do
      let memberAllocations ← allocateByWeights host roleAmount
        (effectiveWeightsOf roleId members checkpoints)
      .ok { acc with memberPayouts := mergeAmounts acc.memberPayouts memberAllocations }

def payMembers (roleIds : List String) (checkpoints : List TeamCheckpointState)
    (roleAssignments : Record (List String)) (redistributed : Redistributed) :
    Except Failure MemberSplit :=
  roleIds.foldlM (payRole host checkpoints roleAssignments redistributed.rolePayouts)
    ⟨OrderedMap.empty, redistributed.unallocatedLamports⟩

def failedRolesOf (checkpoints : List TeamCheckpointState) : List String :=
  (checkpoints.filter (fun checkpoint => checkpoint.status = .failed)).map
    (·.roleId)

def computeTeamPayout (input : TeamPayoutComputationInput) : Except Failure TeamPayoutResult := do
  throwIf (decide (input.totalRewardLamports < 0))
    (teamPayoutError "total reward must be non-negative")
  let roleIds := host.sort (input.template.roles.map (·.id))
  let checkpoints := input.checkpoints.objectValues
  let failedRoles := failedRolesOf checkpoints
  let split ← allocateByMode host input roleIds checkpoints
  let penalized ← applyPenalties host input.template.payout failedRoles roleIds split.rolePayouts
  let redistributed ← redistributePool host input.template.payout failedRoles roleIds penalized
    split.unallocatedLamports
  let paid ← payMembers host roleIds checkpoints input.roleAssignments redistributed
  .ok
    { mode := input.template.payout.mode.modeName, totalRewardLamports := input.totalRewardLamports
      rolePayouts := redistributed.rolePayouts, memberPayouts := paid.memberPayouts
      rolePenalties := penalized.rolePenalties
      redistributedLamports := redistributed.redistributedLamports
      unallocatedLamports := paid.unallocatedLamports }

end

end AgencCore.Team
