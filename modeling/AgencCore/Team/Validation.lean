import AgencCore.Foundations.CycleSearch
import AgencCore.Foundations.Records

/-
  Normalization and validation of team templates.

  `normalizeTeamTemplate` canonicalizes every identifier, fills in defaults and sorts;
  `validateTeamTemplate` checks the result. Their errors carry the source's texts.

  What acceptance guarantees is collected in `AcceptedTemplate`, and `acceptedTemplate_of_ok`
  derives it from the two functions.
-/

namespace AgencCore.Team

open Foundations List Bool

/- The classes of the errors the team module throws. -/
inductive ErrorClass where
  | error
  | teamContractValidationError
  | teamContractStateError
  | teamPayoutError
  | typeError
  | rangeError
deriving DecidableEq

/- A thrown error. -/
structure Failure where
  errorClass : ErrorClass
  message : String
deriving DecidableEq

----------
-- Templates
----------

inductive TeamContractStatus where
  | draft
  | active
  | completed
  | failed
  | cancelled
deriving DecidableEq

inductive TeamCheckpointStatus where
  | pending
  | ready
  | completed
  | failed
  | blocked
deriving DecidableEq

def TeamContractStatus.text : TeamContractStatus → String
| .draft => "draft"
| .active => "active"
| .completed => "completed"
| .failed => "failed"
| .cancelled => "cancelled"

def TeamCheckpointStatus.text : TeamCheckpointStatus → String
| .pending => "pending"
| .ready => "ready"
| .completed => "completed"
| .failed => "failed"
| .blocked => "blocked"

structure TeamRoleTemplate where
  id : String
  requiredCapabilities : Int
  minMembers : Option JsNumber
  maxMembers : Option JsNumber
deriving DecidableEq

structure TeamCheckpointTemplate where
  id : String
  roleId : String
  label : String
  dependsOn : Option (List String)
  required : Option Bool
deriving DecidableEq

/- The mode of a payout configuration with its own table. -/
inductive TeamPayoutMode where
  | fixed (rolePayoutBps : Record JsNumber)
  | weighted (roleWeights : Record JsNumber)
  | milestone (milestonePayoutBps : Record JsNumber)
deriving DecidableEq

structure TeamPayoutConfig where
  mode : TeamPayoutMode
  roleFailurePenaltyBps : Option (Record JsNumber)
  redistributePenalties : Option Bool
deriving DecidableEq

structure TeamTemplate where
  id : String
  name : String
  roles : List TeamRoleTemplate
  checkpoints : List TeamCheckpointTemplate
  payout : TeamPayoutConfig
deriving DecidableEq

/- The dependency list, empty by default. -/
def TeamCheckpointTemplate.deps (checkpoint : TeamCheckpointTemplate) : List String :=
  checkpoint.dependsOn.getD []

/-
  A value of a member's metadata, which the engine keeps, copies and freezes: JSON, by its text, or
  a typed array.
-/
inductive MetadataValue where
  | json (text : String)
  | bytes (value : List UInt8)
deriving DecidableEq

abbrev Metadata := List (String × MetadataValue)

/- `deepFreeze` throws at a typed array that has elements. -/
def Metadata.freezes (metadata : Metadata) : Bool :=
  metadata.all (fun field =>
    match field.2 with
    | .json _ => true
    | .bytes value => value.isEmpty)

structure TeamMemberInput where
  id : String
  capabilities : Int
  roles : Option (List String)
  metadata : Option Metadata := none
deriving DecidableEq

structure TeamMember where
  id : String
  capabilities : Int
  roles : List String
  active : Bool
  joinedAt : JsNumber
  leftAt : Option JsNumber
  metadata : Option Metadata
deriving DecidableEq

structure TeamCheckpointState where
  id : String
  roleId : String
  label : String
  dependsOn : List String
  required : Bool
  status : TeamCheckpointStatus
  completedBy : Option String
  completedAt : Option JsNumber
  outputDigest : Option String
  failedBy : Option String
  failedAt : Option JsNumber
  failureReason : Option String
deriving DecidableEq

/- The name of a payout mode, without its table. -/
inductive TeamPayoutModeName where
  | fixed
  | weighted
  | milestone
deriving DecidableEq

def TeamPayoutMode.modeName : TeamPayoutMode → TeamPayoutModeName
| .fixed _ => .fixed
| .weighted _ => .weighted
| .milestone _ => .milestone

structure TeamPayoutResult where
  mode : TeamPayoutModeName
  totalRewardLamports : Int
  rolePayouts : Record Int
  memberPayouts : Record Int
  rolePenalties : Record Int
  redistributedLamports : Int
  unallocatedLamports : Int
deriving DecidableEq

def MAX_TEAM_ID_LENGTH : Nat := 64

/- The character class `[a-z0-9:_-]`. -/
def isTeamIdChar (c : Char) : Bool :=
  ('a' ≤ c && c ≤ 'z') || ('0' ≤ c && c ≤ '9') || c == ':' || c == '_' || c == '-'

/- `TEAM_ID_PATTERN.test(value)` -/
def TEAM_ID_PATTERN (value : String) : Bool :=
  !value.toList.isEmpty && value.toList.all isTeamIdChar

def canonicalizeTeamId (host : TextHost) (value : String) : String := host.toLowerCase (trim value)

/- The complaint about an identifier, if there is one. -/
def validateTeamId (value : String) : Option String :=
  if jsLength value = 0 then some "must not be empty"
  else if jsLength value > MAX_TEAM_ID_LENGTH then
    some s!"must be <= {MAX_TEAM_ID_LENGTH} characters"
  else if !TEAM_ID_PATTERN value then some "must match [a-z0-9:_-]"
  else none

/-
  Canonicalize an identifier or throw. The two copies in the source differ in the class of the error
  only.
-/
def normalizeIdOrThrow (host : TextHost) (errorClass : ErrorClass)
    (raw label : String) : Except Failure String :=
  let normalized := canonicalizeTeamId host raw
  match validateTeamId normalized with
  | some error => .error ⟨errorClass, s!"{label} {error}"⟩
  | none => .ok normalized

/- Whether every bit of `required` is set in `agentCaps`. -/
def hasCapability (agentCaps required : Int) : Bool := Int.land agentCaps required == required

----------
-- Normalization
----------

section

/- A plain `Error`. -/
def plainError (message : String) : Failure := ⟨.error, message⟩

variable (host : TextHost)

def normalizeRole (normalizedId : String) (role : TeamRoleTemplate) : TeamRoleTemplate :=
  { role with
    id := normalizedId, minMembers := some (role.minMembers.getD 1)
    maxMembers := some (role.maxMembers.getD 1) }

def normalizeRoles (roles : List TeamRoleTemplate) : Except Failure (List TeamRoleTemplate) := do
  let normalized ← mapDistinctM (fun role => normalizeIdOrThrow host .error role.id "role id")
    (fun normalizedId => plainError s!"duplicate role id after normalization: \"{normalizedId}\"")
    (fun normalizedId role => .ok (normalizeRole normalizedId role)) [] roles
  .ok (host.sortOn (·.id) normalized)

/- The loop that rejects a repeated dependency. -/
def checkDistinctDependencies (normalizedId : String) :
    List String → List String → Except Failure Unit
| _, [] => .ok ()
| dedupe, dependency :: rest => do
    throwIf (decide (dependency ∈ dedupe)) (plainError
      s!"duplicate dependency \"{dependency}\" on checkpoint \"{normalizedId}\"")
    checkDistinctDependencies normalizedId (dependency :: dedupe) rest

def normalizeCheckpoint (normalizedId : String) (checkpoint : TeamCheckpointTemplate) :
    Except Failure TeamCheckpointTemplate := do
  let normalizedDependsOn ← checkpoint.deps.mapM
    (fun dep => normalizeIdOrThrow host .error dep
      s!"dependency id for checkpoint \"{normalizedId}\"")
  checkDistinctDependencies normalizedId [] normalizedDependsOn
  let roleId ← normalizeIdOrThrow host .error checkpoint.roleId
    s!"role id for checkpoint \"{normalizedId}\""
  .ok { id := normalizedId, roleId := roleId, label := trim checkpoint.label
        dependsOn := some (host.sort normalizedDependsOn)
        required := some (checkpoint.required.getD true) }

def normalizeCheckpoints (checkpoints : List TeamCheckpointTemplate) :
    Except Failure (List TeamCheckpointTemplate) := do
  let normalized ← mapDistinctM
    (fun checkpoint => normalizeIdOrThrow host .error checkpoint.id "checkpoint id")
    (fun normalizedId => plainError
      s!"duplicate checkpoint id after normalization: \"{normalizedId}\"")
    (normalizeCheckpoint host) [] checkpoints
  .ok (host.sortOn (·.id) normalized)

def normalizeNumericEntry (label key : String) (entry : String × JsNumber) :
    Except Failure (String × JsNumber) := do
  throwIf (!entry.2.isFinite || !entry.2.isInteger || entry.2.lt 0)
    (plainError s!"{label} value for \"{key}\" must be a non-negative integer")
  .ok (key, entry.2)

def normalizeRequiredNumericRecord (source : Record JsNumber) (label : String) :
    Except Failure (Record JsNumber) := do
  let entries ← mapDistinctM (fun entry => normalizeIdOrThrow host .error entry.1 s!"{label} key")
    (fun key => plainError s!"duplicate {label} key after normalization: \"{key}\"")
    (normalizeNumericEntry label) [] source.objectEntries
  .ok (OrderedMap.ofList (host.sortOn (fun entry => entry.1) entries))

def normalizeNumericRecord (source : Option (Record JsNumber)) (label : String) :
    Except Failure (Option (Record JsNumber)) :=
  match source with
  | none => .ok none
  | some record => do
      let normalized ← normalizeRequiredNumericRecord host record label
      .ok (some normalized)

def normalizePayoutMode : TeamPayoutMode → Except Failure TeamPayoutMode
| .fixed rolePayoutBps => do
    let normalized ← normalizeRequiredNumericRecord host rolePayoutBps "fixed payout role bps"
    .ok (.fixed normalized)
| .weighted roleWeights => do
    let normalized ← normalizeRequiredNumericRecord host roleWeights "role weight"
    .ok (.weighted normalized)
| .milestone milestonePayoutBps => do
    let normalized ← normalizeRequiredNumericRecord host milestonePayoutBps "milestone payout bps"
    .ok (.milestone normalized)

def normalizePayoutConfig (config : TeamPayoutConfig) : Except Failure TeamPayoutConfig := do
  let roleFailurePenaltyBps ← normalizeNumericRecord host
    config.roleFailurePenaltyBps "role failure penalty"
  let mode ← normalizePayoutMode host config.mode
  .ok { config with mode := mode, roleFailurePenaltyBps := roleFailurePenaltyBps }

def normalizeTeamTemplate (input : TeamTemplate) : Except Failure TeamTemplate := do
  let id ← normalizeIdOrThrow host .error input.id "template id"
  let name := trim input.name
  throwIf (jsLength name == 0) (plainError "template name must not be empty")
  let roles ← normalizeRoles host input.roles
  let checkpoints ← normalizeCheckpoints host input.checkpoints
  let payout ← normalizePayoutConfig host input.payout
  .ok { id := id, name := name, roles := roles, checkpoints := checkpoints, payout := payout }

end

----------
-- Validation
----------

/- The checks on the member bounds of one role. -/
def validateRoleBounds (role : TeamRoleTemplate) : Except Failure Unit := do
  throwIf (!(role.minMembers.any JsNumber.isInteger) || (role.minMembers.getD 0).lt 0)
    (plainError s!"invalid minMembers for role \"{role.id}\"")
  throwIf (!(role.maxMembers.any JsNumber.isInteger) || (role.maxMembers.getD 0).lt 1)
    (plainError s!"invalid maxMembers for role \"{role.id}\"")
  throwIf ((role.maxMembers.getD 0).lt (role.minMembers.getD 0))
    (plainError s!"minMembers cannot exceed maxMembers for role \"{role.id}\"")

def validateRoles : List String → List TeamRoleTemplate → Except Failure Unit
| _, [] => .ok ()
| roleIds, role :: rest => do
    throwIf (decide (role.id ∈ roleIds)) (plainError s!"duplicate role id: \"{role.id}\"")
    validateRoleBounds role
    validateRoles (role.id :: roleIds) rest

def validateDependencies (requireSingleParent : Bool) (checkpoints : List TeamCheckpointTemplate)
    (checkpointIds : List String) (checkpointId : String) :
    OrderedMap String Nat → List String → Except Failure (OrderedMap String Nat)
| incomingCount, [] => .ok incomingCount
| incomingCount, dependency :: rest => do
    throwIf (decide (dependency = checkpointId)) (plainError
      s!"checkpoint \"{checkpointId}\" cannot depend on itself")
    throwIf (!decide (dependency ∈ checkpointIds) && !checkpoints.any (fun c => c.id == dependency))
      (plainError s!"checkpoint \"{checkpointId}\" depends on unknown checkpoint \"{dependency}\"")
    let count := (incomingCount.get? checkpointId).getD 0 + 1
    throwIf (requireSingleParent && decide (count > 1))
      (plainError s!"checkpoint \"{checkpointId}\" has multiple incoming dependencies")
    validateDependencies requireSingleParent checkpoints checkpointIds checkpointId
      (incomingCount.set checkpointId count) rest

def validateCheckpoints (requireSingleParent : Bool) (roleIds : List String)
    (checkpoints : List TeamCheckpointTemplate) :
    List String → OrderedMap String Nat → List TeamCheckpointTemplate → Except Failure Unit
| _, _, [] => .ok ()
| checkpointIds, incomingCount, checkpoint :: rest => do
    throwIf (decide (checkpoint.id ∈ checkpointIds))
      (plainError s!"duplicate checkpoint id: \"{checkpoint.id}\"")
    throwIf (!decide (checkpoint.roleId ∈ roleIds))
      (plainError
        s!"checkpoint \"{checkpoint.id}\" references unknown role \"{checkpoint.roleId}\"")
    throwIf (requireSingleParent && decide (checkpoint.deps.length > 1))
      (plainError
        s!"checkpoint \"{checkpoint.id}\" has multiple parents; single-parent topology required")
    let counted ← validateDependencies requireSingleParent
      checkpoints (checkpoint.id :: checkpointIds) checkpoint.id incomingCount checkpoint.deps
    throwIf (jsLength checkpoint.label == 0) (plainError
      s!"checkpoint \"{checkpoint.id}\" label must not be empty")
    validateCheckpoints requireSingleParent roleIds
      checkpoints (checkpoint.id :: checkpointIds) counted rest

/- Append a successor to the list of a known node. -/
def pushSuccessor (adjacency : OrderedMap String (List String)) (dependency next : String) :
    OrderedMap String (List String) :=
  match adjacency.get? dependency with
  | none => adjacency
  | some successors => adjacency.set dependency (successors ++ [next])

def dependencyAdjacency (checkpoints : List TeamCheckpointTemplate) :
    OrderedMap String (List String) :=
  checkpoints.foldl
    (fun adjacency checkpoint =>
      checkpoint.deps.foldl (fun acc dependency => pushSuccessor acc dependency checkpoint.id)
        adjacency)
    (checkpoints.foldl (fun acc checkpoint => acc.set checkpoint.id []) OrderedMap.empty)

def validateNoCycles (checkpoints : List TeamCheckpointTemplate) : Except Failure Unit :=
  let adjacency := dependencyAdjacency checkpoints
  match
    CycleSearch.search (fun nodeId => (adjacency.get? nodeId).getD [])
      (checkpoints.map (·.id)) with
  | some (false, _) => .ok ()
  | some (true, _) => .error (plainError "checkpoint dependency graph contains a cycle")
  -- not taken: there is fuel for every node
  | none => .error ⟨.rangeError, "Maximum call stack size exceeded"⟩

/- Every key of a payout record must be a known id. -/
def validateReferences (known : List String) (complaint : String → String)
    (record : Record JsNumber) : Except Failure Unit :=
  forEachM (fun key => throwIf (!decide (key ∈ known)) (plainError (complaint key)))
    record.objectKeys

def validatePayoutReferences (template : TeamTemplate) : Except Failure Unit := do
  let roleIds := template.roles.map (·.id)
  let checkpointIds := template.checkpoints.map (·.id)
  validateReferences roleIds
    (fun roleId => s!"failure penalty references unknown role \"{roleId}\"")
    (template.payout.roleFailurePenaltyBps.getD OrderedMap.empty)
  match template.payout.mode with
  | .fixed rolePayoutBps =>
    validateReferences roleIds
      (fun roleId => s!"fixed payout references unknown role \"{roleId}\"") rolePayoutBps
  | .weighted roleWeights =>
    validateReferences roleIds
      (fun roleId => s!"weighted payout references unknown role \"{roleId}\"") roleWeights
  | .milestone milestonePayoutBps =>
    validateReferences checkpointIds
      (fun checkpointId => s!"milestone payout references unknown checkpoint \"{checkpointId}\"")
      milestonePayoutBps

/- `requireSingleParent` defaults to `true`. -/
def validateTeamTemplate (template : TeamTemplate) (requireSingleParentOption : Option Bool) :
    Except Failure Unit := do
  let requireSingleParent := requireSingleParentOption.getD true
  throwIf template.roles.isEmpty (plainError "template must define at least one role")
  throwIf template.checkpoints.isEmpty (plainError "template must define at least one checkpoint")
  validateRoles [] template.roles
  validateCheckpoints requireSingleParent (template.roles.map (·.id))
    template.checkpoints [] OrderedMap.empty template.checkpoints
  validateNoCycles template.checkpoints
  validatePayoutReferences template

----------
-- What Acceptance Guarantees
----------

/- All values of a record are non-negative integers. -/
def NaturalRecord (record : Record JsNumber) : Prop :=
  ∀ key value, record.get? key = some value → ∃ n : Nat, value = JsNumber.ofInt n

def TeamPayoutMode.table : TeamPayoutMode → Record JsNumber
| .fixed rolePayoutBps => rolePayoutBps
| .weighted roleWeights => roleWeights
| .milestone milestonePayoutBps => milestonePayoutBps

structure AcceptedTemplate (template : TeamTemplate) : Prop where
  roleIds_nodup : (template.roles.map (·.id)).Nodup
  checkpointIds_nodup : (template.checkpoints.map (·.id)).Nodup
  roleId_known : ∀ checkpoint ∈ template.checkpoints, checkpoint.roleId ∈ template.roles.map (·.id)
  deps_known : ∀ checkpoint ∈ template.checkpoints,
      ∀ dependency ∈ checkpoint.deps, dependency ∈ template.checkpoints.map (·.id)
  members_natural : ∀ role ∈ template.roles, ∃ least most : Nat,
      role.minMembers.getD 1 = JsNumber.ofInt least ∧ role.maxMembers.getD 1 = JsNumber.ofInt most
  table_natural : NaturalRecord template.payout.mode.table
  penalties_natural : NaturalRecord (template.payout.roleFailurePenaltyBps.getD OrderedMap.empty)

theorem naturalRecord_empty : NaturalRecord OrderedMap.empty := by
  intro key value hGet
  simp at hGet

variable {label : String}

theorem exists_natural (least : Nat) {value : JsNumber} (hInteger : value.isInteger = true)
    (hLt : value.lt (JsNumber.ofInt least) = false) : ∃ n : Nat, value = JsNumber.ofInt n := by
  rcases JsNumber.eq_ofInt_of_isInteger hInteger with ⟨n, rfl⟩
  rw [JsNumber.lt_ofInt, decide_eq_false_iff_not] at hLt
  exact ⟨n.toNat, by rw [Int.toNat_of_nonneg (by omega)]⟩

theorem nat_of_normalizeNumericEntry {key : String} {entry out : String × JsNumber}
    (hOk : normalizeNumericEntry label key entry = .ok out) :
    ∃ n : Nat, out.2 = JsNumber.ofInt n := by
  simp only [normalizeNumericEntry, bind_eq_ok_iff, throwIf_eq_ok_iff, or_eq_false_iff,
    not_eq_false', Except.ok.injEq] at hOk
  rcases hOk with ⟨_, ⟨⟨_, hInteger⟩, hLt⟩, rfl⟩
  exact exists_natural 0 hInteger hLt

variable {host : TextHost}

theorem naturalRecord_of_normalizeRequired {source record : Record JsNumber}
    (hOk : normalizeRequiredNumericRecord host source label = .ok record) :
    NaturalRecord record := by
  simp only [normalizeRequiredNumericRecord, bind_eq_ok_iff, Except.ok.injEq] at hOk
  rcases hOk with ⟨entries, hEntries, hRecord⟩
  intro key value hGet
  rw [← hRecord] at hGet
  have hMem : (key, value) ∈ host.sortOn (·.1) entries :=
    OrderedMap.mem_of_get?_ofList hGet
  have hIn : (key, value) ∈ entries := by simpa [TextHost.sortOn] using hMem
  rcases mem_of_mapDistinctM hEntries _ hIn with ⟨entry, _, k, _, hBuild⟩
  exact nat_of_normalizeNumericEntry hBuild

theorem naturalRecord_of_normalizePayoutMode {mode normalized : TeamPayoutMode}
    (hOk : normalizePayoutMode host mode = .ok normalized) : NaturalRecord normalized.table := by
  cases mode <;> simp only [normalizePayoutMode, bind_eq_ok_iff, Except.ok.injEq] at hOk <;>
    rcases hOk with ⟨record, hRecord, hMode⟩ <;> rw [← hMode] <;>
    exact naturalRecord_of_normalizeRequired hRecord

theorem naturalRecord_of_normalizeNumericRecord {source normalized : Option (Record JsNumber)}
    (hOk : normalizeNumericRecord host source label = .ok normalized) :
    NaturalRecord (normalized.getD OrderedMap.empty) := by
  cases source with
  | none =>
    simp only [normalizeNumericRecord, Except.ok.injEq] at hOk
    rw [← hOk]
    exact naturalRecord_empty
  | some record =>
    simp only [normalizeNumericRecord, bind_eq_ok_iff, Except.ok.injEq] at hOk
    rcases hOk with ⟨record', hRecord, rfl⟩
    exact naturalRecord_of_normalizeRequired hRecord

variable {roleIds : List String}

/- The role loop rejects every repeated id and every bound that is no natural number. -/
theorem of_validateRoles {roles : List TeamRoleTemplate}
    (hOk : validateRoles roleIds roles = .ok ()) :
    ((roles.map (·.id)).Nodup ∧ ∀ id ∈ roles.map (·.id), id ∉ roleIds) ∧
      ∀ role ∈ roles, ∃ least most : Nat, role.minMembers.getD 1 = JsNumber.ofInt least ∧
          role.maxMembers.getD 1 = JsNumber.ofInt most := by
  induction roles generalizing roleIds with
  | nil => simp
  | cons role rest ih =>
    simp only [validateRoles, validateRoleBounds, bind_eq_ok_iff, throwIf_eq_ok_iff,
      decide_eq_false_iff_not, or_eq_false_iff, not_eq_false', Option.any_eq_true] at hOk
    rcases hOk with ⟨_, hFresh, _,
      ⟨_, ⟨⟨_, hMin, hLeast⟩, hMinLt⟩, _, ⟨⟨_, hMax, hMost⟩, hMaxLt⟩, _⟩, hRest⟩
    rw [hMin] at hMinLt
    rw [hMax] at hMaxLt
    rcases exists_natural 0 hLeast hMinLt with ⟨least, rfl⟩
    rcases exists_natural 1 hMost hMaxLt with ⟨most, rfl⟩
    rcases ih hRest with ⟨hNodup, hRoles⟩
    refine ⟨nodup_cons_unseen.mpr ⟨hFresh, hNodup⟩, List.forall_mem_cons.mpr ⟨?_, hRoles⟩⟩
    exact ⟨least, most, by rw [hMin]; rfl, by rw [hMax]; rfl⟩

variable {requireSingleParent : Bool}
variable {checkpoints : List TeamCheckpointTemplate}
variable {checkpointIds : List String}

/- The dependency loop rejects every unknown id. -/
theorem known_of_validateDependencies
    {checkpointId : String} {incomingCount counted : OrderedMap String Nat}
    {dependencies : List String}
    (hOk :
      validateDependencies requireSingleParent checkpoints checkpointIds checkpointId incomingCount
          dependencies = .ok counted) :
    ∀ dependency ∈ dependencies,
      dependency ∈ checkpointIds ∨ dependency ∈ checkpoints.map (·.id) := by
  induction dependencies generalizing incomingCount with
  | nil => simp
  | cons first rest ih =>
    simp only [validateDependencies, bind_eq_ok_iff, throwIf_eq_ok_iff] at hOk
    rcases hOk with ⟨_, _, _, hKnown, _, _, hRest⟩
    intro dependency hMem
    rcases List.mem_cons.mp hMem with hEq | hIn
    · rw [hEq]
      by_cases hSeen : first ∈ checkpointIds
      · exact Or.inl hSeen
      · right
        simp only [hSeen, decide_false, Bool.not_false, Bool.true_and, Bool.not_eq_false',
          List.any_eq_true, beq_iff_eq] at hKnown
        rcases hKnown with ⟨other, hIn, hId⟩
        exact List.mem_map.mpr ⟨other, hIn, hId⟩
    · exact ih hRest dependency hIn

/- What the checkpoint loop establishes. -/
theorem of_validateCheckpoints
    {all : List TeamCheckpointTemplate}
    {incomingCount : OrderedMap String Nat}
    (hOk : validateCheckpoints requireSingleParent roleIds all
          checkpointIds incomingCount checkpoints = .ok ()) :
    ((checkpoints.map (·.id)).Nodup ∧ ∀ id ∈ checkpoints.map (·.id), id ∉ checkpointIds) ∧
      (∀ c ∈ checkpoints, c.roleId ∈ roleIds) ∧
      ∀ c ∈ checkpoints, ∀ dependency ∈ c.deps,
        dependency ∈ checkpointIds ∨ dependency ∈ checkpoints.map (·.id) ∨
          dependency ∈ all.map (·.id) := by
  induction checkpoints generalizing checkpointIds incomingCount with
  | nil => simp
  | cons checkpoint rest ih =>
    simp only [validateCheckpoints, bind_eq_ok_iff, throwIf_eq_ok_iff, decide_eq_false_iff_not,
      not_eq_false', decide_eq_true_eq] at hOk
    rcases hOk with ⟨_, hFresh, _, hRole, _, _, counted, hDeps, _, _, hRest⟩
    rcases ih hRest with ⟨hNew, hRoles, hKnown⟩
    refine ⟨nodup_cons_unseen.mpr ⟨hFresh, hNew⟩, List.forall_mem_cons.mpr ⟨hRole, hRoles⟩, ?_⟩
    · intro c hMem dependency hDep
      rcases List.mem_cons.mp hMem with hEq | hIn
      · rw [hEq] at hDep
        rcases known_of_validateDependencies hDeps dependency hDep with hSeen | hAll
        · rcases List.mem_cons.mp hSeen with hSelf | hOld
          · exact Or.inr (Or.inl (by simp [hSelf]))
          · exact Or.inl hOld
        · exact Or.inr (Or.inr hAll)
      · rcases hKnown c hIn dependency hDep with hSeen | hTail | hAll
        · rcases List.mem_cons.mp hSeen with hSelf | hOld
          · exact Or.inr (Or.inl (by simp [hSelf]))
          · exact Or.inl hOld
        · exact Or.inr (Or.inl (mem_cons_of_mem _ hTail))
        · exact Or.inr (Or.inr hAll)

/- A template that was normalized and then validated keeps every guarantee. -/
theorem acceptedTemplate_of_ok {input template : TeamTemplate}
    {requireSingleParent : Option Bool}
    (hNormalize : normalizeTeamTemplate host input = .ok template)
    (hValidate : validateTeamTemplate template requireSingleParent = .ok ()) :
    AcceptedTemplate template := by
  simp only [normalizeTeamTemplate, bind_eq_ok_iff,
    normalizePayoutConfig, Except.ok.injEq] at hNormalize
  rcases hNormalize with
    ⟨id, _, _, _, roles, _, checkpoints, _, payout, ⟨penalties, hPenalties, mode, hMode, hPayout⟩,
      hTemplate⟩
  simp only [validateTeamTemplate, bind_eq_ok_iff] at hValidate
  rcases hValidate with ⟨_, _, _, _, _, hRoles, _, hCheckpoints, _⟩
  rcases of_validateCheckpoints hCheckpoints with ⟨⟨hNodup, _⟩, hRole, hKnown⟩
  have hModeEq : template.payout.mode = mode := by rw [← hTemplate, ← hPayout]
  have hPenaltiesEq : template.payout.roleFailurePenaltyBps = penalties := by
    rw [← hTemplate, ← hPayout]
  exact
    { roleIds_nodup := (of_validateRoles hRoles).1.1, checkpointIds_nodup := hNodup
      members_natural := (of_validateRoles hRoles).2
      roleId_known := hRole, deps_known := by
        intro checkpoint hMem dependency hDep
        rcases hKnown checkpoint hMem dependency hDep with hNone | hIn | hIn
        · simp at hNone
        · exact hIn
        · exact hIn, table_natural := by
        rw [hModeEq]
        exact naturalRecord_of_normalizePayoutMode hMode, penalties_natural := by
        rw [hPenaltiesEq]
        exact naturalRecord_of_normalizeNumericRecord hPenalties }

/- A builder and a reviewer with a fixed split. -/
def sampleTemplate : TeamTemplate :=
  { id := "Sample", name := " Sample "
    roles := [⟨"Build", 0, none, none⟩, ⟨"review", 0, none, none⟩]
    checkpoints :=
      [⟨"draft", "build", "Draft", none, none⟩, ⟨"check", "Review", "Check", some ["draft"], none⟩]
    payout :=
      { mode := .fixed (OrderedMap.ofList [("build", 6000), ("Review", 4000)])
        roleFailurePenaltyBps := some (OrderedMap.ofList [("review", 5000)])
        redistributePenalties := none } }

def sampleNormalized : TeamTemplate :=
  { id := "sample", name := "Sample"
    roles := [⟨"build", 0, some 1, some 1⟩, ⟨"review", 0, some 1, some 1⟩]
    checkpoints :=
      [⟨"check", "review", "Check", some ["draft"], some true⟩,
        ⟨"draft", "build", "Draft", some [], some true⟩]
    payout :=
      { mode := .fixed (OrderedMap.ofList [("build", 6000), ("review", 4000)])
        roleFailurePenaltyBps := some (OrderedMap.ofList [("review", 5000)])
        redistributePenalties := none } }

theorem normalize_sampleTemplate :
    normalizeTeamTemplate TextHost.basic sampleTemplate = .ok sampleNormalized := by decide +kernel

theorem validate_sampleNormalized : validateTeamTemplate sampleNormalized none = .ok () := by
  decide +kernel

end AgencCore.Team
