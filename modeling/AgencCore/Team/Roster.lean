import AgencCore.Team.Readiness

/-
  Members and role assignments over whole runs.

  `Roster` says how the members of a contract and the lists of its roles fit together. Every
  operation keeps it, whether it returns or throws. Under it the second write of an assignment never
  throws, so an assignment that throws has written nothing.
-/

namespace AgencCore.Team

open Foundations List OrderedMap

/-
  The roles of the template are the ones with a list, every role of a member lists the member, no
  member has a role twice, and only members are listed.
-/
structure Roster (record : TeamContractRecord) : Prop where
  keys : ∀ roleId, roleId ∈ record.roleAssignments.keys ↔
      roleId ∈ record.template.roles.map (·.id)
  listed : ∀ memberId member, record.members.get? memberId = some member →
        ∀ roleId ∈ member.roles, memberId ∈ assignedTo record roleId
  nodup : ∀ memberId member, record.members.get? memberId = some member → member.roles.Nodup
  known : ∀ roleId, ∀ memberId ∈ assignedTo record roleId, memberId ∈ record.members.keys

theorem Roster.of_kept {before after : TeamContractRecord} (hRoster : Roster before)
    (hKept : RosterKept before after) : Roster after := by
  rcases hKept with ⟨⟨_, hTemplate, _⟩, hMembers, hAssignments⟩
  cases before
  cases after
  cases hTemplate
  cases hMembers
  cases hAssignments
  exact { hRoster with }

/- One member is set, the lists show its roles, and say of the other members what they said. -/
theorem Roster.set {before after : TeamContractRecord} (hRoster : Roster before) {memberId : String}
    {member : TeamMember} (hTemplate : after.template = before.template)
    (hMembers : after.members = before.members.set memberId member)
    (hKeys : ∀ roleId, roleId ∈ after.roleAssignments.keys ↔ roleId ∈ before.roleAssignments.keys)
    (hNodup : member.roles.Nodup) (hListed : ∀ roleId ∈ member.roles,
      memberId ∈ assignedTo after roleId)
    (hOthers : ∀ roleId id, id ≠ memberId →
      (id ∈ assignedTo after roleId ↔ id ∈ assignedTo before roleId)) : Roster after := by
  refine ⟨fun roleId => ?_, fun id found hGet => ?_, fun id found hGet => ?_,
    fun roleId id hMem => ?_⟩
  · rw [hKeys, hTemplate, hRoster.keys]
  · rw [hMembers, get?_set] at hGet
    split at hGet
    · next hSame =>
      cases hGet
      exact hSame ▸ hListed
    · next hNe =>
      intro roleId hRole
      exact (hOthers roleId id (Ne.symm hNe)).mpr (hRoster.listed id found hGet roleId hRole)
  · rw [hMembers, get?_set] at hGet
    split at hGet
    · cases hGet
      exact hNodup
    · exact hRoster.nodup id found hGet
  · rw [hMembers, mem_keys_set]
    by_cases hSame : id = memberId
    · exact Or.inl hSame
    · exact Or.inr (hRoster.known roleId id ((hOthers roleId id hSame).mp hMem))

variable {record : TeamContractRecord}

/- A role that does not list a member is new to it. -/
theorem Roster.nodup_roles_append (hRoster : Roster record)
    {memberId roleId : String} {member : TeamMember}
    (hMember : record.members.get? memberId = some member)
    (hNew : memberId ∉ assignedTo record roleId) : (member.roles ++ [roleId]).Nodup := by
  have hFresh : roleId ∉ member.roles :=
    fun hMem => hNew (hRoster.listed memberId member hMember roleId hMem)
  simpa using (hRoster.nodup memberId member hMember).concat hFresh

theorem Roster.exists_assigned (hRoster : Roster record)
    {role : TeamRoleTemplate} (hMem : role ∈ record.template.roles) :
    ∃ assigned, record.roleAssignments.get? role.id = some assigned := by
  have hKey := (hRoster.keys role.id).mpr (List.mem_map_of_mem hMem)
  rw [mem_keys_iff] at hKey
  exact Option.isSome_iff_exists.mp hKey

----------
-- Assignments
----------

section Assignments

variable (host : TextHost)
variable {values : List String}

theorem assertDistinctNeighbours_of_nodup (hNodup : values.Nodup) :
    assertDistinctNeighbours values = .ok () := by
  induction values with
  | nil => rfl
  | cons a rest ih => cases rest with
      | nil => rfl
      | cons b more =>
        rw [nodup_cons] at hNodup
        have hNe : b ≠ a := by
          rintro rfl
          exact hNodup.1 mem_cons_self
        simp only [assertDistinctNeighbours, bind_eq_ok_iff, throwIf_eq_ok_iff,
          decide_eq_false_iff_not]
        exact ⟨(), hNe, ih hNodup.2⟩

theorem uniqueSorted_of_nodup (hNodup : values.Nodup) :
    uniqueSorted host values = .ok (host.sort values) := by
  unfold uniqueSorted
  rw [bind_eq_ok_iff]
  exact ⟨(), assertDistinctNeighbours_of_nodup (nodup_sortBy.mpr hNodup), rfl⟩

variable (record : TeamContractRecord)

theorem activeMember_eq_ok_iff (memberId : String)
    (member : TeamMember) :
    activeMember record memberId = .ok member ↔
      record.members.get? memberId = some member ∧ member.active = true := by
  unfold activeMember
  cases record.members.get? memberId with
  | none => simp
  | some found =>
    simp only
    split
    · rename_i hActive
      constructor
      · intro hEq
        cases hEq
        exact ⟨rfl, hActive⟩
      · rintro ⟨hEq, _⟩
        cases hEq
        rfl
    · rename_i hInactive
      constructor
      · intro hEq
        cases hEq
      · rintro ⟨hEq, hActive⟩
        cases hEq
        exact (hInactive hActive).elim

/- What the checks of an assignment ask and return. -/
theorem checkAssignment_eq_ok_iff (memberId roleId : String)
    (member : TeamMember) (assigned : List String) :
    checkAssignment host record memberId roleId = .ok (member, assigned) ↔
      (record.members.get? memberId = some member ∧ member.active = true) ∧
        assigned = assignedTo record roleId ∧
        ∃ role, record.template.roles.find? (fun candidate => candidate.id == roleId) = some role ∧
          hasCapability member.capabilities role.requiredCapabilities = true ∧
          (memberId ∈ assignedTo record roleId ∨
            (role.maxMembers.getD 1).le (JsNumber.ofInt (assignedTo record roleId).length) =
              false) := by
  simp only [checkAssignment, bind_eq_ok_iff, activeMember_eq_ok_iff]
  cases hFind : record.template.roles.find? (fun candidate => candidate.id == roleId) with
  | none => simp
  | some role =>
    simp only [bind_eq_ok_iff, throwIf_eq_ok_iff, Bool.not_eq_false', Bool.and_eq_false_iff,
      Except.ok.injEq, Prod.mk.injEq, Option.some.injEq, decide_eq_true_eq, exists_eq_left']
    constructor
    · rintro ⟨found, hMember, _, hCapable, _, hRoom, rfl, rfl⟩
      exact ⟨hMember, rfl, hCapable, hRoom⟩
    · rintro ⟨hMember, rfl, hCapable, hRoom⟩
      exact ⟨member, hMember, (), hCapable, (), hRoom, rfl, rfl⟩

/- A role that passes the checks is one of the template. -/
theorem mem_roles_of_find? {roles : List TeamRoleTemplate} {roleId : String}
    {role : TeamRoleTemplate}
    (hFind : roles.find? (fun candidate => candidate.id == roleId) = some role) :
    roleId ∈ roles.map (·.id) := by
  have hId := find?_some hFind
  rw [beq_iff_eq] at hId
  rw [← hId]
  exact List.mem_map_of_mem (mem_of_find?_eq_some hFind)

def assignedRecord (host : TextHost) (memberId roleId : String) (member : TeamMember)
    (record : TeamContractRecord) : TeamContractRecord :=
  { record with
    roleAssignments :=
      record.roleAssignments.set roleId (host.sort (assignedTo record roleId ++ [memberId]))
    members :=
      record.members.set memberId
        { member with roles := host.sort (host.sort (member.roles ++ [roleId])) } }

theorem mem_assignedTo_assignedRecord (memberId roleId : String)
    (member : TeamMember) (other : String) (id : String) :
    id ∈ assignedTo (assignedRecord host memberId roleId member record) other ↔
      id ∈ assignedTo record other ∨ (other = roleId ∧ id = memberId) := by
  unfold assignedTo assignedRecord
  simp only
  rw [get?_set]
  by_cases hEq : roleId = other
  · rw [if_pos hEq, Option.getD_some, TextHost.sort,
      mem_sortBy, mem_append, mem_singleton]
    subst hEq
    simp
  · rw [if_neg hEq]
    constructor
    · exact Or.inl
    · rintro (hOld | ⟨hOther, _⟩)
      · exact hOld
      · exact (hEq hOther.symm).elim

theorem roster_assignedRecord {record : TeamContractRecord} (hRoster : Roster record)
    {memberId roleId : String} {member : TeamMember}
    (hMember : record.members.get? memberId = some member)
    (hRole : roleId ∈ record.template.roles.map (·.id))
    (hNew : memberId ∉ assignedTo record roleId) :
    Roster (assignedRecord host memberId roleId member record) := by
  have hAssigned := mem_assignedTo_assignedRecord host record memberId roleId member
  refine hRoster.set rfl rfl (fun other => ?_)
    (nodup_sortBy.mpr (nodup_sortBy.mpr (hRoster.nodup_roles_append hMember hNew)))
    (fun other hOther => ?_) (fun other id hNe => ?_)
  · unfold assignedRecord
    rw [mem_keys_set]
    exact or_iff_right_of_imp (fun hEq => hEq ▸ (hRoster.keys roleId).mpr hRole)
  · simp only [TextHost.sort, mem_sortBy, mem_append, mem_singleton] at hOther
    rw [hAssigned]
    exact hOther.imp (hRoster.listed memberId member hMember other) (⟨·, rfl⟩)
  · rw [hAssigned]
    exact or_iff_left (fun hSame => hNe hSame.2)

variable {call : Call}
variable (clock : Nat → JsNumber)

/-
  An assignment throws in its checks and before any write, or it leaves the record as it is, or it
  assigns the role.
-/
theorem assignRoleInternal_cases (memberId roleId : String)
    (hRoster : Roster call.record) :
    (∃ e, checkAssignment host call.record memberId roleId = .error e ∧
        assignRoleInternal host clock memberId roleId true call = (.error e, call)) ∨
      (memberId ∈ assignedTo call.record roleId ∧
        (∃ found, checkAssignment host call.record memberId roleId = .ok found) ∧
        assignRoleInternal host clock memberId roleId true call = (.ok (), call)) ∨
      ∃ member, checkAssignment host call.record memberId roleId =
            .ok (member, assignedTo call.record roleId) ∧ memberId ∉ assignedTo call.record roleId ∧
          assignRoleInternal host clock memberId roleId true call =
            (.ok (), recordAuditEvent clock (.roleAssigned memberId roleId)
              { call with record := assignedRecord host memberId roleId member call.record }) := by
  unfold assignRoleInternal
  cases hCheck : checkAssignment host call.record memberId roleId with
  | error e => exact Or.inl ⟨e, rfl, rfl⟩
  | ok found =>
    rcases found with ⟨member, assigned⟩
    rcases (checkAssignment_eq_ok_iff _ _ _ _ _ _).mp hCheck with ⟨⟨hMember, _⟩, rfl, _⟩
    simp only
    by_cases hIn : memberId ∈ assignedTo call.record roleId
    · rw [if_pos hIn]
      exact Or.inr (Or.inl ⟨hIn, ⟨_, rfl⟩, rfl⟩)
    · have hNodup : (host.sort (member.roles ++ [roleId])).Nodup :=
        nodup_sortBy.mpr (hRoster.nodup_roles_append hMember hIn)
      rw [if_neg hIn, uniqueSorted_of_nodup host hNodup]
      exact Or.inr (Or.inr ⟨member, rfl, hIn, rfl⟩)

theorem roster_assignRoleInternal (memberId roleId : String)
    (hRoster : Roster call.record) :
    Roster (assignRoleInternal host clock memberId roleId true call).2.record := by
  rcases assignRoleInternal_cases host clock memberId roleId hRoster with
    ⟨e, _, hEq⟩ | ⟨_, _, hEq⟩ | ⟨member, hCheck, hNew, hEq⟩
  · rw [hEq]
    exact hRoster
  · rw [hEq]
    exact hRoster
  · rw [hEq]
    rcases (checkAssignment_eq_ok_iff _ _ _ _ _ _).mp hCheck with ⟨⟨hMember, _⟩, _, role, hFind, _⟩
    have hAssigned := roster_assignedRecord host hRoster hMember (mem_roles_of_find? hFind) hNew
    exact { hAssigned with }

end Assignments

----------
-- Operations
----------

section Operations

variable (config : TeamContractEngineConfig)
variable (clock : Nat → JsNumber)
variable {call : Call}
variable (memberId : String)

/- A member without roles joins a roster. -/
theorem roster_insertMember (capabilities : Int) (metadata : Option Metadata)
    (hRoster : Roster call.record) :
    Roster (insertMember clock memberId capabilities metadata call).record :=
  hRoster.set rfl rfl (fun _ => Iff.rfl) nodup_nil (forall_mem_nil _)
    (fun _ _ _ => Iff.rfl)

/- Dropping a member takes it off the lists of its roles. -/
theorem get?_dropAssignments (roles : List String)
    (assignments : OrderedMap String (List String)) (roleId : String) :
    ((dropAssignments memberId roles assignments).get? roleId).getD [] =
      if roleId ∈ roles then
        ((assignments.get? roleId).getD []).filter (fun assigned => assigned ≠ memberId)
      else (assignments.get? roleId).getD [] := by
  unfold dropAssignments
  induction roles generalizing assignments with
  | nil => simp
  | cons first rest ih =>
    rw [foldl_cons, ih, get?_set]
    by_cases hFirst : first = roleId
    · subst hFirst
      simp [List.filter_filter]
    · have hNe : roleId ≠ first := fun h => hFirst h.symm
      simp [hFirst, hNe]

theorem mem_keys_dropAssignments (roles : List String)
    (assignments : OrderedMap String (List String)) (roleId : String) :
    roleId ∈ (dropAssignments memberId roles assignments).keys ↔
      roleId ∈ roles ∨ roleId ∈ assignments.keys := by
  unfold dropAssignments
  induction roles generalizing assignments with
  | nil => simp
  | cons first rest ih =>
    rw [foldl_cons, ih, mem_keys_set, mem_cons]
    tauto

/- The lists after a member has left. -/
theorem mem_dropAssignments_iff (roles : List String)
    (assignments : OrderedMap String (List String)) (roleId id : String) :
    id ∈ ((dropAssignments memberId roles assignments).get? roleId).getD [] ↔
      id ∈ (assignments.get? roleId).getD [] ∧ (roleId ∈ roles → id ≠ memberId) := by
  rw [get?_dropAssignments]
  by_cases hRole : roleId ∈ roles
  · rw [if_pos hRole, mem_filter]
    simp [hRole]
  · rw [if_neg hRole]
    simp [hRole]

theorem roster_removeMember {memberId : String} {member : TeamMember}
    (hRoster : Roster call.record) (hMember : call.record.members.get? memberId = some member) :
    Roster (removeMember clock memberId member call).record := by
  refine hRoster.set rfl rfl (fun roleId => ?_) nodup_nil (forall_mem_nil _)
    (fun roleId id hNe => ?_)
  · refine (mem_keys_dropAssignments _ _ _ _).trans (or_iff_right_of_imp (fun hRole => ?_))
    have hIn := hRoster.listed memberId member hMember roleId hRole
    rw [mem_keys_iff]
    unfold assignedTo at hIn
    cases hGet : call.record.roleAssignments.get? roleId with
    | none => simp [hGet] at hIn
    | some assigned => rfl
  · exact (mem_dropAssignments_iff _ _ _ _ _).trans (and_iff_left (fun _ => hNe))

variable {P : TeamContractRecord → Prop}

theorem record_leaveContract (hBefore : P call.record)
    (hRemove : ∀ id member, call.record.members.get? id = some member →
      P (removeMember clock id member call).record) :
    P (leaveContract config clock memberId call).2.record := by
  refine record_afterChecks hBefore fun found hFound => ?_
  simp only [checkLeave, bind_eq_ok_iff, activeMember_eq_ok_iff, Except.ok.injEq] at hFound
  rcases hFound with ⟨_, _, id, _, member, ⟨hGet, _⟩, rfl⟩
  exact hRemove id member hGet

/- What the writes to a roster keep, and whatever leaves it alone, every operation keeps. -/
theorem ContractOp.keeps
    (hKept : ∀ before after, RosterKept before after → P before → P after)
    (hInsert : ∀ id capabilities metadata (call : Call), call.record.members.get? id = none →
      P call.record → P (insertMember clock id capabilities metadata call).record)
    (hRemove : ∀ id member (call : Call), call.record.members.get? id = some member →
      P call.record → P (removeMember clock id member call).record)
    (hAssign : ∀ id role (call : Call), P call.record →
      P (assignRoleInternal config.host clock id role true call).2.record)
    (op : ContractOp) (hBefore : P call.record) : P (op.run config clock call).2.record := by
  cases op with
  | joinContract member =>
    exact record_joinContract config clock member hBefore
      (fun id capabilities metadata hNew => hInsert id capabilities metadata call hNew hBefore) hAssign
  | leaveContract memberId =>
    exact record_leaveContract config clock memberId hBefore
      (fun id member hGet => hRemove id member call hGet hBefore)
  | assignRole memberId roleId =>
    exact record_assignRole config clock memberId roleId hBefore
      (fun id role => hAssign id role call hBefore)
  | startRun =>
    rcases startRun_cases config clock call with hSame | hStarted
    · exact hSame ▸ hBefore
    · exact hKept _ _ hStarted.toRosterKept hBefore
  | cancelContract reason =>
    exact hKept _ _ (runKept_cancelContract config clock reason call).toRosterKept hBefore
  | completeCheckpoint checkpointId memberId outputDigest =>
    exact hKept _ _ (runKept_completeCheckpoint config clock checkpointId memberId
      outputDigest call).toRosterKept hBefore
  | failCheckpoint checkpointId memberId reason =>
    exact hKept _ _
      (runKept_failCheckpoint config clock checkpointId memberId reason call).toRosterKept hBefore
  | finalizePayout totalRewardLamports =>
    exact hKept _ _
      (runKept_finalizePayout config clock totalRewardLamports call).toRosterKept hBefore

theorem ContractOp.roster (op : ContractOp) (hRoster : Roster call.record) :
    Roster (op.run config clock call).2.record :=
  op.keeps config clock (fun _ _ hKept hBefore => hBefore.of_kept hKept)
    (fun id capabilities metadata _ _ => roster_insertMember clock id capabilities metadata)
    (fun _ _ _ hGet hBefore => roster_removeMember clock hBefore hGet)
    (fun id role _ => roster_assignRoleInternal config.host clock id role) hRoster

end Operations

----------
-- Runs
----------

/- What acceptance and the run have established. -/
structure ContractShape (record : TeamContractRecord) : Prop where
  accepted : AcceptedTemplate record.template
  settled : Settled record.checkpoints
  roleId_known : ∀ id c, record.checkpoints.get? id = some c →
      c.roleId ∈ record.template.roles.map (·.id)
  roster : Roster record

namespace TeamContractEngine

variable (config : TeamContractEngineConfig)
variable {template : TeamTemplate}

/- A new contract has assigned no role. -/
theorem assignedTo_createdRecord (template : TeamTemplate) (id creator roleId : String) :
    assignedTo (createdRecord id creator template) roleId = [] := by
  unfold assignedTo createdRecord initialRecord
  simp only
  cases hGet : (OrderedMap.ofList
        (template.roles.map (fun role => (role.id, ([] : List String))))).get? roleId with
  | none => rfl
  | some assigned =>
    rcases List.mem_map.mp (mem_of_get?_ofList hGet) with ⟨role, _, hEq⟩
    cases hEq
    rfl

theorem roster_createdRecord (id creator : String)
    (hAccepted : AcceptedTemplate template) : Roster (createdRecord id creator template) := by
  refine ⟨?_, ?_, ?_, ?_⟩
  · intro roleId
    have hKeys := keys_ofList_map hAccepted.roleIds_nodup (fun _ => ([] : List String))
    rw [List.map_map] at hKeys
    unfold createdRecord initialRecord
    simp only
    exact iff_of_eq (congrArg (roleId ∈ ·) hKeys)
  · intro memberId member hGet
    simp [createdRecord, initialRecord] at hGet
  · intro memberId member hGet
    simp [createdRecord, initialRecord] at hGet
  · intro roleId memberId hMem
    rw [assignedTo_createdRecord] at hMem
    cases hMem

theorem contractShape_createdRecord (id creator : String)
    (hAccepted : AcceptedTemplate template) : ContractShape (createdRecord id creator template) :=
  { accepted := hAccepted, settled := settled_createdRecord id creator template, roleId_known := by
      intro k c hGet
      rcases initialCheckpoint_of_get? hGet with ⟨checkpoint, hMem, _, rfl⟩
      exact hAccepted.roleId_known checkpoint hMem
    roster := roster_createdRecord id creator hAccepted }

/- Every operation keeps the shape of its contract. -/
theorem contractShape_run (op : ContractOp) (clock : Nat → JsNumber) {call : Call}
    (hShape : ContractShape call.record) : ContractShape (op.run config clock call).2.record := by
  have hProgress := op.progress config clock call
  rcases hProgress.checkpoints.settled hShape.settled with ⟨hSettled, hEvolves⟩
  refine
    { accepted := ?_, settled := hSettled, roleId_known := ?_
      roster := op.roster config clock hShape.roster }
  · rw [hProgress.template_eq]
    exact hShape.accepted
  · intro id c hGet
    have hKey : id ∈ call.record.checkpoints.keys := by
      rw [← hEvolves.keys, mem_keys_iff, hGet]
      rfl
    rw [mem_keys_iff, Option.isSome_iff_exists] at hKey
    rcases hKey with ⟨before, hBefore⟩
    rcases hEvolves.get? id before hBefore with ⟨c', hGet', _, hRole, _⟩
    rw [hGet] at hGet'
    cases hGet'
    rw [hRole, hProgress.template_eq]
    exact hShape.roleId_known id before hBefore

theorem contractShape_of_reachable {engine : TeamContractEngine} (hReach : Reachable config engine)
    {id : String} {record : TeamContractRecord} (hGet : engine.contracts.get? id = some record) :
    ContractShape record := by
  refine Reachable.record_induction config ContractShape ?_ ?_ hReach hGet
  · intro id creator template hAccepted
    exact contractShape_createdRecord id creator hAccepted
  · intro op clock before hShape
    exact contractShape_run config op clock hShape

end TeamContractEngine

end AgencCore.Team
