import AgencCore.Team.Roster

/-
  Rosters that agree with their members.

  Who holds a role is stored twice, in the list of the role and in the roles of the member. Joining,
  leaving and assigning keep the two copies the same and the lists within the bounds of the
  template, also when they throw midway. A started run leaves the rosters alone, and only the listed
  members act on checkpoints.
-/

namespace AgencCore.Team

open Foundations List OrderedMap

----------
-- Who Acts On Checkpoints
----------

/- Whoever has acted on a checkpoint is allowed for its role. -/
def ActorsAllowed (allowed : String → String → Prop) (checkpoints : Checkpoints) : Prop :=
  ∀ id c, checkpoints.get? id = some c → ∀ memberId, c.ActedBy memberId → allowed memberId c.roleId

section Actors

variable {allowed : String → String → Prop}
variable {checkpoints : Checkpoints}

theorem ActorsAllowed.set (hAllowed : ActorsAllowed allowed checkpoints) (id : String)
    {c : TeamCheckpointState} (hNew : ∀ memberId, c.ActedBy memberId → allowed memberId c.roleId) :
    ActorsAllowed allowed (checkpoints.set id c) := by
  intro k found hGet
  rw [get?_set] at hGet
  split at hGet
  · cases hGet
    exact hNew
  · exact hAllowed k found hGet

/- Refreshing only changes statuses. -/
theorem ActorsAllowed.refreshLoop (hAllowed : ActorsAllowed allowed checkpoints) (fuel : Nat) :
    ActorsAllowed allowed (refreshLoop fuel checkpoints) :=
  refreshLoop_induction (fun _ id c hBefore hGet _ => hBefore.set id (hBefore id c hGet)) fuel
    hAllowed

theorem ActorsAllowed.block (hAllowed : ActorsAllowed allowed checkpoints) (failedId : String) :
    ActorsAllowed allowed (blockDependentCheckpoints failedId checkpoints) := by
  intro id c hGet
  rw [get?_blockDependentCheckpoints, Option.map_eq_some_iff] at hGet
  rcases hGet with ⟨before, hBefore, rfl⟩
  unfold blockOpen
  split
  · split <;> exact hAllowed id before hBefore
  · exact hAllowed id before hBefore

/- An operation adds the actors that it lets act. -/
theorem CheckpointMove.actorsAllowed {mayAct : String → String → Prop} {before after : Checkpoints}
    (hMove : CheckpointMove mayAct before after)
    (hMay : ∀ memberId roleId, mayAct memberId roleId → allowed memberId roleId)
    (hBefore : ActorsAllowed allowed before) : ActorsAllowed allowed after := by
  -- who has acted on the new state of a checkpoint, for both ways to end it
  have hActors {id : String} {c ended : TeamCheckpointState} (hGet : before.get? id = some c)
      (hRole : ended.roleId = c.roleId)
      (hActor : ∀ memberId, ended.ActedBy memberId →
        mayAct memberId c.roleId ∨ c.ActedBy memberId) :
      ActorsAllowed allowed (before.set id ended) := by
    refine hBefore.set id fun memberId hActed => ?_
    rw [hRole]
    exact (hActor memberId hActed).elim (hMay _ _) (hBefore id c hGet memberId)
  cases hMove with
  | keep => exact hBefore
  | refresh => exact hBefore.refreshLoop _
  | complete hGet _ _ _ _ _ hRole _ hActor => exact (hActors hGet hRole hActor).refreshLoop _
  | fail hGet _ _ _ hRole _ hActor => exact (hActors hGet hRole hActor).block _

end Actors

----------
-- Consistency
----------

/- The member holds the role and may hold it. -/
def Fits (template : TeamTemplate) (roleId : String) (member : TeamMember) : Prop :=
  roleId ∈ member.roles ∧ member.active = true ∧
    ∀ role ∈ template.roles, role.id = roleId →
      hasCapability member.capabilities role.requiredCapabilities = true

/- The listed members are distinct, hold the role, and are no more than the role takes. -/
structure Consistent (record : TeamContractRecord) : Prop extends Roster record where
  accepted : AcceptedTemplate record.template
  holds : ∀ roleId, ∀ memberId ∈ assignedTo record roleId, ∃ member,
      record.members.get? memberId = some member ∧ Fits record.template roleId member
  distinct : ∀ roleId, (assignedTo record roleId).Nodup
  room :
    ∀ role ∈ record.template.roles, ∀ most : Nat, role.maxMembers.getD 1 = JsNumber.ofInt most →
      (assignedTo record role.id).length ≤ most

namespace Consistent

theorem of_kept {before after : TeamContractRecord} (hConsistent : Consistent before)
    (hKept : RosterKept before after) : Consistent after := by
  rcases hKept with ⟨⟨_, hTemplate, _⟩, hMembers, hAssignments⟩
  cases before
  cases after
  cases hTemplate
  cases hMembers
  cases hAssignments
  exact { hConsistent with }

/- Setting one member, with lists that add nobody else. -/
theorem holds_set {before after : TeamContractRecord} (hConsistent : Consistent before)
    {memberId : String} {member : TeamMember}
    (hMembers : after.members = before.members.set memberId member)
    (hSelf : ∀ roleId, memberId ∈ assignedTo after roleId → Fits before.template roleId member)
    (hOthers : ∀ roleId id, id ≠ memberId →
      id ∈ assignedTo after roleId → id ∈ assignedTo before roleId) :
    ∀ roleId, ∀ id ∈ assignedTo after roleId, ∃ found,
      after.members.get? id = some found ∧ Fits before.template roleId found := by
  intro roleId id hMem
  rw [hMembers, get?_set]
  by_cases hSame : memberId = id
  · rw [if_pos hSame]
    exact ⟨member, rfl, hSelf roleId (hSame ▸ hMem)⟩
  · rw [if_neg hSame]
    exact hConsistent.holds roleId id (hOthers roleId id (Ne.symm hSame) hMem)

variable {call : Call} (hConsistent : Consistent call.record)
variable (clock : Nat → JsNumber)
include hConsistent

/- A listed member is the one that is looked up. -/
theorem fits {memberId roleId : String} {member : TeamMember}
    (hMember : call.record.members.get? memberId = some member)
    (hMem : memberId ∈ assignedTo call.record roleId) :
    Fits call.record.template roleId member := by
  rcases hConsistent.holds roleId memberId hMem with ⟨found, hFound, hFits⟩
  rw [hMember] at hFound
  cases hFound
  exact hFits

theorem insertMember {memberId : String} (capabilities : Int) (metadata : Option Metadata)
    (hNew : call.record.members.get? memberId = none) :
    Consistent (insertMember clock memberId capabilities metadata call).record := by
  refine
    { roster_insertMember clock memberId capabilities metadata hConsistent.toRoster with
      accepted := hConsistent.accepted, distinct := hConsistent.distinct, room := hConsistent.room
      holds := hConsistent.holds_set rfl (fun roleId hMem => ?_) (fun _ _ _ => id) }
  have hKey := hConsistent.known roleId memberId hMem
  rw [mem_keys_iff, hNew] at hKey
  cases hKey

theorem removeMember {memberId : String} {member : TeamMember}
    (hMember : call.record.members.get? memberId = some member) :
    Consistent (removeMember clock memberId member call).record := by
  have hSublist (roleId : String) :
      (assignedTo (Team.removeMember clock memberId member call).record roleId).Sublist
        (assignedTo call.record roleId) := by
    have hDrop : assignedTo (Team.removeMember clock memberId member call).record roleId = _ :=
      get?_dropAssignments memberId member.roles call.record.roleAssignments roleId
    rw [hDrop]
    split
    · exact filter_sublist
    · exact .refl _
  refine
    { roster_removeMember clock hConsistent.toRoster hMember with
      accepted := hConsistent.accepted
      distinct := fun roleId => (hSublist roleId).nodup (hConsistent.distinct roleId)
      room := fun role hRole most hMost =>
        (hSublist role.id).length_le.trans (hConsistent.room role hRole most hMost)
      holds := hConsistent.holds_set rfl (fun roleId hMem => ?_)
        (fun roleId _ _ hMem => (hSublist roleId).subset hMem) }
  -- the member was on the lists of its roles only
  rcases (mem_dropAssignments_iff _ _ _ _ _).mp hMem with ⟨hOld, hGone⟩
  exact absurd rfl (hGone (hConsistent.fits hMember hOld).1)

theorem assignRole (host : TextHost) (memberId roleId : String) :
    Consistent (assignRoleInternal host clock memberId roleId true call).2.record := by
  have hRoster := roster_assignRoleInternal host clock memberId roleId hConsistent.toRoster
  rcases assignRoleInternal_cases host clock memberId roleId hConsistent.toRoster with
    ⟨e, _, hEq⟩ | ⟨_, _, hEq⟩ | ⟨member, hCheck, hNew, hEq⟩
  · rw [hEq]
    exact hConsistent
  · rw [hEq]
    exact hConsistent
  rw [hEq] at hRoster ⊢
  rcases (checkAssignment_eq_ok_iff _ _ _ _ _ _).mp hCheck with
    ⟨⟨hMember, hActive⟩, _, found, hFind, hCapable, hRoom⟩
  have hUnique : ∀ role ∈ call.record.template.roles, role.id = roleId → role = found := by
    intro role hRole hId
    have hFound := find?_some hFind
    rw [beq_iff_eq] at hFound
    exact inj_on_of_nodup_map hConsistent.accepted.roleIds_nodup hRole
      (mem_of_find?_eq_some hFind) (hId.trans hFound.symm)
  have hMemAssigned := mem_assignedTo_assignedRecord host call.record memberId roleId member
  have hAssigned (other : String) :
      assignedTo (assignedRecord host memberId roleId member call.record) other =
        if roleId = other then host.sort (assignedTo call.record roleId ++ [memberId])
        else assignedTo call.record other := by
    rw [assignedTo, assignedRecord, get?_set]
    split <;> rfl
  refine
    { hRoster with
      accepted := hConsistent.accepted
      holds := hConsistent.holds_set rfl (fun other hMem => ?_) (fun other id hNe hMem => ?_)
      distinct := fun other => (hAssigned other).symm ▸ ?_
      room := fun role hRole most hMost => (hAssigned role.id).symm ▸ ?_ }
  · rcases (hMemAssigned other memberId).mp hMem with hOld | ⟨rfl, _⟩
    · have hFits := hConsistent.fits hMember hOld
      exact ⟨by simp [TextHost.sort, mem_sortBy, hFits.1], hFits.2⟩
    · exact ⟨by simp [TextHost.sort, mem_sortBy], hActive,
        fun role hRole hId => hUnique role hRole hId ▸ hCapable⟩
  · exact ((hMemAssigned other id).mp hMem).resolve_right (fun hSame => hNe hSame.2)
  · split
    · refine nodup_sortBy.mpr ?_
      simpa using (hConsistent.distinct roleId).concat hNew
    · exact hConsistent.distinct other
  · split
    · next hId =>
      rw [← hUnique role hRole hId.symm, hMost] at hRoom
      have hLess := hRoom.resolve_left hNew
      rw [JsNumber.le_ofInt, decide_eq_false_iff_not] at hLess
      rw [TextHost.sort, length_sortBy, length_append, length_singleton]
      omega
    · exact hConsistent.room role hRole most hMost

end Consistent

/- Every operation keeps the copies the same, whether it returns or throws. -/
theorem ContractOp.consistent (config : TeamContractEngineConfig) (clock : Nat → JsNumber)
    (op : ContractOp) {call : Call} (hConsistent : Consistent call.record) :
    Consistent (op.run config clock call).2.record :=
  op.keeps config clock (fun _ _ hKept h => h.of_kept hKept)
    (fun _ capabilities metadata _ hNew h => h.insertMember clock capabilities metadata hNew)
    (fun _ _ _ hMember h => h.removeMember clock hMember)
    (fun memberId roleId _ h => h.assignRole clock config.host memberId roleId) hConsistent

----------
-- Started Runs
----------

/- A started run has enough members, and only the listed ones have acted, in no draft. -/
structure RunStaffed (record : TeamContractRecord) : Prop where
  started : record.startedAt.isSome = true → record.status ≠ .draft ∧
      ∀ role ∈ record.template.roles,
        (JsNumber.ofInt (assignedTo record role.id).length).lt (role.minMembers.getD 1) = false
  acted : ActorsAllowed
      (fun memberId roleId => record.status ≠ .draft ∧ memberId ∈ assignedTo record roleId)
      record.checkpoints

section Started

variable {before after : TeamContractRecord}

theorem TeamContractStatus.CanBecome.ne_draft {status next : TeamContractStatus}
    (hBecomes : status.CanBecome next) (hNot : status ≠ .draft) : next ≠ .draft := by
  rintro rfl
  cases status <;> first | exact hNot rfl | cases hBecomes

theorem RosterKept.assignedTo_eq (hKept : RosterKept before after) :
    assignedTo after = assignedTo before := by
  funext roleId
  rw [assignedTo, hKept.assignments_eq]

theorem RosterKept.acted (hKept : RosterKept before after) (hStaffed : RunStaffed before) :
    ActorsAllowed
      (fun memberId roleId => after.status ≠ .draft ∧ memberId ∈ assignedTo after roleId)
      after.checkpoints := by
  rw [hKept.assignedTo_eq]
  have hAllowed := hKept.checkpoints.actorsAllowed
    (fun _ _ hMay => ⟨by rw [hMay.1]; decide, hMay.2⟩) hStaffed.acted
  intro id c hGet memberId hActed
  exact (hAllowed id c hGet memberId hActed).imp_left hKept.status.ne_draft

theorem ContractMove.runStaffed {op : ContractOp} (hMove : ContractMove op before after)
    (hStaffed : RunStaffed before) : RunStaffed after := by
  cases hMove with
  | staff hDraft hFrame =>
    -- a draft has neither a start nor an actor
    rw [hFrame.others]
    exact ⟨fun hStarted => absurd hDraft (hStaffed.started hStarted).1,
      fun id c hGet memberId hActed => absurd hDraft (hStaffed.acted id c hGet memberId hActed).1⟩
  | start _ hStarted =>
    refine ⟨fun _ => ⟨by rw [hStarted.active]; decide, ?_⟩, hStarted.acted hStaffed⟩
    rw [hStarted.assignedTo_eq, hStarted.template_eq]
    exact hStarted.staffed
  | run hKept =>
    refine ⟨?_, hKept.acted hStaffed⟩
    rw [hKept.startedAt_eq, hKept.assignedTo_eq, hKept.template_eq]
    exact fun hStarted => (hStaffed.started hStarted).imp_left hKept.status.ne_draft

/- Outside of a draft no operation touches the roster. -/
theorem ContractMove.rosterKept {op : ContractOp} (hMove : ContractMove op before after)
    (hNot : before.status ≠ .draft) : RosterKept before after := by
  cases hMove with
  | staff hDraft _ => exact absurd hDraft hNot
  | start _ hStarted => exact hStarted.toRosterKept
  | run hKept => exact hKept.toRosterKept

end Started

namespace TeamContractEngine

variable (config : TeamContractEngineConfig)
variable {engine : TeamContractEngine} {record : TeamContractRecord}

theorem consistent_of_reachable (hReach : Reachable config engine) {id : String}
    (hGet : engine.contracts.get? id = some record) : Consistent record ∧ RunStaffed record := by
  refine Reachable.record_induction config (fun r => Consistent r ∧ RunStaffed r) ?_ ?_ hReach hGet
  · intro id creator template hAccepted
    have hEmpty := assignedTo_createdRecord template id creator
    refine ⟨{ roster_createdRecord id creator hAccepted with
      accepted := hAccepted, holds := ?_, distinct := ?_, room := ?_ }, ?_, ?_⟩
    · simp [hEmpty]
    · simp [hEmpty]
    · simp [hEmpty]
    · exact nofun
    · intro k c hGet memberId hActed
      rcases initialCheckpoint_of_get? hGet with ⟨checkpoint, _, _, rfl⟩
      exact hActed.elim nofun nofun
  · intro op clock before hBefore
    exact ⟨op.consistent config clock hBefore.1,
      (op.move config clock ⟨before, [], 0⟩).runStaffed hBefore.2⟩

theorem roster_frozen {record' : TeamContractRecord}
    (hPath : Relation.ReflTransGen (RecordStep config) record record')
    (hNot : record.status ≠ .draft) :
    record'.status ≠ .draft ∧ record'.members = record.members ∧
      record'.roleAssignments = record.roleAssignments := by
  induction hPath with
  | refl => exact ⟨hNot, rfl, rfl⟩
  | @tail middle _ _ hStep ih =>
    rcases hStep with ⟨op, clock, rfl⟩
    rcases ih with ⟨hOut, hMembers, hAssignments⟩
    have hKept := (op.move config clock ⟨middle, [], 0⟩).rosterKept hOut
    exact ⟨hKept.status.ne_draft hOut, hKept.members_eq.trans hMembers,
      hKept.assignments_eq.trans hAssignments⟩

/-
  In every reachable state the list of a role and the roles of the members say the same, the listed
  members are active, capable, distinct and within the bounds of the role. A started run has enough
  members for each role and its rosters never change again. Whoever completed or failed a checkpoint
  is assigned to its role.
-/
theorem rosters_consistent (hReach : Reachable config engine) {id : String}
    (hGet : engine.contracts.get? id = some record) :
    (∀ roleId memberId, memberId ∈ assignedTo record roleId ↔
      ∃ member, record.members.get? memberId = some member ∧ roleId ∈ member.roles) ∧
      (∀ role ∈ record.template.roles, (∀ memberId ∈ assignedTo record role.id, ∃ member,
          record.members.get? memberId = some member ∧ member.active = true ∧
            hasCapability member.capabilities role.requiredCapabilities = true) ∧
          (assignedTo record role.id).Nodup ∧
          (JsNumber.ofInt (assignedTo record role.id).length).le (role.maxMembers.getD 1) = true ∧
          (record.startedAt.isSome = true →
            (role.minMembers.getD 1).le (JsNumber.ofInt (assignedTo record role.id).length) =
              true)) ∧
      (record.startedAt.isSome = true →
        ∀ engine', Relation.ReflTransGen (Step config) engine engine' → ∃ record',
          engine'.contracts.get? id = some record' ∧ record'.members = record.members ∧
            record'.roleAssignments = record.roleAssignments) ∧
      ∀ checkpointId c, record.checkpoints.get? checkpointId = some c → ∀ memberId,
        c.completedBy = some memberId ∨ c.failedBy = some memberId →
          memberId ∈ assignedTo record c.roleId := by
  rcases consistent_of_reachable config hReach hGet with ⟨hConsistent, hStaffed⟩
  refine ⟨fun roleId memberId => ⟨fun hMem => ?_, ?_⟩, fun role hRole => ?_, ?_, ?_⟩
  · rcases hConsistent.holds roleId memberId hMem with ⟨member, hMember, hFits⟩
    exact ⟨member, hMember, hFits.1⟩
  · rintro ⟨member, hMember, hHolds⟩
    exact hConsistent.listed memberId member hMember roleId hHolds
  · rcases hConsistent.accepted.members_natural role hRole with ⟨least, most, hLeast, hMost⟩
    refine ⟨fun memberId hMem => ?_, hConsistent.distinct role.id, ?_, fun hStarted => ?_⟩
    · rcases hConsistent.holds role.id memberId hMem with ⟨member, hMember, _, hActive, hCapable⟩
      exact ⟨member, hMember, hActive, hCapable role hRole rfl⟩
    · rw [hMost, JsNumber.le_ofInt, decide_eq_true_eq]
      exact_mod_cast hConsistent.room role hRole most hMost
    · have hEnough := (hStaffed.started hStarted).2 role hRole
      rw [hLeast, JsNumber.lt_ofInt, decide_eq_false_iff_not] at hEnough
      rw [hLeast, JsNumber.le_ofInt, decide_eq_true_eq]
      exact not_lt.mp hEnough
  · intro hStarted engine' hSteps
    rcases exists_record_of_steps config hSteps hGet with ⟨record', hRecord', hPath⟩
    exact ⟨record', hRecord', (roster_frozen config hPath (hStaffed.started hStarted).1).2⟩
  · intro checkpointId c hCheckpoint memberId hActed
    exact (hStaffed.acted checkpointId c hCheckpoint memberId hActed).2

/- The member that failed the draft is listed for it, whatever happens next. -/
theorem sampleFailed_roster_frozen : ∃ record, sampleFailed.contracts.get? "team" = some record ∧
      "alice" ∈ assignedTo record "build" ∧ ∀ later, ∃ record',
        (runCalls sampleConfig sampleFailed later).contracts.get? "team" = some record' ∧
          record'.roleAssignments = record.roleAssignments := by
  have hRecord : ∃ record, sampleFailed.contracts.get? "team" = some record ∧
        record.startedAt.isSome = true ∧ (record.checkpoints.get? "draft").map
          (fun c => (c.roleId, c.failedBy)) = some ("build", some "alice") :=
    ⟨_, rfl, by decide +kernel, by decide +kernel⟩
  rcases hRecord with ⟨record, hGet, hStarted, hFailed⟩
  rcases Option.map_eq_some_iff.mp hFailed with ⟨c, hDraft, hEq⟩
  rw [Prod.mk.injEq] at hEq
  rcases rosters_consistent sampleConfig (steps_runCalls sampleConfig empty _) hGet with
    ⟨_, _, hFrozen, hActed⟩
  refine ⟨record, hGet, ?_, fun later => ?_⟩
  · rw [← hEq.1]
    exact hActed "draft" c hDraft "alice" (Or.inr hEq.2)
  · rcases hFrozen hStarted _ (steps_runCalls sampleConfig sampleFailed later) with
      ⟨record', hGet', _, hSame⟩
    exact ⟨record', hGet', hSame⟩

end TeamContractEngine

end AgencCore.Team
