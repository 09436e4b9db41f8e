import AgencCore.Team.Propagation

/-
  Checkpoint statuses over whole runs of the engine.

  `CheckpointMove` says once what an operation can do to the checkpoints of a contract. Every move
  keeps a settled map settled and never changes a completed or failed status, so both facts hold
  over every sequence of calls, rejected calls included.
-/

namespace AgencCore.Team

open Foundations

/- The member has completed or failed the checkpoint. -/
def TeamCheckpointState.ActedBy (c : TeamCheckpointState) (memberId : String) : Prop :=
  c.completedBy = some memberId ∨ c.failedBy = some memberId

/- What one operation can do to the checkpoints, for members that may act on roles. -/
inductive CheckpointMove (mayAct : String → String → Prop) (before : Checkpoints) :
    Checkpoints → Prop where
  | keep : CheckpointMove mayAct before before
  | refresh : CheckpointMove mayAct before (refreshCheckpointReadiness before)
  | complete {id : String} {c done : TeamCheckpointState} (hGet : before.get? id = some c)
      (hOpen : c.status.isOpen) (hNotBlocked : c.status ≠ .blocked)
      (hDeps : areDependenciesCompleted before c.dependsOn = true)
      (hStatus : done.status = .completed) (hId : done.id = c.id) (hRole : done.roleId = c.roleId)
      (hSame : done.dependsOn = c.dependsOn)
      (hActor : ∀ memberId, done.ActedBy memberId → mayAct memberId c.roleId ∨ c.ActedBy memberId) :
      CheckpointMove mayAct before (refreshCheckpointReadiness (before.set id done))
  | fail {id : String} {c failed : TeamCheckpointState} (hGet : before.get? id = some c)
      (hOpen : c.status.isOpen) (hStatus : failed.status = .failed) (hId : failed.id = c.id)
      (hRole : failed.roleId = c.roleId) (hSame : failed.dependsOn = c.dependsOn)
      (hActor : ∀ memberId, failed.ActedBy memberId →
        mayAct memberId c.roleId ∨ c.ActedBy memberId) :
      CheckpointMove mayAct before (afterFailure before id failed)

theorem CheckpointMove.settled {mayAct : String → String → Prop} {before after : Checkpoints}
    (hMove : CheckpointMove mayAct before after)
    (hSettled : Settled before) : Settled after ∧ Evolves before after := by
  cases hMove with
  | keep => exact ⟨hSettled, Evolves.refl before⟩
  | refresh => exact settled_refresh hSettled.sound
  | complete hGet hOpen hNotBlocked hDeps hStatus hId hRole hSame _ =>
    have hSound := sound_complete hSettled hGet hOpen hNotBlocked hDeps hStatus hId hSame
    rcases settled_refresh hSound with ⟨hAfter, hTo⟩
    exact ⟨hAfter, (evolves_set hGet hOpen hId hRole hSame).trans hTo⟩
  | fail hGet hOpen hStatus hId hRole hSame _ =>
    have hFailure : FailureOf before _ _ _ := ⟨hSettled, hGet, hOpen, hStatus, hId, hRole, hSame⟩
    exact ⟨hFailure.settled_afterFailure, hFailure.evolves_afterFailure⟩

abbrev assignedTo (record : TeamContractRecord) (roleId : String) : List String :=
  (record.roleAssignments.get? roleId).getD []

/- The statuses that a contract can go on with. -/
def TeamContractStatus.CanBecome : TeamContractStatus → TeamContractStatus → Prop
| .draft, .active | .draft, .cancelled => True
| .active, .completed | .active, .failed | .active, .cancelled => True
| status, next => next = status

theorem TeamContractStatus.CanBecome.refl (status : TeamContractStatus) :
    status.CanBecome status := by cases status <;> rfl

/- The parts of a contract that frame every operation. -/
structure Progress (before after : TeamContractRecord) : Prop where
  id_eq : after.id = before.id
  template_eq : after.template = before.template
  checkpoints : CheckpointMove
      (fun memberId roleId => before.status = .active ∧ memberId ∈ assignedTo before roleId)
      before.checkpoints after.checkpoints
  status : before.status.CanBecome after.status
  payout : after.finalizedPayout = before.finalizedPayout ∨
      before.finalizedPayout = none ∧ (after.status = .completed ∨ after.status = .failed)

theorem Progress.refl (record : TeamContractRecord) : Progress record record :=
  ⟨rfl, rfl, .keep, .refl _, .inl rfl⟩

/- Progress that changes nothing a roster reads. -/
structure RosterKept (before after : TeamContractRecord) : Prop extends Progress before after where
  members_eq : after.members = before.members
  assignments_eq : after.roleAssignments = before.roleAssignments

/- The same, for a run that is not started by it. -/
structure RunKept (before after : TeamContractRecord) : Prop extends RosterKept before after where
  startedAt_eq : after.startedAt = before.startedAt

theorem RunKept.refl (record : TeamContractRecord) : RunKept record record :=
  ⟨⟨.refl record, rfl, rfl⟩, rfl⟩

/- A draft with enough members for each role is started. -/
structure RunStarted (before after : TeamContractRecord) : Prop extends
    RosterKept before after where
  draft : before.status = .draft
  staffed : ∀ role ∈ before.template.roles,
      (JsNumber.ofInt (assignedTo before role.id).length).lt (role.minMembers.getD 1) = false
  active : after.status = .active
  started : after.startedAt.isSome = true

----------
-- Operations
----------

/- Either the checks throw and nothing is written, or not. -/
theorem afterChecks_cases {α : Type} (call : Call) (checks : Except Failure α)
    (body : α → Except Failure EngineResult × Call) :
    (∃ e, checks = .error e ∧ afterChecks call checks body = (.error e, call)) ∨
      ∃ a, checks = .ok a ∧ afterChecks call checks body = body a := by
  cases checks with
  | error e => exact Or.inl ⟨e, rfl, rfl⟩
  | ok a => exact Or.inr ⟨a, rfl, rfl⟩

variable {call : Call}
variable {P : TeamContractRecord → Prop}

/- What holds of the record that a call finds holds after its checks. -/
theorem record_afterChecks {α : Type}
    {checks : Except Failure α} {body : α → Except Failure EngineResult × Call}
    (hKept : P call.record) (hBody : ∀ a, checks = .ok a → P (body a).2.record) :
    P (afterChecks call checks body).2.record := by
  rcases afterChecks_cases call checks body with ⟨e, _, hEq⟩ | ⟨a, hOk, hEq⟩
  · rw [hEq]
    exact hKept
  · rw [hEq]
    exact hBody a hOk

/- Only members, role assignments and the audit counter. -/
structure RosterFrame (before after : TeamContractRecord) : Prop where
  others : after =
    { before with
      members := after.members, roleAssignments := after.roleAssignments
      auditSequence := after.auditSequence }

theorem RosterFrame.trans {first second third : TeamContractRecord} (h₁ : RosterFrame first second)
    (h₂ : RosterFrame second third) : RosterFrame first third :=
  ⟨h₂.others.trans (by rw [h₁.others])⟩

/- The operations by what they change. -/
inductive ContractMove (op : ContractOp) (before after : TeamContractRecord) : Prop where
  | staff (hDraft : before.status = .draft) (hFrame : RosterFrame before after)
  | start (hStart : op = .startRun) (hStarted : RunStarted before after)
  | run (hKept : RunKept before after)

section Operations

variable (config : TeamContractEngineConfig)
variable (clock : Nat → JsNumber)

theorem record_assignRequestedRoles (host : TextHost) (memberId : String)
    (hAssign : ∀ roleId call, P call.record →
      P (assignRoleInternal host clock memberId roleId true call).2.record)
    (roles : List String) (hKept : P call.record) :
    P (assignRequestedRoles host clock memberId roles call).2.record := by
  induction roles generalizing call with
  | nil => exact hKept
  | cons roleId rest ih =>
    have hHead := hAssign roleId call hKept
    unfold assignRequestedRoles
    cases hRun : assignRoleInternal host clock memberId roleId true call with
    | mk result call' =>
      rw [hRun] at hHead
      cases result with
      | error e => exact hHead
      | ok u => exact ih hHead

/- What an insertion establishes and every assignment keeps holds after a join. -/
theorem record_joinContract (input : TeamMemberInput) (hKept : P call.record)
    (hInsert : ∀ memberId capabilities metadata, call.record.members.get? memberId = none →
      P (insertMember clock memberId capabilities metadata call).record)
    (hAssign : ∀ memberId roleId call, P call.record →
      P (assignRoleInternal config.host clock memberId roleId true call).2.record) :
    P (joinContract config clock input call).2.record := by
  unfold joinContract
  refine record_afterChecks hKept fun member hJoin => ?_
  have hNew : call.record.members.get? member.1 = none := by
    simp only [checkJoin, bind_eq_ok_iff, throwIf_eq_ok_iff, Except.ok.injEq] at hJoin
    rcases hJoin with ⟨_, _, _, _, _, hNew, rfl⟩
    simpa [OrderedMap.has] using hNew
  have hAfter := record_assignRequestedRoles clock config.host member.1 (hAssign member.1)
    member.2.2 (hInsert member.1 member.2.1 input.metadata hNew)
  split
  all_goals
    rename_i hRun
    rw [hRun] at hAfter
    exact hAfter

theorem record_assignRole (memberId roleId : String) (hKept : P call.record)
    (hAssign : ∀ id role, P (assignRoleInternal config.host clock id role true call).2.record) :
    P (assignRole config clock memberId roleId call).2.record := by
  refine record_afterChecks hKept fun ids _ => ?_
  have hAfter := hAssign ids.1 ids.2
  split
  all_goals
    rename_i hRun
    rw [hRun] at hAfter
    exact hAfter

theorem rosterFrame_assignRoleInternal (host : TextHost) (memberId roleId : String)
    (emitAudit : Bool) (call : Call) :
    RosterFrame call.record
      (assignRoleInternal host clock memberId roleId emitAudit call).2.record := by
  unfold assignRoleInternal
  cases checkAssignment host call.record memberId roleId with
  | error e => exact ⟨rfl⟩
  | ok found =>
    rcases found with ⟨member, assigned⟩
    simp only
    split
    · exact ⟨rfl⟩
    · split
      · exact ⟨rfl⟩
      · split <;> exact ⟨rfl⟩

theorem rosterFrame_joinContract (input : TeamMemberInput) (call : Call) :
    RosterFrame call.record (joinContract config clock input call).2.record :=
  record_joinContract config clock input ⟨rfl⟩ (fun _ _ _ _ => ⟨rfl⟩)
    (fun memberId roleId call' hFrame =>
      hFrame.trans (rosterFrame_assignRoleInternal clock config.host memberId roleId true call'))

theorem rosterFrame_leaveContract (memberId : String) (call : Call) :
    RosterFrame call.record (leaveContract config clock memberId call).2.record := by
  unfold leaveContract
  exact record_afterChecks ⟨rfl⟩ fun found _ => ⟨rfl⟩

theorem rosterFrame_assignRole (memberId roleId : String) (call : Call) :
    RosterFrame call.record (assignRole config clock memberId roleId call).2.record :=
  record_assignRole config clock memberId roleId ⟨rfl⟩
    (fun id role => rosterFrame_assignRoleInternal clock config.host id role true call)

theorem startRun_cases (call : Call) :
    (startRun config clock call).2.record = call.record ∨
      RunStarted call.record (startRun config clock call).2.record := by
  refine record_afterChecks (P := fun after => after = call.record ∨ RunStarted call.record after)
    (Or.inl rfl) fun _ hChecks => Or.inr ?_
  simp only [checkStart, bind_eq_ok_iff, assertStatus, throwIf_eq_ok_iff, decide_eq_false_iff_not,
    not_not, forEachM_eq_ok_iff, checkRoleStaffing] at hChecks
  rcases hChecks with ⟨_, hDraft, _, hStaffed, _⟩
  refine ⟨⟨⟨rfl, rfl, .refresh, ?_, .inl rfl⟩, rfl, rfl⟩, hDraft, fun role hRole => ?_, rfl, rfl⟩
  · rw [hDraft]
    trivial
  · rcases hStaffed role hRole with ⟨_, hEnough, _⟩
    exact hEnough

theorem runKept_cancelContract (reason : Option String) (call : Call) :
    RunKept call.record (cancelContract config clock reason call).2.record := by
  unfold cancelContract
  split
  · exact .refl _
  · refine record_afterChecks (.refl _) fun _ hOpen => ?_
    refine ⟨⟨⟨rfl, rfl, .keep, ?_, .inl rfl⟩, rfl, rfl⟩, rfl⟩
    rw [throwIf_eq_ok_iff, decide_eq_false_iff_not, not_or] at hOpen
    cases hStatus : call.record.status <;>
      simp_all [TeamContractStatus.CanBecome, recordAuditEvent, returnSnapshot]

variable {record : TeamContractRecord}

theorem get?_of_findCheckpoint {id : String} {c : TeamCheckpointState}
    (hFind : findCheckpoint record id = .ok c) : record.checkpoints.get? id = some c := by
  unfold findCheckpoint at hFind
  split at hFind
  · cases hFind
  · rename_i hSome
    cases hFind
    exact hSome

variable {found : String × String × TeamCheckpointState}

theorem get?_of_locateCompletion {checkpointId memberId : String}
    (hFound : locateCompletion config record checkpointId memberId = .ok found) :
    record.status = .active ∧ record.checkpoints.get? found.1 = some found.2.2 := by
  simp only [locateCompletion, bind_eq_ok_iff, assertStatus, throwIf_eq_ok_iff,
    decide_eq_false_iff_not, not_not, Except.ok.injEq] at hFound
  rcases hFound with ⟨_, hActive, id, _, _, _, c, hFind, rfl⟩
  exact ⟨hActive, get?_of_findCheckpoint hFind⟩

theorem get?_of_locateFailure {checkpointId memberId reason : String}
    (hFound : locateFailure config record checkpointId memberId reason = .ok found) :
    record.status = .active ∧ record.checkpoints.get? found.1 = some found.2.2 := by
  simp only [locateFailure, bind_eq_ok_iff, assertStatus, throwIf_eq_ok_iff,
    decide_eq_false_iff_not, not_not, Except.ok.injEq] at hFound
  rcases hFound with ⟨_, hActive, id, _, _, _, _, _, c, hFind, rfl⟩
  exact ⟨hActive, get?_of_findCheckpoint hFind⟩

variable {id memberId : String} {c : TeamCheckpointState} {u : Unit}

theorem of_checkCompletion (hChecks : checkCompletion record id memberId c = .ok u) :
    c.status ≠ .failed ∧ c.status ≠ .blocked ∧ memberId ∈ assignedTo record c.roleId ∧
      areDependenciesCompleted record.checkpoints c.dependsOn = true := by
  simp only [checkCompletion, assertMemberCanActOnRole, bind_eq_ok_iff, throwIf_eq_ok_iff,
    decide_eq_false_iff_not, not_or, Bool.not_eq_false', decide_eq_true_eq] at hChecks
  rcases hChecks with ⟨_, ⟨hNotFailed, hNotBlocked⟩, _, ⟨_, _, hAssigned⟩, hDeps⟩
  exact ⟨hNotFailed, hNotBlocked, hAssigned, hDeps⟩

theorem of_checkFailure (hChecks : checkFailure record id memberId c = .ok u) :
    c.status ≠ .completed ∧ memberId ∈ assignedTo record c.roleId := by
  simp only [checkFailure, assertMemberCanActOnRole, bind_eq_ok_iff, throwIf_eq_ok_iff,
    decide_eq_false_iff_not, Bool.not_eq_false', decide_eq_true_eq] at hChecks
  rcases hChecks with ⟨_, hNotDone, _, _, hAssigned⟩
  exact ⟨hNotDone, hAssigned⟩

theorem runKept_completeCheckpoint (checkpointId memberId : String) (outputDigest : Option String)
    (call : Call) :
    RunKept call.record
      (completeCheckpoint config clock checkpointId memberId outputDigest call).2.record := by
  refine record_afterChecks (.refl _) fun found hFound => ?_
  rcases get?_of_locateCompletion config hFound with ⟨hActive, hGet⟩
  split
  · exact .refl _
  · rename_i hNotDone
    refine record_afterChecks (.refl _) fun _ hChecks => ?_
    rcases of_checkCompletion hChecks with ⟨hNotFailed, hNotBlocked, hAssigned, hDeps⟩
    have hProgress : RunKept call.record
          (recordCompletion clock found.1 found.2.1 outputDigest found.2.2 call).record := by
      refine ⟨⟨⟨rfl, rfl, ?_, .refl _, .inl rfl⟩, rfl, rfl⟩, rfl⟩
      refine .complete hGet ⟨hNotDone, hNotFailed⟩ hNotBlocked hDeps rfl rfl rfl rfl ?_
      rintro memberId (hNew | hOld)
      · cases hNew
        exact .inl ⟨hActive, hAssigned⟩
      · exact .inr (.inr hOld)
    simp only
    split
    · refine { hProgress with status := ?_, payout := .inl rfl }
      rw [hActive]
      trivial
    · exact hProgress

theorem runKept_failCheckpoint (checkpointId memberId reason : String) (call : Call) :
    RunKept call.record (failCheckpoint config clock checkpointId memberId reason call).2.record := by
  refine record_afterChecks (.refl _) fun found hFound => ?_
  rcases get?_of_locateFailure config hFound with ⟨hActive, hGet⟩
  split
  · exact .refl _
  · rename_i hNotFailed
    refine record_afterChecks (.refl _) fun _ hChecks => ?_
    rcases of_checkFailure hChecks with ⟨hNotDone, hAssigned⟩
    have hMove : CheckpointMove
          (fun memberId roleId =>
            call.record.status = .active ∧ memberId ∈ assignedTo call.record roleId)
          call.record.checkpoints
          (afterFailure call.record.checkpoints found.1
            (markFailed found.2.1 (call.now clock) (trim reason) found.2.2)) := by
      refine .fail hGet ⟨hNotDone, hNotFailed⟩ rfl rfl rfl rfl ?_
      rintro memberId (hOld | hNew)
      · exact .inr (.inl hOld)
      · cases hNew
        exact .inl ⟨hActive, hAssigned⟩
    change RunKept _ (recordFailure clock found.1 found.2.1 (trim reason) found.2.2 call).record
    unfold recordFailure recordAuditEvent
    simp only
    split
    · refine ⟨⟨⟨rfl, rfl, hMove, ?_, .inl rfl⟩, rfl, rfl⟩, rfl⟩
      rw [hActive]
      trivial
    · exact ⟨⟨⟨rfl, rfl, hMove, .refl _, .inl rfl⟩, rfl, rfl⟩, rfl⟩

/- A run that is completed before its payout. -/
def finishRun (call : Call) : Call :=
  if call.record.status = .active then completeRun clock call
  else call

/-
  A payout is returned again, refused before any write, or computed after the run has been finished.
-/
theorem finalizePayout_cases (totalRewardLamports : Int) (call : Call) : (∃ payout,
      call.record.status ≠ .cancelled ∧ call.record.finalizedPayout = some payout ∧
        finalizePayout config clock totalRewardLamports call = (.ok (.payout payout), call)) ∨
      (∃ e, (call.record.status = .cancelled ∨
          call.record.finalizedPayout = none ∧ checkFinalizable call.record = .error e) ∧
          finalizePayout config clock totalRewardLamports call = (.error e, call)) ∨
      (call.record.status ≠ .cancelled ∧ call.record.finalizedPayout = none ∧
        checkFinalizable call.record = .ok () ∧
        ((∃ e, contractPayout config totalRewardLamports (finishRun clock call).record = .error e ∧
            finalizePayout config clock totalRewardLamports
              call = (.error e, finishRun clock call)) ∨
          ∃ payout,
            contractPayout config totalRewardLamports (finishRun clock call).record = .ok payout ∧
              finalizePayout config clock totalRewardLamports call =
                (.ok (.payout payout),
                  recordPayout clock totalRewardLamports payout (finishRun clock call)))) := by
  unfold finalizePayout
  by_cases hCancelled : call.record.status = .cancelled
  · rw [if_pos hCancelled]
    exact Or.inr (Or.inl ⟨_, Or.inl hCancelled, rfl⟩)
  · rw [if_neg hCancelled]
    cases hFinal : call.record.finalizedPayout with
    | some payout => exact Or.inl ⟨payout, hCancelled, rfl, rfl⟩
    | none =>
      simp only
      rcases afterChecks_cases call (checkFinalizable call.record) _ with
        ⟨e, hCheck, hEq⟩ | ⟨u, hCheck, hEq⟩
      · rw [hEq]
        exact Or.inr (Or.inl ⟨e, Or.inr ⟨trivial, hCheck⟩, rfl⟩)
      · rw [hEq]
        refine Or.inr (Or.inr ⟨hCancelled, trivial, hCheck, ?_⟩)
        rcases afterChecks_cases (finishRun clock call)
            (contractPayout config totalRewardLamports (finishRun clock call).record) _ with
          ⟨e, hPayout, hEq'⟩ | ⟨payout, hPayout, hEq'⟩
        · exact Or.inl ⟨e, hPayout, hEq'⟩
        · exact Or.inr ⟨payout, hPayout, hEq'⟩

theorem runKept_finishRun (call : Call) : RunKept call.record (finishRun clock call).record := by
  unfold finishRun
  split
  · rename_i hActive
    refine ⟨⟨⟨rfl, rfl, .keep, ?_, .inl rfl⟩, rfl, rfl⟩, rfl⟩
    rw [hActive]
    trivial
  · exact .refl _

theorem runKept_finalizePayout (totalRewardLamports : Int) (call : Call) :
    RunKept call.record (finalizePayout config clock totalRewardLamports call).2.record := by
  have hFinished := runKept_finishRun clock call
  rcases finalizePayout_cases config clock totalRewardLamports call with
    ⟨payout, _, _, hEq⟩ | ⟨e, _, hEq⟩ |
      ⟨hNot, hNone, hCheck, ⟨e, _, hEq⟩ | ⟨payout, _, hEq⟩⟩
  · rw [hEq]
    exact RunKept.refl _
  · rw [hEq]
    exact RunKept.refl _
  · rw [hEq]
    exact hFinished
  · rw [hEq]
    refine { hFinished with payout := .inr ⟨hNone, ?_⟩ }
    simp only [checkFinalizable, bind_eq_ok_iff, throwIf_eq_ok_iff] at hCheck
    unfold recordPayout recordAuditEvent finishRun
    cases hStatus : call.record.status <;> simp_all [completeRun]

variable {config clock} in
/- A staffing operation throws before any write or works on a draft. -/
theorem contractMove_staff {op : ContractOp} {α : Type} {checks : Except Failure α}
    {body : α → Except Failure EngineResult × Call}
    (hDraft : ∀ a, checks = .ok a → call.record.status = .draft)
    (hFrame : RosterFrame call.record (afterChecks call checks body).2.record) :
    ContractMove op call.record (afterChecks call checks body).2.record := by
  rcases afterChecks_cases call checks body with ⟨e, _, hEq⟩ | ⟨a, hOk, _⟩
  · rw [hEq]
    exact .run (.refl _)
  · exact .staff (hDraft a hOk) hFrame

theorem ContractOp.move (op : ContractOp) (call : Call) :
    ContractMove op call.record (op.run config clock call).2.record := by
  cases op with
  | joinContract member =>
    refine contractMove_staff ?_ (rosterFrame_joinContract config clock member call)
    simp +contextual [checkJoin, bind_eq_ok_iff, assertStatus]
  | leaveContract memberId =>
    refine contractMove_staff ?_ (rosterFrame_leaveContract config clock memberId call)
    simp +contextual [checkLeave, bind_eq_ok_iff, assertStatus]
  | assignRole memberId roleId =>
    refine contractMove_staff ?_ (rosterFrame_assignRole config clock memberId roleId call)
    simp +contextual [checkAssignable, bind_eq_ok_iff, assertStatus]
  | startRun =>
    rcases startRun_cases config clock call with hSame | hStarted
    · exact .run (hSame ▸ .refl _)
    · exact .start rfl hStarted
  | cancelContract reason =>
    exact .run (runKept_cancelContract config clock reason call)
  | completeCheckpoint checkpointId memberId outputDigest =>
    exact .run
      (runKept_completeCheckpoint config clock checkpointId memberId outputDigest call)
  | failCheckpoint checkpointId memberId reason =>
    exact .run (runKept_failCheckpoint config clock checkpointId memberId reason call)
  | finalizePayout totalRewardLamports =>
    exact .run (runKept_finalizePayout config clock totalRewardLamports call)

/- Every operation makes progress on its contract. -/
theorem ContractMove.progress {op : ContractOp} {before after : TeamContractRecord}
    (hMove : ContractMove op before after) : Progress before after := by
  cases hMove with
  | staff hDraft hFrame =>
    rw [hFrame.others]
    exact { Progress.refl before with }
  | start _ hStarted => exact hStarted.toProgress
  | run hKept => exact hKept.toProgress

theorem ContractOp.progress (op : ContractOp) (call : Call) :
    Progress call.record (op.run config clock call).2.record :=
  (op.move config clock call).progress

end Operations

----------
-- Runs Of The Engine
----------

namespace TeamContractEngine

variable (config : TeamContractEngineConfig)

def createdRecord (contractId creatorId : String) (template : TeamTemplate) : TeamContractRecord :=
  { initialRecord contractId creatorId template with auditSequence := 2 }

variable {engine : TeamContractEngine}

theorem accepted_of_checkNewContract {inHook : Bool}
    {contractId creatorId : String} {template : TeamTemplate}
    {checked : String × String × TeamTemplate}
    (hOk : checkNewContract config engine inHook contractId creatorId template = .ok checked) :
    AcceptedTemplate checked.2.2 ∧ engine.contracts.get? checked.1 = none := by
  simp only [checkNewContract, bind_eq_ok_iff, throwIf_eq_ok_iff, Except.ok.injEq] at hOk
  rcases hOk with ⟨_, _, id, _, creator, _, _, hNew, normalized, hNormalize, u, hValidate, hEq⟩
  have hValid : validateTeamTemplate normalized
          (some (config.requireSingleParentTopology.getD true)) = .ok () := by
    unfold wrapValidationError at hValidate
    split at hValidate
    · assumption
    · cases hValidate
  rw [← hEq]
  exact ⟨acceptedTemplate_of_ok hNormalize hValid, by simpa [OrderedMap.has] using hNew⟩

/- A call outside of a hook on a contract that is there. -/
theorem apply_onContract {contractId id : String} {record : TeamContractRecord}
    (hId : engineId config contractId "contract id" = .ok id)
    (hGet : engine.contracts.get? id = some record) (op : ContractOp) (clock : Nat → JsNumber) :
    (apply config engine ⟨.onContract contractId op, false, clock⟩).1 =
      (op.run config clock ⟨record, [], 0⟩).1 := by
  have hFound : (do
        assertNotInHook false
        getContractRecordOrThrow config engine contractId) = .ok (id, record) := by
    simp only [getContractRecordOrThrow, bind_eq_ok_iff]
    exact ⟨(), rfl, id, hId, by rw [hGet]⟩
  unfold apply onContract
  dsimp only
  rw [hFound]

/- What a call does to one contract: nothing, or it creates it, or it runs an operation on it. -/
theorem record_cases (call : EngineCall) (id : String) :
    (apply config engine call).2.contracts.get? id = engine.contracts.get? id ∨
      (engine.contracts.get? id = none ∧
        ∃ creator template, AcceptedTemplate template ∧
            (apply config engine call).2.contracts.get? id =
              some (createdRecord id creator template)) ∨
      ∃ contractId op record,
        call.op = .onContract contractId op ∧ engine.contracts.get? id = some record ∧
          (apply config engine call).2.contracts.get? id =
            some (op.run config call.clock ⟨record, [], 0⟩).2.record := by
  unfold apply
  cases call.op with
  | createContract contractId creatorId template =>
    simp only
    unfold createContract
    cases hCheck : checkNewContract config engine call.inHook contractId creatorId template with
    | error e => exact Or.inl rfl
    | ok checked =>
      rcases accepted_of_checkNewContract config hCheck with ⟨hAccepted, hNew⟩
      rcases checked with ⟨id', creator, normalized⟩
      simp only [OrderedMap.get?_set]
      split
      · rename_i hEq
        subst hEq
        exact Or.inr (Or.inl ⟨hNew, creator, normalized, hAccepted, rfl⟩)
      · exact Or.inl rfl
  | onContract contractId op =>
    simp only
    unfold onContract
    split
    · exact Or.inl rfl
    · rename_i id' record hFound
      simp only [bind_eq_ok_iff, getContractRecordOrThrow] at hFound
      rcases hFound with ⟨_, _, _, _, hGet⟩
      split at hGet
      · cases hGet
      · rename_i hSome
        cases hGet
        simp only [OrderedMap.get?_set]
        split
        · rename_i hEq
          subst hEq
          exact Or.inr (Or.inr ⟨contractId, op, record, rfl, hSome, rfl⟩)
        · exact Or.inl rfl

/-
  What holds of every new contract and is kept by every operation holds of every contract in every
  run.
-/
theorem Reachable.record_induction (Inv : TeamContractRecord → Prop)
    (hCreated :
      ∀ id creator template, AcceptedTemplate template → Inv (createdRecord id creator template))
    (hOp : ∀ (op : ContractOp) clock record, Inv record →
        Inv (op.run config clock ⟨record, [], 0⟩).2.record)
    (hReach : Reachable config engine) {id : String} {record : TeamContractRecord}
    (hGet : engine.contracts.get? id = some record) : Inv record := by
  induction hReach generalizing id record with
  | refl => simp [empty] at hGet
  | tail _ hStep ih =>
    rcases hStep with ⟨call, rfl⟩
    rcases record_cases config call id with hSame | ⟨_, creator, template, hAccepted, hNew⟩ |
        ⟨_, op, before, _, hBefore, hAfter⟩
    · exact ih (hSame.symm.trans hGet)
    · rw [hNew] at hGet
      cases hGet
      exact hCreated id creator template hAccepted
    · rw [hAfter] at hGet
      cases hGet
      exact hOp op call.clock before (ih hBefore)

def RecordStep (before after : TeamContractRecord) : Prop :=
  ∃ (op : ContractOp) (clock : Nat → JsNumber),
    after = (op.run config clock ⟨before, [], 0⟩).2.record

/- A contract stays registered, and operations lead from it to what it becomes. -/
theorem exists_record_of_steps {engine' : TeamContractEngine}
    (hSteps : Relation.ReflTransGen (Step config) engine engine') {id : String}
    {record : TeamContractRecord} (hGet : engine.contracts.get? id = some record) :
    ∃ record', engine'.contracts.get? id = some record' ∧
      Relation.ReflTransGen (RecordStep config) record record' := by
  induction hSteps with
  | refl => exact ⟨record, hGet, .refl⟩
  | tail _ hStep ih =>
    rcases ih with ⟨middle, hMiddle, hPath⟩
    rcases hStep with ⟨call, rfl⟩
    rcases record_cases config call id with hSame | ⟨hNone, _⟩ | ⟨_, op, before, _, hBefore, hAfter⟩
    · exact ⟨middle, hSame.trans hMiddle, hPath⟩
    · rw [hMiddle] at hNone
      cases hNone
    · rw [hMiddle] at hBefore
      cases hBefore
      exact ⟨_, hAfter, hPath.tail ⟨op, call.clock, rfl⟩⟩

----------
-- Checkpoints Stay Settled
----------

/- The checkpoints of a new contract are ready or pending. -/
theorem initialCheckpoint_of_get? {id creator : String} {template : TeamTemplate} {k : String}
    {c : TeamCheckpointState}
    (hGet : (createdRecord id creator template).checkpoints.get? k = some c) :
    ∃ checkpoint ∈ template.checkpoints, checkpoint.id = k ∧ c = initialCheckpoint checkpoint := by
  have hMem := OrderedMap.mem_of_get?_ofList hGet
  rcases List.mem_map.mp hMem with ⟨checkpoint, hIn, hEq⟩
  cases hEq
  exact ⟨checkpoint, hIn, rfl, rfl⟩

theorem settled_createdRecord (id creator : String) (template : TeamTemplate) :
    Settled (createdRecord id creator template).checkpoints := by
  -- no new checkpoint has any other status
  have hFresh : ∀ d status,
        statusOf? (createdRecord id creator template).checkpoints d = some status →
          status = .ready ∨ status = .pending := by
    intro d status hStatus
    unfold statusOf? at hStatus
    rw [Option.map_eq_some_iff] at hStatus
    rcases hStatus with ⟨c, hGet, hEq⟩
    rcases initialCheckpoint_of_get? hGet with ⟨checkpoint, _, _, rfl⟩
    rw [← hEq]
    unfold initialCheckpoint
    simp only
    split
    · exact Or.inl rfl
    · exact Or.inr rfl
  have hNot (d : String) {status : TeamCheckpointStatus} (hReady : status ≠ .ready)
      (hPending : status ≠ .pending) :
      statusOf? (createdRecord id creator template).checkpoints d ≠ some status := fun hStatus =>
    (hFresh d status hStatus).elim hReady hPending
  refine settled_of_refreshed ⟨fun k c hGet => ?_, fun k c hGet hDone => ?_,
    fun k c hGet hBlocked => ?_⟩ fun k c hGet => ?_
  · rcases initialCheckpoint_of_get? hGet with ⟨checkpoint, _, hId, rfl⟩
    exact hId
  · have hStatus := statusOf?_of_get? hGet
    rw [hDone] at hStatus
    exact absurd hStatus (hNot k nofun nofun)
  · have hStatus := statusOf?_of_get? hGet
    rw [hBlocked] at hStatus
    exact absurd hStatus (hNot k nofun nofun)
  · rcases initialCheckpoint_of_get? hGet with ⟨checkpoint, _, _, rfl⟩
    cases hDeps : checkpoint.deps <;>
      simp [refreshedStatus, hasFailedDependency, areDependenciesCompleted, initialCheckpoint,
        hDeps, hNot]

variable {record : TeamContractRecord}

theorem checkpoints_settled {engine : TeamContractEngine} (hReach : Reachable config engine)
    {id : String} (hGet : engine.contracts.get? id = some record) :
    Settled record.checkpoints := by
  refine Reachable.record_induction config (fun r => Settled r.checkpoints) ?_ ?_ hReach hGet
  · intro id creator template _
    exact settled_createdRecord id creator template
  · intro op clock before hSettled
    exact ((op.progress config clock ⟨before, [], 0⟩).checkpoints.settled hSettled).1

theorem evolves_of_steps {record' : TeamContractRecord} (hSettled : Settled record.checkpoints)
    (hPath : Relation.ReflTransGen (RecordStep config) record record') :
    Settled record'.checkpoints ∧ Evolves record.checkpoints record'.checkpoints := by
  induction hPath with
  | refl => exact ⟨hSettled, Evolves.refl _⟩
  | @tail middle _ _ hStep ih =>
    rcases hStep with ⟨op, clock, rfl⟩
    rcases (op.progress config clock ⟨middle, [], 0⟩).checkpoints.settled ih.1 with
      ⟨hNext, hEvolves⟩
    exact ⟨hNext, ih.2.trans hEvolves⟩

/-
  In every reachable state, completed checkpoints have completed dependencies, blocked and ready
  ones are characterized by their dependencies, and whatever calls follow, a completed or failed
  status never changes.
-/
theorem checkpoint_status_invariant {engine : TeamContractEngine} (hReach : Reachable config engine)
    {contractId : String} {record : TeamContractRecord}
    (hRecord : engine.contracts.get? contractId = some record) {id : String}
    {c : TeamCheckpointState} (hGet : record.checkpoints.get? id = some c) :
    (c.status = .completed → ∀ d ∈ c.dependsOn, statusOf? record.checkpoints d = some .completed) ∧
      (c.status = .blocked ↔
        (c.status ≠ .completed ∧ c.status ≠ .failed) ∧
          ∃ d ∈ c.dependsOn, statusOf? record.checkpoints d = some .failed ∨
              statusOf? record.checkpoints d = some .blocked) ∧
      (c.status = .ready ↔
        (c.status ≠ .completed ∧ c.status ≠ .failed) ∧ c.status ≠ .blocked ∧
          ∀ d ∈ c.dependsOn, statusOf? record.checkpoints d = some .completed) ∧
      ∀ engine', Relation.ReflTransGen (Step config) engine engine' →
          c.status = .completed ∨ c.status = .failed →
            ∃ record' c', engine'.contracts.get? contractId = some record' ∧
                record'.checkpoints.get? id = some c' ∧ c'.dependsOn = c.dependsOn ∧
                c'.status = c.status := by
  have hSettled := checkpoints_settled config hReach hRecord
  refine ⟨hSettled.completed id c hGet, hSettled.blocked id c hGet, hSettled.ready id c hGet, ?_⟩
  intro engine' hSteps hDone
  rcases exists_record_of_steps config hSteps hRecord with ⟨record', hRecord', hPath⟩
  rcases (evolves_of_steps config hSettled hPath).2.get? id c hGet with
    ⟨c', hGet', _, _, hDeps, hKeep⟩
  exact ⟨record', c', hRecord', hGet', hDeps, hKeep hDone⟩

def DependsOn (checkpoints : Checkpoints) (id d : String) : Prop :=
  ∃ c, checkpoints.get? id = some c ∧ d ∈ c.dependsOn

theorem blocks_of_dependsOn {checkpoints : Checkpoints} (hSettled : Settled checkpoints)
    {id d : String} (hDepends : DependsOn checkpoints id d) (hBlocks : Blocks checkpoints d) :
    Blocks checkpoints id := by
  rcases hDepends with ⟨c, hGet, hDep⟩
  have hStatus := statusOf?_of_get? hGet
  by_cases hFailed : c.status = .failed
  · exact .inl (hFailed ▸ hStatus)
  · have hOpen : c.status ≠ .completed := by
      intro hDone
      have hDepDone := hSettled.completed id c hGet hDone d hDep
      rcases hBlocks with hDepStatus | hDepStatus <;> cases hDepDone.symm.trans hDepStatus
    have hBlocked := (hSettled.blocked id c hGet).mpr ⟨⟨hOpen, hFailed⟩, d, hDep, hBlocks⟩
    exact .inr (hBlocked ▸ hStatus)

/- Whatever is called later, nothing that depends on a failed checkpoint is ever completed. -/
theorem failure_reaches_dependants (config : TeamContractEngineConfig)
    {engine engine' : TeamContractEngine} (hReach : Reachable config engine)
    {contractId : String} {record : TeamContractRecord}
    (hRecord : engine.contracts.get? contractId = some record) {id d : String}
    (hPath : Relation.TransGen (DependsOn record.checkpoints) id d)
    (hFailed : statusOf? record.checkpoints d = some .failed)
    (hSteps : Relation.ReflTransGen (Step config) engine engine') :
    ∃ record', engine'.contracts.get? contractId = some record' ∧
      (statusOf? record'.checkpoints id = some .failed ∨
        statusOf? record'.checkpoints id = some .blocked) := by
  rcases exists_record_of_steps config hSteps hRecord with ⟨record', hRecord', hRun⟩
  rcases evolves_of_steps config (checkpoints_settled config hReach hRecord) hRun with
    ⟨hSettled, hEvolves⟩
  -- dependencies never change, and a failed checkpoint stays failed
  have hDepends : ∀ a b, DependsOn record.checkpoints a b → DependsOn record'.checkpoints a b := by
    rintro a b ⟨c, hGet, hDep⟩
    rcases hEvolves.get? a c hGet with ⟨c', hGet', _, _, hDeps, _⟩
    exact ⟨c', hGet', hDeps ▸ hDep⟩
  have hFailed' : statusOf? record'.checkpoints d = some .failed := by
    rcases Option.map_eq_some_iff.mp hFailed with ⟨c, hGet, hStatus⟩
    rcases hEvolves.get? d c hGet with ⟨c', hGet', _, _, _, hKeep⟩
    rw [statusOf?_of_get? hGet', hKeep (.inr hStatus), hStatus]
  refine ⟨record', hRecord', ?_⟩
  induction hPath using Relation.TransGen.head_induction_on with
  | single hDep => exact blocks_of_dependsOn hSettled (hDepends _ _ hDep) (.inl hFailed')
  | head hDep _ ih => exact blocks_of_dependsOn hSettled (hDepends _ _ hDep) ih

def runCalls (config : TeamContractEngineConfig) (engine : TeamContractEngine)
    (calls : List EngineCall) : TeamContractEngine :=
  calls.foldl (fun acc call => (apply config acc call).2) engine

theorem steps_runCalls (config : TeamContractEngineConfig) (engine : TeamContractEngine)
    (calls : List EngineCall) :
    Relation.ReflTransGen (Step config) engine (runCalls config engine calls) := by
  unfold runCalls
  induction calls generalizing engine with
  | nil => exact Relation.ReflTransGen.refl
  | cons call rest ih => exact Relation.ReflTransGen.head ⟨call, rfl⟩ (ih _)

def sampleConfig : TeamContractEngineConfig := ⟨TextHost.basic, none⟩

/- A call outside of any hook, at time zero. -/
def sampleCall (op : EngineOp) : EngineCall := ⟨op, false, fun _ => 0⟩

/- Create the sample contract, staff it and start it. -/
def sampleStart : List EngineCall :=
  [sampleCall (.createContract "Team" "owner" sampleTemplate),
    sampleCall (.onContract "team" (.joinContract ⟨"alice", 1, some ["build"], none⟩)),
    sampleCall (.onContract "team" (.joinContract ⟨"bob", 1, some ["review"], none⟩)),
    sampleCall (.onContract "team" .startRun)]

def sampleFailed : TeamContractEngine :=
  runCalls sampleConfig empty
    (sampleStart ++ [sampleCall (.onContract "team" (.failCheckpoint "draft" "alice" "lost"))])

/- The check is blocked by the failed draft. -/
theorem sampleFailed_check_blocked : ∃ record c,
      sampleFailed.contracts.get? "team" = some record ∧ record.checkpoints.get? "check" = some c ∧
        c.status = .blocked ∧
        ∃ d ∈ c.dependsOn, statusOf? record.checkpoints d = some .failed ∨
            statusOf? record.checkpoints d = some .blocked := by
  have hRecord : ∃ record, sampleFailed.contracts.get? "team" = some record ∧
          (record.checkpoints.get? "check").map (·.status) = some .blocked :=
    ⟨_, rfl, by decide +kernel⟩
  rcases hRecord with ⟨record, hGet, hStatus⟩
  rcases Option.map_eq_some_iff.mp hStatus with ⟨c, hCheck, hBlocked⟩
  have hInvariant := checkpoint_status_invariant sampleConfig
    (steps_runCalls sampleConfig empty _) hGet hCheck
  exact ⟨record, c, hGet, hCheck, hBlocked, (hInvariant.2.1.mp hBlocked).2⟩

theorem failed_draft_blocks_check : ∃ record, sampleFailed.contracts.get? "team" = some record ∧
    (statusOf? record.checkpoints "check" = some .failed ∨
      statusOf? record.checkpoints "check" = some .blocked) := by
  have hRecord : ∃ record, sampleFailed.contracts.get? "team" = some record ∧
      statusOf? record.checkpoints "draft" = some .failed ∧
      (record.checkpoints.get? "check").map (·.dependsOn) = some ["draft"] :=
    ⟨_, rfl, by decide +kernel⟩
  rcases hRecord with ⟨record, hGet, hFailed, hCheck⟩
  rcases Option.map_eq_some_iff.mp hCheck with ⟨c, hCheck, hDeps⟩
  exact failure_reaches_dependants sampleConfig (steps_runCalls sampleConfig empty _) hGet
    (.single ⟨c, hCheck, by simp [hDeps]⟩) hFailed .refl

end TeamContractEngine

end AgencCore.Team
