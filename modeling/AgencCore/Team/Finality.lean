import AgencCore.Team.Readiness

/-
  Contracts that have ended.

  The status of a contract moves from a draft to a run to an end and stays there. A payout is stored
  at the end of a run, once, and whoever asks again gets the same payout. The start time tells that
  `startRun` has taken the contract out of its draft.
-/

namespace AgencCore.Team

open Foundations OrderedMap

/- No operation leads out of it. -/
def TeamContractStatus.isTerminal (status : TeamContractStatus) : Prop :=
  status = .completed ∨ status = .failed ∨ status = .cancelled

theorem TeamContractStatus.CanBecome.eq_of_terminal {status next : TeamContractStatus}
    (hBecomes : status.CanBecome next) (hEnd : status.isTerminal) : next = status := by
  rcases hEnd with rfl | rfl | rfl <;> exact hBecomes

/- A payout is there at the end of a run only. -/
def PaidAtEnd (record : TeamContractRecord) : Prop :=
  record.finalizedPayout ≠ none → record.status = .completed ∨ record.status = .failed

variable {before after : TeamContractRecord}

theorem Progress.paidAtEnd (hProgress : Progress before after) (hPaid : PaidAtEnd before) :
    PaidAtEnd after := by
  intro hSome
  rcases hProgress.payout with hSame | ⟨_, hEnd⟩
  · rw [hSame] at hSome
    have hEnd := hPaid hSome
    rw [hProgress.status.eq_of_terminal (hEnd.imp_right Or.inl)]
    exact hEnd
  · exact hEnd

theorem Progress.payout_eq (hProgress : Progress before after) {payout : TeamPayoutResult}
    (hPayout : before.finalizedPayout = some payout) : after.finalizedPayout = some payout := by
  rcases hProgress.payout with hSame | ⟨hNone, _⟩
  · exact hSame.trans hPayout
  · rw [hNone] at hPayout
    cases hPayout

/- The status of a contract that has ended agrees with its checkpoints. -/
def EndsRightly (record : TeamContractRecord) : Prop :=
  (record.status = .completed → areAllRequiredCheckpointsCompleted record.checkpoints = true) ∧
    (record.status = .failed →
      ∃ c ∈ record.checkpoints.values, c.required = true ∧ c.status = .failed)

namespace TeamContractEngine

variable (config : TeamContractEngineConfig)

/- A payout that is stored is returned and nothing is written. -/
theorem finalizePayout_again {clock : Nat → JsNumber} {call : Call} (hPaid : PaidAtEnd call.record)
    {payout : TeamPayoutResult} (hPayout : call.record.finalizedPayout = some payout)
    (totalRewardLamports : Int) :
    finalizePayout config clock totalRewardLamports call = (.ok (.payout payout), call) := by
  have hOpen : call.record.status ≠ .cancelled := by
    rcases hPaid (by simp [hPayout]) with hEnd | hEnd <;> simp [hEnd]
  rw [finalizePayout, if_neg hOpen, hPayout]

def statusAt (engine : TeamContractEngine) (id : String) : Option TeamContractStatus :=
  (engine.contracts.get? id).map (·.status)

/- A call of `startRun` takes the contract out of its draft. -/
def Starts (engine : TeamContractEngine) (call : EngineCall) (id : String) : Prop :=
  (∃ contractId, call.op = .onContract contractId .startRun) ∧ engine.statusAt id = some .draft ∧
    (apply config engine call).2.statusAt id ≠ some .draft

/- This happens in a run. -/
def StartedIn (id : String) : TeamContractEngine → List EngineCall → Prop
| _, [] => False
| engine, call :: rest => Starts config engine call id ∨
    StartedIn id (apply config engine call).2 rest

def HasStart (engine : TeamContractEngine) (id : String) : Prop :=
  ((engine.contracts.get? id).bind (·.startedAt)).isSome = true

theorem hasStart_apply (engine : TeamContractEngine) (call : EngineCall) (id : String) :
    (apply config engine call).2.HasStart id ↔
      engine.HasStart id ∨ Starts config engine call id := by
  unfold HasStart Starts statusAt
  rcases record_cases config call id with hSame | ⟨hNone, creator, template, _, hNew⟩ |
      ⟨contractId, op, before, hOp, hBefore, hAfter⟩
  · rw [hSame]
    exact ⟨Or.inl, fun h => h.resolve_right (fun hStarts => hStarts.2.2 hStarts.2.1)⟩
  · rw [hNone, hNew]
    simp [createdRecord, initialRecord]
  · rw [hBefore, hAfter]
    simp only [Option.bind_some, Option.map_some, ne_eq, Option.some.injEq, hOp,
      EngineOp.onContract.injEq]
    cases op.move config call.clock ⟨before, [], 0⟩ with
    | staff hDraft hFrame =>
      rw [hFrame.others]
      tauto
    | start hStart hStarted =>
      refine iff_of_true hStarted.started (Or.inr ⟨⟨contractId, rfl, hStart⟩, hStarted.draft, ?_⟩)
      rw [hStarted.active]
      decide
    | run hKept =>
      rw [hKept.startedAt_eq]
      refine ⟨Or.inl, ?_⟩
      rintro (hHad | ⟨⟨_, _, rfl⟩, hDraft, hLeft⟩)
      · exact hHad
      · have hStartedAt := hKept.startedAt_eq
        rcases startRun_cases config call.clock ⟨before, [], 0⟩ with hSame | hStarted
        · rw [ContractOp.run, hSame] at hLeft
          exact absurd hDraft hLeft
        · rw [← hStartedAt]
          exact hStarted.started

theorem hasStart_runCalls (engine : TeamContractEngine) (calls : List EngineCall) (id : String) :
    (runCalls config engine calls).HasStart id ↔
      engine.HasStart id ∨ StartedIn config id engine calls := by
  induction calls generalizing engine with
  | nil => exact (iff_of_eq (or_false _)).symm
  | cons call rest ih =>
    exact (ih _).trans ((or_congr_left (hasStart_apply config _ _ _)).trans or_assoc)

/- What progress keeps, later states of a contract keep. -/
theorem kept_later {P : TeamContractRecord → Prop}
    (hStep : ∀ before after, Progress before after → P before → P after)
    (calls later : List EngineCall) {id : String} {record : TeamContractRecord}
    (hGet : (runCalls config empty calls).contracts.get? id = some record) (hRecord : P record) :
    ∃ record', (runCalls config empty (calls ++ later)).contracts.get? id = some record' ∧
      P record' := by
  have hSteps := steps_runCalls config (runCalls config empty calls) later
  rw [runCalls, runCalls, ← List.foldl_append] at hSteps
  rcases exists_record_of_steps config hSteps hGet with ⟨record', hRecord', hPath⟩
  refine ⟨record', hRecord', ?_⟩
  clear hRecord'
  induction hPath with
  | refl => exact hRecord
  | tail _ hNext ih =>
    rcases hNext with ⟨op, clock, rfl⟩
    exact hStep _ _ (op.progress config clock _) ih

/-
  In every run, a contract that has ended keeps its status, a cancelled one has no payout, a stored
  payout stays and is returned again for every reward, and the start time is there exactly if
  `startRun` has taken the contract out of its draft.
-/
theorem terminal_contracts_final (calls : List EngineCall) {id : String}
    {record : TeamContractRecord}
    (hGet : (runCalls config empty calls).contracts.get? id = some record) :
    (record.status.isTerminal → ∀ later, ∃ record',
      (runCalls config empty (calls ++ later)).contracts.get? id = some record' ∧
        record'.status = record.status) ∧
      (record.status = .cancelled → record.finalizedPayout = none) ∧
      (∀ payout, record.finalizedPayout = some payout →
        (∀ later, ∃ record',
          (runCalls config empty (calls ++ later)).contracts.get? id = some record' ∧
            record'.finalizedPayout = some payout) ∧
          ∀ contractId totalRewardLamports clock,
            engineId config contractId "contract id" = .ok id →
              (apply config (runCalls config empty calls)
                ⟨.onContract contractId (.finalizePayout totalRewardLamports), false, clock⟩).1 =
                  .ok (.payout payout)) ∧
      (record.startedAt.isSome = true ↔ StartedIn config id empty calls) := by
  have hPaid : PaidAtEnd record := by
    have hSteps := steps_runCalls config empty calls
    refine Reachable.record_induction config PaidAtEnd ?_ ?_ hSteps hGet
    · exact fun _ _ _ _ hSome => absurd rfl hSome
    · exact fun op clock before => (op.progress config clock ⟨before, [], 0⟩).paidAtEnd
  refine ⟨?_, ?_, ?_, ?_⟩
  · intro hEnd later
    refine kept_later config ?_ calls later hGet rfl
    intro before after hProgress hSame
    rw [← hSame] at hEnd ⊢
    exact hProgress.status.eq_of_terminal hEnd
  · intro hCancelled
    by_contra hSome
    rcases hPaid hSome with hEnd | hEnd <;> simp [hEnd] at hCancelled
  · intro payout hPayout
    refine ⟨fun later => ?_, fun contractId totalRewardLamports clock hId => ?_⟩
    · exact kept_later config (fun _ _ hProgress => hProgress.payout_eq) calls later hGet hPayout
    · rw [apply_onContract config hId hGet]
      exact congrArg Prod.fst (finalizePayout_again config hPaid hPayout _)
  · have hStart := hasStart_runCalls config empty calls id
    have hNone : ¬ empty.HasStart id := by simp [HasStart, empty]
    rwa [or_iff_right hNone, HasStart, hGet] at hStart

/- A run whose first checkpoint fails stays failed. -/
theorem failed_sample_final :
    let calls := sampleStart ++
      [sampleCall (.onContract "team" (.failCheckpoint "draft" "alice" "lost"))]
    StartedIn sampleConfig "team" empty calls ∧ ∀ later, ∃ record',
      (runCalls sampleConfig empty (calls ++ later)).contracts.get? "team" = some record' ∧
        record'.status = .failed := by
  intro calls
  have hRecord : ∃ record, (runCalls sampleConfig empty calls).contracts.get? "team" = some record ∧
        record.status = .failed ∧ record.startedAt.isSome = true :=
    ⟨_, rfl, by decide +kernel, by decide +kernel⟩
  rcases hRecord with ⟨record, hGet, hStatus, hStarted⟩
  have hFinal := terminal_contracts_final sampleConfig calls hGet
  rw [hStatus] at hFinal
  exact ⟨hFinal.2.2.2.mp hStarted, hFinal.1 (.inr (.inl rfl))⟩

theorem endsRightly_run (op : ContractOp) (clock : Nat → JsNumber) (call : Call)
    (hEnds : EndsRightly call.record) : EndsRightly (op.run config clock call).2.record := by
  cases op with
  | joinContract member =>
    exact (rosterFrame_joinContract config clock member call).others ▸ hEnds
  | leaveContract memberId =>
    exact (rosterFrame_leaveContract config clock memberId call).others ▸ hEnds
  | assignRole memberId roleId =>
    exact (rosterFrame_assignRole config clock memberId roleId call).others ▸ hEnds
  | startRun => exact record_afterChecks hEnds fun _ _ => ⟨nofun, nofun⟩
  | cancelContract reason =>
    change EndsRightly (cancelContract config clock reason call).2.record
    unfold cancelContract
    split
    · exact hEnds
    · exact record_afterChecks hEnds fun _ _ => ⟨nofun, nofun⟩
  | completeCheckpoint checkpointId memberId outputDigest =>
    refine record_afterChecks hEnds fun found hFound => ?_
    have hActive := (get?_of_locateCompletion config hFound).1
    split
    · exact hEnds
    · refine record_afterChecks hEnds fun _ _ => ?_
      dsimp only
      split
      · exact ⟨fun _ => ‹_›, nofun⟩
      · refine ⟨fun hStatus => ?_, fun hStatus => ?_⟩ <;> cases hActive.symm.trans hStatus
  | failCheckpoint checkpointId memberId reason =>
    refine record_afterChecks hEnds fun found hFound => ?_
    rcases get?_of_locateFailure config hFound with ⟨hActive, hGet⟩
    split
    · exact hEnds
    · refine record_afterChecks hEnds fun _ _ => ?_
      change EndsRightly (recordFailure clock found.1 found.2.1 (trim reason) found.2.2 call).record
      unfold recordFailure recordAuditEvent
      dsimp only
      split
      · refine ⟨nofun, fun _ => ⟨markFailed found.2.1 (call.now clock) (trim reason) found.2.2,
          (mem_values_iff ..).mpr ⟨found.1, ?_⟩, ‹_›, rfl⟩⟩
        rw [get?_blockDependentCheckpoints, get?_set_self]
        simp [blockOpen, markFailed]
      · refine ⟨fun hStatus => ?_, fun hStatus => ?_⟩ <;> cases hActive.symm.trans hStatus
  | finalizePayout totalRewardLamports =>
    change EndsRightly (finalizePayout config clock totalRewardLamports call).2.record
    rcases finalizePayout_cases config clock totalRewardLamports call with
      ⟨_, _, _, hEq⟩ | ⟨_, _, hEq⟩ | ⟨_, _, hCheck, hPaid⟩
    · exact hEq ▸ hEnds
    · exact hEq ▸ hEnds
    · have hFinished : EndsRightly (finishRun clock call).record := by
        simp only [checkFinalizable, bind_eq_ok_iff, throwIf_eq_ok_iff] at hCheck
        unfold finishRun
        split
        · exact ⟨fun _ => by simp_all [completeRun], nofun⟩
        · exact hEnds
      rcases hPaid with ⟨_, _, hEq⟩ | ⟨_, _, hEq⟩ <;> exact hEq ▸ hFinished

/- A completed contract has completed what is required, and a failed one has failed it. -/
theorem ends_agree_with_checkpoints {engine : TeamContractEngine}
    (hReach : Reachable config engine) {id : String} {record : TeamContractRecord}
    (hGet : engine.contracts.get? id = some record) :
    EndsRightly record := by
  refine Reachable.record_induction config EndsRightly ?_ ?_ hReach hGet
  · exact fun _ _ _ _ => ⟨nofun, nofun⟩
  · exact fun op clock before => endsRightly_run config op clock ⟨before, [], 0⟩

theorem failed_sample_ends_rightly : ∃ record, sampleFailed.contracts.get? "team" = some record ∧
    record.status = .failed ∧ EndsRightly record := by
  have hRecord : ∃ record, sampleFailed.contracts.get? "team" = some record ∧
      record.status = .failed := ⟨_, rfl, by decide +kernel⟩
  rcases hRecord with ⟨record, hGet, hStatus⟩
  exact ⟨record, hGet, hStatus,
    ends_agree_with_checkpoints sampleConfig (steps_runCalls sampleConfig empty _) hGet⟩

end TeamContractEngine

end AgencCore.Team
