import AgencCore.Team.PayoutModes

/-
  Lamports are conserved by the payout computation.

  Each stage of `computeTeamPayout` moves lamports between the role amounts, the penalty pool, the
  unallocated rest and the members, and keeps their sum. `PayoutChecks` are the conditions under
  which the computation returns.

  Main declarations:
  * `allocateByMode_returns`
  * `applyPenalties_returns`
  * `redistributePool_returns`
  * `payRoles_returns`
  * `computeTeamPayout_conserves_lamports`
-/

namespace AgencCore.Team

open Foundations List OrderedMap

section

variable (host : TextHost)

/- The checks a payout mode makes on its table. -/
def ModeChecks (mode : TeamPayoutMode) (roleIds : List String)
    (checkpoints : List TeamCheckpointState) : Prop :=
  match mode with
  | .fixed rolePayoutBps =>
    sumNumbers (initializeNumericRoleMap roleIds rolePayoutBps).objectValues = 10000 ∧
      ∀ entry ∈ (initializeNumericRoleMap roleIds rolePayoutBps).objectEntries, bpsOk entry.2 = true
  | .weighted roleWeights =>
    (sumNumbers (initializeNumericRoleMap roleIds roleWeights).objectValues).le 0 = false ∧
      ∀ entry ∈ (initializeNumericRoleMap roleIds roleWeights).objectEntries,
        entry.2.isInteger = true ∧ entry.2.lt 0 = false
  | .milestone milestoneBps =>
    (∀ checkpoint ∈ checkpoints, checkpoint.status = .completed →
        bpsOk (numberAt milestoneBps checkpoint.id) = true ∧ checkpoint.roleId ∈ roleIds) ∧
      (10000 : JsNumber).lt (sumNumbers (completedBps milestoneBps checkpoints)) = false

section ModeStage

variable {input : TeamPayoutComputationInput}
variable {roleIds : List String}
variable {checkpoints : List TeamCheckpointState}

theorem allocateByMode_returns (hTotal : 0 ≤ input.totalRewardLamports) (hNodup : roleIds.Nodup)
    (hProto : "__proto__" ∉ roleIds)
    (hChecks : ModeChecks input.template.payout.mode roleIds checkpoints) :
    ∃ split, allocateByMode host input roleIds checkpoints = .ok split ∧
        SplitOf input.totalRewardLamports roleIds split := by
  unfold allocateByMode
  cases hMode : input.template.payout.mode with
  | fixed rolePayoutBps =>
    rw [hMode] at hChecks
    exact allocateFixed_returns host hTotal hNodup hProto hChecks.1 hChecks.2
  | weighted roleWeights =>
    rw [hMode] at hChecks
    exact allocateWeighted_returns host hTotal hNodup hProto hChecks.1 hChecks.2
  | milestone milestoneBps =>
    rw [hMode] at hChecks
    exact allocateMilestone_returns host hTotal hNodup hProto hChecks.1 hChecks.2

/- A mode stage that returns has passed its checks. -/
theorem modeChecks_of_allocateByMode (hNodup : roleIds.Nodup) (hProto : "__proto__" ∉ roleIds)
    {split : RoleSplit} (hOk : allocateByMode host input roleIds checkpoints = .ok split) :
    ModeChecks input.template.payout.mode roleIds checkpoints := by
  unfold allocateByMode at hOk
  cases hMode : input.template.payout.mode with
  | fixed rolePayoutBps =>
    simp only [hMode, allocateFixed, bind_eq_ok_iff, throwIf_eq_ok_iff, forEachM_eq_ok_iff,
      assertBps_eq_ok_iff, decide_eq_false_iff_not, not_not] at hOk
    rcases hOk with ⟨_, hSum, _, hBps, _⟩
    exact ⟨hSum, hBps⟩
  | weighted roleWeights =>
    simp only [hMode, allocateWeighted, bind_eq_ok_iff, throwIf_eq_ok_iff, forEachM_eq_ok_iff,
      Bool.or_eq_false_iff, Bool.not_eq_false'] at hOk
    rcases hOk with ⟨_, hSum, _, hEntries, _⟩
    exact ⟨hSum, hEntries⟩
  | milestone milestoneBps =>
    simp only [hMode, allocateMilestone, bind_eq_ok_iff, throwIf_eq_ok_iff] at hOk
    rcases hOk with ⟨realized, hRun, _, hLt, _⟩
    have hInitial := realizedOk_initial hNodup hProto
    have hChecked := bpsOk_of_realize host hInitial.book hRun
    rcases realize_returns host hProto hChecked hInitial with ⟨realized', hRun', _, hPoints⟩
    rw [hRun] at hRun'
    cases hRun'
    refine ⟨hChecked, ?_⟩
    rw [hPoints] at hLt
    exact hLt

end ModeStage

----------
-- Penalties
----------

/- Books of amounts and penalties that keep the total. -/
structure PenalizedOf (total : Int) (roleIds : List String) (acc : Penalized) : Prop where
  payouts : RoleBook roleIds acc.rolePayouts
  penalties : RoleBook roleIds acc.rolePenalties
  pool_nonneg : 0 ≤ acc.penaltyPool
  total_eq : acc.rolePayouts.total + acc.penaltyPool = total

section PenaltyStage

variable {total : Int}
variable (failedRoles : List String)
variable {roleIds : List String}
variable {penaltyTable : Record JsNumber}

theorem penalizeRole_returns (hProto : "__proto__" ∉ roleIds) {acc : Penalized}
    (hAcc : PenalizedOf total roleIds acc) {roleId : String} (hMem : roleId ∈ roleIds)
    (hBps : bpsOk (numberAt penaltyTable roleId) = true) :
    ∃ acc', penalizeRole host failedRoles penaltyTable acc roleId = .ok acc' ∧
        PenalizedOf total roleIds acc' := by
  simp only [penalizeRole, bind_eq_ok_iff, assertBps_eq_ok_iff]
  by_cases hSkip : roleId ∉ failedRoles ∨ numberAt penaltyTable roleId = 0
  · exact ⟨acc, ⟨(), hBps, by rw [if_pos hSkip]⟩, hAcc⟩
  · rcases int_of_bpsOk hBps with ⟨n, hn, hn0, hn1⟩
    have hAmount := hAcc.payouts.nonneg roleId
    rcases share_bounds hAmount hn0 hn1 with ⟨hPenalty0, hPenaltyLe⟩
    set amount := acc.rolePayouts.amount roleId
    set penalty := (amount * n).tdiv 10000
    have hPool := hAcc.pool_nonneg
    have hTotal := hAcc.total_eq
    refine
      ⟨{ rolePayouts := Record.assign acc.rolePayouts roleId (amount - penalty)
         rolePenalties := Record.assign acc.rolePenalties roleId penalty
         penaltyPool := acc.penaltyPool + penalty }, ⟨(), hBps, ?_⟩,
        { payouts := hAcc.payouts.assign hMem (by omega)
          penalties := hAcc.penalties.assign hMem hPenalty0, pool_nonneg := by simp only; omega
          total_eq := ?_ }⟩
    · rw [if_neg hSkip]
      simp only [bind_eq_ok_iff]
      exact ⟨_, hAcc.payouts.bigintAt_eq hMem, n, by rw [hn]; exact toBigInt_ofInt host n, rfl⟩
    · simp only
      rw [total_assign _ (ne_of_mem_of_not_mem hMem hProto)]
      omega

theorem applyPenalties_returns (payout : TeamPayoutConfig) (hNodup : roleIds.Nodup)
    (hProto : "__proto__" ∉ roleIds) {rolePayouts : Record Int}
    (hBook : RoleBook roleIds rolePayouts)
    (hBps : ∀ roleId ∈ roleIds,
        bpsOk (numberAt (payout.roleFailurePenaltyBps.getD OrderedMap.empty) roleId) = true) :
    ∃ penalized, applyPenalties host payout failedRoles roleIds rolePayouts = .ok penalized ∧
        PenalizedOf rolePayouts.total roleIds penalized := by
  apply foldlM_returns
  · intro roleId hMem acc hAcc
    exact penalizeRole_returns host failedRoles hProto hAcc hMem (hBps roleId hMem)
  · exact
      { payouts := hBook, penalties := roleBook_initializeRoleMap hNodup hProto
        pool_nonneg := le_rfl, total_eq := add_zero _ }

omit failedRoles in
theorem bpsOk_of_applyPenalties {failedRoles : List String} {payout : TeamPayoutConfig}
    {rolePayouts : Record Int} {penalized : Penalized}
    (hOk : applyPenalties host payout failedRoles roleIds rolePayouts = .ok penalized) :
    ∀ roleId ∈ roleIds,
      bpsOk (numberAt (payout.roleFailurePenaltyBps.getD OrderedMap.empty) roleId) = true := by
  refine (foldlM_invariant (fun roleId _ acc acc' (_ : True) hStep => ?_) trivial hOk).2
  simp only [penalizeRole, bind_eq_ok_iff, assertBps_eq_ok_iff] at hStep
  rcases hStep with ⟨_, hBps, _⟩
  exact ⟨trivial, hBps⟩

end PenaltyStage

----------
-- Redistribution
----------

def PositiveWeights (roleIds : List String) (weights : OrderedMap String Int) : Prop :=
  ∀ k ∈ weights.keys, k ∈ roleIds ∧ 0 < weights.amount k

variable {weights : OrderedMap String Int}

theorem PositiveWeights.nonneg {roleIds : List String}
    (hWeights : PositiveWeights roleIds weights) : weights.Nonneg := by
  intro k
  by_cases hMem : k ∈ weights.keys
  · exact (hWeights k hMem).2.le
  · rw [amount_of_not_mem hMem]

theorem PositiveWeights.set {roleIds : List String}
    (hWeights : PositiveWeights roleIds weights) {k : String} (hMem : k ∈ roleIds) {v : Int}
    (hv : 0 < v) : PositiveWeights roleIds (weights.set k v) := by
  intro j hj
  rw [amount_set]
  rw [mem_keys_set] at hj
  by_cases hEq : k = j
  · rw [if_pos hEq, ← hEq]
    exact ⟨hMem, hv⟩
  · rw [if_neg hEq]
    rcases hj with hSelf | hOld
    · exact (hEq hSelf.symm).elim
    · exact hWeights j hOld

theorem PositiveWeights.total_pos {roleIds : List String}
    (hWeights : PositiveWeights roleIds weights) {k : String} (hMem : k ∈ weights.keys) :
    0 < weights.total := OrderedMap.total_pos hWeights.nonneg (hWeights k hMem).2

theorem eligibleWeightsOf_returns (failedRoles : List String) {roleIds : List String}
    {rolePayouts : Record Int} (hBook : RoleBook roleIds rolePayouts) :
    ∃ weights, eligibleWeightsOf failedRoles roleIds rolePayouts = .ok weights ∧
        PositiveWeights roleIds weights := by
  apply foldlM_returns
  · intro roleId hMem weights hWeights
    by_cases hFailed : roleId ∈ failedRoles
    · exact ⟨weights, by rw [if_pos hFailed], hWeights⟩
    · rw [if_neg hFailed]
      simp only [bind_eq_ok_iff]
      by_cases hLe : rolePayouts.amount roleId ≤ 0
      · exact ⟨weights, ⟨_, hBook.bigintAt_eq hMem, by rw [if_pos hLe]⟩, hWeights⟩
      · exact ⟨_, ⟨_, hBook.bigintAt_eq hMem, by rw [if_neg hLe]⟩, hWeights.set hMem (by omega)⟩
  · intro k hk
    simp [OrderedMap.keys, OrderedMap.empty] at hk

/- The outcome of the redistribution keeps the total. -/
structure RedistributedOf (total : Int) (roleIds : List String) (acc : Redistributed) : Prop where
  payouts : RoleBook roleIds acc.rolePayouts
  unallocated_nonneg : 0 ≤ acc.unallocatedLamports
  total_eq : acc.rolePayouts.total + acc.unallocatedLamports = total

theorem redistributePool_returns (payout : TeamPayoutConfig) (failedRoles : List String)
    {roleIds : List String} (hProto : "__proto__" ∉ roleIds) {total unallocated : Int}
    {penalized : Penalized} (hPenalized : PenalizedOf total roleIds penalized)
    (hUnallocated : 0 ≤ unallocated) :
    ∃ redistributed,
      redistributePool host payout failedRoles roleIds penalized unallocated = .ok redistributed ∧
        RedistributedOf (total + unallocated) roleIds redistributed := by
  have hTotal := hPenalized.total_eq
  have hPool := hPenalized.pool_nonneg
  -- the pool joins the unallocated lamports
  have hKeep : RedistributedOf (total + unallocated) roleIds
        ⟨penalized.rolePayouts, unallocated + penalized.penaltyPool, 0⟩ :=
    { payouts := hPenalized.payouts, unallocated_nonneg := by simp only; omega
      total_eq := by simp only; omega }
  unfold redistributePool
  by_cases hEmpty : penalized.penaltyPool ≤ 0
  · rw [if_pos hEmpty]
    refine ⟨_, rfl, hPenalized.payouts, hUnallocated, ?_⟩
    simp only
    omega
  · rw [if_neg hEmpty]
    by_cases hOff : payout.redistributePenalties = some false
    · rw [if_pos hOff]
      exact ⟨_, rfl, hKeep⟩
    · rw [if_neg hOff]
      rcases eligibleWeightsOf_returns failedRoles hPenalized.payouts with
        ⟨weights, hEligible, hWeights⟩
      simp only [bind_eq_ok_iff]
      by_cases hSize : weights.size = 0
      · exact ⟨_, ⟨weights, hEligible, by rw [if_pos hSize]⟩, hKeep⟩
      · have hKeys : weights.keys ≠ [] := by simpa [OrderedMap.size, OrderedMap.keys] using hSize
        rcases exists_mem_of_ne_nil _ hKeys with ⟨k, hMem⟩
        rcases allocateByWeights_returns host hPool hWeights.nonneg (hWeights.total_pos hMem) with
          ⟨shares, hShares, hSplit⟩
        have hRoles : ∀ k ∈ shares.keys, k ∈ roleIds :=
          fun k hk => (hWeights k ((hSplit.keys k).mp hk)).1
        refine
          ⟨⟨mergeAmounts penalized.rolePayouts shares, unallocated, shares.total⟩,
            ⟨weights, hEligible, ?_⟩, roleBook_mergeAmounts hPenalized.payouts hSplit.nonneg hRoles,
            hUnallocated, ?_⟩
        · rw [if_neg hSize, bind_eq_ok_iff]
          exact ⟨shares, hShares, rfl⟩
        · simp only
          rw [total_mergeAmounts _ (fun hMem => hProto (hRoles _ hMem)), hSplit.total_eq]
          omega

----------
-- Members
----------

/- Give each listed member its weight when it is positive. -/
def weighMembers (weightOf : String → Int) (members : List String)
    (weights : OrderedMap String Int) : OrderedMap String Int :=
  members.foldl
    (fun acc memberId => if weightOf memberId > 0 then acc.set memberId (weightOf memberId)
      else acc) weights

theorem positive_weighMembers (weightOf : String → Int) (members : List String) :
    PositiveWeights members (weighMembers weightOf members OrderedMap.empty) := by
  unfold weighMembers
  refine List.foldlRecOn (motive := PositiveWeights members) members _ ?_ ?_
  · intro k hk
    simp [OrderedMap.keys, OrderedMap.empty] at hk
  · intro weights hWeights memberId hMem
    split
    · rename_i hPos
      exact hWeights.set hMem hPos
    · exact hWeights

theorem mem_keys_weighMembers {weightOf : String → Int} {k : String} (hPos : weightOf k > 0)
    {members : List String} {weights : OrderedMap String Int}
    (hMem : k ∈ members ∨ k ∈ weights.keys) : k ∈ (weighMembers weightOf members weights).keys := by
  unfold weighMembers
  induction members generalizing weights with
  | nil => exact hMem.resolve_left not_mem_nil
  | cons memberId rest ih =>
    rw [foldl_cons]
    apply ih
    rw [mem_cons] at hMem
    by_cases hEq : k = memberId
    · rw [← hEq, if_pos hPos, mem_keys_set]
      exact Or.inr (Or.inl rfl)
    · split
      · rw [mem_keys_set]
        tauto
      · tauto

theorem effectiveWeightsOf_eq (roleId : String) (members : List String)
    (checkpoints : List TeamCheckpointState) :
    effectiveWeightsOf roleId members checkpoints =
      weighMembers
        (if (contributionWeightsOf roleId members checkpoints).total > 0 then
          (contributionWeightsOf roleId members checkpoints).amount
        else fun _ => 1) members OrderedMap.empty := by
  by_cases hPos : (contributionWeightsOf roleId members checkpoints).total > 0
  · simp only [effectiveWeightsOf, weighMembers, hPos, if_true]
  · simp only [effectiveWeightsOf, weighMembers, hPos, if_false]
    simp

theorem mem_members_of_contribution (roleId : String) (members : List String)
    (checkpoints : List TeamCheckpointState) :
    ∀ k ∈ (contributionWeightsOf roleId members checkpoints).keys, k ∈ members := by
  unfold contributionWeightsOf
  refine List.foldlRecOn (motive := fun w : OrderedMap String Int => ∀ k ∈ w.keys, k ∈ members)
    checkpoints _ ?_ ?_
  · refine List.foldlRecOn (motive := fun w : OrderedMap String Int => ∀ k ∈ w.keys, k ∈ members)
      members _ ?_ ?_
    · intro k hk
      simp [OrderedMap.keys, OrderedMap.empty] at hk
    · intro w hw memberId hMem k hk
      rw [mem_keys_set] at hk
      rcases hk with hEq | hOld
      · rw [hEq]
        exact hMem
      · exact hw k hOld
  · intro w hw checkpoint _
    cases contributor? roleId checkpoint with
    | none => exact hw
    | some memberId =>
      simp only
      split
      · rename_i hHas
        rw [has_iff_mem_keys] at hHas
        intro k hk
        rw [keys_set_of_mem w _ hHas] at hk
        exact hw k hk
      · exact hw

variable {members : List String}

/- A positive total of contributions names a contributor. -/
theorem exists_contributor {roleId : String}
    {checkpoints : List TeamCheckpointState}
    (hPos : (contributionWeightsOf roleId members checkpoints).total > 0) :
    ∃ k ∈ members, (contributionWeightsOf roleId members checkpoints).amount k > 0 := by
  set weights := contributionWeightsOf roleId members checkpoints
  rw [total_eq_sum_amount] at hPos
  have hSum :
      (weights.keys.map (fun _ => (0 : Int))).sum < (weights.keys.map weights.amount).sum := by
    simpa using hPos
  rcases exists_lt_of_sum_lt _ _ hSum with ⟨k, hk, hLt⟩
  exact ⟨k, mem_members_of_contribution roleId members checkpoints k hk, hLt⟩

theorem effectiveWeightsOf_spec (roleId : String) (hMembers : members ≠ [])
    (checkpoints : List TeamCheckpointState) :
    PositiveWeights members (effectiveWeightsOf roleId members checkpoints) ∧
      0 < (effectiveWeightsOf roleId members checkpoints).total := by
  rw [effectiveWeightsOf_eq]
  set weightOf : String → Int :=
    if (contributionWeightsOf roleId members checkpoints).total > 0 then
      (contributionWeightsOf roleId members checkpoints).amount
    else fun _ => 1 with hWeightOf
  have hSome : ∃ k ∈ members, weightOf k > 0 := by
    rw [hWeightOf]
    split
    · rename_i hPos
      exact exists_contributor hPos
    · cases members with
      | nil => exact (hMembers rfl).elim
      | cons first rest => exact ⟨first, by simp, by simp⟩
  have hPositive := positive_weighMembers weightOf members
  rcases hSome with ⟨k, hk, hPos⟩
  exact ⟨hPositive, hPositive.total_pos (mem_keys_weighMembers hPos (Or.inl hk))⟩

def MemberSplit.lamports (acc : MemberSplit) : Int :=
  acc.memberPayouts.total + acc.unallocatedLamports

/- No member and no rest is negative. -/
structure MemberSplit.Nonneg (acc : MemberSplit) : Prop where
  payouts : acc.memberPayouts.Nonneg
  unallocated : 0 ≤ acc.unallocatedLamports

section MemberStage

variable {roleIds : List String}
variable (checkpoints : List TeamCheckpointState)
variable {roleAssignments : Record (List String)}
variable {rolePayouts : Record Int}
variable {acc : MemberSplit}

theorem payRole_returns (hBook : RoleBook roleIds rolePayouts)
    (hAcc : acc.Nonneg) {roleId : String} (hMem : roleId ∈ roleIds) {assigned : List String}
    (hAssigned : assignedAt roleAssignments roleId = .ok assigned) :
    ∃ acc',
      payRole host checkpoints roleAssignments rolePayouts acc roleId = .ok acc' ∧ acc'.Nonneg ∧
        ("__proto__" ∉ assigned → acc'.lamports = acc.lamports + rolePayouts.amount roleId) := by
  have hAmount := hBook.nonneg roleId
  have hUnallocated := hAcc.unallocated
  simp only [payRole, bind_eq_ok_iff]
  by_cases hZero : rolePayouts.amount roleId = 0
  · exact ⟨acc, ⟨_, hBook.bigintAt_eq hMem, by rw [if_pos hZero]⟩, hAcc,
      fun _ => by rw [hZero, add_zero]⟩
  · by_cases hEmpty : (host.sort assigned).length = 0
    · refine
        ⟨{ acc with unallocatedLamports := acc.unallocatedLamports + rolePayouts.amount roleId },
          ⟨_, hBook.bigintAt_eq hMem, ?_⟩, ⟨hAcc.payouts, by simp only; omega⟩, ?_⟩
      · rw [if_neg hZero, bind_eq_ok_iff]
        exact ⟨assigned, hAssigned, by rw [if_pos hEmpty]⟩
      · intro _
        simp only [MemberSplit.lamports]
        omega
    · have hMembers : host.sort assigned ≠ [] := by
        intro hNil
        rw [hNil] at hEmpty
        exact hEmpty rfl
      rcases effectiveWeightsOf_spec roleId hMembers checkpoints with ⟨hWeights, hPos⟩
      rcases allocateByWeights_returns host hAmount hWeights.nonneg hPos with ⟨shares, hShares, hSplit⟩
      refine
        ⟨{ acc with memberPayouts := mergeAmounts acc.memberPayouts shares },
          ⟨_, hBook.bigintAt_eq hMem, ?_⟩,
          ⟨nonneg_mergeAmounts hAcc.payouts hSplit.nonneg, hUnallocated⟩, ?_⟩
      · rw [if_neg hZero, bind_eq_ok_iff]
        refine ⟨assigned, hAssigned, ?_⟩
        rw [if_neg hEmpty, bind_eq_ok_iff]
        exact ⟨shares, hShares, rfl⟩
      · intro hProto
        have hAbsent : "__proto__" ∉ shares.keys := by
          intro hIn
          have hIn' := (hWeights _ ((hSplit.keys _).mp hIn)).1
          rw [TextHost.sort, mem_sortBy] at hIn'
          exact hProto hIn'
        simp only [MemberSplit.lamports]
        rw [total_mergeAmounts _ hAbsent, hSplit.total_eq]
        ring

/-
  The loop over the roles pays out every role amount. The roles still to be paid carry the missing
  lamports.
-/
theorem payRoles_returns (hBook : RoleBook roleIds rolePayouts) {rest : List String}
    (hRest : ∀ roleId ∈ rest, roleId ∈ roleIds)
    (hAssigned : ∀ roleId ∈ rest, ∃ assigned, assignedAt roleAssignments roleId = .ok assigned)
    (hAcc : acc.Nonneg) :
    ∃ acc', rest.foldlM (payRole host checkpoints roleAssignments rolePayouts) acc = .ok acc' ∧
        acc'.Nonneg ∧
        ((∀ roleId ∈ rest, ∀ assigned,
            assignedAt roleAssignments roleId = .ok assigned → "__proto__" ∉ assigned) →
          acc'.lamports = acc.lamports + (rest.map rolePayouts.amount).sum) := by
  induction rest generalizing acc with
  | nil => exact ⟨acc, rfl, hAcc, fun _ => by simp⟩
  | cons roleId rest ih =>
    rcases hAssigned roleId mem_cons_self with ⟨assigned, hRead⟩
    rcases payRole_returns host checkpoints hBook hAcc (hRest roleId mem_cons_self)
        hRead with ⟨acc₁, hStep, hAcc₁, hPaid₁⟩
    rcases ih (fun r hr => hRest r (mem_cons_of_mem roleId hr))
        (fun r hr => hAssigned r (mem_cons_of_mem roleId hr)) hAcc₁ with
      ⟨acc', hRun, hAcc', hPaid'⟩
    refine ⟨acc', ?_, hAcc', ?_⟩
    · rw [foldlM_cons, bind_eq_ok_iff]
      exact ⟨acc₁, hStep, hRun⟩
    · intro hProto
      rw [hPaid' (fun r hr => hProto r (mem_cons_of_mem roleId hr)),
        hPaid₁ (hProto roleId mem_cons_self assigned hRead), map_cons, sum_cons]
      ring

end MemberStage

----------
-- The Whole Computation
----------

def TeamPayoutComputationInput.roleIds (input : TeamPayoutComputationInput) : List String :=
  host.sort (input.template.roles.map (·.id))

/- The conditions under which a payout is computed. -/
structure PayoutChecks (input : TeamPayoutComputationInput) : Prop where
  reward_nonneg : 0 ≤ input.totalRewardLamports
  proto_not_role : "__proto__" ∉ input.roleIds host
  mode : ModeChecks input.template.payout.mode (input.roleIds host) input.checkpoints.objectValues
  penalties : ∀ roleId ∈ input.roleIds host, bpsOk
        (numberAt (input.template.payout.roleFailurePenaltyBps.getD OrderedMap.empty) roleId) = true

/- What a computed payout accounts for. -/
structure PayoutOf (input : TeamPayoutComputationInput) (result : TeamPayoutResult) : Prop where
  rolePayouts : result.rolePayouts.Nonneg
  rolePenalties : result.rolePenalties.Nonneg
  memberPayouts : result.memberPayouts.Nonneg
  unallocated : 0 ≤ result.unallocatedLamports
  total_eq : (∀ roleId ∈ input.roleIds host, ∀ assigned,
        assignedAt input.roleAssignments roleId = .ok assigned → "__proto__" ∉ assigned) →
      result.memberPayouts.total + result.unallocatedLamports = input.totalRewardLamports

section Computation

variable {host}
variable {input : TeamPayoutComputationInput}

theorem computeTeamPayout_returns (hNodup : (input.template.roles.map (·.id)).Nodup)
    (hChecks : PayoutChecks host input)
    (hAssigned : ∀ roleId ∈ input.roleIds host, ∃ assigned,
        assignedAt input.roleAssignments roleId = .ok assigned) :
    ∃ result, computeTeamPayout host input = .ok result ∧ PayoutOf host input result := by
  have hSorted : (input.roleIds host).Nodup := nodup_sortBy.mpr hNodup
  have hProto := hChecks.proto_not_role
  rcases allocateByMode_returns host hChecks.reward_nonneg hSorted hProto hChecks.mode with
    ⟨split, hSplit, hSplitOf⟩
  rcases applyPenalties_returns host (failedRolesOf input.checkpoints.objectValues)
      input.template.payout hSorted hProto hSplitOf.book hChecks.penalties with
    ⟨penalized, hPenalized, hPenalizedOf⟩
  rcases redistributePool_returns host input.template.payout
      (failedRolesOf input.checkpoints.objectValues) hProto
      hPenalizedOf hSplitOf.unallocated_nonneg with
    ⟨redistributed, hRedistributed, hRedistributedOf⟩
  rcases payRoles_returns host input.checkpoints.objectValues hRedistributedOf.payouts
      (fun _ hr => hr) hAssigned
      (⟨nonneg_empty, hRedistributedOf.unallocated_nonneg⟩ :
        MemberSplit.Nonneg ⟨OrderedMap.empty, redistributed.unallocatedLamports⟩) with
    ⟨paid, hPaid, hPaidNonneg, hPaidTotal⟩
  refine
    ⟨{ mode := input.template.payout.mode.modeName, totalRewardLamports := input.totalRewardLamports
       rolePayouts := redistributed.rolePayouts, memberPayouts := paid.memberPayouts
       rolePenalties := penalized.rolePenalties
       redistributedLamports := redistributed.redistributedLamports
       unallocatedLamports := paid.unallocatedLamports }, ?_, ?_⟩
  · simp only [computeTeamPayout, bind_eq_ok_iff,
      throwIf_eq_ok_iff, decide_eq_false_iff_not, not_lt]
    exact ⟨(), hChecks.reward_nonneg, split, hSplit,
      penalized, hPenalized, redistributed, hRedistributed, paid, hPaid, rfl⟩
  · refine
      { rolePayouts := hRedistributedOf.payouts.nonneg
        rolePenalties := hPenalizedOf.penalties.nonneg, memberPayouts := hPaidNonneg.payouts
        unallocated := hPaidNonneg.unallocated, total_eq := ?_ }
    intro hMembers
    have hRoles := hRedistributedOf.payouts.total_eq hSorted
    calc
      paid.memberPayouts.total + paid.unallocatedLamports =
          MemberSplit.lamports ⟨OrderedMap.empty, redistributed.unallocatedLamports⟩ +
            ((input.roleIds host).map redistributed.rolePayouts.amount).sum := hPaidTotal hMembers
      _ = redistributed.rolePayouts.total + redistributed.unallocatedLamports := by
        rw [← hRoles]
        simp only [MemberSplit.lamports, total_empty]
        ring
      _ = split.rolePayouts.total + split.unallocatedLamports := hRedistributedOf.total_eq
      _ = input.totalRewardLamports := hSplitOf.total_eq

/- A payout that is computed has passed the checks. -/
theorem payoutChecks_of_computeTeamPayout
    (hNodup : (input.template.roles.map (·.id)).Nodup)
    (hProto : "__proto__" ∉ input.roleIds host) {result : TeamPayoutResult}
    (hOk : computeTeamPayout host input = .ok result) : PayoutChecks host input := by
  have hSorted : (input.roleIds host).Nodup := nodup_sortBy.mpr hNodup
  simp only [computeTeamPayout, bind_eq_ok_iff, throwIf_eq_ok_iff, decide_eq_false_iff_not,
    not_lt] at hOk
  rcases hOk with ⟨_, hReward, split, hSplit, penalized, hPenalized, _⟩
  exact
    { reward_nonneg := hReward, proto_not_role := hProto
      mode := modeChecks_of_allocateByMode host hSorted hProto hSplit
      penalties := bpsOk_of_applyPenalties host hPenalized }

end Computation

/- Ordinary role names have a readable assignment. -/
theorem assignedAt_returns {roleAssignments : Record (List String)} {roleId : String}
    (hName : roleId ∉ objectPrototypeNames) :
    assignedAt roleAssignments roleId = .ok ((roleAssignments.get? roleId).getD []) := by
  unfold assignedAt
  cases hGet : roleAssignments.get? roleId with
  | some members => rfl
  | none =>
    simp only
    rw [if_neg hName]
    rfl

/-
  Whenever the payout of an accepted template is computed, the member payouts and the unallocated
  lamports add up to the reward and nothing is negative.
-/
theorem computeTeamPayout_conserves_lamports (host : TextHost) {raw template : TeamTemplate}
    {requireSingleParent : Option Bool} (input : TeamPayoutComputationInput)
    (result : TeamPayoutResult) (hNormalize : normalizeTeamTemplate host raw = .ok template)
    (hValidate : validateTeamTemplate template requireSingleParent = .ok ())
    (hTemplate : input.template = template)
    (hRoleNames : ∀ role ∈ template.roles, role.id ∉ objectPrototypeNames)
    (hMemberNames : ∀ roleId members, input.roleAssignments.get? roleId = some members →
          ∀ memberId ∈ members, memberId ∉ objectPrototypeNames)
    (hOk : computeTeamPayout host input = .ok result) :
    result.memberPayouts.values.sum + result.unallocatedLamports = input.totalRewardLamports ∧
      (∀ amount ∈ result.memberPayouts.values, 0 ≤ amount) ∧
      (∀ amount ∈ result.rolePayouts.values, 0 ≤ amount) ∧
      (∀ amount ∈ result.rolePenalties.values, 0 ≤ amount) ∧ 0 ≤ result.unallocatedLamports := by
  subst hTemplate
  have hAccepted := acceptedTemplate_of_ok hNormalize hValidate
  have hNodup := hAccepted.roleIds_nodup
  have hNames : ∀ roleId ∈ input.roleIds host, roleId ∉ objectPrototypeNames := by
    intro roleId hMem
    rw [TeamPayoutComputationInput.roleIds, TextHost.sort, mem_sortBy] at hMem
    rcases List.mem_map.mp hMem with ⟨role, hRole, rfl⟩
    exact hRoleNames role hRole
  have hProto : "__proto__" ∉ input.roleIds host := fun hMem => hNames _ hMem (by decide)
  rcases computeTeamPayout_returns hNodup (payoutChecks_of_computeTeamPayout hNodup hProto hOk)
      (fun roleId hMem => ⟨_, assignedAt_returns (hNames roleId hMem)⟩) with
    ⟨result', hOk', hPayout⟩
  rw [hOk] at hOk'
  cases hOk'
  have hMembers : ∀ roleId ∈ input.roleIds host, ∀ assigned,
        assignedAt input.roleAssignments roleId = .ok assigned → "__proto__" ∉ assigned := by
    intro roleId hMem assigned hRead
    rw [assignedAt_returns (hNames roleId hMem)] at hRead
    cases hRead
    cases hGet : input.roleAssignments.get? roleId with
    | none => simp
    | some members =>
      intro hIn
      exact hMemberNames roleId members hGet _ hIn (by decide)
  exact
    ⟨hPayout.total_eq hMembers, values_nonneg hPayout.memberPayouts,
      values_nonneg hPayout.rolePayouts, values_nonneg hPayout.rolePenalties,
      hPayout.unallocated⟩

/- The draft was completed and the review failed. -/
def samplePayoutInput : TeamPayoutComputationInput :=
  { totalRewardLamports := 101, template := sampleNormalized
    checkpoints := OrderedMap.ofList
      [("check",
          ⟨"check", "review", "Check", ["draft"], true,
            .failed, none, none, none, some "bob", some 9, some "late"⟩),
        ("draft",
          ⟨"draft", "build", "Draft", [], true, .completed,
            some "alice", some 5, none, none, none, none⟩)]
    roleAssignments := OrderedMap.ofList [("build", ["alice"]), ("review", ["bob"])] }

/- The penalty of the reviewer goes to the builder. -/
def samplePayoutResult : TeamPayoutResult :=
  { mode := .fixed, totalRewardLamports := 101
    rolePayouts := OrderedMap.ofList [("build", 81), ("review", 20)]
    memberPayouts := OrderedMap.ofList [("alice", 81), ("bob", 20)]
    rolePenalties := OrderedMap.ofList [("build", 0), ("review", 20)], redistributedLamports := 20
    unallocatedLamports := 0 }

theorem samplePayout_conserves_lamports :
    samplePayoutResult.memberPayouts.values.sum + samplePayoutResult.unallocatedLamports =
      samplePayoutInput.totalRewardLamports :=
  (computeTeamPayout_conserves_lamports TextHost.basic samplePayoutInput samplePayoutResult
    normalize_sampleTemplate validate_sampleNormalized rfl (by decide)
    (by
      intro roleId members hGet
      have hMem := mem_of_get?_ofList hGet
      simp only [mem_cons, Prod.mk.injEq, not_mem_nil, or_false] at hMem
      rcases hMem with ⟨_, rfl⟩ | ⟨_, rfl⟩ <;> decide) (by decide +kernel)).1

end

end AgencCore.Team
