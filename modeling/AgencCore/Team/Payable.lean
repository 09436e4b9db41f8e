import AgencCore.Team.PayoutConservation
import AgencCore.Team.Roster

/-
  Which finished contracts can be paid.

  The validator accepts payout tables that the payout computation rejects. `Payable` is what the
  computation asks of a contract beyond what the validator has checked, and a finished contract is
  paid exactly when it holds.
-/

namespace AgencCore.Team

open Foundations List OrderedMap JsNumber

variable {l : List JsNumber}

theorem sumNumbers_perm {l' : List JsNumber} (hPerm : l.Perm l') :
    sumNumbers l = sumNumbers l' := by
  unfold sumNumbers
  exact hPerm.foldl_eq' (fun a _ b _ acc => add_exchange acc a b) 0

/- A non-negative integer or a name that is inherited. -/
def NaturalOrInherited (value : JsNumber) : Prop :=
  value = .nan ∨ ∃ n : Nat, value = JsNumber.ofInt n

theorem naturalOrInherited_numberAt {table : Record JsNumber} (hNatural : NaturalRecord table)
    (key : String) : NaturalOrInherited (numberAt table key) := by
  unfold numberAt
  cases hGet : table.get? key with
  | some value => exact Or.inr (hNatural key value hGet)
  | none =>
    simp only
    split
    · exact Or.inl rfl
    · exact Or.inr ⟨0, rfl⟩

theorem foldl_add_nan (l : List JsNumber) : l.foldl JsNumber.add .nan = .nan := by
  induction l with
  | nil => rfl
  | cons a rest ih =>
    have hStep : JsNumber.add .nan a = .nan := by cases a <;> rfl
    rw [foldl_cons, hStep, ih]

/- One inherited name spoils the whole sum. -/
theorem sumNumbers_eq_nan (hMem : JsNumber.nan ∈ l) : sumNumbers l = .nan := by
  rcases append_of_mem hMem with ⟨before, after, rfl⟩
  have hPerm : (before ++ JsNumber.nan :: after).Perm (JsNumber.nan :: (before ++ after)) :=
    perm_middle
  rw [sumNumbers_perm hPerm]
  exact foldl_add_nan _

/- Without inherited names the values are naturals. -/
theorem exists_naturals (hNatural : ∀ v ∈ l, NaturalOrInherited v)
    (hNan : JsNumber.nan ∉ l) : ∃ ns : List Nat, l = ns.map (fun n : Nat => JsNumber.ofInt n) := by
  induction l with
  | nil => exact ⟨[], rfl⟩
  | cons v rest ih =>
    rw [mem_cons, not_or] at hNan
    rcases ih (fun w hw => hNatural w (mem_cons_of_mem v hw)) hNan.2 with ⟨ns, hns⟩
    rcases hNatural v mem_cons_self with hInherited | ⟨n, hn⟩
    · exact (hNan.1 hInherited.symm).elim
    · exact ⟨n :: ns, by rw [hns, hn]; rfl⟩

theorem sumNumbers_naturals (ns : List Nat) :
    sumNumbers (ns.map (fun n : Nat => JsNumber.ofInt n)) = JsNumber.ofInt (ns.sum : Nat) := by
  have hSum := sumNumbers_map_ofInt (ns.map (fun n : Nat => (n : Int)))
  rw [List.map_map] at hSum
  have hCast : (ns.map (fun n : Nat => (n : Int))).sum = ((ns.sum : Nat) : Int) := by
    induction ns with
    | nil => rfl
    | cons n rest ih => simp
  rw [hCast] at hSum
  exact hSum

theorem lt_naturals (m n : Nat) : (JsNumber.ofInt m).lt (JsNumber.ofInt n) = decide (m < n) := by
  rw [lt_ofInt]
  simp

/- A table that sums to ten thousand has points only. -/
theorem bpsOk_of_sum (hNatural : ∀ v ∈ l, NaturalOrInherited v)
    (hSum : sumNumbers l = 10000) : ∀ v ∈ l, bpsOk v = true := by
  have hNan : JsNumber.nan ∉ l := by
    intro hMem
    rw [sumNumbers_eq_nan hMem] at hSum
    cases hSum
  rcases exists_naturals hNatural hNan with ⟨ns, rfl⟩
  rw [sumNumbers_naturals] at hSum
  have hTotal := (ofInt_inj _ 10000).mp hSum
  intro v hv
  rcases List.mem_map.mp hv with ⟨n, hn, rfl⟩
  have hLe : n ≤ ns.sum := single_le_sum (by simp) n hn
  rw [bpsOk_ofInt]
  omega

theorem zero_lt_natural (n : Nat) : (0 : JsNumber).lt (JsNumber.ofInt n) = true ↔ n ≠ 0 := by
  have hLt : (0 : JsNumber).lt (JsNumber.ofInt n) = decide (0 < n) := lt_naturals 0 n
  rw [hLt, decide_eq_true_eq]
  exact Nat.pos_iff_ne_zero

theorem sum_positive_iff (hNatural : ∀ v ∈ l, NaturalOrInherited v) :
    ((sumNumbers l).le 0 = false ∧ ∀ v ∈ l, v.isInteger = true ∧ v.lt 0 = false) ↔
      (∀ v ∈ l, v.isInteger = true) ∧ ∃ v ∈ l, (0 : JsNumber).lt v = true := by
  by_cases hNan : JsNumber.nan ∈ l
  · have hNot : JsNumber.nan.isInteger ≠ true := by decide
    exact iff_of_false (fun h => hNot (h.2 _ hNan).1) (fun h => hNot (h.1 _ hNan))
  · rcases exists_naturals hNatural hNan with ⟨ns, rfl⟩
    have hLe : (JsNumber.ofInt (ns.sum : Nat)).le 0 = false ↔ ns.sum ≠ 0 := by
      have hInt : (JsNumber.ofInt (ns.sum : Nat)).le 0 = _ := le_ofInt _ 0
      rw [hInt, decide_eq_false_iff_not]
      omega
    have hNonneg (n : Nat) : (JsNumber.ofInt n).lt 0 = false := (lt_naturals n 0).trans (by simp)
    rw [sumNumbers_naturals, hLe]
    simp [hNonneg, zero_lt_natural, isInteger_ofInt, sum_eq_zero_iff]

----------
-- The Checks In Terms Of The Template
----------

/- What a payout mode asks of its table, given the roles and the completed checkpoints. -/
def ModePayable (mode : TeamPayoutMode) (roles : List TeamRoleTemplate)
    (completed : List TeamCheckpointState) : Prop :=
  match mode with
  | .fixed rolePayoutBps =>
    sumNumbers (roles.map (fun role => numberAt rolePayoutBps role.id)) = 10000
  | .weighted roleWeights =>
    (∀ role ∈ roles, (numberAt roleWeights role.id).isInteger = true) ∧
      ∃ role ∈ roles, (0 : JsNumber).lt (numberAt roleWeights role.id) = true
  | .milestone milestonePayoutBps =>
    (∀ checkpoint ∈ completed, bpsOk (numberAt milestonePayoutBps checkpoint.id) = true) ∧
      (10000 : JsNumber).lt
        (sumNumbers
          (completed.map (fun checkpoint => numberAt milestonePayoutBps checkpoint.id))) = false

/- What the penalties ask of their table. -/
def PenaltiesPayable (template : TeamTemplate) : Prop :=
  ∀ role ∈ template.roles,
    bpsOk (numberAt (template.payout.roleFailurePenaltyBps.getD OrderedMap.empty) role.id) = true

section Checks

variable {host : TextHost}
variable {input : TeamPayoutComputationInput}

theorem mem_roleIds_iff {roleId : String} :
    roleId ∈ input.roleIds host ↔ ∃ role ∈ input.template.roles, role.id = roleId := by
  rw [TeamPayoutComputationInput.roleIds, TextHost.sort, mem_sortBy, List.mem_map]

theorem roleTable_values_perm (hNodup : (input.template.roles.map (·.id)).Nodup)
    (hProto : "__proto__" ∉ input.roleIds host) (table : Record JsNumber) :
    (initializeNumericRoleMap (input.roleIds host) table).objectValues.Perm
      (input.template.roles.map (fun role => numberAt table role.id)) := by
  have hSorted : (input.roleIds host).Nodup := nodup_sortBy.mpr hNodup
  have hIds : (input.roleIds host).Perm (input.template.roles.map (·.id)) :=
    sortBy_perm _ _
  refine (Record.objectValues_perm _).trans ?_
  rw [initializeNumericRoleMap_eq hProto, OrderedMap.values,
    entries_ofList_map hSorted, List.map_map]
  have hMap := hIds.map (numberAt table)
  rw [List.map_map] at hMap
  exact hMap

theorem forall_entries_iff {P : JsNumber → Prop}
    (hNodup : (input.template.roles.map (·.id)).Nodup)
    (hProto : "__proto__" ∉ input.roleIds host) (table : Record JsNumber) :
    (∀ entry ∈ (initializeNumericRoleMap (input.roleIds host) table).objectEntries, P entry.2) ↔
      ∀ v ∈ input.template.roles.map (fun role => numberAt table role.id), P v := by
  have hPerm := roleTable_values_perm hNodup hProto table
  constructor
  · intro hAll v hv
    rw [← hPerm.mem_iff] at hv
    rcases List.mem_map.mp hv with ⟨entry, hIn, rfl⟩
    exact hAll entry hIn
  · intro hAll entry hIn
    apply hAll
    rw [← hPerm.mem_iff]
    exact List.mem_map_of_mem hIn

theorem modeChecks_iff (hAccepted : AcceptedTemplate input.template)
    (hProto : "__proto__" ∉ input.roleIds host) {completed : List TeamCheckpointState}
    (hCompleted :
      completed.Perm (input.checkpoints.objectValues.filter (fun c => c.status = .completed)))
    (hRoles : ∀ c ∈ input.checkpoints.objectValues, c.roleId ∈ input.roleIds host) :
    ModeChecks input.template.payout.mode (input.roleIds host) input.checkpoints.objectValues ↔
      ModePayable input.template.payout.mode input.template.roles completed := by
  have hNodup := hAccepted.roleIds_nodup
  have hTable := hAccepted.table_natural
  have hNatural :
      ∀ v ∈ input.template.roles.map (fun role =>
          numberAt input.template.payout.mode.table role.id), NaturalOrInherited v := by
    intro v hv
    rcases List.mem_map.mp hv with ⟨role, _, rfl⟩
    exact naturalOrInherited_numberAt hTable role.id
  cases hMode : input.template.payout.mode with
  | fixed rolePayoutBps =>
    simp only [hMode, TeamPayoutMode.table] at hNatural
    simp only [ModeChecks, ModePayable]
    rw [sumNumbers_perm (roleTable_values_perm hNodup hProto _),
      forall_entries_iff (P := fun v => bpsOk v = true) hNodup hProto]
    exact ⟨And.left, fun hSum => ⟨hSum, bpsOk_of_sum hNatural hSum⟩⟩
  | weighted roleWeights =>
    simp only [hMode, TeamPayoutMode.table] at hNatural
    simp only [ModeChecks, ModePayable]
    rw [sumNumbers_perm (roleTable_values_perm hNodup hProto _),
      forall_entries_iff (P := fun v => v.isInteger = true ∧ v.lt 0 = false) hNodup hProto,
      sum_positive_iff hNatural]
    simp [List.mem_map]
  | milestone milestonePayoutBps =>
    simp only [ModeChecks, ModePayable, completedBps]
    have hSum := sumNumbers_perm (hCompleted.map (fun c => numberAt milestonePayoutBps c.id))
    rw [hSum]
    apply and_congr_left
    intro _
    constructor
    · intro hAll c hc
      rw [hCompleted.mem_iff, mem_filter, decide_eq_true_eq] at hc
      exact (hAll c hc.1 hc.2).1
    · intro hAll c hc hDone
      refine ⟨hAll c ?_, hRoles c hc⟩
      rw [hCompleted.mem_iff, mem_filter, decide_eq_true_eq]
      exact ⟨hc, hDone⟩

end Checks

----------
-- Inherited Role Names
----------

section

variable (host : TextHost)

/- Plain assignments never create an own `__proto__`, so no stage gives such a role an amount. -/
theorem proto_not_mem_initializeRoleMap (roleIds : List String) :
    "__proto__" ∉ (initializeRoleMap roleIds).keys := by
  unfold initializeRoleMap
  refine List.foldlRecOn (motive := fun out : Record Int => "__proto__" ∉ out.keys) roleIds _ ?_ ?_
  · simp [OrderedMap.keys, OrderedMap.empty]
  · intro out hOut roleId _
    exact Record.proto_not_mem_assign hOut roleId 0

theorem proto_not_mem_mergeAmounts {target : Record Int} (hTarget : "__proto__" ∉ target.keys)
    (delta : OrderedMap String Int) : "__proto__" ∉ (mergeAmounts target delta).keys := by
  unfold mergeAmounts
  refine List.foldlRecOn (motive := fun out : Record Int => "__proto__" ∉ out.keys)
    delta.entries _ hTarget ?_
  intro out hOut entry _
  exact Record.proto_not_mem_assign hOut entry.1 _

theorem proto_not_mem_allocateByMode {input : TeamPayoutComputationInput} {roleIds : List String}
    {checkpoints : List TeamCheckpointState} {split : RoleSplit}
    (hOk : allocateByMode host input roleIds checkpoints = .ok split) :
    "__proto__" ∉ split.rolePayouts.keys := by
  have hInit := proto_not_mem_initializeRoleMap roleIds
  unfold allocateByMode at hOk
  split at hOk
  · simp only [allocateFixed, bind_eq_ok_iff, Except.ok.injEq] at hOk
    rcases hOk with ⟨_, _, _, _, _, _, delta, _, rfl⟩
    exact proto_not_mem_mergeAmounts hInit delta
  · simp only [allocateWeighted, bind_eq_ok_iff, Except.ok.injEq] at hOk
    rcases hOk with ⟨_, _, _, _, _, _, delta, _, rfl⟩
    exact proto_not_mem_mergeAmounts hInit delta
  · simp only [allocateMilestone, bind_eq_ok_iff] at hOk
    rcases hOk with ⟨realized, _, _, _, hOk⟩
    split at hOk
    · cases hOk
      exact hInit
    · simp only [bind_eq_ok_iff, Except.ok.injEq] at hOk
      rcases hOk with ⟨_, _, delta, _, rfl⟩
      exact proto_not_mem_mergeAmounts hInit delta

variable {payout : TeamPayoutConfig}
variable {penalized : Penalized}

theorem proto_not_mem_applyPenalties {failedRoles roleIds : List String}
    {rolePayouts : Record Int} (hProto : "__proto__" ∉ rolePayouts.keys)
    (hOk : applyPenalties host payout failedRoles roleIds rolePayouts = .ok penalized) :
    "__proto__" ∉ penalized.rolePayouts.keys := by
  unfold applyPenalties at hOk
  refine (foldlM_invariant (P := fun _ => True) (fun roleId _ (acc acc' : Penalized)
    (hAcc : "__proto__" ∉ acc.rolePayouts.keys) hRun => ⟨?_, trivial⟩) hProto hOk).1
  simp only [penalizeRole, bind_eq_ok_iff] at hRun
  rcases hRun with ⟨_, _, hRun⟩
  split at hRun
  · cases hRun
    exact hAcc
  · simp only [bind_eq_ok_iff, Except.ok.injEq] at hRun
    rcases hRun with ⟨_, _, _, _, rfl⟩
    exact Record.proto_not_mem_assign hAcc roleId _

theorem proto_not_mem_redistributePool
    {failedRoles roleIds : List String}
    (hProto : "__proto__" ∉ penalized.rolePayouts.keys) {unallocatedLamports : Int}
    {redistributed : Redistributed}
    (hOk : redistributePool host payout failedRoles roleIds penalized unallocatedLamports =
        .ok redistributed) : "__proto__" ∉ redistributed.rolePayouts.keys := by
  unfold redistributePool at hOk
  split at hOk
  · cases hOk
    exact hProto
  · split at hOk
    · cases hOk
      exact hProto
    · simp only [bind_eq_ok_iff] at hOk
      rcases hOk with ⟨weights, _, hOk⟩
      split at hOk
      · cases hOk
        exact hProto
      · simp only [bind_eq_ok_iff, Except.ok.injEq] at hOk
        rcases hOk with ⟨delta, _, rfl⟩
        exact proto_not_mem_mergeAmounts hProto delta

/- A payout is computed for ordinary role names only. -/
theorem proto_not_role_of_computeTeamPayout {input : TeamPayoutComputationInput}
    {result : TeamPayoutResult} (hOk : computeTeamPayout host input = .ok result) :
    "__proto__" ∉ input.roleIds host := by
  simp only [computeTeamPayout, bind_eq_ok_iff] at hOk
  rcases hOk with
    ⟨_, _, split, hSplit, penalized, hPenalized, redistributed, hRedistributed, paid, hPaid, _⟩
  have hProto := proto_not_mem_redistributePool host
    (proto_not_mem_applyPenalties host (proto_not_mem_allocateByMode host hSplit)
      hPenalized) hRedistributed
  intro hRole
  refine hProto ((foldlM_invariant (fun roleId _ acc acc' (_ : True) hRun => ⟨trivial, ?_⟩)
    trivial hPaid).2 _ hRole)
  simp only [payRole, bind_eq_ok_iff] at hRun
  rcases hRun with ⟨amount, hAmount, _⟩
  exact mem_keys_of_bigintAt hAmount

end

----------
-- Records Of A Contract
----------

section Snapshots

variable (host : TextHost)
variable {α : Type}

/- A copied map lacks a key called `__proto__` only. -/
theorem get?_sortedRecord (source : OrderedMap String α) (k : String) :
    (sortedRecord host source).get? k = if k = "__proto__" then none else source.get? k := by
  -- the loop has copied exactly the keys that it has seen
  have hLoop : ∀ (keys : List String) (out : Record α),
        (keys.foldl (fun out key =>
            (source.get? key).elim out (Record.assign out key)) out).get? k =
          if k ∈ keys ∧ k ≠ "__proto__" ∧ (source.get? k).isSome = true then source.get? k
          else out.get? k := by
    intro keys
    induction keys with
    | nil => simp
    | cons key rest ih =>
      intro out
      rw [foldl_cons, ih]
      cases hGet : source.get? key with
      | none => by_cases hKey : k = key <;> simp [hKey, hGet]
      | some value =>
        by_cases hProto : key = "__proto__"
        · subst hProto
          by_cases hKey : k = "__proto__" <;> simp [hKey, Record.assign]
        · simp only [Option.elim_some, Record.get?_assign _ hProto]
          by_cases hKey : k = key
          · simp [hKey, hGet, hProto]
          · simp [hKey, Ne.symm hKey]
  have hCopy : sortedRecord host source = (host.sort source.keys).foldl
        (fun out key => (source.get? key).elim out (Record.assign out key)) .empty := by
    unfold sortedRecord
    congr 1
    funext out key
    cases source.get? key <;> rfl
  rw [hCopy, hLoop]
  by_cases hProto : k = "__proto__"
  · simp [hProto]
  · simp only [TextHost.sort, mem_sortBy, mem_keys_iff]
    cases source.get? k <;> simp [hProto]

/- The checkpoints that a payout sees. -/
def visibleCheckpoints (record : TeamContractRecord) : List TeamCheckpointState :=
  record.checkpoints.values.filter (fun c => c.id ≠ "__proto__")

theorem checkpointRecord_values_perm {record : TeamContractRecord}
    (hSettled : Settled record.checkpoints) :
    (checkpointRecord host record).objectValues.Perm (visibleCheckpoints record) := by
  refine (Record.objectValues_perm _).trans ?_
  have hEntries : (checkpointRecord host record).entries.Perm
        (record.checkpoints.entries.filter (fun e => e.1 ≠ "__proto__")) := by
    rw [perm_ext_iff_of_nodup (List.Nodup.of_map Prod.fst (nodup_keys _))
      ((List.Nodup.of_map Prod.fst (nodup_keys _)).filter _)]
    rintro ⟨k, c⟩
    rw [mem_entries_iff, checkpointRecord, get?_sortedRecord, mem_filter,
      mem_entries_iff]
    by_cases hProto : k = "__proto__" <;> simp [hProto]
  refine (hEntries.map Prod.snd).trans ?_
  unfold visibleCheckpoints OrderedMap.values
  rw [List.filter_map]
  apply List.Perm.of_eq
  congr 1
  apply filter_congr
  rintro ⟨k, c⟩ hMem
  have hKey := hSettled.keyed k c ((mem_entries_iff _ _ _).mp hMem)
  simp [hKey]

end Snapshots

/-
  What the payout of a contract asks beyond a non-negative reward: an own amount for every role, a
  table that the mode accepts, and penalties in range.
-/
structure Payable (record : TeamContractRecord) : Prop where
  ordinary : ∀ role ∈ record.template.roles, role.id ≠ "__proto__"
  mode : ModePayable record.template.payout.mode record.template.roles
      ((visibleCheckpoints record).filter (fun c => c.status = .completed))
  penalties : PenaltiesPayable record.template

instance decidableModePayable (mode : TeamPayoutMode) (roles : List TeamRoleTemplate)
    (completed : List TeamCheckpointState) : Decidable (ModePayable mode roles completed) :=
  match mode with
  | .fixed _ => inferInstanceAs (Decidable (_ = (10000 : JsNumber)))
  | .weighted _ => inferInstanceAs (Decidable ((∀ _ ∈ _, _) ∧ _))
  | .milestone _ => inferInstanceAs (Decidable ((∀ _ ∈ _, _) ∧ _))

instance decidablePayable (record : TeamContractRecord) : Decidable (Payable record) :=
  have : Decidable (PenaltiesPayable record.template) := inferInstanceAs (Decidable (∀ _ ∈ _, _))
  decidable_of_iff
    ((∀ role ∈ record.template.roles, role.id ≠ "__proto__") ∧
      ModePayable record.template.payout.mode record.template.roles
        ((visibleCheckpoints record).filter (fun c => c.status = .completed)) ∧
      PenaltiesPayable record.template)
    ⟨fun h => ⟨h.1, h.2.1, h.2.2⟩, fun h => ⟨h.ordinary, h.mode, h.penalties⟩⟩

----------
-- Finished Contracts
----------

section Contracts

variable (config : TeamContractEngineConfig)

/- The input that a contract hands to the computation. -/
def payoutInput (totalRewardLamports : Int) (record : TeamContractRecord) :
    TeamPayoutComputationInput :=
  { totalRewardLamports := totalRewardLamports, template := record.template
    checkpoints := checkpointRecord config.host record
    roleAssignments := roleAssignmentRecord config.host record }

variable {record : TeamContractRecord}

/- The checks of the computation, read off the contract. -/
theorem payoutChecks_iff (totalRewardLamports : Int)
    (hShape : ContractShape record) :
    PayoutChecks config.host (payoutInput config totalRewardLamports record) ↔
      0 ≤ totalRewardLamports ∧ Payable record := by
  have hValues := checkpointRecord_values_perm config.host hShape.settled
  set input := payoutInput config totalRewardLamports record
  have hRoles : ∀ c ∈ input.checkpoints.objectValues, c.roleId ∈ input.roleIds config.host := by
    intro c hc
    have hVisible := (hValues.mem_iff).mp hc
    rw [visibleCheckpoints, mem_filter, mem_values_iff] at hVisible
    rcases hVisible with ⟨⟨id, hGet⟩, _⟩
    rw [mem_roleIds_iff]
    exact List.mem_map.mp (hShape.roleId_known id c hGet)
  have hMode (hProto : "__proto__" ∉ input.roleIds config.host) :=
    modeChecks_iff hShape.accepted hProto (hValues.symm.filter _) hRoles
  have hOrdinary : "__proto__" ∉ input.roleIds config.host ↔
        ∀ role ∈ record.template.roles, role.id ≠ "__proto__" := by
    rw [mem_roleIds_iff]
    exact ⟨fun hNone role hMem hEq => hNone ⟨role, hMem, hEq⟩,
      fun hAll ⟨role, hMem, hEq⟩ => hAll role hMem hEq⟩
  constructor
  · intro hChecks
    have hProto := hChecks.proto_not_role
    refine ⟨hChecks.reward_nonneg, hOrdinary.mp hProto, (hMode hProto).mp hChecks.mode, ?_⟩
    intro role hMem
    exact hChecks.penalties role.id (mem_roleIds_iff.mpr ⟨role, hMem, rfl⟩)
  · rintro ⟨hReward, hPayable⟩
    have hProto := hOrdinary.mpr hPayable.ordinary
    refine ⟨hReward, hProto, (hMode hProto).mpr hPayable.mode, ?_⟩
    intro roleId hMem
    rcases mem_roleIds_iff.mp hMem with ⟨role, hIn, rfl⟩
    exact hPayable.penalties role hIn

/- Every ordinary role of a contract has a readable list. -/
theorem assignedAt_roleAssignmentRecord (hRoster : Roster record)
    {role : TeamRoleTemplate} (hMem : role ∈ record.template.roles)
    (hOrdinary : role.id ≠ "__proto__") :
    ∃ assigned, assignedAt (roleAssignmentRecord config.host record) role.id = .ok assigned := by
  rcases hRoster.exists_assigned hMem with ⟨assigned, hGet⟩
  refine ⟨config.host.sort assigned, ?_⟩
  unfold assignedAt roleAssignmentRecord
  rw [get?_sortedRecord, if_neg hOrdinary, get?_mapValues, hGet]
  rfl

/- A payout is computed exactly for payable contracts. -/
theorem contractPayout_returns_iff (totalRewardLamports : Int)
    (hShape : ContractShape record) :
    (∃ payout, contractPayout config totalRewardLamports record = .ok payout) ↔
      0 ≤ totalRewardLamports ∧ Payable record := by
  have hNodup := hShape.accepted.roleIds_nodup
  rw [← payoutChecks_iff config totalRewardLamports hShape]
  constructor
  · rintro ⟨payout, hOk⟩
    simp only [contractPayout, bind_eq_ok_iff] at hOk
    rcases hOk with ⟨_, _, hOk⟩
    exact payoutChecks_of_computeTeamPayout hNodup
      (proto_not_role_of_computeTeamPayout config.host hOk) hOk
  · intro hChecks
    have hPayable := (payoutChecks_iff config totalRewardLamports hShape).mp hChecks
    rcases computeTeamPayout_returns hNodup hChecks
        (by
          intro roleId hMem
          rcases mem_roleIds_iff.mp hMem with ⟨role, hIn, rfl⟩
          exact assignedAt_roleAssignmentRecord config hShape.roster hIn
            (hPayable.2.ordinary role hIn)) with ⟨payout, hOk, _⟩
    refine ⟨payout, ?_⟩
    simp only [contractPayout, bind_eq_ok_iff, throwIf_eq_ok_iff, decide_eq_false_iff_not, not_lt]
    exact ⟨(), hChecks.reward_nonneg, hOk⟩

/- A finished contract passes the checks of a payout. -/
theorem checkFinalizable_of_finished
    (hFinished : record.status = .completed ∨ record.status = .failed) :
    checkFinalizable record = .ok () := by
  simp only [checkFinalizable, bind_eq_ok_iff, throwIf_eq_ok_iff]
  rcases hFinished with hStatus | hStatus <;> simp [hStatus]

/- A finished contract is paid, again or for the first time. -/
theorem finalizePayout_ok_iff (clock : Nat → JsNumber) {totalRewardLamports : Int}
    (hReward : 0 ≤ totalRewardLamports) (call : Call) (hShape : ContractShape call.record)
    (hFinished : call.record.status = .completed ∨ call.record.status = .failed) :
    (∃ payout, (finalizePayout config clock totalRewardLamports call).1 = .ok (.payout payout)) ↔
      call.record.finalizedPayout.isSome = true ∨ Payable call.record := by
  have hActive : call.record.status ≠ .active := by
    rcases hFinished with hStatus | hStatus <;> simp [hStatus]
  have hNotCancelled : call.record.status ≠ .cancelled := by
    rcases hFinished with hStatus | hStatus <;> simp [hStatus]
  have hSame : finishRun clock call = call := if_neg hActive
  have hPayout := contractPayout_returns_iff config totalRewardLamports hShape
  rcases finalizePayout_cases config clock totalRewardLamports call with
    ⟨payout, _, hFinal, hEq⟩ | ⟨e, hWhy, _⟩ |
      ⟨_, hFinal, _, ⟨e, hError, hEq⟩ | ⟨payout, hOk, hEq⟩⟩
  · simp [hEq, hFinal]
  · rcases hWhy with hCancelled | ⟨_, hCheck⟩
    · exact (hNotCancelled hCancelled).elim
    · rw [checkFinalizable_of_finished hFinished] at hCheck
      cases hCheck
  · rw [hSame] at hError
    have hNot : ¬ Payable call.record := by
      intro hPayable
      rcases hPayout.mpr ⟨hReward, hPayable⟩ with ⟨payout, hOk⟩
      rw [hOk] at hError
      cases hError
    simp [hEq, hFinal, hNot]
  · rw [hSame] at hOk
    have hPayable := (hPayout.mp ⟨payout, hOk⟩).2
    simp [hEq, hPayable]

end Contracts

namespace TeamContractEngine

variable (config : TeamContractEngineConfig)

/-
  In every reachable state, a completed or failed contract is paid for a non-negative reward exactly
  when it has been paid before or is payable.
-/
theorem finalizePayout_returns_iff {engine : TeamContractEngine} (hReach : Reachable config engine)
    {contractId id : String} {record : TeamContractRecord}
    (hId : engineId config contractId "contract id" = .ok id)
    (hGet : engine.contracts.get? id = some record)
    (hFinished : record.status = .completed ∨ record.status = .failed) {totalRewardLamports : Int}
    (hReward : 0 ≤ totalRewardLamports) (clock : Nat → JsNumber) :
    (∃ payout, (apply config engine
        ⟨.onContract contractId (.finalizePayout totalRewardLamports),
          false, clock⟩).1 = .ok (.payout payout)) ↔
      record.finalizedPayout.isSome = true ∨ Payable record := by
  have hShape := contractShape_of_reachable config hReach hGet
  rw [apply_onContract config hId hGet]
  exact finalizePayout_ok_iff config clock hReward ⟨record, [], 0⟩ hShape hFinished

def sampleCompleted : TeamContractEngine :=
  runCalls sampleConfig empty
    (sampleStart ++ [sampleCall (.onContract "team" (.completeCheckpoint "draft" "alice" none)),
      sampleCall (.onContract "team" (.completeCheckpoint "check" "bob" none))])

theorem sampleCompleted_paid : ∃ payout, (apply sampleConfig sampleCompleted
        (sampleCall (.onContract "team" (.finalizePayout 101)))).1 = .ok (.payout payout) := by
  have hRecord : ∃ record, sampleCompleted.contracts.get? "team" = some record ∧
          record.status = .completed ∧ Payable record := ⟨_, rfl, by decide +kernel⟩
  rcases hRecord with ⟨record, hGet, hStatus, hPayable⟩
  exact
    (finalizePayout_returns_iff sampleConfig (steps_runCalls sampleConfig empty _)
      (by decide +kernel) hGet (Or.inl hStatus) (by decide) _).mpr (Or.inr hPayable)

/- A fixed split that gives away half of the reward only. -/
def halfTemplate : TeamTemplate :=
  { sampleTemplate with
    payout :=
      { mode := .fixed (OrderedMap.ofList [("build", 3000), ("review", 2000)])
        roleFailurePenaltyBps := none, redistributePenalties := none } }

/- The same run with the half split. -/
def halfCompleted : TeamContractEngine :=
  runCalls sampleConfig empty
    (sampleCall (.createContract "Team" "owner" halfTemplate) :: sampleStart.tail ++
      [sampleCall (.onContract "team" (.completeCheckpoint "draft" "alice" none)),
      sampleCall (.onContract "team" (.completeCheckpoint "check" "bob" none))])

/- The contract is accepted and completed, and never paid. -/
theorem halfCompleted_unpaid : Reachable sampleConfig halfCompleted ∧
      (∃ record, halfCompleted.contracts.get? "team" = some record ∧ record.status = .completed) ∧
      (apply sampleConfig halfCompleted (sampleCall (.onContract "team" (.finalizePayout 101)))).1 =
        .error ⟨.teamPayoutError, "fixed role payout bps must sum to 10000 (received 5000)"⟩ := by
  refine ⟨steps_runCalls sampleConfig empty _, ⟨_, rfl, by decide +kernel⟩, by decide +kernel⟩

end TeamContractEngine

end AgencCore.Team
