import AgencCore.Team.Allocation

/-
  The split of the reward over the roles.

  For each payout mode, the split returns under the checks of the mode and accounts for the whole
  reward: `SplitOf`. The checks of the milestone mode speak about the completed checkpoints only.
-/

namespace AgencCore.Team

open Foundations List OrderedMap JsNumber

/- The numbers that `assertBps` accepts. -/
def bpsOk (value : JsNumber) : Bool :=
  value.isInteger && !value.lt 0 && !(10000 : JsNumber).lt value

@[simp] theorem assertBps_eq_ok_iff (value : JsNumber) (label : String) (u : Unit) :
    assertBps value label = .ok u ↔ bpsOk value = true := by
  unfold assertBps bpsOk
  rw [throwIf_eq_ok_iff]
  cases value.isInteger <;> cases value.lt 0 <;> cases (10000 : JsNumber).lt value <;> simp

variable {value : JsNumber}

theorem int_of_nonneg (hInteger : value.isInteger = true)
    (hNonneg : value.lt 0 = false) : ∃ n : Int, value = JsNumber.ofInt n ∧ 0 ≤ n := by
  rcases eq_ofInt_of_isInteger hInteger with ⟨n, rfl⟩
  have hLt : (JsNumber.ofInt n).lt (JsNumber.ofInt 0) = false := hNonneg
  exact ⟨n, rfl, by simpa using hLt⟩

theorem bpsOk_ofInt (n : Int) : bpsOk (JsNumber.ofInt n) = true ↔ 0 ≤ n ∧ n ≤ 10000 := by
  have hLow : (JsNumber.ofInt n).lt 0 = decide (n < 0) := lt_ofInt n 0
  have hHigh : (10000 : JsNumber).lt (JsNumber.ofInt n) = decide (10000 < n) :=
    lt_ofInt 10000 n
  unfold bpsOk
  rw [hLow, hHigh]
  simp

theorem int_of_bpsOk (hOk : bpsOk value = true) :
    ∃ n : Int, value = JsNumber.ofInt n ∧ 0 ≤ n ∧ n ≤ 10000 := by
  have hInteger : value.isInteger = true := by
    unfold bpsOk at hOk
    cases hCase : value.isInteger with
    | true => rfl
    | false => simp [hCase] at hOk
  rcases eq_ofInt_of_isInteger hInteger with ⟨n, rfl⟩
  exact ⟨n, rfl, (bpsOk_ofInt n).mp hOk⟩

@[simp] theorem toBigInt_ofInt (host : TextHost) (n : Int) :
    toBigInt host (JsNumber.ofInt n) = .ok n := by simp [toBigInt]

/- The integer of an integral number. -/
def intOf (value : JsNumber) : Int := value.toBigInt?.getD 0

@[simp] theorem intOf_ofInt (n : Int) : intOf (JsNumber.ofInt n) = n := by simp [intOf]

theorem ofInt_intOf (hInteger : value.isInteger = true) : JsNumber.ofInt (intOf value) = value := by
  rcases eq_ofInt_of_isInteger hInteger with ⟨n, rfl⟩
  simp

theorem sumNumbers_map_ofInt (l : List Int) :
    sumNumbers (l.map JsNumber.ofInt) = JsNumber.ofInt l.sum := by
  have hFold := foldl_add_ofInt l 0
  rw [zero_add] at hFold
  exact hFold

/- Other names than `__proto__` are assigned as they come. -/
theorem foldl_assign_eq {α : Type} {roleIds : List String} (hProto : "__proto__" ∉ roleIds)
    (valueOf : String → α) :
    roleIds.foldl (fun out r => Record.assign out r (valueOf r)) OrderedMap.empty =
      OrderedMap.ofList (roleIds.map (fun r => (r, valueOf r))) := by
  unfold OrderedMap.ofList
  rw [foldl_map]
  apply foldl_ext
  intro out r hr
  simp [Record.assign, ne_of_mem_of_not_mem hr hProto]

theorem initializeNumericRoleMap_eq {roleIds : List String} (hProto : "__proto__" ∉ roleIds)
    (source : Record JsNumber) :
    initializeNumericRoleMap roleIds source =
      OrderedMap.ofList (roleIds.map (fun r => (r, numberAt source r))) :=
  foldl_assign_eq hProto (numberAt source)

theorem initializeRoleMap_eq {roleIds : List String} (hProto : "__proto__" ∉ roleIds) :
    initializeRoleMap roleIds = OrderedMap.ofList (roleIds.map (fun r => (r, 0))) :=
  foldl_assign_eq hProto (fun _ => 0)

def integerTable (source : Record JsNumber) : OrderedMap String Int :=
  OrderedMap.ofList (source.objectEntries.map (fun entry => (entry.1, intOf entry.2)))

variable {source : Record JsNumber}

/- An integral table converts entry by entry. -/
theorem toBigIntMap_eq (host : TextHost)
    (hInteger : ∀ entry ∈ source.objectEntries, entry.2.isInteger = true) :
    toBigIntMap host source = .ok (integerTable source) := by
  have hMap : source.objectEntries.mapM (fun entry => do
            let n ← toBigInt host entry.2
            Except.ok (entry.1, n)) =
        .ok (source.objectEntries.map (fun entry => (entry.1, intOf entry.2))) := by
    apply mapM_eq_ok
    intro entry hEntry
    rcases eq_ofInt_of_isInteger (hInteger entry hEntry) with ⟨n, hn⟩
    rw [hn, bind_eq_ok_iff]
    exact ⟨n, toBigInt_ofInt host n, by simp⟩
  unfold toBigIntMap
  rw [bind_eq_ok_iff]
  exact ⟨_, hMap, rfl⟩

/- The converted table sums to the same number. -/
theorem entries_integerTable (source : Record JsNumber) : (integerTable source).entries =
      source.objectEntries.map (fun entry => (entry.1, intOf entry.2)) := by
  apply entries_ofList
  rw [List.map_map]
  have hFst :
      (Prod.fst ∘ fun entry : String × JsNumber => (entry.1, intOf entry.2)) = Prod.fst := rfl
  rw [hFst]
  exact (source.objectKeys_perm).nodup_iff.mpr source.nodup_keys

theorem sumNumbers_eq_total
    (hInteger : ∀ entry ∈ source.objectEntries, entry.2.isInteger = true) :
    sumNumbers source.objectValues = JsNumber.ofInt (integerTable source).total := by
  have hValues : source.objectValues =
        (source.objectEntries.map (fun entry => intOf entry.2)).map JsNumber.ofInt := by
    unfold Record.objectValues
    rw [List.map_map]
    apply map_congr_left
    intro entry hEntry
    exact (ofInt_intOf (hInteger entry hEntry)).symm
  rw [hValues, sumNumbers_map_ofInt]
  unfold OrderedMap.total OrderedMap.values
  rw [entries_integerTable, List.map_map]
  rfl

----------
-- Books Of Role Amounts
----------

theorem mem_keys_of_bigintAt {amounts : Record Int} {key : String} {amount : Int}
    (hRead : bigintAt amounts key = .ok amount) : key ∈ amounts.keys := by
  rw [mem_keys_iff]
  unfold bigintAt at hRead
  cases hGet : amounts.get? key with
  | none => simp [hGet] at hRead
  | some v => rfl

/- Non-negative amounts, one for each role and no other. -/
structure RoleBook (roleIds : List String) (amounts : Record Int) : Prop where
  keys : ∀ k, k ∈ amounts.keys ↔ k ∈ roleIds
  nonneg : amounts.Nonneg

namespace RoleBook

variable {roleIds : List String}
variable {amounts : Record Int}
variable (hBook : RoleBook roleIds amounts)
include hBook

theorem bigintAt_eq {roleId : String} (hMem : roleId ∈ roleIds) :
    bigintAt amounts roleId = .ok (amounts.amount roleId) := by
  have hKey := (hBook.keys roleId).mpr hMem
  rcases Option.isSome_iff_exists.mp ((amounts.mem_keys_iff roleId).mp hKey) with ⟨amount, hGet⟩
  simp [bigintAt, OrderedMap.amount, hGet]

/- Writing the amount of a role keeps the book. -/
theorem assign {roleId : String} (hMem : roleId ∈ roleIds)
    {v : Int} (hv : 0 ≤ v) : RoleBook roleIds (Record.assign amounts roleId v) := by
  unfold Record.assign
  split
  · exact hBook
  · refine ⟨?_, nonneg_set hBook.nonneg roleId hv⟩
    intro k
    rw [keys_set_of_mem amounts v ((hBook.keys roleId).mpr hMem)]
    exact hBook.keys k

theorem total_eq (hNodup : roleIds.Nodup) : amounts.total = (roleIds.map amounts.amount).sum := by
  have hPerm : amounts.keys.Perm roleIds :=
    (perm_ext_iff_of_nodup amounts.nodup_keys hNodup).mpr hBook.keys
  rw [total_eq_sum_amount]
  exact (hPerm.map amounts.amount).sum_eq

end RoleBook

theorem roleBook_initializeRoleMap {roleIds : List String} (hNodup : roleIds.Nodup)
    (hProto : "__proto__" ∉ roleIds) : RoleBook roleIds (initializeRoleMap roleIds) := by
  rw [initializeRoleMap_eq hProto]
  refine ⟨?_, ?_⟩
  · intro k
    rw [keys_ofList_map hNodup]
  · exact nonneg_ofList_map hNodup (fun _ => le_rfl)

theorem total_initializeRoleMap {roleIds : List String} (hNodup : roleIds.Nodup)
    (hProto : "__proto__" ∉ roleIds) : (initializeRoleMap roleIds).total = 0 := by
  rw [initializeRoleMap_eq hProto, total_ofList_map hNodup]
  simp

theorem total_assign (amounts : Record Int) {key : String} (hKey : key ≠ "__proto__") (v : Int) :
    (Record.assign amounts key v).total = amounts.total - amounts.amount key + v := by
  unfold Record.assign
  rw [if_neg hKey, total_set]

variable {delta : OrderedMap String Int}

/- Merging adds the merged amounts to the total. -/
theorem total_mergeAmounts (target : Record Int)
    (hProto : "__proto__" ∉ delta.keys) :
    (mergeAmounts target delta).total = target.total + delta.total := by
  have hFold : ∀ (l : List (String × Int)) (out : Record Int), "__proto__" ∉ l.map Prod.fst →
          (l.foldl (fun out entry => Record.assign out entry.1 (out.amount entry.1 + entry.2))
            out).total = out.total + (l.map Prod.snd).sum := by
    intro l
    induction l with
    | nil => simp
    | cons entry rest ih =>
      intro out hAbsent
      rw [map_cons, mem_cons, not_or] at hAbsent
      rw [foldl_cons, ih _ hAbsent.2, total_assign out (Ne.symm hAbsent.1),
        map_cons, sum_cons]
      ring
  exact hFold delta.entries target hProto

variable {target : Record Int}

theorem nonneg_mergeAmounts
    (hTarget : target.Nonneg) (hDelta : delta.Nonneg) : (mergeAmounts target delta).Nonneg := by
  unfold mergeAmounts
  apply List.foldlRecOn
  · exact hTarget
  · intro out hOut entry hEntry
    have hValue : 0 ≤ entry.2 :=
      values_nonneg hDelta entry.2 (List.mem_map_of_mem hEntry)
    have hAmount := hOut entry.1
    unfold Record.assign
    split
    · exact hOut
    · exact nonneg_set hOut entry.1 (by omega)

/- Merging amounts of known roles keeps the book. -/
theorem roleBook_mergeAmounts {roleIds : List String}
    (hBook : RoleBook roleIds target) (hNonneg : delta.Nonneg)
    (hKeys : ∀ k ∈ delta.keys, k ∈ roleIds) : RoleBook roleIds (mergeAmounts target delta) := by
  unfold mergeAmounts
  apply List.foldlRecOn
  · exact hBook
  · intro out hOut entry hEntry
    have hMem : entry.1 ∈ roleIds := hKeys entry.1 (List.mem_map_of_mem hEntry)
    have hValue : 0 ≤ entry.2 :=
      values_nonneg hNonneg entry.2 (List.mem_map_of_mem hEntry)
    have hAmount := hOut.nonneg entry.1
    exact hOut.assign hMem (by omega)

----------
-- Allocation By Mode
----------

/- Basis points of an amount are a part of it. -/
theorem share_bounds {amount n : Int} (hAmount : 0 ≤ amount) (hn : 0 ≤ n) (hLe : n ≤ 10000) :
    0 ≤ (amount * n).tdiv 10000 ∧ (amount * n).tdiv 10000 ≤ amount := by
  refine ⟨Int.tdiv_nonneg (mul_nonneg hAmount hn) (by norm_num), ?_⟩
  rw [Int.tdiv_eq_ediv_of_nonneg (mul_nonneg hAmount hn)]
  apply Int.ediv_le_of_le_mul (by norm_num)
  exact mul_le_mul_of_nonneg_left hLe hAmount

/- A book that accounts for the whole reward. -/
structure SplitOf (totalRewardLamports : Int) (roleIds : List String)
    (split : RoleSplit) : Prop where
  book : RoleBook roleIds split.rolePayouts
  unallocated_nonneg : 0 ≤ split.unallocatedLamports
  total_eq : split.rolePayouts.total + split.unallocatedLamports = totalRewardLamports

section Modes

variable (host : TextHost)
variable {totalRewardLamports : Int}
variable {roleIds : List String}

omit host in
/- Shares merged into a fresh book. -/
theorem splitOf_merge {accounted : Int} {weights allocated : OrderedMap String Int}
    (hNodup : roleIds.Nodup) (hProto : "__proto__" ∉ roleIds)
    (hSplit : IsSplit accounted weights allocated) (hKeys : ∀ k ∈ weights.keys, k ∈ roleIds)
    (hLe : accounted ≤ totalRewardLamports) :
    SplitOf totalRewardLamports roleIds
      ⟨mergeAmounts (initializeRoleMap roleIds) allocated, totalRewardLamports - accounted⟩ := by
  have hRoles : ∀ k ∈ allocated.keys, k ∈ roleIds := fun k hk => hKeys k ((hSplit.keys k).mp hk)
  refine ⟨?_, by simpa using hLe, ?_⟩
  · exact roleBook_mergeAmounts (roleBook_initializeRoleMap hNodup hProto) hSplit.nonneg hRoles
  · have hTotal := total_mergeAmounts (initializeRoleMap roleIds)
      (fun hMem => hProto (hRoles _ hMem))
    rw [hTotal, total_initializeRoleMap hNodup hProto, hSplit.total_eq]
    ring

omit host in
/- The numeric table of the roles lists the roles. -/
theorem mem_roleIds_of_table (hNodup : roleIds.Nodup) (hProto : "__proto__" ∉ roleIds)
    (source : Record JsNumber) :
    ∀ k ∈ (integerTable (initializeNumericRoleMap roleIds source)).keys, k ∈ roleIds := by
  intro k hk
  unfold OrderedMap.keys at hk
  rw [entries_integerTable, List.map_map] at hk
  have hKey : k ∈ (initializeNumericRoleMap roleIds source).objectKeys := hk
  rw [(Record.objectKeys_perm _).mem_iff, initializeNumericRoleMap_eq hProto,
    keys_ofList_map hNodup] at hKey
  exact hKey

omit host in
/- A table of non-negative integers converts to weights. -/
theorem nonneg_table {source : Record JsNumber}
    (hEntries : ∀ entry ∈ source.objectEntries, entry.2.isInteger = true ∧ entry.2.lt 0 = false) :
    (integerTable source).Nonneg := by
  intro k
  unfold OrderedMap.amount
  cases hGet : (integerTable source).get? k with
  | none => simp
  | some v =>
    have hMem := mem_of_get?_ofList hGet
    rcases List.mem_map.mp hMem with ⟨entry, hIn, hEq⟩
    have hEntry := hEntries entry hIn
    rcases int_of_nonneg hEntry.1 hEntry.2 with ⟨n, hn, hNonneg⟩
    have hv : v = n := by
      have hSnd := congrArg Prod.snd hEq
      rw [hn] at hSnd
      simpa using hSnd.symm
    simpa [hv] using hNonneg

theorem allocateFixed_returns (hTotal : 0 ≤ totalRewardLamports) (hNodup : roleIds.Nodup)
    (hProto : "__proto__" ∉ roleIds) {rolePayoutBps : Record JsNumber}
    (hSum : sumNumbers (initializeNumericRoleMap roleIds rolePayoutBps).objectValues = 10000)
    (hBps : ∀ entry ∈ (initializeNumericRoleMap roleIds rolePayoutBps).objectEntries,
        bpsOk entry.2 = true) :
    ∃ split, allocateFixed host totalRewardLamports roleIds rolePayoutBps = .ok split ∧
        SplitOf totalRewardLamports roleIds split := by
  set bpsByRole := initializeNumericRoleMap roleIds rolePayoutBps with hTable
  have hEntries :
      ∀ entry ∈ bpsByRole.objectEntries, entry.2.isInteger = true ∧ entry.2.lt 0 = false := by
    intro entry hEntry
    have hOk := hBps entry hEntry
    simp only [bpsOk, Bool.and_eq_true, Bool.not_eq_true'] at hOk
    exact ⟨hOk.1.1, hOk.1.2⟩
  have hInteger := fun entry hEntry => (hEntries entry hEntry).1
  have hTotalEq := sumNumbers_eq_total hInteger
  rw [hSum] at hTotalEq
  have hWeights := (ofInt_inj _ _).mp hTotalEq.symm
  rcases allocateByRatio_returns host hTotal (by norm_num) (nonneg_table hEntries) hWeights with
    ⟨allocated, hAllocated, hSplit⟩
  have hResult := splitOf_merge hNodup hProto hSplit
    (mem_roleIds_of_table hNodup hProto rolePayoutBps) le_rfl
  rw [sub_self] at hResult
  refine ⟨_, ?_, hResult⟩
  simp only [allocateFixed, bind_eq_ok_iff, forEachM_eq_ok_iff, throwIf_eq_ok_iff,
    assertBps_eq_ok_iff, decide_eq_false_iff_not, not_not]
  exact ⟨(), hSum, (), hBps, _, toBigIntMap_eq host hInteger, allocated, hAllocated, rfl⟩

theorem allocateWeighted_returns (hTotal : 0 ≤ totalRewardLamports) (hNodup : roleIds.Nodup)
    (hProto : "__proto__" ∉ roleIds) {roleWeights : Record JsNumber}
    (hPos : (sumNumbers (initializeNumericRoleMap roleIds roleWeights).objectValues).le 0 = false)
    (hEntries : ∀ entry ∈ (initializeNumericRoleMap roleIds roleWeights).objectEntries,
        entry.2.isInteger = true ∧ entry.2.lt 0 = false) :
    ∃ split, allocateWeighted host totalRewardLamports roleIds roleWeights = .ok split ∧
        SplitOf totalRewardLamports roleIds split := by
  have hInteger := fun entry hEntry => (hEntries entry hEntry).1
  have hSum := hPos
  rw [sumNumbers_eq_total hInteger] at hSum
  have hWeights := (le_ofInt _ 0).symm.trans hSum
  rw [decide_eq_false_iff_not, not_le] at hWeights
  rcases allocateByWeights_returns host hTotal (nonneg_table hEntries) hWeights with
    ⟨allocated, hAllocated, hSplit⟩
  have hResult := splitOf_merge hNodup hProto hSplit
    (mem_roleIds_of_table hNodup hProto roleWeights) le_rfl
  rw [sub_self] at hResult
  refine ⟨_, ?_, hResult⟩
  simp only [allocateWeighted, bind_eq_ok_iff, forEachM_eq_ok_iff, throwIf_eq_ok_iff,
    Bool.or_eq_false_iff, Bool.not_eq_false']
  exact ⟨(), hPos, (), hEntries, _, toBigIntMap_eq host hInteger, allocated, hAllocated, rfl⟩

/- The realized shares account for the realized points. -/
structure RealizedOk (roleIds : List String) (acc : Realized) : Prop where
  book : RoleBook roleIds acc.realizedRoleBps
  points_eq : acc.realizedBps = JsNumber.ofInt acc.realizedRoleBps.total

omit host in
theorem realizedOk_initial (hNodup : roleIds.Nodup) (hProto : "__proto__" ∉ roleIds) :
    RealizedOk roleIds ⟨0, initializeRoleMap roleIds⟩ := by
  refine ⟨roleBook_initializeRoleMap hNodup hProto, ?_⟩
  rw [total_initializeRoleMap hNodup hProto]
  rfl

variable {milestoneBps : Record JsNumber}
variable {acc : Realized}

/- A completed checkpoint has its points, and a known role. -/
def MilestoneOk (milestoneBps : Record JsNumber) (roleIds : List String)
    (checkpoint : TeamCheckpointState) : Prop :=
  checkpoint.status = .completed →
    bpsOk (numberAt milestoneBps checkpoint.id) = true ∧ checkpoint.roleId ∈ roleIds

/- One checkpoint of the milestone loop. -/
theorem realizeCheckpoint_returns (hProto : "__proto__" ∉ roleIds)
    (hAcc : RealizedOk roleIds acc) {checkpoint : TeamCheckpointState}
    (hOk : MilestoneOk milestoneBps roleIds checkpoint) :
    ∃ acc',
      realizeCheckpoint host milestoneBps acc checkpoint = .ok acc' ∧ RealizedOk roleIds acc' ∧
        acc'.realizedBps =
          if checkpoint.status = .completed then
            acc.realizedBps.add (numberAt milestoneBps checkpoint.id)
          else acc.realizedBps := by
  by_cases hStatus : checkpoint.status = .completed
  · rcases hOk hStatus with ⟨hBps, hRole⟩
    rcases int_of_bpsOk hBps with ⟨n, hn, hNonneg, _⟩
    have hBefore := hAcc.book.nonneg checkpoint.roleId
    refine ⟨⟨acc.realizedBps.add (numberAt milestoneBps checkpoint.id),
      Record.assign acc.realizedRoleBps checkpoint.roleId
        (acc.realizedRoleBps.amount checkpoint.roleId + n)⟩, ?_, ⟨?_, ?_⟩, ?_⟩
    · rw [realizeCheckpoint, if_neg (not_not.mpr hStatus)]
      simp only [bind_eq_ok_iff, assertBps_eq_ok_iff]
      exact ⟨(), hBps, n, by rw [hn]; exact toBigInt_ofInt host n, _,
        hAcc.book.bigintAt_eq hRole, rfl⟩
    · exact hAcc.book.assign hRole (by omega)
    · simp only
      rw [total_assign _ (ne_of_mem_of_not_mem hRole hProto), hAcc.points_eq, hn, add_ofInt]
      congr 1
      ring
    · rw [if_pos hStatus]
  · exact ⟨acc, by rw [realizeCheckpoint, if_pos hStatus], hAcc, by rw [if_neg hStatus]⟩

/- The points of the completed checkpoints, in order. -/
def completedBps (milestoneBps : Record JsNumber) (checkpoints : List TeamCheckpointState) :
    List JsNumber :=
  (checkpoints.filter (fun checkpoint => checkpoint.status = .completed)).map
    (fun checkpoint => numberAt milestoneBps checkpoint.id)

variable {checkpoints : List TeamCheckpointState}

/- The whole milestone loop. -/
theorem realize_returns (hProto : "__proto__" ∉ roleIds)
    (hOk : ∀ checkpoint ∈ checkpoints, MilestoneOk milestoneBps roleIds checkpoint)
    (hAcc : RealizedOk roleIds acc) :
    ∃ acc', checkpoints.foldlM (realizeCheckpoint host milestoneBps) acc = .ok acc' ∧
        RealizedOk roleIds acc' ∧
        acc'.realizedBps =
          (completedBps milestoneBps checkpoints).foldl JsNumber.add acc.realizedBps := by
  induction checkpoints generalizing acc with
  | nil => exact ⟨acc, rfl, hAcc, rfl⟩
  | cons checkpoint rest ih =>
    rcases realizeCheckpoint_returns host hProto hAcc (hOk checkpoint mem_cons_self) with
      ⟨acc₁, hStep, hAcc₁, hSum₁⟩
    rcases ih (fun c hc => hOk c (mem_cons_of_mem checkpoint hc)) hAcc₁ with
      ⟨acc', hRest, hAcc', hSum'⟩
    refine ⟨acc', ?_, hAcc', ?_⟩
    · rw [foldlM_cons, bind_eq_ok_iff]
      exact ⟨acc₁, hStep, hRest⟩
    · rw [hSum', hSum₁]
      unfold completedBps
      by_cases hStatus : checkpoint.status = .completed
      · simp [hStatus]
      · simp [hStatus]

/- What a milestone loop that returns has checked. -/
theorem bpsOk_of_realize {acc' : Realized} (hBook : RoleBook roleIds acc.realizedRoleBps)
    (hRun : checkpoints.foldlM (realizeCheckpoint host milestoneBps) acc = .ok acc') :
    ∀ checkpoint ∈ checkpoints, MilestoneOk milestoneBps roleIds checkpoint := by
  have hStep : ∀ checkpoint ∈ checkpoints, ∀ acc acc₁ : Realized,
        RoleBook roleIds acc.realizedRoleBps →
          realizeCheckpoint host milestoneBps acc checkpoint = .ok acc₁ →
            RoleBook roleIds acc₁.realizedRoleBps ∧
              MilestoneOk milestoneBps roleIds checkpoint := by
    intro checkpoint _ acc acc₁ hBook hStep
    by_cases hStatus : checkpoint.status = .completed
    · rw [realizeCheckpoint, if_neg (not_not.mpr hStatus)] at hStep
      simp only [bind_eq_ok_iff, assertBps_eq_ok_iff, Except.ok.injEq] at hStep
      rcases hStep with ⟨_, hBps, n, hn, before, hRead, hAcc₁⟩
      rcases int_of_bpsOk hBps with ⟨m, hm, hm0, _⟩
      have hRole := (hBook.keys _).mp (mem_keys_of_bigintAt hRead)
      rw [hBook.bigintAt_eq hRole] at hRead
      rw [hm, toBigInt_ofInt] at hn
      cases hRead
      cases hn
      have hBefore := hBook.nonneg checkpoint.roleId
      rw [← hAcc₁]
      exact ⟨hBook.assign hRole (by omega), fun _ => ⟨hBps, hRole⟩⟩
    · rw [realizeCheckpoint, if_pos hStatus] at hStep
      cases hStep
      exact ⟨hBook, fun h => absurd h hStatus⟩
  exact (foldlM_invariant hStep hBook hRun).2

/- A book in entry order is the same book. -/
theorem isWeights_ofList_objectEntries (amounts : Record Int) :
    (OrderedMap.ofList amounts.objectEntries).total = amounts.total ∧
      (∀ k, (OrderedMap.ofList amounts.objectEntries).amount k = amounts.amount k) ∧
      ∀ k, k ∈ (OrderedMap.ofList amounts.objectEntries).keys ↔ k ∈ amounts.keys := by
  have hPerm := amounts.objectEntries_perm
  have hEntries : (OrderedMap.ofList amounts.objectEntries).entries = amounts.objectEntries :=
    entries_ofList ((hPerm.map Prod.fst).nodup_iff.mpr amounts.nodup)
  refine ⟨?_, ?_, ?_⟩
  · unfold OrderedMap.total OrderedMap.values
    rw [hEntries]
    exact (hPerm.map Prod.snd).sum_eq
  · intro k
    unfold OrderedMap.amount
    rw [amounts.get?_ofList_objectEntries]
  · intro k
    rw [mem_keys_iff, mem_keys_iff, amounts.get?_ofList_objectEntries]

theorem allocateMilestone_returns (hTotal : 0 ≤ totalRewardLamports) (hNodup : roleIds.Nodup)
    (hProto : "__proto__" ∉ roleIds)
    (hOk : ∀ checkpoint ∈ checkpoints, MilestoneOk milestoneBps roleIds checkpoint)
    (hSum : (10000 : JsNumber).lt (sumNumbers (completedBps milestoneBps checkpoints)) = false) :
    ∃ split,
      allocateMilestone host totalRewardLamports roleIds checkpoints milestoneBps = .ok split ∧
        SplitOf totalRewardLamports roleIds split := by
  rcases realize_returns host hProto hOk (realizedOk_initial hNodup hProto) with
    ⟨realized, hRun, hRealized, hPoints⟩
  have hLt : (10000 : JsNumber).lt realized.realizedBps = false := by
    rw [hPoints]
    exact hSum
  set points := realized.realizedRoleBps.total with hPts
  have hLe : points ≤ 10000 := by
    have hInt := hLt
    rw [hRealized.points_eq] at hInt
    have hDecide := (lt_ofInt 10000 _).symm.trans hInt
    simpa using hDecide
  have hNonneg : 0 ≤ points := by
    rw [hPts, hRealized.book.total_eq hNodup]
    apply sum_nonneg
    intro v hv
    rcases List.mem_map.mp hv with ⟨r, _, rfl⟩
    exact hRealized.book.nonneg r
  by_cases hZero : realized.realizedBps = 0
  · refine ⟨⟨initializeRoleMap roleIds, totalRewardLamports⟩, ?_, ?_, hTotal, ?_⟩
    · simp only [allocateMilestone, bind_eq_ok_iff, throwIf_eq_ok_iff]
      exact ⟨realized, hRun, (), hLt, by rw [if_pos hZero]⟩
    · exact roleBook_initializeRoleMap hNodup hProto
    · simp [total_initializeRoleMap hNodup hProto]
  · have hPos : 0 < points := by
      rcases hNonneg.lt_or_eq with hLt0 | hEq
      · exact hLt0
      · rw [hRealized.points_eq, ← hPts, ← hEq] at hZero
        exact (hZero rfl).elim
    -- at most all points are realized
    rcases share_bounds hTotal hNonneg hLe with ⟨hAccounted0, hAccountedLe⟩
    rcases isWeights_ofList_objectEntries realized.realizedRoleBps with ⟨hWTotal, hWAmount, hWKeys⟩
    rcases allocateByRatio_returns host hAccounted0 hPos (fun k => by
          rw [hWAmount]
          exact hRealized.book.nonneg k) hWTotal with ⟨allocated, hAllocated, hSplit⟩
    refine ⟨_, ?_, splitOf_merge hNodup hProto hSplit
      (fun k hk => (hRealized.book.keys k).mp ((hWKeys k).mp hk)) hAccountedLe⟩
    simp only [allocateMilestone, bind_eq_ok_iff, throwIf_eq_ok_iff]
    refine ⟨realized, hRun, (), hLt, ?_⟩
    rw [if_neg hZero]
    simp only [bind_eq_ok_iff]
    refine ⟨points, ?_, allocated, hAllocated, rfl⟩
    rw [hRealized.points_eq]
    exact toBigInt_ofInt host points

end Modes

end AgencCore.Team
