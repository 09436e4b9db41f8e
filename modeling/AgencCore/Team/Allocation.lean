import AgencCore.Team.Payout

/-
  The largest-remainder allocation hands out its total.

  When the weights are non-negative and sum to the positive denominator, `allocate` returns, its
  shares are non-negative and they add up to the total. The leftover after the quotas is at most the
  number of positive remainders, so the loop over the extra slots never stops early. Ties between
  remainders are broken by the collation, and where it is silent by the order of insertion.
-/

namespace AgencCore.Team

open Foundations List OrderedMap
open Apportionment (quota)

/-
  `result` splits `total` over the keys of `weights` into non-negative shares.
-/
structure IsSplit (total : Int) (weights result : OrderedMap String Int) : Prop where
  total_eq : result.total = total
  nonneg : result.Nonneg
  keys : ∀ k, k ∈ result.keys ↔ k ∈ weights.keys

/- Slots with a positive remainder are all served. -/
theorem total_giveExtras {extraSlots : Nat} {slots : List (String × Int)}
    (hLen : extraSlots ≤ slots.length) (hPos : ∀ slot ∈ slots.take extraSlots, slot.2 ≠ 0)
    (result : OrderedMap String Int) :
    (giveExtras extraSlots slots result).total = result.total + extraSlots := by
  induction extraSlots generalizing slots result with
  | zero => simp [giveExtras]
  | succ extraSlots ih => cases slots with
      | nil => simp at hLen
      | cons slot rest =>
        rw [take_succ_cons] at hPos
        rw [giveExtras, if_neg (hPos slot mem_cons_self),
          ih (by simpa using hLen) (fun s hs => hPos s (mem_cons_of_mem slot hs)),
          total_set]
        push_cast
        ring

/- A slot that is served has one unit more. -/
theorem amount_giveExtras {extraSlots : Nat} {slots : List (String × Int)}
    (hNodup : (slots.map Prod.fst).Nodup) (hPos : ∀ slot ∈ slots.take extraSlots, slot.2 ≠ 0)
    (result : OrderedMap String Int) (k : String) :
    (giveExtras extraSlots slots result).amount k =
      result.amount k + if k ∈ (slots.map Prod.fst).take extraSlots then 1 else 0 := by
  induction extraSlots generalizing slots result with
  | zero => simp [giveExtras]
  | succ extraSlots ih => cases slots with
      | nil => simp [giveExtras]
      | cons slot rest =>
        rw [map_cons, nodup_cons] at hNodup
        rw [take_succ_cons] at hPos
        rw [giveExtras, if_neg (hPos slot mem_cons_self),
          ih hNodup.2 (fun s hs => hPos s (mem_cons_of_mem slot hs)), amount_set]
        by_cases hSame : slot.1 = k
        · have hOnce : k ∉ (rest.map Prod.fst).take extraSlots := by
            rw [← hSame]
            exact fun hMem => hNodup.1 (mem_of_mem_take hMem)
          simp [hSame, hOnce]
        · simp [hSame, Ne.symm hSame]

theorem mem_keys_giveExtras (extraSlots : Nat) (slots : List (String × Int))
    (result : OrderedMap String Int) (hKnown : ∀ slot ∈ slots, slot.1 ∈ result.keys) (k : String) :
    k ∈ (giveExtras extraSlots slots result).keys ↔ k ∈ result.keys := by
  fun_induction giveExtras extraSlots slots result with
  | case1 | case2 | case3 => rfl
  | case4 extraSlots slot rest result hPos ih =>
    have hSlot := hKnown slot mem_cons_self
    have hKeys := result.keys_set_of_mem (result.amount slot.1 + 1) hSlot
    rw [ih, hKeys]
    intro s hs
    rw [hKeys]
    exact hKnown s (mem_cons_of_mem slot hs)

/- Remainders fall, and equal ones follow the collation. -/
theorem compareRemainders_eq (host : TextHost) : compareRemainders host =
      compareLex (fun a b : String × Int => compare b.2 a.2)
        (fun a b => host.localeCompare a.1 b.1) := by
  funext a b
  unfold compareRemainders compareLex
  rcases lt_trichotomy a.2 b.2 with hLt | hEq | hGt
  · have hCmp : compare b.2 a.2 = .gt := compare_gt_iff_gt.mpr hLt
    simp [hCmp, hLt.ne, not_lt.mpr hLt.le]
  · simp [hEq]
  · have hCmp : compare b.2 a.2 = .lt := compare_lt_iff_lt.mpr hGt
    simp [hCmp, hGt.ne', hGt]

instance (host : TextHost) : Std.TransCmp (compareRemainders host) := by
  have hFirst : Std.TransCmp (fun a b : String × Int => compare b.2 a.2) :=
    { eq_swap := Std.OrientedCmp.eq_swap
      isLE_trans := fun hab hbc => Std.TransCmp.isLE_trans hbc hab }
  have hSecond : Std.TransCmp (fun a b : String × Int => host.localeCompare a.1 b.1) :=
    { eq_swap := Std.OrientedCmp.eq_swap
      isLE_trans := fun hab hbc => Std.TransCmp.isLE_trans hab hbc }
  rw [compareRemainders_eq]
  infer_instance

theorem falling_sortBy_compareRemainders (host : TextHost) (l : List (String × Int)) :
    ((sortBy (compareRemainders host) l).map Prod.snd).Pairwise (fun a b => b ≤ a) := by
  rw [pairwise_map]
  apply (pairwise_sortBy (compareRemainders host) l).imp
  intro a b hLe
  by_contra hLt
  have hNe : ¬ a.2 = b.2 := by omega
  have hNotGt : ¬ a.2 > b.2 := by omega
  simp [compareRemainders, hNe, hNotGt] at hLe

----------
-- The Order Of The Slots
----------

section

variable (host : TextHost)
variable {keys : List String}
variable {remainder : String → Int}

/- The slots in the order in which they are served. -/
def slotsOf (keys : List String) (remainder : String → Int) : List (String × Int) :=
  sortBy (compareRemainders host) (keys.map (fun key => (key, remainder key)))

theorem mem_slotsOf {slot : String × Int} (hMem : slot ∈ slotsOf host keys remainder) :
    slot.1 ∈ keys ∧ slot.2 = remainder slot.1 := by
  rw [slotsOf, mem_sortBy] at hMem
  rcases List.mem_map.mp hMem with ⟨key, hKey, rfl⟩
  exact ⟨hKey, rfl⟩

theorem map_slotsOf_perm {β : Type} (f : String × Int → β) :
    ((slotsOf host keys remainder).map f).Perm (keys.map (fun key => f (key, remainder key))) := by
  have hMap := (sortBy_perm (compareRemainders host)
    (keys.map (fun key => (key, remainder key)))).map f
  rwa [List.map_map] at hMap

theorem keys_slotsOf_perm : ((slotsOf host keys remainder).map Prod.fst).Perm keys :=
  (map_slotsOf_perm host Prod.fst).trans (.of_eq (List.map_id keys))

/- The first `leftover` slots have positive remainders. -/
theorem pos_of_mem_take_slots {leftover : Nat}
    (hCount : leftover ≤ (keys.map remainder).countP (fun r => 0 < r)) :
    ∀ slot ∈ (slotsOf host keys remainder).take leftover, 0 < slot.2 := by
  rw [← (map_slotsOf_perm host Prod.snd).countP_eq] at hCount
  intro slot hSlot
  have hIn := List.mem_map_of_mem (f := Prod.snd) hSlot
  rw [map_take] at hIn
  exact Apportionment.pos_of_mem_take (falling_sortBy_compareRemainders host _) hCount hIn

/- A key with a larger remainder than a served one is served. -/
theorem mem_take_slots_of_lt {leftover : Nat} {slot : String × Int}
    (hMem : slot ∈ (slotsOf host keys remainder).take leftover) {key : String} (hKey : key ∈ keys)
    (hMore : slot.2 < remainder key) :
    key ∈ ((slotsOf host keys remainder).map Prod.fst).take leftover := by
  have hIn : key ∈ (slotsOf host keys remainder).map Prod.fst :=
    (keys_slotsOf_perm host).mem_iff.mpr hKey
  rw [← take_append_drop leftover (map Prod.fst _), mem_append, ← map_drop] at hIn
  refine hIn.resolve_right (fun hLate => ?_)
  rcases List.mem_map.mp hLate with ⟨late, hDrop, rfl⟩
  have hFalling := falling_sortBy_compareRemainders host
    (keys.map (fun key => (key, remainder key)))
  rw [← slotsOf, ← take_append_drop leftover (slotsOf _ _ _), map_append,
    pairwise_append] at hFalling
  have hLe := hFalling.2.2 _ (List.mem_map_of_mem hMem) _ (List.mem_map_of_mem hDrop)
  rw [(mem_slotsOf host (mem_of_mem_drop hDrop)).2] at hLe
  exact absurd hMore (not_lt.mpr hLe)

end

----------
-- Allocation Returns A Split
----------

variable (host : TextHost)
variable {total denominator : Int}
variable {weights : OrderedMap String Int}

/-
  Every key has its quota and the served ones have one unit more. They have a remainder, and whoever
  has a larger one is served too.
-/
structure Served (total denominator : Int) (weights result : OrderedMap String Int)
    (served : List String) : Prop where
  amount : ∀ k, result.amount k =
    quota total denominator (weights.amount k) + if k ∈ served then 1 else 0
  pos : ∀ k ∈ served, 0 < total * weights.amount k % denominator
  first : ∀ k ∈ served, ∀ k', total * weights.amount k % denominator <
    total * weights.amount k' % denominator → k' ∈ served

theorem allocate_served (hTotal : 0 ≤ total) (hDenominator : 0 < denominator)
    (hNonneg : weights.Nonneg) (hSum : weights.total = denominator) :
    ∃ result served, allocate host total weights denominator = .ok result ∧
      IsSplit total weights result ∧ Served total denominator weights result served := by
  set keys := host.sort weights.keys with hKeys
  have hPerm : keys.Perm weights.keys := sortBy_perm host.localeCompare weights.keys
  have hNodup : keys.Nodup := hPerm.nodup_iff.mpr weights.nodup_keys
  have hWeights : (keys.map weights.amount).sum = denominator := by
    rw [← hSum, total_eq_sum_amount]
    exact (hPerm.map weights.amount).sum_eq
  set base := fun key => (total * weights.amount key).tdiv denominator with hBase
  set remainder := fun key => (total * weights.amount key).tmod denominator with hRemainder
  have hQuota (key : String) : base key = quota total denominator (weights.amount key) :=
    Int.tdiv_eq_ediv_of_nonneg (mul_nonneg hTotal (hNonneg key))
  have hRest (key : String) : remainder key = total * weights.amount key % denominator :=
    Int.tmod_eq_emod_of_nonneg (mul_nonneg hTotal (hNonneg key))
  have hBaseMap : keys.map base = (keys.map weights.amount).map (quota total denominator) := by
    rw [List.map_map]
    exact map_congr_left (fun key _ => hQuota key)
  have hRemainderMap : keys.map remainder =
      (keys.map weights.amount).map (Apportionment.remainder total denominator) := by
    rw [List.map_map]
    exact map_congr_left (fun key _ => hRest key)
  set leftover := total - (keys.map base).sum with hLeftover
  have hLeftNonneg : 0 ≤ leftover := by
    rw [hLeftover, hBaseMap]
    exact Apportionment.leftover_nonneg hDenominator hWeights
  have hCount : leftover.toNat ≤ (keys.map remainder).countP (fun r => 0 < r) := by
    have hLe := Apportionment.leftover_le_countP (t := total) hDenominator hWeights
    rw [← hBaseMap, ← hRemainderMap] at hLe
    omega
  set quotas := OrderedMap.ofList (keys.map (fun key => (key, base key))) with hQuotas
  have hQuotaKeys : quotas.keys = keys := keys_ofList_map hNodup base
  have hZero {k : String} (hAbsent : k ∉ keys) : weights.amount k = 0 :=
    amount_of_not_mem (mt hPerm.mem_iff.mpr hAbsent)
  have hPos := pos_of_mem_take_slots host hCount
  have hAmount (k : String) :
      (giveExtras leftover.toNat (slotsOf host keys remainder) quotas).amount k =
        quota total denominator (weights.amount k) +
          if k ∈ ((slotsOf host keys remainder).map Prod.fst).take leftover.toNat then 1
          else 0 := by
    rw [amount_giveExtras ((keys_slotsOf_perm host).nodup_iff.mpr hNodup)
      (fun slot hMem => (hPos slot hMem).ne'), ← hQuota, OrderedMap.amount,
      OrderedMap.get?_ofList_map]
    split
    · rfl
    · next hAbsent => simp [hBase, hZero hAbsent]
  refine ⟨giveExtras leftover.toNat (slotsOf host keys remainder) quotas, _, ?_, ⟨?_, ?_, ?_⟩,
    hAmount, ?_, ?_⟩
  · simp only [allocate, bind_eq_ok_iff, forEachM_eq_ok_iff, throwIf_eq_ok_iff,
      decide_eq_false_iff_not, not_lt]
    exact ⟨(), fun key _ => hNonneg key, (), hLeftNonneg, rfl⟩
  · rw [total_giveExtras _ (fun slot hMem => (hPos slot hMem).ne'),
      total_ofList_map hNodup]
    · omega
    · have hLen := (keys.map remainder).countP_le_length (p := fun r => 0 < r)
      rw [length_map] at hLen
      rw [slotsOf, length_sortBy, length_map]
      omega
  · intro k
    rw [hAmount]
    have hQuotaNonneg : 0 ≤ quota total denominator (weights.amount k) :=
      Int.ediv_nonneg (mul_nonneg hTotal (hNonneg k)) hDenominator.le
    split <;> omega
  · intro k
    rw [mem_keys_giveExtras, hQuotaKeys]
    · exact hPerm.mem_iff
    · intro slot hMem
      rw [hQuotaKeys]
      exact (mem_slotsOf host hMem).1
  · intro k hServed
    rw [← map_take] at hServed
    rcases List.mem_map.mp hServed with ⟨slot, hMem, rfl⟩
    rw [← hRest, ← (mem_slotsOf host (mem_of_mem_take hMem)).2]
    exact hPos slot hMem
  · intro k hServed k' hMore
    rw [← map_take] at hServed
    rcases List.mem_map.mp hServed with ⟨slot, hMem, rfl⟩
    rw [← hRest, ← hRest, ← (mem_slotsOf host (mem_of_mem_take hMem)).2] at hMore
    refine mem_take_slots_of_lt host hMem ?_ hMore
    -- a key that is not there has no remainder
    by_contra hAbsent
    simp only [hRemainder, hZero hAbsent, mul_zero, Int.zero_tmod] at hMore
    exact absurd (hPos slot hMem) hMore.asymm

theorem allocateByRatio_returns (hTotal : 0 ≤ total) (hDenominator : 0 < denominator)
    (hNonneg : weights.Nonneg) (hSum : weights.total = denominator) :
    ∃ result, allocateByRatio host total weights denominator = .ok result ∧
        IsSplit total weights result := by
  rcases allocate_served host hTotal hDenominator hNonneg hSum with ⟨result, _, hOk, hSplit, _⟩
  refine ⟨result, ?_, hSplit⟩
  simp only [allocateByRatio, bind_eq_ok_iff, throwIf_eq_ok_iff, decide_eq_false_iff_not, not_le]
  exact ⟨(), hDenominator, hOk⟩

theorem allocateByWeights_returns (hTotal : 0 ≤ total) (hNonneg : weights.Nonneg)
    (hPos : 0 < weights.total) :
    ∃ result, allocateByWeights host total weights = .ok result ∧ IsSplit total weights result := by
  rcases allocate_served host hTotal hPos hNonneg rfl with ⟨result, _, hOk, hSplit, _⟩
  refine ⟨result, ?_, hSplit⟩
  simp only [allocateByWeights, bind_eq_ok_iff, throwIf_eq_ok_iff, decide_eq_false_iff_not, not_le]
  exact ⟨(), hPos, hOk⟩

----------
-- Fairness
----------

/- The shares are rounded quotas that sum to the total and grow with the weights. -/
structure FairlyShared (total denominator : Int) (weights result : OrderedMap String Int) :
    Prop where
  rounded : ∀ k, result.amount k = total * weights.amount k / denominator ∨
    result.amount k = total * weights.amount k / denominator + 1
  zero : ∀ k, weights.amount k = 0 → result.amount k = 0
  sum : result.total = total
  monotone : ∀ k k', weights.amount k' < weights.amount k → result.amount k' ≤ result.amount k

omit host in
theorem Served.fairlyShared {result : OrderedMap String Int} {served : List String}
    (hServed : Served total denominator weights result served) (hTotal : 0 ≤ total)
    (hDenominator : 0 < denominator) (hSum : result.total = total) :
    FairlyShared total denominator weights result := by
  refine ⟨fun k => ?_, fun k hZero => ?_, hSum, fun k k' hLess => ?_⟩
  · rw [hServed.amount k, quota]
    split <;> omega
  · have hNot : k ∉ served := by
      intro hMem
      have hPos := hServed.pos k hMem
      simp [hZero] at hPos
    simp [hServed.amount k, hNot, hZero, quota]
  · have hMul : total * weights.amount k' ≤ total * weights.amount k :=
      mul_le_mul_of_nonneg_left hLess.le hTotal
    have hQuota : quota total denominator (weights.amount k') ≤
        quota total denominator (weights.amount k) := Int.ediv_le_ediv hDenominator hMul
    -- if the quotas are the same, the larger weight has the larger remainder
    have hFirst (hMem : k' ∈ served) (hSame : quota total denominator (weights.amount k') =
        quota total denominator (weights.amount k)) : k ∈ served := by
      have hPos := hServed.pos k' hMem
      refine hServed.first k' hMem k ?_
      unfold quota at *
      have hSome : total ≠ 0 := by
        rintro rfl
        simp at hPos
      have hStrict : total * weights.amount k' < total * weights.amount k :=
        mul_lt_mul_of_pos_left hLess (lt_of_le_of_ne hTotal hSome.symm)
      have hDiv := Int.mul_ediv_add_emod (total * weights.amount k) denominator
      have hDiv' := Int.mul_ediv_add_emod (total * weights.amount k') denominator
      rw [hSame] at hDiv'
      omega
    rw [hServed.amount, hServed.amount]
    split <;> split <;> grind

/- The result does not depend on the order in which the weights were inserted. -/
def IgnoresOrder (total denominator : Int) (weights result : OrderedMap String Int) : Prop :=
  ∀ weights' : OrderedMap String Int, weights'.entries.Perm weights.entries →
    ∃ result', allocate host total weights' denominator = .ok result' ∧
      ∀ k, result'.amount k = result.amount k

def twoKeys (a b : String) (hNe : a ≠ b) : OrderedMap String Int :=
  ⟨[(a, 1), (b, 1)], by simp [hNe]⟩

theorem amount_twoKeys {a b : String} (hNe : a ≠ b) (k : String) :
    (twoKeys a b hNe).amount k = if k ∈ [a, b] then 1 else 0 := by
  simp only [OrderedMap.amount, OrderedMap.get?, twoKeys, Entries.lookup, mem_cons]
  grind

variable {host}

/- Keys that the collation does not tell apart are served in the order of insertion. -/
theorem allocate_twoKeys {a b : String} (hNe : a ≠ b) (hEq : host.localeCompare a b = .eq) :
    ∃ result, allocate host 1 (twoKeys a b hNe) 2 = .ok result ∧
      result.amount a = 1 ∧ result.amount b = 0 := by
  have hKeys : host.sort [a, b] = [a, b] := sortBy_eq_self (by simp [hEq])
  have hSlots : sortBy (compareRemainders host) [(a, 1), (b, 1)] = [(a, 1), (b, 1)] :=
    sortBy_eq_self (by simp [compareRemainders, hEq])
  have hList : (twoKeys a b hNe).keys = [a, b] := rfl
  have hPos : ∀ slot ∈ [(a, (1 : Int)), (b, 1)].take 1, slot.2 ≠ 0 := by simp
  refine ⟨giveExtras 1 [(a, 1), (b, 1)] (OrderedMap.ofList [(a, 0), (b, 0)]), ?_, ?_, ?_⟩
  · simp [allocate, hList, hKeys, amount_twoKeys, hSlots, bind_eq_ok_iff]
  · rw [amount_giveExtras (by simp [hNe]) hPos]
    simp [OrderedMap.amount, OrderedMap.ofList, OrderedMap.get?_set, Ne.symm hNe]
  · rw [amount_giveExtras (by simp [hNe]) hPos]
    simp [OrderedMap.amount, OrderedMap.ofList, Ne.symm hNe]

variable (host)

/- Allocation is fair exactly if the collation tells different keys apart. -/
theorem allocate_fair_iff :
    (∀ total denominator weights, 0 ≤ total → 0 < denominator → weights.Nonneg →
      weights.total = denominator → ∃ result, allocate host total weights denominator = .ok result ∧
        FairlyShared total denominator weights result ∧
        IgnoresOrder host total denominator weights result) ↔
      ∀ a b, host.localeCompare a b = .eq → a = b := by
  constructor
  · intro hFair a b hEq
    by_contra hNe
    rcases hFair 1 2 (twoKeys a b hNe) (by decide) (by decide)
      (fun k => by rw [amount_twoKeys]; split <;> decide) rfl with ⟨result, hOk, _, hIgnores⟩
    rcases hIgnores (twoKeys b a (Ne.symm hNe)) (.swap _ _ _) with ⟨result', hOk', hSame⟩
    rcases allocate_twoKeys hNe hEq with ⟨_, hFirst, hOne, _⟩
    rcases allocate_twoKeys (Ne.symm hNe) (Std.OrientedCmp.eq_symm hEq) with ⟨_, hSecond, _, hNone⟩
    rw [hFirst, Except.ok.injEq] at hOk
    rw [hSecond, Except.ok.injEq] at hOk'
    have hBoth := hSame a
    rw [← hOk, ← hOk', hOne, hNone] at hBoth
    cases hBoth
  · intro hSeparates total denominator weights hTotal hDenominator hNonneg hSum
    rcases allocate_served host hTotal hDenominator hNonneg hSum with
      ⟨result, served, hOk, hSplit, hServed⟩
    refine ⟨result, hOk, hServed.fairlyShared hTotal hDenominator hSplit.total_eq, ?_⟩
    intro weights' hPerm
    refine ⟨result, ?_, fun _ => rfl⟩
    have hKeys : host.sort weights'.keys = host.sort weights.keys :=
      sortBy_eq_of_perm (hPerm.map Prod.fst) (fun a _ b _ => hSeparates a b)
    have hAmount : weights'.amount = weights.amount := by
      funext k
      refine congrArg (Option.getD · 0) (Option.ext (fun value => ?_))
      rw [← mem_entries_iff, ← mem_entries_iff, hPerm.mem_iff]
    rw [← hOk, allocate, allocate, hKeys, hAmount]

/- An `e` with a combining acute is one letter. -/
def composeAcute : List Char → List Char
| 'e' :: '\u0301' :: rest => '\u00e9' :: composeAcute rest
| c :: rest => c :: composeAcute rest
| [] => []

/- A collation that ignores how the letter is spelled. -/
def composingHost : TextHost :=
  { TextHost.basic with
    localeCompare := compareOn (fun s => composeAcute s.toList)
    localeCompare_trans := inferInstance }

/- Two spellings of one letter share one lamport by the order of insertion. -/
theorem spellings_share_by_order : ∃ result result',
      allocate composingHost 1 (twoKeys "\u00e9" "e\u0301" (by decide)) 2 = .ok result ∧
        allocate composingHost 1 (twoKeys "e\u0301" "\u00e9" (by decide)) 2 = .ok result' ∧
        result.amount "\u00e9" = 1 ∧ result'.amount "\u00e9" = 0 := by
  have hEq : composingHost.localeCompare "\u00e9" "e\u0301" = .eq := by decide +kernel
  rcases allocate_twoKeys (by decide) hEq with ⟨result, hOk, hOne, _⟩
  rcases allocate_twoKeys (by decide) (Std.OrientedCmp.eq_symm hEq) with ⟨result', hOk', _, hNone⟩
  exact ⟨result, result', hOk, hOk', hOne, hNone⟩

end AgencCore.Team
