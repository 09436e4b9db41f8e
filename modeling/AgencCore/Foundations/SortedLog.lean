import AgencCore.Foundations.KeyedLog
import AgencCore.Foundations.Text

/-
  The first entries of a sorted list.

  A list is sorted by a comparator that refines an order on keys. The first entry of each key is
  then the least entry with that key, and its place is the number of entries with smaller keys.
  Which entries are first therefore depends on the members of the list only, and their places on how
  often smaller entries occur.
-/

namespace Foundations

open List

section

variable {α β κ : Type}

theorem cmp_self (cmp : α → α → Ordering) [Std.TransCmp cmp] (a : α) : cmp a a = .eq :=
  Std.ReflCmp.compare_self

theorem cmp_swap (cmp : α → α → Ordering) [Std.TransCmp cmp] (a b : α) : cmp a b = (cmp b a).swap :=
  Std.OrientedCmp.eq_swap

/- A strictly sorted list is determined by its members. -/
theorem eq_of_pairwise_lt {cmp : α → α → Ordering} [Std.TransCmp cmp] {l l' : List α}
    (hSorted : l.Pairwise (fun a b => cmp a b = .lt))
    (hSorted' : l'.Pairwise (fun a b => cmp a b = .lt)) (hMembers : ∀ a, a ∈ l ↔ a ∈ l') :
    l = l' := by
  have hNe {a b : α} (hLt : cmp a b = .lt) : a ≠ b := by
    rintro rfl
    rw [cmp_self cmp] at hLt
    cases hLt
  refine ((perm_ext_iff_of_nodup (hSorted.imp hNe) (hSorted'.imp hNe)).mpr hMembers).eq_of_pairwise
    ?_ hSorted hSorted'
  intro a b _ _ hLt hGt
  rw [cmp_swap cmp, hLt] at hGt
  cases hGt

/- A comparison that is asked only of different values. -/
theorem ite_ne_eq_then {γ : Type} [DecidableEq γ] {x y : γ} {o : Ordering} (hEq : o = .eq ↔ x = y)
    (rest : Ordering) : (if x ≠ y then o else rest) = o.then rest := by
  by_cases hSame : x = y
  · rw [if_neg (not_not.mpr hSame), hEq.mpr hSame, Ordering.eq_then]
  · rw [if_pos hSame]
    cases o with
    | eq => exact absurd (hEq.mp rfl) hSame
    | _ => rfl

def compareField (cmp : β → β → Ordering) (field : α → β) (a b : α) : Ordering :=
  cmp (field a) (field b)

instance (cmp : β → β → Ordering) [Std.TransCmp cmp] (field : α → β) :
    Std.TransCmp (compareField cmp field) where
  eq_swap := by
    intro a b
    exact cmp_swap cmp (field a) (field b)
  isLE_trans := by
    intro a b c hab hbc
    unfold compareField at *
    exact Std.TransCmp.isLE_trans hab hbc

end

----------
-- First Entries
----------

section

variable {α κ : Type}
variable [DecidableEq κ]

def firstEntries (key : α → κ) (l : List α) : List (Nat × α) :=
  newEntries (fun entry => key entry.2) [] (l.mapIdx (fun index a => (index, a)))

theorem map_snd_firstEntries (key : α → κ) (l : List α) :
    (firstEntries key l).map Prod.snd = newEntries key [] l := by
  rw [firstEntries, ← newEntries_map _ key Prod.snd (fun _ => rfl),
    map_mapIdx_eq_self _ _ (fun _ _ => rfl)]

/- A first entry splits the list at its place. -/
theorem split_of_mem_firstEntries {key : α → κ} {l : List α} {entry : Nat × α}
    (hEntry : entry ∈ firstEntries key l) :
    ∃ before after,
      l = before ++ entry.2 :: after ∧ entry.1 = before.length ∧ key entry.2 ∉ before.map key := by
  rcases (mem_newEntries_iff _ _ _ _).mp hEntry with ⟨before, after, hEq, _, hFirst⟩
  have hPlace : entry.1 = before.length := by
    have hGet : (l.mapIdx (fun index a => (index, a)))[ before.length]? = some entry := by
      simp [hEq]
    rw [getElem?_mapIdx, Option.map_eq_some_iff] at hGet
    rcases hGet with ⟨a, _, hPair⟩
    rw [← hPair]
  refine ⟨before.map Prod.snd, after.map Prod.snd, ?_, by simpa using hPlace, by simpa using hFirst⟩
  have hMap := congrArg (List.map Prod.snd) hEq
  rw [map_mapIdx_eq_self _ _ (fun _ _ => rfl)] at hMap
  simpa using hMap

variable (key : α → κ)
variable (cmpKey cmp : α → α → Ordering)

/- A list sorted by `cmp`, which refines the order `cmpKey` on keys and tells its members apart. -/
structure SortedByKey (l : List α) : Prop where
  sorted : l.Pairwise (fun a b => (cmp a b).isLE = true)
  refines : ∀ a b, (cmp a b).isLE = true → (cmpKey a b).isLE = true
  keys : ∀ a ∈ l, ∀ b ∈ l, cmpKey a b = .eq ↔ key a = key b
  antisymm : ∀ a ∈ l, ∀ b ∈ l, cmp a b = .eq → a = b

variable {key cmpKey cmp}
variable {l l' : List α}
variable [Std.TransCmp cmpKey]

/- The place of a first entry counts the smaller entries. -/
theorem SortedByKey.place (hSorted : SortedByKey key cmpKey cmp l) {entry : Nat × α}
    (hEntry : entry ∈ firstEntries key l) :
    entry.1 = l.countP (fun a => cmpKey a entry.2 == .lt) := by
  rcases split_of_mem_firstEntries hEntry with ⟨before, after, hEq, hPlace, hFirst⟩
  have hPairs := hSorted.sorted
  have hMem : entry.2 ∈ l := by
    rw [hEq]
    simp
  rw [hEq, pairwise_append] at hPairs
  have hBefore : ∀ a ∈ before, (cmpKey a entry.2 == .lt) = true := by
    intro a ha
    have hLe := hSorted.refines _ _ (hPairs.2.2 a ha entry.2 mem_cons_self)
    have hNe : cmpKey a entry.2 ≠ .eq := by
      intro hSame
      have hIn : a ∈ l := by
        rw [hEq]
        exact mem_append_left _ ha
      have hKeys := (hSorted.keys a hIn _ hMem).mp hSame
      exact hFirst (hKeys ▸ List.mem_map_of_mem ha)
    rw [(Ordering.isLE_iff_eq_lt_or_eq_eq.mp hLe).resolve_right hNe]
    rfl
  have hAfter : ∀ a ∈ entry.2 :: after, ¬ (cmpKey a entry.2 == .lt) = true := by
    intro a ha hLt
    have hLe : (cmpKey entry.2 a).isLE = true := by
      rcases List.mem_cons.mp ha with hSelf | hLater
      · rw [hSelf, cmp_self cmpKey]
        rfl
      · exact hSorted.refines _ _ ((List.pairwise_cons.mp hPairs.2.1).1 a hLater)
    rw [cmp_swap cmpKey, beq_iff_eq.mp hLt] at hLe
    cases hLe
  rw [hPlace, hEq, countP_append, List.countP_eq_length.mpr hBefore,
    List.countP_eq_zero.mpr hAfter, Nat.add_zero]

omit [Std.TransCmp cmpKey] in
/- First entries stand in strictly increasing order. -/
theorem SortedByKey.pairwise_newEntries (hSorted : SortedByKey key cmpKey cmp l) :
    (newEntries key [] l).Pairwise (fun a b => cmpKey a b = .lt) := by
  have hSub := newEntries_sublist key [] l
  have hKeys := nodup_keys_newEntries key l
  rw [List.Nodup, pairwise_map] at hKeys
  have hBoth := hKeys.and (hSorted.sorted.sublist hSub)
  apply hBoth.imp_of_mem
  rintro a b ha hb ⟨hNe, hLe⟩
  exact (Ordering.isLE_iff_eq_lt_or_eq_eq.mp (hSorted.refines a b hLe)).resolve_right
    (fun hEq => hNe ((hSorted.keys a (hSub.subset ha) b (hSub.subset hb)).mp hEq))

variable [Std.TransCmp cmp]

omit [Std.TransCmp cmpKey] in
/- The first entry of a key is the least one. -/
theorem SortedByKey.mem_newEntries_iff (hSorted : SortedByKey key cmpKey cmp l) (a : α) :
    a ∈ newEntries key [] l ↔ a ∈ l ∧ ∀ b ∈ l, key b = key a → (cmp a b).isLE = true := by
  have hLeast :
      ∀ a ∈ newEntries key [] l, a ∈ l ∧ ∀ b ∈ l, key b = key a → (cmp a b).isLE = true := by
    intro a ha
    rcases (Foundations.mem_newEntries_iff _ _ _ _).mp ha with ⟨before, after, hEq, _, hFirst⟩
    have hPairs := hSorted.sorted
    rw [hEq, pairwise_append] at hPairs
    refine ⟨by rw [hEq]; simp, ?_⟩
    intro b hb hKey
    rw [hEq, mem_append, mem_cons] at hb
    rcases hb with hBefore | hSelf | hAfter
    · exact absurd (hKey ▸ List.mem_map_of_mem hBefore) hFirst
    · rw [hSelf, cmp_self cmp]
      rfl
    · exact (List.pairwise_cons.mp hPairs.2.1).1 b hAfter
  constructor
  · exact hLeast a
  · rintro ⟨hIn, hMin⟩
    rcases List.mem_map.mp (mem_keys_newEntries_of_mem key hIn) with ⟨b, hb, hSame⟩
    rcases hLeast b hb with ⟨hMem, hLe⟩
    have hEq := Std.OrientedCmp.isLE_antisymm (hMin b hMem hSame) (hLe a hIn hSame.symm)
    rw [hSorted.antisymm a hIn b hMem hEq]
    exact hb

/- First entries depend on the members of the list only. -/
theorem SortedByKey.newEntries_eq (hSorted : SortedByKey key cmpKey cmp l)
    (hSorted' : SortedByKey key cmpKey cmp l') (hMembers : ∀ a, a ∈ l ↔ a ∈ l') :
    newEntries key [] l = newEntries key [] l' := by
  refine eq_of_pairwise_lt hSorted.pairwise_newEntries hSorted'.pairwise_newEntries (fun a => ?_)
  rw [hSorted.mem_newEntries_iff, hSorted'.mem_newEntries_iff, hMembers]
  simp only [hMembers]

end

end Foundations
