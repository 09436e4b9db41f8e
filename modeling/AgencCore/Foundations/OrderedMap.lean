import Mathlib

/-
  Finite maps that remember the order of insertion.

  An `OrderedMap` is an association list whose keys are pairwise distinct. Writing to a present key
  keeps its position, and writing to a new key appends it, which is the iteration order of a
  JavaScript `Map`.
-/

namespace Foundations

theorem map_set_of_eq {α β : Type} {f : α → β} {l : List α} {index : Nat} {old new : α}
    (hOld : l[index]? = some old) (hSame : f new = f old) : (l.set index new).map f = l.map f := by
  rcases List.getElem?_eq_some_iff.mp hOld with ⟨hBound, rfl⟩
  rw [List.map_set, hSame, ← List.getElem_map f, List.set_getElem_self]
  exact (List.length_map f).symm ▸ hBound

namespace Entries

open List

variable {κ α β : Type}
variable [DecidableEq κ]

/- The value stored under a key. -/
def lookup (k : κ) : List (κ × α) → Option α
| [] => none
| (k', a) :: rest => if k' = k then some a else lookup k rest

/- Overwrite the value of a key, or append a new entry. -/
def put (k : κ) (a : α) : List (κ × α) → List (κ × α)
| [] => [(k, a)]
| (k', a') :: rest => if k' = k then (k, a) :: rest
    else (k', a') :: put k a rest

/- Remove the entry of a key. -/
def remove (k : κ) : List (κ × α) → List (κ × α)
| [] => []
| (k', a') :: rest => if k' = k then rest else (k', a') :: remove k rest

/- A key is listed exactly when its lookup succeeds. -/
theorem lookup_isSome_iff (k : κ) (l : List (κ × α)) :
    (lookup k l).isSome ↔ k ∈ l.map Prod.fst := by
  induction l with
  | nil => simp [lookup]
  | cons entry rest ih =>
    rcases entry with ⟨k', a'⟩
    by_cases hKey : k' = k
    · simp [lookup, hKey]
    · have hNe : k ≠ k' := fun h => hKey h.symm
      simp [lookup, hKey, ih, hNe]

variable {l : List (κ × α)}

/- With distinct keys, lookup reads off membership. -/
theorem lookup_eq_some_iff (hNodup : (l.map Prod.fst).Nodup) (k : κ) (a : α) :
    lookup k l = some a ↔ (k, a) ∈ l := by
  induction l with
  | nil => simp [lookup]
  | cons entry rest ih =>
    rcases entry with ⟨k', a'⟩
    simp only [map_cons, nodup_cons] at hNodup
    by_cases hKey : k' = k
    · subst hKey
      have hAbsent : (k', a) ∉ rest := by
        intro hMem
        exact hNodup.1 (List.mem_map_of_mem (f := Prod.fst) hMem)
      simp [lookup, hAbsent, eq_comm]
    · have hNe : ¬ k = k' := fun h => hKey h.symm
      simp [lookup, hKey, ih hNodup.2, hNe]

theorem lookup_put (k j : κ) (a : α) (l : List (κ × α)) :
    lookup j (put k a l) = if k = j then some a else lookup j l := by
  induction l with
  | nil => simp [put, lookup]
  | cons entry rest ih =>
    rcases entry with ⟨k', a'⟩
    by_cases hKey : k' = k
    · subst hKey
      by_cases hj : k' = j <;> simp [put, lookup, hj]
    · simp only [put, lookup, if_neg hKey, ih]
      grind

/- Overwriting keeps the key list. -/
theorem map_fst_put_of_mem {k : κ} (a : α) (hMem : k ∈ l.map Prod.fst) :
    (put k a l).map Prod.fst = l.map Prod.fst := by
  induction l with
  | nil => simp at hMem
  | cons entry rest ih =>
    rcases entry with ⟨k', a'⟩
    by_cases hKey : k' = k
    · simp [put, hKey]
    · have hRest : k ∈ rest.map Prod.fst := by
        have hNe : ¬ k = k' := fun h => hKey h.symm
        simpa [hNe] using hMem
      simp [put, hKey, ih hRest]

/- A new key is appended. -/
theorem put_of_not_mem {k : κ} (a : α) (hAbsent : k ∉ l.map Prod.fst) :
    put k a l = l ++ [(k, a)] := by
  induction l with
  | nil => rfl
  | cons entry rest ih =>
    rcases entry with ⟨k', a'⟩
    simp only [map_cons, mem_cons, not_or] at hAbsent
    have hKey : ¬ k' = k := fun h => hAbsent.1 h.symm
    simp [put, hKey, ih hAbsent.2]

theorem nodup_put (hNodup : (l.map Prod.fst).Nodup) (k : κ) (a : α) :
    ((put k a l).map Prod.fst).Nodup := by
  by_cases hMem : k ∈ l.map Prod.fst
  · rw [map_fst_put_of_mem a hMem]
    exact hNodup
  · rw [put_of_not_mem a hMem]
    simpa using hNodup.concat hMem

theorem remove_sublist (k : κ) (l : List (κ × α)) : List.Sublist (remove k l) l := by
  induction l with
  | nil => exact List.Sublist.refl _
  | cons entry rest ih =>
    rcases entry with ⟨k', a'⟩
    by_cases hKey : k' = k
    · simp [remove, hKey]
    · simp [remove, hKey, ih]

theorem lookup_remove (hNodup : (l.map Prod.fst).Nodup) (k j : κ) :
    lookup j (remove k l) = if k = j then none else lookup j l := by
  induction l with
  | nil => simp [remove, lookup]
  | cons entry rest ih =>
    rcases entry with ⟨k', a'⟩
    simp only [map_cons, nodup_cons] at hNodup
    by_cases hKey : k' = k
    · subst hKey
      by_cases hj : k' = j
      · subst hj
        have hNone : lookup k' rest = none := by
          rw [← Option.not_isSome_iff_eq_none, lookup_isSome_iff]
          exact hNodup.1
        simp [remove, hNone]
      · simp [remove, lookup, hj]
    · simp only [remove, lookup, if_neg hKey, ih hNodup.2]
      grind

theorem lookup_map (f : κ → α → β) (k : κ) (l : List (κ × α)) :
    lookup k (l.map (fun entry => (entry.1, f entry.1 entry.2))) = (lookup k l).map (f k) := by
  induction l with
  | nil => rfl
  | cons entry rest ih =>
    rcases entry with ⟨k', a'⟩
    by_cases hKey : k' = k
    · subst hKey
      simp [lookup]
    · simp only [map_cons, lookup, hKey, if_false]
      exact ih

/- Overwriting moves the sum by the change at the key. -/
theorem sum_put (f : α → Int) (k : κ) (v : α) (l : List (κ × α)) :
    ((put k v l).map (fun entry => f entry.2)).sum =
      (l.map (fun entry => f entry.2)).sum - ((lookup k l).map f).getD 0 + f v := by
  induction l with
  | nil => simp [put, lookup]
  | cons entry rest ih =>
    rcases entry with ⟨k', a'⟩
    by_cases hKey : k' = k
    · subst hKey
      simp [put, lookup]
      ring
    · simp only [put, lookup, hKey, if_false, map_cons, sum_cons, ih]
      ring

/- Removing a key takes its value from the sum. -/
theorem sum_remove (f : α → Int) (k : κ) (l : List (κ × α)) :
    ((remove k l).map (fun entry => f entry.2)).sum =
      (l.map (fun entry => f entry.2)).sum - ((lookup k l).map f).getD 0 := by
  induction l with
  | nil => rfl
  | cons entry rest ih =>
    rcases entry with ⟨k', a'⟩
    by_cases hKey : k' = k
    · subst hKey
      simp [remove, lookup]
    · simp only [remove, lookup, hKey, if_false, map_cons, sum_cons, ih]
      ring

end Entries

/- An insertion-ordered map with distinct keys. -/
structure OrderedMap (κ α : Type) where
  entries : List (κ × α)
  nodup : (entries.map Prod.fst).Nodup
deriving DecidableEq

namespace OrderedMap

variable {κ α β : Type}

def empty : OrderedMap κ α := ⟨[], List.nodup_nil⟩

def keys (m : OrderedMap κ α) : List κ := m.entries.map Prod.fst

def values (m : OrderedMap κ α) : List α := m.entries.map Prod.snd

def size (m : OrderedMap κ α) : Nat := m.entries.length

variable [DecidableEq κ]

def get? (m : OrderedMap κ α) (k : κ) : Option α := Entries.lookup k m.entries

def has (m : OrderedMap κ α) (k : κ) : Bool := (m.get? k).isSome

def set (m : OrderedMap κ α) (k : κ) (a : α) : OrderedMap κ α :=
  ⟨Entries.put k a m.entries, Entries.nodup_put m.nodup k a⟩

def delete (m : OrderedMap κ α) (k : κ) : OrderedMap κ α :=
  ⟨Entries.remove k m.entries, m.nodup.sublist ((Entries.remove_sublist k m.entries).map _)⟩

/- Insert the pairs of a list from left to right. -/
def ofList (l : List (κ × α)) : OrderedMap κ α :=
  l.foldl (fun m entry => m.set entry.1 entry.2) empty

/- Rewrite every value in place, keeping the key order. -/
def mapValues (f : κ → α → β) (m : OrderedMap κ α) : OrderedMap κ β :=
  ⟨m.entries.map (fun entry => (entry.1, f entry.1 entry.2)), by
      rw [List.map_map]
      exact m.nodup⟩

----------
-- Lookup Laws
----------

@[simp] theorem get?_empty (k : κ) : (empty : OrderedMap κ α).get? k = none := rfl

variable (m : OrderedMap κ α)

theorem get?_set (k j : κ) (a : α) :
    (m.set k a).get? j = if k = j then some a else m.get? j := Entries.lookup_put k j a m.entries

@[simp] theorem get?_set_self (k : κ) (a : α) : (m.set k a).get? k = some a := by simp [get?_set]

variable {k : κ}

theorem get?_set_of_ne {j : κ} (a : α) (hNe : k ≠ j) :
    (m.set k a).get? j = m.get? j := by simp [get?_set, hNe]

/- What a key holds after a write is new there, or is kept. -/
theorem get?_set_eq_some {m : OrderedMap κ α} {j : κ} {a b : α}
    (hGet : (m.set k a).get? j = some b) : k = j ∧ a = b ∨ k ≠ j ∧ m.get? j = some b := by
  rw [get?_set] at hGet
  split at hGet
  · cases hGet
    exact Or.inl ⟨by assumption, rfl⟩
  · exact Or.inr ⟨by assumption, hGet⟩

theorem get?_delete (k j : κ) :
    (m.delete k).get? j = if k = j then none else m.get? j := Entries.lookup_remove m.nodup k j

theorem mem_entries_iff (k : κ) (a : α) :
    (k, a) ∈ m.entries ↔ m.get? k = some a := (Entries.lookup_eq_some_iff m.nodup k a).symm

theorem mem_keys_iff (k : κ) : k ∈ m.keys ↔ (m.get? k).isSome :=
  (Entries.lookup_isSome_iff k m.entries).symm

theorem mem_keys_of_get? {m : OrderedMap κ α} {a : α} (hGet : m.get? k = some a) : k ∈ m.keys :=
  (m.mem_keys_iff k).mpr (Option.isSome_of_eq_some hGet)

theorem has_iff_mem_keys (k : κ) : m.has k = true ↔ k ∈ m.keys :=
  (m.mem_keys_iff k).symm

theorem mem_values_iff (a : α) : a ∈ m.values ↔ ∃ k, m.get? k = some a := by
  constructor
  · intro hMem
    rcases List.mem_map.mp hMem with ⟨⟨k, b⟩, hEntry, hEq⟩
    have hb : b = a := hEq
    subst hb
    exact ⟨k, (m.mem_entries_iff k b).mp hEntry⟩
  · rintro ⟨k, hGet⟩
    exact List.mem_map.mpr ⟨(k, a), (m.mem_entries_iff k a).mpr hGet, rfl⟩

variable {l : List (κ × α)}

/- A map built from a list holds only pairs of the list. -/
theorem mem_of_get?_ofList {a : α} (hGet : (ofList l).get? k = some a) : (k, a) ∈ l := by
  have hAll : ∀ j b, (ofList l).get? j = some b → (j, b) ∈ l := by
    unfold ofList
    refine List.foldlRecOn
      (motive := fun m : OrderedMap κ α => ∀ j b, m.get? j = some b → (j, b) ∈ l) l _ ?_ ?_
    · intro j b hEmpty
      simp at hEmpty
    · intro m hIn entry hMem j b hSet
      rw [get?_set] at hSet
      split at hSet
      · rename_i hKey
        cases hSet
        rw [← hKey]
        exact hMem
      · exact hIn j b hSet
  exact hAll k a hGet

omit [DecidableEq κ] in
theorem nodup_keys : m.keys.Nodup := m.nodup

theorem get?_mapValues (f : κ → α → β) (m : OrderedMap κ α) (k : κ) :
    (m.mapValues f).get? k = (m.get? k).map (f k) := Entries.lookup_map f k m.entries

omit [DecidableEq κ] in
@[simp] theorem keys_mapValues (f : κ → α → β) (m : OrderedMap κ α) :
    (m.mapValues f).keys = m.keys := by simp [keys, mapValues, Function.comp_def]

theorem keys_set_of_mem (a : α) (hMem : k ∈ m.keys) :
    (m.set k a).keys = m.keys := Entries.map_fst_put_of_mem a hMem

theorem entries_set_of_not_mem (a : α) (hAbsent : k ∉ m.keys) :
    (m.set k a).entries = m.entries ++ [(k, a)] := Entries.put_of_not_mem a hAbsent

theorem mem_keys_set (k j : κ) (a : α) : j ∈ (m.set k a).keys ↔ j = k ∨ j ∈ m.keys := by
  rw [← has_iff_mem_keys, ← has_iff_mem_keys]
  unfold has
  rw [get?_set]
  by_cases hKey : k = j
  · simp [hKey]
  · have hNe : ¬ j = k := fun h => hKey h.symm
    simp [hKey, hNe]

theorem mem_keys_ofList (l : List (κ × α)) (k : κ) : k ∈ (ofList l).keys ↔ k ∈ l.map Prod.fst := by
  have hFold : ∀ (rest : List (κ × α)) (m : OrderedMap κ α),
        k ∈ (rest.foldl (fun acc entry => acc.set entry.1 entry.2)
          m).keys ↔ k ∈ m.keys ∨ k ∈ rest.map Prod.fst := by
    intro rest
    induction rest with
    | nil => simp
    | cons entry rest ih =>
      intro m
      rw [List.foldl_cons, ih, mem_keys_set, List.map_cons, List.mem_cons]
      tauto
  have hEmpty := hFold l empty
  simpa [ofList, keys, empty] using hEmpty

/- Distinct pairs are stored in the order of the list. -/
theorem entries_ofList (hNodup : (l.map Prod.fst).Nodup) : (ofList l).entries = l := by
  have hFold : ∀ (rest : List (κ × α)) (m : OrderedMap κ α), (m.keys ++ rest.map Prod.fst).Nodup →
          (rest.foldl (fun acc entry => acc.set entry.1 entry.2)
            m).entries = m.entries ++ rest := by
    intro rest
    induction rest with
    | nil => simp
    | cons entry rest ih =>
      intro m hAll
      have hAbsent : entry.1 ∉ m.keys := by
        intro hMem
        exact (List.nodup_append.mp hAll).2.2 _ hMem entry.1 (by simp) rfl
      have hEntries := m.entries_set_of_not_mem entry.2 hAbsent
      rw [List.foldl_cons, ih, hEntries]
      · simp
      · simpa [keys, hEntries] using hAll
  simpa [ofList, empty, keys] using hFold l empty (by simpa [keys, empty] using hNodup)

/- A table of a function over distinct keys. -/
theorem entries_ofList_map {keys : List κ} (hNodup : keys.Nodup) (f : κ → α) :
    (ofList (keys.map (fun k => (k, f k)))).entries = keys.map (fun k => (k, f k)) := by
  apply entries_ofList
  rw [List.map_map]
  have hId : (Prod.fst ∘ fun k => (k, f k)) = id := rfl
  rw [hId, List.map_id]
  exact hNodup

theorem keys_ofList_map {keys : List κ} (hNodup : keys.Nodup) (f : κ → α) :
    (ofList (keys.map (fun k => (k, f k)))).keys = keys := by
  unfold OrderedMap.keys
  rw [entries_ofList_map hNodup, List.map_map]
  exact List.map_id keys

/- Reading a table, whose keys may be repeated. -/
theorem get?_ofList_map (keys : List κ) (f : κ → α) (k : κ) :
    (ofList (keys.map (fun j => (j, f j)))).get? k = if k ∈ keys then some (f k) else none := by
  have hFold : ∀ (keys : List κ) (m : OrderedMap κ α),
        ((keys.map (fun j => (j, f j))).foldl (fun m entry => m.set entry.1 entry.2) m).get? k =
          if k ∈ keys then some (f k) else m.get? k := by
    intro keys
    induction keys with
    | nil => simp
    | cons j rest ih =>
      intro m
      rw [List.map_cons, List.foldl_cons, ih, get?_set]
      by_cases hEq : j = k
      · simp [hEq]
      · have hNe : k ≠ j := fun h => hEq h.symm
        simp [hEq, hNe]
  have hEmpty := hFold keys empty
  rw [get?_empty] at hEmpty
  exact hEmpty

variable {m : OrderedMap κ α}

/- The entries are what is read at the keys. -/
theorem filterMap_keys (m : OrderedMap κ α) :
    m.keys.filterMap (fun k => (m.get? k).map (Prod.mk k)) = m.entries := by
  rw [keys, List.filterMap_map]
  refine (List.filterMap_congr (fun entry hEntry => ?_)).trans List.filterMap_some
  simp [(m.mem_entries_iff entry.1 entry.2).mp hEntry]

/- Two maps with the same keys and reads are equal. -/
theorem ext_of_keys {n : OrderedMap κ α} (hKeys : m.keys = n.keys)
    (hGet : ∀ k ∈ m.keys, m.get? k = n.get? k) : m = n := by
  have hEntries : m.entries = n.entries := by
    rw [← filterMap_keys m, ← filterMap_keys n, ← hKeys]
    exact List.filterMap_congr (fun k hMem => by rw [hGet k hMem])
  cases m
  cases hEntries
  rfl

theorem mapValues_congr {f g : κ → α → β}
    (hEq : ∀ k a, m.get? k = some a → f k a = g k a) : m.mapValues f = m.mapValues g := by
  apply ext_of_keys
  · rw [keys_mapValues, keys_mapValues]
  · intro k _
    rw [get?_mapValues, get?_mapValues]
    cases hGet : m.get? k with
    | none => rfl
    | some a => simp [hEq k a hGet]

theorem mapValues_eq_self {f : κ → α → α}
    (hEq : ∀ k a, m.get? k = some a → f k a = a) : m.mapValues f = m := by
  rw [mapValues_congr hEq]
  simp [mapValues]

omit [DecidableEq κ] in
theorem mapValues_mapValues {γ : Type} (f : κ → β → γ) (g : κ → α → β) (m : OrderedMap κ α) :
    (m.mapValues g).mapValues f = m.mapValues (fun k a => f k (g k a)) := by
  simp [mapValues, Function.comp_def]

omit [DecidableEq κ] in
theorem values_mapValues (f : α → β) (m : OrderedMap κ α) :
    (m.mapValues (fun _ => f)).values = m.values.map f := by
  simp [mapValues, values, Function.comp_def]

end OrderedMap

----------
-- Totals
----------

namespace OrderedMap

variable {κ : Type}
variable [DecidableEq κ]

def total (m : OrderedMap κ Int) : Int := m.values.sum

/- The value of a key, with zero for an absent key. -/
def amount (m : OrderedMap κ Int) (k : κ) : Int := (m.get? k).getD 0

omit [DecidableEq κ] in
@[simp] theorem total_empty : (empty : OrderedMap κ Int).total = 0 := rfl

variable (m : OrderedMap κ Int)

theorem amount_set (k j : κ) (v : Int) :
    (m.set k v).amount j = if k = j then v else m.amount j := by
  unfold amount
  rw [get?_set]
  split <;> rfl

/- Writing a key moves the total by the change at that key. -/
theorem total_set (k : κ) (v : Int) : (m.set k v).total = m.total - m.amount k + v := by
  simpa [total, values, amount, get?, set] using Entries.sum_put id k v m.entries

theorem amount_delete (k j : κ) : (m.delete k).amount j = if k = j then 0 else m.amount j := by
  unfold amount
  rw [get?_delete]
  split <;> rfl

theorem total_delete (k : κ) : (m.delete k).total = m.total - m.amount k := by
  simpa [total, values, amount, get?, delete] using Entries.sum_remove id k m.entries

def Nonneg (m : OrderedMap κ Int) : Prop := ∀ k, 0 ≤ m.amount k

theorem nonneg_empty : (empty : OrderedMap κ Int).Nonneg := fun _ => le_rfl

variable {m : OrderedMap κ Int}

theorem nonneg_set (hNonneg : m.Nonneg) (k : κ) {v : Int} (hv : 0 ≤ v) : (m.set k v).Nonneg := by
  intro j
  rw [amount_set]
  split
  · exact hv
  · exact hNonneg j

theorem values_nonneg (hNonneg : m.Nonneg) : ∀ v ∈ m.values, 0 ≤ v := by
  intro v hMem
  rcases (m.mem_values_iff v).mp hMem with ⟨k, hGet⟩
  have hAmount := hNonneg k
  simpa [amount, hGet] using hAmount

theorem amount_of_not_mem {k : κ} (hAbsent : k ∉ m.keys) : m.amount k = 0 := by
  rw [← has_iff_mem_keys] at hAbsent
  unfold amount
  unfold has at hAbsent
  rw [Option.not_isSome_iff_eq_none.mp hAbsent]
  rfl

theorem total_ofList_map {keys : List κ} (hNodup : keys.Nodup) (f : κ → Int) :
    (ofList (keys.map (fun k => (k, f k)))).total = (keys.map f).sum := by
  unfold total values
  rw [entries_ofList_map hNodup, List.map_map]
  rfl

theorem nonneg_ofList_map {keys : List κ} (hNodup : keys.Nodup) {f : κ → Int} (hf : ∀ k, 0 ≤ f k) :
    (ofList (keys.map (fun k => (k, f k)))).Nonneg := by
  intro k
  by_cases hMem : k ∈ keys
  · simp [amount, get?_ofList_map, hMem, hf k]
  · rw [amount_of_not_mem]
    rw [keys_ofList_map hNodup]
    exact hMem

theorem total_eq_sum_amount : m.total = (m.keys.map m.amount).sum := by
  have hValues : m.keys.map m.amount = m.values := by
    unfold keys values
    rw [List.map_map]
    apply List.map_congr_left
    rintro ⟨k, v⟩ hEntry
    have hGet := (m.mem_entries_iff k v).mp hEntry
    simp [amount, hGet]
  rw [hValues]
  rfl

/- One positive amount among non-negative ones. -/
theorem total_pos (hNonneg : m.Nonneg) {k : κ} (hPos : 0 < m.amount k) : 0 < m.total := by
  have hMem : k ∈ m.keys := by
    by_contra hAbsent
    rw [amount_of_not_mem hAbsent] at hPos
    exact lt_irrefl 0 hPos
  rw [total_eq_sum_amount]
  have hLe : m.amount k ≤ (m.keys.map m.amount).sum := by
    apply List.single_le_sum
    · intro v hv
      rcases List.mem_map.mp hv with ⟨j, _, rfl⟩
      exact hNonneg j
    · exact List.mem_map_of_mem hMem
  omega

end OrderedMap

end Foundations
