import Mathlib

/-
  Logs that keep the first entry of each key.

  Inserting an entry whose key is present changes nothing. A log is therefore determined, as a set
  of keys, by the entries offered to it, whatever their order and however often they are offered.
-/

namespace Foundations

open List

section

variable {α κ : Type}
variable [DecidableEq κ]
variable (key : α → κ)

/- Append an entry unless its key is present. -/
def insertNew (log : List α) (a : α) : List α :=
  if key a ∈ log.map key then log
  else log ++ [a]

def insertAll (log entries : List α) : List α := entries.foldl (insertNew key) log

@[simp] theorem insertAll_nil (log : List α) : insertAll key log [] = log := rfl

@[simp] theorem insertAll_cons (log : List α) (a : α) (entries : List α) :
    insertAll key log (a :: entries) = insertAll key (insertNew key log a) entries := rfl

theorem mem_keys_insertNew (log : List α) (a : α) (k : κ) :
    k ∈ (insertNew key log a).map key ↔ k ∈ log.map key ∨ k = key a := by
  unfold insertNew
  split
  · next hIn =>
      constructor
      · exact Or.inl
      · rintro (hOld | hEq)
        · exact hOld
        · rw [hEq]
          exact hIn
  · simp

theorem mem_keys_insertAll (log entries : List α) (k : κ) :
    k ∈ (insertAll key log entries).map key ↔ k ∈ log.map key ∨ k ∈ entries.map key := by
  induction entries generalizing log with
  | nil => simp
  | cons a entries ih =>
    rw [insertAll_cons, ih, mem_keys_insertNew, map_cons, mem_cons, or_assoc]

theorem nodup_keys_insertNew {log : List α} (hLog : (log.map key).Nodup) (a : α) :
    ((insertNew key log a).map key).Nodup := by
  unfold insertNew
  split
  · exact hLog
  · next hNew => simpa using hLog.concat hNew

/- Every key occurs once. -/
theorem nodup_keys_insertAll {log : List α} (hLog : (log.map key).Nodup) (entries : List α) :
    ((insertAll key log entries).map key).Nodup := by
  induction entries generalizing log with
  | nil => exact hLog
  | cons a entries ih => exact ih (nodup_keys_insertNew key hLog a)

/- The first entry of each key that has not been seen. -/
def newEntries : List κ → List α → List α
| _, [] => []
| seen, a :: rest => if key a ∈ seen then newEntries seen rest
    else a :: newEntries (seen ++ [key a]) rest

theorem insertAll_eq_append_newEntries (log entries : List α) :
    insertAll key log entries = log ++ newEntries key (log.map key) entries := by
  induction entries generalizing log with
  | nil => simp [newEntries]
  | cons a entries ih =>
    rw [insertAll_cons, ih, insertNew, newEntries]
    split <;> simp

theorem newEntries_sublist (seen : List κ) (entries : List α) :
    (newEntries key seen entries).Sublist entries := by
  induction entries generalizing seen with
  | nil => exact List.Sublist.refl _
  | cons a entries ih =>
    unfold newEntries
    split
    · exact (ih seen).cons a
    · exact (ih _).cons_cons a

/- Nothing but the entries offered is added. -/
theorem mem_of_mem_insertAll {log entries : List α} {b : α} (hIn : b ∈ insertAll key log entries) :
    b ∈ log ∨ b ∈ entries := by
  rw [insertAll_eq_append_newEntries] at hIn
  exact (List.mem_append.mp hIn).imp_right (fun hNew => (newEntries_sublist key _ entries).subset hNew)

theorem insertAll_eq_append {log entries : List α} (hNew : ∀ a ∈ entries, key a ∉ log.map key)
    (hDistinct : (entries.map key).Nodup) : insertAll key log entries = log ++ entries := by
  induction entries generalizing log with
  | nil => simp
  | cons a entries ih =>
    rw [map_cons, nodup_cons] at hDistinct
    have hHead : insertNew key log a = log ++ [a] := if_neg (hNew a mem_cons_self)
    rw [insertAll_cons, hHead, ih ?_ hDistinct.2]
    · simp
    · intro b hb hIn
      rw [map_append, mem_append, map_singleton, mem_singleton] at hIn
      rcases hIn with hOld | hEq
      · exact hNew b (mem_cons_of_mem a hb) hOld
      · rw [← hEq] at hDistinct
        exact hDistinct.1 (List.mem_map_of_mem hb)

/- Nothing is dropped exactly when the keys are distinct. -/
theorem insertAll_empty_eq_iff (entries : List α) :
    insertAll key [] entries = entries ↔ (entries.map key).Nodup := by
  constructor
  · intro hEq
    rw [← hEq]
    exact nodup_keys_insertAll key (by simp) entries
  · intro hDistinct
    exact insertAll_eq_append key (by simp) hDistinct

theorem length_insertAll_empty_iff (entries : List α) :
    (insertAll key [] entries).length = entries.length ↔ (entries.map key).Nodup := by
  constructor
  · intro hLength
    have hKept : ((insertAll key [] entries).map key).Nodup :=
      nodup_keys_insertAll key (by simp) entries
    have hSubset : (insertAll key [] entries).map key ⊆ entries.map key := by
      intro k hk
      simpa using (mem_keys_insertAll key [] entries k).mp hk
    have hPerm := (subperm_of_subset hKept hSubset).perm_of_length_le (by simp [hLength])
    exact hPerm.nodup_iff.mp hKept
  · intro hDistinct
    rw [(insertAll_empty_eq_iff key entries).mpr hDistinct]

/- Every key has a first entry. -/
theorem mem_keys_newEntries_of_mem {entries : List α} {a : α} (hIn : a ∈ entries) :
    key a ∈ (newEntries key [] entries).map key := by
  have hAll := insertAll_eq_append_newEntries key [] entries
  rw [nil_append, map_nil] at hAll
  rw [← hAll, mem_keys_insertAll]
  exact Or.inr (List.mem_map_of_mem hIn)

theorem nodup_keys_newEntries (entries : List α) : ((newEntries key [] entries).map key).Nodup := by
  have hAll := insertAll_eq_append_newEntries key [] entries
  rw [nil_append, map_nil] at hAll
  rw [← hAll]
  exact nodup_keys_insertAll key (by simp) entries

/- Changing entries without their keys changes nothing else. -/
theorem newEntries_map {β : Type} (key' : β → κ) (f : α → β) (hKey : ∀ a, key' (f a) = key a)
    (seen : List κ) (entries : List α) :
    newEntries key' seen (entries.map f) = (newEntries key seen entries).map f := by
  induction entries generalizing seen with
  | nil => rfl
  | cons a entries ih =>
    rw [map_cons, newEntries, newEntries, hKey]
    split
    · exact ih seen
    · rw [ih, map_cons]

/- An entry is new if its key does not occur before it. -/
theorem mem_newEntries_iff (seen : List κ) (entries : List α) (b : α) :
    b ∈ newEntries key seen entries ↔
      ∃ before after, entries = before ++ b :: after ∧ key b ∉ seen ∧ key b ∉ before.map key := by
  induction entries generalizing seen with
  | nil => simp [newEntries]
  | cons a entries ih =>
    -- the entry is the first one, or comes after it
    have hSplit : (∃ before after, a :: entries = before ++ b :: after ∧ key b ∉ seen ∧
        key b ∉ before.map key) ↔ (a = b ∧ key b ∉ seen) ∨ ∃ before after,
          entries = before ++ b :: after ∧ key b ∉ seen ∧ key b ∉ (a :: before).map key := by
      constructor
      · rintro ⟨_ | ⟨_, before⟩, after, hEq, hNew, hFirst⟩ <;> cases hEq
        · exact .inl ⟨rfl, hNew⟩
        · exact .inr ⟨before, after, rfl, hNew, hFirst⟩
      · rintro (⟨rfl, hNew⟩ | ⟨before, after, rfl, hNew, hFirst⟩)
        · exact ⟨[], entries, rfl, hNew, not_mem_nil⟩
        · exact ⟨a :: before, after, rfl, hNew, hFirst⟩
    rw [hSplit, newEntries]
    split
    · grind
    · grind

end

end Foundations
