import Mathlib

/-
  Logs of milestones.

  The items of a growing list pass a milestone at most once. A log has one entry for each item that
  has passed it: the place of the item and what the item shows from then on.
-/

namespace Foundations

open List Option

section

variable {α γ : Type}

structure Logged (shows : α → Option γ) (items : List α) (log : List (Nat × γ)) : Prop where
  mem : ∀ i x, (i, x) ∈ log ↔ items[i]?.bind shows = some x
  once : (log.map Prod.fst).Nodup

end

----------
-- Growing And Updating
----------

namespace Logged

variable {α γ : Type}
variable {shows : α → Option γ}
variable {items : List α}
variable {log : List (Nat × γ)}

theorem empty : Logged shows [] [] := by
  refine ⟨?_, nodup_nil⟩
  intro i x
  simp

variable (hLogged : Logged shows items log)
include hLogged

/- A new item has not passed the milestone. -/
theorem push {item : α} (hNone : shows item = none) : Logged shows (items ++ [item]) log := by
  refine ⟨?_, hLogged.once⟩
  intro i x
  rw [hLogged.mem, getElem?_append]
  split
  · rfl
  · next hGe =>
    rw [getElem?_eq_none (not_lt.mp hGe), getElem?_singleton]
    split <;> simp [hNone]

/- An item that shows the same leaves the log right. -/
theorem update_same {i : Nat} {item item' : α}
    (hGet : items[i]? = some item) (hSame : shows item' = shows item) :
    Logged shows (items.set i item') log := by
  refine ⟨?_, hLogged.once⟩
  intro j x
  rw [hLogged.mem, getElem?_set]
  split
  · next hEq =>
      subst hEq
      have hLt : i < items.length := (List.getElem?_eq_some_iff.mp hGet).1
      rw [if_pos hLt, hGet, bind_some, bind_some, hSame]
  · rfl

/- An item passes the milestone and is logged. -/
theorem update_new {i : Nat} {item item' : α} {x : γ}
    (hGet : items[i]? = some item) (hBefore : shows item = none) (hAfter : shows item' = some x) :
    Logged shows (items.set i item') (log ++ [(i, x)]) := by
  have hLt : i < items.length := (List.getElem?_eq_some_iff.mp hGet).1
  have hAbsent : ∀ y, (i, y) ∉ log := by
    intro y hMem
    rw [hLogged.mem, hGet, bind_some, hBefore] at hMem
    cases hMem
  constructor
  · intro j y
    rw [mem_append, mem_singleton, getElem?_set]
    split
    · next hEq =>
        subst hEq
        rw [bind_some, hAfter]
        constructor
        · rintro (hMem | hNew)
          · exact absurd hMem (hAbsent y)
          · exact congrArg some (Prod.mk.inj hNew).2.symm
        · intro hSome
          exact .inr (by rw [Option.some.inj hSome])
    · next hNe =>
        rw [hLogged.mem]
        constructor
        · rintro (hMem | hNew)
          · exact hMem
          · exact absurd (Prod.mk.inj hNew).1.symm hNe
        · exact .inl
  · have hFresh : i ∉ log.map Prod.fst := by simpa using hAbsent
    simpa using hLogged.once.concat hFresh

end Logged

end Foundations
