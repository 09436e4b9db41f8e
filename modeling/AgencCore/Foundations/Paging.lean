import Mathlib

/-
  Windows of lists: the members from one place up to another.

  Main declarations:
    * `window`
    * `window_min`
    * `flatMap_window`
-/

namespace Foundations

open List

section

variable {α : Type}

/- The members of a list from one place up to another. -/
def window (first last : Nat) (l : List α) : List α := (l.take last).drop first

/- Places past the end of the list make no difference. -/
theorem window_min (first last : Nat) (l : List α) :
    window (min first l.length) (min last l.length) l = window first last l := by
  unfold window
  rw [← take_eq_take_min]
  rcases Nat.le_total first l.length with hLe | hGe
  · rw [Nat.min_eq_left hLe]
  · have hShort : (l.take last).length ≤ l.length := by
      rw [length_take]
      exact Nat.min_le_right _ _
    rw [Nat.min_eq_right hGe, drop_eq_nil_of_le hShort,
      drop_eq_nil_of_le (Nat.le_trans hShort hGe)]

/- Windows of one size, side by side, make up the front of a list. -/
theorem flatMap_window (size count : Nat) (l : List α) :
    (range count).flatMap (fun page => window (page * size) (page * size + size) l) =
      l.take (count * size) := by
  induction count with
  | zero => simp
  | succ count ih =>
    have hFront : l.take (count * size) = (l.take (count * size + size)).take (count * size) := by
      rw [take_take, Nat.min_eq_left (Nat.le_add_right _ _)]
    rw [range_succ, flatMap_append, ih, flatMap_singleton, window, Nat.succ_mul, hFront,
      take_append_drop]

end

end Foundations
