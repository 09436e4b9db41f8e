import Mathlib

/-
  Largest-remainder apportionment of an integer amount.

  An amount `t` is split over weights that sum to `d`. Each weight first receives its quota `t * w /
  d`; what is left over is handed out in single units by falling remainder. The results say that the
  leftover is non-negative and that there are enough positive remainders to absorb it.

  Main declarations:
  * `Apportionment.sum_quota_add_sum_remainder`
  * `Apportionment.leftover_nonneg`
  * `Apportionment.leftover_le_countP`
  * `Apportionment.pos_of_mem_take`
-/

namespace Foundations

namespace Apportionment

open List

/- The whole units a weight receives. -/
def quota (t d w : Int) : Int := t * w / d

/- The fraction of a unit left for a weight, over `d`. -/
def remainder (t d w : Int) : Int := t * w % d

theorem remainder_nonneg (t w : Int) {d : Int} (hd : 0 < d) : 0 ≤ remainder t d w :=
  Int.emod_nonneg _ hd.ne'

theorem remainder_lt (t w : Int) {d : Int} (hd : 0 < d) : remainder t d w < d :=
  Int.emod_lt_of_pos _ hd

/- Euclidean division summed over the weights. -/
theorem sum_quota_add_sum_remainder (t d : Int) (ws : List Int) :
    d * (ws.map (quota t d)).sum + (ws.map (remainder t d)).sum = t * ws.sum := by
  induction ws with
  | nil => simp
  | cons w rest ih =>
    have hDiv : d * quota t d w + remainder t d w = t * w := Int.mul_ediv_add_emod (t * w) d
    simp only [map_cons, sum_cons, mul_add]
    rw [← ih, ← hDiv]
    ring

/- Bounded remainders sum to less than `d` per positive one. -/
theorem sum_le_mul_countP {d : Int} {rs : List Int} (hBound : ∀ r ∈ rs, 0 ≤ r ∧ r < d) :
    rs.sum ≤ (d - 1) * (rs.countP (fun r => 0 < r)) := by
  induction rs with
  | nil => simp
  | cons r rest ih =>
    have hHead := hBound r mem_cons_self
    have hTail := ih (fun s hs => hBound s (mem_cons_of_mem r hs))
    by_cases hPos : 0 < r
    · rw [sum_cons, countP_cons_of_pos (by simpa using hPos)]
      push_cast
      rw [mul_add, mul_one]
      omega
    · rw [sum_cons, countP_cons_of_neg (by simpa using hPos)]
      omega

variable {t d : Int}
variable {ws : List Int}

/- The leftover, scaled by `d`, is the sum of remainders. -/
theorem mul_leftover (hSum : ws.sum = d) :
    d * (t - (ws.map (quota t d)).sum) = (ws.map (remainder t d)).sum := by
  have hDiv := sum_quota_add_sum_remainder t d ws
  rw [hSum] at hDiv
  rw [mul_sub, mul_comm d t]
  omega

/- The quotas never exceed the amount. -/
theorem leftover_nonneg (hd : 0 < d) (hSum : ws.sum = d) : 0 ≤ t - (ws.map (quota t d)).sum := by
  have hScaled := mul_leftover (t := t) hSum
  have hRems : 0 ≤ (ws.map (remainder t d)).sum := by
    apply sum_nonneg
    intro r hr
    rcases List.mem_map.mp hr with ⟨w, _, rfl⟩
    exact remainder_nonneg t w hd
  rw [← hScaled] at hRems
  exact nonneg_of_mul_nonneg_right hRems hd

/- Every leftover unit meets its own positive remainder. -/
theorem leftover_le_countP (hd : 0 < d) (hSum : ws.sum = d) :
    t - (ws.map (quota t d)).sum ≤ ((ws.map (remainder t d)).countP (fun r => 0 < r)) := by
  set rs := ws.map (remainder t d) with hrs
  set n : Int := ((rs.countP (fun r => 0 < r) : Nat) : Int) with hn
  set leftover := t - (ws.map (quota t d)).sum with hLeft
  have hScaled : d * leftover = rs.sum := mul_leftover hSum
  have hBound : rs.sum ≤ (d - 1) * n := by
    apply sum_le_mul_countP
    intro r hr
    rcases List.mem_map.mp hr with ⟨w, _, rfl⟩
    exact ⟨remainder_nonneg t w hd, remainder_lt t w hd⟩
  have hn0 : 0 ≤ n := by positivity
  -- `d * leftover ≤ (d - 1) * n ≤ d * n`
  have hMul : d * leftover ≤ d * n := by
    rw [hScaled]
    calc
      rs.sum ≤ (d - 1) * n := hBound
      _ = d * n - n := by ring
      _ ≤ d * n := by omega
  exact le_of_mul_le_mul_left hMul hd

/- In a falling list of non-negative remainders, the positive ones come first. -/
theorem pos_of_mem_take {rs : List Int} (hFalling : rs.Pairwise (fun a b => b ≤ a)) {n : Nat}
    (hn : n ≤ rs.countP (fun r => 0 < r)) {r : Int} (hr : r ∈ rs.take n) : 0 < r := by
  induction rs generalizing n with
  | nil => simp at hr
  | cons a rest ih => cases n with
      | zero => simp at hr
      | succ m =>
        rw [pairwise_cons] at hFalling
        have hHead : 0 < a := by
          by_contra hNot
          -- a non-positive head leaves no positive entry
          have hZero : (a :: rest).countP (fun r => 0 < r) = 0 := by
            rw [countP_eq_zero]
            intro b hb
            rcases List.mem_cons.mp hb with hEq | hRest
            · simpa [hEq] using hNot
            · have hLe := hFalling.1 b hRest
              simp only [decide_eq_true_eq, not_lt]
              omega
          omega
        rw [countP_cons_of_pos (by simpa using hHead)] at hn
        rw [take_succ_cons] at hr
        rcases List.mem_cons.mp hr with hEq | hRest
        · rw [hEq]
          exact hHead
        · exact ih hFalling.2 (by omega) hRest

end Apportionment

end Foundations
