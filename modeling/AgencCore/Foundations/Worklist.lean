import Mathlib

/-
  Breadth-first exploration of a finite graph with a queue and a list of seen nodes.

  The loop carries a fuel argument. Every round removes one node from the queue and every node
  enters it at most once, so the length of the queue plus the number of unseen nodes is enough fuel:
  `explore_closed`.

  In a tree the list of seen nodes can be left out: `visits`.
-/

namespace Foundations

namespace Worklist

open List

section

variable {κ : Type}
variable [DecidableEq κ]

/- The successors that were not seen before. -/
def fresh (next : κ → List κ) (seen : List κ) (current : κ) : List κ :=
  (next current).filter (fun k => k ∉ seen)

def explore (next : κ → List κ) : Nat → List κ → List κ → List κ
| 0, _, seen => seen
| _ + 1, [], seen => seen
| fuel + 1, current :: queue, seen =>
  explore next fuel (queue ++ fresh next seen current) (seen ++ fresh next seen current)

/- The number of nodes that were not seen yet. -/
def unseen (nodes seen : List κ) : Nat := (nodes.toFinset \ seen.toFinset).card

----------
-- What The Exploration Reaches
----------

variable {next : κ → List κ}

theorem mem_fresh {seen : List κ} {current k : κ} :
    k ∈ fresh next seen current ↔ k ∈ next current ∧ k ∉ seen := by simp [fresh]

/- Seen nodes stay seen. -/
theorem subset_explore (next : κ → List κ) (fuel : Nat) (queue seen : List κ) :
    ∀ k ∈ seen, k ∈ explore next fuel queue seen := by
  intro k hk
  induction fuel generalizing queue seen with
  | zero => exact hk
  | succ fuel ih => cases queue with
      | nil => exact hk
      | cons current queue => exact ih _ _ (mem_append_left _ hk)

/- What holds of the seen nodes and passes along the edges holds of every explored node. -/
theorem explore_sound {P : κ → Prop} (hStep : ∀ k j, P k → j ∈ next k → P j) (fuel : Nat)
    {queue seen : List κ} (hQueue : ∀ k ∈ queue, P k) (hSeen : ∀ k ∈ seen, P k) :
    ∀ k ∈ explore next fuel queue seen, P k := by
  induction fuel generalizing queue seen with
  | zero => exact hSeen
  | succ fuel ih => cases queue with
      | nil => exact hSeen
      | cons current queue =>
        have hFresh : ∀ k ∈ fresh next seen current, P k := by
          intro k hk
          exact hStep current k (hQueue current mem_cons_self) (mem_fresh.mp hk).1
        exact ih (List.forall_mem_append.mpr ⟨(List.forall_mem_cons.mp hQueue).2, hFresh⟩)
          (List.forall_mem_append.mpr ⟨hSeen, hFresh⟩)

/- Seeing fresh nodes leaves fewer unseen ones. -/
theorem unseen_append {nodes seen found : List κ} (hNodup : found.Nodup)
    (hNodes : ∀ k ∈ found, k ∈ nodes) (hFresh : ∀ k ∈ found, k ∉ seen) :
    unseen nodes (seen ++ found) + found.length = unseen nodes seen := by
  have hSub : found.toFinset ⊆ nodes.toFinset \ seen.toFinset := by
    intro k hk
    rw [List.mem_toFinset] at hk
    simp [hNodes k hk, hFresh k hk]
  have hCard : found.toFinset.card = found.length := toFinset_card_of_nodup hNodup
  unfold unseen
  rw [toFinset_append, ← Finset.sup_eq_union, ← sdiff_sdiff_left, ← hCard]
  exact Finset.card_sdiff_add_card_eq_card hSub

/-
  With enough fuel, the explored nodes are closed under successors: a seen node is still queued or
  has all its successors seen.
-/
theorem explore_closed (nodes : List κ) (hNodup : ∀ k, (next k).Nodup)
    (hNodes : ∀ k, ∀ j ∈ next k, j ∈ nodes) {fuel : Nat} {queue seen : List κ}
    (hFuel : queue.length + unseen nodes seen ≤ fuel)
    (hInv : ∀ k ∈ seen, k ∈ queue ∨ ∀ j ∈ next k, j ∈ seen) :
    ∀ k ∈ explore next fuel queue seen, ∀ j ∈ next k, j ∈ explore next fuel queue seen := by
  induction fuel generalizing queue seen with
  | zero =>
    have hNil : queue = [] := List.length_eq_zero_iff.mp (by omega)
    intro k hk
    rcases hInv k hk with hQueued | hDone
    · simp [hNil] at hQueued
    · exact hDone
  | succ fuel ih => cases queue with
      | nil =>
        intro k hk
        rcases hInv k hk with hQueued | hDone
        · simp at hQueued
        · exact hDone
      | cons current queue =>
        have hCount := unseen_append ((hNodup current).filter (fun k => k ∉ seen))
          (fun k hk => hNodes current k (mem_of_mem_filter hk))
          (fun k hk => (mem_fresh.mp hk).2)
        apply ih
        · rw [length_append]
          rw [length_cons] at hFuel
          unfold fresh
          omega
        · intro k hk
          rcases List.mem_append.mp hk with hOld | hNew
          · rcases hInv k hOld with hQueued | hDone
            · rcases List.mem_cons.mp hQueued with hEq | hRest
              · -- the current node has just been expanded
                right
                intro j hj
                rw [hEq] at hj
                by_cases hSeen : j ∈ seen
                · exact mem_append_left _ hSeen
                · exact mem_append_right _ (mem_fresh.mpr ⟨hj, hSeen⟩)
              · exact Or.inl (mem_append_left _ hRest)
            · exact Or.inr (fun j hj => mem_append_left _ (hDone j hj))
          · exact Or.inl (mem_append_right _ hNew)

/- The nodes taken from the queue, in order. -/
def visits (next : κ → List κ) : Nat → List κ → List κ
| 0, _ => []
| _ + 1, [] => []
| fuel + 1, current :: queue => current :: visits next fuel (queue ++ next current)

end

end Worklist

end Foundations
