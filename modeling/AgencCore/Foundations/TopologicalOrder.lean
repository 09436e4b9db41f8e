import Mathlib

/-
  Depth-first search for a topological order.

  A node is put behind everything it needs. A node that is met again before that lies on a cycle.
  The nodes on the way to a call are all different, so fuel for all of them is enough.
-/

namespace Foundations

open List

variable {κ : Type} [DecidableEq κ]

def visit (needs : κ → List κ) : Nat → List κ → List κ → κ → Option (List κ)
| 0, _, _, _ => none
| fuel + 1, temporary, order, node =>
  if node ∈ order then some order
  else if node ∈ temporary then none
  else ((needs node).foldlM (visit needs fuel (node :: temporary)) order).map (· ++ [node])

/- Each node comes behind everything it needs. -/
def Ordered (needs : κ → List κ) : List κ → List κ → Prop
| _, [] => True
| done, node :: rest => (∀ next ∈ needs node, next ∈ done) ∧ Ordered needs (node :: done) rest

variable {needs : κ → List κ}

omit [DecidableEq κ] in
theorem Ordered.concat {done order : List κ} (hOrdered : Ordered needs done order) {node : κ}
    (hNeeds : ∀ next ∈ needs node, next ∈ done ∨ next ∈ order) :
    Ordered needs done (order ++ [node]) := by
  induction order generalizing done with
  | nil => exact ⟨fun next hNext => (hNeeds next hNext).resolve_right not_mem_nil, trivial⟩
  | cons first rest ih =>
    refine ⟨hOrdered.1, ih hOrdered.2 ?_⟩
    intro next hNext
    have hPlace := hNeeds next hNext
    simp only [mem_cons] at hPlace ⊢
    tauto

omit [DecidableEq κ] in
/- Calls that keep an order, one after the other. -/
theorem foldlM_ordered {search : List κ → κ → Option (List κ)} {nodes : List κ}
    (hSearch : ∀ {order order' node}, Ordered needs [] order → search order node = some order' →
      Ordered needs [] order' ∧ order ⊆ order' ∧ node ∈ order') {order order' : List κ}
    (hOrdered : Ordered needs [] order) (hFold : nodes.foldlM search order = some order') :
    Ordered needs [] order' ∧ order ⊆ order' ∧ nodes ⊆ order' := by
  induction nodes generalizing order with
  | nil =>
    cases hFold
    exact ⟨hOrdered, List.Subset.refl _, nil_subset _⟩
  | cons node rest ih =>
    rw [foldlM_cons] at hFold
    rcases Option.bind_eq_some_iff.mp hFold with ⟨middle, hFirst, hRest⟩
    rcases hSearch hOrdered hFirst with ⟨hMiddle, hKept, hNode⟩
    rcases ih hMiddle hRest with ⟨hLast, hKept', hNodes⟩
    exact ⟨hLast, List.Subset.trans hKept hKept', List.cons_subset.mpr ⟨hKept' hNode, hNodes⟩⟩

theorem visit_ordered (fuel : Nat) (temporary : List κ) {order order' : List κ} {node : κ}
    (hOrdered : Ordered needs [] order)
    (hVisit : visit needs fuel temporary order node = some order') :
    Ordered needs [] order' ∧ order ⊆ order' ∧ node ∈ order' := by
  induction fuel generalizing temporary order order' node with
  | zero => cases hVisit
  | succ fuel ih =>
    rw [visit] at hVisit
    split at hVisit
    · next hMem =>
      cases hVisit
      exact ⟨hOrdered, List.Subset.refl _, hMem⟩
    · split at hVisit
      · cases hVisit
      · rcases Option.map_eq_some_iff.mp hVisit with ⟨middle, hFold, rfl⟩
        rcases foldlM_ordered (ih (node :: temporary)) hOrdered hFold with ⟨hMiddle, hKept, hNeeds⟩
        refine ⟨hMiddle.concat (fun _ hNext => Or.inr (hNeeds hNext)), ?_, by simp⟩
        exact List.Subset.trans hKept (subset_append_left _ _)

omit [DecidableEq κ] in
/- Nothing that is ordered needs itself, however far. -/
theorem Ordered.acyclic {order : List κ} (hOrdered : Ordered needs [] order) {node : κ}
    (hNode : node ∈ order) : ¬ Relation.TransGen (fun next node => next ∈ needs node) node node := by
  have hAcc : ∀ (rest done : List κ), Ordered needs done rest →
      (∀ node ∈ done, Acc (fun next node => next ∈ needs node) node) →
        ∀ node ∈ rest, Acc (fun next node => next ∈ needs node) node := by
    intro rest
    induction rest with
    | nil => exact fun _ _ _ _ hMem => absurd hMem not_mem_nil
    | cons first rest ih =>
      intro done hRest hDone
      have hFirst : Acc (fun next node => next ∈ needs node) first :=
        ⟨first, fun next hNext => hDone next (hRest.1 next hNext)⟩
      refine List.forall_mem_cons.mpr ⟨hFirst, ih (first :: done) hRest.2 ?_⟩
      exact List.forall_mem_cons.mpr ⟨hFirst, hDone⟩
  have hNodeAcc := (hAcc order [] hOrdered (forall_mem_nil _) node hNode).transGen
  intro hCycle
  clear hNode
  induction hNodeAcc with
  | intro node _ ih => exact ih node hCycle hCycle

end Foundations
