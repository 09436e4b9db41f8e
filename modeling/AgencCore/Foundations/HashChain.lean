import Mathlib

/-
  Chains of entries that name the hash of the entry before.

  `Linked` says that each entry carries the hash of its predecessor, the first one a given anchor.
  Chains are cut and joined at any place. If an entry's hash determines its predecessor's hash, the
  hash of the last entry determines the whole chain.
-/

namespace Foundations

/- Where an entry has its hash and its predecessor's. -/
structure HashChain (α η : Type) where
  previous : α → η
  hash : α → η

namespace HashChain

variable {α η : Type}
variable (chain : HashChain α η)

def Linked : η → List α → Prop
| _, [] => True
| anchor, entry :: rest => chain.previous entry = anchor ∧ Linked (chain.hash entry) rest

/- The hash that the next entry has to name. -/
def headHash (anchor : η) (entries : List α) : η := (entries.getLast?.map chain.hash).getD anchor

variable (anchor : η)

@[simp] theorem headHash_nil : chain.headHash anchor [] = anchor := rfl

@[simp] theorem headHash_concat (entries : List α) (entry : α) :
    chain.headHash anchor (entries ++ [entry]) = chain.hash entry := by simp [headHash]

theorem headHash_cons (entry : α) (entries : List α) :
    chain.headHash anchor (entry :: entries) = chain.headHash (chain.hash entry) entries := by
  cases entries with
  | nil => rfl
  | cons next rest => simp [headHash, List.getLast?_cons]

theorem headHash_append (entries entries' : List α) : chain.headHash anchor (entries ++ entries') =
      chain.headHash (chain.headHash anchor entries) entries' := by
  induction entries generalizing anchor with
  | nil => rfl
  | cons entry rest ih => rw [List.cons_append, headHash_cons, headHash_cons, ih]

theorem linked_append (entries entries' : List α) : chain.Linked anchor (entries ++ entries') ↔
      chain.Linked anchor entries ∧ chain.Linked (chain.headHash anchor entries) entries' := by
  induction entries generalizing anchor with
  | nil => simp [Linked]
  | cons entry rest ih => rw [List.cons_append, Linked, Linked, ih, headHash_cons, and_assoc]

theorem linked_concat (entries : List α) (entry : α) : chain.Linked anchor (entries ++ [entry]) ↔
      chain.Linked anchor entries ∧ chain.previous entry = chain.headHash anchor entries := by
  rw [linked_append]
  simp [Linked]

/-
  Two chains with the same head agree entry by entry, if the hash of a sound entry determines its
  predecessor's hash and is never the anchor.
-/
theorem forall₂_of_headHash {sound : α → Prop} {alike : α → α → Prop} {anchor : η}
    (hFresh : ∀ a, sound a → chain.hash a ≠ anchor)
    (hAlike : ∀ a b, sound a → sound b →
        chain.hash a = chain.hash b → chain.previous a = chain.previous b ∧ alike a b)
    {entries entries' : List α} (hLinked : chain.Linked anchor entries)
    (hLinked' : chain.Linked anchor entries') (hSound : ∀ a ∈ entries, sound a)
    (hSound' : ∀ a ∈ entries', sound a)
    (hHead : chain.headHash anchor entries = chain.headHash anchor entries') :
    List.Forall₂ alike entries entries' := by
  induction entries using List.reverseRecOn generalizing entries' with
  | nil => cases entries' using List.reverseRecOn with
      | nil => exact .nil
      | append_singleton rest b =>
        rw [headHash_nil, headHash_concat] at hHead
        exact absurd hHead.symm (hFresh b (hSound' b (by simp)))
  | append_singleton rest a ih => cases entries' using List.reverseRecOn with
      | nil =>
        rw [headHash_nil, headHash_concat] at hHead
        exact absurd hHead (hFresh a (hSound a (by simp)))
      | append_singleton rest' b =>
        rw [headHash_concat, headHash_concat] at hHead
        rw [linked_concat] at hLinked hLinked'
        rcases hAlike a b (hSound a (by simp)) (hSound' b (by simp)) hHead with ⟨hPrevious, hSame⟩
        have hRest := ih hLinked.1 hLinked'.1 (fun c hMem => hSound c (by simp [hMem]))
          (fun c hMem => hSound' c (by simp [hMem])) (by rw [← hLinked.2, ← hLinked'.2, hPrevious])
        exact List.rel_append hRest (.cons hSame .nil)

end HashChain

end Foundations
