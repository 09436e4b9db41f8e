import Mathlib

/-
  Codes that say where they end.

  A code whose words can be told apart whatever follows them can be followed by anything and still
  be read back. It is enough to have a reader for one word; words may then be strung together up to
  an end mark that no word begins with.
-/

namespace Foundations

open List

section

variable {α σ : Type}

def PrefixCode (encode : α → List σ) : Prop :=
  ∀ a b rest rest', encode a ++ rest = encode b ++ rest' → a = b ∧ rest = rest'

variable {encode : α → List σ}

/- A reader that returns a word and what follows it. -/
theorem PrefixCode.of_reader (read : List σ → Option (α × List σ))
    (hRead : ∀ a rest, read (encode a ++ rest) = some (a, rest)) : PrefixCode encode := by
  intro a b rest rest' hEq
  have hSame := congrArg read hEq
  rw [hRead, hRead] at hSame
  exact Prod.mk.inj (Option.some.inj hSame)

/- Words in a row, up to a mark that begins no word. -/
theorem PrefixCode.sequence (hCode : PrefixCode encode) (mark : σ)
    (hMark : ∀ a rest rest', encode a ++ rest ≠ mark :: rest') :
    PrefixCode (fun items : List α => items.flatMap encode ++ [mark]) := by
  intro items
  induction items with
  | nil =>
    intro items' rest rest' hEq
    cases items' with
    | nil => exact ⟨rfl, (List.cons.inj hEq).2⟩
    | cons b _ =>
      simp only [flatMap_cons, append_assoc, flatMap_nil, nil_append] at hEq
      exact absurd hEq.symm (hMark b _ _)
  | cons a items ih =>
    intro items' rest rest' hEq
    cases items' with
    | nil =>
      simp only [flatMap_cons, append_assoc, flatMap_nil, nil_append] at hEq
      exact absurd hEq (hMark a _ _)
    | cons b items' =>
      simp only [flatMap_cons, append_assoc] at hEq
      rcases hCode a b _ _ hEq with ⟨hHead, hTail⟩
      rcases ih items' rest rest' (by simpa using hTail) with ⟨hItems, hRest⟩
      exact ⟨by rw [hHead, hItems], hRest⟩

/- Words in a row that are read to the end. -/
theorem PrefixCode.flatMap_injective (hCode : PrefixCode encode)
    (hNonempty : ∀ a, encode a ≠ []) :
    Function.Injective (fun items : List α => items.flatMap encode) := by
  intro items
  induction items with
  | nil =>
    intro items' hEq
    cases items' with
    | nil => rfl
    | cons b _ =>
      simp only [flatMap_nil, flatMap_cons] at hEq
      exact absurd (List.append_eq_nil_iff.mp hEq.symm).1 (hNonempty b)
  | cons a items ih =>
    intro items' hEq
    cases items' with
    | nil =>
      simp only [flatMap_nil, flatMap_cons] at hEq
      exact absurd (List.append_eq_nil_iff.mp hEq).1 (hNonempty a)
    | cons b items' =>
      simp only [flatMap_cons] at hEq
      rcases hCode a b _ _ hEq with ⟨hHead, hTail⟩
      rw [hHead, ih hTail]

end

end Foundations
