import AgencCore.Foundations.Numbers

/-
  Text services of a scripting host, and sorting with a comparator.

  Case mapping, number rendering and the collation behind `localeCompare` belong to the host, so
  they are fields of `TextHost`. The only law asked of the collation is that it is a total preorder.
  Trimming and lengths follow the language definition: a length counts UTF-16 units.
-/

namespace Foundations

open List

section

variable {α : Type}

/- Stable sort by a comparator. -/
def sortBy (cmp : α → α → Ordering) (l : List α) : List α :=
  l.insertionSort (fun a b => (cmp a b).isLE = true)

theorem sortBy_perm (cmp : α → α → Ordering) (l : List α) : (sortBy cmp l).Perm l :=
  perm_insertionSort _ l

@[simp] theorem mem_sortBy (cmp : α → α → Ordering) (l : List α) (a : α) :
    a ∈ sortBy cmp l ↔ a ∈ l := (sortBy_perm cmp l).mem_iff

@[simp] theorem length_sortBy (cmp : α → α → Ordering) (l : List α) :
    (sortBy cmp l).length = l.length := (sortBy_perm cmp l).length_eq

variable {cmp : α → α → Ordering}
variable {l : List α}

theorem nodup_sortBy : (sortBy cmp l).Nodup ↔ l.Nodup :=
  (sortBy_perm cmp l).nodup_iff

/- Under a total preorder the result is sorted. -/
theorem pairwise_sortBy (cmp : α → α → Ordering) [Std.TransCmp cmp] (l : List α) :
    (sortBy cmp l).Pairwise (fun a b => (cmp a b).isLE = true) := by
  have : Std.Total (fun a b => (cmp a b).isLE = true) := ⟨by
    intro a b
    have hSwap : cmp a b = (cmp b a).swap := Std.OrientedCmp.eq_swap
    cases hba : cmp b a <;> simp [hSwap, hba]⟩
  have : IsTrans α (fun a b => (cmp a b).isLE = true) :=
    ⟨fun _ _ _ hab hbc => Std.TransCmp.isLE_trans hab hbc⟩
  exact pairwise_insertionSort _ l

/- A list that is already strictly sorted is left as it is. -/
theorem sortBy_eq_self
    (hSorted : l.Pairwise (fun a b => (cmp a b).isLE = true)) : sortBy cmp l = l :=
  List.Pairwise.insertionSort_eq hSorted

/- Items that the comparator tells apart have one order. -/
theorem sortBy_eq_of_perm [Std.TransCmp cmp] {l' : List α}
    (hPerm : l.Perm l') (hApart : ∀ a ∈ l, ∀ b ∈ l, cmp a b = .eq → a = b) :
    sortBy cmp l = sortBy cmp l' := by
  refine List.Perm.eq_of_pairwise ?_ (pairwise_sortBy cmp l) (pairwise_sortBy cmp l')
    ((sortBy_perm cmp l).trans (hPerm.trans (sortBy_perm cmp l').symm))
  intro a b hA hB hab hba
  refine hApart a ((mem_sortBy _ _ _).mp hA) b (hPerm.mem_iff.mpr ((mem_sortBy _ _ _).mp hB)) ?_
  have hSwap : cmp a b = (cmp b a).swap := Std.OrientedCmp.eq_swap
  cases hCmp : cmp b a with
  | lt => simp [hSwap, hCmp] at hab
  | eq => rw [hSwap, hCmp]; rfl
  | gt => simp [hCmp] at hba

/- Comparators that agree on a list sort it the same way. -/
theorem sortBy_congr {cmp' : α → α → Ordering}
    (hAgree : ∀ a ∈ l, ∀ b ∈ l, cmp a b = cmp' a b) : sortBy cmp l = sortBy cmp' l := by
  have hMap := map_insertionSort (fun a b => (cmp a b).isLE = true)
    (fun a b => (cmp' a b).isLE = true) id l (fun a ha b hb => by rw [hAgree a ha b hb]; rfl)
  simpa [sortBy] using hMap

/- Sorting looks at nothing but the comparator. -/
theorem sortBy_map {β : Type} (cmp : α → α → Ordering) (cmp' : β → β → Ordering) (f : α → β)
    (hCmp : ∀ a b, cmp' (f a) (f b) = cmp a b) (l : List α) :
    sortBy cmp' (l.map f) = (sortBy cmp l).map f := by
  refine (map_insertionSort _ _ f l ?_).symm
  intro a _ b _
  rw [hCmp]

theorem nodup_eraseDups [DecidableEq α] (l : List α) : l.eraseDups.Nodup := by
  -- the tail is shortened by a filter, not by a constructor
  induction hLength : l.length using Nat.strong_induction_on generalizing l with
  | _ length ih => cases l with
      | nil => exact nodup_nil
      | cons first rest =>
        rw [eraseDups_cons, nodup_cons, mem_eraseDups]
        refine ⟨by simp, ih _ ?_ _ rfl⟩
        rw [← hLength]
        exact Nat.lt_succ_of_le (length_filter_le _ _)

/- Items numbered before they are sorted keep their value. -/
theorem map_mapIdx_eq_self {β : Type} (f : Nat → α → β) (g : β → α)
    (hInv : ∀ index a, g (f index a) = a) (l : List α) : (l.mapIdx f).map g = l := by
  apply ext_getElem?
  intro index
  cases hGet : l[index]? <;> simp [getElem?_mapIdx, hGet, hInv]

end

----------
-- Host Text Services
----------

/- The services of the host that depend on its tables. -/
structure TextHost where
  localeCompare : String → String → Ordering
  localeCompare_trans : Std.TransCmp localeCompare
  toLowerCase : String → String
  numberToString : JsNumber → String

namespace TextHost

instance (host : TextHost) : Std.TransCmp host.localeCompare := host.localeCompare_trans

/- Sort strings in collation order. -/
def sort (host : TextHost) (l : List String) : List String := sortBy host.localeCompare l

/- Sort records by a string field. -/
def sortOn (host : TextHost) (key : α → String) (l : List α) : List α :=
  sortBy (fun a b => host.localeCompare (key a) (key b)) l

/- Code point order, ASCII case mapping, whole numbers. -/
def basic : TextHost where
  localeCompare := compare
  localeCompare_trans := inferInstance
  toLowerCase := fun s => String.ofList (s.toList.map Char.toLower)
  numberToString
    | .nan => "NaN"
    | .negInf => "-Infinity"
    | .posInf => "Infinity"
    | .finite q => toString q.num

end TextHost

/- White space and line terminators. -/
def isWhiteSpace (c : Char) : Bool :=
  c.toNat ∈
    [0x9, 0xA, 0xB, 0xC, 0xD, 0x20, 0xA0, 0x1680, 0x2000,
      0x2001, 0x2002, 0x2003, 0x2004, 0x2005, 0x2006,
      0x2007, 0x2008, 0x2009, 0x200A, 0x2028, 0x2029, 0x202F, 0x205F, 0x3000, 0xFEFF]

/- `s.trim()` -/
def trim (s : String) : String :=
  String.ofList ((s.toList.dropWhile isWhiteSpace).reverse.dropWhile isWhiteSpace).reverse

/- `s.length`, in UTF-16 code units. -/
def jsLength (s : String) : Nat := (s.toList.map (fun c => if c.toNat < 0x10000 then 1 else 2)).sum

/- `s.trim().length === 0` -/
def isBlank (s : String) : Bool := jsLength (trim s) == 0

/- A separator that does not occur before splits one way. -/
theorem eq_of_append_cons_eq {α : Type} {c : α} {l₁ l₂ r₁ r₂ : List α} (h₁ : c ∉ l₁) (h₂ : c ∉ l₂)
    (hEq : l₁ ++ c :: r₁ = l₂ ++ c :: r₂) : l₁ = l₂ ∧ r₁ = r₂ := by
  rcases append_eq_append_iff.mp hEq with ⟨m, rfl, hRest⟩ | ⟨m, rfl, hRest⟩ <;> cases m <;> simp_all

end Foundations
