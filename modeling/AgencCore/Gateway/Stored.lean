import AgencCore.Foundations.Text

/-
  Records that are stored as JSON and read back.

  A number that is not finite is stored as `null`. On reading back it is missing, or its record is
  dropped.
-/

namespace AgencCore.Gateway

open Foundations

inductive Stored (α : Type) where
  | absent
  | damaged
  | valid (value : α)
deriving DecidableEq

/- A text that is there and not empty. -/
def givenText (text : Option String) : Option String := text.filter (fun text => text ≠ "")

/- A number that is there and neither zero nor `nan`. -/
def givenNumber (number : Option JsNumber) : Option JsNumber :=
  number.filter (fun number => number ≠ 0 && !number.isNaN)

theorem eq_of_givenText {text : Option String} {value : String}
    (hGiven : givenText text = some value) : text = some value :=
  (Option.filter_eq_some_iff.mp hGiven).1

theorem eq_of_givenNumber {number : Option JsNumber} {value : JsNumber}
    (hGiven : givenNumber number = some value) : number = some value :=
  (Option.filter_eq_some_iff.mp hGiven).1

/- The sign of `left - right`, where `nan` counts as zero. -/
def compareNumbers (left right : JsNumber) : Ordering :=
  let difference := left.sub right
  if difference.lt 0 then .lt
  else if JsNumber.lt 0 difference then .gt
  else .eq

def numberValue : JsNumber → ℚ
| .finite q => q
| _ => 0

theorem compareNumbers_finite (p q : ℚ) : compareNumbers (.finite p) (.finite q) = compare p q := by
  have hDifference : JsNumber.sub (.finite p) (.finite q) = .finite (p - q) := by
    simp [JsNumber.sub, JsNumber.neg, JsNumber.add, sub_eq_add_neg]
  have hZero : (0 : JsNumber) = .finite 0 := rfl
  unfold compareNumbers
  dsimp only
  rw [hDifference, hZero]
  simp only [JsNumber.lt, decide_eq_true_eq, sub_neg, sub_pos]
  rcases lt_trichotomy p q with hLt | hEq | hGt
  · rw [if_pos hLt, compare_lt_iff_lt.mpr hLt]
  · subst hEq
    simp
  · rw [if_neg (not_lt_of_gt hGt), if_pos hGt, compare_gt_iff_gt.mpr hGt]

theorem compareNumbers_eq {left right : JsNumber} (hLeft : left.isFinite = true)
    (hRight : right.isFinite = true) :
    compareNumbers left right = compare (numberValue left) (numberValue right) := by
  cases left with
  | finite p => cases right with
      | finite q => exact compareNumbers_finite p q
      | nan | posInf | negInf => cases hRight
  | nan | posInf | negInf => cases hLeft

/- `coercePositiveInteger`, after the number was stored. -/
def readPositive (number : JsNumber) : Option Nat :=
  match number with
  | .finite q => if 0 < q.floor then some q.floor.toNat else none
  | _ => none

def defaultMaxDeliveryAttempts : JsNumber := 3

/- A whole number of at least one, else the default. -/
def readAttempts (attempts : JsNumber) : JsNumber :=
  match attempts with
  | .finite q => if 0 < q.floor then .ofInt q.floor
      else defaultMaxDeliveryAttempts
  | _ => defaultMaxDeliveryAttempts

theorem readPositive_ofInt {count : Nat} (hPos : 0 < count) :
    readPositive (.ofInt count) = some count := by
  have hFloor : Rat.floor ((count : Int) : ℚ) = count := Rat.floor_intCast _
  unfold readPositive JsNumber.ofInt
  dsimp only
  rw [hFloor, if_pos (by omega), Int.toNat_natCast]

theorem filterMap_of_forall_some {α β : Type} {f : α → Option β} {g : α → β} {l : List α}
    (hSome : ∀ a ∈ l, f a = some (g a)) : l.filterMap f = l.map g := by
  rw [List.filterMap_congr hSome, List.filterMap_eq_map']

end AgencCore.Gateway
