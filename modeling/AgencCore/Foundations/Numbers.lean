import Mathlib

/-
  Numbers of a scripting language with a single numeric type.

  A `JsNumber` is a finite rational, an infinity, or `nan`. Every comparison with `nan` is false.
  Arithmetic on finite values is exact: rounding is not modelled, so a result about sums is only
  read where the code compares the sum with a small integer.
-/

namespace Foundations

inductive JsNumber where
  | nan
  | negInf
  | posInf
  | finite (q : ℚ)
deriving DecidableEq

namespace JsNumber

def ofInt (n : Int) : JsNumber := .finite n

instance : OfNat JsNumber n := ⟨ofInt n⟩

instance : Inhabited JsNumber := ⟨ofInt 0⟩

def isNaN : JsNumber → Bool
| .nan => true
| _ => false

def isFinite : JsNumber → Bool
| .finite _ => true
| _ => false

def isInteger : JsNumber → Bool
| .finite q => q.isInt
| _ => false

/- The operator `<`, false as soon as a side is `nan`. -/
def lt : JsNumber → JsNumber → Bool
| .finite p, .finite q => decide (p < q)
| .negInf, .finite _ => true
| .negInf, .posInf => true
| .finite _, .posInf => true
| _, _ => false

/- The operator `<=`, false as soon as a side is `nan`. -/
def le : JsNumber → JsNumber → Bool
| .nan, _ => false
| _, .nan => false
| a, b => !lt b a

def add : JsNumber → JsNumber → JsNumber
| .finite p, .finite q => .finite (p + q)
| .nan, _ => .nan
| _, .nan => .nan
| .posInf, .negInf => .nan
| .negInf, .posInf => .nan
| .posInf, _ => .posInf
| _, .posInf => .posInf
| .negInf, _ => .negInf
| _, .negInf => .negInf

def neg : JsNumber → JsNumber
| .nan => .nan
| .negInf => .posInf
| .posInf => .negInf
| .finite q => .finite (-q)

def sub (a b : JsNumber) : JsNumber := add a b.neg

def mul : JsNumber → JsNumber → JsNumber
| .finite p, .finite q => .finite (p * q)
| a, b => mulInfinite a b
where
  /- The sign decides, and zero times infinity is `nan`. -/
  mulInfinite (a b : JsNumber) : JsNumber :=
    if a.isNaN || b.isNaN then .nan
    else if (lt (ofInt 0) a && lt (ofInt 0) b) || (lt a (ofInt 0) && lt b (ofInt 0)) then .posInf
    else if (lt a (ofInt 0) && lt (ofInt 0) b) || (lt (ofInt 0) a && lt b (ofInt 0)) then .negInf
    else .nan

/- `Math.min`, which returns `nan` if an argument is `nan`. -/
def min (a b : JsNumber) : JsNumber :=
  if a.isNaN || b.isNaN then .nan
  else if lt b a then b else a

/- `Math.max`, which returns `nan` if an argument is `nan`. -/
def max (a b : JsNumber) : JsNumber :=
  if a.isNaN || b.isNaN then .nan
  else if lt a b then b else a

/- `BigInt(x)`, which is defined on integers only. -/
def toBigInt? (a : JsNumber) : Option Int :=
  match a with
  | .finite q => if q.isInt then some q.num else none
  | _ => none

----------
-- Integers Among The Numbers
----------

@[simp] theorem isInteger_ofInt (n : Int) : (ofInt n).isInteger = true := by
  simp [ofInt, isInteger, Rat.isInt]

@[simp] theorem toBigInt?_ofInt (n : Int) : (ofInt n).toBigInt? = some n := by
  simp [ofInt, toBigInt?, Rat.isInt]

@[simp] theorem add_ofInt (m n : Int) : add (ofInt m) (ofInt n) = ofInt (m + n) := by
  simp [ofInt, add]

@[simp] theorem ofInt_inj (m n : Int) : ofInt m = ofInt n ↔ m = n := by simp [ofInt]

@[simp] theorem lt_ofInt (m n : Int) : lt (ofInt m) (ofInt n) = decide (m < n) := by
  simp [ofInt, lt]

theorem le_finite (p q : ℚ) : le (.finite p) (.finite q) = decide (p ≤ q) := by
  have hLe : (!decide (q < p)) = decide (p ≤ q) := by
    rw [← decide_not]
    simp
  exact hLe

@[simp] theorem le_ofInt (m n : Int) : le (ofInt m) (ofInt n) = decide (m ≤ n) := by
  simp [ofInt, le_finite]

/- An integral number is the image of its integer part. -/
theorem eq_ofInt_of_isInteger {a : JsNumber} (hInt : a.isInteger = true) :
    ∃ n : Int, a = ofInt n := by
  cases a with
  | finite q =>
    have hDen : q.den = 1 := by simpa [isInteger, Rat.isInt] using hInt
    exact ⟨q.num, congrArg finite (Rat.coe_int_num_of_den_eq_one hDen).symm⟩
  | nan | negInf | posInf => simp [isInteger] at hInt

/- The last two summands can be exchanged. -/
theorem add_exchange (a b c : JsNumber) : add (add a b) c = add (add a c) b := by
  cases a <;> cases b <;> cases c <;> try rfl
  simp only [add, finite.injEq]
  ring

instance : Add JsNumber := ⟨add⟩

instance : Zero JsNumber := ⟨ofInt 0⟩

/- Sums do not depend on the order of their terms. -/
instance : AddCommMonoid JsNumber where
  add_assoc := by
    intro a b c
    change add (add a b) c = add a (add b c)
    cases a <;> cases b <;> cases c <;> try rfl
    simp only [add, finite.injEq]
    ring
  add_comm := by
    intro a b
    change add a b = add b a
    cases a <;> cases b <;> try rfl
    simp only [add, finite.injEq]
    ring
  zero_add := by
    intro a
    change add (ofInt 0) a = a
    cases a <;> simp [add, ofInt]
  add_zero := by
    intro a
    change add a (ofInt 0) = a
    cases a <;> simp [add, ofInt]
  nsmul := nsmulRec

/- Summing integral numbers is summing their integer parts. -/
theorem foldl_add_ofInt (l : List Int) (acc : Int) :
    (l.map ofInt).foldl add (ofInt acc) = ofInt (acc + l.sum) := by
  induction l generalizing acc with
  | nil => simp
  | cons n rest ih =>
    simp only [List.map_cons, List.foldl_cons, add_ofInt, List.sum_cons]
    rw [ih, add_assoc]

theorem lt_trans {a b c : JsNumber} (hab : lt a b = true) (hbc : lt b c = true) :
    lt a c = true := by
  cases a <;> cases b <;> cases c <;> simp [lt] at hab hbc ⊢
  exact hab.trans hbc

/- Without `nan`, failing `b < a` bounds `a` by `b`. -/
theorem lt_of_not_lt_of_lt {a b c : JsNumber} (ha : a.isNaN = false) (hba : lt b a = false)
    (hbc : lt b c = true) : lt a c = true := by
  cases a <;> cases b <;> cases c <;> simp [lt, isNaN] at ha hba hbc ⊢
  exact lt_of_le_of_lt hba hbc

/- Exceeding a minimum is exceeding one of its arguments. -/
theorem lt_min_left {a b : JsNumber} (c : JsNumber) (ha : a.isNaN = false) (hb : b.isNaN = false) :
    lt (min a b) c = true ↔ lt a c = true ∨ lt b c = true := by
  unfold min
  simp only [ha, hb, Bool.or_self, Bool.false_eq_true, if_false]
  by_cases hba : lt b a = true
  · rw [if_pos hba]
    exact ⟨Or.inr, fun h => h.elim (lt_trans hba) id⟩
  · rw [if_neg hba]
    have hba' : lt b a = false := by simpa using hba
    exact ⟨Or.inl, fun h => h.elim id (lt_of_not_lt_of_lt ha hba')⟩

/- Being at most a value is not exceeding it. -/
theorem le_eq_true_iff (c a : JsNumber) :
    le c a = true ↔ c.isNaN = false ∧ a.isNaN = false ∧ lt a c = false := by
  cases a <;> cases c <;> simp [le, lt, isNaN]

theorem le_trans {a b c : JsNumber} (hab : le a b = true) (hbc : le b c = true) :
    le a c = true := by
  cases a <;> cases b <;> cases c <;> simp [le, lt] at hab hbc ⊢
  exact hab.trans hbc

theorem isNaN_min (a b : JsNumber) : (min a b).isNaN = (a.isNaN || b.isNaN) := by
  unfold min
  by_cases hNaN : (a.isNaN || b.isNaN) = true
  · rw [if_pos hNaN, hNaN]
    rfl
  · rw [if_neg hNaN]
    simp only [Bool.or_eq_true, not_or, Bool.not_eq_true] at hNaN
    split <;> simp [hNaN.1, hNaN.2]

/- Staying below a minimum is staying below both arguments. -/
theorem le_min_right (a b c : JsNumber) :
    le c (min a b) = true ↔ le c a = true ∧ le c b = true := by
  simp only [le_eq_true_iff, isNaN_min, Bool.or_eq_false_iff]
  by_cases ha : a.isNaN = false
  · by_cases hb : b.isNaN = false
    · have hMin := lt_min_left c ha hb
      simp only [← Bool.not_eq_true, hMin, not_or]
      tauto
    · tauto
  · tauto

end JsNumber

----------
-- Limits On A Count
----------

/- A limit that a count can meet exactly, or none at all. -/
def WholeLimit (limit : JsNumber) : Prop := limit = .posInf ∨ ∃ n : ℕ, limit = .ofInt n

variable {limit : JsNumber}

/- A count of zero is within a whole limit. -/
theorem WholeLimit.zero_le (hWhole : WholeLimit limit) :
    JsNumber.le (.ofInt 0) limit = true := by
  rcases hWhole with rfl | ⟨n, rfl⟩
  · rfl
  · simp

/- Below a whole limit there is room for one more. -/
theorem WholeLimit.succ_le
    (hWhole : WholeLimit limit)
    {n : Int}
    (hBelow : limit.le (.ofInt n) = false) :
    JsNumber.le (.ofInt (n + 1)) limit = true := by
  rcases hWhole with rfl | ⟨m, rfl⟩
  · rfl
  · simp only [JsNumber.le_ofInt, decide_eq_false_iff_not, decide_eq_true_iff] at hBelow ⊢
    omega

/- A smaller count stays within a limit. -/
theorem le_limit_of_le
    {m n : Int}
    (hLe : m ≤ n)
    (hLimit : JsNumber.le (.ofInt n) limit = true) :
    JsNumber.le (.ofInt m) limit = true :=
  JsNumber.le_trans (by simpa using hLe) hLimit

end Foundations
