import AgencCore.Foundations.OrderedMap
import AgencCore.Foundations.Text

/-
  Plain objects used as string-keyed records, and sequential computations that can throw.

  A `Record` is an ordered map with string keys. Iterating over a plain object visits the
  array-index keys first, in numeric order, and then the other keys in insertion order;
  `Record.objectEntries` follows that order. Reading a name that the object does not own can still
  find a member of `Object.prototype`; `objectPrototypeNames` lists them. An assignment to
  `__proto__` creates no own property.
-/

namespace Foundations

open List OrderedMap

/- A plain object used as a map from strings. -/
abbrev Record (α : Type) := OrderedMap String α

/- The names every plain object inherits. -/
def objectPrototypeNames : List String :=
  ["constructor", "__defineGetter__", "__defineSetter__", "hasOwnProperty", "__lookupGetter__",
    "__lookupSetter__", "isPrototypeOf", "propertyIsEnumerable", "toString", "valueOf",
    "__proto__", "toLocaleString"]

/- The value of a canonical array index below `2^32 - 1`. -/
def arrayIndex? (key : String) : Option Nat :=
  let digits := key.toList
  if digits.all Char.isDigit && !digits.isEmpty &&
      (digits == ['0'] || digits.head? != some '0') then
    let value := digits.foldl (fun acc c => acc * 10 + (c.toNat - '0'.toNat)) 0
    if value < 2 ^ 32 - 1 then some value else none
  else none

namespace Record

variable {α : Type}

/- `r[key] = value` -/
def assign (r : Record α) (key : String) (value : α) : Record α :=
  if key = "__proto__" then r else r.set key value

/- `Object.entries(r)` -/
def objectEntries (r : Record α) : List (String × α) :=
  sortBy (fun a b => compare ((arrayIndex? a.1).getD 0) ((arrayIndex? b.1).getD 0))
      (r.entries.filter (fun e => (arrayIndex? e.1).isSome))
    ++ r.entries.filter (fun e => (arrayIndex? e.1).isNone)

/- `Object.keys(r)` -/
def objectKeys (r : Record α) : List String := r.objectEntries.map Prod.fst

/- `Object.values(r)` -/
def objectValues (r : Record α) : List α := r.objectEntries.map Prod.snd

variable (r : Record α)

theorem get?_assign {key : String} (hKey : key ≠ "__proto__") (other : String)
    (value : α) :
    (r.assign key value).get? other = if key = other then some value else r.get? other := by
  unfold assign
  rw [if_neg hKey, OrderedMap.get?_set]

/- Assignment never creates an own `__proto__`. -/
theorem proto_not_mem_assign {r : Record α} (hAbsent : "__proto__" ∉ r.keys) (key : String)
    (value : α) : "__proto__" ∉ (r.assign key value).keys := by
  unfold assign
  by_cases hKey : key = "__proto__"
  · rw [if_pos hKey]
    exact hAbsent
  · rw [if_neg hKey, mem_keys_set]
    rintro (hEq | hMem)
    · exact hKey hEq.symm
    · exact hAbsent hMem

theorem objectEntries_perm : r.objectEntries.Perm r.entries := by
  have hSplit : (r.entries.filter (fun e => (arrayIndex? e.1).isSome) ++
        r.entries.filter (fun e => !(arrayIndex? e.1).isSome)).Perm r.entries :=
    filter_append_perm _ _
  have hNone :
      (fun e : String × α => (arrayIndex? e.1).isNone) = (fun e => !(arrayIndex? e.1).isSome) := by
    funext e
    simp
  unfold objectEntries
  rw [hNone]
  exact ((sortBy_perm _ _).append_right _).trans hSplit

/- Copying the entries of a record keeps its values. -/
theorem get?_ofList_objectEntries (key : String) :
    (OrderedMap.ofList r.objectEntries).get? key = r.get? key := by
  have hNodup : (r.objectEntries.map Prod.fst).Nodup :=
    (r.objectEntries_perm.map Prod.fst).nodup_iff.mpr r.nodup_keys
  apply Option.ext
  intro value
  rw [← mem_entries_iff, entries_ofList hNodup,
    r.objectEntries_perm.mem_iff, mem_entries_iff]

theorem objectKeys_perm : r.objectKeys.Perm r.keys :=
  r.objectEntries_perm.map Prod.fst

theorem objectValues_perm : r.objectValues.Perm r.values :=
  r.objectEntries_perm.map Prod.snd

end Record

----------
-- Sequential Checks
----------

section

variable {ε α σ : Type}

def throwIf (condition : Bool) (e : ε) : Except ε Unit := if condition then .error e else .ok ()

@[simp] theorem throwIf_eq_ok_iff (condition : Bool) (e : ε) (u : Unit) :
    throwIf condition e = .ok u ↔ condition = false := by
  unfold throwIf
  cases condition <;> simp

/- Run a check on each element until one throws. -/
def forEachM (check : α → Except ε Unit) : List α → Except ε Unit
| [] => .ok ()
| a :: rest =>
  match check a with
  | .error e => .error e
  | .ok _ => forEachM check rest

/- A loop of checks passes when every check does. -/
@[simp] theorem forEachM_eq_ok_iff (check : α → Except ε Unit) (l : List α) (u : Unit) :
    forEachM check l = .ok u ↔ ∀ a ∈ l, check a = .ok () := by
  induction l with
  | nil => simp [forEachM]
  | cons a rest ih => cases hCheck : check a with
      | error e => simp [forEachM, hCheck]
      | ok u => simp [forEachM, hCheck, ih]

/- A check that each element is new, one element at a time. -/
theorem nodup_cons_unseen {a : α} {l seen : List α} : ((a :: l).Nodup ∧ ∀ x ∈ a :: l, x ∉ seen) ↔
      a ∉ seen ∧ l.Nodup ∧ ∀ x ∈ l, x ∉ a :: seen := by
  rw [List.nodup_cons, List.forall_mem_cons]
  grind

/- A bind returns exactly when both computations return. -/
@[simp] theorem bind_eq_ok_iff {β : Type} (x : Except ε α) (f : α → Except ε β) (b : β) :
    (x >>= f) = .ok b ↔ ∃ a, x = .ok a ∧ f a = .ok b := by
  cases x with
  | error e =>
    constructor
    · intro h
      cases h
    · rintro ⟨a, hx, _⟩
      cases hx
  | ok a =>
    constructor
    · intro h
      exact ⟨a, rfl, h⟩
    · rintro ⟨a', hx, hf⟩
      cases hx
      exact hf

variable {f : σ → α → Except ε σ}
variable {Inv : σ → Prop}
variable {l : List α}

/- A loop that returns keeps what its steps keep, and its body has run on every element. -/
theorem foldlM_invariant {P : α → Prop}
    (hStep : ∀ a ∈ l, ∀ s s', Inv s → f s a = .ok s' → Inv s' ∧ P a) {s s' : σ} (hs : Inv s)
    (hOk : l.foldlM f s = .ok s') : Inv s' ∧ ∀ a ∈ l, P a := by
  induction l generalizing s with
  | nil =>
    cases hOk
    exact ⟨hs, forall_mem_nil _⟩
  | cons a rest ih =>
    rw [foldlM_cons, bind_eq_ok_iff] at hOk
    rcases hOk with ⟨s₁, hHead, hTail⟩
    rcases hStep a mem_cons_self s s₁ hs hHead with ⟨hs₁, hP⟩
    rcases ih (fun b hb => hStep b (mem_cons_of_mem a hb)) hs₁ hTail with ⟨hs', hRest⟩
    exact ⟨hs', forall_mem_cons.mpr ⟨hP, hRest⟩⟩

/- Mapping a computation that always returns. -/
theorem mapM_eq_ok {β : Type} {f : α → Except ε β} {g : α → β}
    (hf : ∀ a ∈ l, f a = .ok (g a)) : l.mapM f = .ok (l.map g) := by
  induction l with
  | nil => rfl
  | cons a rest ih =>
    have hRest := ih (fun b hb => hf b (mem_cons_of_mem a hb))
    rw [mapM_cons, hf a mem_cons_self]
    simp only [bind_eq_ok_iff]
    exact ⟨g a, rfl, rest.map g, hRest, rfl⟩

/- A loop returns when each step does under an invariant. -/
theorem foldlM_returns
    (hStep : ∀ a ∈ l, ∀ s, Inv s → ∃ s', f s a = .ok s' ∧ Inv s') {s : σ} (hs : Inv s) :
    ∃ s', l.foldlM f s = .ok s' ∧ Inv s' := by
  induction l generalizing s with
  | nil => exact ⟨s, rfl, hs⟩
  | cons a rest ih =>
    rcases hStep a mem_cons_self s hs with ⟨s₁, hHead, hs₁⟩
    rcases ih (fun b hb => hStep b (mem_cons_of_mem a hb)) hs₁ with ⟨s', hTail, hs'⟩
    refine ⟨s', ?_, hs'⟩
    rw [foldlM_cons, bind_eq_ok_iff]
    exact ⟨s₁, hHead, hTail⟩

/- Map a list, throwing at the first element whose key was produced before. -/
def mapDistinctM {κ β : Type} [DecidableEq κ] (key : α → Except ε κ) (duplicate : κ → ε)
    (build : κ → α → Except ε β) : List κ → List α → Except ε (List β)
| _, [] => .ok []
| seen, a :: rest => do
    let k ← key a
    throwIf (decide (k ∈ seen)) (duplicate k)
    let b ← build k a
    let out ← mapDistinctM key duplicate build (k :: seen) rest
    .ok (b :: out)

/- Every element of the result was built from an input. -/
theorem mem_of_mapDistinctM {κ β : Type} [DecidableEq κ] {key : α → Except ε κ} {duplicate : κ → ε}
    {build : κ → α → Except ε β} {seen : List κ} {out : List β}
    (hOk : mapDistinctM key duplicate build seen l = .ok out) :
    ∀ b ∈ out, ∃ a ∈ l, ∃ k, key a = .ok k ∧ build k a = .ok b := by
  induction l generalizing seen out with
  | nil =>
    intro b hb
    simp only [mapDistinctM, Except.ok.injEq] at hOk
    simp [← hOk] at hb
  | cons a rest ih =>
    simp only [mapDistinctM, bind_eq_ok_iff, Except.ok.injEq] at hOk
    rcases hOk with ⟨k, hKey, _, _, b', hBuild, out', hRest, hOut⟩
    intro b hb
    rw [← hOut] at hb
    rcases List.mem_cons.mp hb with hEq | hTail
    · rw [hEq]
      exact ⟨a, mem_cons_self, k, hKey, hBuild⟩
    · rcases ih hRest b hTail with ⟨a', ha', hBuilt⟩
      exact ⟨a', mem_cons_of_mem a ha', hBuilt⟩

end

end Foundations
