import AgencCore.Foundations.Numbers

/-
  Logs of charges, counted over a sliding window.

  A log holds charges with the time at which they were made. The usage since a time is the weight of
  the charges made since then. A log may drop what is older than a time; the usage since any later
  time stays the same.
-/

namespace Foundations

/- A charge and the time at which it was made. -/
structure Charge (α : Type) where
  atMs : ℚ
  amount : α

variable {α β : Type}

def Charge.since (cutoff : JsNumber) (charge : Charge α) : Bool := cutoff.le (.finite charge.atMs)

/- The charges made since a time. -/
def recent (cutoff : JsNumber) (log : List (Charge α)) : List (Charge α) :=
  log.filter (Charge.since cutoff)

/- The charges that `recent` leaves out. -/
def dropped (cutoff : JsNumber) (log : List (Charge α)) : List (Charge α) :=
  log.filter (fun charge => !charge.since cutoff)

variable [AddCommMonoid β]
variable (weight : α → β)

/- What the charges since a time add up to. -/
def usage (cutoff : JsNumber) (log : List (Charge α)) : β :=
  ((recent cutoff log).map (fun charge => weight charge.amount)).sum

@[simp] theorem usage_nil (cutoff : JsNumber) : usage weight cutoff [] = 0 := rfl

theorem usage_append (cutoff : JsNumber) (log log' : List (Charge α)) :
    usage weight cutoff (log ++ log') = usage weight cutoff log + usage weight cutoff log' := by
  simp [usage, recent]

theorem usage_singleton (cutoff : JsNumber) (charge : Charge α) :
    usage weight cutoff [charge] = if charge.since cutoff then weight charge.amount
      else 0 := by
  unfold usage recent
  split <;> simp_all

/- Usage splits into what is kept and what is dropped. -/
theorem usage_recent_add_dropped (cutoff cutoff' : JsNumber) (log : List (Charge α)) :
    usage weight cutoff (recent cutoff' log) + usage weight cutoff (dropped cutoff' log) =
      usage weight cutoff log := by
  have hPerm : (recent cutoff' log ++ dropped cutoff' log).Perm log :=
    List.filter_append_perm (Charge.since cutoff') log
  rw [← usage_append]
  unfold usage recent
  exact ((hPerm.filter _).map _).sum_eq

omit [AddCommMonoid β] in
/- Dropping older charges keeps those since a later time. -/
theorem recent_recent {cutoff cutoff' : JsNumber} (hLe : cutoff'.le cutoff = true)
    (log : List (Charge α)) : recent cutoff (recent cutoff' log) = recent cutoff log := by
  unfold recent
  rw [List.filter_filter]
  apply List.filter_congr
  intro charge _
  unfold Charge.since
  cases hSince : cutoff.le (.finite charge.atMs) with
  | false => rfl
  | true => simp [JsNumber.le_trans hLe hSince]

theorem usage_recent {cutoff cutoff' : JsNumber} (hLe : cutoff'.le cutoff = true)
    (log : List (Charge α)) :
    usage weight cutoff (recent cutoff' log) = usage weight cutoff log := by
  unfold usage
  rw [recent_recent hLe]

/- Charges that weigh nothing, or are too old, use nothing. -/
theorem usage_eq_zero
    {cutoff : JsNumber}
    {log : List (Charge α)}
    (hNone : ∀ charge ∈ log, charge.since cutoff = true → weight charge.amount = 0) :
    usage weight cutoff log = 0 := by
  refine List.sum_eq_zero ?_
  intro x hMem
  rcases List.mem_map.mp hMem with ⟨charge, hRecent, rfl⟩
  rcases List.mem_filter.mp hRecent with ⟨hCharge, hSince⟩
  exact hNone charge hCharge hSince

/- Amounts that can be told from their sums: they cancel, and no two of them make zero. -/
structure Ordinary (ordinary : β → Prop) : Prop where
  zero : ordinary 0
  add : ∀ {x y}, ordinary x → ordinary y → ordinary (x + y)
  cancel : ∀ {x y z}, ordinary x → ordinary y → ordinary z → x + y = x + z → y = z
  eq_zero : ∀ {x y}, ordinary x → ordinary y → x + y = 0 → x = 0

variable {weight}
variable {ordinary : β → Prop}
variable (hOrdinary : Ordinary ordinary)
include hOrdinary

/- Ordinary charges have an ordinary usage. -/
theorem Ordinary.usage
    (cutoff : JsNumber)
    {log : List (Charge α)}
    (hLog : ∀ charge ∈ log, ordinary (weight charge.amount)) :
    ordinary (usage weight cutoff log) := by
  induction log with
  | nil => exact hOrdinary.zero
  | cons first rest ih =>
    rcases List.forall_mem_cons.mp hLog with ⟨hFirst, hRest⟩
    rw [← List.singleton_append, usage_append, usage_singleton]
    refine hOrdinary.add ?_ (ih hRest)
    split
    · exact hFirst
    · exact hOrdinary.zero

/- Where ordinary charges use nothing, each that is counted weighs nothing. -/
theorem Ordinary.eq_zero_of_usage
    {cutoff : JsNumber}
    {log : List (Charge α)}
    (hLog : ∀ charge ∈ log, ordinary (weight charge.amount))
    (hNone : Foundations.usage weight cutoff log = 0) :
    ∀ charge ∈ log, charge.since cutoff = true → weight charge.amount = 0 := by
  intro charge hMem hSince
  rcases List.append_of_mem hMem with ⟨before, after, rfl⟩
  have hBefore := hOrdinary.usage cutoff (fun c hC => hLog c (List.mem_append_left _ hC))
  have hAfter := hOrdinary.usage cutoff
    (fun c hC => hLog c (List.mem_append_right _ (List.mem_cons_of_mem _ hC)))
  rw [← List.singleton_append, usage_append, usage_append, usage_singleton, if_pos hSince,
    add_left_comm] at hNone
  exact hOrdinary.eq_zero (hLog charge hMem) (hOrdinary.add hBefore hAfter) hNone

end Foundations
