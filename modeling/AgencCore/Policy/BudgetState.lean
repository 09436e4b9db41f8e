import AgencCore.Policy.Budgets

/-
  The budget state service.

  A sliding window holds samples and drops those that left the window when a sample is recorded. A
  service keeps a window for each session. Of its four kinds of windows, the rate of tool calls is
  the one that is used here.
-/

namespace AgencCore.Policy

open Foundations

structure SlidingWindowState where
  samples : List (Charge JsNumber)
  windowMs : JsNumber

def createSlidingWindow (windowMs : JsNumber) : SlidingWindowState :=
  { samples := [], windowMs := windowMs }

def recordSample (state : SlidingWindowState) (amount : JsNumber)
    (nowMs : ℚ) : SlidingWindowState :=
  { state with
    samples := recent (cutoffOf nowMs state.windowMs) state.samples ++ [⟨nowMs, amount⟩] }

def windowTotal (state : SlidingWindowState) (nowMs : ℚ) : JsNumber :=
  usage id (cutoffOf nowMs state.windowMs) state.samples

structure BudgetStateService where
  rateWindowMs : JsNumber
  bySession : OrderedMap String SlidingWindowState

namespace BudgetStateService

def create (rateWindowMs : JsNumber) : BudgetStateService :=
  { rateWindowMs := rateWindowMs, bySession := OrderedMap.empty }

/- The window of a session, made when it is first needed. -/
def ensure (service : BudgetStateService) (sessionId : String) : SlidingWindowState :=
  (service.bySession.get? sessionId).getD (createSlidingWindow service.rateWindowMs)

def recordToolCall (service : BudgetStateService) (sessionId : String)
    (nowMs : ℚ) : BudgetStateService :=
  { service with
    bySession := service.bySession.set sessionId (recordSample (service.ensure sessionId) 1 nowMs) }

def toolCallRate (service : BudgetStateService) (sessionId : String) (nowMs : ℚ) : JsNumber :=
  match service.bySession.get? sessionId with
  | none => 0
  | some window => windowTotal window nowMs

end BudgetStateService

section

/-
  From now on, a log counts what its history counts: what was dropped has left every window to come.
-/
def Tracks {α : Type} (windowMs : JsNumber) (now : ℚ) (log history : List (Charge α)) : Prop :=
  ∀ later, now ≤ later →
    recent (cutoffOf later windowMs) log = recent (cutoffOf later windowMs) history

/- In the closed window that ends at a time. -/
def inClosedWindow {α : Type} (windowMs : JsNumber) (time : ℚ) (charge : Charge α) : Bool :=
  charge.since (cutoffOf time windowMs) && decide (charge.atMs ≤ time)

variable {α : Type}
variable {windowMs : JsNumber}
variable {now : ℚ}
variable {log history : List (Charge α)}

theorem Tracks.later (hTracks : Tracks windowMs now log history) {later : ℚ}
    (hLater : now ≤ later) : Tracks windowMs later log history :=
  fun latest hLe => hTracks latest (hLater.trans hLe)

/- Dropping what left the window is not noticed later. -/
theorem recent_recent_later {later : ℚ} (hLater : now ≤ later) (windowMs : JsNumber)
    (log : List (Charge α)) :
    recent (cutoffOf later windowMs) (recent (cutoffOf now windowMs) log) =
      recent (cutoffOf later windowMs) log := by
  unfold recent
  rw [List.filter_filter]
  apply List.filter_congr
  intro charge _
  cases hSince : charge.since (cutoffOf later windowMs) with
  | false => rfl
  | true =>
    have hEarlier : charge.since (cutoffOf now windowMs) = true :=
      cutoffOf_le_of_later hLater hSince
    rw [hEarlier]
    rfl

theorem Tracks.record (hTracks : Tracks windowMs now log history) {time : ℚ} (hLater : now ≤ time)
    (amount : α) :
    Tracks windowMs time (recent (cutoffOf time windowMs) log ++ [⟨time, amount⟩])
      (history ++ [⟨time, amount⟩]) := by
  intro later hLe
  have hBefore := hTracks later (hLater.trans hLe)
  have hDropped := recent_recent_later hLe windowMs log
  unfold recent at hBefore hDropped ⊢
  rw [List.filter_append, List.filter_append, hDropped, hBefore]

/- A charge of a later window is since the start of this. -/
theorem since_of_within {time later : ℚ} (hLe : time ≤ later) {charge : Charge α}
    (hWithin : inClosedWindow windowMs later charge = true) :
    charge.since (cutoffOf time windowMs) = true := by
  unfold inClosedWindow at hWithin
  rw [Bool.and_eq_true] at hWithin
  exact cutoffOf_le_of_later hLe hWithin.1

/- A later window holds what this one counts, at most. -/
theorem count_within_le_recent {time later : ℚ} (hLe : time ≤ later) (windowMs : JsNumber)
    (history : List (Charge α)) :
    history.countP (inClosedWindow windowMs later) ≤
      (recent (cutoffOf time windowMs) history).length := by
  rw [recent, ← List.countP_eq_length_filter]
  exact List.countP_mono_left (fun _ _ hWithin => since_of_within hLe hWithin)

end

end AgencCore.Policy
