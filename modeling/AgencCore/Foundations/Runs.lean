import Mathlib

/-
  Runs of a step function.

  A state is changed by actions, one after the other. What every allowed action preserves holds
  after every run whose actions are allowed, and two states that answer alike and stay alike answer
  alike for ever.
-/

namespace Foundations

section

variable {σ α : Type}

/- The state after a sequence of actions. -/
def runSteps (step : σ → α → σ) (s : σ) (actions : List α) : σ := actions.foldl step s

/- Every action is allowed in the state it is taken in. -/
def AlongRun (step : σ → α → σ) (allowed : σ → α → Prop) : σ → List α → Prop
| _, [] => True
| s, action :: rest => allowed s action ∧ AlongRun step allowed (step s action) rest

instance instDecidableAlongRun (step : σ → α → σ) (allowed : σ → α → Prop)
    [∀ s action, Decidable (allowed s action)] (s : σ) (actions : List α) :
    Decidable (AlongRun step allowed s actions) :=
  match actions with
  | [] => isTrue trivial
  | action :: rest =>
    have : Decidable (AlongRun step allowed (step s action) rest) :=
      instDecidableAlongRun step allowed (step s action) rest
    inferInstanceAs (Decidable (_ ∧ _))

variable {step : σ → α → σ}
variable {invariant : σ → Prop}
variable {actions : List α}

/- An invariant of the allowed actions holds in every run. -/
theorem runSteps_invariant {allowed : σ → α → Prop}
    (hStep : ∀ s action, invariant s → allowed s action → invariant (step s action)) {s : σ}
    (hStart : invariant s) (hAlong : AlongRun step allowed s actions) :
    invariant (runSteps step s actions) := by
  induction actions generalizing s with
  | nil => exact hStart
  | cons action rest ih => exact ih (hStep s action hStart hAlong.1) hAlong.2

/- What an invariant makes true of every allowed action. -/
theorem AlongRun.of_invariant {allowed good : σ → α → Prop}
    (hStep : ∀ s action, invariant s → allowed s action → good s action ∧ invariant (step s action))
    {s : σ} (hStart : invariant s) (hAlong : AlongRun step allowed s actions) :
    AlongRun step good s actions := by
  induction actions generalizing s with
  | nil => trivial
  | cons action rest ih =>
    rcases hStep s action hStart hAlong.1 with ⟨hGood, hNext⟩
    exact ⟨hGood, ih hNext hAlong.2⟩

theorem AlongRun.of_preserved {good : σ → α → Prop}
    (hStep : ∀ s action, invariant s → good s action ∧ invariant (step s action)) {s : σ}
    (hStart : invariant s) (actions : List α) : AlongRun step good s actions := by
  induction actions generalizing s with
  | nil => trivial
  | cons action rest ih =>
    rcases hStep s action hStart with ⟨hGood, hNext⟩
    exact ⟨hGood, ih hNext⟩

variable {σ α β : Type}

/- The answers that the actions of a run get. -/
def answers (step : σ → α → β × σ) : σ → List α → List β
| _, [] => []
| s, action :: rest => (step s action).1 :: answers step (step s action).2 rest

/- Alike states answer a whole run alike. -/
theorem answers_eq_of_alike {step : σ → α → β × σ} {alike : σ → σ → Prop}
    (hStep : ∀ s s' action, alike s s' →
      (step s action).1 = (step s' action).1 ∧ alike (step s action).2 (step s' action).2)
    {s s' : σ} (hAlike : alike s s') (actions : List α) :
    answers step s actions = answers step s' actions := by
  induction actions generalizing s s' with
  | nil => rfl
  | cons action rest ih =>
    rcases hStep s s' action hAlike with ⟨hAnswer, hNext⟩
    unfold answers
    rw [hAnswer, ih hNext]

end

end Foundations
