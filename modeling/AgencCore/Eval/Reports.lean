import AgencCore.Eval.Distinct

/-
  The lifecycle reports of a projection.

  The states of tasks, disputes and speculations, and the violations found, are computed from the
  distinct events in their order. They do not depend on the places of the events or on the counters
  of the loop.
-/

namespace AgencCore.Eval

open Foundations List

section

def Projection.withReports (q p : Projection) : Projection :=
  { q with
    telemetry := { q.telemetry with
      transitionConflicts := p.telemetry.transitionConflicts
      transitionViolations := p.telemetry.transitionViolations }, taskStates := p.taskStates
    disputeStates := p.disputeStates, speculationStates := p.speculationStates
    disputeReplayStates := p.disputeReplayStates }

structure SameReports (p q : Projection) : Prop where
  conflicts : q.telemetry.transitionConflicts = p.telemetry.transitionConflicts
  violations : q.telemetry.transitionViolations = p.telemetry.transitionViolations
  tasks : q.taskStates = p.taskStates
  disputes : q.disputeStates = p.disputeStates
  speculations : q.speculationStates = p.speculationStates
  replays : q.disputeReplayStates = p.disputeReplayStates

theorem SameReports.withReports_eq {p q : Projection} (hSame : SameReports p q) :
    q.withReports p = q := by
  unfold Projection.withReports
  rw [← hSame.conflicts, ← hSame.violations, ← hSame.tasks, ← hSame.disputes, ← hSame.speculations,
    ← hSame.replays]

variable {host : EvalHost}

theorem addViolation_withReports (q p : Projection)
    (violation : Option TransitionValidationViolation) :
    (q.withReports p).addViolation violation = q.withReports (p.addViolation violation) := by
  cases violation <;> rfl

variable (item : SortedItem)
variable (context : EventContext)

theorem projectTask_withReports (next : TaskLifecycleState) (q p : Projection) :
    projectTask item context next (q.withReports p) =
      q.withReports (projectTask item context next p) := by
  unfold projectTask
  split
  · rfl
  · dsimp only
    rw [addViolation_withReports]
    rfl

theorem projectDisputedTask_withReports (q p : Projection) :
    projectDisputedTask item context (q.withReports p) =
      q.withReports (projectDisputedTask item context p) := by
  unfold projectDisputedTask
  split
  · rfl
  · next taskPda _ =>
      have hStates : (q.withReports p).taskStates = p.taskStates := rfl
      rw [hStates]
      cases p.taskStates.get? taskPda with
      | none => rfl
      | some previous =>
        dsimp only
        split
        · rw [addViolation_withReports]
          rfl
        · rfl

theorem projectSpeculation_withReports (next : SpeculationLifecycleState) (q p : Projection) :
    projectSpeculation item context next (q.withReports p) =
      q.withReports (projectSpeculation item context next p) := by
  unfold projectSpeculation
  split
  · rfl
  · dsimp only
    rw [addViolation_withReports]
    rfl

theorem updateDispute_withReports (disputePda : String)
    (change : DisputeReplayState → DisputeReplayState) (q p : Projection) :
    (q.withReports p).updateDispute disputePda change =
      q.withReports (p.updateDispute disputePda change) := by
  unfold Projection.updateDispute
  have hStates : (q.withReports p).disputeReplayStates = p.disputeReplayStates := rfl
  rw [hStates]
  cases p.disputeReplayStates.get? disputePda <;> rfl

variable (eventName : OnChainEventName)

theorem replayDispute_withReports (disputePda : String) (q p : Projection) :
    replayDispute host eventName item context disputePda (q.withReports p) =
      (replayDispute host eventName item context disputePda p).map q.withReports := by
  unfold replayDispute
  dsimp only
  have hStates : (q.withReports p).disputeReplayStates = p.disputeReplayStates := rfl
  split
  · rfl
  · rw [hStates]
    cases p.disputeReplayStates.get? disputePda with
    | none => rfl
    | some _ =>
      dsimp only
      split
      · rw [updateDispute_withReports]
        rfl
      · rfl
  · rw [updateDispute_withReports]
    rfl
  · rw [updateDispute_withReports]
    rfl
  · rw [updateDispute_withReports]
    rfl
  · rfl

theorem projectDispute_withReports (next : DisputeLifecycleState) (q p : Projection) :
    projectDispute host eventName item context next (q.withReports p) =
      (projectDispute host eventName item context next p).map q.withReports := by
  unfold projectDispute
  split
  · rfl
  · dsimp only
    rw [addViolation_withReports, ← replayDispute_withReports]
    rfl

/- The lifecycles read and write the reports only. -/
theorem projectLifecycles_withReports (q p : Projection) :
    projectLifecycles host eventName item context (q.withReports p) =
      (projectLifecycles host eventName item context p).map q.withReports := by
  unfold projectLifecycles
  split
  · rw [projectTask_withReports]
    rfl
  · rw [← projectDispute_withReports, projectDisputedTask_withReports]
    split <;> rfl
  · rw [projectSpeculation_withReports]
    rfl
  · rfl

----------
-- The Reports Of A Run
----------

/- Follow the lifecycles of an item, and nothing else. -/
def reportItem (host : EvalHost) (p : Projection) (item : SortedItem) : Except String Projection :=
  let name := item.input.known?.getD .taskCreated
  projectLifecycles host name item (getContext host name item.input.event) p

/- A known input is reported as its lifecycles say. -/
theorem reportItem_of_projectKnown {p p' q : Projection} {entry : Entry} (hSame : SameReports p q)
    (hOk : projectKnown host (entry.2.input.known?.getD .taskCreated) entry.1 entry.2 p = .ok p') :
    ∃ q', reportItem host q entry.2 = .ok q' ∧ SameReports p' q' := by
  unfold projectKnown at hOk
  dsimp only at hOk
  rcases (bind_eq_ok_iff _ _ _).mp hOk with ⟨followed, hFollowed, hEq⟩
  cases hEq
  -- The reports of `q` are those of the state followed.
  have hState : q.withReports { p with eventIds := p.eventIds ++ [entry.2.fingerprint] } = q :=
    hSame.withReports_eq
  refine ⟨q.withReports followed, ?_, ⟨rfl, rfl, rfl, rfl, rfl, rfl⟩⟩
  unfold reportItem
  dsimp only
  rw [← hState, projectLifecycles_withReports, hFollowed, hState]
  rfl

theorem reports_foldlM {entries : List Entry}
    (hAccepted : ∀ entry ∈ entries, entryAccepted entry = true) {log : List Entry}
    {p p' q : Projection} (hAppended : Appended host log p) (hSame : SameReports p q)
    (hOk : entries.foldlM (projectItem host) p = .ok p') :
    ∃ q', ((newEntries entryPrint (log.map entryPrint) entries).map Prod.snd).foldlM
        (reportItem host) q = .ok q' ∧ SameReports p' q' := by
  induction entries generalizing log p q with
  | nil =>
    cases hOk
    exact ⟨q, rfl, hSame⟩
  | cons entry entries ih =>
    rw [foldlM_cons, bind_eq_ok_iff] at hOk
    rcases hOk with ⟨p₁, hHead, hTail⟩
    have hEntry := hAccepted entry mem_cons_self
    have hRest : ∀ other ∈ entries, entryAccepted other = true :=
      fun other hOther => hAccepted other (mem_cons_of_mem entry hOther)
    have hNext := hAppended.projectItem hHead
    rw [if_pos hEntry] at hNext
    have hPrints : entry.2.fingerprint ∈ p.eventIds ↔ entryPrint entry ∈ log.map entryPrint := by
      rw [hAppended.eventIds]
      rfl
    rw [projectItem_of_accepted hEntry] at hHead
    unfold newEntries
    unfold insertNew at hNext
    split at hHead
    · next hSeen =>
        cases hHead
        rw [if_pos (hPrints.mp hSeen)] at hNext
        rw [if_pos (hPrints.mp hSeen)]
        exact ih hRest hNext
          ⟨hSame.conflicts, hSame.violations, hSame.tasks, hSame.disputes, hSame.speculations,
            hSame.replays⟩ hTail
    · next hNew =>
        rw [if_neg (mt hPrints.mpr hNew)] at hNext
        rw [if_neg (mt hPrints.mpr hNew), map_cons]
        rcases reportItem_of_projectKnown hSame hHead with ⟨q₁, hReport, hSame₁⟩
        rcases ih hRest hNext hSame₁ hTail with ⟨q', hRun, hSame'⟩
        rw [map_append, map_singleton] at hRun
        refine ⟨q', ?_, hSame'⟩
        rw [foldlM_cons, bind_eq_ok_iff]
        exact ⟨q₁, hReport, hRun⟩

end

end AgencCore.Eval
