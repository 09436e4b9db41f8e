import AgencCore.Foundations.KeyedLog
import AgencCore.Eval.Projector

/-
  The events a projection returns.

  The loop appends one event for each accepted input whose fingerprint is new, so the events are
  read off the log of the accepted entries, keyed by fingerprint. The lifecycles only decide what is
  reported.
-/

namespace AgencCore.Eval

open Foundations List

section

/- The checks before an input is compared with those seen. -/
def OnChainProjectionInput.accepted (input : OnChainProjectionInput) : Bool :=
  decide (input.eventName ≠ "") && decide (0 ≤ input.slot) && decide (input.signature ≠ "") &&
    input.known?.isSome

/- An item with its place among the sorted items. -/
abbrev Entry := Nat × SortedItem

def entryPrint (entry : Entry) : Fingerprint := entry.2.fingerprint

def entryAccepted (entry : Entry) : Bool := entry.2.input.accepted

variable (host : EvalHost)

def entriesOf (inputs : List OnChainProjectionInput) : List Entry :=
  (sortInputs host inputs).mapIdx (fun index item => (index, item))

/- The accepted entries, the first one of each event. -/
def distinctEntries (inputs : List OnChainProjectionInput) : List Entry :=
  insertAll entryPrint [] ((entriesOf host inputs).filter entryAccepted)

def entryEvent (index : Nat) (entry : Entry) : ProjectedTimelineEvent :=
  let name := entry.2.input.known?.getD .taskCreated
  projectedEvent host name entry.2 (getContext host name entry.2.input.event) entry.1 (index + 1)

/- The event as it is returned, with its payload sanitized. -/
def returnedEvent (index : Nat) (entry : Entry) : ProjectedTimelineEvent :=
  let event := entryEvent host index entry
  { event with
    seq := index + 1, payload := sanitizePayload host (Json.object event.payload).toJsValue }

----------
-- The Loop As A Log
----------

/- The loop has appended the events of these entries. -/
structure Appended (host : EvalHost) (log : List Entry) (p : Projection) : Prop where
  eventIds : p.eventIds = log.map entryPrint
  projected : p.projected = log.mapIdx (entryEvent host)

variable {host : EvalHost}
variable {p p' : Projection}
variable {log : List Entry}

/- What a known input with a new fingerprint appends. -/
theorem Appended.known {eventName : OnChainEventName} {entry : Entry}
    (hName : entry.2.input.known? = some eventName) (hAppended : Appended host log p)
    (hOk : projectKnown host eventName entry.1 entry.2 p = .ok p') :
    Appended host (log ++ [entry]) p' := by
  unfold projectKnown at hOk
  dsimp only at hOk
  rcases (bind_eq_ok_iff _ _ _).mp hOk with ⟨followed, hFollowed, hEq⟩
  cases hEq
  have hSame := projectLifecycles_sameEvents hFollowed
  have hProjected : followed.projected = log.mapIdx (entryEvent host) :=
    hSame.projected.trans hAppended.projected
  refine ⟨?_, ?_⟩
  · simp [hSame.eventIds, hAppended.eventIds, entryPrint]
  · simp [hProjected, entryEvent, hName]

theorem projectItem_of_accepted {p : Projection} {entry : Entry}
    (hAccepted : entryAccepted entry = true) :
    projectItem host p entry =
      if entry.2.fingerprint ∈ p.eventIds then
        .ok { p with
          telemetry := { p.telemetry with duplicatesDropped := p.telemetry.duplicatesDropped + 1 } }
      else projectKnown host (entry.2.input.known?.getD .taskCreated) entry.1 entry.2 p := by
  simp only [entryAccepted, OnChainProjectionInput.accepted,
    Bool.and_eq_true, decide_eq_true_eq] at hAccepted
  rcases hAccepted with ⟨⟨⟨hName, hSlot⟩, hSignature⟩, hKnown⟩
  rcases Option.isSome_iff_exists.mp hKnown with ⟨name, hName'⟩
  unfold projectItem
  dsimp only
  rw [if_neg hName, if_neg (not_lt.mpr hSlot), if_neg hSignature, hName']
  rfl

/- A rejected item is only counted. -/
theorem projectItem_of_rejected (p : Projection) {entry : Entry}
    (hRejected : entryAccepted entry = false) :
    ∃ telemetry, projectItem host p entry = .ok { p with telemetry := telemetry } := by
  unfold projectItem
  dsimp only
  repeat' split
  all_goals first
    | exact ⟨_, rfl⟩
    | simp_all [entryAccepted, OnChainProjectionInput.accepted]

/- One round keeps the log of the accepted entries. -/
theorem Appended.projectItem {entry : Entry} (hAppended : Appended host log p)
    (hOk : projectItem host p entry = .ok p') :
    Appended host (if entryAccepted entry then insertNew entryPrint log entry
      else log) p' := by
  split
  · next hAccepted =>
    have hSeen : entry.2.fingerprint ∈ p.eventIds ↔ entryPrint entry ∈ log.map entryPrint := by
      rw [hAppended.eventIds]
      rfl
    have hKnown : entry.2.input.known? = some (entry.2.input.known?.getD .taskCreated) := by
      simp only [entryAccepted, OnChainProjectionInput.accepted, Bool.and_eq_true] at hAccepted
      rcases Option.isSome_iff_exists.mp hAccepted.2 with ⟨name, hName⟩
      rw [hName]
      rfl
    rw [projectItem_of_accepted hAccepted] at hOk
    split at hOk
    · next hIn =>
        cases hOk
        rw [insertNew, if_pos (hSeen.mp hIn)]
        exact ⟨hAppended.eventIds, hAppended.projected⟩
    · next hNew =>
        rw [insertNew, if_neg (mt hSeen.mpr hNew)]
        exact hAppended.known hKnown hOk
  · next hRejected =>
    rcases projectItem_of_rejected p (Bool.eq_false_of_not_eq_true hRejected) with ⟨telemetry, hEq⟩
    rw [hEq] at hOk
    cases hOk
    exact ⟨hAppended.eventIds, hAppended.projected⟩

/- The loop appends the first entry of each event. -/
theorem Appended.foldlM {entries : List Entry} (hAppended : Appended host log p)
    (hOk : entries.foldlM (Eval.projectItem host) p = .ok p') :
    Appended host (insertAll entryPrint log (entries.filter entryAccepted)) p' := by
  induction entries generalizing log p with
  | nil =>
    cases hOk
    exact hAppended
  | cons entry entries ih =>
    rw [foldlM_cons, bind_eq_ok_iff] at hOk
    rcases hOk with ⟨p₁, hHead, hTail⟩
    have hStep := ih (hAppended.projectItem hHead) hTail
    rw [filter_cons]
    split
    · next hAccepted =>
        rw [if_pos hAccepted] at hStep
        exact hStep
    · next hRejected =>
        rw [if_neg hRejected] at hStep
        exact hStep

variable {inputs : List OnChainProjectionInput}

theorem appended_projectSorted
    (hOk : projectSorted host inputs.length (sortInputs host inputs) = .ok p) :
    Appended host (distinctEntries host inputs) p := by
  have hStart : Appended host [] (Projection.start inputs.length) := ⟨rfl, rfl⟩
  exact hStart.foldlM hOk

theorem events_projectOnChainEvents
    {options : ProjectionOptions} {result : ProjectionResult}
    (hOk : projectOnChainEvents host inputs options = .ok result) :
    result.events = (distinctEntries host inputs).mapIdx (returnedEvent host) := by
  unfold projectOnChainEvents at hOk
  rcases (bind_eq_ok_iff _ _ _).mp hOk with ⟨p, hSorted, hResult⟩
  split at hResult
  · cases hResult
  · cases hResult
    have hAppended := appended_projectSorted hSorted
    dsimp only
    unfold finishEvents
    rw [hAppended.projected, mapIdx_mapIdx]
    rfl

----------
-- When The Projection Returns
----------

/- The vote counts of a vote can be read. -/
def VotesReadable (host : EvalHost) (input : OnChainProjectionInput) : Prop :=
  input.known? = some .disputeVoteCast →
    (voteCount host (input.event.field "votesFor")).isSome = true ∧
      (voteCount host (input.event.field "votesAgainst")).isSome = true

variable {eventName : OnChainEventName}
variable {item : SortedItem}

theorem replayDispute_returns
    (hName : item.input.known? = some eventName) (hVotes : VotesReadable host item.input)
    (context : EventContext) (disputePda : String) :
    ∃ p', replayDispute host eventName item context disputePda p = .ok p' := by
  unfold replayDispute
  dsimp only
  split
  · exact ⟨_, rfl⟩
  · split
    · exact ⟨_, rfl⟩
    · rcases hVotes hName with ⟨hFor, hAgainst⟩
      rcases Option.isSome_iff_exists.mp hFor with ⟨votesFor, hFor⟩
      rcases Option.isSome_iff_exists.mp hAgainst with ⟨votesAgainst, hAgainst⟩
      rw [hFor, hAgainst]
      exact ⟨_, rfl⟩
  · exact ⟨_, rfl⟩
  · exact ⟨_, rfl⟩
  · exact ⟨_, rfl⟩
  · exact ⟨_, rfl⟩

theorem projectLifecycles_returns
    (hName : item.input.known? = some eventName) (hVotes : VotesReadable host item.input)
    (context : EventContext) : ∃ p', projectLifecycles host eventName item context p = .ok p' := by
  unfold projectLifecycles
  split
  · exact ⟨_, rfl⟩
  · unfold projectDispute
    split
    · exact ⟨_, rfl⟩
    · exact replayDispute_returns hName hVotes _ _
  · exact ⟨_, rfl⟩
  · exact ⟨_, rfl⟩

theorem projectItem_returns {entry : Entry} (hVotes : VotesReadable host entry.2.input) :
    ∃ p', projectItem host p entry = .ok p' := by
  unfold projectItem
  dsimp only
  split
  · exact ⟨_, rfl⟩
  split
  · exact ⟨_, rfl⟩
  split
  · exact ⟨_, rfl⟩
  split
  · exact ⟨_, rfl⟩
  next eventName hName =>
  split
  · exact ⟨_, rfl⟩
  · rcases projectLifecycles_returns hName hVotes
        (getContext host eventName entry.2.input.event) with ⟨followed, hFollowed⟩
    exact ⟨_, projectKnown_of_followed hFollowed⟩

theorem mem_of_mem_entriesOf {entry : Entry}
    (hEntry : entry ∈ entriesOf host inputs) :
    ∃ index,
      inputs[index]? = some entry.2.input ∧ entry.2 = sortedItem host entry.2.input index := by
  rcases mem_mapIdx.mp hEntry with ⟨i, hi, hEq⟩
  have hItem : entry.2 ∈ sortInputs host inputs := by
    rw [← hEq]
    exact getElem_mem hi
  rcases mem_mapIdx.mp ((mem_sortBy _ _ _).mp hItem) with ⟨index, hIndex, hEntryEq⟩
  refine ⟨index, ?_, ?_⟩
  · rw [List.getElem?_eq_getElem hIndex, ← hEntryEq]
    rfl
  · rw [← hEntryEq]
    rfl

/- Without strict mode, only a vote can stop a projection. -/
theorem projectOnChainEvents_returns
    (hVotes : ∀ input ∈ inputs, VotesReadable host input) {options : ProjectionOptions}
    (hLenient : options.strictProjection = false) :
    ∃ result, projectOnChainEvents host inputs options = .ok result := by
  have hRun : ∃ p, projectSorted host inputs.length (sortInputs host inputs) = .ok p := by
    have hStep : ∀ entry ∈ entriesOf host inputs, ∀ p, True →
          ∃ p', projectItem host p entry = .ok p' ∧ True := by
      intro entry hEntry p _
      rcases mem_of_mem_entriesOf hEntry with ⟨index, hInput, _⟩
      rcases projectItem_returns (hVotes _ (mem_of_getElem? hInput)) with ⟨p', hOk⟩
      exact ⟨p', hOk, trivial⟩
    rcases foldlM_returns hStep (s := Projection.start inputs.length) trivial with ⟨p, hOk, _⟩
    exact ⟨p, hOk⟩
  rcases hRun with ⟨p, hRun⟩
  unfold projectOnChainEvents
  rw [hRun]
  simp [hLenient, bind, Except.bind]

end

end AgencCore.Eval
