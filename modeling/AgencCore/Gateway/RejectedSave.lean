import AgencCore.Gateway.RunStore

/-
  Saves that are rejected.

  A save writes the history of its record to the transcript before it looks at the fence token. If
  the token is too old the run stays as it is, but the transcript does not, and neither does what is
  read back through it.
-/

namespace AgencCore.Gateway

open Foundations List

section

variable {support : TranscriptSupport}
variable {events batch : List TranscriptEvent}

theorem appendTranscriptBatch_cons (support : TranscriptSupport)
    (events batch : List TranscriptEvent) (event : TranscriptEvent) :
    appendTranscriptBatch support events (event :: batch) =
      appendTranscriptBatch support (if isKnownEvent support events event then events
        else events ++ [storedEvent support event]) batch := rfl

/- Events are only added at the end. -/
theorem length_le_appendTranscriptBatch (support : TranscriptSupport)
    (events batch : List TranscriptEvent) :
    events.length ≤ (appendTranscriptBatch support events batch).length := by
  induction batch generalizing events with
  | nil => exact le_rfl
  | cons event rest ih =>
    rw [appendTranscriptBatch_cons]
    refine le_trans ?_ (ih _)
    split
    · exact le_rfl
    · simp

/- A stream stays as it is if every event is known. -/
theorem appendTranscriptBatch_eq_self_iff : appendTranscriptBatch support events batch = events ↔
      ∀ event ∈ batch, isKnownEvent support events event = true := by
  induction batch with
  | nil => simp [appendTranscriptBatch]
  | cons event rest ih =>
    rw [appendTranscriptBatch_cons, forall_mem_cons]
    by_cases hKnown : isKnownEvent support events event = true
    · rw [if_pos hKnown, ih]
      exact ⟨fun hRest => ⟨hKnown, hRest⟩, And.right⟩
    · rw [if_neg hKnown]
      constructor
      · intro hSame
        have hLength := length_le_appendTranscriptBatch support
          (events ++ [storedEvent support event]) rest
        rw [hSame, length_append] at hLength
        exact absurd hLength (by simp)
      · intro hAll
        exact absurd hAll.1 hKnown

/- The random identifiers in the stream have been drawn. -/
def SessionStore.IdsDrawn (store : SessionStore) : Prop :=
  ∀ event ∈ store.transcript, event.eventId < store.uuids

theorem syncEvents_fresh {host : HistoryHost} {reason : SyncReason} {uuid : Nat}
    {current desired : List LLMMessage} {event : TranscriptEvent}
    (hMem : event ∈ syncEvents host reason uuid current desired) : uuid ≤ event.eventId := by
  unfold syncEvents at hMem
  split at hMem
  · cases hMem
  · split at hMem
    · cases hMem
    · split at hMem
      · rw [mem_mapIdx] at hMem
        rcases hMem with ⟨index, _, rfl⟩
        exact Nat.le_add_right _ _
      · rw [mem_singleton.mp hMem]

/- A new event is known by its dedupe key at most. -/
theorem isKnownEvent_iff {store : SessionStore} (hIds : store.IdsDrawn) {event : TranscriptEvent}
    (hNew : store.uuids ≤ event.eventId) :
    isKnownEvent support store.transcript event = true ↔
      support = .fallback ∧
        ∃ key ∈ event.dedupeKey, ∃ other ∈ store.transcript, other.dedupeKey = some key := by
  have hId :
      store.transcript.any (fun other => decide (other.eventId = event.eventId)) = false := by
    refine any_eq_false.mpr ?_
    intro other hMem hSame
    have hLess := hIds other hMem
    rw [of_decide_eq_true hSame] at hLess
    omega
  unfold isKnownEvent
  rw [hId, Bool.false_or, Bool.and_eq_true, decide_eq_true_eq, Option.any_eq_true]
  simp only [any_eq_true, decide_eq_true_eq, Option.mem_def]

----------
-- Rejected Saves
----------

/- If the save is rejected, nothing else is read back. -/
def RejectedSaveUnseen (host : HistoryHost) (support : TranscriptSupport) (store : SessionStore)
    (run : BackgroundRun) : Prop :=
  (store.saveRun host support run).1 ≠ none → let after := (store.saveRun host support run).2
    after.loadRun.1 = store.loadRun.1 ∧ after.loadCheckpoint = store.loadCheckpoint ∧
      after.transcript = store.transcript

/-
  The history is empty while there is a conversation, or its text is that of the conversation, or
  the stream is one document and has events with all the dedupe keys.
-/
def NothingToSync (host : HistoryHost) (support : TranscriptSupport) (store : SessionStore)
    (history : List LLMMessage) : Prop :=
  (store.loadConversationHistory ≠ [] ∧ history = []) ∨
    host.sameText store.loadConversationHistory history = true ∨
    support = .fallback ∧
      ∀ event ∈ syncEvents host .saveRun store.uuids store.loadConversationHistory history,
        ∃ key ∈ event.dedupeKey, ∃ other ∈ store.transcript, other.dedupeKey = some key

variable {host : HistoryHost}
variable {store : SessionStore}

/- There is an event, unless the histories are the same. -/
theorem syncEvents_eq_nil_iff (host : HistoryHost) (reason : SyncReason) (uuid : Nat)
    (current desired : List LLMMessage) :
    syncEvents host reason uuid current desired = [] ↔
      (current ≠ [] ∧ desired = []) ∨ host.sameText current desired = true := by
  unfold syncEvents
  split
  · rename_i hEmpty
    exact ⟨fun _ => Or.inl hEmpty, fun _ => rfl⟩
  · rename_i hEmpty
    split
    · rename_i hSame
      exact ⟨fun _ => Or.inr hSame, fun _ => rfl⟩
    · rename_i hDiffer
      split
      · rename_i hPrefix
        constructor
        · intro hNone
          have hTail : desired.drop current.length = [] := by simpa using hNone
          have hLength : desired.length ≤ current.length := drop_eq_nil_iff.mp hTail
          have hText := hPrefix.2.2
          rw [take_of_length_le hLength, host.sameText_comm] at hText
          exact absurd hText hDiffer
        · rintro (hNil | hText)
          · exact absurd hNil hEmpty
          · exact absurd hText hDiffer
      · simp only [cons_ne_nil, false_iff, not_or]
        exact ⟨hEmpty, hDiffer⟩

/- The sync leaves the stream alone if there is nothing. -/
theorem sync_transcript_eq_iff (hIds : store.IdsDrawn) (history : List LLMMessage) :
    (store.syncConversationHistory host support .saveRun history).transcript = store.transcript ↔
      NothingToSync host support store history := by
  have hKnown (event : TranscriptEvent)
      (hMem : event ∈ syncEvents host .saveRun store.uuids store.loadConversationHistory history) :
      isKnownEvent support store.transcript event = true ↔
        support = .fallback ∧
          ∃ key ∈ event.dedupeKey, ∃ other ∈ store.transcript, other.dedupeKey = some key :=
    isKnownEvent_iff hIds (syncEvents_fresh hMem)
  unfold SessionStore.syncConversationHistory NothingToSync
  dsimp only
  rw [appendTranscriptBatch_eq_self_iff, ← or_assoc,
    ← syncEvents_eq_nil_iff host .saveRun store.uuids]
  constructor
  · intro hAll
    cases hEvents : syncEvents host .saveRun store.uuids store.loadConversationHistory history with
    | nil => exact Or.inl rfl
    | cons event rest =>
      rw [← hEvents]
      have hMem : event ∈ syncEvents host .saveRun store.uuids store.loadConversationHistory
          history := by
        rw [hEvents]
        exact mem_cons_self
      refine Or.inr ⟨?_, ?_⟩
      · exact ((hKnown event hMem).mp (hAll event hMem)).1
      · intro other hOther
        exact ((hKnown other hOther).mp (hAll other hOther)).2
  · rintro (hNone | ⟨hSupport, hKeys⟩)
    · rw [hNone]
      exact (fun _ hMem => nomatch hMem)
    · intro event hMem
      exact (hKnown event hMem).mpr ⟨hSupport, hKeys event hMem⟩

/- Only the sync is left of a save that is rejected. -/
theorem saveRun_rejected {run : BackgroundRun}
    (hRejected : (store.saveRun host support run).1 ≠ none) :
    (store.saveRun host support run).2 =
      store.syncConversationHistory host support .saveRun run.internalHistory := by
  unfold SessionStore.saveRun SessionStore.beginSave SessionStore.loadRun at hRejected ⊢
  cases hRun : store.run with
  | absent | damaged =>
    simp [SessionStore.syncConversationHistory, hRun, saveRejection] at hRejected
  | valid current =>
    have hSynced : (store.syncConversationHistory host support .saveRun
          (coerceRun run).internalHistory).run = .valid current := hRun
    simp only [hSynced] at hRejected ⊢
    split at hRejected
    · rename_i hSave
      simp only [Prod.mk.injEq] at hSave
      exact hSave.2.symm
    · exact absurd rfl hRejected

/- A rejected save goes unseen exactly if its history gives the transcript nothing to take up. -/
theorem rejected_save_unseen_iff (host : HistoryHost) (support : TranscriptSupport)
    (store : SessionStore) (run : BackgroundRun) (hIds : store.IdsDrawn) :
    RejectedSaveUnseen host support store run ↔
      ((store.saveRun host support run).1 ≠ none →
        NothingToSync host support store run.internalHistory) := by
  refine forall_congr' ?_
  intro hRejected
  dsimp only
  rw [saveRun_rejected hRejected, ← sync_transcript_eq_iff hIds]
  constructor
  · exact fun hSeen => hSeen.2.2
  · intro hSame
    have hHistory : (store.syncConversationHistory host support .saveRun
          run.internalHistory).loadConversationHistory = store.loadConversationHistory := by
      unfold SessionStore.loadConversationHistory
      rw [hSame]
    refine ⟨?_, ?_, hSame⟩
    · unfold SessionStore.loadRun SessionStore.overlay
      rw [hHistory]
      cases hRun : store.run <;>
      · simp only [SessionStore.syncConversationHistory, hRun]
    · unfold SessionStore.loadCheckpoint SessionStore.overlay
      rw [hHistory]
      rfl

/- A run whose second lease belongs to `b`. -/
def SessionStore.leased : SessionStore :=
  { SessionStore.empty with
    run := .valid
      { updatedAt := 0, pendingSignals := [], internalHistory := [], fenceToken := 2
        leaseOwnerId := some "b", leaseExpiresAt := some 60000 } }

/- The record of a worker that has lost its lease. -/
def BackgroundRun.stale (history : List LLMMessage) : BackgroundRun :=
  { updatedAt := 1, pendingSignals := [], internalHistory := history, fenceToken := 1
    leaseOwnerId := some "a", leaseExpiresAt := some 60000 }

def LLMMessage.said (role : MessageRole) (text : String) : LLMMessage :=
  { role := role, content := .text text }

def sampleConversation : List LLMMessage := [.said .user "hi", .said .assistant "ok"]

/- The leased run, with the conversation in its transcript. -/
def SessionStore.conversed : SessionStore :=
  SessionStore.leased.syncConversationHistory .plain .native .saveRun sampleConversation

/- A stale save of the conversation that the transcript holds is rejected, and nothing is seen. -/
theorem stale_save_of_conversation_unseen :
    SessionStore.conversed.loadConversationHistory = sampleConversation ∧
      (SessionStore.conversed.saveRun .plain .native (.stale sampleConversation)).1 ≠ none ∧
      RejectedSaveUnseen .plain .native SessionStore.conversed (.stale sampleConversation) := by
  have hIds : SessionStore.conversed.IdsDrawn := by
    unfold SessionStore.IdsDrawn
    decide +kernel
  refine ⟨by decide +kernel, by decide +kernel, ?_⟩
  refine (rejected_save_unseen_iff .plain .native _ _ hIds).mpr ?_
  intro _
  exact Or.inr (Or.inl (by decide +kernel))

/- A stale save writes its history to the transcript. -/
theorem stale_save_seen :
    ¬ RejectedSaveUnseen .plain .native SessionStore.leased (.stale sampleConversation) := by
  unfold RejectedSaveUnseen
  decide +kernel

end

end AgencCore.Gateway
