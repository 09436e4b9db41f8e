import AgencCore.Foundations.Runs
import AgencCore.Gateway.RejectedSave

/-
  Conversations that are saved and loaded again.

  A save appends to the transcript what is new of its history, or a snapshot of all of it. Reading
  the stream gives the history back, and the repair leaves a complete history alone. But a stream in
  one document leaves out an event whose dedupe key it has, and a backend with a stream of its own
  stores messages without some of their fields.
-/

namespace AgencCore.Gateway

open Foundations List

/-
  A history that is complete: every tool turn is in order, no answer is blank, and the last word is
  the assistant's.
-/
structure SaveableHistory (history : List LLMMessage) : Prop where
  toolComplete : findToolTurnValidationIssue history = none
  noBlank : ∀ message ∈ history,
    message.role = .assistant → message.calls = [] → isWhitespaceOnlyMessage message = false
  answered : ∃ message ∈ history.getLast?, message.role = .assistant

instance (history : List LLMMessage) : Decidable (SaveableHistory history) :=
  decidable_of_iff
    (findToolTurnValidationIssue history = none ∧
      (∀ message ∈ history,
        message.role = .assistant → message.calls = [] → isWhitespaceOnlyMessage message = false) ∧
      ∃ message ∈ history.getLast?, message.role = .assistant)
    ⟨fun h => ⟨h.1, h.2.1, h.2.2⟩, fun h => ⟨h.toolComplete, h.noBlank, h.answered⟩⟩

def SavedIsLoaded (host : HistoryHost) (support : TranscriptSupport) (store : SessionStore)
    (run : BackgroundRun) : Prop :=
  ∃ loaded ∈ (store.saveRun host support run).2.loadRun.1,
    loaded.internalHistory = run.internalHistory

instance (host : HistoryHost) (support : TranscriptSupport) (store : SessionStore)
    (run : BackgroundRun) : Decidable (SavedIsLoaded host support store run) := by
  unfold SavedIsLoaded
  infer_instance

/-
  The save has a finite time, and what it appends has new dedupe keys where keys count, and only
  fields that are stored where the backend has a form of its own.
-/
def KeepsHistory (host : HistoryHost) (support : TranscriptSupport) (store : SessionStore)
    (run : BackgroundRun) : Prop :=
  run.updatedAt.isFinite = true ∧
    ∀ event ∈ syncEvents host .saveRun store.uuids
        store.loadConversationHistory run.internalHistory,
      (support = .fallback → ∀ other ∈ store.transcript, other.dedupeKey ≠ event.dedupeKey) ∧
      storedEvent support event = event

instance (host : HistoryHost) (support : TranscriptSupport) (store : SessionStore)
    (run : BackgroundRun) : Decidable (KeepsHistory host support store run) := by
  unfold KeepsHistory
  infer_instance

----------
-- Complete Histories
----------

/- The keys of all calls of a history, with repetitions. -/
def callKeys (history : List LLMMessage) : List String :=
  history.flatMap (fun message => message.calls.filterMap ToolCall.key)

theorem issueCalls_eq_ok {ids issued ids' issued' : List String} {calls : List ToolCall}
    (hOk : issueCalls ids issued calls = .ok (ids', issued')) :
    ids' = ids ++ calls.filterMap ToolCall.key := by
  induction calls generalizing ids issued with
  | nil =>
    cases hOk
    simp
  | cons toolCall rest ih =>
    unfold issueCalls at hOk
    cases hKey : toolCall.key with
    | none => simp [hKey] at hOk
    | some id =>
      rw [hKey] at hOk
      dsimp only at hOk
      split at hOk
      · cases hOk
      · rw [ih hOk, filterMap_cons_some hKey, append_assoc]
        rfl

theorem LLMMessage.role_of_calls {message : LLMMessage} (hCalls : message.calls ≠ []) :
    message.role = .assistant := by
  by_contra hOther
  exact hCalls (if_neg hOther)

theorem LLMMessage.answers_of_role {message : LLMMessage} (hRole : message.role ≠ .tool) :
    message.answers = none := if_neg hRole

/- In order, the calls are answered once each. -/
theorem answers_perm_of_findIssueFrom {history : List LLMMessage}
    {pending issued resolved : List String}
    (hNone : findIssueFrom pending issued resolved history = none) :
    (history.filterMap LLMMessage.answers).Perm (pending ++ callKeys history) := by
  induction history generalizing pending issued resolved with
  | nil =>
    unfold findIssueFrom at hNone
    split at hNone
    · rename_i hEmpty
      rw [hEmpty]
      exact .refl _
    · cases hNone
  | cons message rest ih =>
    have hKeys :
        callKeys (message :: rest) = message.calls.filterMap ToolCall.key ++ callKeys rest := rfl
    unfold findIssueFrom at hNone
    split at hNone
    · -- an assistant message that calls tools
      rename_i hCalls
      have hRole := message.role_of_calls hCalls
      have hAnswers : message.answers = none := LLMMessage.answers_of_role (by rw [hRole]; decide)
      split at hNone
      · cases hNone
      · rename_i hEmpty
        split at hNone
        · cases hNone
        · rename_i ids issued' hOk
          rw [filterMap_cons_none hAnswers, hKeys, not_not.mp hEmpty, nil_append]
          have hIds := issueCalls_eq_ok hOk
          rw [nil_append] at hIds
          rw [← hIds]
          exact ih hNone
    · rename_i hCalls
      rw [not_not] at hCalls
      rw [hKeys, hCalls, filterMap_nil, nil_append]
      split at hNone
      · -- a result, of one of the calls that are pending
        split at hNone
        · cases hNone
        · rename_i id hAnswers
          split at hNone
          · cases hNone
          · split at hNone
            · cases hNone
            · split at hNone
              · cases hNone
              · rename_i hPending
                rw [not_not] at hPending
                rw [filterMap_cons_some hAnswers]
                refine ((ih hNone).cons id).trans ?_
                exact (perm_cons_erase hPending).symm.append_right _
      · rename_i hRole
        rw [filterMap_cons_none (LLMMessage.answers_of_role hRole)]
        split at hNone
        · cases hNone
        · exact ih hNone

theorem length_eraseDups_of_perm {ids ids' : List String} (hPerm : ids.Perm ids') :
    ids.eraseDups.length = ids'.eraseDups.length := by
  refine List.Perm.length_eq ?_
  rw [perm_ext_iff_of_nodup (nodup_eraseDups ids) (nodup_eraseDups ids')]
  intro id
  rw [mem_eraseDups, mem_eraseDups, hPerm.mem_iff]

namespace SaveableHistory

variable {history : List LLMMessage}
variable (hSaveable : SaveableHistory history)
include hSaveable

theorem dropWhitespace_eq : dropWhitespaceOnlyAssistantMessages history = history := by
  unfold dropWhitespaceOnlyAssistantMessages
  rw [filterMap_of_forall_some (g := Prod.snd)]
  · exact map_mapIdx_eq_self _ _ (fun _ _ => rfl) history
  · rintro ⟨index, message⟩ hMem
    dsimp only
    refine if_neg ?_
    rintro ⟨hRole, hCalls, _, hBlank⟩
    have hIn : message ∈ history := by
      rcases List.mem_mapIdx.mp hMem with ⟨place, _, hEq⟩
      cases hEq
      exact getElem_mem _
    rw [hSaveable.noBlank message hIn hRole hCalls] at hBlank
    cases hBlank

theorem dropUnresolved_eq : dropUnresolvedToolTurns history = history := by
  have hPerm := answers_perm_of_findIssueFrom hSaveable.toolComplete
  rw [nil_append] at hPerm
  unfold dropUnresolvedToolTurns
  dsimp only
  refine if_pos ⟨?_, ?_⟩
  · exact (length_eraseDups_of_perm hPerm).symm
  · rw [List.all_eq_true]
    intro id hMem
    rw [contains_iff_mem]
    unfold resolvedIds
    rw [mem_eraseDups, hPerm.mem_iff]
    exact List.mem_eraseDups.mp hMem

theorem isInterrupted_eq : isInterrupted history = false := by
  rcases hSaveable.answered with ⟨message, hLast, hRole⟩
  rcases List.getLast?_eq_some_iff.mp hLast with ⟨earlier, hHistory⟩
  unfold isInterrupted
  rw [hHistory, reverse_append, reverse_singleton,
    singleton_append, find?_cons_of_pos (by rw [hRole]; decide)]
  dsimp only
  rw [hRole]
  rfl

theorem ne_nil : history ≠ [] := by
  rintro rfl
  rcases hSaveable.answered with ⟨message, hLast, _⟩
  cases hLast

end SaveableHistory

/- A complete history is not changed by the recovery. -/
theorem recoverTranscriptHistory_of_saveable {events : List TranscriptEvent}
    (hSaveable : SaveableHistory (historyFromTranscript events)) :
    recoverTranscriptHistory events = historyFromTranscript events := by
  unfold recoverTranscriptHistory
  dsimp only
  rw [hSaveable.dropWhitespace_eq, hSaveable.dropUnresolved_eq, hSaveable.isInterrupted_eq]
  unfold repairToolTurnSequence
  exact if_pos hSaveable.toolComplete

----------
-- Appended Histories
----------

section

variable {host : HistoryHost}
variable {support : TranscriptSupport}

theorem historyFromTranscript_append (events batch : List TranscriptEvent) :
    historyFromTranscript (events ++ batch) =
      batch.foldl (fun history event =>
        match event.payload with
        | .message message => history ++ [message]
        | .snapshot snapshot => snapshot) (historyFromTranscript events) := foldl_append

theorem foldl_messages (uuid length : Nat) (messages history : List LLMMessage) :
    (messages.mapIdx (fun index message =>
        ({ eventId := uuid + index, dedupeKey := some (.message (length + index) message.role)
           payload := .message message } : TranscriptEvent))).foldl
        (fun history event =>
          match event.payload with
          | .message message => history ++ [message]
          | .snapshot snapshot => snapshot) history = history ++ messages := by
  induction messages generalizing uuid length history with
  | nil => simp
  | cons message rest ih =>
    rw [mapIdx_cons, foldl_cons]
    have hShift (index : Nat) (message : LLMMessage) :
        ({ eventId := uuid + (index + 1)
           dedupeKey := some (.message (length + (index + 1)) message.role)
           payload := .message message } : TranscriptEvent) =
          { eventId := (uuid + 1) + index
            dedupeKey := some (.message ((length + 1) + index) message.role)
            payload := .message message } := by
      rw [Nat.add_right_comm, Nat.add_assoc uuid, Nat.add_right_comm, Nat.add_assoc length]
    simp only [hShift]
    rw [ih, append_assoc]
    rfl

/- Reading the stream with the events of a sync. -/
theorem foldl_syncEvents (reason : SyncReason) (uuid : Nat) {current desired : List LLMMessage}
    (hDesired : desired ≠ []) :
    (syncEvents host reason uuid current desired).foldl
        (fun history event =>
          match event.payload with
          | .message message => history ++ [message]
          | .snapshot snapshot => snapshot) current = desired := by
  unfold syncEvents
  rw [if_neg (fun hEmpty => hDesired hEmpty.2)]
  split
  · rename_i hSame
    exact host.sameText_eq _ _ hSame
  · split
    · rename_i hGrown
      rw [foldl_messages]
      have hTake := host.sameText_eq _ _ hGrown.2.2
      calc current ++ desired.drop current.length
          = desired.take current.length ++ desired.drop current.length := by rw [hTake]
        _ = desired := take_append_drop _ _
    · rfl

theorem syncEvents_pairwise (reason : SyncReason) (uuid : Nat) (current desired : List LLMMessage) :
    (syncEvents host reason uuid current desired).Pairwise
      (fun first second =>
        first.eventId ≠ second.eventId ∧ first.dedupeKey ≠ second.dedupeKey) := by
  unfold syncEvents
  split
  · exact List.Pairwise.nil
  · split
    · exact List.Pairwise.nil
    · split
      · rw [pairwise_iff_getElem]
        intro first second hFirst hSecond hLess
        simp only [getElem_mapIdx]
        constructor
        · omega
        · intro hSame
          injection hSame with hKey
          injection hKey with hIndex
          omega
      · exact pairwise_singleton _ _

theorem syncEvents_drawn {reason : SyncReason} {uuid : Nat} {current desired : List LLMMessage}
    {event : TranscriptEvent} (hMem : event ∈ syncEvents host reason uuid current desired) :
    event.eventId < uuid + (syncEvents host reason uuid current desired).length := by
  unfold syncEvents at hMem ⊢
  split at hMem
  · cases hMem
  · rename_i hEmpty
    rw [if_neg hEmpty]
    split at hMem
    · cases hMem
    · rename_i hDiffer
      rw [if_neg hDiffer]
      split at hMem
      · rename_i hGrown
        rw [if_pos hGrown]
        rw [mem_mapIdx] at hMem
        rcases hMem with ⟨index, hIndex, rfl⟩
        rw [length_mapIdx]
        exact Nat.add_lt_add_left hIndex uuid
      · rename_i hOther
        rw [if_neg hOther, List.mem_singleton.mp hMem]
        exact Nat.lt_succ_self uuid

theorem appendTranscriptBatch_of_new {events batch : List TranscriptEvent}
    (hNew : ∀ event ∈ batch, isKnownEvent support events event = false)
    (hApart : batch.Pairwise (fun first second =>
      first.eventId ≠ second.eventId ∧ first.dedupeKey ≠ second.dedupeKey))
    (hStored : ∀ event ∈ batch, storedEvent support event = event) :
    appendTranscriptBatch support events batch = events ++ batch := by
  induction batch generalizing events with
  | nil => simp [appendTranscriptBatch]
  | cons event rest ih =>
    rw [pairwise_cons] at hApart
    rw [appendTranscriptBatch_cons, if_neg (by rw [hNew event (.head _)]; decide),
      hStored event (.head _)]
    have hRest : ∀ other ∈ rest, isKnownEvent support (events ++ [event]) other = false := by
      intro other hMem
      have hOld := hNew other (.tail _ hMem)
      rcases hApart.1 other hMem with ⟨hId, hKey⟩
      unfold isKnownEvent at hOld ⊢
      rw [Bool.or_eq_false_iff] at hOld ⊢
      constructor
      · rw [any_append, hOld.1, Bool.false_or]
        simpa using hId
      · cases support with
        | native => rfl
        | fallback => cases hOther : other.dedupeKey with
            | none => rfl
            | some key =>
              have hKnown := hOld.2
              rw [hOther] at hKnown hKey
              simp only [Option.any_some, decide_true, Bool.true_and] at hKnown ⊢
              rw [any_append, hKnown, Bool.false_or]
              simpa using hKey
    rw [ih hRest hApart.2 (fun other hMem => hStored other (.tail _ hMem)), append_assoc]
    rfl

----------
-- Sequences Of Saves
----------

/- What is stored is the history of the last save. -/
structure SessionStore.Holds (store : SessionStore) (history : List LLMMessage) : Prop where
  ids : store.IdsDrawn
  raw : historyFromTranscript store.transcript = history
  loaded : store.loadConversationHistory = history

variable {store : SessionStore}

theorem SessionStore.Holds.sync {history desired : List LLMMessage} (hHolds : store.Holds history)
    (hDesired : SaveableHistory desired)
    (hKeeps : ∀ event ∈ syncEvents host .saveRun store.uuids store.loadConversationHistory desired,
      (support = .fallback → ∀ other ∈ store.transcript, other.dedupeKey ≠ event.dedupeKey) ∧
      storedEvent support event = event) :
    (store.syncConversationHistory host support .saveRun desired).Holds desired := by
  let events := syncEvents host .saveRun store.uuids store.loadConversationHistory desired
  have hNew : ∀ event ∈ events, isKnownEvent support store.transcript event = false := by
    intro event hMem
    rw [← Bool.not_eq_true]
    intro hKnown
    rcases (isKnownEvent_iff hHolds.ids (syncEvents_fresh hMem)).mp hKnown with
      ⟨hFallback, key, hKey, other, hOther, hSame⟩
    exact (hKeeps event hMem).1 hFallback other hOther (hSame.trans (Option.mem_def.mp hKey).symm)
  have hAppended : (store.syncConversationHistory host support .saveRun
        desired).transcript = store.transcript ++ events :=
    appendTranscriptBatch_of_new hNew (syncEvents_pairwise _ _ _ _)
      (fun event hMem => (hKeeps event hMem).2)
  have hRaw : historyFromTranscript
        (store.syncConversationHistory host support .saveRun desired).transcript = desired := by
    have hCurrent : historyFromTranscript store.transcript = store.loadConversationHistory :=
      hHolds.raw.trans hHolds.loaded.symm
    rw [hAppended, historyFromTranscript_append, hCurrent]
    exact foldl_syncEvents _ _ hDesired.ne_nil
  refine ⟨?_, hRaw, ?_⟩
  · intro event hMem
    rw [hAppended] at hMem
    rcases List.mem_append.mp hMem with hOld | hAdded
    · exact Nat.lt_of_lt_of_le (hHolds.ids event hOld) (Nat.le_add_right _ _)
    · exact syncEvents_drawn hAdded
  · unfold SessionStore.loadConversationHistory
    rw [recoverTranscriptHistory_of_saveable (by rw [hRaw]; exact hDesired), hRaw]

variable {history : List LLMMessage}

theorem SessionStore.Holds.loadRun (hHolds : store.Holds history) :
    store.loadRun.2.Holds history := by
  unfold SessionStore.loadRun
  cases store.run with
  | absent | valid => exact hHolds
  | damaged => exact ⟨hHolds.ids, hHolds.raw, hHolds.loaded⟩

theorem SessionStore.Holds.loaded_history (hHolds : store.Holds history)
    (hHistory : history ≠ []) {run : BackgroundRun} (hRun : store.run = .valid run) :
    ∃ loaded ∈ store.loadRun.1, loaded.internalHistory = history := by
  refine ⟨store.overlay run, ?_, ?_⟩
  · unfold SessionStore.loadRun
    rw [hRun]
    exact Option.mem_some_self _
  · unfold SessionStore.overlay
    rw [hHolds.loaded, if_neg hHistory]

/- Only a run that is there leads to a rejection. -/
theorem SessionStore.valid_of_saveRejection {validated : BackgroundRun} {rejection : SaveRejection}
    (hRejected : saveRejection store.loadRun.1 validated = some rejection) :
    ∃ run, store.run = .valid run := by
  unfold SessionStore.loadRun at hRejected
  cases hRun : store.run with
  | absent | damaged => simp [hRun, saveRejection] at hRejected
  | valid run => exact ⟨run, rfl⟩

/- A save is loaded, whether or not it is rejected. -/
theorem SessionStore.Holds.save (hHolds : store.Holds history)
    {run : BackgroundRun} (hSaveable : SaveableHistory run.internalHistory)
    (hKeeps : KeepsHistory host support store run) :
    SavedIsLoaded host support store run ∧
      (store.saveRun host support run).2.Holds run.internalHistory := by
  let synced := store.syncConversationHistory host support .saveRun run.internalHistory
  have hSynced : synced.Holds run.internalHistory := hHolds.sync hSaveable hKeeps.2
  have hBegun : store.beginSave host support (coerceRun run) =
        (saveRejection synced.loadRun.1 (coerceRun run), synced.loadRun.2) := rfl
  cases hRejection : saveRejection synced.loadRun.1 (coerceRun run) with
  | some rejection =>
    have hAfter : store.saveRun host support run = (some rejection, synced.loadRun.2) := by
      unfold SessionStore.saveRun
      dsimp only
      rw [hBegun, hRejection]
    rcases SessionStore.valid_of_saveRejection hRejection with ⟨stored, hStored⟩
    have hSame : synced.loadRun.2 = synced := by
      unfold SessionStore.loadRun
      rw [hStored]
    unfold SavedIsLoaded
    rw [hAfter, hSame]
    exact ⟨hSynced.loaded_history hSaveable.ne_nil hStored, hSynced⟩
  | none =>
    have hAfter :
        store.saveRun host support run = (none, synced.loadRun.2.writeRun (coerceRun run)) := by
      unfold SessionStore.saveRun
      dsimp only
      rw [hBegun, hRejection]
    have hWritten : (synced.loadRun.2.writeRun (coerceRun run)).Holds run.internalHistory :=
      ⟨hSynced.loadRun.ids, hSynced.loadRun.raw, hSynced.loadRun.loaded⟩
    unfold SavedIsLoaded
    rw [hAfter]
    exact ⟨hWritten.loaded_history hSaveable.ne_nil (if_pos hKeeps.1), hWritten⟩

def SessionStore.saved (host : HistoryHost) (support : TranscriptSupport) (store : SessionStore)
    (run : BackgroundRun) : SessionStore := (store.saveRun host support run).2

/-
  From an empty store, a sequence of saves of complete histories is loaded save by save, as long as
  no event of a save is left out or stored with fewer fields.
-/
theorem saved_history_loaded (host : HistoryHost) (support : TranscriptSupport)
    (runs : List BackgroundRun)
    (hKeeps : AlongRun (SessionStore.saved host support)
        (fun store run => SaveableHistory run.internalHistory ∧ KeepsHistory host support store run)
        .empty runs) :
    AlongRun (SessionStore.saved host support) (SavedIsLoaded host support) .empty runs := by
  have hStart : SessionStore.empty.Holds [] := ⟨(fun _ hMem => nomatch hMem), rfl, rfl⟩
  have hStep (store : SessionStore) (run : BackgroundRun) (hHeld : ∃ history, store.Holds history)
      (hRun : SaveableHistory run.internalHistory ∧ KeepsHistory host support store run) :
      SavedIsLoaded host support store run ∧
        ∃ history, (store.saved host support run).Holds history := by
    rcases hHeld with ⟨history, hHolds⟩
    rcases hHolds.save hRun.1 hRun.2 with ⟨hLoaded, hNext⟩
    exact ⟨hLoaded, run.internalHistory, hNext⟩
  exact AlongRun.of_invariant hStep ⟨[], hStart⟩ hKeeps

def savesOf (histories : List (List LLMMessage)) : List BackgroundRun :=
  histories.map (fun history => { BackgroundRun.unleased with internalHistory := history })

/- A conversation that grows, with the use of a tool. -/
theorem growing_history_loaded :
    AlongRun (SessionStore.saved .plain .fallback) (SavedIsLoaded .plain .fallback) .empty
      (savesOf
        [ [.said .user "hi", .said .assistant "yes?"],
          [ .said .user "hi", .said .assistant "yes?", .said .user "look",
            { role := .assistant, content := .text "", toolCalls := some [⟨"c", "ls", ""⟩] },
            { role := .tool, content := .text "a.txt", toolCallId := some "c" },
            .said .assistant "done" ] ]) := by
  refine saved_history_loaded .plain .fallback _ ?_
  decide +kernel

/- A conversation that goes back to where it began. -/
def returningHistories : List (List LLMMessage) :=
  [ [.said .user "hi", .said .assistant "yes?"],
    [ .said .user "hi", .said .assistant "yes?", .said .user "go", .said .assistant "done" ],
    [.said .user "hi", .said .assistant "yes?"] ]

/- A conversation with a message for the runtime only. -/
def markedHistories : List (List LLMMessage) :=
  [ [.said .assistant "hi"],
    [ .said .assistant "hi", { LLMMessage.said .user "go" with runtimeOnly := some ⟨true, none⟩ },
      .said .assistant "done" ] ]

/-
  Going back to an earlier history, its snapshot is left out as known. A backend with a stream of
  its own forgets what it has no field for.
-/
theorem history_not_loaded :
    (∀ history ∈ returningHistories ++ markedHistories, SaveableHistory history) ∧
      ¬ AlongRun (SessionStore.saved .plain .fallback) (SavedIsLoaded .plain .fallback) .empty
        (savesOf returningHistories) ∧
      ¬ AlongRun (SessionStore.saved .plain .native) (SavedIsLoaded .plain .native) .empty
        (savesOf markedHistories) := by decide +kernel

end

end AgencCore.Gateway
