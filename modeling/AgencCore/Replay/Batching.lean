import AgencCore.Replay.Identity
import AgencCore.Replay.Ingestion

/-
  Realtime ingestion and backfill compared.

  A record carries its position in the batch that was projected. Events ingested one by one all have
  the first position, so a backfill stores the same records exactly when no page holds two events.
-/

namespace AgencCore.Replay

open Foundations List
open Eval

section

/- An event the projector accepts, with its trace context. -/
structure WellFormed (host : EvalHost) (input : OnChainProjectionInput) : Prop where
  known : input.known?.isSome = true
  slot : 0 ≤ input.slot
  signature : input.signature ≠ ""
  votes : VotesReadable host input
  traced : input.traceContext.isSome = true

variable {host : EvalHost}
variable {inputs : List OnChainProjectionInput}

theorem WellFormed.accepted {input : OnChainProjectionInput} (hFormed : WellFormed host input) :
    input.accepted = true := by
  have hName : input.eventName ≠ "" := by
    intro hEmpty
    have hKnown := hFormed.known
    unfold OnChainProjectionInput.known? at hKnown
    rw [hEmpty] at hKnown
    cases hKnown
  simp [OnChainProjectionInput.accepted, hName, hFormed.slot, hFormed.signature, hFormed.known]

variable (hFormed : ∀ input ∈ inputs, WellFormed host input)
variable (hDistinct : (inputs.map identity).Nodup)
include hFormed hDistinct

theorem nodup_inputKeys : (inputs.map inputKey).Nodup := by
  rw [List.Nodup, pairwise_map] at hDistinct ⊢
  apply hDistinct.imp_of_mem
  intro a b ha hb hNe hEq
  exact hNe (identity_of_inputKey_eq (hFormed a ha).known (hFormed b hb).known hEq)

/- Distinct well-formed events all give an entry. -/
theorem distinctEntries_eq_entriesOf : distinctEntries host inputs = entriesOf host inputs := by
  have hAccepted : (entriesOf host inputs).filter entryAccepted = entriesOf host inputs := by
    rw [filter_eq_self]
    intro entry hEntry
    rcases mem_of_mem_entriesOf hEntry with ⟨index, hInput, _⟩
    exact (hFormed _ (mem_of_getElem? hInput)).accepted
  have hPrints : ((entriesOf host inputs).map entryPrint).Nodup := by
    have hPerm := ((inputs_entriesOf_perm host inputs).map identity).nodup_iff.mpr hDistinct
    rw [List.map_map, List.Nodup, pairwise_map] at hPerm
    rw [List.Nodup, pairwise_map]
    apply hPerm.imp_of_mem
    intro a b ha hb hNe hEq
    rcases mem_of_mem_entriesOf ha with ⟨_, _, hA⟩
    rcases mem_of_mem_entriesOf hb with ⟨_, _, hB⟩
    unfold entryPrint at hEq
    rw [hA, hB] at hEq
    exact hNe (identity_of_fingerprint_eq hEq)
  unfold distinctEntries
  rw [hAccepted, insertAll_eq_append entryPrint (by simp) hPrints, nil_append]

theorem keys_pageRecords_perm :
    ((pageRecords host inputs).map ReplayTimelineRecord.key).Perm (inputs.map inputKey) := by
  rw [keys_pageRecords, distinctEntries_eq_entriesOf hFormed hDistinct]
  have hMap : (entriesOf host inputs).map (fun entry => inputKey entry.2.input) =
        ((entriesOf host inputs).map (·.2.input)).map inputKey := by
    rw [List.map_map]
    rfl
  rw [hMap]
  exact (inputs_entriesOf_perm host inputs).map inputKey

theorem length_pageRecords : (pageRecords host inputs).length = inputs.length := by
  have hLength := (keys_pageRecords_perm hFormed hDistinct).length_eq
  simpa using hLength

omit hDistinct

omit hFormed in
/- The record at a position has that position as its `seq`. -/
theorem seq_pageRecords {index : Nat} {record : ReplayTimelineRecord}
    (hGet : (pageRecords host inputs)[index]? = some record) : record.seq = index + 1 := by
  simp only [pageRecords, getElem?_map, getElem?_mapIdx, Option.map_map,
    Option.map_eq_some_iff] at hGet
  rcases hGet with ⟨entry, _, rfl⟩
  rfl

structure Fresh (host : EvalHost) (store : InMemoryReplayTimelineStore)
    (inputs : List OnChainProjectionInput) : Prop where
  formed : ∀ input ∈ inputs, WellFormed host input
  distinct : (inputs.map identity).Nodup
  new : ∀ input ∈ inputs, inputKey input ∉ store.ids

omit hFormed in
/- A saved batch is appended, and later events are still new. -/
theorem Fresh.saved {store : InMemoryReplayTimelineStore} {later : List OnChainProjectionInput}
    (hFresh : Fresh host store (inputs ++ later)) :
    (store.save (pageRecords host inputs)).1.events = store.events ++ pageRecords host inputs ∧
      Fresh host (store.save (pageRecords host inputs)).1 later := by
  rcases hFresh with ⟨hFormed, hDistinct, hNew⟩
  rw [forall_mem_append] at hFormed hNew
  rw [map_append, nodup_append] at hDistinct
  have hPerm := keys_pageRecords_perm hFormed.1 hDistinct.1
  refine ⟨?_, hFormed.2, hDistinct.2.1, ?_⟩
  · rw [InMemoryReplayTimelineStore.events_save]
    apply insertAll_eq_append
    · intro record hRecord hIn
      have hKey := hPerm.mem_iff.mp (List.mem_map_of_mem hRecord)
      rcases List.mem_map.mp hKey with ⟨input, hInput, hEq⟩
      rw [← store.ids_eq, ← hEq] at hIn
      exact hNew.1 input hInput hIn
    · exact hPerm.nodup_iff.mpr (nodup_inputKeys hFormed.1 hDistinct.1)
  · intro input hInput hIn
    rw [InMemoryReplayTimelineStore.ids_eq, InMemoryReplayTimelineStore.events_save,
      mem_keys_insertAll, ← store.ids_eq, hPerm.mem_iff] at hIn
    rcases hIn with hOld | hKey
    · exact hNew.2 input hInput hOld
    · rcases List.mem_map.mp hKey with ⟨other, hOther, hEq⟩
      have hSame := identity_of_inputKey_eq (hFormed.1 other hOther).known
        (hFormed.2 input hInput).known hEq
      exact hDistinct.2.2 _ (List.mem_map_of_mem hOther) _ (List.mem_map_of_mem hInput) hSame

----------
-- One Event At A Time
----------

omit hFormed

/- The record of an event that is projected alone. -/
def soloRecord (host : EvalHost) (input : OnChainProjectionInput) : ReplayTimelineRecord :=
  toReplayStoreRecord host (returnedEvent host 0 (0, sortedItem host input 0))

variable {config : ReplayBridgeConfig}

/- The sequence number of an input is not recorded. -/
theorem soloRecord_numbered (input : OnChainProjectionInput) (sequence : Option Int) :
    soloRecord host { input with sourceEventSequence := sequence } = soloRecord host input := rfl

variable {input : OnChainProjectionInput}

theorem pageRecords_singleton (hFormed : WellFormed host input) :
    pageRecords host [input] = [soloRecord host input] := by
  have hEntries : distinctEntries host [input] = [(0, sortedItem host input 0)] :=
    distinctEntries_eq_entriesOf (by simpa using hFormed) (by simp)
  unfold pageRecords
  rw [hEntries]
  rfl

theorem traced_eq_self (hFormed : WellFormed host input) :
    ReplayEventBridge.traced host config input = input := by
  rcases Option.isSome_iff_exists.mp hFormed.traced with ⟨trace, hTrace⟩
  unfold ReplayEventBridge.traced
  rw [hTrace, Option.getD_some, ← hTrace]

theorem store_noteSlot (bridge : ReplayEventBridge) (input : OnChainProjectionInput) :
    (bridge.noteSlot input).store = bridge.store := by
  unfold ReplayEventBridge.noteSlot
  split
  · split <;> rfl
  · rfl

/- Strict mode throws only after the record is saved. -/
theorem store_ingest (config : ReplayBridgeConfig)
    (hFormed : WellFormed host input) (bridge : ReplayEventBridge) :
    (ReplayEventBridge.ingest host config bridge input).1.store =
      (bridge.store.save (pageRecords host [input])).1 := by
  have hReturns : ∃ projection, projectOnChainEvents host [input]
          { traceId := some config.traceId, seed := some config.projectionSeed } = .ok projection :=
    projectOnChainEvents_returns (by simpa using hFormed.votes) rfl
  rcases hReturns with ⟨projection, hOk⟩
  have hRecords : projection.events.map (toReplayStoreRecord host) = pageRecords host [input] := by
    rw [events_projectOnChainEvents hOk]
    rfl
  unfold ReplayEventBridge.ingest
  dsimp only
  rw [traced_eq_self hFormed, hOk]
  dsimp only
  rw [hRecords, if_neg (by simp [pageRecords_singleton hFormed]), store_noteSlot]
  split <;> rfl

/- Realtime ingestion appends one record for each event. -/
theorem events_ingestAll {stream : List OnChainProjectionInput} {bridge : ReplayEventBridge}
    (hFresh : Fresh host bridge.store stream) :
    (ReplayEventBridge.ingestAll host config bridge stream).store.events =
      bridge.store.events ++ stream.map (soloRecord host) := by
  induction stream generalizing bridge with
  | nil => simp [ReplayEventBridge.ingestAll]
  | cons input rest ih =>
    have hHead := hFresh.formed input mem_cons_self
    have hFresh : Fresh host bridge.store ([input] ++ rest) := hFresh
    rcases hFresh.saved with ⟨hEvents, hRest⟩
    rw [← store_ingest config hHead bridge] at hEvents hRest
    have hTail := ih hRest
    rw [hEvents, pageRecords_singleton hHead] at hTail
    unfold ReplayEventBridge.ingestAll at hTail ⊢
    rw [foldl_cons, hTail]
    simp

----------
-- A Page At A Time
----------

/-
  Pages that hold a stream in order, after a cursor. Only the last page is final, and an empty page
  moves the cursor, or the run would stop as stalled.
-/
inductive PageSplit : String → List BackfillFetcherPage → List OnChainProjectionInput → Prop
  | last {previous : String} (page : BackfillFetcherPage) (hDone : page.done = true) :
      PageSplit previous [page] page.events
  | next {previous : String} (page : BackfillFetcherPage) {rest : List BackfillFetcherPage}
      {stream : List OnChainProjectionInput} (hMore : page.done = false)
      (hMoves : page.events = [] → stableReplayCursorString page.nextCursor ≠ previous)
      (hRest : PageSplit (stableReplayCursorString page.nextCursor) rest stream) :
      PageSplit previous (page :: rest) (page.events ++ stream)

/- The events of a page, numbered from an offset. -/
def numbered (offset : Nat) (events : List OnChainProjectionInput) : List OnChainProjectionInput :=
  events.mapIdx (fun index event =>
    { event with
      sourceEventSequence := some (event.sourceEventSequence.getD (offset + index : Nat)) })

def pagesRecords (host : EvalHost) : Nat → List BackfillFetcherPage → List ReplayTimelineRecord
| _, [] => []
| offset, page :: rest =>
  pageRecords host (numbered offset page.events) ++
    pagesRecords host (offset + page.events.length) rest

variable {policy : TracePolicy}
variable {events : List OnChainProjectionInput}

theorem forall_mem_numbered {P : OnChainProjectionInput → Prop}
    (hKeeps : ∀ input sequence, P input → P { input with sourceEventSequence := sequence })
    (hAll : ∀ input ∈ events, P input) (offset : Nat) :
    ∀ input ∈ numbered offset events, P input := by
  intro input hInput
  rcases List.mem_mapIdx.mp hInput with ⟨i, hi, rfl⟩
  exact hKeeps _ _ (hAll _ (getElem_mem hi))

theorem wellFormed_numbered
    (hFormed : ∀ input ∈ events, WellFormed host input) (offset : Nat) :
    ∀ input ∈ numbered offset events, WellFormed host input :=
  forall_mem_numbered
    (fun _ _ hInput => ⟨hInput.known, hInput.slot, hInput.signature, hInput.votes, hInput.traced⟩)
    hFormed offset

/- Numbering changes nothing that tells events apart. -/
theorem map_numbered {β : Type} (f : OnChainProjectionInput → β)
    (hSame : ∀ input sequence, f { input with sourceEventSequence := sequence } = f input)
    (offset : Nat) (events : List OnChainProjectionInput) :
    (numbered offset events).map f = events.map f := by
  apply ext_getElem?
  intro index
  cases hGet : events[index]? <;> simp [numbered, getElem?_mapIdx, hGet, hSame]

theorem Fresh.numbered {store : InMemoryReplayTimelineStore}
    {later : List OnChainProjectionInput} (hFresh : Fresh host store (events ++ later))
    (offset : Nat) : Fresh host store (numbered offset events ++ later) := by
  rcases hFresh with ⟨hFormed, hDistinct, hNew⟩
  rw [forall_mem_append] at hFormed hNew
  refine ⟨?_, ?_, ?_⟩
  · exact forall_mem_append.mpr ⟨wellFormed_numbered hFormed.1 offset, hFormed.2⟩
  · rwa [map_append, map_numbered identity (fun _ _ => rfl), ← map_append]
  · exact forall_mem_append.mpr ⟨forall_mem_numbered (fun _ _ h => h) hNew.1 offset, hNew.2⟩

variable {page : BackfillFetcherPage}

theorem pageInputs_eq_numbered (state : BackfillState)
    (hFormed : ∀ input ∈ page.events, WellFormed host input) :
    pageInputs host policy state page = numbered state.globalSequenceOffset page.events := by
  apply ext_getElem?
  intro index
  unfold pageInputs numbered
  rw [getElem?_mapIdx, getElem?_mapIdx]
  cases hGet : page.events[index]? with
  | none => rfl
  | some event =>
    have hTraced := (hFormed event (mem_of_getElem? hGet)).traced
    rcases Option.isSome_iff_exists.mp hTraced with ⟨trace, hTrace⟩
    simp [hTrace]

theorem savePage_returns (policy : TracePolicy) (state : BackfillState)
    (hFormed : ∀ input ∈ page.events, WellFormed host input) :
    ∃ saved, savePage host policy state page = .ok saved ∧
        saved.store =
          (state.store.save
            (pageRecords host (numbered state.globalSequenceOffset page.events))).1 ∧
        saved.globalSequenceOffset = state.globalSequenceOffset ∧
        saved.previousCursor = state.previousCursor := by
  unfold savePage
  split
  · next hEmpty =>
      rw [List.isEmpty_iff] at hEmpty
      refine ⟨state, rfl, ?_, rfl, rfl⟩
      rw [hEmpty]
      rfl
  · rw [pageInputs_eq_numbered state hFormed]
    have hReturns : ∃ projection,
          projectOnChainEvents host (numbered state.globalSequenceOffset page.events)
            { traceId := some state.traceId, seed := some 0 } = .ok projection :=
      projectOnChainEvents_returns
        (fun input hInput => (wellFormed_numbered hFormed _ input hInput).votes) rfl
    rcases hReturns with ⟨projection, hOk⟩
    rw [hOk]
    refine ⟨_, rfl, ?_, rfl, rfl⟩
    dsimp only
    rw [events_projectOnChainEvents hOk]
    rfl

----------
-- A Whole Backfill
----------

variable {previous : String}
variable {pages : List BackfillFetcherPage}
variable {stream : List OnChainProjectionInput}

theorem runPages_returns (policy : TracePolicy)
    (hSplit : PageSplit previous pages stream) {state : BackfillState}
    (hPrevious : state.previousCursor = previous) (hFresh : Fresh host state.store stream) :
    ∃ result store, runPages host policy pages state = .returned result store ∧
        store.events =
          state.store.events ++ pagesRecords host state.globalSequenceOffset pages := by
  induction hSplit generalizing state with
  | @last previous page hDone =>
    rcases savePage_returns policy state hFresh.formed with ⟨saved, hOk, hStore, _, _⟩
    rw [← append_nil page.events] at hFresh
    rcases (hFresh.numbered state.globalSequenceOffset).saved with ⟨hEvents, _⟩
    unfold runPages backfillPage finishPage
    rw [hOk]
    dsimp only
    rw [if_pos hDone]
    refine ⟨_, _, rfl, ?_⟩
    simp only [advanceCursor, InMemoryReplayTimelineStore.saveCursor, hStore,
      hEvents, pagesRecords, append_nil]
  | @next previous page rest stream hMore hMoves _ ih =>
    rcases savePage_returns policy state (forall_mem_append.mp hFresh.formed).1 with
      ⟨saved, hOk, hStore, hOffset, hCursor⟩
    -- The events of later pages are still new.
    rcases (hFresh.numbered state.globalSequenceOffset).saved with ⟨hEvents, hRest⟩
    rw [← hStore] at hEvents hRest
    let next : BackfillState :=
      { advanceCursor host policy saved page with
        previousCursor := stableReplayCursorString page.nextCursor }
    have hRound : backfillPage host policy state page = .running next := by
      unfold backfillPage finishPage
      rw [hOk]
      dsimp only
      rw [if_neg (by simp [hMore]), if_neg ?_]
      · rfl
      · rintro ⟨hEmpty, hStalled⟩
        apply hMoves (List.isEmpty_iff.mp hEmpty)
        rw [← hPrevious, ← hCursor]
        exact hStalled
    have hLast : ∃ result store, runPages host policy rest next = .returned result store ∧
            store.events = next.store.events ++ pagesRecords host next.globalSequenceOffset rest :=
      ih rfl { hRest with }
    rcases hLast with ⟨result, store, hRun, hAll⟩
    refine ⟨result, store, ?_, ?_⟩
    · unfold runPages
      rw [hRound]
      exact hRun
    · rw [hAll]
      simp only [next, advanceCursor, InMemoryReplayTimelineStore.saveCursor,
        hEvents, hOffset, pagesRecords, append_assoc]

/- Pages with at most one event give the solo records. -/
theorem pagesRecords_of_small
    (hSplit : PageSplit previous pages stream)
    (hFormed : ∀ input ∈ stream, WellFormed host input)
    (hSmall : ∀ page ∈ pages, page.events.length ≤ 1) (offset : Nat) :
    pagesRecords host offset pages = stream.map (soloRecord host) := by
  have hPage : ∀ events : List OnChainProjectionInput, ∀ offset,
        (∀ input ∈ events, WellFormed host input) →
          events.length ≤ 1 →
            pageRecords host (numbered offset events) = events.map (soloRecord host) := by
    intro events offset hEvents hLength
    match events, hLength with
    | [], _ => rfl
    | [input], _ =>
      have hInput := wellFormed_numbered hEvents offset _ mem_cons_self
      exact (pageRecords_singleton hInput).trans
        (congrArg (fun record => [record]) (soloRecord_numbered input _))
  induction hSplit generalizing offset with
  | last page hDone =>
    simp only [pagesRecords, append_nil]
    exact hPage _ _ hFormed (hSmall _ mem_cons_self)
  | next page hMore hMoves _ ih =>
    rw [pagesRecords, map_append, hPage _ _
        (fun input hInput => hFormed input (mem_append_left _ hInput))
        (hSmall _ mem_cons_self),
      ih (fun input hInput => hFormed input (mem_append_right _ hInput))
        (fun other hOther => hSmall other (mem_cons_of_mem _ hOther))]

/- A page with two events gives a record in second place. -/
theorem exists_second_record
    (hSplit : PageSplit previous pages stream)
    (hFormed : ∀ input ∈ stream, WellFormed host input) (hDistinct : (stream.map identity).Nodup)
    {page : BackfillFetcherPage} (hPage : page ∈ pages) (hTwo : 1 < page.events.length)
    (offset : Nat) : ∃ record ∈ pagesRecords host offset pages, record.seq = 2 := by
  have hRecord : ∀ events : List OnChainProjectionInput, ∀ offset,
        (∀ input ∈ events, WellFormed host input) →
          (events.map identity).Nodup →
            1 < events.length →
              ∃ record ∈ pageRecords host (numbered offset events), record.seq = 2 := by
    intro events offset hEvents hNodup hLength
    have hCount := length_pageRecords (wellFormed_numbered hEvents offset)
      (by rwa [map_numbered identity (fun _ _ => rfl)])
    have hNumbered : (numbered offset events).length = events.length := by simp [numbered]
    have hLt : 1 < (pageRecords host (numbered offset events)).length := by omega
    exact ⟨_, getElem_mem hLt, seq_pageRecords (getElem?_eq_getElem hLt)⟩
  induction hSplit generalizing offset with
  | last last hDone =>
    rw [mem_singleton] at hPage
    subst hPage
    rcases hRecord _ offset hFormed hDistinct hTwo with ⟨record, hIn, hSeq⟩
    exact ⟨record, mem_append_left _ hIn, hSeq⟩
  | next first hMore hMoves _ ih =>
    rw [map_append, nodup_append] at hDistinct
    rcases List.mem_cons.mp hPage with hEq | hLater
    · subst hEq
      rcases hRecord _ offset (fun input hInput => hFormed input (mem_append_left _ hInput))
          hDistinct.1 hTwo with ⟨record, hIn, hSeq⟩
      exact ⟨record, mem_append_left _ hIn, hSeq⟩
    · rcases ih (fun input hInput => hFormed input (mem_append_right _ hInput))
          hDistinct.2.1 hLater (offset + first.events.length) with ⟨record, hIn, hSeq⟩
      exact ⟨record, mem_append_right _ hIn, hSeq⟩

/-
  A stream of distinct well-formed events, ingested one at a time or backfilled from pages that hold
  it in order: both stores hold the same records exactly when no page holds two events.
-/
theorem batching_keeps_records_iff (host : EvalHost) (config : ReplayBridgeConfig)
    (policy : TracePolicy) {stream : List OnChainProjectionInput}
    (hFormed : ∀ input ∈ stream, WellFormed host input) (hDistinct : (stream.map identity).Nodup)
    {pages : List BackfillFetcherPage} (hSplit : PageSplit "" pages stream) :
    ∃ result store, runBackfill host policy .empty pages = .returned result store ∧
        ((∀ record, record ∈ (ReplayEventBridge.ingestAll host config .empty stream).store.events ↔
              record ∈ store.events) ↔ ∀ page ∈ pages, page.events.length ≤ 1) := by
  have hRealtime : (ReplayEventBridge.ingestAll host config .empty stream).store.events =
        stream.map (soloRecord host) :=
    events_ingestAll ⟨hFormed, hDistinct, fun _ _ => not_mem_nil⟩
  have hBackfill : ∃ result store, runBackfill host policy .empty pages = .returned result store ∧
          store.events = pagesRecords host 0 pages :=
    runPages_returns policy hSplit rfl ⟨hFormed, hDistinct, fun _ _ => not_mem_nil⟩
  rcases hBackfill with ⟨result, store, hRun, hEvents⟩
  refine ⟨result, store, hRun, ?_⟩
  rw [hRealtime, hEvents]
  constructor
  · intro hSame page hPage
    by_contra hTwo
    rcases exists_second_record hSplit hFormed hDistinct hPage (not_le.mp hTwo) 0 with
      ⟨record, hIn, hSeq⟩
    rcases List.mem_map.mp ((hSame record).mpr hIn) with ⟨input, _, hEq⟩
    -- An event projected alone is in first place.
    have hFirst : record.seq = 1 := by
      rw [← hEq]
      rfl
    omega
  · intro hSmall record
    rw [pagesRecords_of_small hSplit hFormed hSmall 0]

/- An event with a trace context and an empty payload. -/
def sampleEvent (eventName : String) (slot : Int) : OnChainProjectionInput :=
  { eventName := eventName, event := .object [], slot := slot, signature := "sig"
    traceContext := some
      { traceId := "trace", spanId := "span", parentSpanId := none, sampled := true } }

def sampleStream : List OnChainProjectionInput :=
  [sampleEvent "taskCreated" 1, sampleEvent "taskClaimed" 2]

def samplePages : List BackfillFetcherPage :=
  [{ events := [sampleEvent "taskCreated" 1], nextCursor := some { slot := 1, signature := "sig" }
     done := false }, { events := [sampleEvent "taskClaimed" 2], nextCursor := none, done := true }]

theorem wellFormed_sampleStream : ∀ input ∈ sampleStream, WellFormed EvalHost.basic input := by
  intro input hInput
  simp only [sampleStream, mem_cons, not_mem_nil, or_false] at hInput
  rcases hInput with hEq | hEq <;> subst hEq
  all_goals exact
      { known := by decide, slot := by decide, signature := by decide, votes := by
          intro hName
          exact absurd hName (by decide), traced := rfl }

theorem samplePages_keep_records : PageSplit "" samplePages sampleStream ∧
      ∃ result store, runBackfill EvalHost.basic {} .empty samplePages = .returned result store ∧
          ∀ record, record ∈ (ReplayEventBridge.ingestAll EvalHost.basic {} .empty
                sampleStream).store.events ↔ record ∈ store.events := by
  have hSplit : PageSplit "" samplePages sampleStream :=
    .next _ rfl (fun hEmpty => by cases hEmpty) (.last _ rfl)
  rcases batching_keeps_records_iff EvalHost.basic {} {}
      wellFormed_sampleStream (by decide) hSplit with ⟨result, store, hRun, hSame⟩
  exact ⟨hSplit, result, store, hRun, hSame.mpr (by decide)⟩

def samplePage : BackfillFetcherPage := { events := sampleStream, nextCursor := none, done := true }

/-
  The second event of the page is stored with `seq` 2, and with `seq` 1 when it is ingested alone.
-/
theorem two_event_page_renumbers :
    (∀ input ∈ sampleStream, WellFormed EvalHost.basic input) ∧ (sampleStream.map identity).Nodup ∧
      PageSplit "" [samplePage] sampleStream ∧
      ¬ ∀ record,
        record ∈ (ReplayEventBridge.ingestAll EvalHost.basic {} .empty sampleStream).store.events ↔
          record ∈ (runBackfill EvalHost.basic {} .empty [samplePage]).store.events := by
  have hRealtime : (ReplayEventBridge.ingestAll EvalHost.basic {} .empty
        sampleStream).store.events.map (·.seq) = [1, 1] := by decide +kernel
  have hPage : (runBackfill EvalHost.basic {} .empty
        [samplePage]).store.events.map (·.seq) = [1, 2] := by decide +kernel
  refine ⟨wellFormed_sampleStream, by decide, .last samplePage rfl, ?_⟩
  intro hSame
  have hTwo : 2 ∈ (runBackfill EvalHost.basic {} .empty
        [samplePage]).store.events.map (·.seq) := by
    rw [hPage]
    decide
  rcases List.mem_map.mp hTwo with ⟨record, hIn, hSeq⟩
  have hOne := List.mem_map_of_mem (f := fun record => record.seq) ((hSame record).mpr hIn)
  rw [hRealtime, hSeq] at hOne
  revert hOne
  decide

end

end AgencCore.Replay
