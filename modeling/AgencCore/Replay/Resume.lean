import AgencCore.Replay.Identity
import AgencCore.Replay.Ingestion

/-
  Backfill with crashes.

  A run may be cut off at any point between fetching a page, saving it and saving the cursor; the
  next run starts from the store it left. A page is saved before the cursor moves past it and saving
  is idempotent, so whatever the store lacks lies ahead of the cursor that the next run resumes
  from.
-/

namespace AgencCore.Replay

open Foundations List
open Eval

section

/- The page a fetcher returns is determined by the cursor. -/
abbrev Fetcher := Option ReplayEventCursor → BackfillFetcherPage

variable (host : EvalHost)
variable (policy : TracePolicy)
variable (fetch : Fetcher)

/- One round of the loop, from fetching on. -/
def backfillRound (state : BackfillState) : BackfillOutcome :=
  backfillPage host policy state (fetch state.cursor)

/- The store that a run leaves when it is cut off. -/
inductive Interrupted : BackfillState → InMemoryReplayTimelineStore → Prop
  | beforeSave (state : BackfillState) : Interrupted state state.store
  | beforeCursor {state saved : BackfillState}
      (hSaved : savePage host policy state (fetch state.cursor) = .ok saved) :
      Interrupted state saved.store
  | thrown {state : BackfillState} {message : String} {store : InMemoryReplayTimelineStore}
      (hThrown : backfillRound host policy fetch state = .thrown message store) :
      Interrupted state store
  | later {state next : BackfillState} {store : InMemoryReplayTimelineStore}
      (hRound : backfillRound host policy fetch state = .running next)
      (hLater : Interrupted next store) : Interrupted state store

/- The result and the store of a run that returns. -/
inductive Completed : BackfillState → BackfillResult → InMemoryReplayTimelineStore → Prop
  | last {state : BackfillState} {result : BackfillResult} {store : InMemoryReplayTimelineStore}
      (hReturned : backfillRound host policy fetch state = .returned result store) :
      Completed state result store
  | later {state next : BackfillState} {result : BackfillResult}
      {store : InMemoryReplayTimelineStore}
      (hRound : backfillRound host policy fetch state = .running next)
      (hLater : Completed next result store) : Completed state result store

/- A store that a crashed run leaves for the next run. -/
def Crashes (store store' : InMemoryReplayTimelineStore) : Prop :=
  Interrupted host policy fetch (startBackfill policy store) store'

----------
-- What A Page Stores
----------

def KeyOfPage (page : BackfillFetcherPage) (k : String) : Prop :=
  ∃ input ∈ page.events, input.accepted = true ∧ inputKey input = k

variable {host : EvalHost}
variable {policy : TracePolicy}
variable {fetch : Fetcher}

/- The keys of a batch are those of its accepted inputs. -/
theorem mem_keys_pageRecords_iff (inputs : List OnChainProjectionInput) (k : String) :
    k ∈ (pageRecords host inputs).map ReplayTimelineRecord.key ↔
      ∃ input ∈ inputs, input.accepted = true ∧ inputKey input = k := by
  rw [keys_pageRecords, mem_map]
  constructor
  · rintro ⟨entry, hEntry, hKey⟩
    rcases accepted_of_mem_distinctEntries hEntry with ⟨hMem, hAccepted⟩
    exact ⟨entry.2.input, (entryPrint_of_mem_entriesOf hMem).1, hAccepted, hKey⟩
  · rintro ⟨input, hInput, hAccepted, hKey⟩
    rcases exists_distinct_entry hInput hAccepted with ⟨entry, hEntry, hPrint⟩
    have hOwn := (entryPrint_of_mem_entriesOf (accepted_of_mem_distinctEntries hEntry).1).2
    refine ⟨entry, hEntry, ?_⟩
    rw [← hKey]
    exact inputKey_eq_of_identity_eq (identity_of_fingerprint_eq (hOwn.symm.trans hPrint))

/- Numbering and tracing do not change the keys. -/
theorem keyOfPage_pageInputs (state : BackfillState) (page : BackfillFetcherPage) (k : String) :
    (∃ input ∈ pageInputs host policy state page, input.accepted = true ∧ inputKey input = k) ↔
      KeyOfPage page k := by
  constructor
  · rintro ⟨input, hInput, hAccepted, hKey⟩
    rcases mem_mapIdx.mp hInput with ⟨i, hi, rfl⟩
    exact ⟨page.events[i], getElem_mem hi, hAccepted, hKey⟩
  · rintro ⟨input, hInput, hAccepted, hKey⟩
    rcases getElem_of_mem hInput with ⟨i, hi, rfl⟩
    exact ⟨_, mem_mapIdx.mpr ⟨i, hi, rfl⟩, hAccepted, hKey⟩

/- A saved page adds its keys and leaves the cursors. -/
theorem ids_savePage {state saved : BackfillState} {page : BackfillFetcherPage}
    (hSaved : savePage host policy state page = .ok saved) :
    (∀ k, k ∈ saved.store.ids ↔ k ∈ state.store.ids ∨ KeyOfPage page k) ∧
      saved.store.cursor = state.store.cursor := by
  unfold savePage at hSaved
  split at hSaved
  · next hEmpty =>
      cases hSaved
      refine ⟨?_, rfl⟩
      intro k
      constructor
      · exact Or.inl
      · rintro (hOld | ⟨input, hInput, _⟩)
        · exact hOld
        · rw [isEmpty_iff.mp hEmpty] at hInput
          cases hInput
  · rcases (bind_eq_ok_iff _ _ _).mp hSaved with ⟨projection, hOk, hEq⟩
    cases hEq
    have hRecords : projection.events.map (toReplayStoreRecord host) =
          pageRecords host (pageInputs host policy state page) := by
      rw [events_projectOnChainEvents hOk]
      rfl
    dsimp only
    rw [hRecords]
    refine ⟨?_, InMemoryReplayTimelineStore.cursor_save _ _⟩
    intro k
    rw [InMemoryReplayTimelineStore.ids_eq, InMemoryReplayTimelineStore.events_save,
      mem_keys_insertAll, ← state.store.ids_eq, mem_keys_pageRecords_iff, keyOfPage_pageInputs]

section

variable (host : EvalHost)
variable (policy : TracePolicy)
variable (state : BackfillState)
variable (page : BackfillFetcherPage)

/- What a round does: its page is refused, or saved and final, or saved and not final. -/
inductive RoundOf : BackfillOutcome → Prop
  | refused {message : String} : RoundOf (.thrown message state.store)
  | final {saved : BackfillState} {result : BackfillResult}
      (hSaved : savePage host policy state page = .ok saved) (hDone : page.done = true) :
      RoundOf (.returned result (advanceCursor host policy saved page).store)
  | stalled {saved : BackfillState} {message : String}
      (hSaved : savePage host policy state page = .ok saved) (hMore : page.done = false) :
      RoundOf (.thrown message (advanceCursor host policy saved page).store)
  | next {saved : BackfillState} {previousCursor : String}
      (hSaved : savePage host policy state page = .ok saved) (hMore : page.done = false) :
      RoundOf (.running { advanceCursor host policy saved page with
        previousCursor := previousCursor })

end

theorem backfillRound_cases {state : BackfillState} {outcome : BackfillOutcome}
    (hRound : backfillRound host policy fetch state = outcome) :
    RoundOf host policy state (fetch state.cursor) outcome := by
  subst hRound
  unfold backfillRound backfillPage finishPage
  cases hSaved : savePage host policy state (fetch state.cursor) with
  | error message => exact .refused
  | ok saved =>
    dsimp only
    split_ifs with hDone
    · exact .final hSaved hDone
    · exact .stalled hSaved (eq_false_of_ne_true hDone)
    · exact .next hSaved (eq_false_of_ne_true hDone)

end

----------
-- What Lies Ahead Of A Cursor
----------

section

variable (fetch : Fetcher)

/- The keys of the pages from a cursor to the final page. -/
inductive AheadOf : Option ReplayEventCursor → String → Prop
  | here {cursor : Option ReplayEventCursor} {k : String} (hKey : KeyOfPage (fetch cursor) k) :
      AheadOf cursor k
  | later {cursor : Option ReplayEventCursor} {k : String} (hMore : (fetch cursor).done = false)
      (hLater : AheadOf (fetch cursor).nextCursor k) : AheadOf cursor k

/- The pages from a cursor on come to a final one. -/
inductive Ends : Option ReplayEventCursor → Prop
  | here {cursor : Option ReplayEventCursor} (hDone : (fetch cursor).done = true) : Ends cursor
  | later {cursor : Option ReplayEventCursor} (hMore : (fetch cursor).done = false)
      (hLater : Ends (fetch cursor).nextCursor) : Ends cursor

/- The cursor that the next run starts from. -/
def resumeCursor (store : InMemoryReplayTimelineStore) : Option ReplayEventCursor :=
  store.cursor.filter ReplayEventCursor.isValid

/-
  Pages depend on the position in a cursor only, and the first run starts at the beginning or every
  cursor that is fetched can be resumed from.
-/
structure Resumable (store : InMemoryReplayTimelineStore) : Prop where
  position : ∀ cursor traceId traceSpanId,
      fetch (some { cursor with
          traceId := traceId, traceSpanId := traceSpanId }) = fetch (some cursor)
  cursors : resumeCursor store = none ∨
      ∀ before cursor, (fetch before).nextCursor = some cursor → cursor.isValid = true

/- What a store lacks of the keys of the first run lies ahead of a cursor, and nothing else does. -/
structure Pending (first store : InMemoryReplayTimelineStore)
    (cursor : Option ReplayEventCursor) : Prop where
  kept : ∀ k ∈ first.ids, k ∈ store.ids
  total : ∀ k, (k ∈ store.ids ∨ AheadOf fetch cursor k) ↔
        (k ∈ first.ids ∨ AheadOf fetch (resumeCursor first) k)
  ends : Ends fetch cursor

variable {fetch}
variable {first store store' : InMemoryReplayTimelineStore}
variable {cursor cursor' : Option ReplayEventCursor}

theorem aheadOf_congr (hFetch : fetch cursor = fetch cursor') {k : String}
    (hAhead : AheadOf fetch cursor k) : AheadOf fetch cursor' k := by
  cases hAhead with
  | here hKey => exact .here (hFetch ▸ hKey)
  | later hMore hLater =>
    rw [hFetch] at hMore hLater
    exact .later hMore hLater

theorem ends_congr (hFetch : fetch cursor = fetch cursor') (hEnds : Ends fetch cursor) :
    Ends fetch cursor' := by
  cases hEnds with
  | here hDone => exact .here (hFetch ▸ hDone)
  | later hMore hLater =>
    rw [hFetch] at hMore hLater
    exact .later hMore hLater

theorem ends_nextCursor (hEnds : Ends fetch cursor) (hMore : (fetch cursor).done = false) :
    Ends fetch (fetch cursor).nextCursor := by
  cases hEnds with
  | here hDone =>
    rw [hMore] at hDone
    cases hDone
  | later _ hLater => exact hLater

theorem aheadOf_final_iff (hDone : (fetch cursor).done = true) (k : String) :
    AheadOf fetch cursor k ↔ KeyOfPage (fetch cursor) k := by
  constructor
  · intro hAhead
    cases hAhead with
    | here hKey => exact hKey
    | later hMore _ =>
      rw [hDone] at hMore
      cases hMore
  · exact .here

theorem aheadOf_more_iff (hMore : (fetch cursor).done = false) (k : String) :
    AheadOf fetch cursor k ↔
      KeyOfPage (fetch cursor) k ∨ AheadOf fetch (fetch cursor).nextCursor k := by
  constructor
  · intro hAhead
    cases hAhead with
    | here hKey => exact Or.inl hKey
    | later _ hLater => exact Or.inr hLater
  · rintro (hKey | hLater)
    · exact .here hKey
    · exact .later hMore hLater

theorem pending_first (hEnds : Ends fetch (resumeCursor first)) :
    Pending fetch first first (resumeCursor first) := ⟨fun _ hIn => hIn, fun _ => Iff.rfl, hEnds⟩

/- Saving keys of the first run leaves the rest ahead. -/
theorem Pending.saved (hPending : Pending fetch first store cursor) {Added : String → Prop}
    (hAdded : ∀ k, Added k → k ∈ first.ids ∨ AheadOf fetch (resumeCursor first) k)
    (hIds : ∀ k, k ∈ store'.ids ↔ k ∈ store.ids ∨ Added k) : Pending fetch first store' cursor := by
  refine ⟨fun k hk => (hIds k).mpr (Or.inl (hPending.kept k hk)), ?_, hPending.ends⟩
  intro k
  have hKnown : Added k → _ := fun hKey => (hPending.total k).mpr (hAdded k hKey)
  rw [hIds, ← hPending.total k]
  tauto

/- The cursor may move past a page that is saved. -/
theorem Pending.advanced (hPending : Pending fetch first store cursor)
    (hMore : (fetch cursor).done = false)
    (hIds : ∀ k, k ∈ store'.ids ↔ k ∈ store.ids ∨ KeyOfPage (fetch cursor) k) :
    Pending fetch first store' (fetch cursor).nextCursor := by
  refine ⟨fun k hk => (hIds k).mpr (Or.inl (hPending.kept k hk)), ?_,
    ends_nextCursor hPending.ends hMore⟩
  intro k
  rw [hIds, ← hPending.total k, aheadOf_more_iff hMore, or_assoc]

/- The next run resumes where the cursor was saved. -/
theorem Pending.resumed (hResumable : Resumable fetch first)
    (hEnds : Ends fetch (resumeCursor first))
    (hPending : Pending fetch first store (fetch cursor).nextCursor) {traceId : Option String}
    {traceSpanId : ReplayEventCursor → Option String}
    (hCursor : store.cursor =
        (fetch cursor).nextCursor.map (fun next =>
          { next with traceId := traceId, traceSpanId := traceSpanId next })) :
    Pending fetch first store (resumeCursor store) := by
  unfold resumeCursor
  rw [hCursor]
  cases hNext : (fetch cursor).nextCursor with
  | none =>
    rw [hNext] at hPending
    exact hPending
  | some next =>
    rw [hNext] at hPending
    rw [Option.map_some, Option.filter_some]
    split
    · -- The saved cursor is at the same position.
      have hFetch := hResumable.position next traceId (traceSpanId next)
      refine ⟨hPending.kept, ?_, ends_congr hFetch.symm hPending.ends⟩
      intro k
      rw [← hPending.total k]
      exact or_congr Iff.rfl ⟨aheadOf_congr hFetch, aheadOf_congr hFetch.symm⟩
    · next hInvalid =>
        -- The next run starts over, like the first one.
        rcases hResumable.cursors with hStart | hValid
        · refine ⟨hPending.kept, ?_, hStart ▸ hEnds⟩
          intro k
          have hOld := (hPending.total k).mp ∘ Or.inl
          rw [hStart] at hOld ⊢
          exact ⟨fun hIn => hIn.elim hOld Or.inr, Or.imp_left (hPending.kept k)⟩
        · exact absurd (hValid cursor next hNext) hInvalid

end

----------
-- Crashes And Restarts
----------

section

variable {host : EvalHost}
variable {policy : TracePolicy}
variable {fetch : Fetcher}
variable {first store : InMemoryReplayTimelineStore}
variable {state : BackfillState}

/-
  A running state: what is lacking lies ahead of the cursor the run goes on from, and of the one it
  would resume from.
-/
structure OnTrack (fetch : Fetcher) (first : InMemoryReplayTimelineStore)
    (state : BackfillState) : Prop where
  running : Pending fetch first state.store state.cursor
  crashed : Pending fetch first state.store (resumeCursor state.store)

theorem onTrack_start (policy : TracePolicy)
    (hPending : Pending fetch first store (resumeCursor store)) :
    OnTrack fetch first (startBackfill policy store) := by
  have hIds : (startBackfill policy store).store.ids = store.ids := by
    unfold startBackfill
    dsimp only
    split <;> rfl
  have hCursor : resumeCursor (startBackfill policy store).store = resumeCursor store := by
    unfold startBackfill resumeCursor
    cases hOld : store.cursor with
    | none => simp [hOld]
    | some cursor =>
      -- Only an invalid cursor is changed, to none.
      by_cases hValid : cursor.isValid = true <;>
        simp [hOld, hValid, InMemoryReplayTimelineStore.saveCursor, Option.filter_some]
  have hBoth : Pending fetch first (startBackfill policy store).store (resumeCursor store) :=
    ⟨fun k hk => hIds ▸ hPending.kept k hk, fun k => by rw [hIds]; exact hPending.total k,
      hPending.ends⟩
  exact ⟨hBoth, by rw [hCursor]; exact hBoth⟩

/- The keys of the next page belong to the first run. -/
theorem OnTrack.page (hTrack : OnTrack fetch first state) (k : String)
    (hKey : KeyOfPage (fetch state.cursor) k) :
    k ∈ first.ids ∨ AheadOf fetch (resumeCursor first) k :=
  (hTrack.running.total k).mp (Or.inr (.here hKey))

variable (hResumable : Resumable fetch first)
variable (hEnds : Ends fetch (resumeCursor first))
include hResumable hEnds

variable (hTrack : OnTrack fetch first state)
include hTrack

theorem OnTrack.advance (hMore : (fetch state.cursor).done = false) {saved : BackfillState}
    (hSaved : savePage host policy state (fetch state.cursor) = .ok saved) :
    OnTrack fetch first (advanceCursor host policy saved (fetch state.cursor)) := by
  have hRunning : Pending fetch first (advanceCursor host policy saved (fetch state.cursor)).store
        (fetch state.cursor).nextCursor := hTrack.running.advanced hMore (ids_savePage hSaved).1
  exact ⟨hRunning, hRunning.resumed hResumable hEnds rfl⟩

/- A round that goes on stays on track. -/
theorem OnTrack.round {next : BackfillState}
    (hRound : backfillRound host policy fetch state = .running next) :
    OnTrack fetch first next := by
  cases backfillRound_cases hRound with
  | next hSaved hMore =>
    have hNext := hTrack.advance hResumable hEnds hMore hSaved
    exact { hNext with }

/- Wherever a run is cut off, the next run finds the rest. -/
theorem OnTrack.interrupted (hCut : Interrupted host policy fetch state store) :
    Pending fetch first store (resumeCursor store) := by
  induction hCut with
  | beforeSave state => exact hTrack.crashed
  | beforeCursor hSaved =>
    rcases ids_savePage hSaved with ⟨hIds, hCursor⟩
    unfold resumeCursor
    rw [hCursor]
    exact hTrack.crashed.saved hTrack.page hIds
  | thrown hThrown =>
    cases backfillRound_cases hThrown with
    | refused => exact hTrack.crashed
    | stalled hSaved hMore => exact (hTrack.advance hResumable hEnds hMore hSaved).crashed
  | later hRound _ ih => exact ih (hTrack.round hResumable hEnds hRound)

/- A run that returns has stored all that lay ahead. -/
theorem OnTrack.completed
    {result : BackfillResult} (hReturns : Completed host policy fetch state result store)
    (k : String) : k ∈ store.ids ↔ k ∈ first.ids ∨ AheadOf fetch (resumeCursor first) k := by
  induction hReturns with
  | last hReturned =>
    cases backfillRound_cases hReturned with
    | final hSaved hDone =>
      rw [← hTrack.running.total k, aheadOf_final_iff hDone]
      exact (ids_savePage hSaved).1 k
  | later hRound _ ih => exact ih (hTrack.round hResumable hEnds hRound)

omit hTrack

/- Any number of crashes leave the rest ahead. -/
theorem pending_of_crashes
    (hCrashes : Relation.ReflTransGen (Crashes host policy fetch) first store) :
    Pending fetch first store (resumeCursor store) := by
  induction hCrashes with
  | refl => exact pending_first hEnds
  | tail _ hCrash ih => exact (onTrack_start policy ih).interrupted hResumable hEnds hCrash

omit hEnds

omit hResumable

/- A run that returns has come to a final page. -/
theorem ends_of_completed {result : BackfillResult}
    (hReturns : Completed host policy fetch state result store) : Ends fetch state.cursor := by
  induction hReturns with
  | last hReturned => cases backfillRound_cases hReturned with
    | final _ hDone => exact .here hDone
  | later hRound _ ih => cases backfillRound_cases hRound with
    | next _ hMore => exact .later hMore ih

theorem savePage_of_readable (policy : TracePolicy) (state : BackfillState)
    {page : BackfillFetcherPage} (hVotes : ∀ input ∈ page.events, VotesReadable host input) :
    ∃ saved, savePage host policy state page = .ok saved := by
  unfold savePage
  split
  · exact ⟨state, rfl⟩
  · have hReturns : ∃ projection, projectOnChainEvents host (pageInputs host policy state page)
            { traceId := some state.traceId, seed := some 0 } = .ok projection := by
      apply projectOnChainEvents_returns _ rfl
      intro input hInput
      rcases mem_mapIdx.mp hInput with ⟨i, hi, rfl⟩
      exact hVotes page.events[i] (getElem_mem hi)
    rcases hReturns with ⟨projection, hOk⟩
    rw [hOk]
    exact ⟨_, rfl⟩

/- A run that is not cut off returns. -/
theorem completes_of_ends (host : EvalHost) (policy : TracePolicy)
    {cursor : Option ReplayEventCursor} (hEnds : Ends fetch cursor)
    (hVotes : ∀ before, ∀ input ∈ (fetch before).events, VotesReadable host input)
    (hFilled : ∀ before, (fetch before).done = false → (fetch before).events ≠ [])
    {state : BackfillState} (hCursor : state.cursor = cursor) :
    ∃ result store, Completed host policy fetch state result store := by
  induction hEnds generalizing state with
  | @here cursor hDone =>
    subst hCursor
    rcases savePage_of_readable policy state (hVotes state.cursor) with ⟨saved, hSaved⟩
    have hRound :
        ∃ result store, backfillRound host policy fetch state = .returned result store := by
      unfold backfillRound backfillPage finishPage
      rw [hSaved]
      dsimp only
      rw [if_pos hDone]
      exact ⟨_, _, rfl⟩
    rcases hRound with ⟨result, store, hReturned⟩
    exact ⟨result, store, .last hReturned⟩
  | @later cursor hMore _ ih =>
    subst hCursor
    rcases savePage_of_readable policy state (hVotes state.cursor) with ⟨saved, hSaved⟩
    have hRound : ∃ next, backfillRound host policy fetch state = .running next ∧
            next.cursor = (fetch state.cursor).nextCursor := by
      unfold backfillRound backfillPage finishPage
      rw [hSaved]
      dsimp only
      rw [if_neg (by simp [hMore]), if_neg (by simp [hFilled state.cursor hMore])]
      exact ⟨_, rfl, rfl⟩
    rcases hRound with ⟨next, hRound, hNext⟩
    rcases ih hNext with ⟨result, store, hReturns⟩
    exact ⟨result, store, .later hRound hReturns⟩

/-
  After any number of crashed runs, a run that returns has stored the keys that one undisturbed run
  stores, each once; and it does return if it is not cut off, vote counts are readable and only the
  final page may be empty.
-/
theorem restarts_store_the_same_keys (host : EvalHost) (policy : TracePolicy) {fetch : Fetcher}
    {first : InMemoryReplayTimelineStore} (hResumable : Resumable fetch first)
    {result : BackfillResult} {whole : InMemoryReplayTimelineStore}
    (hWhole : Completed host policy fetch (startBackfill policy first) result whole)
    {crashed : InMemoryReplayTimelineStore}
    (hCrashes : Relation.ReflTransGen (Crashes host policy fetch) first crashed) :
    (∀ result' final, Completed host policy fetch (startBackfill policy crashed) result' final →
          final.ids.Nodup ∧ ∀ k, k ∈ final.ids ↔ k ∈ whole.ids) ∧
      ((∀ before, ∀ input ∈ (fetch before).events, VotesReadable host input) →
        (∀ before, (fetch before).done = false → (fetch before).events ≠ []) →
        ∃ result' final,
          Completed host policy fetch (startBackfill policy crashed) result' final) := by
  have hEnds : Ends fetch (resumeCursor first) := ends_of_completed hWhole
  have hPending := pending_of_crashes hResumable hEnds hCrashes
  constructor
  · intro result' final hFinal
    refine ⟨final.ids_nodup, ?_⟩
    intro k
    rw [(onTrack_start policy hPending).completed hResumable hEnds hFinal,
      (onTrack_start policy (pending_first hEnds)).completed hResumable hEnds hWhole]
  · intro hVotes hFilled
    exact completes_of_ends host policy hPending.ends hVotes hFilled rfl

/- An event whose key is told by its name and slot. -/
def plainEvent (eventName : String) (slot : Int) : OnChainProjectionInput :=
  { eventName := eventName, event := .object [], slot := slot, signature := "sig" }

/- Two pages, the second one after any cursor. -/
def twoPages : Fetcher
| none =>
  { events := [plainEvent "taskCreated" 1], nextCursor := some { slot := 1, signature := "sig" }
    done := false }
| some _ => { events := [plainEvent "taskClaimed" 2], nextCursor := none, done := true }

theorem twoPages_readable (before : Option ReplayEventCursor) :
    ∀ input ∈ (twoPages before).events, VotesReadable EvalHost.basic input := by
  intro input hInput hName
  cases before with
  | none | some =>
    rw [mem_singleton.mp hInput] at hName
    exact absurd hName (by decide)

theorem twoPages_resumable : Resumable twoPages InMemoryReplayTimelineStore.empty :=
  ⟨fun _ _ _ => rfl, Or.inl rfl⟩

theorem twoPages_ends : Ends twoPages none := .later rfl (.here rfl)

/- A crash after the first page is saved. -/
theorem twoPages_restarted : Resumable twoPages InMemoryReplayTimelineStore.empty ∧
      ∃ result whole crashed result' final,
        Completed EvalHost.basic {} twoPages (startBackfill {} .empty) result whole ∧
          Crashes EvalHost.basic {} twoPages .empty crashed ∧
          Completed EvalHost.basic {} twoPages (startBackfill {} crashed) result' final ∧
          ∀ k, k ∈ final.ids ↔ k ∈ whole.ids := by
  have hFilled : ∀ before, (twoPages before).done = false → (twoPages before).events ≠ [] := by
    intro before _
    cases before <;> simp [twoPages]
  rcases completes_of_ends EvalHost.basic {} twoPages_ends twoPages_readable hFilled
      (rfl : (startBackfill {} .empty).cursor = none) with ⟨result, whole, hWhole⟩
  rcases savePage_of_readable {} (startBackfill {} .empty) (twoPages_readable none) with
    ⟨saved, hSaved⟩
  have hCrash : Crashes EvalHost.basic {} twoPages .empty saved.store := .beforeCursor hSaved
  rcases restarts_store_the_same_keys EvalHost.basic {}
      twoPages_resumable hWhole (.single hCrash) with ⟨hSame, hReturns⟩
  rcases hReturns twoPages_readable hFilled with ⟨result', final, hFinal⟩
  exact ⟨twoPages_resumable, result, whole, saved.store, result', final, hWhole, hCrash, hFinal,
    (hSame result' final hFinal).2⟩

/- A fetcher that returns a cursor without a signature. -/
def unsignedCursor : Fetcher
| none => { events := [plainEvent "taskCreated" 1], nextCursor := none, done := true }
| some cursor =>
  if cursor.signature = "" then
    { events := [plainEvent "taskCompleted" 3], nextCursor := none, done := true }
  else
    { events := [plainEvent "taskClaimed" 2], nextCursor := some { slot := 2, signature := "" }
      done := false }

/- A store that an earlier run left with a cursor. -/
def cursorStore : InMemoryReplayTimelineStore :=
  InMemoryReplayTimelineStore.empty.saveCursor (some { slot := 1, signature := "sig" })

def BackfillOutcome.isReturned : BackfillOutcome → Bool
| .returned _ _ => true
| _ => false

def BackfillOutcome.next? : BackfillOutcome → Option BackfillState
| .running state => some state
| _ => none

theorem eq_running_of_next? {outcome : BackfillOutcome} (hNext : outcome.next? = some state) :
    outcome = .running state := by
  cases outcome with
  | running => exact congrArg _ (Option.some.inj hNext)
  | returned | thrown => cases hNext

theorem completed_of_isReturned
    (hReturned : (backfillRound host policy fetch state).isReturned = true) :
    ∃ result,
      Completed host policy fetch state result (backfillRound host policy fetch state).store := by
  cases hRound : backfillRound host policy fetch state with
  | returned result store => exact ⟨result, .last hRound⟩
  | thrown | running =>
    rw [hRound] at hReturned
    cases hReturned

/-
  The cursor is saved after the first page and refused when the next run starts, which then begins
  at the first page of all and never comes to the page that was ahead.
-/
theorem unsigned_cursor_loses_page : (∀ cursor traceId traceSpanId,
        unsignedCursor (some { cursor with
            traceId := traceId, traceSpanId := traceSpanId }) = unsignedCursor (some cursor)) ∧
      ∃ result whole crashed result' final,
        Completed EvalHost.basic {} unsignedCursor (startBackfill {} cursorStore) result whole ∧
          Crashes EvalHost.basic {} unsignedCursor cursorStore crashed ∧
          Completed EvalHost.basic {} unsignedCursor (startBackfill {} crashed) result' final ∧
          whole.ids = ["2|sig|claimed", "3|sig|completed"] ∧
          final.ids = ["2|sig|claimed", "1|sig|discovered"] := by
  refine ⟨fun _ _ _ => rfl, ?_⟩
  have hFirst : ((backfillRound EvalHost.basic {} unsignedCursor
        (startBackfill {} cursorStore)).next?).isSome = true := by decide +kernel
  rcases Option.isSome_iff_exists.mp hFirst with ⟨next, hNext⟩
  have hRound := eq_running_of_next? hNext
  -- Both runs go on with a single round.
  have hWhole : ((backfillRound EvalHost.basic {} unsignedCursor
        (startBackfill {} cursorStore)).next?.map
          (fun next =>
            let outcome := backfillRound EvalHost.basic {} unsignedCursor next
            (outcome.isReturned, outcome.store.ids))) =
        some (true, ["2|sig|claimed", "3|sig|completed"]) := by decide +kernel
  have hFinal : ((backfillRound EvalHost.basic {} unsignedCursor
        (startBackfill {} cursorStore)).next?.map
          (fun next =>
            let outcome := backfillRound EvalHost.basic {}
              unsignedCursor (startBackfill {} next.store)
            (outcome.isReturned, outcome.store.ids))) =
        some (true, ["2|sig|claimed", "1|sig|discovered"]) := by decide +kernel
  rw [hNext, Option.map_some, Option.some.injEq, Prod.mk.injEq] at hWhole hFinal
  rcases completed_of_isReturned hWhole.1 with ⟨result, hWholeRun⟩
  rcases completed_of_isReturned hFinal.1 with ⟨result', hFinalRun⟩
  exact ⟨result, _, next.store, result', _, .later hRound hWholeRun,
    .later hRound (.beforeSave next), hFinalRun, hWhole.2, hFinal.2⟩

end

end AgencCore.Replay
