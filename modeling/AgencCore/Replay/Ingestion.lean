import AgencCore.Replay.Store

/-
  The two ways events reach a replay store.

  `ReplayEventBridge.ingest` projects one event at a time as it is observed. `runBackfill` projects
  a page of past events at a time, saves the page, and then saves the cursor of the next page. The
  alerts and spans that both emit are left out.
-/

namespace AgencCore.Replay

open Foundations
open Eval

structure ReplayBridgeConfig where
  traceId : String := "runtime-replay-bridge"
  projectionSeed : Int := 0
  strictProjection : Bool := false
  tracingTraceId : Option String := none
  traceSampleRate : JsNumber := 1

structure ReplayEventBridge where
  store : InMemoryReplayTimelineStore
  sourceEventLastSlot : OrderedMap String Int

def strictTelemetryErrors (telemetry : ProjectionTelemetry) : List String :=
  telemetry.malformedInputs.map ("malformed:" ++ ·) ++
    telemetry.unknownEvents.map ("unknown:" ++ ·) ++
    telemetry.transitionConflicts.map ("transition:" ++ ·)

namespace ReplayEventBridge

def empty : ReplayEventBridge :=
  { store := InMemoryReplayTimelineStore.empty, sourceEventLastSlot := OrderedMap.empty }

/- Remember the highest slot seen for an event name. -/
def noteSlot (bridge : ReplayEventBridge) (input : OnChainProjectionInput) : ReplayEventBridge :=
  match bridge.sourceEventLastSlot.get? input.eventName with
  | some previousSlot =>
    if previousSlot ≤ input.slot then
      { bridge with
        sourceEventLastSlot := bridge.sourceEventLastSlot.set input.eventName input.slot }
    else bridge
  | none =>
    { bridge with sourceEventLastSlot := bridge.sourceEventLastSlot.set input.eventName input.slot }

variable (host : EvalHost)
variable (config : ReplayBridgeConfig)

def traced (input : OnChainProjectionInput) : OnChainProjectionInput :=
  { input with
    traceContext := some (input.traceContext.getD
      (buildReplayTraceContext host (some (config.tracingTraceId.getD config.traceId))
        input.eventName input.slot input.signature (input.sourceEventSequence.getD 0)
        config.traceSampleRate)) }

/-
  Project one event and save its records. In strict mode the call throws after the records are
  saved.
-/
def ingest (bridge : ReplayEventBridge) (input : OnChainProjectionInput) :
    ReplayEventBridge × Option String :=
  let noted := bridge.noteSlot input
  match
    projectOnChainEvents host [traced host config input]
      { traceId := some config.traceId, seed := some config.projectionSeed } with
  | .error message => (noted, some message)
  | .ok projection => let records := projection.events.map (toReplayStoreRecord host)
      if records.isEmpty then (noted, none)
      else let saved := { noted with store := (noted.store.save records).1 }
        let issues := strictTelemetryErrors projection.telemetry
        if config.strictProjection ∧ issues ≠ [] then
          (saved, some ("Replay projection strict mode failed: " ++ "; ".intercalate issues))
        else (saved, none)

def ingestAll (bridge : ReplayEventBridge) (inputs : List OnChainProjectionInput) :
    ReplayEventBridge :=
  inputs.foldl (fun bridge input => (ingest host config bridge input).1) bridge

end ReplayEventBridge

----------
-- Backfill
----------

section

structure BackfillFetcherPage where
  events : List OnChainProjectionInput
  nextCursor : Option ReplayEventCursor
  done : Bool

structure TracePolicy where
  traceId : Option String := none
  sampleRate : JsNumber := 1

/- The variables of the loop, with the store. -/
structure BackfillState where
  store : InMemoryReplayTimelineStore
  cursor : Option ReplayEventCursor
  traceId : String
  processed : Nat
  duplicates : Nat
  duplicateKeys : List String
  previousCursor : String
  globalSequenceOffset : Nat

structure BackfillResult where
  processed : Nat
  duplicates : Nat
  cursor : Option ReplayEventCursor
  duplicateReport : Option (Nat × List String)
deriving DecidableEq

/- How a run over the pages fetched so far stands. -/
inductive BackfillOutcome where
  | returned (result : BackfillResult) (store : InMemoryReplayTimelineStore)
  | thrown (message : String) (store : InMemoryReplayTimelineStore)
  | running (state : BackfillState)

def BackfillOutcome.store : BackfillOutcome → InMemoryReplayTimelineStore
| .returned _ store => store
| .thrown _ store => store
| .running state => state.store

/- A cursor that a run can resume from. -/
def ReplayEventCursor.isValid (cursor : ReplayEventCursor) : Bool :=
  decide (0 ≤ cursor.slot ∧ cursor.signature ≠ "")

def BackfillState.result (state : BackfillState) : BackfillResult :=
  { processed := state.processed, duplicates := state.duplicates, cursor := state.cursor
    duplicateReport := if state.duplicateKeys = [] then none
      else some (state.duplicates, sortBy compareCodeUnits state.duplicateKeys) }

/- An invalid cursor is dropped, in the store as well. -/
def startBackfill (policy : TracePolicy) (store : InMemoryReplayTimelineStore) : BackfillState :=
  let cursor := store.cursor.filter ReplayEventCursor.isValid
  { store := if cursor = store.cursor then store
      else store.saveCursor none, cursor := cursor
    traceId := policy.traceId.getD
      ((store.cursor.bind (·.traceId)).getD "replay-backfill"), processed := 0
    duplicates := 0, duplicateKeys := [], previousCursor := stableReplayCursorString store.cursor
    globalSequenceOffset := 0 }

variable (host : EvalHost)
variable (policy : TracePolicy)

/- The events of a page, numbered and traced. -/
def pageInputs (state : BackfillState) (page : BackfillFetcherPage) : List OnChainProjectionInput :=
  page.events.mapIdx (fun index event =>
    let sequence : Int := event.sourceEventSequence.getD (state.globalSequenceOffset + index : Nat)
    { event with
      sourceEventSequence := some sequence
      traceContext := some (event.traceContext.getD
        (buildReplayTraceContext host (some state.traceId)
          event.eventName event.slot event.signature sequence policy.sampleRate)) })

def savePage (state : BackfillState) (page : BackfillFetcherPage) : Except String BackfillState :=
  if page.events.isEmpty then .ok state
  else do
    let projection ← projectOnChainEvents host (pageInputs host policy state page)
      { traceId := some state.traceId, seed := some 0 }
    let records := projection.events.map (toReplayStoreRecord host)
    let saved := state.store.save records
    .ok { state with
      store := saved.1, processed := state.processed + saved.2.inserted
      duplicates := state.duplicates + saved.2.duplicates
      duplicateKeys :=
        if 0 < saved.2.duplicates ∧ saved.2.inserted = 0 then
          state.duplicateKeys ++ records.map ReplayTimelineRecord.key
        else state.duplicateKeys }

def savedCursor (state : BackfillState) (page : BackfillFetcherPage) : Option ReplayEventCursor :=
  let lastTraceSpanId :=
    match (pageInputs host policy state page).getLast? with
    | some event => event.traceContext.map (·.spanId)
    | none => state.cursor.bind (·.traceSpanId)
  page.nextCursor.map (fun cursor =>
    { cursor with
      traceId := some state.traceId, traceSpanId := cursor.traceSpanId.or lastTraceSpanId })

/- The run goes on from the cursor as it was fetched. -/
def advanceCursor (state : BackfillState) (page : BackfillFetcherPage) : BackfillState :=
  { state with
    store := state.store.saveCursor (savedCursor host policy state page), cursor := page.nextCursor
    globalSequenceOffset := state.globalSequenceOffset + page.events.length }

/- What is decided once the cursor has been saved. -/
def finishPage (state : BackfillState) (page : BackfillFetcherPage) : BackfillOutcome :=
  let nextCursor := stableReplayCursorString state.cursor
  if page.done then .returned state.result state.store
  else if page.events.isEmpty ∧ nextCursor = state.previousCursor then
    .thrown "replay backfill stalled: cursor did not advance" state.store
  else .running { state with previousCursor := nextCursor }

/- One round of the loop. -/
def backfillPage (state : BackfillState) (page : BackfillFetcherPage) : BackfillOutcome :=
  match savePage host policy state page with
  | .error message => .thrown message state.store
  | .ok saved => finishPage (advanceCursor host policy saved page) page

/- The loop over the pages that the fetcher returns. -/
def runPages : List BackfillFetcherPage → BackfillState → BackfillOutcome
| [], state => .running state
| page :: rest, state =>
  match backfillPage host policy state page with
  | .running next => runPages rest next
  | outcome => outcome

def runBackfill (store : InMemoryReplayTimelineStore)
    (pages : List BackfillFetcherPage) : BackfillOutcome :=
  runPages host policy pages (startBackfill policy store)

end

end AgencCore.Replay
