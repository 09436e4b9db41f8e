import AgencCore.Foundations.Paging
import AgencCore.Foundations.SortedLog
import AgencCore.Replay.Record

/-
  The in-memory replay store.

  The store keeps the records in the order in which they were saved, with the keys it has seen, and
  drops a record whose key it has seen.
-/

namespace AgencCore.Replay

open Foundations List
open Eval

structure ReplayEventCursor where
  slot : Int
  signature : String
  eventName : Option String := none
  traceId : Option String := none
  traceSpanId : Option String := none
deriving DecidableEq

def stableReplayCursorString : Option ReplayEventCursor → String
| none => ""
| some cursor =>
  let base := toString cursor.slot ++ ":" ++ cursor.signature ++ ":" ++ cursor.eventName.getD ""
  if truthy cursor.traceId = none ∧ truthy cursor.traceSpanId = none then base
  else base ++ ":" ++ cursor.traceId.getD "" ++ ":" ++ cursor.traceSpanId.getD ""

structure ReplayStorageWriteResult where
  inserted : Nat
  duplicates : Nat
deriving DecidableEq

/- The keys seen are those of the records that are kept. -/
structure InMemoryReplayTimelineStore where
  events : List ReplayTimelineRecord
  ids : List String
  cursor : Option ReplayEventCursor
  ids_eq : ids = events.map ReplayTimelineRecord.key
  ids_nodup : ids.Nodup

namespace InMemoryReplayTimelineStore

/- The store before anything is saved, or after `clear`. -/
def empty : InMemoryReplayTimelineStore :=
  { events := [], ids := [], cursor := none, ids_eq := rfl, ids_nodup := nodup_nil }

/- Keep a record whose key is new. -/
def push (store : InMemoryReplayTimelineStore) (record : ReplayTimelineRecord)
    (hNew : record.key ∉ store.ids) : InMemoryReplayTimelineStore :=
  { store with
    events := store.events ++ [record], ids := store.ids ++ [record.key]
    ids_eq := by simp [store.ids_eq], ids_nodup := by simpa using store.ids_nodup.concat hNew }

/- The loop over the records, with its two counters. -/
def saveLoop : List ReplayTimelineRecord → InMemoryReplayTimelineStore → ReplayStorageWriteResult →
      InMemoryReplayTimelineStore × ReplayStorageWriteResult
| [], store, result => (store, result)
| record :: rest, store, result =>
  if hSeen : record.key ∈ store.ids then
    saveLoop rest store { result with duplicates := result.duplicates + 1 }
  else saveLoop rest (store.push record hSeen) { result with inserted := result.inserted + 1 }

def save (store : InMemoryReplayTimelineStore) (records : List ReplayTimelineRecord) :
    InMemoryReplayTimelineStore × ReplayStorageWriteResult :=
  saveLoop records store { inserted := 0, duplicates := 0 }

def saveCursor (store : InMemoryReplayTimelineStore) (cursor : Option ReplayEventCursor) :
    InMemoryReplayTimelineStore := { store with cursor := cursor }

theorem saveLoop_spec (records : List ReplayTimelineRecord) (store : InMemoryReplayTimelineStore)
    (result : ReplayStorageWriteResult) :
    (saveLoop records store result).1.events =
        insertAll ReplayTimelineRecord.key store.events records ∧
      (saveLoop records store result).1.cursor = store.cursor ∧
      (saveLoop records store result).2.inserted + store.events.length =
        result.inserted + (saveLoop records store result).1.events.length ∧
      (saveLoop records store result).2.inserted + (saveLoop records store result).2.duplicates =
        result.inserted + result.duplicates + records.length := by
  induction records generalizing store result with
  | nil => simp [saveLoop]
  | cons record rest ih =>
    unfold saveLoop
    split
    · next hSeen =>
        have hOld : insertNew ReplayTimelineRecord.key store.events record = store.events :=
          if_pos (by rw [← store.ids_eq]; exact hSeen)
        rcases ih store _ with ⟨hEvents, hCursor, hInserted, hTotal⟩
        rw [insertAll_cons, hOld]
        refine ⟨hEvents, hCursor, hInserted, ?_⟩
        rw [hTotal, length_cons]
        dsimp only
        omega
    · next hNew =>
        have hPushed : insertNew ReplayTimelineRecord.key
            store.events record = (store.push record hNew).events :=
          if_neg (by rw [← store.ids_eq]; exact hNew)
        rcases ih (store.push record hNew) _ with ⟨hEvents, hCursor, hInserted, hTotal⟩
        rw [insertAll_cons, hPushed]
        refine ⟨hEvents, hCursor, ?_, ?_⟩
        · simp only [push, length_append, length_singleton] at hInserted ⊢
          omega
        · rw [hTotal, length_cons]
          dsimp only
          omega

/- Saving inserts the records into the log of events. -/
theorem events_save (store : InMemoryReplayTimelineStore) (records : List ReplayTimelineRecord) :
    (store.save records).1.events = insertAll ReplayTimelineRecord.key store.events records :=
  (saveLoop_spec records store _).1

@[simp] theorem cursor_save (store : InMemoryReplayTimelineStore)
    (records : List ReplayTimelineRecord) : (store.save records).1.cursor = store.cursor :=
  (saveLoop_spec records store _).2.1

/- No duplicate is counted for records with new keys. -/
theorem duplicates_save_empty_iff (records : List ReplayTimelineRecord) :
    (empty.save records).2.duplicates = 0 ↔ (records.map ReplayTimelineRecord.key).Nodup := by
  rcases saveLoop_spec records empty { inserted := 0, duplicates := 0 } with
    ⟨hEvents, _, hInserted, hTotal⟩
  rw [hEvents] at hInserted
  rw [← length_insertAll_empty_iff]
  simp only [save, empty, length_nil] at *
  omega

theorem mem_ids_savePages (pages : List (List ReplayTimelineRecord))
    (store : InMemoryReplayTimelineStore) (key : String) :
    key ∈ (pages.foldl (fun store page => (store.save page).1) store).ids ↔
      key ∈ store.ids ∨ key ∈ pages.flatten.map ReplayTimelineRecord.key := by
  induction pages generalizing store with
  | nil => simp
  | cons page pages ih =>
    rw [foldl_cons, ih, ids_eq, ids_eq, events_save, mem_keys_insertAll, flatten_cons,
      map_append, mem_append, or_assoc]

theorem saveLoop_seen {store : InMemoryReplayTimelineStore} {records : List ReplayTimelineRecord}
    (hSeen : ∀ record ∈ records, record.key ∈ store.ids) (result : ReplayStorageWriteResult) :
    saveLoop records store result =
      (store, { result with duplicates := result.duplicates + records.length }) := by
  induction records generalizing result with
  | nil => rfl
  | cons record rest ih =>
    rw [forall_mem_cons] at hSeen
    rw [saveLoop, dif_pos hSeen.1, ih hSeen.2, length_cons, Nat.add_assoc, Nat.add_comm 1]

/- Whatever part of the saved pages comes once more, nothing of it is inserted. -/
theorem resaved_pages_ignored (store : InMemoryReplayTimelineStore)
    (pages : List (List ReplayTimelineRecord)) (chosen : ReplayTimelineRecord → Bool) :
    let saved := pages.foldl (fun store page => (store.save page).1) store
    saved.save (pages.flatten.filter chosen) =
      (saved, ⟨0, (pages.flatten.filter chosen).length⟩) := by
  intro saved
  rw [save, saveLoop_seen, Nat.zero_add]
  intro record hMem
  exact (mem_ids_savePages pages store _).mpr
    (.inr (mem_map_of_mem (mem_of_mem_filter hMem)))

end InMemoryReplayTimelineStore

----------
-- Queries
----------

section

structure ReplayTimelineQuery where
  taskPda : Option String := none
  disputePda : Option String := none
  fromSlot : Option JsNumber := none
  toSlot : Option JsNumber := none
  fromTimestampMs : Option JsNumber := none
  toTimestampMs : Option JsNumber := none
  limit : Option JsNumber := none
  offset : Option JsNumber := none

/- An empty text counts as no filter. -/
def passesFilter (event : ReplayTimelineRecord) (filter : ReplayTimelineQuery) : Bool :=
  let slot := JsNumber.ofInt event.slot
  let timestampMs := event.timestampMs
  (truthy filter.taskPda).all (fun taskPda => event.taskPda = some taskPda) &&
    (truthy filter.disputePda).all (fun disputePda => event.disputePda = some disputePda) &&
    filter.fromSlot.all (fun fromSlot => !JsNumber.lt slot fromSlot) &&
    filter.toSlot.all (fun toSlot => !JsNumber.lt toSlot slot) &&
    filter.fromTimestampMs.all (fun fromTimestampMs => !JsNumber.lt timestampMs fromTimestampMs) &&
    filter.toTimestampMs.all (fun toTimestampMs => !JsNumber.lt toTimestampMs timestampMs)

variable (host : EvalHost)

def compareRecords (left right : ReplayTimelineRecord) : Ordering :=
  if left.slot ≠ right.slot then compare left.slot right.slot
  else if left.signature ≠ right.signature then
    host.text.localeCompare left.signature right.signature
  else if left.seq ≠ right.seq then compare left.seq right.seq
  else host.text.localeCompare left.sourceEventType right.sourceEventType

def sortReplayEvents (events : List ReplayTimelineRecord) : List ReplayTimelineRecord :=
  sortBy (compareRecords host) events

/- A bound of `slice`: the integer part of a number, counted from the end if it is negative. -/
def sliceBound (length : Nat) : JsNumber → Nat
| .nan => 0
| .negInf => 0
| .posInf => length
| .finite q =>
  let bound := q.num.tdiv q.den
  if bound < 0 then (length + bound).toNat
  else min bound.toNat length

/- `l.slice(first, last)` -/
def slice {α : Type} (first last : JsNumber) (l : List α) : List α :=
  window (sliceBound l.length first) (sliceBound l.length last) l

@[simp] theorem sliceBound_ofNat (length n : Nat) :
    sliceBound length (.ofInt n) = min n length := by
  simp only [sliceBound, JsNumber.ofInt, Rat.num_intCast,
    Rat.den_intCast, Nat.cast_one, Int.tdiv_one]
  rw [if_neg (by omega), Int.toNat_natCast]

theorem slice_all {α : Type} (l : List α) : slice (.ofInt 0) (.ofInt l.length) l = l := by
  have hFirst : sliceBound l.length (.ofInt 0) = 0 :=
    (sliceBound_ofNat l.length 0).trans (Nat.zero_min _)
  rw [slice, hFirst, sliceBound_ofNat, Nat.min_self, window, take_length, drop_zero]

/- The bounds of the slice, among so many matches. -/
def ReplayTimelineQuery.sliceStart (filter : ReplayTimelineQuery) : JsNumber :=
  filter.offset.getD (.ofInt 0)

def ReplayTimelineQuery.sliceEnd (filter : ReplayTimelineQuery) (count : Nat) : JsNumber :=
  match filter.limit with
  | none => .ofInt count
  | some limit => filter.sliceStart.add limit

def InMemoryReplayTimelineStore.query (store : InMemoryReplayTimelineStore)
    (filter : ReplayTimelineQuery) : List ReplayTimelineRecord :=
  let all := sortReplayEvents host (store.events.filter (fun event => passesFilter event filter))
  slice filter.sliceStart (filter.sliceEnd all.length) all

/- Reading page after page gives every match once and in the order of one query. -/
theorem pages_cover_query (store : InMemoryReplayTimelineStore) (filter : ReplayTimelineQuery)
    (size count : Nat) :
    (List.range count).flatMap (fun page => store.query host
        { filter with limit := some (.ofInt size), offset := some (.ofInt (page * size : Nat)) }) =
      (store.query host { filter with limit := none, offset := none }).take (count * size) := by
  set all := sortReplayEvents host (store.events.filter (fun event => passesFilter event filter))
  have hQuery : store.query host { filter with limit := none, offset := none } = all := slice_all all
  rw [hQuery, ← flatMap_window]
  refine flatMap_congr fun page _ => ?_
  change slice (.ofInt (page * size : Nat)) (JsNumber.add (.ofInt (page * size : Nat))
    (.ofInt size)) all = _
  rw [JsNumber.add_ofInt, ← Nat.cast_add, slice, sliceBound_ofNat, sliceBound_ofNat, window_min]

end

end AgencCore.Replay
