import AgencCore.Eval.Distinct
import AgencCore.Replay.Store

/-
  Two notions of the same event.

  The projector drops an event whose slot, signature, name and payload it has seen. A store drops a
  record whose slot, signature and type it has seen. A store keeps every event of a projection
  exactly when events with equal slot, signature and type also have equal name and payload.
-/

namespace AgencCore.Replay

open Foundations List
open Eval

section

variable (host : EvalHost)

/- The records of the events projected from a batch. -/
def pageRecords (inputs : List OnChainProjectionInput) : List ReplayTimelineRecord :=
  ((distinctEntries host inputs).mapIdx (returnedEvent host)).map (toReplayStoreRecord host)

/- The key of the record of an accepted input. -/
def inputKey (input : OnChainProjectionInput) : String :=
  buildReplayKey input.slot input.signature input.typeText

theorem known_of_accepted {input : OnChainProjectionInput} (hAccepted : input.accepted = true) :
    input.known?.isSome = true := by
  unfold OnChainProjectionInput.accepted at hAccepted
  rw [Bool.and_eq_true] at hAccepted
  exact hAccepted.2

theorem key_returnedEvent {entry : Entry} (hAccepted : entryAccepted entry = true) (index : Nat) :
    (toReplayStoreRecord host (returnedEvent host index entry)).key = inputKey entry.2.input := by
  rcases Option.isSome_iff_exists.mp (known_of_accepted hAccepted) with ⟨name, hName⟩
  simp [ReplayTimelineRecord.key, toReplayStoreRecord,
    returnedEvent, entryEvent, projectedEvent, inputKey, OnChainProjectionInput.typeText, hName]

variable {host}

theorem accepted_of_mem_distinctEntries {inputs : List OnChainProjectionInput} {entry : Entry}
    (hEntry : entry ∈ distinctEntries host inputs) :
    entry ∈ entriesOf host inputs ∧ entryAccepted entry = true := by
  rcases mem_of_mem_insertAll entryPrint hEntry with hOld | hNew
  · cases hOld
  · exact mem_filter.mp hNew

theorem keys_pageRecords (inputs : List OnChainProjectionInput) :
    (pageRecords host inputs).map ReplayTimelineRecord.key =
      (distinctEntries host inputs).map (fun entry => inputKey entry.2.input) := by
  apply ext_getElem?
  intro index
  simp only [pageRecords, List.getElem?_map, List.getElem?_mapIdx, Option.map_map]
  cases hGet : (distinctEntries host inputs)[index]? with
  | none => rfl
  | some entry =>
    have hAccepted := (accepted_of_mem_distinctEntries (mem_of_getElem? hGet)).2
    simp [key_returnedEvent host hAccepted]

/- The entries hold the inputs, in the sorted order. -/
theorem inputs_entriesOf_perm (host : EvalHost) (inputs : List OnChainProjectionInput) :
    ((entriesOf host inputs).map (·.2.input)).Perm inputs := by
  have hItems : (entriesOf host inputs).map Prod.snd = sortInputs host inputs :=
    map_mapIdx_eq_self _ _ (fun _ _ => rfl) _
  have hMap : (entriesOf host inputs).map (·.2.input) =
        (sortInputs host inputs).map (·.input) := by
    rw [← hItems, map_map]
    rfl
  have hInputs :
      (inputs.mapIdx (fun index input =>
        sortedItem host input index)).map (·.input) = inputs :=
    map_mapIdx_eq_self _ _ (fun _ _ => rfl) _
  rw [hMap]
  nth_rewrite 2 [← hInputs]
  exact (sortBy_perm _ _).map _

/- What tells two events apart: slot, signature and type. -/
def identity (input : OnChainProjectionInput) : Int × String × String :=
  (input.slot, input.signature, input.typeText)

variable {host : EvalHost}
variable {a b : OnChainProjectionInput}

theorem identity_of_inputKey_eq (hA : a.known?.isSome = true)
    (hB : b.known?.isSome = true) (hEq : inputKey a = inputKey b) : identity a = identity b := by
  have hBar : ∀ input : OnChainProjectionInput,
        input.known?.isSome = true → '|' ∉ input.typeText.toList := by
    intro input hKnown
    rcases Option.isSome_iff_exists.mp hKnown with ⟨name, hName⟩
    unfold OnChainProjectionInput.typeText
    rw [hName]
    exact bar_not_mem_type name
  rcases buildReplayKey_inj (hBar a hA) (hBar b hB) hEq with ⟨hSlot, hSignature, hType⟩
  simp [identity, hSlot, hSignature, hType]

/- Equal fingerprints are about the same event. -/
theorem identity_of_fingerprint_eq
    (hEq : buildFingerprint host a = buildFingerprint host b) : identity a = identity b := by
  simp only [buildFingerprint, Fingerprint.mk.injEq] at hEq
  rcases hEq with ⟨hSlot, hSignature, hName, _⟩
  simp [identity, hSlot, hSignature, OnChainProjectionInput.typeText,
    OnChainProjectionInput.known?, hName]

----------
-- What A Store Keeps Of A Projection
----------

/- Accepted inputs that a store confuses are one event. -/
def OneEventPerKey (host : EvalHost) (inputs : List OnChainProjectionInput) : Prop :=
  ∀ a ∈ inputs, ∀ b ∈ inputs, a.accepted = true → b.accepted = true →
      identity a = identity b → buildFingerprint host a = buildFingerprint host b

variable {inputs : List OnChainProjectionInput}

theorem inputKey_eq_of_identity_eq (hEq : identity a = identity b) : inputKey a = inputKey b := by
  simp only [identity, Prod.mk.injEq] at hEq
  rcases hEq with ⟨hSlot, hSignature, hType⟩
  simp [inputKey, hSlot, hSignature, hType]

theorem entryPrint_of_mem_entriesOf {entry : Entry} (hEntry : entry ∈ entriesOf host inputs) :
    entry.2.input ∈ inputs ∧ entryPrint entry = buildFingerprint host entry.2.input := by
  rcases mem_of_mem_entriesOf hEntry with ⟨index, hInput, hItem⟩
  refine ⟨mem_of_getElem? hInput, ?_⟩
  unfold entryPrint
  rw [hItem]
  rfl

theorem exists_distinct_entry {input : OnChainProjectionInput} (hInput : input ∈ inputs)
    (hAccepted : input.accepted = true) :
    ∃ entry ∈ distinctEntries host inputs, entryPrint entry = buildFingerprint host input := by
  have hHeld : input ∈ (entriesOf host inputs).map (·.2.input) :=
    (inputs_entriesOf_perm host inputs).mem_iff.mpr hInput
  rcases mem_map.mp hHeld with ⟨entry, hEntry, hEq⟩
  have hKept : entry ∈ (entriesOf host inputs).filter entryAccepted := by
    refine mem_filter.mpr ⟨hEntry, ?_⟩
    unfold entryAccepted
    rw [hEq]
    exact hAccepted
  have hPrint : entryPrint entry ∈ (distinctEntries host inputs).map entryPrint :=
    (mem_keys_insertAll entryPrint [] _ _).mpr (Or.inr (mem_map_of_mem hKept))
  rcases mem_map.mp hPrint with ⟨kept, hIn, hSame⟩
  refine ⟨kept, hIn, ?_⟩
  rw [hSame, (entryPrint_of_mem_entriesOf hEntry).2, hEq]

/- The records of a projection have distinct keys. -/
theorem nodup_keys_pageRecords_iff :
    ((pageRecords host inputs).map ReplayTimelineRecord.key).Nodup ↔
      OneEventPerKey host inputs := by
  rw [keys_pageRecords]
  constructor
  · intro hNodup a ha b hb hAcceptedA hAcceptedB hSame
    rcases exists_distinct_entry ha hAcceptedA with ⟨entryA, hInA, hPrintA⟩
    rcases exists_distinct_entry hb hAcceptedB with ⟨entryB, hInB, hPrintB⟩
    have hKeep : ∀ entry ∈ distinctEntries host inputs, ∀ input : OnChainProjectionInput,
            entryPrint entry = buildFingerprint host input →
              identity entry.2.input = identity input := by
      intro entry hEntry input hPrint
      have hOwn := (entryPrint_of_mem_entriesOf (accepted_of_mem_distinctEntries hEntry).1).2
      exact identity_of_fingerprint_eq (hOwn.symm.trans hPrint)
    have hKeys : inputKey entryA.2.input = inputKey entryB.2.input :=
      inputKey_eq_of_identity_eq
        ((hKeep entryA hInA a hPrintA).trans (hSame.trans (hKeep entryB hInB b hPrintB).symm))
    have hEntries : entryA = entryB := inj_on_of_nodup_map hNodup hInA hInB hKeys
    rw [← hPrintA, ← hPrintB, hEntries]
  · intro hOne
    have hPrints : ((distinctEntries host inputs).map entryPrint).Nodup :=
      nodup_keys_insertAll entryPrint (by simp) _
    rw [List.Nodup, pairwise_map] at hPrints ⊢
    apply hPrints.imp_of_mem
    intro a b ha hb hNe hKeys
    rcases accepted_of_mem_distinctEntries ha with ⟨hMemA, hAcceptedA⟩
    rcases accepted_of_mem_distinctEntries hb with ⟨hMemB, hAcceptedB⟩
    rcases entryPrint_of_mem_entriesOf hMemA with ⟨hInA, hPrintA⟩
    rcases entryPrint_of_mem_entriesOf hMemB with ⟨hInB, hPrintB⟩
    apply hNe
    rw [hPrintA, hPrintB]
    exact hOne _ hInA _ hInB hAcceptedA hAcceptedB
      (identity_of_inputKey_eq (known_of_accepted hAcceptedA) (known_of_accepted hAcceptedB) hKeys)

/-
  The records of a projection, saved into an empty store: no duplicate is reported, and the store
  holds them all, exactly when accepted inputs with equal slot, signature and type have equal name
  and payload.
-/
theorem store_keeps_events_iff (host : EvalHost) {inputs : List OnChainProjectionInput}
    {options : ProjectionOptions} {result : ProjectionResult}
    (hOk : projectOnChainEvents host inputs options = .ok result) :
    ((InMemoryReplayTimelineStore.empty.save
        (result.events.map (toReplayStoreRecord host))).2.duplicates = 0 ↔
        OneEventPerKey host inputs) ∧
      ((InMemoryReplayTimelineStore.empty.save
          (result.events.map (toReplayStoreRecord host))).1.events =
          result.events.map (toReplayStoreRecord host) ↔ OneEventPerKey host inputs) := by
  have hRecords : result.events.map (toReplayStoreRecord host) = pageRecords host inputs := by
    rw [events_projectOnChainEvents hOk]
    rfl
  rw [hRecords, ← nodup_keys_pageRecords_iff]
  constructor
  · exact InMemoryReplayTimelineStore.duplicates_save_empty_iff _
  · rw [InMemoryReplayTimelineStore.events_save]
    exact insertAll_empty_eq_iff _ _

/- A task is created in the transaction with the given signature. -/
def sampleCreated
    (signature : String)
    (taskByte : UInt8) : OnChainProjectionInput :=
  { eventName := "taskCreated"
    event := .object [("taskId", .bytes (List.replicate 32 taskByte))]
    slot := 1
    signature := signature }

/- Two transactions of one slot create a task each: both events are kept. -/
theorem two_transactions_kept :
    ∃ result,
      projectOnChainEvents EvalHost.basic [sampleCreated "a" 1, sampleCreated "b" 2] {} =
          .ok result ∧
        (InMemoryReplayTimelineStore.empty.save
          (result.events.map (toReplayStoreRecord EvalHost.basic))).2.duplicates = 0 ∧
        (InMemoryReplayTimelineStore.empty.save
          (result.events.map (toReplayStoreRecord EvalHost.basic))).1.events =
            result.events.map (toReplayStoreRecord EvalHost.basic) := by
  have hReturns : ∃ result, projectOnChainEvents EvalHost.basic
      [sampleCreated "a" 1, sampleCreated "b" 2] {} = .ok result := by
    refine projectOnChainEvents_returns (fun input hInput hName => ?_) rfl
    have hCreated : ∀ input ∈ [sampleCreated "a" 1, sampleCreated "b" 2],
        input.known? ≠ some .disputeVoteCast := by decide +kernel
    exact absurd hName (hCreated input hInput)
  have hOne : OneEventPerKey EvalHost.basic [sampleCreated "a" 1, sampleCreated "b" 2] := by
    unfold OneEventPerKey
    decide +kernel
  rcases hReturns with ⟨result, hOk⟩
  have hKept := store_keeps_events_iff EvalHost.basic hOk
  exact ⟨result, hOk, hKept.1.mpr hOne, hKept.2.mpr hOne⟩

/-
  A transaction that creates two tasks emits two events with the same slot, signature and type; the
  second is lost.
-/
theorem second_task_of_transaction_lost :
    (projectOnChainEvents EvalHost.basic [sampleCreated "sig" 1, sampleCreated "sig" 2] {}).toOption.map
      (fun result =>
        (result.events.length,
          (InMemoryReplayTimelineStore.empty.save
            (result.events.map (toReplayStoreRecord EvalHost.basic))).2)) =
      some (2, { inserted := 1, duplicates := 1 }) := by decide +kernel

end

end AgencCore.Replay
