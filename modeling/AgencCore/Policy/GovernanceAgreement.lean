import AgencCore.Policy.GovernanceHistory

/-
  The two audit logs side by side.

  Both logs get the same configuration, the same steps and the same clock. The one in memory takes
  the next number from the newest record it still has, the other one from its manifest. They agree
  as long as the one in memory has a record left whenever it needs one.
-/

namespace AgencCore.Policy

open Foundations Eval List

section

structure BothLogs where
  memory : InMemoryLog
  store : AuditStore

def BothLogs.empty : BothLogs := ⟨InMemoryLog.empty, AuditStore.empty⟩

inductive SharedStep where
  | append (event : GovernanceAuditEvent) (readings : ClockReadings)
  | prune (readings : ClockReadings)

def SharedStep.readings : SharedStep → ClockReadings
| .append _ readings => readings
| .prune readings => readings

/- What the two logs return for an append. -/
abbrev AppendResults := Except String GovernanceAuditRecord × Except String GovernanceAuditRecord

variable (host : GovernanceHost)
variable (settings : LogSettings)

def BothLogs.append (s : BothLogs) (event : GovernanceAuditEvent) (readings : ClockReadings) :
    AppendResults × BothLogs :=
  let first := InMemoryLog.append host settings readings event s.memory
  let second := MemoryBackedLog.append settings host readings event s.store
  ((first.1, second.1), ⟨first.2, second.2⟩)

def BothLogs.step (s : BothLogs) : SharedStep → BothLogs
| .append event readings => (s.append host settings event readings).2
| .prune readings =>
  ⟨(s.memory.prune settings readings.pruned).2, (MemoryBackedLog.prune settings readings s.store).2⟩

/- What the appends of a run return. -/
def appendResults : BothLogs → List SharedStep → List AppendResults
| _, [] => []
| s, .append event readings :: rest =>
  (s.append host settings event readings).1 ::
    appendResults (s.step host settings (.append event readings)) rest
| s, .prune readings :: rest => appendResults (s.step host settings (.prune readings)) rest

/- Both logs fail, or both return a record of one chain. -/
def SameRecord : AppendResults → Prop
| (.ok a, .ok b) =>
  a.seq = b.seq ∧ a.prevRecordHash = b.prevRecordHash ∧ a.recordHash = b.recordHash
| (.error a, .error b) => a = b
| _ => False

def returnedSeqs (results : List (Except String GovernanceAuditRecord)) : List Nat :=
  results.filterMap (fun result => result.toOption.map (·.seq))

/- The logs return the same, with increasing numbers. -/
structure LogsAgree (results : List AppendResults) : Prop where
  same : ∀ result ∈ results, SameRecord result
  memory : (returnedSeqs (results.map Prod.fst)).Pairwise (· < ·)
  store : (returnedSeqs (results.map Prod.snd)).Pairwise (· < ·)

/- The log in memory has a record left when it builds one, or no record has been built before. -/
def KnowsNextSeq (s : BothLogs) : SharedStep → Prop
| .append event readings =>
  (event.timestamp.or (host.toISOString readings.built)).isSome = true →
    s.memory.lastSeq.isSome = true ∨ (s.store.manifestOr settings).nextSeq = 1
| .prune _ => True

/- The readings of a run, in their order. -/
def clockTimes (steps : List SharedStep) : List JsNumber :=
  steps.flatMap (fun step =>
    [step.readings.opened, step.readings.applied, step.readings.built, step.readings.saved,
      step.readings.pruned])

/- The clock shows finite times and never goes back. -/
structure ClockForward (steps : List SharedStep) : Prop where
  finite : ∀ time ∈ clockTimes steps, time.isFinite = true
  ordered : (clockTimes steps).Pairwise (fun time later => time.le later = true)

instance (steps : List SharedStep) : Decidable (ClockForward steps) :=
  decidable_of_iff
    ((∀ time ∈ clockTimes steps, time.isFinite = true) ∧
      (clockTimes steps).Pairwise (fun time later => time.le later = true))
    ⟨fun h => ⟨h.1, h.2⟩, fun h => ⟨h.finite, h.ordered⟩⟩

----------
-- The Stored Log
----------

/- A manifest whose active records are there. -/
structure ReadyManifest (settings : LogSettings) (manifest : GovernanceAuditManifest)
    (records : OrderedMap Nat StoredRecord) : Prop where
  modes : ModesOf settings manifest
  stored : ∀ seq ∈ manifest.activeSeqs, (records.get? seq).isSome = true

structure StoreReady (settings : LogSettings) (store : AuditStore) : Prop where
  readable : ∀ manifest ∈ store.manifest, manifest.updatedAt.isFinite = true
  ready : ∀ manifest ∈ store.manifest, ReadyManifest settings manifest store.records

/- The number and the link of the next record. -/
structure Continues (nextSeq : Nat) (lastRecordHash : String)
    (manifest : GovernanceAuditManifest) : Prop where
  nextSeq : manifest.nextSeq = nextSeq
  last : manifest.lastRecordHash = lastRecordHash

variable {host : GovernanceHost}
variable {settings : LogSettings}
variable {store : AuditStore}
variable (hStore : StoreReady settings store)
include hStore

theorem StoreReady.openManifest (readings : ClockReadings) : ∃ manifest,
      MemoryBackedLog.openManifest settings readings store = (.ok manifest, store) ∧
        ReadyManifest settings manifest store.records ∧
        Continues (store.manifestOr settings).nextSeq (store.manifestOr settings).lastRecordHash
          manifest := by
  rw [MemoryBackedLog.openManifest, MemoryBackedLog.loadManifest, AuditStore.manifestOr]
  cases hGet : store.manifest with
  | none =>
    exact ⟨_, applyRetentionPolicy_of_modes ⟨rfl, rfl⟩ _ _, ⟨⟨rfl, rfl⟩, forall_mem_nil _⟩, rfl,
      rfl⟩
  | some manifest =>
    have hReady := hStore.ready manifest hGet
    dsimp only
    rw [if_pos (hStore.readable manifest hGet)]
    exact ⟨manifest, applyRetentionPolicy_of_modes hReady.modes _ _, hReady, rfl, rfl⟩

/- Pruning keeps the number and the link of the next record. -/
theorem StoreReady.pruneInternal {manifest : GovernanceAuditManifest}
    (hReady : ReadyManifest settings manifest store.records)
    (hNext : Continues manifest.nextSeq manifest.lastRecordHash (store.manifestOr settings))
    {now : JsNumber} (hNow : now.isFinite = true) :
    ∃ result store',
      MemoryBackedLog.pruneInternal settings now manifest store = (.ok result, store') ∧
        StoreReady settings store' ∧
        Continues manifest.nextSeq manifest.lastRecordHash (store'.manifestOr settings) := by
  rw [MemoryBackedLog.pruneInternal, loadRecords_eq hReady.stored]
  dsimp only
  split
  · exact ⟨_, _, rfl, hStore, hNext⟩
  · refine ⟨_, _, rfl, ⟨?_, ?_⟩, rfl, rfl⟩
    · intro next hMem
      cases hMem
      exact hNow
    · intro next hMem
      cases hMem
      refine ⟨{ hReady.modes with }, ?_⟩
      intro seq hActive
      rcases List.mem_filter.mp hActive with ⟨hOld, hKeep⟩
      have hStays := of_decide_eq_true hKeep
      dsimp only
      split
      · rw [get?_foldl_delete]
        · exact hReady.stored seq hOld
        · intro hOut
          rcases List.mem_map.mp hOut with ⟨record, hRemoved, hSeq⟩
          have hGone := of_decide_eq_true (List.mem_filter.mp hRemoved).2
          rw [hSeq] at hGone
          exact hStays hGone
      · exact hReady.stored seq hOld

theorem StoreReady.prune {readings : ClockReadings}
    (hNow : readings.pruned.isFinite = true) :
    StoreReady settings (MemoryBackedLog.prune settings readings store).2 ∧
      Continues (store.manifestOr settings).nextSeq (store.manifestOr settings).lastRecordHash
        ((MemoryBackedLog.prune settings readings store).2.manifestOr settings) := by
  rcases hStore.openManifest readings with ⟨manifest, hOpen, hReady, hNext⟩
  rw [← hNext.nextSeq, ← hNext.last]
  rcases hStore.pruneInternal hReady ⟨hNext.nextSeq.symm, hNext.last.symm⟩ hNow with
    ⟨⟨removed, next⟩, store', hPrune, hAfter⟩
  rw [MemoryBackedLog.prune, hOpen]
  dsimp only
  rw [hPrune]
  exact hAfter

variable (host) in
theorem StoreReady.append {readings : ClockReadings}
    (event : GovernanceAuditEvent) (hSaved : readings.saved.isFinite = true)
    (hPruned : readings.pruned.isFinite = true) :
    match buildRecord host event (store.manifestOr settings).nextSeq readings.built
        settings.signingKey settings.redaction (store.manifestOr settings).lastRecordHash
        settings.retentionMs with
    | .error error =>
      MemoryBackedLog.append settings host readings event store = (.error error, store)
    | .ok record =>
      ∃ store', MemoryBackedLog.append settings host readings event store = (.ok record, store') ∧
          StoreReady settings store' ∧
          Continues (record.seq + 1) record.recordHash (store'.manifestOr settings) := by
  rcases hStore.openManifest readings with ⟨manifest, hOpen, hReady, hNext⟩
  rw [← hNext.nextSeq, ← hNext.last, MemoryBackedLog.append, hOpen]
  dsimp only
  cases hBuild : buildRecord host event manifest.nextSeq
      readings.built settings.signingKey settings.redaction
      manifest.lastRecordHash settings.retentionMs with
  | error error => rfl
  | ok record =>
    have hAppended : ReadyManifest settings (manifest.appended readings.saved record)
          (store.records.set record.seq (cloneRecord record)) := by
      refine ⟨{ hReady.modes with }, ?_⟩
      intro seq hMem
      rw [OrderedMap.get?_set]
      split
      · rfl
      · next hOther =>
          rcases List.mem_append.mp hMem with hOld | hLast
          · exact hReady.stored seq hOld
          · exact absurd (List.mem_singleton.mp hLast).symm hOther
    have hSavedReady : StoreReady settings
          ⟨some (manifest.appended readings.saved record),
            store.records.set record.seq (cloneRecord record)⟩ := by
      refine ⟨?_, ?_⟩
      · intro stored hMem
        cases hMem
        exact hSaved
      · intro stored hMem
        cases hMem
        exact hAppended
    rcases hSavedReady.pruneInternal hAppended ⟨rfl, rfl⟩ hPruned with
      ⟨result, store', hPrune, hAfter⟩
    refine ⟨store', ?_, hAfter⟩
    dsimp only
    rw [hPrune]

end

----------
-- The Log In Memory
----------

section

/- The records that are left, from the oldest on. -/
def InMemoryLog.kept (log : InMemoryLog) : List GovernanceAuditRecord :=
  log.archivedRecords ++ log.activeRecords

theorem InMemoryLog.lastSeq_eq (log : InMemoryLog) :
    log.lastSeq = log.kept.getLast?.map (·.seq) := by
  unfold InMemoryLog.lastSeq InMemoryLog.kept
  rw [getLast?_append]
  cases log.activeRecords.getLast? <;> rfl

/- The end of a list is the end of the whole list. -/
theorem mem_getLast?_of_suffix {α : Type} {rest l : List α} (hSuffix : rest <:+ l) {a : α}
    (hLast : a ∈ rest.getLast?) : a ∈ l.getLast? := by
  rcases hSuffix with ⟨front, rfl⟩
  have hEq : rest.getLast? = some a := hLast
  rw [getLast?_append, hEq]
  rfl

/-
  The log in memory has the link of the next record, its newest record has the last number, and its
  active records expire in their order, also with what comes later.
-/
structure MemoryReady (settings : LogSettings) (times : List JsNumber) (nextSeq : Nat)
    (lastRecordHash : String) (log : InMemoryLog) : Prop where
  last : log.lastRecordHash = lastRecordHash
  newest : ∀ seq ∈ log.lastSeq, seq + 1 = nextSeq
  below : ∀ record ∈ log.activeRecords, record.seq < nextSeq
  nodup : (log.activeRecords.map (·.seq)).Nodup
  ordered : log.activeRecords.Pairwise ExpiresFirst
  built : ∀ record ∈ log.activeRecords, ∃ now : JsNumber,
        now.isFinite = true ∧ record.expiresAtMs = settings.retentionMs.map (fun ms => now.add ms) ∧
          ∀ time ∈ times, now.le time = true
  archived : settings.archives = false → log.archivedRecords = []

variable {host : GovernanceHost}
variable {settings : LogSettings}
variable {times : List JsNumber}
variable {nextSeq : Nat}
variable {lastRecordHash : String}
variable {log : InMemoryLog}

theorem memoryReady_empty : MemoryReady settings times 1 "" InMemoryLog.empty :=
  ⟨rfl, nofun, (fun _ hMem => nomatch hMem), nodup_nil,
    List.Pairwise.nil, (fun _ hMem => nomatch hMem), fun _ => rfl⟩

variable (hReady : MemoryReady settings times nextSeq lastRecordHash log)
include hReady

/- What pruning leaves are the newest of the records. -/
theorem MemoryReady.prune_kept (now : JsNumber) : (log.prune settings now).2.kept <:+ log.kept ∧
      (log.prune settings now).2.activeRecords <:+ log.activeRecords := by
  have hSplit := removed_append_remaining
    (removesOldest_of_ordered settings.maxEntries now hReady.nodup hReady.ordered)
  unfold InMemoryLog.prune
  dsimp only
  split
  · exact ⟨suffix_rfl, suffix_rfl⟩
  · refine ⟨?_, ⟨_, hSplit⟩⟩
    unfold InMemoryLog.kept
    dsimp only
    split
    · rw [append_assoc]
      exact ⟨[], congrArg (log.archivedRecords ++ ·) hSplit⟩
    · next hArchives =>
        rw [hReady.archived (Bool.not_eq_true _ ▸ hArchives)]
        exact ⟨_, hSplit⟩

theorem MemoryReady.prune (now : JsNumber) :
    MemoryReady settings times nextSeq lastRecordHash (log.prune settings now).2 := by
  rcases hReady.prune_kept now with ⟨hKept, hActive⟩
  have hLast : (log.prune settings now).2.lastRecordHash = log.lastRecordHash := by
    unfold InMemoryLog.prune
    dsimp only
    split <;> rfl
  have hArchived : settings.archives = false → (log.prune settings now).2.archivedRecords = [] := by
    intro hArchives
    unfold InMemoryLog.prune
    dsimp only
    split
    · exact hReady.archived hArchives
    · rw [if_neg (by rw [hArchives]; decide)]
      exact hReady.archived hArchives
  refine ⟨hLast.trans hReady.last, ?_, ?_, ?_, ?_, ?_, hArchived⟩
  · intro seq hMem
    apply hReady.newest
    rw [InMemoryLog.lastSeq_eq] at hMem ⊢
    rcases Option.mem_map.mp hMem with ⟨record, hEnd, hSeq⟩
    exact Option.mem_map.mpr ⟨record, mem_getLast?_of_suffix hKept hEnd, hSeq⟩
  · exact fun record hMem => hReady.below record (hActive.subset hMem)
  · exact (hActive.sublist.map _).nodup hReady.nodup
  · exact hReady.ordered.sublist hActive.sublist
  · exact fun record hMem => hReady.built record (hActive.subset hMem)

omit hReady in
/- Times in order lead to expiry times in order. -/
theorem expired_of_earlier {now later clock ms : JsNumber} (hNow : now.isFinite = true)
    (hLater : later.isFinite = true) (hOrder : now.le later = true)
    (hExpired : (later.add ms).le clock = true) : (now.add ms).le clock = true := by
  cases now with
  | finite p => cases later with
      | finite q => cases ms with
          | finite r =>
            apply JsNumber.le_trans _ hExpired
            rw [JsNumber.le_finite] at hOrder
            show JsNumber.le (.finite (p + r)) (.finite (q + r)) = true
            rw [JsNumber.le_finite]
            exact decide_eq_true (by
              have hLe := of_decide_eq_true hOrder
              linarith)
          | nan | posInf | negInf => exact hExpired
      | nan | posInf | negInf => cases hLater
  | nan | posInf | negInf => cases hNow

theorem MemoryReady.append {event : GovernanceAuditEvent} {now : JsNumber}
    {record : GovernanceAuditRecord} {rest : List JsNumber} (hNow : now ∈ times)
    (hFinite : now.isFinite = true) (hRest : ∀ time ∈ rest, time ∈ times ∧ now.le time = true)
    (hBuilt : BuiltRecord host settings event nextSeq now lastRecordHash record) (anchor : String) :
    MemoryReady settings rest (record.seq + 1) record.recordHash
      { log with
        activeRecords := log.activeRecords ++ [record], lastRecordHash := record.recordHash
        activeAnchorPrevRecordHash := anchor } := by
  constructor
  · rfl
  · intro seq hMem
    rw [InMemoryLog.lastSeq_eq, InMemoryLog.kept] at hMem
    dsimp only at hMem
    rw [← append_assoc, getLast?_concat] at hMem
    cases hMem
    rfl
  · intro other hMem
    rcases List.mem_append.mp hMem with hOld | hLast
    · have hBelow := hReady.below other hOld
      have hSeq := hBuilt.seq
      omega
    · rw [List.mem_singleton.mp hLast]
      exact Nat.lt_succ_self _
  · show ((log.activeRecords ++ [record]).map _).Nodup
    have hNew : record.seq ∉ log.activeRecords.map (·.seq) := by
      intro hOld
      rcases List.mem_map.mp hOld with ⟨other, hMem, hSeq⟩
      have hBelow := hReady.below other hMem
      rw [hSeq, hBuilt.seq] at hBelow
      exact Nat.lt_irrefl _ hBelow
    simpa using hReady.nodup.concat hNew
  · refine List.pairwise_append.mpr ⟨hReady.ordered, pairwise_singleton _ _, ?_⟩
    intro other hOld last hLast clock hExpired
    rcases hReady.built other hOld with ⟨earlier, hEarlier, hExpiry, hBefore⟩
    rw [List.mem_singleton.mp hLast, GovernanceAuditRecord.isExpired, hBuilt.expiry] at hExpired
    rw [GovernanceAuditRecord.isExpired, hExpiry]
    cases hRetention : settings.retentionMs with
    | none =>
      rw [hRetention] at hExpired
      cases hExpired
    | some ms =>
      rw [hRetention] at hExpired
      exact expired_of_earlier hEarlier hFinite (hBefore now hNow) hExpired
  · intro other hMem
    rcases List.mem_append.mp hMem with hOld | hLast
    · rcases hReady.built other hOld with ⟨earlier, hEarlier, hExpiry, hBefore⟩
      exact ⟨earlier, hEarlier, hExpiry, fun time hTime => hBefore time (hRest time hTime).1⟩
    · rw [List.mem_singleton.mp hLast]
      exact ⟨now, hFinite, hBuilt.expiry, fun time hTime => (hRest time hTime).2⟩
  · exact hReady.archived

/- Fewer times are still to come. -/
theorem MemoryReady.mono {rest : List JsNumber} (hRest : ∀ time ∈ rest, time ∈ times) :
    MemoryReady settings rest nextSeq lastRecordHash log := by
  refine { hReady with built := fun record hMem => ?_ }
  rcases hReady.built record hMem with ⟨now, hFinite, hExpiry, hBefore⟩
  exact ⟨now, hFinite, hExpiry, fun time hTime => hBefore time (hRest time hTime)⟩

end

----------
-- Agreement
----------

section

variable {host : GovernanceHost}
variable {settings : LogSettings}

/- Both logs go on from the same number and link. -/
structure BothReady (settings : LogSettings) (times : List JsNumber) (s : BothLogs) : Prop where
  store : StoreReady settings s.store
  memory : MemoryReady settings times (s.store.manifestOr settings).nextSeq
      (s.store.manifestOr settings).lastRecordHash s.memory

theorem bothReady_empty (times : List JsNumber) : BothReady settings times BothLogs.empty :=
  ⟨⟨nofun, nofun⟩, memoryReady_empty⟩

/- The readings of a step and of those after it. -/
theorem clockTimes_cons (step : SharedStep) (rest : List SharedStep) : clockTimes (step :: rest) =
      [step.readings.opened, step.readings.applied, step.readings.built, step.readings.saved,
        step.readings.pruned] ++ clockTimes rest := by
  unfold clockTimes
  rw [flatMap_cons]

variable {rest : List SharedStep}

theorem mem_clockTimes_of_later (step : SharedStep) {time : JsNumber}
    (hMem : time ∈ clockTimes rest) : time ∈ clockTimes (step :: rest) := by
  rw [clockTimes_cons]
  exact mem_append_right _ hMem

theorem ClockForward.tail {step : SharedStep}
    (hClock : ClockForward (step :: rest)) : ClockForward rest := by
  refine ⟨fun time hMem => hClock.finite time (mem_clockTimes_of_later step hMem), ?_⟩
  have hOrdered := hClock.ordered
  rw [clockTimes_cons] at hOrdered
  exact (List.pairwise_append.mp hOrdered).2.1

theorem ClockForward.head {step : SharedStep}
    (hClock : ClockForward (step :: rest)) (readings : ClockReadings)
    (hReadings : step.readings = readings) :
    readings.built.isFinite = true ∧ readings.saved.isFinite = true ∧
      readings.pruned.isFinite = true ∧
      ∀ time ∈ clockTimes rest, readings.built.le time = true := by
  rcases hClock with ⟨hFinite, hOrdered⟩
  rw [clockTimes_cons, hReadings] at hFinite hOrdered
  refine ⟨hFinite _ (by simp), hFinite _ (by simp), hFinite _ (by simp), ?_⟩
  intro time hMem
  exact (List.pairwise_append.mp hOrdered).2.2 _ (by simp) time hMem

theorem built_mem_clockTimes (step : SharedStep) (rest : List SharedStep) :
    step.readings.built ∈ clockTimes (step :: rest) := by
  rw [clockTimes_cons]
  simp

theorem BothReady.prune {s : BothLogs} {readings : ClockReadings}
    (hReady : BothReady settings (clockTimes (.prune readings :: rest)) s)
    (hClock : ClockForward (.prune readings :: rest)) :
    BothReady settings (clockTimes rest) (s.step host settings (.prune readings)) := by
  rcases hClock.head readings rfl with ⟨_, _, hPruned, _⟩
  rcases hReady.store.prune hPruned with ⟨hStore, hNext⟩
  refine ⟨hStore, ?_⟩
  unfold BothLogs.step
  dsimp only
  rw [hNext.nextSeq, hNext.last]
  exact (hReady.memory.prune readings.pruned).mono (fun _ => mem_clockTimes_of_later _)

def InMemoryLog.nextSeq (log : InMemoryLog) : Nat := log.lastSeq.getD 0 + 1

/- A log that has a record left knows the next number. -/
theorem BothReady.nextSeq_eq_iff {times : List JsNumber} {s : BothLogs}
    (hReady : BothReady settings times s) :
    s.memory.nextSeq = (s.store.manifestOr settings).nextSeq ↔
      s.memory.lastSeq.isSome = true ∨ (s.store.manifestOr settings).nextSeq = 1 := by
  unfold InMemoryLog.nextSeq
  cases hLast : s.memory.lastSeq with
  | none =>
    constructor
    · exact fun hEq => .inr hEq.symm
    · rintro (hSome | hOne)
      · cases hSome
      · exact hOne.symm
  | some seq => exact ⟨fun _ => .inl rfl, fun _ => hReady.memory.newest seq hLast⟩

variable (settings) in
theorem buildRecord_of_some {event : GovernanceAuditEvent} {now : JsNumber}
    (hTime : (event.timestamp.or (host.toISOString now)).isSome = true) (seq : Nat)
    (prevRecordHash : String) :
    ∃ record, buildRecord host event seq now settings.signingKey settings.redaction prevRecordHash
          settings.retentionMs = .ok record := by
  rcases Option.isSome_iff_exists.mp hTime with ⟨timestamp, hGet⟩
  rw [buildRecord, hGet]
  exact ⟨_, rfl⟩

variable {s : BothLogs}
variable {event : GovernanceAuditEvent}
variable {readings : ClockReadings}

/- No log changes when no record can be built for want of a text for its time. -/
theorem BothReady.append_of_none {times : List JsNumber} (hReady : BothReady settings times s)
    (hSaved : readings.saved.isFinite = true) (hPruned : readings.pruned.isFinite = true)
    (hTime : event.timestamp.or (host.toISOString readings.built) = none) :
    s.append host settings event readings =
      ((.error "Invalid time value", .error "Invalid time value"), s) := by
  have hStore := hReady.store.append host event hSaved hPruned
  rw [buildRecord, hTime] at hStore
  unfold BothLogs.append InMemoryLog.append
  rw [buildRecord, hTime, hStore]

/- The log in memory builds the record it returns. -/
theorem InMemoryLog.append_of_built {log : InMemoryLog} {record : GovernanceAuditRecord}
    (hBuild :
      buildRecord host event log.nextSeq readings.built settings.signingKey settings.redaction
          log.lastRecordHash settings.retentionMs = .ok record) :
    ∃ anchor, InMemoryLog.append host settings readings event log =
        (.ok record,
          (InMemoryLog.prune settings readings.pruned
            { log with
              activeRecords := log.activeRecords ++ [record], lastRecordHash := record.recordHash
              activeAnchorPrevRecordHash := anchor }).2) := by
  unfold InMemoryLog.nextSeq at hBuild
  unfold InMemoryLog.append
  rw [hBuild]
  exact ⟨_, rfl⟩

/- An append whose number both logs agree on. -/
theorem BothReady.append_of_some
    (hReady : BothReady settings (clockTimes (.append event readings :: rest)) s)
    (hClock : ClockForward (.append event readings :: rest))
    (hTime : (event.timestamp.or (host.toISOString readings.built)).isSome = true)
    (hSeq : s.memory.nextSeq = (s.store.manifestOr settings).nextSeq) :
    ∃ record s', s.append host settings event readings = ((.ok record, .ok record), s') ∧
        BothReady settings (clockTimes rest) s' := by
  rcases hClock.head readings rfl with ⟨hFinite, hSaved, hPruned, hLater⟩
  rcases buildRecord_of_some settings hTime (s.store.manifestOr settings).nextSeq
      (s.store.manifestOr settings).lastRecordHash with ⟨record, hBuild⟩
  have hStore := hReady.store.append host event hSaved hPruned
  rw [hBuild] at hStore
  rcases hStore with ⟨store', hAppend, hStore', hNext⟩
  have hOwn := hBuild
  rw [← hSeq, ← hReady.memory.last] at hOwn
  rcases InMemoryLog.append_of_built hOwn with ⟨anchor, hMemory⟩
  unfold BothLogs.append
  rw [hMemory, hAppend]
  refine ⟨record, _, rfl, hStore', ?_⟩
  rw [hNext.nextSeq, hNext.last]
  apply MemoryReady.prune
  exact hReady.memory.append (built_mem_clockTimes _ rest) hFinite
    (fun time hMem => ⟨mem_clockTimes_of_later _ hMem, hLater time hMem⟩) (builtRecord_of_ok hBuild)
    anchor

/- An append when the next number is known. -/
theorem BothReady.append
    (hReady : BothReady settings (clockTimes (.append event readings :: rest)) s)
    (hClock : ClockForward (.append event readings :: rest))
    (hKnows : KnowsNextSeq host settings s (.append event readings)) :
    (s.append host settings event readings).1.1 = (s.append host settings event readings).1.2 ∧
      BothReady settings (clockTimes rest) (s.step host settings (.append event readings)) := by
  unfold BothLogs.step
  dsimp only
  cases hTime : (event.timestamp.or (host.toISOString readings.built)).isSome with
  | true =>
    rcases hReady.append_of_some hClock hTime (hReady.nextSeq_eq_iff.mpr (hKnows hTime)) with
      ⟨record, s', hEq, hNext⟩
    rw [hEq]
    exact ⟨rfl, hNext⟩
  | false =>
    rcases hClock.head readings rfl with ⟨_, hSaved, hPruned, _⟩
    rw [hReady.append_of_none hSaved hPruned
      (Option.not_isSome_iff_eq_none.mp (Bool.not_eq_true _ ▸ hTime))]
    exact ⟨rfl, hReady.store, hReady.memory.mono (fun _ => mem_clockTimes_of_later _)⟩

/- The other log numbers its records by its counter. -/
theorem StoreReady.append_seq {store : AuditStore} (hStore : StoreReady settings store)
    (hSaved : readings.saved.isFinite = true) (hPruned : readings.pruned.isFinite = true)
    (hTime : (event.timestamp.or (host.toISOString readings.built)).isSome = true) :
    ∃ record, (MemoryBackedLog.append settings host readings event store).1 = .ok record ∧
        record.seq = (store.manifestOr settings).nextSeq := by
  rcases buildRecord_of_some settings hTime (store.manifestOr settings).nextSeq
      (store.manifestOr settings).lastRecordHash with ⟨record, hBuild⟩
  have hAppend := hStore.append host event hSaved hPruned
  rw [hBuild] at hAppend
  rcases hAppend with ⟨store', hEq, _⟩
  rw [hEq]
  exact ⟨record, rfl, (builtRecord_of_ok hBuild).seq⟩

/- Logs that return the same record have agreed on its number. -/
theorem BothReady.nextSeq_of_same {times : List JsNumber} (hReady : BothReady settings times s)
    (hSaved : readings.saved.isFinite = true) (hPruned : readings.pruned.isFinite = true)
    (hTime : (event.timestamp.or (host.toISOString readings.built)).isSome = true)
    (hSame : SameRecord (s.append host settings event readings).1) :
    s.memory.nextSeq = (s.store.manifestOr settings).nextSeq := by
  rcases hReady.store.append_seq hSaved hPruned hTime with ⟨second, hSecond, hSeq⟩
  rcases buildRecord_of_some settings hTime s.memory.nextSeq s.memory.lastRecordHash with
    ⟨first, hBuild⟩
  rcases InMemoryLog.append_of_built hBuild with ⟨anchor, hFirst⟩
  unfold BothLogs.append at hSame
  dsimp only at hSame
  rw [hFirst, hSecond] at hSame
  exact (builtRecord_of_ok hBuild).seq.symm.trans (hSame.1.trans hSeq)

----------
-- Runs
----------

@[simp] theorem returnedSeqs_ok (record : GovernanceAuditRecord)
    (results : List (Except String GovernanceAuditRecord)) :
    returnedSeqs (.ok record :: results) = record.seq :: returnedSeqs results := rfl

variable {steps : List SharedStep}

/- The returned numbers grow from the counter on. -/
theorem storedSeqs_increasing {s : BothLogs}
    (hStore : StoreReady settings s.store) (hClock : ClockForward steps) :
    (returnedSeqs ((appendResults host settings s steps).map Prod.snd)).Pairwise (· < ·) ∧
      ∀ seq ∈ returnedSeqs ((appendResults host settings s steps).map Prod.snd),
        (s.store.manifestOr settings).nextSeq ≤ seq := by
  induction steps generalizing s with
  | nil => exact ⟨List.Pairwise.nil, nofun⟩
  | cons step rest ih => cases step with
      | prune readings =>
        rcases hClock.head readings rfl with ⟨_, _, hPruned, _⟩
        rcases hStore.prune hPruned with ⟨hAfter, hNext⟩
        rw [← hNext.nextSeq]
        exact ih hAfter hClock.tail
      | append event readings =>
        rcases hClock.head readings rfl with ⟨_, hSaved, hPruned, _⟩
        have hAppend := hStore.append host event hSaved hPruned
        have hStep : (s.step host settings (.append event readings)).store =
              (MemoryBackedLog.append settings host readings event s.store).2 := rfl
        have hCons : (appendResults host settings s (.append event readings :: rest)).map Prod.snd =
              (MemoryBackedLog.append settings host readings event s.store).1 ::
                (appendResults host settings
                  (s.step host settings (.append event readings)) rest).map Prod.snd := rfl
        rw [hCons]
        split at hAppend
        · rw [hAppend] at hStep ⊢
          dsimp only at hStep
          have hRest := ih (hStep ▸ hStore) hClock.tail
          rw [hStep] at hRest
          exact hRest
        · next record hBuild =>
            rcases hAppend with ⟨store', hEq, hAfter, hNext⟩
            rw [hEq] at hStep ⊢
            dsimp only at hStep
            have hRest := ih (hStep ▸ hAfter) hClock.tail
            rw [hStep, hNext.nextSeq] at hRest
            have hSeq := (builtRecord_of_ok hBuild).seq
            rw [returnedSeqs_ok, pairwise_cons, forall_mem_cons, ← hSeq]
            refine ⟨⟨hRest.2, hRest.1⟩, Nat.le_refl _, ?_⟩
            exact fun seq hMem => Nat.le_of_succ_le (hRest.2 seq hMem)

/- As long as the next number is known both return the same. -/
theorem results_same {s : BothLogs}
    (hReady : BothReady settings (clockTimes steps) s) (hClock : ClockForward steps)
    (hKnows : AlongRun (BothLogs.step host settings) (KnowsNextSeq host settings) s steps) :
    ∀ result ∈ appendResults host settings s steps, result.1 = result.2 := by
  induction steps generalizing s with
  | nil => exact fun _ hMem => nomatch hMem
  | cons step rest ih => cases step with
      | prune readings => exact ih (hReady.prune hClock) hClock.tail hKnows.2
      | append event readings =>
        rcases hReady.append hClock hKnows.1 with ⟨hSame, hNext⟩
        exact List.forall_mem_cons.mpr ⟨hSame, ih hNext hClock.tail hKnows.2⟩

/- Logs that return the same have known the next number. -/
theorem knowsNextSeq_of_same {s : BothLogs}
    (hReady : BothReady settings (clockTimes steps) s) (hClock : ClockForward steps)
    (hSame : ∀ result ∈ appendResults host settings s steps, SameRecord result) :
    AlongRun (BothLogs.step host settings) (KnowsNextSeq host settings) s steps := by
  induction steps generalizing s with
  | nil => trivial
  | cons step rest ih => cases step with
      | prune readings => exact ⟨trivial, ih (hReady.prune hClock) hClock.tail hSame⟩
      | append event readings =>
        rcases List.forall_mem_cons.mp hSame with ⟨hFirst, hRest⟩
        rcases hClock.head readings rfl with ⟨_, hSaved, hPruned, _⟩
        have hKnows : KnowsNextSeq host settings s (.append event readings) :=
          fun hTime => hReady.nextSeq_eq_iff.mp (hReady.nextSeq_of_same hSaved hPruned hTime hFirst)
        exact ⟨hKnows, ih (hReady.append hClock hKnows).2 hClock.tail hRest⟩

/-
  With a clock that never goes back the logs agree on every record, with growing numbers, if and
  only if the log in memory has a record left whenever it builds another one.
-/
theorem logs_agree_iff (host : GovernanceHost) (settings : LogSettings) (steps : List SharedStep)
    (hClock : ClockForward steps) :
    LogsAgree (appendResults host settings .empty steps) ↔
      AlongRun (BothLogs.step host settings) (KnowsNextSeq host settings) .empty steps := by
  have hReady : BothReady settings (clockTimes steps) BothLogs.empty := bothReady_empty _
  constructor
  · exact fun hAgree => knowsNextSeq_of_same hReady hClock hAgree.same
  · intro hKnows
    have hSame := results_same hReady hClock hKnows
    have hStore :
        (returnedSeqs ((appendResults host settings .empty steps).map Prod.snd)).Pairwise (· < ·) :=
      (storedSeqs_increasing hReady.store hClock).1
    have hColumns : (appendResults host settings .empty steps).map Prod.fst =
          (appendResults host settings .empty steps).map Prod.snd := map_congr_left hSame
    refine ⟨?_, hColumns ▸ hStore, hStore⟩
    rintro ⟨first, second⟩ hMem
    have hEq : first = second := hSame _ hMem
    rw [hEq]
    cases second with
    | error error => rfl
    | ok record => exact ⟨rfl, rfl, rfl⟩

/- Two logs that keep one record at a time. -/
theorem short_logs_agree : LogsAgree (appendResults .stroke (.plain .delete (some 1)) .empty
      [.append .plain (.at 0), .append .plain (.at 1), .prune (.at 2)]) :=
  (logs_agree_iff .stroke (.plain .delete (some 1))
    [.append .plain (.at 0), .append .plain (.at 1), .prune (.at 2)] (by decide +kernel)).mpr
    ⟨fun _ => .inr rfl, fun _ => .inl (by decide +kernel), trivial, trivial⟩

/- With a limit of no records the log in memory counts from one again and the other one does not. -/
theorem emptied_log_reuses_seq :
    let steps : List SharedStep := [.append .plain (.at 0), .append .plain (.at 1)]
    let results := appendResults .stroke (.plain .delete (some 0)) .empty steps
    ClockForward steps ∧ returnedSeqs (results.map Prod.fst) = [1, 1] ∧
      returnedSeqs (results.map Prod.snd) = [1, 2] := by decide +kernel

end

end AgencCore.Policy
