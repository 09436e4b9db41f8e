import AgencCore.Policy.GovernanceLog

/-
  The chains of the memory-backed audit log.

  `ChainSound` says that the records named by a manifest are stored, match their hashes and
  signatures, and form two chains that join at the anchor. Appending a record that JSON can hold
  keeps this. Removing records keeps it if they are the oldest ones and, when they are the first to
  be archived, nothing was deleted before them.
-/

namespace AgencCore.Policy

open Foundations Eval List HashChain OrderedMap

section

def recordChain : HashChain GovernanceAuditRecord String where
  previous := fun record => record.prevRecordHash
  hash := fun record => record.recordHash

/- The hash and the signature belong to the record. -/
def RecordMatches (host : GovernanceHost) (signingKey : String)
    (record : GovernanceAuditRecord) : Prop :=
  record.recordHash = computeHash host (canonicalizeRecord record.toGovernanceAuditFields) ∧
    record.signature = signRecord host signingKey record.recordHash

variable {host : GovernanceHost}
variable {signingKey : String}

theorem verifyChainFrom_valid (count : Nat) {previousHash : String}
    {records : List GovernanceAuditRecord} (hLinked : recordChain.Linked previousHash records)
    (hMatches : ∀ record ∈ records, RecordMatches host signingKey record) :
    (verifyChainFrom host signingKey count previousHash records).valid = true := by
  induction records generalizing previousHash with
  | nil => rfl
  | cons record rest ih =>
    rcases List.forall_mem_cons.mp hMatches with ⟨⟨hHash, hSignature⟩, hRest⟩
    have hPrevious : record.prevRecordHash = previousHash := hLinked.1
    rw [verifyChainFrom, if_neg (not_not.mpr hHash), if_neg (not_not.mpr hSignature),
      if_neg (not_not.mpr hPrevious)]
    exact ih hLinked.2 hRest

/- Two chains that join pass the check. -/
theorem verifyRecords_valid {archived active : List GovernanceAuditRecord} {anchor : String}
    (hArchived : recordChain.Linked "" archived) (hActive : recordChain.Linked anchor active)
    (hJoined : archived ≠ [] → recordChain.headHash "" archived = anchor)
    (hMatches : ∀ record ∈ archived ++ active, RecordMatches host signingKey record) :
    (verifyRecords host signingKey archived active anchor).valid = true := by
  have hFirst : (verifyRecordChain host archived signingKey "").valid = true :=
    verifyChainFrom_valid _ hArchived (fun record hMem =>
      hMatches record (mem_append_left _ hMem))
  have hSecond : (verifyRecordChain host active signingKey anchor).valid = true :=
    verifyChainFrom_valid _ hActive (fun record hMem =>
      hMatches record (mem_append_right _ hMem))
  unfold verifyRecords
  dsimp only
  rw [hFirst, hSecond, if_neg (by decide), if_neg]
  · rfl
  · rintro ⟨hSome, _, hMismatch⟩
    cases archived using List.reverseRecOn with
    | nil => exact absurd hSome (by decide)
    | append_singleton rest record =>
      have hHead := hJoined (by simp)
      rw [headHash_concat] at hHead
      rw [getLast?_concat, ← hHead] at hMismatch
      exact hMismatch rfl

/- The records that are stored under sequence numbers. -/
def recordsAt (records : OrderedMap Nat StoredRecord)
    (seqs : List Nat) : List GovernanceAuditRecord :=
  seqs.filterMap (fun seq => (records.get? seq).map coerceGovernanceAuditRecord)

variable {seqs : List Nat}
variable {store : AuditStore}

theorem loadRecords_eq (hStored : ∀ seq ∈ seqs, (store.records.get? seq).isSome = true) :
    MemoryBackedLog.loadRecords store seqs = .ok (recordsAt store.records seqs) := by
  induction seqs with
  | nil => rfl
  | cons seq rest ih =>
    rcases List.forall_mem_cons.mp hStored with ⟨hSeq, hRest⟩
    rcases Option.isSome_iff_exists.mp hSeq with ⟨raw, hGet⟩
    rw [MemoryBackedLog.loadRecords, hGet, ih hRest]
    simp [recordsAt, hGet, Except.map]

theorem recordsAt_append (records : OrderedMap Nat StoredRecord) (seqs seqs' : List Nat) :
    recordsAt records (seqs ++ seqs') = recordsAt records seqs ++ recordsAt records seqs' :=
  filterMap_append

/- Other sequence numbers are read as before. -/
theorem recordsAt_congr (records records' : OrderedMap Nat StoredRecord)
    (hSame : ∀ seq ∈ seqs, records'.get? seq = records.get? seq) :
    recordsAt records' seqs = recordsAt records seqs := by
  apply filterMap_congr
  intro seq hMem
  rw [hSame seq hMem]

/- A record is stored under its own sequence number. -/
def StoredWell (host : GovernanceHost) (signingKey : String) (records : OrderedMap Nat StoredRecord)
    (seq : Nat) : Prop :=
  ∃ raw, records.get? seq = some raw ∧ raw.seq = seq ∧
    RecordMatches host signingKey (coerceGovernanceAuditRecord raw)

variable {records : OrderedMap Nat StoredRecord}

theorem StoredWell.isSome {seq : Nat} (hStored : StoredWell host signingKey records seq) :
    (records.get? seq).isSome = true := by
  rcases hStored with ⟨raw, hGet, _⟩
  rw [hGet]
  rfl

theorem map_seq_recordsAt
    (hStored : ∀ seq ∈ seqs, StoredWell host signingKey records seq) :
    (recordsAt records seqs).map (·.seq) = seqs := by
  induction seqs with
  | nil => rfl
  | cons seq rest ih =>
    rcases List.forall_mem_cons.mp hStored with ⟨⟨raw, hGet, hSeq, _⟩, hRest⟩
    have hHead : recordsAt records (seq :: rest) =
          coerceGovernanceAuditRecord raw :: recordsAt records rest := by simp [recordsAt, hGet]
    rw [hHead, map_cons, ih hRest]
    exact congrArg (fun s => s :: rest) hSeq

theorem matches_recordsAt
    (hStored : ∀ seq ∈ seqs, StoredWell host signingKey records seq) :
    ∀ record ∈ recordsAt records seqs, RecordMatches host signingKey record := by
  intro record hMem
  rcases List.mem_filterMap.mp hMem with ⟨seq, hSeq, hGet⟩
  rcases hStored seq hSeq with ⟨raw, hRaw, _, hMatches⟩
  rw [hRaw] at hGet
  cases hGet
  exact hMatches

----------
-- Sound Chains
----------

/- The sequence numbers a manifest names. -/
def GovernanceAuditManifest.heldSeqs (manifest : GovernanceAuditManifest) : List Nat :=
  manifest.archivedSeqs ++ manifest.activeSeqs

structure ChainSound (host : GovernanceHost) (signingKey : String)
    (manifest : GovernanceAuditManifest) (records : OrderedMap Nat StoredRecord) : Prop where
  stored : ∀ seq ∈ manifest.heldSeqs, StoredWell host signingKey records seq
  nodup : manifest.heldSeqs.Nodup
  below : ∀ seq ∈ manifest.heldSeqs, seq < manifest.nextSeq
  archivedLinked : recordChain.Linked "" (recordsAt records manifest.archivedSeqs)
  activeLinked :
    recordChain.Linked manifest.activeAnchorPrevRecordHash (recordsAt records manifest.activeSeqs)
  last : recordChain.headHash manifest.activeAnchorPrevRecordHash
        (recordsAt records manifest.activeSeqs) = manifest.lastRecordHash
  joined : manifest.archivedSeqs ≠ [] →
      recordChain.headHash "" (recordsAt records manifest.archivedSeqs) =
        manifest.activeAnchorPrevRecordHash

variable {manifest : GovernanceAuditManifest}

theorem chainSound_default (now : JsNumber) (mode : GovernanceAuditRetentionMode) (hold : Bool)
    (records : OrderedMap Nat StoredRecord) :
    ChainSound host signingKey (buildDefaultManifest now mode hold) records :=
  ⟨nofun, nodup_nil,
    nofun, trivial, trivial, rfl, (fun hSome => absurd rfl hSome)⟩

theorem ChainSound.map_seq_active (hSound : ChainSound host signingKey manifest records) :
    (recordsAt records manifest.activeSeqs).map (·.seq) = manifest.activeSeqs :=
  map_seq_recordsAt (fun seq hMem => hSound.stored seq (mem_append_right _ hMem))

theorem ChainSound.loadActive (hSound : ChainSound host signingKey manifest store.records) :
    MemoryBackedLog.loadRecords store manifest.activeSeqs =
      .ok (recordsAt store.records manifest.activeSeqs) :=
  loadRecords_eq (fun seq hMem => (hSound.stored seq (mem_append_right _ hMem)).isSome)

theorem ChainSound.loadArchived (hSound : ChainSound host signingKey manifest store.records) :
    MemoryBackedLog.loadRecords store manifest.archivedSeqs =
      .ok (recordsAt store.records manifest.archivedSeqs) :=
  loadRecords_eq (fun seq hMem => (hSound.stored seq (mem_append_left _ hMem)).isSome)

variable {settings : LogSettings}

/- Sound chains are loaded and pass the check. -/
theorem ChainSound.verifyInternal_valid
    (hSound : ChainSound host settings.signingKey manifest store.records) :
    ∃ verification, MemoryBackedLog.verifyInternal settings host manifest store = .ok verification ∧
        verification.valid = true := by
  refine ⟨_, by
    rw [MemoryBackedLog.verifyInternal, hSound.loadArchived, hSound.loadActive]
    rfl, ?_⟩
  apply verifyRecords_valid hSound.archivedLinked hSound.activeLinked
  · intro hSome
    apply hSound.joined
    rintro hNil
    rw [hNil] at hSome
    exact hSome rfl
  · rw [← recordsAt_append]
    exact matches_recordsAt hSound.stored

----------
-- Appending
----------

structure BuiltRecord (host : GovernanceHost) (settings : LogSettings)
    (event : GovernanceAuditEvent) (seq : Nat) (now : JsNumber) (prevRecordHash : String)
    (record : GovernanceAuditRecord) : Prop where
  seq : record.seq = seq
  previous : record.prevRecordHash = prevRecordHash
  scope : record.scope = event.scope
  expiry : record.expiresAtMs = settings.retentionMs.map (fun ms => now.add ms)
  payload : DistinctNames record.payload
  hashed : RecordMatches host settings.signingKey record

variable {event : GovernanceAuditEvent}
variable {seq : Nat}
variable {prevRecordHash : String}
variable {record : GovernanceAuditRecord}
variable {now : JsNumber}

theorem builtRecord_of_ok (hBuilt :
      buildRecord host event seq now settings.signingKey settings.redaction prevRecordHash
          settings.retentionMs = .ok record) :
    BuiltRecord host settings event seq now prevRecordHash record := by
  unfold buildRecord at hBuilt
  split at hBuilt
  · cases hBuilt
  · cases hBuilt
    exact ⟨rfl, rfl, rfl, rfl, toJsonValue_distinct _, rfl, rfl⟩

/- An event and settings whose record JSON can hold. -/
def StorableEvent (settings : LogSettings) (event : GovernanceAuditEvent) (now : JsNumber) : Prop :=
  (∀ scope ∈ event.scope, scope.Defined) ∧ ∀ ms ∈ settings.retentionMs, (now.add ms).isFinite = true

theorem BuiltRecord.storable
    (hBuilt : BuiltRecord host settings event seq now prevRecordHash record)
    (hEvent : StorableEvent settings event now) : record.Storable := by
  refine ⟨?_, ?_, hBuilt.payload⟩
  · intro scope hMem
    rw [hBuilt.scope] at hMem
    exact hEvent.1 scope hMem
  · intro ms hMem
    rw [hBuilt.expiry] at hMem
    rcases Option.mem_map.mp hMem with ⟨retention, hGet, rfl⟩
    exact hEvent.2 retention hGet

theorem RecordMatches.stored {signingKey : String}
    (hMatches : RecordMatches host signingKey record) (hStorable : record.Storable) :
    RecordMatches host signingKey (coerceGovernanceAuditRecord (cloneRecord record)) := by
  constructor
  · rw [computeHash, canonicalizeRecord_stored host.eval hStorable]
    exact hMatches.1
  · exact hMatches.2

theorem recordsAt_set {records : OrderedMap Nat StoredRecord} {seqs : List Nat}
    (hNew : seq ∉ seqs) (raw : StoredRecord) :
    recordsAt (records.set seq raw) seqs = recordsAt records seqs := by
  apply recordsAt_congr
  intro other hMem
  exact get?_set_of_ne _ _ (fun hEq => hNew (hEq ▸ hMem))

/- A record that is stored under a new number comes last. -/
theorem recordsAt_set_concat {records : OrderedMap Nat StoredRecord} {seqs : List Nat}
    (hNew : seq ∉ seqs) (raw : StoredRecord) :
    recordsAt (records.set seq raw) (seqs ++ [seq]) =
      recordsAt records seqs ++ [coerceGovernanceAuditRecord raw] := by
  rw [recordsAt_append, recordsAt_set hNew]
  simp [recordsAt]

/- The next number is not in use. -/
theorem ChainSound.nextSeq_fresh (hSound : ChainSound host signingKey manifest records) :
    manifest.nextSeq ∉ manifest.heldSeqs := fun hMem => Nat.lt_irrefl _ (hSound.below _ hMem)

/- Without active records the anchor is the last hash. -/
theorem ChainSound.appended_anchor (hSound : ChainSound host signingKey manifest records)
    (now : JsNumber)
    (hPrevious : record.prevRecordHash = manifest.lastRecordHash) :
    (manifest.appended now record).activeAnchorPrevRecordHash =
      manifest.activeAnchorPrevRecordHash := by
  unfold GovernanceAuditManifest.appended
  dsimp only
  split
  · next hEmpty =>
      have hLast := hSound.last
      rw [List.length_eq_zero_iff.mp hEmpty] at hLast
      rw [hPrevious, ← hLast]
      rfl
  · rfl

theorem ChainSound.append (hSound : ChainSound host signingKey manifest records) (now : JsNumber)
    (hSeq : record.seq = manifest.nextSeq)
    (hPrevious : record.prevRecordHash = manifest.lastRecordHash)
    (hMatches : RecordMatches host signingKey record) (hStorable : record.Storable) :
    ChainSound host signingKey (manifest.appended now record)
      (records.set record.seq (cloneRecord record)) := by
  have hNew : record.seq ∉ manifest.heldSeqs := by
    rw [hSeq]
    exact hSound.nextSeq_fresh
  have hHeld : (manifest.appended now record).heldSeqs = manifest.heldSeqs ++ [record.seq] := by
    simp [GovernanceAuditManifest.heldSeqs, GovernanceAuditManifest.appended]
  have hArchived : recordsAt (records.set record.seq (cloneRecord record)) manifest.archivedSeqs =
        recordsAt records manifest.archivedSeqs :=
    recordsAt_set (fun hMem => hNew (mem_append_left _ hMem)) _
  have hActive : recordsAt (records.set record.seq (cloneRecord record))
          (manifest.activeSeqs ++ [record.seq]) =
        recordsAt records manifest.activeSeqs ++
          [coerceGovernanceAuditRecord (cloneRecord record)] :=
    recordsAt_set_concat (fun hMem => hNew (mem_append_right _ hMem)) _
  have hAnchor := hSound.appended_anchor now hPrevious
  constructor
  · intro seq hMem
    rw [hHeld] at hMem
    rcases List.mem_append.mp hMem with hOld | hLast
    · rcases hSound.stored seq hOld with ⟨raw, hGet, hRaw⟩
      refine ⟨raw, ?_, hRaw⟩
      rw [get?_set_of_ne]
      · exact hGet
      · exact fun hEq => hNew (hEq ▸ hOld)
    · rw [List.mem_singleton.mp hLast]
      exact ⟨cloneRecord record, get?_set_self _ _ _, rfl, hMatches.stored hStorable⟩
  · rw [hHeld]
    simpa using hSound.nodup.concat hNew
  · intro seq hMem
    rw [hHeld] at hMem
    show seq < record.seq + 1
    rcases List.mem_append.mp hMem with hOld | hLast
    · have hBelow := hSound.below seq hOld
      omega
    · rw [List.mem_singleton.mp hLast]
      exact Nat.lt_succ_self _
  · show recordChain.Linked "" (recordsAt _ manifest.archivedSeqs)
    rw [hArchived]
    exact hSound.archivedLinked
  · rw [hAnchor]
    show recordChain.Linked _ (recordsAt _ (manifest.activeSeqs ++ [record.seq]))
    rw [hActive, linked_concat]
    exact ⟨hSound.activeLinked, hPrevious.trans hSound.last.symm⟩
  · rw [hAnchor]
    show recordChain.headHash _ (recordsAt _ (manifest.activeSeqs ++ [record.seq])) = _
    rw [hActive, headHash_concat]
    rfl
  · intro hSome
    rw [hAnchor]
    show recordChain.headHash "" (recordsAt _ manifest.archivedSeqs) = _
    rw [hArchived]
    exact hSound.joined hSome

----------
-- Removing
----------

/- A selection from the front leaves the rest. -/
theorem filter_append_of_front {α : Type} {p : α → Bool} {l : List α} (hFront : l.filter p <+: l) :
    l.filter p ++ l.filter (fun a => !p a) = l := by
  rcases hFront with ⟨rest, hEq⟩
  have hNone : rest.filter p = [] := by simpa using congrArg (filter p) hEq
  have hAll : rest.filter (fun a => !p a) = rest := by
    rw [filter_eq_self]
    intro a hMem
    simpa using filter_eq_nil_iff.mp hNone a hMem
  have hRest : rest = l.filter (fun a => !p a) := by
    simpa [hAll] using congrArg (filter (fun a => !p a)) hEq
  rw [← hRest]
  exact hEq

def RemovesOldest (maxEntries : Option JsNumber) (now : JsNumber)
    (activeRecords : List GovernanceAuditRecord) : Prop :=
  (activeRecords.filter (fun record =>
    record.seq ∈ removable maxEntries now activeRecords)) <+: activeRecords

/- Some of the stored records are found by their numbers. -/
theorem recordsAt_map_seq {seqs : List Nat}
    (hStored : ∀ seq ∈ seqs, StoredWell host signingKey records seq)
    {part : List GovernanceAuditRecord} (hPart : ∀ record ∈ part, record ∈ recordsAt records seqs) :
    recordsAt records (part.map (·.seq)) = part := by
  unfold recordsAt
  rw [filterMap_map]
  conv_rhs => rw [← filterMap_some (l := part)]
  apply filterMap_congr
  intro record hMem
  rcases List.mem_filterMap.mp (hPart record hMem) with ⟨seq, hSeq, hGet⟩
  rcases hStored seq hSeq with ⟨raw, hRaw, hOwn, _⟩
  rw [hRaw] at hGet
  cases hGet
  have hNumber : (coerceGovernanceAuditRecord raw).seq = seq := hOwn
  rw [Function.comp_apply, hNumber, hRaw]
  rfl

/- Deleting records leaves the others. -/
theorem get?_foldl_delete (removed : List GovernanceAuditRecord)
    (records : OrderedMap Nat StoredRecord) {seq : Nat}
    (hOther : seq ∉ removed.map (·.seq)) :
    (removed.foldl (fun records record => records.delete record.seq) records).get? seq =
      records.get? seq := by
  induction removed generalizing records with
  | nil => rfl
  | cons record rest ih =>
    rw [map_cons, mem_cons, not_or] at hOther
    rw [foldl_cons, ih _ hOther.2, get?_delete,
      if_neg (fun hEq => hOther.1 hEq.symm)]

/- The manifest after the oldest active records were removed and the others remained. -/
def GovernanceAuditManifest.pruned (manifest : GovernanceAuditManifest) (settings : LogSettings)
    (now : JsNumber) (removed remaining : List GovernanceAuditRecord) : GovernanceAuditManifest :=
  { manifest with
    updatedAt := now, activeSeqs := remaining.map (·.seq)
    archivedSeqs :=
      if settings.archives then manifest.archivedSeqs ++ removed.map (·.seq)
      else manifest.archivedSeqs
    activeAnchorPrevRecordHash := recordChain.headHash manifest.activeAnchorPrevRecordHash removed }

/- The archive goes on where the active records begin. -/
theorem ChainSound.archived_joins (hSound : ChainSound host signingKey manifest records)
    {removed : List GovernanceAuditRecord}
    (hLinked : recordChain.Linked manifest.activeAnchorPrevRecordHash removed)
    (hOrigin :
      manifest.archivedSeqs = [] → removed ≠ [] → manifest.activeAnchorPrevRecordHash = "") :
    recordChain.Linked (recordChain.headHash "" (recordsAt records manifest.archivedSeqs)) removed ∧
      (manifest.archivedSeqs ≠ [] ∨ removed ≠ [] →
        recordChain.headHash "" (recordsAt records manifest.archivedSeqs) =
          manifest.activeAnchorPrevRecordHash) := by
  by_cases hEmpty : manifest.archivedSeqs = []
  · have hAnchor : removed ≠ [] →
          recordChain.headHash "" (recordsAt records manifest.archivedSeqs) =
            manifest.activeAnchorPrevRecordHash := by
      intro hSome
      rw [hEmpty, hOrigin hEmpty hSome]
      rfl
    constructor
    · by_cases hSome : removed = []
      · rw [hSome]
        trivial
      · rw [hAnchor hSome]
        exact hLinked
    · rintro (hSome | hSome)
      · exact absurd hEmpty hSome
      · exact hAnchor hSome
  · have hJoined := hSound.joined hEmpty
    refine ⟨?_, fun _ => hJoined⟩
    rw [hJoined]
    exact hLinked

variable (settings) in
theorem ChainSound.pruned (hSound : ChainSound host signingKey manifest records) (now : JsNumber)
    {removed remaining : List GovernanceAuditRecord}
    (hSplit : removed ++ remaining = recordsAt records manifest.activeSeqs)
    (hArchived : manifest.archivedSeqs ≠ [] → settings.archives = true)
    (hOrigin : settings.archives = true → manifest.archivedSeqs = [] →
        removed ≠ [] → manifest.activeAnchorPrevRecordHash = "")
    (records' : OrderedMap Nat StoredRecord)
    (hKept : ∀ seq, (settings.archives = true ∨ seq ∉ removed.map (·.seq)) →
        records'.get? seq = records.get? seq) :
    ChainSound host signingKey (manifest.pruned settings now removed remaining) records' ∧
      recordsAt records' (remaining.map (·.seq)) = remaining := by
  have hActiveStored : ∀ seq ∈ manifest.activeSeqs, StoredWell host signingKey records seq :=
    fun seq hMem => hSound.stored seq (mem_append_right _ hMem)
  have hSeqs : manifest.activeSeqs =
        removed.map (·.seq) ++ remaining.map (·.seq) := by
    rw [← map_append, hSplit]
    exact hSound.map_seq_active.symm
  have hRemoved : recordsAt records (removed.map (·.seq)) = removed :=
    recordsAt_map_seq hActiveStored (fun _ hMem => hSplit ▸ mem_append_left _ hMem)
  have hRemaining : recordsAt records (remaining.map (·.seq)) = remaining :=
    recordsAt_map_seq hActiveStored (fun _ hMem => hSplit ▸ mem_append_right _ hMem)
  have hLinks := hSound.activeLinked
  rw [← hSplit, linked_append] at hLinks
  have hLast := hSound.last
  rw [← hSplit, headHash_append] at hLast
  have hSub :
      (manifest.pruned settings now removed remaining).heldSeqs.Sublist manifest.heldSeqs := by
    unfold GovernanceAuditManifest.heldSeqs
    rw [hSeqs]
    unfold GovernanceAuditManifest.pruned
    dsimp only
    split
    · rw [append_assoc]
    · exact (sublist_append_right _ _).append_left _
  -- Where nothing is archived, nothing is in the archive.
  have hSame : ∀ seq ∈ (manifest.pruned settings now removed remaining).heldSeqs,
        records'.get? seq = records.get? seq := by
    intro seq hMem
    apply hKept
    cases hArchives : settings.archives with
    | true => exact .inl rfl
    | false =>
      have hEmpty : manifest.archivedSeqs = [] := by
        by_contra hSome
        rw [hArchived hSome] at hArchives
        cases hArchives
      have hIn : seq ∈ remaining.map (·.seq) := by
        simpa [GovernanceAuditManifest.heldSeqs, GovernanceAuditManifest.pruned, hArchives,
          hEmpty] using hMem
      have hNodup := hSound.nodup
      unfold GovernanceAuditManifest.heldSeqs at hNodup
      rw [hEmpty, hSeqs, nil_append, nodup_append] at hNodup
      exact .inr (fun hOut => hNodup.2.2 seq hOut seq hIn rfl)
  have hActive' : recordsAt records' (manifest.pruned settings now removed remaining).activeSeqs =
        remaining := by
    rw [recordsAt_congr records]
    · exact hRemaining
    · exact fun seq hMem => hSame seq (mem_append_right _ hMem)
  have hArchived' :
      recordsAt records' (manifest.pruned settings now removed remaining).archivedSeqs =
        recordsAt records manifest.archivedSeqs ++ if settings.archives then removed else [] := by
    rw [recordsAt_congr records]
    · unfold GovernanceAuditManifest.pruned
      dsimp only
      split
      · rw [recordsAt_append, hRemoved]
      · rw [append_nil]
    · exact fun seq hMem => hSame seq (mem_append_left _ hMem)
  have hHead : settings.archives = true →
        recordChain.Linked (recordChain.headHash "" (recordsAt records manifest.archivedSeqs))
            removed ∧
          (manifest.archivedSeqs ≠ [] ∨ removed ≠ [] →
            recordChain.headHash "" (recordsAt records manifest.archivedSeqs) =
              manifest.activeAnchorPrevRecordHash) :=
    fun hArchives => hSound.archived_joins hLinks.1 (hOrigin hArchives)
  refine ⟨?_, hActive'⟩
  constructor
  · intro seq hMem
    rcases hSound.stored seq (hSub.subset hMem) with ⟨raw, hGet, hRaw⟩
    exact ⟨raw, (hSame seq hMem).trans hGet, hRaw⟩
  · exact hSub.nodup hSound.nodup
  · exact fun seq hMem => hSound.below seq (hSub.subset hMem)
  · rw [hArchived', linked_append]
    refine ⟨hSound.archivedLinked, ?_⟩
    split
    · next hArchives => exact (hHead hArchives).1
    · trivial
  · rw [hActive']
    exact hLinks.2
  · rw [hActive']
    exact hLast
  · intro hSome
    rw [hArchived']
    unfold GovernanceAuditManifest.pruned at hSome ⊢
    dsimp only at hSome ⊢
    cases hArchives : settings.archives with
    | true =>
      rw [hArchives, if_pos rfl] at hSome
      rw [if_pos rfl, headHash_append, (hHead hArchives).2]
      by_contra hBoth
      push Not at hBoth
      rw [hBoth.1, hBoth.2] at hSome
      exact hSome rfl
    | false =>
      rw [hArchives, if_neg (by decide)] at hSome
      rw [hArchived hSome] at hArchives
      cases hArchives

----------
-- Pruning
----------

/- A record is found by its number among different ones. -/
theorem find?_seq {records : List GovernanceAuditRecord}
    (hNodup : (records.map (·.seq)).Nodup) {record : GovernanceAuditRecord}
    (hMem : record ∈ records) :
    records.find? (fun other => other.seq = record.seq) = some record := by
  cases hFind : records.find? (fun other => other.seq = record.seq) with
  | none => simpa using List.find?_eq_none.mp hFind record hMem
  | some found =>
    have hSame : found.seq = record.seq := by simpa using find?_some hFind
    rw [inj_on_of_nodup_map hNodup (mem_of_find?_eq_some hFind) hMem hSame]

/- The active records that a pruning at this time removes. -/
def removedRecords (settings : LogSettings) (now : JsNumber) (active : List GovernanceAuditRecord) :
    List GovernanceAuditRecord :=
  active.filter (fun record => record.seq ∈ removable settings.maxEntries now active)

def remainingRecords (settings : LogSettings) (now : JsNumber)
    (active : List GovernanceAuditRecord) : List GovernanceAuditRecord :=
  active.filter (fun record => record.seq ∉ removable settings.maxEntries now active)

variable {active : List GovernanceAuditRecord}

theorem removed_append_remaining (hOldest : RemovesOldest settings.maxEntries now active) :
    removedRecords settings now active ++ remainingRecords settings now active = active := by
  have hSplit := filter_append_of_front hOldest
  simpa [removedRecords, remainingRecords] using hSplit

/- The anchor that a pruning writes is the last removed hash. -/
theorem ChainSound.pruned_anchor
    (hSound : ChainSound host settings.signingKey manifest store.records)
    {removed remaining : List GovernanceAuditRecord}
    (hSplit : removed ++ remaining = recordsAt store.records manifest.activeSeqs) :
    MemoryBackedLog.nextAnchor manifest (recordsAt store.records manifest.activeSeqs)
        (remaining.map (·.seq)) =
      recordChain.headHash manifest.activeAnchorPrevRecordHash removed := by
  have hLinks := hSound.activeLinked
  rw [← hSplit, linked_append] at hLinks
  have hLast := hSound.last
  rw [← hSplit, headHash_append] at hLast
  cases remaining with
  | nil => exact hLast.symm
  | cons first rest =>
    have hNodup : ((recordsAt store.records manifest.activeSeqs).map (·.seq)).Nodup := by
      rw [hSound.map_seq_active]
      exact (List.nodup_append.mp hSound.nodup).2.1
    have hFirst : first ∈ recordsAt store.records manifest.activeSeqs := by
      rw [← hSplit]
      simp
    rw [map_cons, MemoryBackedLog.nextAnchor, find?_seq hNodup hFirst]
    exact hLinks.2.1

/- What pruning does when it removes the oldest records. -/
theorem ChainSound.pruneInternal_eq
    (hSound : ChainSound host settings.signingKey manifest store.records)
    (hActive : recordsAt store.records manifest.activeSeqs = active)
    (hOldest : RemovesOldest settings.maxEntries now active) :
    MemoryBackedLog.pruneInternal settings now manifest store =
      if removable settings.maxEntries now active = [] then (.ok (0, manifest), store)
      else
        let removed := removedRecords settings now active
        let next := manifest.pruned settings now removed (remainingRecords settings now active)
        (.ok (removed.length, next), ⟨some next, if settings.archives then store.records
            else
              removed.foldl (fun records record => records.delete record.seq) store.records⟩) := by
  have hSplit := removed_append_remaining hOldest
  have hSeqs : manifest.activeSeqs = active.map (·.seq) := by
    rw [← hActive]
    exact hSound.map_seq_active.symm
  have hNext :
      manifest.activeSeqs.filter (fun seq => seq ∉ removable settings.maxEntries now active) =
        (remainingRecords settings now active).map (·.seq) := by
    rw [hSeqs, List.filter_map]
    rfl
  have hAnchor := hSound.pruned_anchor (hSplit.trans hActive.symm)
  have hArchives :
      (!settings.legalHold && decide (settings.retentionMode = .delete)) = !settings.archives := by
    unfold LogSettings.archives
    cases settings.legalHold <;> cases settings.retentionMode <;> rfl
  unfold MemoryBackedLog.pruneInternal
  rw [hSound.loadActive, hActive]
  dsimp only
  split
  · rfl
  · rw [hActive] at hAnchor
    rw [hNext, hAnchor, hArchives]
    unfold GovernanceAuditManifest.pruned removedRecords
    cases settings.archives <;> rfl

end

end AgencCore.Policy
