import AgencCore.Foundations.HashChain
import AgencCore.Policy.GovernanceRecord

/-
  The two governance audit logs.

  `InMemoryLog` keeps its records in two lists. `MemoryBackedLog` keeps a manifest and one stored
  record for each sequence number in a backend, and a process that restarts finds them there. Both
  remove records that have expired or are too many, and delete or archive them.

  An operation is one critical section of the queue that the log runs them in. Every place where it
  reads the clock has its own reading in `ClockReadings`. What an operation wrote stays written when
  it fails later on.

  A stored manifest is read back as it was written, unless its time is not finite: it is then `null`
  and refused.
-/

namespace AgencCore.Policy

open Foundations Eval

section

inductive GovernanceAuditRetentionMode where
  | delete
  | archive
deriving DecidableEq

/- What a log has taken from its configuration. -/
structure LogSettings where
  signingKey : String
  redaction : CompiledRedactionPolicy
  retentionMs : Option JsNumber
  maxEntries : Option JsNumber
  retentionMode : GovernanceAuditRetentionMode
  legalHold : Bool

namespace LogSettings

/- Removed records are kept in the archive. -/
def archives (settings : LogSettings) : Bool :=
  settings.legalHold || settings.retentionMode = .archive

end LogSettings

/- The readings of the clock during one operation. -/
structure ClockReadings where
  opened : JsNumber
  applied : JsNumber
  built : JsNumber
  saved : JsNumber
  pruned : JsNumber
deriving DecidableEq

def GovernanceAuditRecord.isExpired (now : JsNumber) (record : GovernanceAuditRecord) : Bool :=
  record.expiresAtMs.any (fun expiresAtMs => expiresAtMs.le now)

/- How far `slice(0, count)` goes. -/
def sliceEnd : JsNumber → Nat
| .finite count => count.floor.toNat
| _ => 0

/- How many of the retained records are too many. -/
def overflowCount (maxEntries : Option JsNumber) (retained : Nat) : Nat :=
  match maxEntries with
  | none => 0
  | some most =>
    if JsNumber.le 0 most && JsNumber.lt most (.ofInt retained) then
      sliceEnd (JsNumber.sub (.ofInt retained) most)
    else 0

/- The sequence numbers of the records to be removed. -/
def removable (maxEntries : Option JsNumber) (now : JsNumber)
    (activeRecords : List GovernanceAuditRecord) : List Nat :=
  let expired := (activeRecords.filter
    (fun record => record.isExpired now)).map (·.seq)
  let retainedAfterExpiry := activeRecords.filter (fun record => record.seq ∉ expired)
  let overflow := (retainedAfterExpiry.take
    (overflowCount maxEntries retainedAfterExpiry.length)).map (·.seq)
  expired ++ overflow

structure GovernanceAuditVerification where
  valid : Bool
  entries : Nat
  archivedEntries : Option Nat
  brokenAt : Option Nat
  message : Option String
  anchorPrevRecordHash : Option String
deriving DecidableEq

variable (host : GovernanceHost)

/- The loop over the records, with the last hash seen. -/
def verifyChainFrom (signingKey : String) (count : Nat) :
    String → List GovernanceAuditRecord → GovernanceAuditVerification
| _, [] => ⟨true, count, none, none, none, none⟩
| previousHash, record :: rest =>
  if record.recordHash ≠ computeHash host (canonicalizeRecord record.toGovernanceAuditFields) then
    ⟨false, count, none, some record.seq, some "record hash mismatch", none⟩
  else if record.signature ≠ signRecord host signingKey record.recordHash then
    ⟨false, count, none, some record.seq, some "record signature mismatch", none⟩
  else if record.prevRecordHash ≠ previousHash then
    ⟨false, count, none, some record.seq, some "record chain link broken", none⟩
  else verifyChainFrom signingKey count record.recordHash rest

def verifyRecordChain (records : List GovernanceAuditRecord) (signingKey : String)
    (initialPrevRecordHash : String) : GovernanceAuditVerification :=
  verifyChainFrom host signingKey records.length initialPrevRecordHash records

/- The archived chain, the joint, and the active chain. -/
def verifyRecords (signingKey : String) (archivedRecords activeRecords : List GovernanceAuditRecord)
    (activeAnchorPrevRecordHash : String) : GovernanceAuditVerification :=
  let archivedResult := verifyRecordChain host archivedRecords signingKey ""
  if !archivedResult.valid then
    { archivedResult with archivedEntries := some archivedRecords.length }
  else if archivedRecords.length > 0 ∧ activeRecords.length > 0 ∧
      some activeAnchorPrevRecordHash ≠
        archivedRecords.getLast?.map (·.recordHash) then
    { valid := false, entries := activeRecords.length
      archivedEntries := some archivedRecords.length
      brokenAt := activeRecords.head?.map (·.seq)
      message := some "active chain anchor mismatch", anchorPrevRecordHash := none }
  else
    let activeResult := verifyRecordChain host activeRecords signingKey activeAnchorPrevRecordHash
    let anchor := truthy (some activeAnchorPrevRecordHash)
    if !activeResult.valid then
      { activeResult with
        archivedEntries := some archivedRecords.length, anchorPrevRecordHash := anchor }
    else
      { valid := true, entries := activeRecords.length
        archivedEntries := some archivedRecords.length, brokenAt := none, message := none
        anchorPrevRecordHash := anchor }

end

structure InMemoryLog where
  activeRecords : List GovernanceAuditRecord
  archivedRecords : List GovernanceAuditRecord
  activeAnchorPrevRecordHash : String
  lastRecordHash : String

namespace InMemoryLog

def empty : InMemoryLog := ⟨[], [], "", ""⟩

/- The number of the newest record that is still there. -/
def lastSeq (log : InMemoryLog) : Option Nat :=
  (log.activeRecords.getLast?.map
    (·.seq)).or (log.archivedRecords.getLast?.map (·.seq))

def prune (settings : LogSettings) (now : JsNumber) (log : InMemoryLog) : Nat × InMemoryLog :=
  let seqs := removable settings.maxEntries now log.activeRecords
  if seqs = [] then (0, log)
  else
    let removed := log.activeRecords.filter (fun record => record.seq ∈ seqs)
    let activeRecords := log.activeRecords.filter (fun record => record.seq ∉ seqs)
    (removed.length,
      { log with
        activeRecords := activeRecords
        archivedRecords := if settings.archives then log.archivedRecords ++ removed
          else log.archivedRecords
        activeAnchorPrevRecordHash :=
          (activeRecords.head?.map (·.prevRecordHash)).getD log.lastRecordHash })

variable (host : GovernanceHost)

def append (settings : LogSettings) (readings : ClockReadings) (event : GovernanceAuditEvent)
    (log : InMemoryLog) : Except String GovernanceAuditRecord × InMemoryLog :=
  match buildRecord host event (log.lastSeq.getD 0 + 1)
      readings.built settings.signingKey settings.redaction
      log.lastRecordHash settings.retentionMs with
  | .error error => (.error error, log)
  | .ok record =>
    let activeRecords := log.activeRecords ++ [record]
    let appended : InMemoryLog :=
      { log with
        activeRecords := activeRecords, lastRecordHash := record.recordHash
        activeAnchorPrevRecordHash := if activeRecords.length = 1 then record.prevRecordHash
          else log.activeAnchorPrevRecordHash }
    (.ok record, (appended.prune settings readings.pruned).2)

end InMemoryLog

----------
-- Memory-Backed Log
----------

structure GovernanceAuditManifest where
  updatedAt : JsNumber
  nextSeq : Nat
  activeSeqs : List Nat
  archivedSeqs : List Nat
  activeAnchorPrevRecordHash : String
  lastRecordHash : String
  retentionMode : GovernanceAuditRetentionMode
  legalHold : Bool
deriving DecidableEq

def buildDefaultManifest (now : JsNumber) (retentionMode : GovernanceAuditRetentionMode)
    (legalHold : Bool) : GovernanceAuditManifest :=
  { updatedAt := now, nextSeq := 1, activeSeqs := [], archivedSeqs := []
    activeAnchorPrevRecordHash := "", lastRecordHash := "", retentionMode := retentionMode
    legalHold := legalHold }

def GovernanceAuditManifest.appended (manifest : GovernanceAuditManifest) (now : JsNumber)
    (record : GovernanceAuditRecord) : GovernanceAuditManifest :=
  { manifest with
    updatedAt := now, nextSeq := record.seq + 1, activeSeqs := manifest.activeSeqs ++ [record.seq]
    activeAnchorPrevRecordHash := if manifest.activeSeqs.length = 0 then record.prevRecordHash
      else manifest.activeAnchorPrevRecordHash, lastRecordHash := record.recordHash }

/- What the backend holds for a log. -/
structure AuditStore where
  manifest : Option GovernanceAuditManifest
  records : OrderedMap Nat StoredRecord

def AuditStore.empty : AuditStore := ⟨none, .empty⟩

namespace MemoryBackedLog

variable (settings : LogSettings)

def loadManifest (now : JsNumber) (store : AuditStore) : Except String GovernanceAuditManifest :=
  match store.manifest with
  | none => .ok (buildDefaultManifest now settings.retentionMode settings.legalHold)
  | some manifest => if manifest.updatedAt.isFinite then .ok manifest
      else .error "Governance audit manifest is invalid"

/- Load the records, all of which have to be there. -/
def loadRecords (store : AuditStore) : List Nat → Except String (List GovernanceAuditRecord)
| [] => .ok []
| seq :: rest =>
  match store.records.get? seq with
  | none => .error ("Governance audit record " ++ toString seq ++ " is missing or invalid")
  | some raw =>
    (loadRecords store rest).map (fun records => coerceGovernanceAuditRecord raw :: records)

def applyRetentionPolicy (now : JsNumber) (manifest : GovernanceAuditManifest)
    (store : AuditStore) : Except String GovernanceAuditManifest × AuditStore :=
  if manifest.legalHold && !settings.legalHold then
    (.error "Governance audit legal hold is immutable once enabled for a log store", store)
  else if manifest.retentionMode = .archive ∧ settings.retentionMode = .delete then
    (.error "Governance audit retentionMode cannot be downgraded from archive to delete", store)
  else if manifest.retentionMode = settings.retentionMode ∧
      manifest.legalHold = settings.legalHold then (.ok manifest, store)
  else
    let nextManifest :=
      { manifest with
        updatedAt := now, retentionMode := if manifest.retentionMode = .archive then .archive
          else settings.retentionMode, legalHold := manifest.legalHold || settings.legalHold }
    (.ok nextManifest, { store with manifest := some nextManifest })

/- `applyRetentionPolicy(await loadManifest())` -/
def openManifest (readings : ClockReadings) (store : AuditStore) :
    Except String GovernanceAuditManifest × AuditStore :=
  match loadManifest settings readings.opened store with
  | .error error => (.error error, store)
  | .ok manifest => applyRetentionPolicy settings readings.applied manifest store

def nextAnchor (manifest : GovernanceAuditManifest) (activeRecords : List GovernanceAuditRecord) :
    List Nat → String
| [] => manifest.lastRecordHash
| first :: _ =>
  ((activeRecords.find?
    (fun record => record.seq = first)).map
      (·.prevRecordHash)).getD manifest.activeAnchorPrevRecordHash

def pruneInternal (now : JsNumber) (manifest : GovernanceAuditManifest) (store : AuditStore) :
    Except String (Nat × GovernanceAuditManifest) × AuditStore :=
  match loadRecords store manifest.activeSeqs with
  | .error error => (.error error, store)
  | .ok activeRecords =>
    let seqs := removable settings.maxEntries now activeRecords
    if seqs = [] then (.ok (0, manifest), store)
    else
      let removedRecords := activeRecords.filter (fun record => record.seq ∈ seqs)
      let nextActiveSeqs := manifest.activeSeqs.filter (fun seq => seq ∉ seqs)
      let nextArchivedSeqs :=
        if settings.archives then
          manifest.archivedSeqs ++ removedRecords.map (·.seq)
        else manifest.archivedSeqs
      let records :=
        if !settings.legalHold && settings.retentionMode = .delete then
          removedRecords.foldl (fun records record => records.delete record.seq) store.records
        else store.records
      let nextManifest :=
        { manifest with
          updatedAt := now, activeSeqs := nextActiveSeqs, archivedSeqs := nextArchivedSeqs
          activeAnchorPrevRecordHash := nextAnchor manifest activeRecords nextActiveSeqs }
      (.ok (removedRecords.length, nextManifest), ⟨some nextManifest, records⟩)

variable (host : GovernanceHost)

def verifyInternal (manifest : GovernanceAuditManifest) (store : AuditStore) :
    Except String GovernanceAuditVerification :=
  (loadRecords store manifest.archivedSeqs).bind
    (fun archivedRecords =>
      (loadRecords store manifest.activeSeqs).map
        (fun activeRecords =>
          verifyRecords host settings.signingKey archivedRecords activeRecords
            manifest.activeAnchorPrevRecordHash))

def append (readings : ClockReadings) (event : GovernanceAuditEvent) (store : AuditStore) :
    Except String GovernanceAuditRecord × AuditStore :=
  match openManifest settings readings store with
  | (.error error, store) => (.error error, store)
  | (.ok manifest, store) =>
    match buildRecord host event manifest.nextSeq readings.built settings.signingKey
        settings.redaction manifest.lastRecordHash settings.retentionMs with
    | .error error => (.error error, store)
    | .ok record => let nextManifest := manifest.appended readings.saved record
        match pruneInternal settings readings.pruned nextManifest
            ⟨some nextManifest, store.records.set record.seq (cloneRecord record)⟩ with
        | (.error error, store) => (.error error, store)
        | (.ok _, store) => (.ok record, store)

def prune (readings : ClockReadings) (store : AuditStore) : Except String Nat × AuditStore :=
  match openManifest settings readings store with
  | (.error error, store) => (.error error, store)
  | (.ok manifest, store) => match pruneInternal settings readings.pruned manifest store with
      | (.error error, store) => (.error error, store)
      | (.ok (removed, _), store) => (.ok removed, store)

def verify (readings : ClockReadings) (store : AuditStore) :
    Except String GovernanceAuditVerification :=
  (loadManifest settings readings.opened store).bind
    (fun manifest => verifyInternal settings host manifest store)

/- What `create` does once the constructor has returned. -/
def create (readings : ClockReadings) (store : AuditStore) : Except String Unit × AuditStore :=
  match openManifest settings readings store with
  | (.error error, store) => (.error error, store)
  | (.ok manifest, store) =>
    match verifyInternal settings host manifest store with
    | .error error => (.error error, store)
    | .ok verification => if verification.valid then (.ok (), store)
        else
          (.error
            ("Governance audit log verification failed: " ++
              verification.message.getD "unknown error"), store)

end MemoryBackedLog

end AgencCore.Policy
