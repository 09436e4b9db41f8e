import AgencCore.Foundations.Runs
import AgencCore.Policy.AuditTrail
import AgencCore.Policy.GovernanceChain

/-
  Successive sessions over one store.

  A session opens the store with its settings, appends and prunes; the next one may tighten the
  retention. As long as events and settings can be stored as JSON, every pruning removes the oldest
  records, and no record is archived after older ones were deleted, every store that is reached can
  be opened and passes the check.
-/

namespace AgencCore.Policy

open Foundations Eval

section

structure AuditSession where
  settings : LogSettings
  store : AuditStore

inductive AuditStep where
  | create (settings : LogSettings) (readings : ClockReadings)
  | append (event : GovernanceAuditEvent) (readings : ClockReadings)
  | prune (readings : ClockReadings)

def AuditSession.step (host : GovernanceHost) (s : AuditSession) : AuditStep → AuditSession
| .create settings readings => match MemoryBackedLog.create settings host readings s.store with
    | (.ok _, store) => ⟨settings, store⟩
    | (.error _, store) => ⟨s.settings, store⟩
| .append event readings =>
  { s with store := (MemoryBackedLog.append s.settings host readings event s.store).2 }
| .prune readings => { s with store := (MemoryBackedLog.prune s.settings readings s.store).2 }

namespace AuditStore

/- The manifest that is stored, or the one of an empty log. -/
def manifestOr (store : AuditStore) (settings : LogSettings) : GovernanceAuditManifest :=
  store.manifest.getD (buildDefaultManifest 0 settings.retentionMode settings.legalHold)

end AuditStore

/- The settings are accepted for a manifest: a legal hold and the archive mode are kept. -/
def LogSettings.Accepts (settings : LogSettings) (manifest : GovernanceAuditManifest) : Prop :=
  (manifest.legalHold = true → settings.legalHold = true) ∧
    (manifest.retentionMode = .archive → settings.retentionMode = .archive)

instance (settings : LogSettings) (manifest : GovernanceAuditManifest) :
    Decidable (settings.Accepts manifest) := inferInstanceAs (Decidable ((_ → _) ∧ (_ → _)))

/- What a pruning looks at and changes. -/
structure LogView where
  anchor : String
  archivedSeqs : List Nat
  active : List GovernanceAuditRecord

namespace LogView

def ofManifest (manifest : GovernanceAuditManifest)
    (records : OrderedMap Nat StoredRecord) : LogView :=
  { anchor := manifest.activeAnchorPrevRecordHash, archivedSeqs := manifest.archivedSeqs
    active := recordsAt records manifest.activeSeqs }

/- A record is stored and read back at the end. -/
def append (view : LogView) (record : GovernanceAuditRecord) : LogView :=
  { view with active := view.active ++ [coerceGovernanceAuditRecord (cloneRecord record)] }

/- The oldest records of the first view were removed. -/
structure Pruned (settings : LogSettings) (view : LogView) (removed : List GovernanceAuditRecord)
    (view' : LogView) : Prop where
  active : removed ++ view'.active = view.active
  archivedSeqs : view'.archivedSeqs =
      if settings.archives then view.archivedSeqs ++ removed.map (·.seq)
      else view.archivedSeqs
  anchor : view'.anchor = recordChain.headHash view.anchor removed

/- Nothing was removed. -/
theorem Pruned.refl (settings : LogSettings) (view : LogView) : Pruned settings view [] view := by
  refine ⟨rfl, ?_, rfl⟩
  rw [List.map_nil, List.append_nil, ite_self]

end LogView

def AuditStore.view (store : AuditStore) (settings : LogSettings) : LogView :=
  .ofManifest (store.manifestOr settings) store.records

/- A pruning removes the oldest records, and what it archives first is the beginning of the log. -/
def PrunesWell (settings : LogSettings) (now : JsNumber) (view : LogView) : Prop :=
  RemovesOldest settings.maxEntries now view.active ∧
    (settings.archives = true → view.archivedSeqs = [] →
      removable settings.maxEntries now view.active ≠ [] → view.anchor = "")

/-
  What is asked of a step in the state it is taken in: times are finite, a new session keeps the key
  and is accepted, an event can be stored, and prunings go well.
-/
def AuditSession.AllowedStep (host : GovernanceHost) (s : AuditSession) : AuditStep → Prop
| .create settings readings =>
  readings.applied.isFinite = true ∧ settings.signingKey = s.settings.signingKey ∧
    ∀ manifest ∈ s.store.manifest, settings.Accepts manifest
| .append event readings =>
  let manifest := s.store.manifestOr s.settings
  readings.applied.isFinite = true ∧ readings.saved.isFinite = true ∧
    readings.pruned.isFinite = true ∧ StorableEvent s.settings event readings.built ∧
    ∀ record, buildRecord host event manifest.nextSeq readings.built
          s.settings.signingKey s.settings.redaction
          manifest.lastRecordHash s.settings.retentionMs = .ok record →
      PrunesWell s.settings readings.pruned ((s.store.view s.settings).append record)
| .prune readings =>
  readings.applied.isFinite = true ∧ readings.pruned.isFinite = true ∧
    PrunesWell s.settings readings.pruned (s.store.view s.settings)

----------
-- Sound Stores
----------

/- Removed records were archived under this manifest. -/
def GovernanceAuditManifest.archives (manifest : GovernanceAuditManifest) : Bool :=
  manifest.legalHold || manifest.retentionMode = .archive

/- A manifest with sound chains and an archive if it may. -/
structure ManifestSound (host : GovernanceHost) (signingKey : String)
    (manifest : GovernanceAuditManifest) (records : OrderedMap Nat StoredRecord) : Prop where
  chain : ChainSound host signingKey manifest records
  archived : manifest.archivedSeqs ≠ [] → manifest.archives = true

/- Every stored manifest is sound and can be read. -/
structure StoreSound (host : GovernanceHost) (settings : LogSettings)
    (store : AuditStore) : Prop where
  readable : ∀ manifest ∈ store.manifest, manifest.updatedAt.isFinite = true
  accepted : ∀ manifest ∈ store.manifest, settings.Accepts manifest
  sound : ∀ manifest ∈ store.manifest, ManifestSound host settings.signingKey manifest store.records

variable {host : GovernanceHost}
variable {settings : LogSettings}
variable {store : AuditStore}
variable {manifest : GovernanceAuditManifest}

theorem LogSettings.Accepts.archives
    (hAccepts : settings.Accepts manifest) (hArchives : manifest.archives = true) :
    settings.archives = true := by
  unfold GovernanceAuditManifest.archives at hArchives
  unfold LogSettings.archives
  rw [Bool.or_eq_true, decide_eq_true_iff] at hArchives ⊢
  exact hArchives.imp hAccepts.1 hAccepts.2

structure ModesOf (settings : LogSettings) (manifest : GovernanceAuditManifest) : Prop where
  mode : manifest.retentionMode = settings.retentionMode
  hold : manifest.legalHold = settings.legalHold

theorem ModesOf.accepts (hModes : ModesOf settings manifest) : settings.Accepts manifest :=
  ⟨fun hHold => hModes.hold ▸ hHold, fun hMode => hModes.mode ▸ hMode⟩

theorem ModesOf.archives (hModes : ModesOf settings manifest) :
    manifest.archives = settings.archives := by
  unfold GovernanceAuditManifest.archives LogSettings.archives
  rw [hModes.mode, hModes.hold]

/- The manifest an operation works on, and the store. -/
structure OpenLog (host : GovernanceHost) (settings : LogSettings)
    (manifest : GovernanceAuditManifest) (store : AuditStore) : Prop where
  modes : ModesOf settings manifest
  chain : ChainSound host settings.signingKey manifest store.records
  archived : manifest.archivedSeqs ≠ [] → settings.archives = true
  saved : ∀ stored ∈ store.manifest, stored = manifest ∧ stored.updatedAt.isFinite = true
  view : store.view settings = LogView.ofManifest manifest store.records

/- Opening a log changes its time and its modes at most. -/
structure SameLog (settings : LogSettings) (store : AuditStore) (manifest : GovernanceAuditManifest)
    (store' : AuditStore) : Prop where
  nextSeq : manifest.nextSeq = (store.manifestOr settings).nextSeq
  last : manifest.lastRecordHash = (store.manifestOr settings).lastRecordHash
  view : LogView.ofManifest manifest store'.records = store.view settings

theorem OpenLog.storeSound
    (hOpen : OpenLog host settings manifest store) : StoreSound host settings store := by
  constructor
  · exact fun stored hMem => (hOpen.saved stored hMem).2
  · intro stored hMem
    rw [(hOpen.saved stored hMem).1]
    exact hOpen.modes.accepts
  · intro stored hMem
    rw [(hOpen.saved stored hMem).1]
    exact ⟨hOpen.chain, fun hSome => hOpen.modes.archives.trans (hOpen.archived hSome)⟩

def GovernanceAuditManifest.withModes (manifest : GovernanceAuditManifest) (settings : LogSettings)
    (now : JsNumber) : GovernanceAuditManifest :=
  { manifest with
    updatedAt := now, retentionMode := settings.retentionMode, legalHold := settings.legalHold }

theorem applyRetentionPolicy_of_accepts
    (hAccepts : settings.Accepts manifest) (now : JsNumber) (store : AuditStore) :
    (manifest.retentionMode = settings.retentionMode ∧ manifest.legalHold = settings.legalHold ∧
        MemoryBackedLog.applyRetentionPolicy settings now manifest store = (.ok manifest, store)) ∨
      MemoryBackedLog.applyRetentionPolicy settings now manifest store =
        (.ok (manifest.withModes settings now),
          { store with manifest := some (manifest.withModes settings now) }) := by
  rcases manifest with ⟨_, _, _, _, _, _, mode, hold⟩
  rcases settings with ⟨_, _, _, _, mode', hold'⟩
  rcases hAccepts with ⟨hHold, hMode⟩
  dsimp only at hHold hMode
  unfold MemoryBackedLog.applyRetentionPolicy GovernanceAuditManifest.withModes
  cases mode <;> cases mode' <;> cases hold <;> cases hold' <;> simp_all

theorem applyRetentionPolicy_of_modes (hModes : ModesOf settings manifest) (now : JsNumber)
    (store : AuditStore) :
    MemoryBackedLog.applyRetentionPolicy settings now manifest store = (.ok manifest, store) := by
  unfold MemoryBackedLog.applyRetentionPolicy
  rw [hModes.mode, hModes.hold]
  cases settings.retentionMode <;> cases settings.legalHold <;> rfl

theorem StoreSound.openManifest (hStore : StoreSound host settings store) {readings : ClockReadings}
    (hFinite : readings.applied.isFinite = true) :
    ∃ manifest store',
      MemoryBackedLog.openManifest settings readings store = (.ok manifest, store') ∧
        OpenLog host settings manifest store' ∧ SameLog settings store manifest store' := by
  cases hGet : store.manifest with
  | none =>
    have hLoad : MemoryBackedLog.loadManifest settings readings.opened store =
          .ok (buildDefaultManifest readings.opened settings.retentionMode settings.legalHold) := by
      rw [MemoryBackedLog.loadManifest, hGet]
    have hOr : store.manifestOr settings =
          buildDefaultManifest 0 settings.retentionMode settings.legalHold := by
      rw [AuditStore.manifestOr, hGet]
      rfl
    refine ⟨buildDefaultManifest readings.opened settings.retentionMode settings.legalHold,
      store, ?_, ⟨⟨rfl, rfl⟩, chainSound_default _ _ _ _,
        (fun hSome => absurd rfl hSome), ?_, ?_⟩, ?_⟩
    · rw [MemoryBackedLog.openManifest, hLoad]
      exact applyRetentionPolicy_of_modes ⟨rfl, rfl⟩ _ _
    · intro stored hMem
      rw [hGet] at hMem
      cases hMem
    · rw [AuditStore.view, hOr]
      rfl
    · refine ⟨?_, ?_, ?_⟩
      · rw [hOr]
        rfl
      · rw [hOr]
        rfl
      · rw [AuditStore.view, hOr]
        rfl
  | some manifest =>
    have hReadable := hStore.readable manifest hGet
    have hAccepts := hStore.accepted manifest hGet
    have hSound := hStore.sound manifest hGet
    have hLoad : MemoryBackedLog.loadManifest settings readings.opened store = .ok manifest := by
      rw [MemoryBackedLog.loadManifest, hGet]
      exact if_pos hReadable
    have hOr : store.manifestOr settings = manifest := by
      rw [AuditStore.manifestOr, hGet]
      rfl
    have hArchived : manifest.archivedSeqs ≠ [] → settings.archives = true :=
      fun hSome => hAccepts.archives (hSound.archived hSome)
    have hView : store.view settings = LogView.ofManifest manifest store.records := by
      rw [AuditStore.view, hOr]
    rw [MemoryBackedLog.openManifest, hLoad]
    dsimp only
    rcases applyRetentionPolicy_of_accepts hAccepts readings.applied store with
      ⟨hMode, hHold, hApply⟩ | hApply
    · refine ⟨manifest, store, hApply,
        ⟨⟨hMode, hHold⟩, hSound.chain, hArchived, ?_, hView⟩, ⟨?_, ?_, hView.symm⟩⟩
      · intro stored hMem
        rw [hGet] at hMem
        cases hMem
        exact ⟨rfl, hReadable⟩
      · rw [hOr]
      · rw [hOr]
    · refine ⟨_, _, hApply,
        ⟨⟨rfl, rfl⟩, { hSound.chain with },
          hArchived, ?_, rfl⟩, ⟨?_, ?_, hView.symm⟩⟩
      · intro stored hMem
        cases hMem
        exact ⟨rfl, hFinite⟩
      · rw [hOr]
        rfl
      · rw [hOr]
        rfl

----------
-- Steps
----------

theorem ModesOf.pruned (hModes : ModesOf settings manifest) (now : JsNumber)
    (removed remaining : List GovernanceAuditRecord) :
    ModesOf settings (manifest.pruned settings now removed remaining) := ⟨hModes.mode, hModes.hold⟩

/- A pruning that goes well leaves a sound store. -/
theorem OpenLog.prune (hOpen : OpenLog host settings manifest store) {now : JsNumber}
    (hNow : now.isFinite = true)
    (hPrunes : PrunesWell settings now (.ofManifest manifest store.records)) :
    ∃ result store' removed,
      MemoryBackedLog.pruneInternal settings now manifest store = (.ok result, store') ∧
        StoreSound host settings store' ∧
        LogView.Pruned settings (.ofManifest manifest store.records) removed
          (store'.view settings) := by
  rw [hOpen.chain.pruneInternal_eq rfl hPrunes.1]
  split
  · refine ⟨_, _, [], rfl, hOpen.storeSound, ?_⟩
    rw [hOpen.view]
    exact .refl _ _
  · next hSome =>
      have hKept : ∀ seq, (settings.archives = true ∨
              seq ∉ (removedRecords settings now
                (recordsAt store.records manifest.activeSeqs)).map (·.seq)) →
            (if settings.archives then store.records
              else
                (removedRecords settings now (recordsAt store.records manifest.activeSeqs)).foldl
                  (fun records record => records.delete record.seq) store.records).get? seq =
              store.records.get? seq := by
        intro seq hKeep
        split
        · rfl
        · next hNot =>
            rcases hKeep with hArchives | hOther
            · exact absurd hArchives hNot
            · exact get?_foldl_delete _ _ hOther
      have hSplit := removed_append_remaining hPrunes.1
      rcases hOpen.chain.pruned settings now hSplit hOpen.archived
          (fun hArchives hEmpty _ => hPrunes.2 hArchives hEmpty hSome) _ hKept with
        ⟨hPruned, hActive⟩
      refine ⟨_, _, removedRecords settings now (recordsAt store.records manifest.activeSeqs), rfl,
        OpenLog.storeSound ⟨hOpen.modes.pruned now _ _, hPruned, ?_, ?_, rfl⟩, ⟨?_, rfl, rfl⟩⟩
      · intro hSeqs
        by_contra hNot
        unfold GovernanceAuditManifest.pruned at hSeqs
        dsimp only at hSeqs
        rw [if_neg hNot] at hSeqs
        exact hNot (hOpen.archived hSeqs)
      · intro stored hMem
        cases hMem
        exact ⟨rfl, hNow⟩
      · refine Eq.trans ?_ hSplit
        exact congrArg
          (fun active => removedRecords settings now
            (recordsAt store.records manifest.activeSeqs) ++ active) hActive

variable {event : GovernanceAuditEvent}

theorem OpenLog.append (hOpen : OpenLog host settings manifest store) {now saved : JsNumber}
    {record : GovernanceAuditRecord} (hSaved : saved.isFinite = true)
    (hBuilt : BuiltRecord host settings event manifest.nextSeq now manifest.lastRecordHash record)
    (hEvent : StorableEvent settings event now) :
    OpenLog host settings (manifest.appended saved record)
        ⟨some (manifest.appended saved record), store.records.set record.seq (cloneRecord record)⟩ ∧
      LogView.ofManifest (manifest.appended saved record)
          (store.records.set record.seq (cloneRecord record)) =
        (LogView.ofManifest manifest store.records).append record := by
  have hNew : record.seq ∉ manifest.activeSeqs := by
    rw [hBuilt.seq]
    exact fun hMem => hOpen.chain.nextSeq_fresh (List.mem_append_right _ hMem)
  have hAppended :=
    hOpen.chain.append saved hBuilt.seq hBuilt.previous hBuilt.hashed (hBuilt.storable hEvent)
  refine ⟨⟨⟨hOpen.modes.mode, hOpen.modes.hold⟩, hAppended, hOpen.archived, ?_, rfl⟩, ?_⟩
  · intro stored hMem
    cases hMem
    exact ⟨rfl, hSaved⟩
  · unfold LogView.ofManifest LogView.append
    rw [hOpen.chain.appended_anchor saved hBuilt.previous, ← recordsAt_set_concat hNew]
    rfl

variable {readings : ClockReadings}
variable (hStore : StoreSound host settings store)
include hStore

/- A sound store can be opened, whatever the limits are. -/
theorem StoreSound.create (hFinite : readings.applied.isFinite = true) : ∃ store',
      MemoryBackedLog.create settings host readings store = (.ok (), store') ∧
        StoreSound host settings store' ∧ store'.view settings = store.view settings := by
  rcases hStore.openManifest hFinite with ⟨manifest, store', hEq, hOpen, hSame⟩
  rcases hOpen.chain.verifyInternal_valid with ⟨verification, hVerify, hValid⟩
  refine ⟨store', ?_, hOpen.storeSound, hOpen.view.trans hSame.view⟩
  rw [MemoryBackedLog.create, hEq]
  dsimp only
  rw [hVerify]
  exact if_pos hValid

theorem StoreSound.prune
    (hApplied : readings.applied.isFinite = true) (hPruned : readings.pruned.isFinite = true)
    (hPrunes : PrunesWell settings readings.pruned (store.view settings)) :
    ∃ removed, StoreSound host settings (MemoryBackedLog.prune settings readings store).2 ∧
        LogView.Pruned settings (store.view settings) removed
          ((MemoryBackedLog.prune settings readings store).2.view settings) := by
  rcases hStore.openManifest hApplied with ⟨manifest, store', hEq, hOpen, hSame⟩
  rw [← hSame.view] at hPrunes ⊢
  rcases hOpen.prune hPruned hPrunes with ⟨⟨count, next⟩, store'', removed, hPrune, hSound⟩
  rw [MemoryBackedLog.prune, hEq]
  dsimp only
  rw [hPrune]
  exact ⟨removed, hSound⟩

/- An event is not stored, or its record comes last. -/
theorem StoreSound.append (hApplied : readings.applied.isFinite = true)
    (hSaved : readings.saved.isFinite = true) (hPruned : readings.pruned.isFinite = true)
    (hEvent : StorableEvent settings event readings.built)
    (hPrunes : ∀ record, buildRecord host event (store.manifestOr settings).nextSeq readings.built
            settings.signingKey settings.redaction (store.manifestOr settings).lastRecordHash
            settings.retentionMs = .ok record →
        PrunesWell settings readings.pruned ((store.view settings).append record)) :
    let store' := (MemoryBackedLog.append settings host readings event store).2
    StoreSound host settings store' ∧
      (store'.view settings = store.view settings ∨
        ∃ seq prevRecordHash record removed,
          BuiltRecord host settings event seq readings.built prevRecordHash record ∧
            LogView.Pruned settings ((store.view settings).append record) removed
              (store'.view settings)) := by
  rcases hStore.openManifest hApplied with ⟨manifest, store', hEq, hOpen, hSame⟩
  rw [← hSame.nextSeq, ← hSame.last, ← hSame.view] at hPrunes
  rw [← hSame.view, MemoryBackedLog.append, hEq]
  dsimp only
  cases hBuild : buildRecord host event manifest.nextSeq
      readings.built settings.signingKey settings.redaction
      manifest.lastRecordHash settings.retentionMs with
  | error error => exact ⟨hOpen.storeSound, .inl hOpen.view⟩
  | ok record =>
    have hBuilt := builtRecord_of_ok hBuild
    rcases hOpen.append hSaved hBuilt hEvent with ⟨hAppended, hView⟩
    have hGoes := hPrunes record hBuild
    rw [← hView] at hGoes
    rcases hAppended.prune hPruned hGoes with ⟨result, store'', removed, hPrune, hSound, hNext⟩
    rw [hView] at hNext
    dsimp only
    rw [hPrune]
    exact ⟨hSound, .inr ⟨_, _, record, removed, hBuilt, hNext⟩⟩

----------
-- Runs
----------

omit hStore

def AuditSession.Sound (host : GovernanceHost) (s : AuditSession) : Prop :=
  StoreSound host s.settings s.store

theorem StoreSound.of_accepted {settings settings' : LogSettings} {store : AuditStore}
    (hStore : StoreSound host settings store) (hKey : settings'.signingKey = settings.signingKey)
    (hAccepts : ∀ manifest ∈ store.manifest, settings'.Accepts manifest) :
    StoreSound host settings' store := by
  refine ⟨hStore.readable, hAccepts, ?_⟩
  rw [hKey]
  exact hStore.sound

theorem AuditSession.Sound.step (s : AuditSession) (step : AuditStep) (hSound : s.Sound host)
    (hAllowed : s.AllowedStep host step) : (s.step host step).Sound host := by
  cases step with
  | create settings readings =>
    rcases hAllowed with ⟨hFinite, hKey, hAccepts⟩
    rcases (StoreSound.of_accepted hSound hKey hAccepts).create hFinite with
      ⟨store', hCreate, hStore, _⟩
    rw [AuditSession.step, hCreate]
    exact hStore
  | append event readings =>
    rcases hAllowed with ⟨hApplied, hSaved, hPruned, hEvent, hPrunes⟩
    exact (StoreSound.append hSound hApplied hSaved hPruned hEvent hPrunes).1
  | prune readings =>
    rcases hAllowed with ⟨hApplied, hPruned, hPrunes⟩
    rcases StoreSound.prune hSound hApplied hPruned hPrunes with ⟨removed, hStore, _⟩
    exact hStore

theorem AuditSession.sound_empty (settings : LogSettings) :
    AuditSession.Sound host ⟨settings, AuditStore.empty⟩ :=
  ⟨nofun, nofun, nofun⟩

/- A sound store passes the check of the log that is open. -/
theorem StoreSound.verify {settings : LogSettings} {store : AuditStore}
    (hStore : StoreSound host settings store) (readings : ClockReadings) :
    ∃ verification, MemoryBackedLog.verify settings host readings store = .ok verification ∧
        verification.valid = true := by
  unfold MemoryBackedLog.verify MemoryBackedLog.loadManifest
  cases hGet : store.manifest with
  | none => exact (chainSound_default _ _ _ store.records).verifyInternal_valid
  | some manifest =>
    dsimp only
    rw [if_pos (hStore.readable manifest hGet)]
    exact (hStore.sound manifest hGet).chain.verifyInternal_valid

/-
  In every history of sessions with the same key whose steps are allowed the log verifies, and every
  session that is accepted can open it.
-/
theorem accepted_sessions_verify (settings : LogSettings) (steps : List AuditStep)
    (hAllowed : AlongRun (AuditSession.step host) (AuditSession.AllowedStep host)
        ⟨settings, AuditStore.empty⟩ steps) :
    let s := runSteps (AuditSession.step host) ⟨settings, AuditStore.empty⟩ steps
    (∀ readings, ∃ verification,
        MemoryBackedLog.verify s.settings host readings s.store = .ok verification ∧
          verification.valid = true) ∧
      ∀ settings' readings, s.AllowedStep host (.create settings' readings) →
          (MemoryBackedLog.create settings' host readings s.store).1 = .ok () := by
  have hSound : (runSteps (AuditSession.step host) ⟨settings, AuditStore.empty⟩ steps).Sound host :=
    runSteps_invariant AuditSession.Sound.step (AuditSession.sound_empty settings) hAllowed
  refine ⟨hSound.verify, ?_⟩
  rintro settings' readings ⟨hFinite, hKey, hAccepts⟩
  rcases (StoreSound.of_accepted hSound hKey hAccepts).create hFinite with ⟨store', hCreate, _, _⟩
  rw [hCreate]

/- A host whose hashes are marked copies of the text. -/
def GovernanceHost.stroke : GovernanceHost where
  eval := AuditHost.stroke.eval
  toISOString := fun _ => some "1970-01-01T00:00:00.000Z"
  hmac := fun key text => key ++ text
  replaceAll := fun _ _ text => text

/- Settings without redaction or expiry. -/
def LogSettings.plain (retentionMode : GovernanceAuditRetentionMode)
    (maxEntries : Option JsNumber) : LogSettings :=
  { signingKey := "key", redaction := ⟨false, [], []⟩, retentionMs := none, maxEntries := maxEntries
    retentionMode := retentionMode, legalHold := false }

/- Every reading shows the same time. -/
def ClockReadings.at (now : JsNumber) : ClockReadings := ⟨now, now, now, now, now⟩

def GovernanceAuditEvent.plain : GovernanceAuditEvent :=
  ⟨.policyDenied, none, none, none, none, none⟩

/- Without limits and expiry nothing is removed. -/
theorem PrunesWell.of_unlimited {settings : LogSettings} {now : JsNumber} {view : LogView}
    (hLimit : settings.maxEntries = none)
    (hExpiry : ∀ record ∈ view.active, record.expiresAtMs = none) :
    PrunesWell settings now view := by
  have hNone : removable settings.maxEntries now view.active = [] := by
    have hExpired : view.active.filter (fun record => record.isExpired now) = [] := by
      rw [List.filter_eq_nil_iff]
      intro record hMem
      rw [GovernanceAuditRecord.isExpired, hExpiry record hMem]
      exact Bool.false_ne_true
    unfold removable
    rw [hExpired, hLimit]
    rfl
  refine ⟨?_, fun _ _ hSome => absurd hNone hSome⟩
  unfold RemovesOldest
  rw [hNone]
  simp

/- A log without limits verifies and is taken over by one that archives. -/
theorem archiving_session_verifies :
    let s := runSteps (AuditSession.step .stroke) ⟨.plain .delete none, AuditStore.empty⟩
      [.append .plain (.at 0)]
    (∃ verification, MemoryBackedLog.verify s.settings .stroke (.at 1) s.store = .ok verification ∧
        verification.valid = true) ∧
      (MemoryBackedLog.create (.plain .archive none) .stroke (.at 1) s.store).1 = .ok () := by
  refine (accepted_sessions_verify (.plain .delete none) [.append .plain (.at 0)]
    ⟨⟨rfl, rfl, rfl, ?_, ?_⟩, trivial⟩).imp (fun h => h _) (fun h => h _ _ ⟨rfl, rfl, ?_⟩)
  · exact ⟨nofun, nofun⟩
  · intro record hBuild
    have hBuilt := builtRecord_of_ok hBuild
    apply PrunesWell.of_unlimited rfl
    intro stored hMem
    rw [List.mem_singleton.mp hMem]
    have hExpiry : record.expiresAtMs = none := hBuilt.expiry
    unfold coerceGovernanceAuditRecord cloneRecord
    rw [hExpiry]
    rfl
  · intro manifest hMem
    cases hMem
    exact ⟨nofun, fun _ => rfl⟩

/- A log that deleted its first record and then archives the second cannot be opened any more. -/
theorem tightened_log_refused :
    let s := runSteps (AuditSession.step .stroke) ⟨.plain .delete (some 1), AuditStore.empty⟩
      [.append .plain (.at 0), .append .plain (.at 0), .create (.plain .archive (some 1)) (.at 0),
        .append .plain (.at 0)]
    s.settings.retentionMode = .archive ∧
      (∀ manifest ∈ s.store.manifest, (LogSettings.plain .archive (some 1)).Accepts manifest) ∧
      (MemoryBackedLog.create (.plain .archive (some 1)) .stroke (.at 0) s.store).1 =
        .error "Governance audit log verification failed: record chain link broken" ∧
      (MemoryBackedLog.verify (.plain .archive (some 1)) .stroke (.at 0) s.store).map
          (·.valid) = .ok false := by decide +kernel

end

end AgencCore.Policy
