import AgencCore.Policy.GovernanceSessions

/-
  The life of one log with a fixed configuration.

  Records that are built later expire later, so what a pruning removes are the oldest ones, and a
  log that archives has archived from its first record on. Every log that is reached verifies and
  can be opened again if JSON can hold its events and its expiry times.
-/

namespace AgencCore.Policy

open Foundations Eval List

section

/- The first record has expired whenever the second has. -/
def ExpiresFirst (a b : GovernanceAuditRecord) : Prop :=
  ∀ now, b.isExpired now = true → a.isExpired now = true

/- What holds of a record holds of those before it. -/
theorem exists_front_of_pairwise {α : Type} {p : α → Bool} {l : List α}
    (hOrdered : l.Pairwise (fun a b => p b = true → p a = true)) :
    ∃ front rest, l = front ++ rest ∧ (∀ a ∈ front, p a = true) ∧ ∀ a ∈ rest, p a = false := by
  induction l with
  | nil => exact ⟨[], [], rfl, nofun, nofun⟩
  | cons a rest ih =>
    rcases List.pairwise_cons.mp hOrdered with ⟨hFirst, hRest⟩
    cases hA : p a with
    | true =>
      rcases ih hRest with ⟨front, rest', hEq, hYes, hNo⟩
      refine ⟨a :: front, rest', by rw [hEq]; rfl, ?_, hNo⟩
      exact List.forall_mem_cons.mpr ⟨hA, hYes⟩
    | false =>
      refine ⟨[], a :: rest, rfl, nofun, ?_⟩
      refine List.forall_mem_cons.mpr ⟨hA, ?_⟩
      intro b hMem
      cases hB : p b with
      | false => rfl
      | true => exact (hFirst b hMem hB).symm.trans hA

/- Among different keys the front has its own. -/
theorem filter_key_mem_front {α : Type} {key : α → Nat} {front rest : List α}
    (hNodup : ((front ++ rest).map key).Nodup) :
    (front ++ rest).filter (fun a => decide (key a ∈ front.map key)) = front ∧
      (front ++ rest).filter (fun a => decide (key a ∉ front.map key)) = rest := by
  rw [map_append, nodup_append] at hNodup
  have hIn : ∀ a ∈ front, decide (key a ∈ front.map key) = true :=
    fun a hMem => decide_eq_true (List.mem_map_of_mem hMem)
  have hOut : ∀ a ∈ rest, decide (key a ∈ front.map key) = false := by
    intro a hMem
    apply decide_eq_false
    intro hKey
    exact hNodup.2.2 _ hKey _ (List.mem_map_of_mem hMem) rfl
  constructor
  · rw [filter_append, List.filter_eq_self.mpr hIn,
      List.filter_eq_nil_iff.mpr (fun a hMem => by rw [hOut a hMem]; decide), append_nil]
  · simp only [decide_not]
    rw [filter_append, List.filter_eq_nil_iff.mpr (fun a hMem => by rw [hIn a hMem]; decide),
      List.filter_eq_self.mpr (fun a hMem => by rw [hOut a hMem]; rfl), nil_append]

/- In the order of expiry the oldest records are removed. -/
theorem removesOldest_of_ordered (maxEntries : Option JsNumber) (now : JsNumber)
    {active : List GovernanceAuditRecord} (hNodup : (active.map (·.seq)).Nodup)
    (hOrdered : active.Pairwise ExpiresFirst) : RemovesOldest maxEntries now active := by
  rcases exists_front_of_pairwise (p := fun record => record.isExpired now)
      (hOrdered.imp (fun hFirst => hFirst now)) with ⟨expired, fresh, hSplit, hYes, hNo⟩
  rw [hSplit] at hNodup ⊢
  have hExpired : (expired ++ fresh).filter (fun record => record.isExpired now) = expired := by
    rw [filter_append, List.filter_eq_self.mpr hYes,
      List.filter_eq_nil_iff.mpr (fun record hMem => by rw [hNo record hMem]; decide),
      append_nil]
  have hFresh := (filter_key_mem_front hNodup).2
  have hRemovable : removable maxEntries now (expired ++ fresh) =
        (expired ++ fresh.take
          (overflowCount maxEntries fresh.length)).map (·.seq) := by
    unfold removable
    rw [hExpired]
    dsimp only
    rw [hFresh, map_append]
  unfold RemovesOldest
  rw [hRemovable]
  have hWhole : expired ++ fresh =
        (expired ++ fresh.take (overflowCount maxEntries fresh.length)) ++
          fresh.drop (overflowCount maxEntries fresh.length) := by
    rw [append_assoc, take_append_drop]
  rw [hWhole] at hNodup ⊢
  rw [(filter_key_mem_front hNodup).1]
  exact prefix_append _ _

----------
-- Steps
----------

inductive LogStep where
  | append (event : GovernanceAuditEvent) (readings : ClockReadings)
  | prune (readings : ClockReadings)
  | restart (readings : ClockReadings)

/- A step of a log whose configuration is kept. -/
def LogStep.toAuditStep (settings : LogSettings) : LogStep → AuditStep
| .append event readings => .append event readings
| .prune readings => .prune readings
| .restart readings => .create settings readings

def AuditStore.step (host : GovernanceHost) (settings : LogSettings) (store : AuditStore)
    (step : LogStep) : AuditStore :=
  (AuditSession.step host ⟨settings, store⟩ (step.toAuditStep settings)).store

/-
  What is asked of a step: times are finite, JSON can hold the event, and its record does not expire
  before those that are active.
-/
def LogStep.Allowed (settings : LogSettings) (store : AuditStore) : LogStep → Prop
| .append event readings =>
  readings.applied.isFinite = true ∧ readings.saved.isFinite = true ∧
    readings.pruned.isFinite = true ∧ StorableEvent settings event readings.built ∧
    ∀ record ∈ (store.view settings).active, ∀ expiresAtMs ∈ record.expiresAtMs,
        ∀ ms ∈ settings.retentionMs, expiresAtMs.le (readings.built.add ms) = true
| .prune readings => readings.applied.isFinite = true ∧ readings.pruned.isFinite = true
| .restart readings => readings.applied.isFinite = true

instance (settings : LogSettings) (store : AuditStore) (step : LogStep) :
    Decidable (step.Allowed settings store) :=
  match step with
  | .append _ _ =>
    inferInstanceAs (Decidable (_ ∧ _ ∧ _ ∧ ((∀ _ ∈ _, _) ∧ (∀ _ ∈ _, _)) ∧ (∀ _ ∈ _, _)))
  | .prune _ => inferInstanceAs (Decidable (_ ∧ _))
  | .restart _ => inferInstanceAs (Decidable (_ = _))

/-
  The active records expire in order, and a log that archives has an archive or all of its records.
-/
structure LogView.Ordered (settings : LogSettings) (view : LogView) : Prop where
  expiring : ∀ record ∈ view.active, record.expiresAtMs.isSome = settings.retentionMs.isSome
  ordered : view.active.Pairwise ExpiresFirst
  origin : settings.archives = true → view.archivedSeqs = [] → view.anchor = ""

variable {host : GovernanceHost}
variable {settings : LogSettings}
variable {store : AuditStore}
variable {view : LogView}

theorem LogView.Ordered.pruned {view' : LogView} {removed : List GovernanceAuditRecord}
    (hOrdered : view.Ordered settings) (hPruned : LogView.Pruned settings view removed view') :
    view'.Ordered settings := by
  have hSub : view'.active.Sublist view.active := by
    rw [← hPruned.active]
    exact sublist_append_right _ _
  refine ⟨?_, hOrdered.ordered.sublist hSub, ?_⟩
  · exact fun record hMem => hOrdered.expiring record (hSub.subset hMem)
  · intro hArchives hEmpty
    have hSeqs := hPruned.archivedSeqs
    rw [hEmpty, if_pos hArchives] at hSeqs
    rcases List.append_eq_nil_iff.mp hSeqs.symm with ⟨hBefore, hNone⟩
    rw [hPruned.anchor, List.map_eq_nil_iff.mp hNone]
    exact hOrdered.origin hArchives hBefore

variable {event : GovernanceAuditEvent}
variable {prevRecordHash : String}
variable {record : GovernanceAuditRecord}

/- A record that JSON can hold keeps its expiry. -/
theorem BuiltRecord.stored_expiry {seq : Nat} {now : JsNumber}
    (hBuilt : BuiltRecord host settings event seq now prevRecordHash record)
    (hEvent : StorableEvent settings event now) :
    (coerceGovernanceAuditRecord (cloneRecord record)).expiresAtMs =
      settings.retentionMs.map (fun ms => now.add ms) := by
  rw [coerce_cloneRecord (hBuilt.storable hEvent)]
  exact hBuilt.expiry

theorem LogView.Ordered.append {seq : Nat} {now : JsNumber}
    (hOrdered : view.Ordered settings)
    (hBuilt : BuiltRecord host settings event seq now prevRecordHash record)
    (hEvent : StorableEvent settings event now)
    (hLater : ∀ record ∈ view.active, ∀ expiresAtMs ∈ record.expiresAtMs,
          ∀ ms ∈ settings.retentionMs, expiresAtMs.le (now.add ms) = true) :
    (view.append record).Ordered settings := by
  have hExpiry := hBuilt.stored_expiry hEvent
  refine ⟨?_, ?_, hOrdered.origin⟩
  · intro other hMem
    rcases List.mem_append.mp hMem with hOld | hLast
    · exact hOrdered.expiring other hOld
    · rw [List.mem_singleton.mp hLast, hExpiry, Option.isSome_map]
  · refine List.pairwise_append.mpr ⟨hOrdered.ordered, pairwise_singleton _ _, ?_⟩
    intro other hOld last hLast clock hExpired
    rw [List.mem_singleton.mp hLast, GovernanceAuditRecord.isExpired, hExpiry] at hExpired
    have hSome := hOrdered.expiring other hOld
    cases hRetention : settings.retentionMs with
    | none =>
      rw [hRetention] at hExpired
      cases hExpired
    | some ms =>
      rw [hRetention] at hSome hExpired
      rcases Option.isSome_iff_exists.mp hSome with ⟨expiresAtMs, hGet⟩
      have hBefore := hLater other hOld expiresAtMs hGet ms hRetention
      rw [GovernanceAuditRecord.isExpired, hGet]
      exact JsNumber.le_trans hBefore hExpired

theorem LogView.Ordered.prunesWell (hOrdered : view.Ordered settings)
    (hNodup : (view.active.map (·.seq)).Nodup) (now : JsNumber) :
    PrunesWell settings now view :=
  ⟨removesOldest_of_ordered settings.maxEntries now hNodup hOrdered.ordered,
    fun hArchives hEmpty _ => hOrdered.origin hArchives hEmpty⟩

----------
-- Runs
----------

structure HistorySound (host : GovernanceHost) (settings : LogSettings)
    (store : AuditStore) : Prop where
  sound : StoreSound host settings store
  ordered : (store.view settings).Ordered settings

theorem historySound_empty : HistorySound host settings AuditStore.empty :=
  ⟨AuditSession.sound_empty settings,
    ⟨(fun _ hMem => nomatch hMem), List.Pairwise.nil, fun _ _ => rfl⟩⟩

theorem StoreSound.active_seqs (hStore : StoreSound host settings store) :
    ((store.view settings).active.map (·.seq)).Nodup ∧
      ∀ record ∈ (store.view settings).active,
        record.seq < (store.manifestOr settings).nextSeq := by
  unfold AuditStore.view AuditStore.manifestOr LogView.ofManifest
  cases hGet : store.manifest with
  | none => exact ⟨nodup_nil, fun _ hMem => nomatch hMem⟩
  | some manifest =>
    have hChain := (hStore.sound manifest hGet).chain
    have hSeqs := hChain.map_seq_active
    refine ⟨?_, ?_⟩
    · exact hSeqs.symm ▸ (List.nodup_append.mp hChain.nodup).2.1
    · intro record hMem
      have hIn : record.seq ∈ manifest.activeSeqs := by
        rw [← hSeqs]
        exact List.mem_map_of_mem hMem
      exact hChain.below _ (mem_append_right _ hIn)

theorem HistorySound.step (store : AuditStore) (step : LogStep)
    (hSound : HistorySound host settings store) (hAllowed : step.Allowed settings store) :
    HistorySound host settings (store.step host settings step) := by
  rcases hSound.sound.active_seqs with ⟨hNodup, hBelow⟩
  cases step with
  | restart readings =>
    rcases hSound.sound.create hAllowed with ⟨store', hCreate, hStore, hView⟩
    have hNext : store.step host settings (.restart readings) = store' := by
      unfold AuditStore.step LogStep.toAuditStep AuditSession.step
      dsimp only
      rw [hCreate]
    rw [hNext]
    refine ⟨hStore, ?_⟩
    rw [hView]
    exact hSound.ordered
  | prune readings =>
    rcases hSound.sound.prune hAllowed.1 hAllowed.2 (hSound.ordered.prunesWell hNodup _) with
      ⟨removed, hStore, hPruned⟩
    exact ⟨hStore, hSound.ordered.pruned hPruned⟩
  | append event readings =>
    rcases hAllowed with ⟨hApplied, hSaved, hPruned, hEvent, hLater⟩
    have hPrunes : ∀ record, buildRecord host event (store.manifestOr settings).nextSeq
              readings.built settings.signingKey settings.redaction
              (store.manifestOr settings).lastRecordHash settings.retentionMs = .ok record →
          PrunesWell settings readings.pruned ((store.view settings).append record) := by
      intro record hBuild
      have hBuilt := builtRecord_of_ok hBuild
      apply (hSound.ordered.append hBuilt hEvent hLater).prunesWell
      unfold LogView.append
      have hNew : record.seq ∉ (store.view settings).active.map (·.seq) := by
        intro hOld
        rcases List.mem_map.mp hOld with ⟨other, hMem, hSeq⟩
        have hLess := hBelow other hMem
        rw [← hBuilt.seq, hSeq] at hLess
        exact Nat.lt_irrefl _ hLess
      rw [map_append, map_singleton, ← concat_eq_append]
      exact hNodup.concat hNew
    rcases hSound.sound.append hApplied hSaved hPruned hEvent hPrunes with
      ⟨hStore, hSame | ⟨_, _, record, removed, hBuilt, hNext⟩⟩
    · refine ⟨hStore, ?_⟩
      exact hSame.symm ▸ hSound.ordered
    · exact ⟨hStore, (hSound.ordered.append hBuilt hEvent hLater).pruned hNext⟩

/- In every life of a log whose steps are allowed it verifies, and it can be opened again. -/
theorem fixed_log_verifies (host : GovernanceHost) (settings : LogSettings) (steps : List LogStep)
    (hAllowed :
      AlongRun (AuditStore.step host settings) (fun store step => step.Allowed settings store)
        AuditStore.empty steps) :
    let store := runSteps (AuditStore.step host settings) AuditStore.empty steps
    (∀ readings, ∃ verification,
        MemoryBackedLog.verify settings host readings store = .ok verification ∧
          verification.valid = true) ∧
      ∀ readings : ClockReadings, readings.applied.isFinite = true →
          (MemoryBackedLog.create settings host readings store).1 = .ok () := by
  have hSound : HistorySound host settings
        (runSteps (AuditStore.step host settings) AuditStore.empty steps) :=
    runSteps_invariant HistorySound.step historySound_empty hAllowed
  refine ⟨hSound.sound.verify, ?_⟩
  intro readings hFinite
  rcases hSound.sound.create hFinite with ⟨store', hCreate, _⟩
  rw [hCreate]

/- One record expires, one is too many, and one remains. -/
theorem expiring_log_verifies :
    let settings : LogSettings := { LogSettings.plain .archive (some 1) with retentionMs := some 5 }
    let steps : List LogStep :=
      [.append .plain (.at 0), .append .plain (.at 4), .append .plain (.at 7), .restart (.at 8),
        .prune (.at 8)]
    ∃ verification, MemoryBackedLog.verify settings .stroke (.at 9)
          (runSteps (AuditStore.step .stroke settings) AuditStore.empty steps) = .ok verification ∧
        verification.valid = true := (fixed_log_verifies .stroke _ _ (by decide +kernel)).1 _

/-
  A scope with a field that is there and `undefined` is hashed with the text of the missing value,
  and the field is not stored.
-/
theorem undefined_scope_refused : let scope : AuditScope := ⟨some none, none, none, none, none⟩
    MemoryBackedLog.verify (.plain .delete none) .stroke (.at 0)
        (runSteps (AuditStore.step .stroke (.plain .delete none)) AuditStore.empty
          [.append { GovernanceAuditEvent.plain with scope := some scope } (.at 0)]) =
      .ok ⟨false, 1, some 0, some 1, some "record hash mismatch", none⟩ := by decide +kernel

end

end AgencCore.Policy
