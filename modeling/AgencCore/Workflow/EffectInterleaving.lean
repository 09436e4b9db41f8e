import AgencCore.Workflow.Effects

/-
  The effect ledger with calls that run at the same time.

  A call reads an entry of the backend, waits, and writes the entry later; nothing keeps other calls
  away between. As long as a call takes hold of a key, or reads a list that it will write, only
  while no other call does so, each key has one record with all its attempts, and the record is
  listed.
-/

namespace AgencCore.Workflow

open Foundations List OrderedMap

/-
  Where a call waits. The branches of a save are the lists it still has to write, with what it read
  of them.
-/
inductive EffectPhase where
  | lookup (input : EffectRecordInput)
  | fetch (input : EffectRecordInput) (id : String)
  | load (now : JsNumber) (id : String) (mutation : EffectMutation)
  | write (record : EffectRecord)
  | file (record : EffectRecord)
  | index (id : String) (branches : List (EffectIndex × Option (List String)))
  | done
deriving DecidableEq

/- A call; `origin` is the key of an attempt. -/
structure EffectCall where
  origin : Option String
  phase : EffectPhase
deriving DecidableEq

structure LedgerSystem where
  storage : EffectStorage
  calls : List EffectCall

inductive LedgerAction where
  | beginEffect (input : EffectRecordInput)
  | mutate (now : JsNumber) (id : String) (mutation : EffectMutation)
  | resume (i branch : Nat)

/- A branch reads its list, and later writes it. -/
def advanceBranch (storage : EffectStorage) (id : String)
    (branches : List (EffectIndex × Option (List String))) (branch : Nat) :
    EffectStorage × EffectPhase :=
  match branches[branch]? with
  | none => (storage, if branches = [] then .done else .index id branches)
  | some (key, none) => (storage, .index id (branches.set branch (key, some (storage.listed key))))
  | some (key, some existing) =>
    (storage.appendIndex key id existing, .index id (branches.eraseIdx branch))

def EffectPhase.advance (storage : EffectStorage) (branch : Nat) :
    EffectPhase → EffectStorage × EffectPhase
| .lookup input => match (storage.ids.get? input.idempotencyKey).filter (· ≠ "") with
    | none => (storage, .write (createInitialEffectRecord input))
    | some id => (storage, .fetch input id)
| .fetch input id => (storage, .write (attemptRecord input (storage.records.get? id)))
| .load now id mutation =>
  match storage.records.get? id with
  | none => (storage, .done)
  | some record => (storage, .write (mutation.apply now record))
| .write record => (storage.saveRecord record, .file record)
| .file record => (storage.saveKey record, .index record.id (record.scope.indexes.map (·, none)))
| .index id branches => advanceBranch storage id branches branch
| .done => (storage, .done)

def ledgerSystemStep (s : LedgerSystem) : LedgerAction → LedgerSystem
| .beginEffect input => { s with calls := s.calls ++ [⟨some input.idempotencyKey, .lookup input⟩] }
| .mutate now id mutation => { s with calls := s.calls ++ [⟨none, .load now id mutation⟩] }
| .resume i branch =>
  match s.calls[i]? with
  | none => s
  | some call =>
    let next := call.phase.advance s.storage branch
    { storage := next.1, calls := s.calls.set i ⟨call.origin, next.2⟩ }

namespace EffectPhase

/- The key whose record the call is about to write. -/
def held : EffectPhase → Option String
| .fetch input _ => some input.idempotencyKey
| .write record | .file record => some record.idempotencyKey
| _ => none

/- The lists that were read and are not yet written. -/
def reading : EffectPhase → List EffectIndex
| .index _ branches => (branches.filter (·.2.isSome)).map Prod.fst
| _ => []

/- The record of the call is written. -/
def isPast : EffectPhase → Bool
| .file _ | .index _ _ | .done => true
| _ => false

def willList (id : String) (key : EffectIndex) : EffectPhase → Prop
| .file record => record.id = id ∧ key ∈ record.scope.indexes
| .index id' branches => id' = id ∧ key ∈ branches.map Prod.fst
| _ => False

end EffectPhase

def Apart (phase other : EffectPhase) : Prop :=
  (∀ key ∈ phase.held, key ∉ other.held) ∧ ∀ key ∈ phase.reading, key ∉ other.reading

instance (phase other : EffectPhase) : Decidable (Apart phase other) :=
  inferInstanceAs (Decidable (_ ∧ _))

theorem Apart.symm {phase other : EffectPhase} (hApart : Apart phase other) : Apart other phase :=
  ⟨fun key hKey hOther => hApart.1 key hOther hKey, fun key hKey hOther => hApart.2 key hOther hKey⟩

/-
  Effect ids are plain and not used for two keys, and what a step takes hold of no other call holds.
-/
def TakesAlone
    (owner : String → String)
    (s : LedgerSystem) : LedgerAction → Prop
| .beginEffect input =>
  PlainId input.id ∧ input.id ≠ "" ∧ owner input.id = input.idempotencyKey
| .mutate _ id _ => PlainId id
| .resume i branch =>
  ∀ call ∈ s.calls[i]?, ∀ other ∈ s.calls.eraseIdx i,
    Apart (call.phase.advance s.storage branch).2 other.phase

instance (owner : String → String) (s : LedgerSystem) (action : LedgerAction) :
    Decidable (TakesAlone owner s action) :=
  match action with
  | .beginEffect _ => inferInstanceAs (Decidable (_ ∧ _))
  | .mutate _ id _ => inferInstanceAs (Decidable (PlainId id))
  | .resume i branch =>
    inferInstanceAs (Decidable (∀ call ∈ s.calls[i]?,
      ∀ other ∈ s.calls.eraseIdx i, Apart (call.phase.advance s.storage branch).2 other.phase))

/- The attempts of a key whose records are written. -/
def written (key : String) (calls : List EffectCall) : Nat :=
  calls.countP (fun call => call.origin = some key && call.phase.isPast)

/- What is known of a call, by the place where it waits. -/
def CallSound (owner : String → String) (storage : EffectStorage) (calls : List EffectCall)
    (call : EffectCall) : Prop :=
  match call.phase with
  | .lookup input =>
    call.origin = some input.idempotencyKey ∧ input.id ≠ "" ∧ owner input.id = input.idempotencyKey
  | .fetch input id =>
    call.origin = some input.idempotencyKey ∧ input.id ≠ "" ∧
      owner input.id = input.idempotencyKey ∧ storage.ids.get? input.idempotencyKey = some id
  | .load _ _ _ => call.origin = none
  | .write record =>
    record.id ≠ "" ∧ owner record.id = record.idempotencyKey ∧
      (∀ id old, storage.records.get? id = some old →
        old.idempotencyKey = record.idempotencyKey → id = record.id) ∧
      ((call.origin = some record.idempotencyKey ∧
          record.attempts.length = written record.idempotencyKey calls + 1) ∨
        (call.origin = none ∧ record.attempts.length = written record.idempotencyKey calls))
  | .file record => storage.records.get? record.id = some record
  | .index _ branches =>
    (branches.map Prod.fst).Nodup ∧
      ∀ key existing, (key, some existing) ∈ branches → storage.listed key = existing
  | .done => True

/- The records, for a number of attempts of each key. -/
structure RecordsSound (owner : String → String) (records : OrderedMap String EffectRecord)
    (attempts : String → Nat) : Prop where
  owned : ∀ id record, records.get? id = some record →
      record.id = id ∧ id ≠ "" ∧ owner id = record.idempotencyKey
  unique : ∀ id id' record record', records.get? id = some record →
    records.get? id' = some record' → record.idempotencyKey = record'.idempotencyKey → id = id'
  counted : ∀ id record, records.get? id = some record →
      record.attempts.length = attempts record.idempotencyKey
  recorded : ∀ key, 0 < attempts key →
    ∃ id record, records.get? id = some record ∧ record.idempotencyKey = key

structure LedgerSound (owner : String → String) (storage : EffectStorage)
    (calls : List EffectCall) : Prop extends
    RecordsSound owner storage.records (written · calls) where
  filed : ∀ key id, storage.ids.get? key = some id →
    ∃ record, storage.records.get? id = some record ∧ record.idempotencyKey = key
  found : ∀ id record, storage.records.get? id = some record →
      storage.ids.get? record.idempotencyKey = some id ∨ ∃ call ∈ calls, call.phase = .file record
  sound : ∀ call ∈ calls, CallSound owner storage calls call
  apart : calls.Pairwise (fun call other => Apart call.phase other.phase)
  listed : ∀ id record, storage.records.get? id = some record →
      ∀ key ∈ record.scope.indexes,
        id ∈ storage.listed key ∨ ∃ call ∈ calls, call.phase.willList id key

----------
-- Steps
----------

section Steps

variable {owner : String → String}
variable {storage : EffectStorage}
variable {calls others : List EffectCall}
variable {call : EffectCall}

theorem CallSound.congr (hSound : CallSound owner storage calls call)
    (hWritten : ∀ key, written key others = written key calls) :
    CallSound owner storage others call := by
  unfold CallSound at hSound ⊢
  simpa only [hWritten] using hSound

theorem LedgerSound.perm (h : LedgerSound owner storage calls) (hPerm : calls.Perm others) :
    LedgerSound owner storage others := by
  have hWritten (key : String) : written key others = written key calls := hPerm.symm.countP_eq _
  exact
    { toRecordsSound := by simpa only [hWritten] using h.toRecordsSound
      filed := h.filed
      found := by simpa only [hPerm.mem_iff] using h.found
      sound := fun call hCall => (h.sound call (hPerm.mem_iff.mpr hCall)).congr hWritten
      apart := (hPerm.pairwise_iff Apart.symm).mp h.apart
      listed := by simpa only [hPerm.mem_iff] using h.listed }

/- A step that leaves the storage, or a new call. -/
theorem LedgerSound.quiet (olds : List EffectCall) (h : LedgerSound owner storage (olds ++ others))
    (hWritten : ∀ key, written key (call :: others) = written key (olds ++ others))
    (hFile : ∀ old ∈ olds, ∀ record, old.phase ≠ .file record)
    (hList : ∀ old ∈ olds, ∀ id key, old.phase.willList id key → call.phase.willList id key)
    (hSound : CallSound owner storage (olds ++ others) call)
    (hApart : ∀ other ∈ others, Apart call.phase other.phase) :
    LedgerSound owner storage (call :: others) where
  toRecordsSound := by simpa only [hWritten] using h.toRecordsSound
  filed := h.filed
  found id record hRecord := by
    rcases h.found id record hRecord with hId | ⟨c, hC, hPhase⟩
    · exact .inl hId
    · rcases List.mem_append.mp hC with hOld | hOther
      · exact absurd hPhase (hFile c hOld record)
      · exact .inr ⟨c, mem_cons_of_mem _ hOther, hPhase⟩
  sound c hC := by
    rcases List.mem_cons.mp hC with rfl | hOther
    · exact hSound.congr hWritten
    · exact (h.sound c (mem_append_right _ hOther)).congr hWritten
  apart := List.pairwise_cons.mpr ⟨hApart, (List.pairwise_append.mp h.apart).2.1⟩
  listed id record hRecord key hKey := by
    rcases h.listed id record hRecord key hKey with hIn | ⟨c, hC, hWill⟩
    · exact .inl hIn
    · rcases List.mem_append.mp hC with hOld | hOther
      · exact .inr ⟨call, mem_cons_self, hList c hOld id key hWill⟩
      · exact .inr ⟨c, mem_cons_of_mem _ hOther, hWill⟩

theorem written_cons (key : String) (call : EffectCall) (calls : List EffectCall) :
    written key (call :: calls) = written key calls +
      if call.origin = some key ∧ call.phase.isPast then 1
      else 0 := by simp [written, countP_cons]

variable {record : EffectRecord}
variable {origin : Option String}

theorem exists_call_cons {P : EffectCall → Prop} {old : EffectCall}
    (hFound : ∃ c ∈ old :: others, P c) (hGoesOn : P old → P call) : ∃ c ∈ call :: others, P c := by
  rcases hFound with ⟨c, hC, hP⟩
  rcases List.mem_cons.mp hC with rfl | hOther
  · exact ⟨call, mem_cons_self, hGoesOn hP⟩
  · exact ⟨c, mem_cons_of_mem _ hOther, hP⟩

theorem LedgerSound.write
    (h : LedgerSound owner storage (⟨origin, .write record⟩ :: others)) :
    LedgerSound owner (storage.saveRecord record) (⟨origin, .file record⟩ :: others) := by
  rcases h.sound _ mem_cons_self with ⟨hId, hOwner, hOnly, hLength⟩
  have hAlone := (List.pairwise_cons.mp h.apart).1
  have hSelf : (storage.saveRecord record).records.get? record.id = some record :=
    get?_set_self ..
  -- the other records have other keys, and stay
  have hCases {id : String} {old : EffectRecord}
      (hOld : (storage.saveRecord record).records.get? id = some old) :
      record.id = id ∧ record = old ∨ storage.records.get? id = some old ∧
        old.idempotencyKey ≠ record.idempotencyKey :=
    (get?_set_eq_some hOld).imp_right
      (fun ⟨hNe, hOld⟩ => ⟨hOld, fun hKey => hNe (hOnly id old hOld hKey).symm⟩)
  have hKeeps {id : String} {old : EffectRecord} (hOld : storage.records.get? id = some old)
      (hKey : old.idempotencyKey ≠ record.idempotencyKey) :
      (storage.saveRecord record).records.get? id = some old := by
    refine (get?_set_of_ne _ _ ?_).trans hOld
    rintro rfl
    exact hKey ((h.owned _ _ hOld).2.2.symm.trans hOwner)
  have hNone (key : String) (hKey : key ≠ record.idempotencyKey) :
      written key (⟨origin, .file record⟩ :: others) =
        written key (⟨origin, .write record⟩ :: others) := by
    have hOrigin : origin ≠ some key := by
      rcases hLength with ⟨hSome, -⟩ | ⟨hSome, -⟩ <;>
        change origin = _ at hSome <;> simp [hSome, hKey.symm]
    simp [written_cons, hOrigin]
  constructor
  case toRecordsSound =>
    constructor
    case owned =>
      intro id old hOld
      rcases hCases hOld with ⟨rfl, rfl⟩ | ⟨hOld, -⟩
      · exact ⟨rfl, hId, hOwner⟩
      · exact h.owned id old hOld
    case unique =>
      intro id id' old old' hOld hOld' hKey
      rcases hCases hOld with ⟨rfl, rfl⟩ | ⟨hOld, hNe⟩ <;>
        rcases hCases hOld' with ⟨rfl, rfl⟩ | ⟨hOld', hNe'⟩
      · rfl
      · exact absurd hKey.symm hNe'
      · exact absurd hKey hNe
      · exact h.unique _ _ _ _ hOld hOld' hKey
    case counted =>
      intro id old hOld
      rcases hCases hOld with ⟨rfl, rfl⟩ | ⟨hOld, hNe⟩
      · rcases hLength with ⟨hSome, hCount⟩ | ⟨hSome, hCount⟩ <;> change origin = _ at hSome <;>
          simp [hCount, written_cons, hSome, EffectPhase.isPast]
      · rw [hNone _ hNe]
        exact h.counted id old hOld
    case recorded =>
      intro key hPos
      by_cases hKey : key = record.idempotencyKey
      · exact ⟨record.id, record, hSelf, hKey.symm⟩
      · rw [hNone key hKey] at hPos
        rcases h.recorded key hPos with ⟨id, old, hOld, rfl⟩
        exact ⟨id, old, hKeeps hOld hKey, rfl⟩
  case filed =>
    intro key id hKey
    rcases h.filed key id hKey with ⟨old, hOld, rfl⟩
    by_cases hSame : old.idempotencyKey = record.idempotencyKey
    · rw [hOnly id old hOld hSame]
      exact ⟨record, hSelf, hSame.symm⟩
    · exact ⟨old, hKeeps hOld hSame, rfl⟩
  case found =>
    intro id old hOld
    rcases hCases hOld with ⟨rfl, rfl⟩ | ⟨hOld, -⟩
    · exact .inr ⟨_, mem_cons_self, rfl⟩
    · exact (h.found id old hOld).imp_right (exists_call_cons · (by nofun))
  case sound =>
    intro c hC
    rcases List.mem_cons.mp hC with rfl | hC
    · exact hSelf
    · have hApart := hAlone c hC
      have hOld := h.sound c (mem_cons_of_mem _ hC)
      unfold CallSound at hOld ⊢
      split <;> rename_i hPhase <;> rw [hPhase] at hOld hApart
      case h_4 record' =>
        have hKeys : record'.idempotencyKey ≠ record.idempotencyKey := fun hSame =>
          hApart.1 _ rfl (congrArg some hSame)
        rw [hNone _ hKeys]
        refine ⟨hOld.1, hOld.2.1, fun id old hGot hSame => ?_, hOld.2.2.2⟩
        rcases hCases hGot with ⟨rfl, rfl⟩ | ⟨hGot, -⟩
        · exact absurd hSame.symm hKeys
        · exact hOld.2.2.1 id old hGot hSame
      case h_5 record' => exact hKeeps hOld (fun hSame => hApart.1 _ rfl (congrArg some hSame))
      all_goals exact hOld
  case apart => exact List.pairwise_cons.mpr ⟨hAlone, (List.pairwise_cons.mp h.apart).2⟩
  case listed =>
    intro id old hOld key hKey
    rcases hCases hOld with ⟨rfl, rfl⟩ | ⟨hOld, -⟩
    · exact .inr ⟨_, mem_cons_self, rfl, hKey⟩
    · exact (h.listed id old hOld key hKey).imp_right (exists_call_cons · False.elim)

theorem LedgerSound.file
    (h : LedgerSound owner storage (⟨origin, .file record⟩ :: others)) :
    LedgerSound owner (storage.saveKey record)
      (⟨origin, .index record.id (record.scope.indexes.map (·, none))⟩ :: others) := by
  have hOwn : storage.records.get? record.id = some record := h.sound _ mem_cons_self
  have hAlone := (List.pairwise_cons.mp h.apart).1
  have hWritten (key : String) :
      written key (⟨origin, .index record.id (record.scope.indexes.map (·, none))⟩ :: others) =
        written key (⟨origin, .file record⟩ :: others) := by simp [written_cons, EffectPhase.isPast]
  have hGet (key : String) :
      (storage.saveKey record).ids.get? key = if record.idempotencyKey = key then some record.id
        else storage.ids.get? key := get?_set _ _ _ _
  constructor
  case toRecordsSound => simpa only [hWritten, EffectStorage.saveKey] using h.toRecordsSound
  case filed =>
    intro key id hKey
    rcases get?_set_eq_some hKey with ⟨rfl, rfl⟩ | ⟨-, hOld⟩
    · exact ⟨record, hOwn, rfl⟩
    · exact h.filed key id hOld
  case found =>
    intro id old hOld
    by_cases hKey : record.idempotencyKey = old.idempotencyKey
    · left
      rw [hGet, if_pos hKey, h.unique _ _ _ _ hOwn hOld hKey]
    · rw [hGet, if_neg hKey]
      refine (h.found id old hOld).imp_right (exists_call_cons · (fun hPhase => ?_))
      cases hPhase
      exact absurd rfl hKey
  case sound =>
    intro c hC
    rcases List.mem_cons.mp hC with rfl | hC
    · refine ⟨?_, by simp⟩
      rw [List.map_map]
      simp only [Function.comp_def, List.map_id', EffectScope.indexes]
      cases record.scope.runId <;> cases record.scope.pipelineId <;>
        simp only [Option.filter] <;> (repeat' split) <;> simp
    · have hApart := hAlone c hC
      have hOld := (h.sound c (mem_cons_of_mem _ hC)).congr hWritten
      unfold CallSound at hOld ⊢
      split <;> rename_i hPhase <;> rw [hPhase] at hOld hApart
      case h_2 input id =>
        refine ⟨hOld.1, hOld.2.1, hOld.2.2.1, ?_⟩
        rw [hGet, if_neg]
        · exact hOld.2.2.2
        · intro hSame
          exact hApart.1 _ rfl (congrArg some hSame.symm)
      all_goals exact hOld
  case apart =>
    refine List.pairwise_cons.mpr ⟨fun c hC => ⟨nofun, ?_⟩, (List.pairwise_cons.mp h.apart).2⟩
    simp [EffectPhase.reading]
  case listed =>
    intro id old hOld key hKey
    refine (h.listed id old hOld key hKey).imp_right (exists_call_cons · ?_)
    rintro ⟨hId, hWill⟩
    exact ⟨hId, by simpa [List.map_map, Function.comp_def] using hWill⟩

theorem listed_appendIndex_of_ne (storage : EffectStorage) {key other : EffectIndex}
    (hNe : key ≠ other) (id : String) (existing : List String) :
    (storage.appendIndex key id existing).listed other = storage.listed other := by
  unfold EffectStorage.appendIndex EffectStorage.listed
  split
  · rfl
  · rw [get?_set_of_ne _ _ hNe]

theorem mem_listed_appendIndex (storage : EffectStorage) (key : EffectIndex) (id : String) :
    ∀ x, x ∈ (storage.appendIndex key id (storage.listed key)).listed key ↔
      x ∈ storage.listed key ∨ x = id := by
  intro x
  unfold EffectStorage.appendIndex
  split
  · next hIn => exact (or_iff_left_of_imp (· ▸ hIn)).symm
  · simp [EffectStorage.listed, get?_set_self]

theorem mem_reading {id : String} {branches : List (EffectIndex × Option (List String))}
    {key : EffectIndex} {existing : List String} (hMem : (key, some existing) ∈ branches) :
    key ∈ EffectPhase.reading (.index id branches) :=
  List.mem_map_of_mem (f := Prod.fst) (mem_filter.mpr ⟨hMem, rfl⟩)

theorem LedgerSound.append {id : String}
    {branches : List (EffectIndex × Option (List String))} {branch : Nat} {key : EffectIndex}
    {existing : List String}
    (h : LedgerSound owner storage (⟨origin, .index id branches⟩ :: others))
    (hBranch : branches[branch]? = some (key, some existing)) :
    LedgerSound owner (storage.appendIndex key id existing)
      (⟨origin, .index id (branches.eraseIdx branch)⟩ :: others) := by
  have hMem := mem_of_getElem? hBranch
  rcases h.sound _ mem_cons_self with ⟨hNodup, hRead⟩
  have hExisting : existing = storage.listed key := (hRead key existing hMem).symm
  subst hExisting
  have hAlone := (List.pairwise_cons.mp h.apart).1
  have hPerm : branches.Perm ((key, some (storage.listed key)) :: branches.eraseIdx branch) := by
    rcases List.getElem?_eq_some_iff.mp hBranch with ⟨hLt, hAt⟩
    rw [← hAt]
    exact (getElem_cons_eraseIdx_perm hLt).symm
  have hKeys := (hPerm.map Prod.fst).nodup_iff.mp hNodup
  rw [map_cons, nodup_cons] at hKeys
  have hListed := mem_listed_appendIndex storage key id
  have hOther {other : EffectIndex} (hNe : key ≠ other) :=
    listed_appendIndex_of_ne storage hNe id (storage.listed key)
  have hStored : (storage.appendIndex key id (storage.listed key)).records = storage.records ∧
      (storage.appendIndex key id (storage.listed key)).ids = storage.ids := by
    unfold EffectStorage.appendIndex
    split <;> exact ⟨rfl, rfl⟩
  have hWritten (key : String) :
      written key (⟨origin, .index id (branches.eraseIdx branch)⟩ :: others) =
        written key (⟨origin, .index id branches⟩ :: others) := by
    simp [written_cons, EffectPhase.isPast]
  have hReading : EffectPhase.reading (.index id (branches.eraseIdx branch)) ⊆
      EffectPhase.reading (.index id branches) :=
    ((eraseIdx_sublist branches branch).filter _ |>.map _).subset
  constructor
  case toRecordsSound => simpa only [hStored.1, hWritten] using h.toRecordsSound
  case filed => simpa only [hStored.1, hStored.2] using h.filed
  case found =>
    intro found record hRecord
    rw [hStored.1] at hRecord
    rw [hStored.2]
    exact (h.found found record hRecord).imp_right (exists_call_cons · (by nofun))
  case sound =>
    intro c hC
    rcases List.mem_cons.mp hC with rfl | hC
    · refine ⟨hKeys.2, fun other existing hIn => ?_⟩
      have hNe : key ≠ other := by
        rintro rfl
        exact hKeys.1 (List.mem_map.mpr ⟨_, hIn, rfl⟩)
      rw [hOther hNe]
      exact hRead other existing (mem_of_mem_eraseIdx hIn)
    · have hApart := hAlone c hC
      have hOld := (h.sound c (mem_cons_of_mem _ hC)).congr hWritten
      unfold CallSound at hOld ⊢
      rw [hStored.1, hStored.2]
      split <;> rename_i hPhase <;> rw [hPhase] at hOld hApart
      case h_6 id' branches' =>
        refine ⟨hOld.1, fun other existing hIn => ?_⟩
        have hNe : key ≠ other := by
          rintro rfl
          exact hApart.2 key (mem_reading hMem) (mem_reading hIn)
        rw [hOther hNe]
        exact hOld.2 other existing hIn
      all_goals exact hOld
  case apart =>
    refine List.pairwise_cons.mpr ⟨fun c hC => ⟨nofun, fun other hIn => ?_⟩,
      (List.pairwise_cons.mp h.apart).2⟩
    exact (hAlone c hC).2 other (hReading hIn)
  case listed =>
    intro found record hRecord other hKey
    rw [hStored.1] at hRecord
    rcases h.listed found record hRecord other hKey with hIn | ⟨c, hC, hWill⟩
    · left
      by_cases hSame : key = other
      · subst hSame
        exact (hListed found).mpr (.inl hIn)
      · rwa [hOther hSame]
    · rcases List.mem_cons.mp hC with rfl | hC
      · rcases hWill with ⟨rfl, hWill⟩
        rw [(hPerm.map Prod.fst).mem_iff, map_cons] at hWill
        rcases List.mem_cons.mp hWill with rfl | hRest
        · exact .inl ((hListed id).mpr (.inr rfl))
        · exact .inr ⟨_, mem_cons_self, rfl, hRest⟩
      · exact .inr ⟨c, mem_cons_of_mem _ hC, hWill⟩

theorem apply_kept (now : JsNumber) (record : EffectRecord) (mutation : EffectMutation) :
    (mutation.apply now record).id = record.id ∧
      (mutation.apply now record).idempotencyKey = record.idempotencyKey ∧
      (mutation.apply now record).attempts.length = record.attempts.length := by
  cases mutation <;> simp [EffectMutation.apply, EffectRecord.withStatus]

/- The record of a key, if no other call holds the key. -/
theorem LedgerSound.found_of_free
    (h : LedgerSound owner storage (call :: others)) (hSelf : ∀ record, call.phase ≠ .file record)
    {key : String} (hFree : ∀ other ∈ others, key ∉ other.phase.held) {id : String}
    (hRecord : storage.records.get? id = some record)
    (hKey : record.idempotencyKey = key) : storage.ids.get? key = some id := by
  rcases h.found id record hRecord with hIds | ⟨c, hC, hPhase⟩
  · exact hKey ▸ hIds
  · rcases List.mem_cons.mp hC with rfl | hC
    · exact absurd hPhase (hSelf record)
    · refine absurd ?_ (hFree c hC)
      rw [hPhase]
      exact congrArg some hKey

theorem LedgerSound.resume {phase : EffectPhase} (branch : Nat)
    (h : LedgerSound owner storage (⟨origin, phase⟩ :: others))
    (hApart : ∀ other ∈ others, Apart (phase.advance storage branch).2 other.phase) :
    LedgerSound owner (phase.advance storage branch).1
      (⟨origin, (phase.advance storage branch).2⟩ :: others) := by
  have hOwn := h.sound _ mem_cons_self
  cases phase with
  | write record => exact h.write
  | file record => exact h.file
  | done => exact h
  | index id branches =>
    simp only [EffectPhase.advance, advanceBranch] at hApart ⊢
    cases hBranch : branches[branch]? with
    | none =>
      simp only [hBranch] at hApart ⊢
      refine h.quiet [_] (fun key => ?_) (by simp) ?_ ?_ hApart
      · simp only [singleton_append, written_cons]
        split <;> rfl
      · split
        · rename_i hNil
          simp [hNil, EffectPhase.willList]
        · simp
      · split
        · trivial
        · exact hOwn
    | some entry =>
      rcases entry with ⟨key, _ | existing⟩
      · simp only [hBranch] at hApart ⊢
        have hKeys : (branches.set branch (key, some (storage.listed key))).map Prod.fst =
            branches.map Prod.fst := map_set_of_eq hBranch rfl
        refine h.quiet [_] (fun _ => rfl) (by simp) ?_ ⟨hKeys ▸ hOwn.1, ?_⟩ hApart
        · simp [EffectPhase.willList, hKeys]
        · intro other existing hIn
          rcases mem_or_eq_of_mem_set hIn with hOld | hNew
          · exact hOwn.2 other existing hOld
          · cases hNew
            rfl
      · exact h.append hBranch
  | load now id mutation =>
    simp only [EffectPhase.advance] at hApart ⊢
    have hNone : origin = none := hOwn
    cases hRecord : storage.records.get? id with
    | none =>
      simp only [hRecord] at hApart ⊢
      refine h.quiet [_] (fun key => ?_) (by simp) (by simp [EffectPhase.willList]) trivial hApart
      simp [written_cons, hNone]
    | some record =>
      simp only [hRecord] at hApart ⊢
      rcases apply_kept now record mutation with ⟨hId, hKey, hLength⟩
      have hOwned := h.owned id record hRecord
      refine h.quiet [_] (fun _ => rfl) (by simp) (by simp [EffectPhase.willList]) ?_ hApart
      refine ⟨?_, ?_, ?_, .inr ⟨hNone, ?_⟩⟩
      · rw [hId, hOwned.1]
        exact hOwned.2.1
      · rw [hId, hKey, hOwned.1]
        exact hOwned.2.2
      · intro other old hOld hSame
        rw [hId, hOwned.1]
        exact h.unique _ _ _ _ hOld hRecord (hSame.trans hKey)
      · rw [hLength, hKey]
        exact h.counted id record hRecord
  | fetch input id =>
    rcases hOwn with ⟨hOrigin, -, -, hIds⟩
    rcases h.filed _ _ hIds with ⟨record, hRecord, hKey⟩
    have hOwned := h.owned id record hRecord
    simp only [EffectPhase.advance, hRecord, attemptRecord] at hApart ⊢
    refine h.quiet [_] (fun _ => rfl) (by simp) (by simp [EffectPhase.willList]) ?_ hApart
    refine ⟨hOwned.1 ▸ hOwned.2.1, hOwned.1 ▸ hOwned.2.2, ?_,
      .inl ⟨hOrigin.trans (congrArg some hKey.symm), ?_⟩⟩
    · intro other old hOld hSame
      exact (h.unique _ _ _ _ hOld hRecord hSame).trans hOwned.1.symm
    · have hLength := h.counted id record hRecord
      simp only [mergeAttempt, appendEffectAttempt, length_append, length_singleton]
      rw [hLength]
      rfl
  | lookup input =>
    rcases hOwn with ⟨hOrigin, hId, hOwner⟩
    simp only [EffectPhase.advance] at hApart ⊢
    cases hIds : (storage.ids.get? input.idempotencyKey).filter (· ≠ "") with
    | some id =>
      simp only [hIds] at hApart ⊢
      exact h.quiet [_] (fun _ => rfl) (by simp) (by simp [EffectPhase.willList])
        ⟨hOrigin, hId, hOwner, (Option.filter_eq_some_iff.mp hIds).1⟩ hApart
    | none =>
      simp only [hIds] at hApart ⊢
      have hFree : ∀ other old,
          storage.records.get? other = some old → old.idempotencyKey ≠ input.idempotencyKey := by
        intro other old hOld hKey
        have hFound := h.found_of_free (by simp) (fun c hC => (hApart c hC).1 _ rfl) hOld hKey
        have hSome := (h.owned other old hOld).2.1
        change storage.ids.get? input.idempotencyKey = some other at hFound
        simp [hFound, Option.filter, hSome] at hIds
      have hZero : written input.idempotencyKey (⟨origin, .lookup input⟩ :: others) = 0 := by
        by_contra hPos
        rcases h.recorded _ (Nat.pos_of_ne_zero hPos) with ⟨other, old, hOld, hKey⟩
        exact hFree other old hOld hKey
      refine h.quiet [_] (fun _ => rfl) (by simp) (by simp [EffectPhase.willList]) ?_ hApart
      refine ⟨hId, hOwner, ?_, .inl ⟨hOrigin, ?_⟩⟩
      · intro other old hOld hKey
        exact absurd hKey (hFree other old hOld)
      · change 1 = written input.idempotencyKey _ + 1
        rw [singleton_append, hZero]

end Steps

----------
-- Runs
----------

theorem ledgerSound_step {owner : String → String} (s : LedgerSystem) (action : LedgerAction)
    (h : LedgerSound owner s.storage s.calls) (hTakes : TakesAlone owner s action) :
    LedgerSound owner (ledgerSystemStep s action).storage (ledgerSystemStep s action).calls := by
  have hAdd (call : EffectCall) (hPast : call.phase.isPast = false) (hHeld : call.phase.held = none)
      (hReading : call.phase.reading = []) (hSound : CallSound owner s.storage s.calls call) :
      LedgerSound owner s.storage (s.calls ++ [call]) := by
    refine (LedgerSound.quiet [] h (fun key => ?_)
      (by simp) (by simp) hSound (fun other _ => ?_)).perm
      (perm_append_singleton call s.calls).symm
    · simp [written_cons, hPast]
    · simp [Apart, hHeld, hReading]
  cases action with
  | beginEffect input => exact hAdd _ rfl rfl rfl ⟨rfl, hTakes.2⟩
  | mutate now id mutation => exact hAdd _ rfl rfl rfl rfl
  | resume i branch => cases hCall : s.calls[i]? with
      | none =>
        simp only [ledgerSystemStep, hCall]
        exact h
      | some call =>
        rcases List.getElem?_eq_some_iff.mp hCall with ⟨hLt, hAt⟩
        have hOld : s.calls.Perm (call :: s.calls.eraseIdx i) := by
          rw [← hAt]
          exact (getElem_cons_eraseIdx_perm hLt).symm
        simp only [ledgerSystemStep, hCall]
        exact ((h.perm hOld).resume branch (hTakes call hCall)).perm
          (set_perm_cons_eraseIdx hLt _).symm

/- `listFromIndex` without a limit, before it is sorted. -/
def EffectStorage.listFromIndex (storage : EffectStorage) (key : EffectIndex) : List EffectRecord :=
  (storage.listed key).filterMap storage.records.get?

/- What should be there when all calls are done. -/
def EffectsKept (s : LedgerSystem) : Prop :=
  ∀ key, (∃ call ∈ s.calls, call.origin = some key) →
    ∃ record, (∀ id other, s.storage.records.get? id = some other ∧ other.idempotencyKey = key ↔
        id = record.id ∧ other = record) ∧
      record.attempts.length = s.calls.countP (·.origin = some key) ∧
      ∀ index ∈ record.scope.indexes, record ∈ s.storage.listFromIndex index

theorem LedgerSound.kept {owner : String → String} {s : LedgerSystem}
    (h : LedgerSound owner s.storage s.calls) (hDone : ∀ call ∈ s.calls, call.phase = .done) :
    EffectsKept s := by
  rintro key ⟨call, hCall, hOrigin⟩
  have hWritten : written key s.calls = s.calls.countP (·.origin = some key) := by
    refine countP_congr (fun c hC => ?_)
    simp [hDone c hC, EffectPhase.isPast]
  have hPos : 0 < written key s.calls := by
    rw [hWritten]
    exact List.countP_pos_iff.mpr ⟨call, hCall, by simp [hOrigin]⟩
  rcases h.recorded key hPos with ⟨id, record, hRecord, hKey⟩
  have hOwn := (h.owned id record hRecord).1
  refine ⟨record, fun other old => ⟨?_, ?_⟩, ?_, ?_⟩
  · rintro ⟨hOld, hOldKey⟩
    have hSame := h.unique _ _ _ _ hOld hRecord (hOldKey.trans hKey.symm)
    subst hSame
    exact ⟨hOwn.symm, Option.some.inj (hOld.symm.trans hRecord)⟩
  · rintro ⟨rfl, rfl⟩
    exact ⟨hOwn ▸ hRecord, hKey⟩
  · rw [h.counted id record hRecord, hKey, hWritten]
  · intro index hIndex
    rcases h.listed id record hRecord index hIndex with hIn | ⟨c, hC, hWill⟩
    · exact List.mem_filterMap.mpr ⟨id, hIn, hRecord⟩
    · rw [hDone c hC] at hWill
      exact hWill.elim

/-
  In every run in which calls take hold of keys and lists alone, the effects are kept once all calls
  are done.
-/
theorem effects_kept {owner : String → String} {actions : List LedgerAction}
    (hAlone : AlongRun ledgerSystemStep (TakesAlone owner) ⟨.empty, []⟩ actions)
    (hDone : ∀ call ∈ (runSteps ledgerSystemStep ⟨.empty, []⟩ actions).calls, call.phase = .done) :
    EffectsKept (runSteps ledgerSystemStep ⟨.empty, []⟩ actions) := by
  have hStart : LedgerSound owner EffectStorage.empty [] := by
    refine ⟨⟨?_, ?_, ?_, ?_⟩, ?_, ?_, ?_, ?_, ?_⟩ <;> simp [EffectStorage.empty, written]
  have hSound : ∀ s action, LedgerSound owner s.storage s.calls → TakesAlone owner s action →
      LedgerSound owner (ledgerSystemStep s action).storage (ledgerSystemStep s action).calls :=
    ledgerSound_step
  exact (runSteps_invariant hSound hStart hAlone).kept hDone

def attemptOf (id key : String) : EffectRecordInput :=
  { id := id
    idempotencyKey := key
    scope := ⟨"s", none, none⟩
    createdAt := .ofInt 0
    requiresApproval := false }

/- The resumptions that bring one attempt to its end. -/
def toItsEnd (i : Nat) : List LedgerAction := List.replicate 7 (.resume i 0)

/-
  Two attempts of different keys that take turns and leave the list of their session to each other,
  and then a second attempt of the first key beside a change to the other record.
-/
def interleavedActions : List LedgerAction :=
  [.beginEffect (attemptOf "a" "k"), .beginEffect (attemptOf "b" "l")] ++
    [0, 1, 0, 1, 1, 0, 0, 0, 1, 1, 0, 1].map (.resume · 0) ++
    [.beginEffect (attemptOf "c" "k"), .mutate (.ofInt 1) "b" .executing] ++
    [2, 3, 2, 3, 2, 3, 3, 2, 3, 3, 2, 2, 3, 2].map (.resume · 0)

/- The first key has one record with both attempts, whatever came between. -/
theorem interleaved_attempts_kept :
    EffectsKept (runSteps ledgerSystemStep ⟨.empty, []⟩ interleavedActions) := by
  have hAlone : AlongRun ledgerSystemStep (TakesAlone (fun id => if id = "b" then "l" else "k"))
      ⟨.empty, []⟩ interleavedActions := by decide +kernel
  exact effects_kept hAlone (by decide +kernel)

/- Both attempts look the key up before either is written. -/
theorem attempt_lost :
    let s := runSteps ledgerSystemStep ⟨.empty, []⟩
      (.beginEffect (attemptOf "a" "k") :: .beginEffect (attemptOf "b" "k") :: .resume 0 0 :: .resume 1 0 ::
        (toItsEnd 0 ++ toItsEnd 1))
    s.calls.map (·.phase) = [.done, .done] ∧ ¬ EffectsKept s := by
  intro s
  refine ⟨by decide +kernel, fun hKept => ?_⟩
  rcases hKept "k" ⟨⟨some "k", .done⟩, by decide +kernel, rfl⟩ with ⟨record, hOnly, -⟩
  have hBoth : ["a", "b"].map s.storage.records.get? =
      ["a", "b"].map (fun id => some (createInitialEffectRecord (attemptOf id "k"))) := by
    decide +kernel
  simp only [map_cons, map_nil, List.cons.injEq, and_true] at hBoth
  have hA := ((hOnly "a" _).mp ⟨hBoth.1, rfl⟩).1
  have hB := ((hOnly "b" _).mp ⟨hBoth.2, rfl⟩).1
  exact absurd (hA.trans hB.symm) (by decide)

end AgencCore.Workflow
