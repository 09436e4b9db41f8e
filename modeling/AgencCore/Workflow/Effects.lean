import AgencCore.Foundations.Numbers
import AgencCore.Foundations.Runs
import AgencCore.Workflow.Compensation

/-
  The effect ledger, one call after the other.

  A record is found by its id and by its idempotency key, and its id is listed for its session, run
  and pipeline. A compensation runs the recorded actions whatever became of earlier ones, so a
  second one does nothing only if the actions have nothing to do.
-/

namespace AgencCore.Workflow

open Foundations

inductive EffectStatus where
  | intentRecorded
  | pendingApproval
  | approved
  | denied
  | executing
  | succeeded
  | failed
  | compensated
  | compensationFailed
deriving DecidableEq

structure EffectScope where
  sessionId : String
  runId : Option String
  pipelineId : Option String
deriving DecidableEq

structure EffectAttempt where
  attempt : Nat
  recordedAt : JsNumber
  status : EffectStatus
deriving DecidableEq

structure EffectRecord where
  id : String
  idempotencyKey : String
  scope : EffectScope
  status : EffectStatus
  updatedAt : JsNumber
  attempts : List EffectAttempt
  compensation : EffectCompensationState
deriving DecidableEq

structure EffectRecordInput where
  id : String
  idempotencyKey : String
  scope : EffectScope
  createdAt : JsNumber
  requiresApproval : Bool
deriving DecidableEq

def EffectRecordInput.initialStatus (input : EffectRecordInput) : EffectStatus :=
  if input.requiresApproval then .pendingApproval
  else .intentRecorded

def createInitialEffectRecord (input : EffectRecordInput) : EffectRecord where
  id := input.id
  idempotencyKey := input.idempotencyKey
  scope := input.scope
  status := input.initialStatus
  updatedAt := input.createdAt
  attempts := [⟨1, input.createdAt, input.initialStatus⟩]
  compensation := { status := .notAvailable, actions := [] }

def appendEffectAttempt (record : EffectRecord) (now : JsNumber)
    (status : EffectStatus) : EffectRecord :=
  { record with
    status := status, updatedAt := now
    attempts := record.attempts ++ [⟨record.attempts.length + 1, now, status⟩] }

def mergeAttempt (existing : EffectRecord) (input : EffectRecordInput) : EffectRecord :=
  { appendEffectAttempt existing input.createdAt input.initialStatus with
    scope := input.scope, compensation := { status := .notAvailable, actions := [] }
    updatedAt := input.createdAt }

/- The changes that are made to a record later on. -/
inductive EffectMutation where
  | approvalRequested
  | approvalResolved (approved : Bool)
  | denied
  | executing
  | outcome (success : Bool) (compensation : Option EffectCompensationState)
  | compensated (error : Option String)
deriving DecidableEq

/- The record and its last attempt get a status. -/
def EffectRecord.withStatus (record : EffectRecord) (now : JsNumber)
    (status : EffectStatus) : EffectRecord :=
  { record with
    status := status, updatedAt := now
    attempts := record.attempts.modify (record.attempts.length - 1)
      (fun attempt => { attempt with status := status }) }

def EffectMutation.apply (now : JsNumber) (record : EffectRecord) : EffectMutation → EffectRecord
| .approvalRequested => record.withStatus now .pendingApproval
| .approvalResolved approved => record.withStatus now (if approved then .approved else .denied)
| .denied => record.withStatus now .denied
| .executing => record.withStatus now .executing
| .outcome success compensation =>
  { record.withStatus now (if success then .succeeded else .failed) with
    compensation := compensation.getD record.compensation }
| .compensated error => { record with
      status :=
        if error.isNone then .compensated
        else .compensationFailed, updatedAt := now
      compensation :=
        { record.compensation with
          status := if error.isNone then .completed else .failed
          lastError := error <|> record.compensation.lastError } }

inductive EffectIndex where
  | session (sessionId : String)
  | run (runId : String)
  | pipeline (pipelineId : String)
deriving DecidableEq

/- What an entry of the backend is about. -/
inductive EffectEntry where
  | effect (effectId : String)
  | idempotency (idempotencyKey : String)
  | index (index : EffectIndex)

def EffectIndex.text : EffectIndex → List Char
| .session sessionId => "session:".toList ++ sessionId.toList
| .run runId => "run:".toList ++ runId.toList
| .pipeline pipelineId => "pipeline:".toList ++ pipelineId.toList

/- The key of an entry in the backend, behind the prefix of all of them. -/
def EffectEntry.text : EffectEntry → List Char
| .effect effectId => effectId.toList
| .idempotency idempotencyKey => "idempotency:".toList ++ idempotencyKey.toList
| .index place => "index:".toList ++ place.text

/- An effect id that is not taken for the key of another entry. -/
def PlainId (effectId : String) : Prop :=
  ¬ "idempotency:".toList <+: effectId.toList ∧ ¬ "index:".toList <+: effectId.toList

instance (effectId : String) : Decidable (PlainId effectId) :=
  inferInstanceAs (Decidable (_ ∧ _))

/-
  The entries of the backend, by what they are about. The backend has one space of keys for them, in
  which they are apart as long as effect ids are plain: see `EffectEntry.text_inj`.
-/
structure EffectStorage where
  records : OrderedMap String EffectRecord
  ids : OrderedMap String String
  index : OrderedMap EffectIndex (List String)

theorem EffectIndex.text_injective : Function.Injective EffectIndex.text := by
  intro a b hText
  have hHead := congrArg List.head? hText
  cases a <;> cases b <;> first
    | rw [String.toList_inj.mp (List.append_cancel_left hText)]
    | cases hHead

/- The key of a plain id belongs to the record of the effect. -/
theorem eq_effect_of_text
    {effectId : String}
    (hPlain : PlainId effectId)
    {entry : EffectEntry}
    (hText : effectId.toList = entry.text) :
    entry = .effect effectId := by
  cases entry with
  | effect id => rw [String.toList_inj.mp hText]
  | idempotency key => exact absurd (hText ▸ List.prefix_append _ _) hPlain.1
  | index index => exact absurd (hText ▸ List.prefix_append _ _) hPlain.2

def EffectEntry.Plain : EffectEntry → Prop
| .effect effectId => PlainId effectId
| _ => True

/- Entries with one key are one entry, if effect ids are plain. -/
theorem EffectEntry.text_inj
    {a b : EffectEntry}
    (hA : a.Plain)
    (hB : b.Plain)
    (hText : a.text = b.text) :
    a = b := by
  have hApart (key : String) (index : EffectIndex) :
      (EffectEntry.idempotency key).text ≠ (EffectEntry.index index).text := by
    intro hSame
    have hSecond := congrArg (fun text => text[1]?) hSame
    cases hSecond
  cases a with
  | effect id => exact (eq_effect_of_text hA hText).symm
  | idempotency key =>
    cases b with
    | effect id => exact eq_effect_of_text hB hText.symm
    | idempotency key' => rw [String.toList_inj.mp (List.append_cancel_left hText)]
    | index index => exact absurd hText (hApart key index)
  | index index =>
    cases b with
    | effect id => exact eq_effect_of_text hB hText.symm
    | idempotency key => exact absurd hText.symm (hApart key index)
    | index index' => rw [EffectIndex.text_injective (List.append_cancel_left hText)]

def EffectScope.indexes (scope : EffectScope) : List EffectIndex :=
  .session scope.sessionId ::
    ((scope.runId.filter (· ≠ "")).toList.map .run ++
      (scope.pipelineId.filter (· ≠ "")).toList.map .pipeline)

namespace EffectStorage

def empty : EffectStorage := ⟨.empty, .empty, .empty⟩

def listed (storage : EffectStorage) (key : EffectIndex) : List String :=
  (storage.index.get? key).getD []

/- `appendIndex`, where `existing` was read before. -/
def appendIndex (storage : EffectStorage) (key : EffectIndex) (effectId : String)
    (existing : List String) : EffectStorage :=
  if effectId ∈ existing then storage
  else { storage with index := storage.index.set key (existing ++ [effectId]) }

def saveRecord (storage : EffectStorage) (record : EffectRecord) : EffectStorage :=
  { storage with records := storage.records.set record.id record }

def saveKey (storage : EffectStorage) (record : EffectRecord) : EffectStorage :=
  { storage with ids := storage.ids.set record.idempotencyKey record.id }

def save (storage : EffectStorage) (record : EffectRecord) : EffectStorage :=
  record.scope.indexes.foldl
    (fun storage key => storage.appendIndex key record.id (storage.listed key))
    ((storage.saveRecord record).saveKey record)

/- An empty id is no id. -/
def getByIdempotencyKey (storage : EffectStorage) (idempotencyKey : String) : Option EffectRecord :=
  ((storage.ids.get? idempotencyKey).filter (· ≠ "")).bind storage.records.get?

end EffectStorage

/- What an attempt saves, by the record that it found. -/
def attemptRecord (input : EffectRecordInput) : Option EffectRecord → EffectRecord
| none => createInitialEffectRecord input
| some existing => mergeAttempt existing input

def beginEffect (storage : EffectStorage) (input : EffectRecordInput) : EffectStorage :=
  storage.save (attemptRecord input (storage.getByIdempotencyKey input.idempotencyKey))

def mutate (storage : EffectStorage) (now : JsNumber) (effectId : String)
    (mutation : EffectMutation) : EffectStorage :=
  match storage.records.get? effectId with
  | none => storage
  | some record => storage.save (mutation.apply now record)

----------
-- Compensations
----------

/- The ledger and the files around it. -/
structure LedgerWorld where
  storage : EffectStorage
  tree : FileTree Bytes
  /- Effects compensated since their last attempt. -/
  spent : List String

inductive LedgerCall where
  | beginEffect (input : EffectRecordInput)
  | recordOutcome (now : JsNumber) (effectId : String) (success : Bool)
      (compensation : Option EffectCompensationState)
  | compensateEffect (now : JsNumber) (effectId : String) (handler : Option StopHandler)
  | outside (tree : FileTree Bytes)

variable (host : ContentHost)

/- The run of the actions that are recorded for an effect. -/
def compensation (world : LedgerWorld) (effectId : String)
    (handler : Option StopHandler) : Option ActionRun :=
  (world.storage.records.get? effectId).map (fun record =>
    executeCompensation host handler world.tree record.compensation)

def errorOf : Except String Unit → Option String
| .ok () => none
| .error message => some message

def ledgerStep (world : LedgerWorld) : LedgerCall → LedgerWorld
| .beginEffect input =>
  let attempt := attemptRecord input (world.storage.getByIdempotencyKey input.idempotencyKey)
  { world with
    storage := beginEffect world.storage input, spent := world.spent.filter (· ≠ attempt.id) }
| .recordOutcome now effectId success state =>
  { world with storage := mutate world.storage now effectId (.outcome success state) }
| .compensateEffect now effectId handler =>
  match compensation host world effectId handler with
  | none => world
  | some run =>
    { storage := mutate world.storage now effectId (.compensated (errorOf run.outcome))
      tree := run.tree, spent := if (errorOf run.outcome).isNone then effectId :: world.spent
        else world.spent }
| .outside tree => { world with tree := tree }

/- A repeated compensation performs no action. -/
def CompensatesOnce (world : LedgerWorld) : LedgerCall → Prop
| .compensateEffect _ effectId handler =>
  effectId ∈ world.spent → ∀ run ∈ compensation host world effectId handler, run.performed = []
| _ => True

/- An action that does something to the files it finds. -/
def acts (handler : Option StopHandler) (tree : FileTree Bytes)
    (action : EffectCompensationAction) : Bool :=
  match action.kind with
  | .restoreSnapshot => action.path.isSome && (action.snapshot.bind (snapshotPayload host)).isSome
  | .deleteCreatedPath =>
    action.path.any (fun path =>
      (tree.find path).any (fun entry => ¬ (entry = .directory ∧ tree.hasChildren path)))
  | .reverseMove => action.sourcePath.isSome && action.destinationPath.isSome
  | .processStop => handler.isSome && action.processId.any (· ≠ "")
  | .serverStop => handler.isSome && action.serverId.any (· ≠ "")

/-
  Nothing to do: up to the first action that fails, the only ones are deletions of paths that are
  already missing.
-/
def NothingToDo (handler : Option StopHandler) (tree : FileTree Bytes) :
    List EffectCompensationAction → Prop
| [] => True
| action :: rest =>
  action.supported = true →
    acts host handler tree action = false ∧
      (action.kind = .deleteCreatedPath →
        (∃ path ∈ action.path, tree.find path = none) → NothingToDo handler tree rest)

/- A repeated compensation finds nothing to do. -/
def RepeatsIdly (world : LedgerWorld) : LedgerCall → Prop
| .compensateEffect _ effectId handler =>
  effectId ∈ world.spent →
    ∀ record ∈ world.storage.records.get? effectId,
      NothingToDo host handler world.tree record.compensation.actions
| _ => True

variable {handler : Option StopHandler}
variable {tree : FileTree Bytes}
variable {action : EffectCompensationAction}

/- How an action that does nothing ends. -/
theorem idle_action
    (hIdle : acts host handler tree action = false) :
    let run := executeCompensationAction host handler tree action
    run.tree = tree ∧ run.performed = [] ∧
      (run.outcome = .ok () ↔
        action.kind = .deleteCreatedPath ∧ ∃ path ∈ action.path, tree.find path = none) := by
  unfold acts at hIdle
  unfold executeCompensationAction
  cases hKind : action.kind with
  | restoreSnapshot => cases hPath : action.path <;> cases hSnapshot : action.snapshot <;> simp_all
  | deleteCreatedPath => cases hPath : action.path with
      | none => simp
      | some path => cases hFind : tree.find path <;> simp_all [removePathIfSafe]
  | reverseMove =>
    cases hSource : action.sourcePath <;> cases hDestination : action.destinationPath <;> simp_all
  | processStop =>
    cases handler <;> cases hId : action.processId <;> simp_all [stopProcess, Option.filter]
  | serverStop =>
    cases handler <;> cases hId : action.serverId <;> simp_all [stopProcess, Option.filter]

theorem performed_ne_nil
    (hActs : acts host handler tree action = true) :
    (executeCompensationAction host handler tree action).performed ≠ [] := by
  have hWrite (path : List String) (payload : Bytes) :
      (mkdirForFile tree path (writeFile host path payload)).performed ≠ [] := by
    rcases mkdirForFile_cases tree path (writeFile host path payload) with ⟨_, _, hMade, -⟩
    rw [hMade, writeFile]
    split <;> simp [ContentHost.fail]
  have hRename (source destination : List String) :
      (mkdirForFile tree destination (rename host source destination)).performed ≠ [] := by
    rcases mkdirForFile_cases tree destination
      (rename host source destination) with ⟨_, _, hMade, -⟩
    rw [hMade, rename]
    split <;> simp [ContentHost.fail]
  unfold acts at hActs
  unfold executeCompensationAction
  cases hKind : action.kind with
  | restoreSnapshot =>
    cases hPath : action.path <;> cases hSnapshot : action.snapshot <;> simp_all
    rename_i path snapshot
    rcases Option.isSome_iff_exists.mp hActs with ⟨payload, hPayload⟩
    simp [hPayload, hWrite]
  | deleteCreatedPath => cases hPath : action.path with
      | none => simp_all
      | some path => cases hFind : tree.find path with
          | none => simp_all
          | some entry =>
            have hSafe : ¬ (entry = .directory ∧ tree.hasChildren path = true) := by
              simpa [hPath, hFind, hKind, imp_iff_not_or] using hActs
            simp [removePathIfSafe, hFind, hSafe]
  | reverseMove =>
    cases hSource : action.sourcePath <;> cases hDestination : action.destinationPath <;> simp_all
  | processStop =>
    cases handler <;> cases hId : action.processId <;> simp_all [stopProcess, Option.filter]
  | serverStop =>
    cases handler <;> cases hId : action.serverId <;> simp_all [stopProcess, Option.filter]

theorem executeActions_idle_iff
    (actions : List EffectCompensationAction) :
    (executeActions host handler tree actions).performed = [] ↔
      NothingToDo host handler tree actions := by
  induction actions with
  | nil => simp [executeActions, NothingToDo]
  | cons action rest ih =>
    unfold executeActions NothingToDo
    by_cases hSupported : action.supported = true
    · rw [if_pos hSupported]
      cases hActs : acts host handler tree action with
      | true =>
        have hSome := performed_ne_nil host hActs
        dsimp only
        split <;> simp [hSome, hSupported]
      | false =>
        rcases idle_action host hActs with ⟨hTree, hNone, hEnd⟩
        dsimp only
        split
        · rename_i message hFailed
          rw [hFailed] at hEnd
          simp only [reduceCtorEq, false_iff, not_and] at hEnd
          simp only [hNone, hSupported, true_and, forall_const, true_iff]
          exact fun hKind hGone => absurd hGone (hEnd hKind)
        · rename_i hOk
          have hGone := hEnd.mp hOk
          simp only [hTree, hNone, List.nil_append, ih,
            hSupported, hGone.1, hGone.2, forall_const, true_and]
    · simp [hSupported]

theorem compensatesOnce_iff (world : LedgerWorld) (call : LedgerCall) :
    CompensatesOnce host world call ↔ RepeatsIdly host world call := by
  cases call with
  | beginEffect | recordOutcome | outside => exact Iff.rfl
  | compensateEffect now effectId handler =>
    have hIdle (record : EffectRecord) :
        (executeCompensation host handler world.tree record.compensation).performed = [] ↔
          NothingToDo host handler world.tree record.compensation.actions := by
      unfold executeCompensation
      split
      · rename_i hNil
        simp [hNil, NothingToDo]
      · rw [executeActions_idle_iff]
    simp only [CompensatesOnce, RepeatsIdly, compensation, Option.mem_def, Option.map_eq_some_iff,
      forall_exists_index, and_imp, forall_apply_eq_imp_iff₂, hIdle]

/-
  In every run, effects are compensated at most once for an attempt exactly if the repeated
  compensations all find nothing to do.
-/
theorem compensated_once_iff (world : LedgerWorld) (calls : List LedgerCall) :
    AlongRun (ledgerStep host) (CompensatesOnce host) world calls ↔
      AlongRun (ledgerStep host) (RepeatsIdly host) world calls := by
  induction calls generalizing world with
  | nil => exact Iff.rfl
  | cons call rest ih => exact and_congr (compensatesOnce_iff host world call) (ih _)

/- A file made by somebody else is deleted later. -/
theorem compensated_twice : let notes : FileTree Bytes := [(["notes"], .file [65])]
    let input : EffectRecordInput := ⟨"e", "k", ⟨"s", none, none⟩, .ofInt 0, false⟩
    let state : EffectCompensationState :=
      { status := .available
        actions := [{ kind := .deleteCreatedPath, supported := true, path := some ["notes"] }] }
    let world := runSteps (ledgerStep ContentHost.plain) ⟨.empty, notes, []⟩
      [.beginEffect input, .recordOutcome (.ofInt 1) "e" true (some state),
        .compensateEffect (.ofInt 2) "e" none, .outside notes]
    ¬ CompensatesOnce ContentHost.plain world (.compensateEffect (.ofInt 3) "e" none) := by
  intro notes input state world hOnce
  have hSpent : "e" ∈ world.spent := by decide +kernel
  have hRun : (compensation ContentHost.plain world "e"
      none).map (·.performed) = some [.rm ["notes"]] := by decide +kernel
  rcases Option.map_eq_some_iff.mp hRun with ⟨run, hFound, hPerformed⟩
  rw [hOnce hSpent run hFound] at hPerformed
  cases hPerformed

end AgencCore.Workflow
