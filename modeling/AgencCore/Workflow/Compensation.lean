import AgencCore.Foundations.FileTree

/-
  Compensation of file effects.

  Before an effect its paths are captured; from the captures a plan of actions is made that undoes
  the effect. A text that was captured from an empty file is taken for a text that was not captured,
  so an empty file is not restored.
-/

namespace AgencCore.Workflow

open Foundations List Option

abbrev Bytes := List UInt8

/- The calls that change files or processes. -/
inductive SystemCall where
  | mkdir (path : List String)
  | writeFile (path : List String) (content : Bytes)
  | rm (path : List String)
  | rename (source destination : List String)
  | stop (toolName processId : String) (label idempotencyKey : Option String)
deriving DecidableEq

/- Text codecs, and the messages of failed calls. -/
structure ContentHost where
  toUtf8 : Bytes → String
  fromUtf8 : String → Bytes
  toBase64 : Bytes → String
  fromBase64 : String → Bytes
  failure : SystemCall → String
  toUtf8_nil : toUtf8 [] = ""
  fromUtf8_empty : fromUtf8 "" = []
  toBase64_nil : toBase64 [] = ""
  base64_round : ∀ content, fromBase64 (toBase64 content) = content

inductive EffectEntryType where
  | file
  | directory
  | missing
  | other
deriving DecidableEq

structure EffectFilesystemSnapshot where
  path : List String
  entryType : EffectEntryType
  utf8Text : Option String
  base64 : Option String
deriving DecidableEq

def maxSnapshotBytes : Nat := 256 * 1024

def isUtf8Content (host : ContentHost) (content : Bytes) : Bool :=
  host.fromUtf8 (host.toUtf8 content) = content

def captureFilesystemSnapshot (host : ContentHost) (tree : FileTree Bytes)
    (path : List String) : EffectFilesystemSnapshot :=
  match tree.find path with
  | none => ⟨path, .missing, none, none⟩
  | some .directory => ⟨path, .directory, none, none⟩
  | some .other => ⟨path, .other, none, none⟩
  | some (.file content) =>
    if content.length ≤ maxSnapshotBytes then
      if isUtf8Content host content then ⟨path, .file, some (host.toUtf8 content), none⟩
      else ⟨path, .file, none, some (host.toBase64 content)⟩
    else ⟨path, .file, none, none⟩

----------
-- Plans
----------

inductive MutatingTool where
  | writeFile
  | appendFile
  | textEditor
  | delete
  | mkdir
  | move
  | shell
  | processStart
  | serverStart
  | other
deriving DecidableEq

inductive EffectKind where
  | filesystemWrite
  | filesystemAppend
  | filesystemDelete
  | filesystemMove
  | filesystemMkdir
  | shellCommand
  | processStart
  | serverStart
  | desktopEditor
  | otherMutation
deriving DecidableEq

def inferEffectKind : MutatingTool → EffectKind
| .writeFile | .textEditor => .filesystemWrite
| .appendFile => .filesystemAppend
| .delete => .filesystemDelete
| .move => .filesystemMove
| .mkdir => .filesystemMkdir
| .shell => .shellCommand
| .processStart => .processStart
| .serverStart => .serverStart
| .other => .otherMutation

/- The arguments, and the fields of the result object. -/
structure EffectArgs where
  path : Option (List String)
  source : Option (List String)
  destination : Option (List String)
  processId : Option String
  serverId : Option String
  label : Option String
  idempotencyKey : Option String

def extractSnapshotCandidatePaths (args : EffectArgs) : MutatingTool → List (List String)
| .writeFile | .appendFile | .delete | .mkdir
| .textEditor => args.path.toList
| .move => (args.source.toList ++ args.destination.toList).eraseDups
| .shell | .processStart | .serverStart | .other => []

def capturePreExecutionSnapshots (host : ContentHost) (tree : FileTree Bytes) (tool : MutatingTool)
    (args : EffectArgs) : List EffectFilesystemSnapshot :=
  (extractSnapshotCandidatePaths args tool).map (captureFilesystemSnapshot host tree)

inductive CompensationActionKind where
  | restoreSnapshot
  | deleteCreatedPath
  | reverseMove
  | processStop
  | serverStop
deriving DecidableEq

structure EffectCompensationAction where
  kind : CompensationActionKind
  supported : Bool
  reason : Option String := none
  path : Option (List String) := none
  sourcePath : Option (List String) := none
  destinationPath : Option (List String) := none
  snapshot : Option EffectFilesystemSnapshot := none
  processId : Option String := none
  serverId : Option String := none
  label : Option String := none
  idempotencyKey : Option String := none
deriving DecidableEq

inductive CompensationStatus where
  | notAvailable
  | available
  | completed
  | failed
deriving DecidableEq

structure EffectCompensationState where
  status : CompensationStatus
  actions : List EffectCompensationAction
  lastError : Option String := none
deriving DecidableEq

def restoreFile (path : List String) (snapshot : EffectFilesystemSnapshot) :
    EffectCompensationAction :=
  let captured := snapshot.utf8Text.isSome || snapshot.base64.isSome
  { kind := .restoreSnapshot, supported := captured, reason :=
      if captured then none
      else some "Snapshot content was too large to capture.", path := some path
    snapshot := some snapshot }

def unsupportedRestore (reason : String) (path : List String)
    (snapshot : Option EffectFilesystemSnapshot) : EffectCompensationAction :=
  { kind := .restoreSnapshot, supported := false, reason := some reason, path := some path
    snapshot := snapshot }

/- `!snapshot || snapshot.entryType === "missing"` -/
def isMissing : Option EffectFilesystemSnapshot → Bool
| none => true
| some snapshot => snapshot.entryType = .missing

def writeActions (byPath : List String → Option EffectFilesystemSnapshot) (path : List String) :
    List EffectCompensationAction :=
  if isMissing (byPath path) then
    [{ kind := .deleteCreatedPath, supported := true, path := some path }]
  else
    (byPath path).toList.map (fun snapshot =>
      if snapshot.entryType = .file then restoreFile path snapshot
      else
        unsupportedRestore "Only file-backed writes support automatic compensation."
          path (some snapshot))

def deleteActions (byPath : List String → Option EffectFilesystemSnapshot) (path : List String) :
    List EffectCompensationAction :=
  match (byPath path).filter (·.entryType = .file) with
  | some snapshot => [restoreFile path snapshot]
  | none =>
    [unsupportedRestore "Only managed file deletes support automatic restore." path (byPath path)]

def moveActions (byPath : List String → Option EffectFilesystemSnapshot)
    (source destination : List String) : List EffectCompensationAction :=
  let possible := isMissing (byPath destination)
  [{ kind := .reverseMove, supported := possible, reason :=
       if possible then none
       else some "Automatic reversal is unsafe when the destination existed before the move."
     sourcePath := some destination, destinationPath := some source }]

def compensationActions (args : EffectArgs)
    (byPath : List String → Option EffectFilesystemSnapshot) :
    EffectKind → List EffectCompensationAction
| .filesystemWrite | .filesystemAppend | .desktopEditor =>
  args.path.toList.flatMap (writeActions byPath)
| .filesystemDelete => args.path.toList.flatMap (deleteActions byPath)
| .filesystemMove =>
  args.source.toList.flatMap (fun source =>
    args.destination.toList.flatMap (moveActions byPath source))
| .filesystemMkdir =>
  args.path.toList.flatMap (fun path =>
    if isMissing (byPath path) then
      [{ kind := .deleteCreatedPath, supported := true, path := some path }]
    else [])
| .processStart =>
  args.processId.toList.map (fun processId =>
    { kind := .processStop, supported := true, processId := some processId, label := args.label
      idempotencyKey := args.idempotencyKey })
| .serverStart =>
  args.serverId.toList.map (fun serverId =>
    { kind := .serverStop, supported := true, serverId := some serverId, label := args.label
      idempotencyKey := args.idempotencyKey })
| .shellCommand | .otherMutation => []

def buildCompensationState (args : EffectArgs) (kind : EffectKind)
    (snapshots : List EffectFilesystemSnapshot) : EffectCompensationState :=
  let actions := compensationActions args (fun path => snapshots.reverse.find? (·.path = path)) kind
  { status :=
      if actions.any (·.supported) then .available
      else .notAvailable, actions := actions }

----------
-- Execution
----------

/- What an action did, and how it ended. -/
structure ActionRun where
  tree : FileTree Bytes
  performed : List SystemCall
  outcome : Except String Unit

/- A tool handler that answers or throws. -/
abbrev StopHandler := SystemCall → Except String Unit

def ContentHost.fail (host : ContentHost) (tree : FileTree Bytes) (performed : List SystemCall)
    (call : SystemCall) : ActionRun := ⟨tree, performed ++ [call], .error (host.failure call)⟩

/- `mkdirForFile(path)`, and what is done with its result. -/
def mkdirForFile (tree : FileTree Bytes) (path : List String)
    (next : FileTree Bytes → List SystemCall → ActionRun) : ActionRun :=
  if path.dropLast = [] then next tree []
  else next (tree.makeDirectory path.dropLast) [.mkdir path.dropLast]

def writeFile (host : ContentHost) (path : List String) (content : Bytes) (tree : FileTree Bytes)
    (performed : List SystemCall) : ActionRun :=
  match tree.find path with
  | none | some (.file _) =>
    ⟨tree.put path (.file content), performed ++ [.writeFile path content], .ok ()⟩
  | some .directory | some .other => host.fail tree performed (.writeFile path content)

def rename (host : ContentHost) (source destination : List String) (tree : FileTree Bytes)
    (performed : List SystemCall) : ActionRun :=
  if (tree.find source).isSome ∧ ¬ source <+: destination ∧
      (tree.find destination = none ∨
        (tree.find source ≠ some .directory ∧ tree.find destination ≠ some .directory)) then
    ⟨tree.move source destination, performed ++ [.rename source destination], .ok ()⟩
  else host.fail tree performed (.rename source destination)

def removePathIfSafe (tree : FileTree Bytes) (path : List String) : ActionRun :=
  match tree.find path with
  | none => ⟨tree, [], .ok ()⟩
  | some entry =>
    if entry = .directory ∧ tree.hasChildren path then
      ⟨tree, [], .error
        ("Refusing to compensate by deleting non-empty directory \"" ++
          "/".intercalate path ++ "\".")⟩
    else ⟨tree.remove path, [.rm path], .ok ()⟩

/- A text is a payload unless it is empty. -/
def snapshotPayload (host : ContentHost) (snapshot : EffectFilesystemSnapshot) : Option Bytes :=
  match snapshot.utf8Text.filter (· ≠ "") with
  | some text => some (host.fromUtf8 text)
  | none => (snapshot.base64.filter (· ≠ "")).map host.fromBase64

def stopProcess (tree : FileTree Bytes) (handler : Option StopHandler) (toolName : String)
    (target : Option String) (action : EffectCompensationAction) (message : String) : ActionRun :=
  match handler, target with
  | some handler, some target =>
    let call := SystemCall.stop toolName target (action.label.filter (· ≠ ""))
      (action.idempotencyKey.filter (· ≠ ""))
    ⟨tree, [call], handler call⟩
  | _, _ => ⟨tree, [], .error message⟩

def executeCompensationAction (host : ContentHost) (handler : Option StopHandler)
    (tree : FileTree Bytes) (action : EffectCompensationAction) : ActionRun :=
  match action.kind with
  | .restoreSnapshot =>
    match action.path, action.snapshot with
    | some path, some snapshot =>
      match snapshotPayload host snapshot with
      | some payload => mkdirForFile tree path (writeFile host path payload)
      | none => ⟨tree, [], .error "Snapshot content is unavailable for restore."⟩
    | _, _ => ⟨tree, [], .error "Missing restore_snapshot payload."⟩
  | .deleteCreatedPath =>
    match action.path with
    | some path => removePathIfSafe tree path
    | none => ⟨tree, [], .error "Missing delete_created_path target."⟩
  | .reverseMove =>
    match action.sourcePath, action.destinationPath with
    | some source, some destination =>
      mkdirForFile tree destination (rename host source destination)
    | _, _ => ⟨tree, [], .error "Missing reverse_move payload."⟩
  | .processStop =>
    stopProcess tree handler "system.processStop" (action.processId.filter (· ≠ "")) action
      "A tool handler is required for process compensation."
  | .serverStop =>
    stopProcess tree handler "system.serverStop" (action.serverId.filter (· ≠ "")) action
      "A tool handler is required for server compensation."

/- The actions in order, up to the first that fails. -/
def executeActions (host : ContentHost) (handler : Option StopHandler) :
    FileTree Bytes → List EffectCompensationAction → ActionRun
| tree, [] => ⟨tree, [], .ok ()⟩
| tree, action :: rest =>
  if action.supported then let first := executeCompensationAction host handler tree action
    match first.outcome with
    | .error message => ⟨first.tree, first.performed, .error message⟩
    | .ok () =>
      let later := executeActions host handler first.tree rest
      ⟨later.tree, first.performed ++ later.performed, later.outcome⟩
  else ⟨tree, [], .error (action.reason.getD "Compensation action is unsupported.")⟩

def executeCompensation (host : ContentHost) (handler : Option StopHandler) (tree : FileTree Bytes)
    (state : EffectCompensationState) : ActionRun :=
  if state.actions = [] then ⟨tree, [], .error "No compensation actions are available."⟩
  else executeActions host handler tree state.actions

structure FileEffect where
  tool : MutatingTool
  args : EffectArgs
  content : Bytes

namespace FileEffect

/- The change itself, as the file tools make it. -/
def change (host : ContentHost) (effect : FileEffect) (tree : FileTree Bytes) : Option ActionRun :=
  match effect.tool with
  | .writeFile | .textEditor =>
    effect.args.path.map (fun path => mkdirForFile tree path (writeFile host path effect.content))
  | .appendFile =>
    effect.args.path.map (fun path =>
      mkdirForFile tree path (writeFile host path (match tree.find path with
          | some (.file content) => content ++ effect.content
          | _ => effect.content)))
  | .delete =>
    effect.args.path.map (fun path =>
      if (tree.find path).isSome then ⟨tree.remove path, [.rm path], .ok ()⟩
      else host.fail tree [] (.rm path))
  | .move =>
    effect.args.source.bind (fun source =>
      effect.args.destination.map (fun destination =>
        mkdirForFile tree destination (rename host source destination)))
  | .mkdir | .shell | .processStart | .serverStart
  | .other => none

def snapshots (host : ContentHost) (effect : FileEffect) (tree : FileTree Bytes) :
    List EffectFilesystemSnapshot := capturePreExecutionSnapshots host tree effect.tool effect.args

def plan (host : ContentHost) (effect : FileEffect)
    (tree : FileTree Bytes) : EffectCompensationState :=
  buildCompensationState effect.args (inferEffectKind effect.tool) (effect.snapshots host tree)

/- A compensation that went through and left every captured path as it was. -/
def Undone (host : ContentHost) (effect : FileEffect) (tree : FileTree Bytes)
    (undo : ActionRun) : Prop :=
  undo.outcome = .ok () ∧
    ∀ snapshot ∈ effect.snapshots host tree, undo.tree.find snapshot.path = tree.find snapshot.path

def Restores (host : ContentHost) (effect : FileEffect) (tree : FileTree Bytes) : Prop :=
  ∀ run handler, effect.change host tree = some run → run.outcome = .ok () →
    (effect.plan host tree).status = .available →
    (∀ action ∈ (effect.plan host tree).actions, action.supported) →
    effect.Undone host tree (executeCompensation host handler run.tree (effect.plan host tree))

/- The effect is on a file that has no content. -/
def OnEmptyFile (effect : FileEffect) (tree : FileTree Bytes) : Prop :=
  effect.tool ∈ [.writeFile, .textEditor, .appendFile, .delete] ∧
    ∃ path ∈ effect.args.path, tree.find path = some (.file [])

end FileEffect

----------
-- Restored Files
----------

section Restoring

variable {host : ContentHost}
variable {tree tree' : FileTree Bytes}

theorem path_capture (path : List String) :
    (captureFilesystemSnapshot host tree path).path = path := by
  unfold captureFilesystemSnapshot
  repeat' split
  all_goals rfl

variable {content : Bytes}
variable {path : List String}

theorem snapshotPayload_capture (host : ContentHost)
    (hFile : tree.find path = some (.file content)) :
    snapshotPayload host (captureFilesystemSnapshot host tree path) =
      if content.length ≤ maxSnapshotBytes ∧ content ≠ [] then some content else none := by
  have hUtf8 : isUtf8Content host content = true → (host.toUtf8 content = "" ↔ content = []) := by
    intro hRound
    rw [isUtf8Content, decide_eq_true_eq] at hRound
    constructor
    · intro hText
      rw [hText, host.fromUtf8_empty] at hRound
      exact hRound.symm
    · rintro rfl
      exact host.toUtf8_nil
  have hBase : host.toBase64 content = "" → content = [] := by
    intro hText
    have hNil := host.base64_round []
    rw [host.toBase64_nil] at hNil
    have hRound := host.base64_round content
    rw [hText, hNil] at hRound
    exact hRound.symm
  have hEmpty : isUtf8Content host [] = true := by
    simp [isUtf8Content, host.toUtf8_nil, host.fromUtf8_empty]
  unfold captureFilesystemSnapshot snapshotPayload
  simp only [hFile]
  by_cases hSize : content.length ≤ maxSnapshotBytes
  · by_cases hText : isUtf8Content host content = true
    · by_cases hNil : content = []
      · simp [hNil, Option.filter, host.toUtf8_nil, hEmpty]
      · have hRound : host.fromUtf8 (host.toUtf8 content) = content := by
          simpa [isUtf8Content] using hText
        simp [hSize, hText, hNil, Option.filter, (hUtf8 hText).not.mpr hNil, hRound]
    · have hNil : content ≠ [] := by
        rintro rfl
        exact hText hEmpty
      simp [hSize, hText, hNil, Option.filter, mt hBase hNil, host.base64_round]
  · simp [hSize]

/- Making the directory of a file keeps what is elsewhere. -/
theorem mkdirForFile_cases (tree : FileTree Bytes) (path : List String)
    (next : FileTree Bytes → List SystemCall → ActionRun) :
    ∃ tree' performed, mkdirForFile tree path next = next tree' performed ∧
        ∀ place, ¬ place <+: path ∨ place = path → tree'.find place = tree.find place := by
  unfold mkdirForFile
  split
  · exact ⟨tree, [], rfl, fun _ _ => rfl⟩
  · rename_i hDirectory
    refine ⟨_, _, rfl, fun place hPlace => ?_⟩
    apply FileTree.find_makeDirectory
    rintro hOn
    rcases hPlace with hOff | rfl
    · exact hOff (hOn.trans path.dropLast_prefix)
    · have hLength := hOn.length_le
      rw [length_dropLast] at hLength
      cases place with
      | nil => exact hDirectory rfl
      | cons => simp at hLength

theorem writeFile_ok (host : ContentHost) (content : Bytes)
    (performed : List SystemCall) (hPlain : ∀ entry ∈ tree.find path, ∃ old, entry = .file old) :
    (writeFile host path content tree performed).outcome = .ok () ∧
      (writeFile host path content tree performed).tree.find path = some (.file content) := by
  unfold writeFile
  cases hFind : tree.find path with
  | none => exact ⟨rfl, by rw [FileTree.find_put, if_pos rfl]⟩
  | some entry =>
    rcases hPlain entry hFind with ⟨old, rfl⟩
    exact ⟨rfl, by rw [FileTree.find_put, if_pos rfl]⟩

/- A write that went through left a file. -/
theorem file_of_writeFile {performed : List SystemCall}
    (hOk : (writeFile host path content tree performed).outcome = .ok ()) :
    (writeFile host path content tree performed).tree.find path = some (.file content) := by
  apply (writeFile_ok host content performed _).2
  intro entry hEntry
  unfold writeFile at hOk
  rw [mem_def] at hEntry
  cases entry with
  | file old => exact ⟨old, rfl⟩
  | directory | other => simp [hEntry, ContentHost.fail] at hOk

/- How the restoring action ends, where a file can be. -/
theorem restore_file (host : ContentHost) (handler : Option StopHandler)
    (hFile : tree.find path = some (.file content))
    (hPlain : ∀ entry ∈ tree'.find path, ∃ old, entry = .file old) :
    let action := restoreFile path (captureFilesystemSnapshot host tree path)
    let undo := executeActions host handler tree' [action]
    action.supported = true → (content = [] ∧ undo.outcome ≠ .ok ()) ∨
      (content ≠ [] ∧ undo.outcome = .ok () ∧ undo.tree.find path = tree.find path) := by
  intro action undo hSupported
  have hPayload := snapshotPayload_capture host hFile
  have hSize : content.length ≤ maxSnapshotBytes := by
    by_contra hLarge
    simp [action, restoreFile, captureFilesystemSnapshot, hFile, hLarge] at hSupported
  have hUndo : undo = executeActions host handler tree' [action] := rfl
  rw [executeActions, if_pos hSupported] at hUndo
  by_cases hNil : content = []
  · left
    rw [if_neg (fun hBoth => hBoth.2 hNil)] at hPayload
    refine ⟨hNil, ?_⟩
    rw [hUndo]
    simp [action, restoreFile, executeCompensationAction, hPayload]
  · right
    rw [if_pos ⟨hSize, hNil⟩] at hPayload
    rcases mkdirForFile_cases tree' path (writeFile host path content) with
      ⟨tree₁, performed, hMade, hKept⟩
    have hRun : executeCompensationAction host handler tree'
        action = writeFile host path content tree₁ performed := by
      simp only [action, restoreFile, executeCompensationAction, hPayload, hMade]
    have hWritten := writeFile_ok host content performed
      (by rw [hKept path (.inr rfl)]; exact hPlain)
    refine ⟨hNil, ?_⟩
    rw [hUndo]
    simp only [hRun, hWritten.1, executeActions, hWritten.2, hFile, and_self]

namespace FileEffect

variable {effect : FileEffect}

def OnPath (effect : FileEffect) : Prop :=
  effect.tool ∈ [.writeFile, .textEditor, .appendFile, .delete]

theorem snapshots_onPath (hTool : effect.OnPath) (hPath : effect.args.path = some path) :
    effect.snapshots host tree = [captureFilesystemSnapshot host tree path] := by
  simp only [OnPath, mem_cons, not_mem_nil, or_false] at hTool
  rcases hTool with hTool | hTool | hTool | hTool <;>
    simp [snapshots, capturePreExecutionSnapshots, hTool, extractSnapshotCandidatePaths, hPath]

/- The plan for one path, by what was captured there. -/
theorem actions_onPath (host : ContentHost) (tree : FileTree Bytes) (hTool : effect.OnPath)
    (hPath : effect.args.path = some path) :
    let snapshot := captureFilesystemSnapshot host tree path
    let actions := (effect.plan host tree).actions
    match tree.find path with
    | some (.file _) => actions = [restoreFile path snapshot]
    | none =>
      actions = [{ kind := .deleteCreatedPath, supported := true, path := some path }] ∨
        ∃ action, actions = [action] ∧ action.supported = false
    | some _ => ∃ action, actions = [action] ∧ action.supported = false := by
  have hType : (captureFilesystemSnapshot host tree path).entryType = match tree.find path with
        | none => .missing
        | some .directory => .directory
        | some .other => .other
        | some (.file _) => .file := by
    unfold captureFilesystemSnapshot
    repeat' split
    all_goals simp_all
  have hFound : [captureFilesystemSnapshot host tree
      path].reverse.find? (·.path = path) = some (captureFilesystemSnapshot host tree path) := by
    simp [path_capture]
  have hActions : (effect.plan host tree).actions =
      compensationActions effect.args
        (fun other => [captureFilesystemSnapshot host tree path].reverse.find? (·.path = other))
        (inferEffectKind effect.tool) := by
    rw [plan, snapshots_onPath hTool hPath]
    rfl
  simp only [OnPath, mem_cons, not_mem_nil, or_false] at hTool
  dsimp only
  rw [hActions]
  rcases hFind : tree.find path with _ | (_ | _ | _) <;> rw [hFind] at hType <;>
    rcases hTool with hTool | hTool | hTool | hTool <;> rw [hTool] <;>
    simp only [inferEffectKind, compensationActions, hPath,
      toList_some, flatMap_cons, flatMap_nil,
      append_nil, writeActions, deleteActions, hFound] <;>
    simp [isMissing, hType, unsupportedRestore, Option.filter]

variable {run : ActionRun}

theorem change_onPath (hTool : effect.OnPath) (hPath : effect.args.path = some path)
    (hChange : effect.change host tree = some run) (hOk : run.outcome = .ok ()) :
    (∃ content, run.tree.find path = some (.file content)) ∨
      (run.tree.find path = none ∧ (tree.find path).isSome) := by
  simp only [OnPath, mem_cons, not_mem_nil, or_false] at hTool
  rcases hTool with hTool | hTool | hTool | hTool <;>
    simp only [change, hTool, hPath, map_some, Option.some.injEq] at hChange <;>
    subst hChange
  case inr.inr.inr =>
    right
    split at hOk
    · rename_i hThere
      rw [if_pos hThere]
      refine ⟨?_, hThere⟩
      rw [FileTree.find_remove, if_pos prefix_rfl]
    · cases hOk
  all_goals
    left
    rcases mkdirForFile_cases tree path (writeFile host path _) with ⟨tree₁, performed, hMade, -⟩
    rw [hMade] at hOk ⊢
    exact ⟨_, file_of_writeFile hOk⟩

/- A file can always be changed. -/
theorem change_of_file (host : ContentHost) (hTool : effect.OnPath)
    (hPath : effect.args.path = some path) {content : Bytes}
    (hFile : tree.find path = some (.file content)) :
    ∃ run, effect.change host tree = some run ∧ run.outcome = .ok () := by
  have hWrite (written : Bytes) :
      (mkdirForFile tree path (writeFile host path written)).outcome = .ok () := by
    rcases mkdirForFile_cases tree path (writeFile host path written) with
      ⟨tree₁, performed, hMade, hKept⟩
    rw [hMade]
    apply (writeFile_ok host written performed _).1
    rw [hKept path (.inr rfl), hFile]
    rintro entry hEntry
    exact ⟨content, (Option.some.inj hEntry).symm⟩
  simp only [OnPath, mem_cons, not_mem_nil, or_false] at hTool
  rcases hTool with hTool | hTool | hTool | hTool <;>
    simp only [change, hTool, hPath, map_some]
  case inr.inr.inr => exact ⟨_, rfl, by simp [hFile]⟩
  all_goals exact ⟨_, rfl, hWrite _⟩

variable {handler : Option StopHandler}

theorem undone_onPath_iff (hTool : effect.OnPath)
    (hPath : effect.args.path = some path)
    (hChange : effect.change host tree = some run) (hOk : run.outcome = .ok ())
    (hSupported : ∀ action ∈ (effect.plan host tree).actions, action.supported) :
    effect.Undone host tree (executeCompensation host handler run.tree (effect.plan host tree)) ↔
      tree.find path ≠ some (.file []) := by
  have hLeft := change_onPath hTool hPath hChange hOk
  have hActions := actions_onPath host tree hTool hPath
  have hRefused : ¬ ∃ action,
      (effect.plan host tree).actions = [action] ∧ action.supported = false := by
    rintro ⟨action, hOnly, hNot⟩
    have := hSupported action (by simp [hOnly])
    simp [hNot] at this
  unfold Undone
  rw [snapshots_onPath hTool hPath]
  simp only [mem_singleton, forall_eq, path_capture]
  cases hFind : tree.find path with
  | none =>
    simp only [hFind, hRefused, or_false] at hActions
    rcases hLeft with ⟨content, hFile⟩ | ⟨-, hThere⟩
    · simp [executeCompensation, hActions, executeActions,
        executeCompensationAction, removePathIfSafe, hFile, FileTree.find_remove]
    · simp [hFind] at hThere
  | some entry => cases entry with
      | directory | other =>
        simp only [hFind] at hActions
        exact absurd hActions hRefused
      | file content =>
        simp only [hFind] at hActions
        have hPlain : ∀ entry ∈ run.tree.find path, ∃ old, entry = .file old := by
          rintro entry hEntry
          rcases hLeft with ⟨written, hFile⟩ | ⟨hNone, -⟩
          · rw [hFile] at hEntry
            exact ⟨written, (Option.some.inj hEntry).symm⟩
          · simp [hNone] at hEntry
        have hEnd := restore_file host handler hFind hPlain (hSupported _ (by simp [hActions]))
        rw [executeCompensation, hActions, if_neg (by simp)]
        rw [hFind] at hEnd
        rcases hEnd with ⟨hNil, hFailed⟩ | ⟨hSome, hDone⟩
        · simp [hNil, hFailed]
        · simp [hSome, hDone]

theorem eraseDups_pair {a b : List String} (hNe : a ≠ b) : [a, b].eraseDups = [a, b] := by
  have hNe' : ¬ b = a := fun h => hNe h.symm
  simp [eraseDups_cons, hNe']

/- A move to a free place is undone by the move back. -/
theorem undone_move {source destination : List String}
    (hWell : tree.WellFormed) (hTool : effect.tool = .move)
    (hSource : effect.args.source = some source)
    (hDestination : effect.args.destination = some destination)
    (hChange : effect.change host tree = some run) (hOk : run.outcome = .ok ())
    (hSupported : ∀ action ∈ (effect.plan host tree).actions, action.supported) :
    effect.Undone host tree
      (executeCompensation host handler run.tree (effect.plan host tree)) := by
  -- the move itself
  simp only [change, hTool, hSource, hDestination, bind_some, map_some,
    Option.some.injEq] at hChange
  rcases mkdirForFile_cases tree destination (rename host source destination) with
    ⟨tree₁, performed, hMade, hKept⟩
  rw [hMade] at hChange
  subst hChange
  unfold rename at hOk ⊢
  split at hOk
  case isFalse => cases hOk
  rename_i hCan
  rcases hCan with ⟨hThere, hNotInto, hFree⟩
  rw [if_pos ⟨hThere, hNotInto, hFree⟩]
  have hSame : tree₁.find source = tree.find source := hKept source (.inl hNotInto)
  rw [hSame] at hThere
  have hNe : source ≠ destination := by
    rintro rfl
    exact hNotInto prefix_rfl
  have hSnapshots : effect.snapshots host tree =
      [captureFilesystemSnapshot host tree source,
        captureFilesystemSnapshot host tree destination] := by
    simp [snapshots, capturePreExecutionSnapshots, hTool,
      extractSnapshotCandidatePaths, hSource, hDestination, eraseDups_pair hNe]
  -- the destination was free, and is not above the source
  have hActions : (effect.plan host tree).actions =
      moveActions (fun _ => some (captureFilesystemSnapshot host tree destination))
        source destination := by
    rw [plan, hSnapshots]
    simp [buildCompensationState, hTool, inferEffectKind,
      compensationActions, hSource, hDestination, moveActions, path_capture]
  have hMissing : tree.find destination = none := by
    have hPossible := hSupported _ (by rw [hActions]; exact mem_cons_self)
    simp only [isMissing, decide_eq_true_eq] at hPossible
    unfold captureFilesystemSnapshot at hPossible
    split at hPossible
    · assumption
    all_goals repeat' split at hPossible
    all_goals simp at hPossible
  have hNotAbove : ¬ destination <+: source := by
    rintro ⟨below, rfl⟩
    have hBelow : below ≠ [] := by
      rintro rfl
      exact hNe (append_nil _)
    have := hWell destination below hBelow hThere
    rw [hMissing] at this
    cases this
  -- the move back
  rcases mkdirForFile_cases (tree₁.move source destination)
      source (rename host destination source) with ⟨tree₂, performed₂, hMade₂, hKept₂⟩
  have hFound : tree₂.find destination = tree.find source := by
    rw [hKept₂ destination (.inl hNotAbove), FileTree.find_move_destination tree₁ hNotAbove, hSame]
  have hGone : tree₂.find source = none := by
    rw [hKept₂ source (.inr rfl), FileTree.find_move_source tree₁ hNotAbove]
  have hCanBack : (tree₂.find destination).isSome ∧ ¬ destination <+: source ∧
      (tree₂.find source = none ∨
        (tree₂.find destination ≠ some .directory ∧ tree₂.find source ≠ some .directory)) :=
    ⟨by rw [hFound]; exact hThere, hNotAbove, .inl hGone⟩
  have hBack : rename host destination source tree₂
      performed₂ = ⟨tree₂.move destination source, performed₂ ++ [.rename destination source],
        .ok ()⟩ := by rw [rename, if_pos hCanBack]
  have hRun : (executeCompensation host handler
      (tree₁.move source destination) (effect.plan host tree)) =
      ⟨tree₂.move destination source, performed₂ ++ [.rename destination source], .ok ()⟩ := by
    rw [hActions] at hSupported
    rw [executeCompensation, hActions, if_neg (by simp [moveActions])]
    simp only [moveActions, mem_singleton, forall_eq] at hSupported
    simp only [moveActions, executeActions, hSupported,
      if_true, executeCompensationAction, hMade₂, hBack, append_nil]
  rw [hRun]
  refine ⟨rfl, ?_⟩
  rw [hSnapshots]
  intro snapshot hMem
  simp only [mem_cons, not_mem_nil, or_false] at hMem
  rcases hMem with rfl | rfl
  · rw [path_capture, FileTree.find_move_destination tree₂ hNotInto, hFound]
  · rw [path_capture, FileTree.find_move_source tree₂ hNotInto, hMissing]

end FileEffect

end Restoring

----------
-- What Is Restored
----------

open FileEffect in
/- An effect on a well-formed tree is undone by its plan exactly if it is not on an empty file. -/
theorem compensation_restores_iff (host : ContentHost) (effect : FileEffect) {tree : FileTree Bytes}
    (hWell : tree.WellFormed) : effect.Restores host tree ↔ ¬ effect.OnEmptyFile tree := by
  constructor
  · rintro hRestores ⟨hTool, path, hPath, hEmpty⟩
    rcases change_of_file host hTool hPath hEmpty with ⟨run, hChange, hOk⟩
    have hActions := actions_onPath host tree hTool hPath
    simp only [hEmpty] at hActions
    have hText : isUtf8Content host [] = true := by
      simp [isUtf8Content, host.toUtf8_nil, host.fromUtf8_empty]
    have hSupported : ∀ action ∈ (effect.plan host tree).actions, action.supported = true := by
      simp [hActions, restoreFile, captureFilesystemSnapshot, hEmpty, hText]
    have hAvailable : (effect.plan host tree).status = .available := by
      have hAny : (effect.plan host tree).actions.any (·.supported) = true := by
        rw [hActions] at hSupported ⊢
        simpa using hSupported
      rw [plan, buildCompensationState] at hAny ⊢
      exact if_pos hAny
    exact (undone_onPath_iff hTool hPath hChange hOk hSupported).mp
      (hRestores run none hChange hOk hAvailable hSupported) hEmpty
  · intro hFull run handler hChange hOk hAvailable hSupported
    by_cases hTool : effect.OnPath
    · cases hPath : effect.args.path with
      | none =>
        simp only [OnPath, mem_cons, not_mem_nil, or_false] at hTool
        rcases hTool with hTool | hTool | hTool | hTool <;> simp [change, hTool, hPath] at hChange
      | some path =>
        exact (undone_onPath_iff hTool hPath hChange hOk hSupported).mpr
          (fun hEmpty => hFull ⟨hTool, path, hPath, hEmpty⟩)
    · cases hMove : effect.tool with
      | move => cases hSource : effect.args.source with
          | none => simp [change, hMove, hSource] at hChange
          | some source => cases hDestination : effect.args.destination with
              | none => simp [change, hMove, hSource, hDestination] at hChange
              | some destination =>
                exact undone_move hWell hMove hSource hDestination hChange hOk hSupported
      | mkdir | shell | processStart | serverStart | other => simp [change, hMove] at hChange
      | writeFile | textEditor | appendFile | delete => simp [OnPath, hMove] at hTool

/- A host that writes bytes as characters. -/
def ContentHost.plain : ContentHost where
  toUtf8 content := String.ofList (content.map (Char.ofNat ·.toNat))
  fromUtf8 text := text.toList.map (UInt8.ofNat ·.toNat)
  toBase64 content := String.ofList (content.map (Char.ofNat ·.toNat))
  fromBase64 text := text.toList.map (UInt8.ofNat ·.toNat)
  failure _ := "EIO"
  toUtf8_nil := rfl
  fromUtf8_empty := rfl
  toBase64_nil := rfl
  base64_round := by
    intro content
    have hByte : ∀ byte : UInt8, UInt8.ofNat (Char.ofNat byte.toNat).toNat = byte := by
      intro byte
      have hValid : byte.toNat.isValidChar := .inl (by have := byte.toNat_lt; omega)
      rw [Char.toNat_ofNat, if_pos hValid, UInt8.ofNat_toNat]
    rw [String.toList_ofList, List.map_map]
    exact List.map_id'' hByte content

def notesPath : EffectArgs where
  path := some ["notes"]
  source := none
  destination := none
  processId := none
  serverId := none
  label := none
  idempotencyKey := none

theorem written_file_restored : FileEffect.Restores ContentHost.plain ⟨.writeFile, notesPath, [66]⟩
      [([], .directory), (["notes"], .file [65])] := by
  refine (compensation_restores_iff _ _ ?_).mpr ?_
  · intro place below hBelow hThere
    rw [FileTree.find, Entries.lookup_isSome_iff] at hThere
    cases place with
    | nil => rfl
    | cons => simp [hBelow] at hThere
  · rintro ⟨-, path, hPath, hEmpty⟩
    cases hPath
    exact absurd hEmpty (by decide)

/- Writing to an empty file is not undone. -/
theorem emptied_file_not_restored :
    let tree : FileTree Bytes := [([], .directory), (["notes"], .file [])]
    let effect : FileEffect := ⟨.writeFile, notesPath, [66]⟩
    let plan := effect.plan ContentHost.plain tree
    let undo := (effect.change ContentHost.plain tree).map
      (fun run => executeCompensation ContentHost.plain none run.tree plan)
    plan.status = .available ∧ plan.actions.all (·.supported) = true ∧
      undo.map (fun run => run.tree.find ["notes"]) = some (some (.file [66])) := by decide +kernel

end AgencCore.Workflow
