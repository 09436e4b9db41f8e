import AgencCore.Foundations.Runs

/-
  The task lists of a session.

  Changes of a list run one after the other, but a list is loaded outside of that order: a reader
  that waits for the backend puts what it read in place of the cached list, also when the list was
  loaded and changed meanwhile. If a read value is put in place only while no list is cached, or
  where it is the cached list again, no task is lost.
-/

namespace AgencCore.Tools

open Foundations List

inductive TaskStatus where
  | pending
  | inProgress
  | completed
  | failed
  | cancelled
  | deleted
deriving DecidableEq

/- The two stores, for sessions and for the runtime. -/
inductive StoreKind where
  | session
  | runtime
deriving DecidableEq

/- A task; the details are the fields that no store reads. -/
structure StoredTask (D : Type) where
  id : Nat
  subject : String
  description : String
  status : TaskStatus
  details : D
  revision : Nat
deriving DecidableEq

structure TaskListEntry (D : Type) where
  tasks : List (StoredTask D)
  nextTaskId : Nat
deriving DecidableEq

structure TaskUpdatePatch (D : Type) where
  status : Option TaskStatus
  subject : Option String
  description : Option String
  details : D → D

variable {D : Type}

def createEmptyTaskList : TaskListEntry D := ⟨[], 1⟩

/- Statuses that the lists of a kind can hold. -/
def StoreKind.allows : StoreKind → TaskStatus → Bool
| .session, .failed | .session, .cancelled => false
| _, _ => true

def coerceStoredTask (kind : StoreKind) (task : StoredTask D) : Option (StoredTask D) :=
  if task.subject = "" ∨ task.description = "" ∨ kind.allows task.status = false then none
  else some task

def coerceTaskListEntry (kind : StoreKind) : Option (TaskListEntry D) → TaskListEntry D
| none => createEmptyTaskList
| some list =>
  { tasks := list.tasks.filterMap (coerceStoredTask kind), nextTaskId := max list.nextTaskId 1 }

namespace TaskListEntry

/- The ids that `list` returns. -/
def visible (list : TaskListEntry D) : List Nat :=
  (list.tasks.filter (·.status ≠ .deleted)).map (·.id)

def compactDeletedTasksInPlace (list : TaskListEntry D) : TaskListEntry D :=
  { list with tasks := list.tasks.filter (·.status ≠ .deleted) }

def createTask (list : TaskListEntry D) (subject description : String)
    (details : D) : TaskListEntry D where
  tasks := list.tasks ++ [⟨list.nextTaskId, subject, description, .pending, details, 1⟩]
  nextTaskId := list.nextTaskId + 1

end TaskListEntry

def TaskUpdatePatch.apply (patch : TaskUpdatePatch D) (task : StoredTask D) : StoredTask D where
  id := task.id
  subject := patch.subject.getD task.subject
  description := patch.description.getD task.description
  status := patch.status.getD task.status
  details := patch.details task.details
  revision := task.revision + 1

def updateFirst (taskId : Nat) (patch : TaskUpdatePatch D) :
    List (StoredTask D) → List (StoredTask D)
| [] => []
| task :: rest =>
  if task.id = taskId then patch.apply task :: rest
  else task :: updateFirst taskId patch rest

def TaskListEntry.updateTask (list : TaskListEntry D) (kind : StoreKind) (taskId : Nat)
    (patch : TaskUpdatePatch D) (expectedRevision : Option Nat) : Option (TaskListEntry D) :=
  match list.tasks.find? (·.id = taskId) with
  | none => none
  | some task =>
    if task.status = .deleted ∨ expectedRevision.any (· ≠ task.revision) ∨
        patch.status.any (!kind.allows ·) then none
    else some { list with tasks := updateFirst taskId patch list.tasks }

----------
-- Stores
----------

inductive TaskJob (D : Type) where
  | createTask (subject description : String) (details : D)
  | updateTask (taskId : Nat) (patch : TaskUpdatePatch D) (expectedRevision : Option Nat)

/- The changed list, and the id of a created task. -/
def TaskJob.apply (kind : StoreKind) (list : TaskListEntry D) :
    TaskJob D → Option (TaskListEntry D × Option Nat)
| .createTask subject description details =>
  some (list.createTask subject description details, some list.nextTaskId)
| .updateTask taskId patch expectedRevision =>
  (list.updateTask kind taskId patch expectedRevision).map (·, none)

def TaskJob.deletes : TaskJob D → List Nat
| .updateTask taskId ⟨some .deleted, _, _, _⟩ _ => [taskId]
| _ => []

/- Where `ensureListLoaded` waits; at last it has a list. -/
inductive LoadPhase (D : Type) where
  | loading
  | fetched (value : Option (TaskListEntry D))
  | ready (list : Nat)
deriving DecidableEq

inductive JobPhase (D : Type) where
  | load (phase : LoadPhase D)
  | write (snapshot : TaskListEntry D) (created : Option Nat)
  | written (created : Option Nat)

/-
  One list of a store. Lists are objects of a heap, and the cached one is an index; it is there as
  soon as the list is marked as loaded. At last what was promised so far.
-/
structure TaskStore (D : Type) where
  persisted : Option (TaskListEntry D)
  objects : List (TaskListEntry D)
  cached : Option Nat
  persistCount : Nat
  queue : List (TaskJob D)
  active : Option (TaskJob D × JobPhase D)
  readers : List (LoadPhase D)
  created : List Nat
  deleted : List Nat

def TaskStore.start : TaskStore D := ⟨none, [], none, 0, [], none, [], [], []⟩

inductive StoreAction (D : Type) where
  | submit (job : TaskJob D)
  | enter
  | advance
  | listTasks
  | resume (i : Nat)
  | restart

def taskSoftDeleteGcInterval : Nat := 50

section Stores

variable (kind : StoreKind)
variable (pruneTaskEvents : D → D)

namespace TaskStore

def object (s : TaskStore D) (i : Nat) : TaskListEntry D := s.objects[i]?.getD createEmptyTaskList

/- What `listTasks` returns once its list is loaded. -/
def list (s : TaskStore D) : List Nat :=
  match s.cached with
  | none => []
  | some i => (s.object i).visible

def ensureListLoaded (s : TaskStore D) : LoadPhase D :=
  match s.cached with
  | some i => .ready i
  | none => .loading

def install (s : TaskStore D) (value : Option (TaskListEntry D)) : TaskStore D :=
  { s with
    objects := s.objects ++ [coerceTaskListEntry kind value], cached := some s.objects.length }

def loadStep (s : TaskStore D) : LoadPhase D → TaskStore D × LoadPhase D
| .loading => (s, .fetched s.persisted)
| .fetched value => (s.install kind value, .ready s.objects.length)
| .ready i => (s, .ready i)

/- The list as it is after `persistList` has looked at it. -/
def persistList (s : TaskStore D) (list : TaskListEntry D) : TaskListEntry D :=
  let pruned : TaskListEntry D :=
    { list with
      tasks := list.tasks.map (fun task => { task with details := pruneTaskEvents task.details }) }
  if (s.persistCount + 1) % taskSoftDeleteGcInterval = 0 then pruned.compactDeletedTasksInPlace
  else pruned

/- The list that a job changes. An update of the runtime's store looks the list up again. -/
def target (s : TaskStore D) (i : Nat) : TaskJob D → Nat
| .createTask _ _ _ => i
| .updateTask _ _ _ =>
  match kind with
  | .session => i
  | .runtime => s.cached.getD i

def changeStep (s : TaskStore D) (job : TaskJob D) (i : Nat) : TaskStore D :=
  let j := s.target kind i job
  match job.apply kind (s.object i), job.apply kind (s.object j) with
  | some _, some (list, created) =>
    let snapshot := s.persistList pruneTaskEvents list
    { s with
      objects := s.objects.set j snapshot, persistCount := s.persistCount + 1
      active := some (job, .write snapshot created), deleted := job.deletes ++ s.deleted }
  | _, _ => { s with active := none }

def jobStep (s : TaskStore D) (job : TaskJob D) : JobPhase D → TaskStore D
| .load (.ready i) => s.changeStep kind pruneTaskEvents job i
| .load phase =>
  let next := s.loadStep kind phase
  { next.1 with active := some (job, .load next.2) }
| .write snapshot created =>
  { s with persisted := some snapshot, active := some (job, .written created) }
| .written created => { s with active := none, created := created.toList ++ s.created }

end TaskStore

def storeStep (s : TaskStore D) : StoreAction D → TaskStore D
| .submit job => { s with queue := s.queue ++ [job] }
| .enter =>
  match s.active, s.queue with
  | none, job :: rest => { s with active := some (job, .load s.ensureListLoaded), queue := rest }
  | _, _ => s
| .advance =>
  match s.active with
  | none => s
  | some (job, phase) => s.jobStep kind pruneTaskEvents job phase
| .listTasks => { s with readers := s.readers ++ [s.ensureListLoaded] }
| .resume i =>
  match s.readers[i]? with
  | none => s
  | some phase =>
    let next := s.loadStep kind phase
    { next.1 with readers := s.readers.set i next.2 }
| .restart =>
  { TaskStore.start with persisted := s.persisted, created := s.created, deleted := s.deleted }

/-
  Created tasks have different ids, the persisted list has them, and so has what `listTasks`
  returns, until they are deleted.
-/
def NoTaskLost (s : TaskStore D) (action : StoreAction D) : Prop := s.created.Nodup ∧
  (∀ id ∈ s.created, id ∉ s.deleted → id ∈ (coerceTaskListEntry kind s.persisted).visible) ∧
  ∀ i list, action = .resume i →
    s.readers[i]? = some (.ready list) → ∀ id ∈ s.created, id ∉ s.deleted → id ∈ s.list

/- A task of the job is read back as it is written. -/
def TaskJob.Readable : TaskJob D → Prop
| .createTask subject description _ => subject ≠ "" ∧ description ≠ ""
| .updateTask _ patch _ => patch.subject ≠ some "" ∧ patch.description ≠ some ""

/-
  Nothing is cached yet, or the value is the cached list and no job is about to change that list.
-/
def Fresh (s : TaskStore D) (value : Option (TaskListEntry D)) : Prop :=
  (∀ i ∈ s.cached, coerceTaskListEntry kind value = s.object i) ∧
  ∀ entry ∈ s.active, ∀ i, entry.2 ≠ .load (.ready i)

def InstallsFresh (s : TaskStore D) : StoreAction D → Prop
| .submit job => job.Readable
| .advance => ∀ entry ∈ s.active, ∀ value, entry.2 = .load (.fetched value) → Fresh kind s value
| .resume i => ∀ phase ∈ s.readers[i]?, ∀ value, phase = .fetched value → Fresh kind s value
| _ => True

end Stores

----------
-- Lists That Keep Tasks
----------

structure Keeps (kind : StoreKind) (due deleted : List Nat) (list : TaskListEntry D) : Prop where
  readable : ∀ task ∈ list.tasks, coerceStoredTask kind task = some task
  positive : 1 ≤ list.nextTaskId
  below : ∀ id ∈ due, id < list.nextTaskId
  shown : ∀ id ∈ due, id ∉ deleted → id ∈ list.visible

section Lists

variable {kind : StoreKind}
variable {due deleted : List Nat}
variable {list : TaskListEntry D}

theorem mem_visible {id : Nat} :
    id ∈ list.visible ↔ ∃ task ∈ list.tasks, task.status ≠ .deleted ∧ task.id = id := by
  simp [TaskListEntry.visible, and_assoc]

variable {task : StoredTask D}

theorem coerceStoredTask_eq : coerceStoredTask kind task = some task ↔
      task.subject ≠ "" ∧ task.description ≠ "" ∧ kind.allows task.status = true := by
  simp [coerceStoredTask]

variable (h : Keeps kind due deleted list)
include h

theorem Keeps.coerce : coerceTaskListEntry kind (some list) = list := by
  have hTasks : list.tasks.filterMap (coerceStoredTask kind) = list.tasks.filterMap some :=
    filterMap_congr h.readable
  unfold coerceTaskListEntry
  dsimp only
  rw [hTasks, filterMap_some, max_eq_left h.positive]

theorem Keeps.mono {due' deleted' : List Nat}
    (hDue : ∀ id ∈ due', id ∈ due) (hDeleted : ∀ id ∈ deleted, id ∈ deleted') :
    Keeps kind due' deleted' list where
  readable := h.readable
  positive := h.positive
  below id hMem := h.below id (hDue id hMem)
  shown id hMem hKept := h.shown id (hDue id hMem) (fun hGone => hKept (hDeleted id hGone))

/- Texts and statuses decide what is kept, not details. -/
theorem Keeps.persistList (s : TaskStore D)
    (pruneTaskEvents : D → D) : Keeps kind due deleted (s.persistList pruneTaskEvents list) := by
  have hPruned : Keeps kind due deleted
      { list with
        tasks := list.tasks.map (fun task =>
          { task with details := pruneTaskEvents task.details }) } := by
    refine ⟨?_, h.positive, h.below, ?_⟩
    · intro task hTask
      rcases List.mem_map.mp hTask with ⟨old, hOld, rfl⟩
      have hOld := coerceStoredTask_eq.mp (h.readable old hOld)
      exact coerceStoredTask_eq.mpr hOld
    · intro id hDue hKept
      rcases mem_visible.mp (h.shown id hDue hKept) with ⟨task, hTask, hBoth⟩
      exact mem_visible.mpr ⟨_, List.mem_map_of_mem hTask, hBoth⟩
  unfold TaskStore.persistList
  dsimp only
  split
  · refine ⟨?_, hPruned.positive, hPruned.below, ?_⟩
    · intro task hTask
      exact hPruned.readable task (List.mem_filter.mp hTask).1
    · intro id hDue hKept
      rcases mem_visible.mp (hPruned.shown id hDue hKept) with ⟨task, hTask, hStatus, hId⟩
      refine mem_visible.mpr ⟨task, ?_, hStatus, hId⟩
      exact List.mem_filter.mpr ⟨hTask, by simp [hStatus]⟩
  · exact hPruned

variable {taskId : Nat}
variable {patch : TaskUpdatePatch D}
variable {tasks : List (StoredTask D)}

omit h in
/- The tasks around the first of an id that is there stay. -/
theorem exists_updateFirst (patch : TaskUpdatePatch D)
    (hFind : tasks.find? (·.id = taskId) = some task) :
    ∃ front back, tasks = front ++ task :: back ∧ task.id = taskId ∧
      updateFirst taskId patch tasks = front ++ patch.apply task :: back := by
  induction tasks with
  | nil => cases hFind
  | cons first rest ih =>
    unfold updateFirst
    by_cases hFirst : first.id = taskId
    · rw [find?_cons_of_pos (by simpa using hFirst)] at hFind
      cases hFind
      exact ⟨[], rest, rfl, hFirst, if_pos hFirst⟩
    · rw [find?_cons_of_neg (by simpa using hFirst)] at hFind
      rcases ih hFind with ⟨front, back, rfl, hId, hUpdate⟩
      exact ⟨first :: front, back, rfl, hId, by rw [if_neg hFirst, hUpdate]; rfl⟩

omit h in
theorem getD_of_forall {α : Type} {P : α → Prop} {a : α} {value : Option α} (hDefault : P a)
    (hValue : ∀ b ∈ value, P b) : P (value.getD a) := by
  cases value with
  | none => exact hDefault
  | some b => exact hValue b rfl

theorem Keeps.createTask {subject description : String}
    (hSubject : subject ≠ "") (hDescription : description ≠ "") (details : D) :
    Keeps kind (list.nextTaskId :: due) deleted (list.createTask subject description details) := by
  refine ⟨?_, Nat.le_succ_of_le h.positive, ?_, ?_⟩
  · refine forall_mem_append.mpr ⟨h.readable, forall_mem_singleton.mpr ?_⟩
    exact coerceStoredTask_eq.mpr ⟨hSubject, hDescription, by cases kind <;> rfl⟩
  · intro id hId
    rcases List.mem_cons.mp hId with rfl | hDue
    · exact Nat.lt_succ_self _
    · exact Nat.lt_succ_of_lt (h.below id hDue)
  · intro id hId hKept
    rcases List.mem_cons.mp hId with rfl | hDue
    · exact mem_visible.mpr ⟨_, mem_append_right _ mem_cons_self, by simp, rfl⟩
    · rcases mem_visible.mp (h.shown id hDue hKept) with ⟨task, hTask, hBoth⟩
      exact mem_visible.mpr ⟨task, mem_append_left _ hTask, hBoth⟩

variable {list' : TaskListEntry D}

theorem Keeps.updateTask {expectedRevision : Option Nat}
    (hRead : (TaskJob.updateTask taskId patch expectedRevision).Readable)
    (hUpdate : list.updateTask kind taskId patch expectedRevision = some list') :
    Keeps kind due
      ((TaskJob.updateTask taskId patch expectedRevision).deletes ++ deleted) list' := by
  unfold TaskListEntry.updateTask at hUpdate
  split at hUpdate
  · cases hUpdate
  rename_i task hFind
  split at hUpdate
  · cases hUpdate
  rename_i hChecks
  cases hUpdate
  rcases exists_updateFirst patch hFind with ⟨front, back, hTasks, hHere, hUpdated⟩
  have hReadable := h.readable
  rw [hTasks, forall_mem_append, forall_mem_cons] at hReadable
  rcases hReadable with ⟨hFront, hTask, hBack⟩
  rw [hUpdated]
  refine ⟨forall_mem_append.mpr ⟨hFront, forall_mem_cons.mpr ⟨?_, hBack⟩⟩, h.positive, h.below, ?_⟩
  · rcases coerceStoredTask_eq.mp hTask with ⟨hSubject, hDescription, hStatus⟩
    refine coerceStoredTask_eq.mpr ⟨getD_of_forall (P := (· ≠ "")) hSubject ?_,
      getD_of_forall (P := (· ≠ "")) hDescription ?_,
      getD_of_forall (P := (kind.allows · = true)) hStatus ?_⟩
    · exact fun _ hNew hBlank => hRead.1 (hBlank ▸ hNew)
    · exact fun _ hNew hBlank => hRead.2 (hBlank ▸ hNew)
    · intro status hNew
      by_contra hNot
      exact hChecks (.inr (.inr (by simp [Option.mem_def.mp hNew, hNot])))
  · intro id hDue hKept
    have hOld := h.shown id hDue (fun hGone => hKept (mem_append_right _ hGone))
    rcases mem_visible.mp hOld with ⟨old, hMem, hStatus, hId⟩
    simp only [hTasks, mem_append, mem_cons] at hMem
    rcases hMem with hMem | rfl | hMem
    · exact mem_visible.mpr ⟨old, mem_append_left _ hMem, hStatus, hId⟩
    · refine mem_visible.mpr ⟨_, mem_append_right _ mem_cons_self, ?_, hId⟩
      refine getD_of_forall (P := (· ≠ TaskStatus.deleted)) hStatus ?_
      rintro _ hNew rfl
      rcases patch with ⟨_ | status, _, _, _⟩ <;> cases hNew
      exact hKept (mem_append_left _ (mem_singleton.mpr (hId.symm.trans hHere)))
    · exact mem_visible.mpr ⟨old, mem_append_right _ (mem_cons_of_mem _ hMem), hStatus, hId⟩

theorem Keeps.apply {job : TaskJob D} (hRead : job.Readable)
    {created : Option Nat}
    (hApply : job.apply kind list = some (list', created)) :
    Keeps kind (created.toList ++ due) (job.deletes ++ deleted) list' ∧
      ∀ id ∈ created.toList, id ∉ due := by
  cases job with
  | createTask subject description details =>
    cases hApply
    refine ⟨h.createTask hRead.1 hRead.2 details, ?_⟩
    intro id hId hDue
    rw [List.mem_singleton.mp hId] at hDue
    exact Nat.lt_irrefl _ (h.below _ hDue)
  | updateTask taskId patch expectedRevision =>
    rcases Option.map_eq_some_iff.mp hApply with ⟨updated, hUpdate, hPair⟩
    cases hPair
    exact ⟨h.updateTask hRead hUpdate, by simp⟩

end Lists

----------
-- Sound Stores
----------

/- A task that the job has made and not yet returned. -/
def JobPhase.pending : JobPhase D → List Nat
| .write _ created | .written created => created.toList
| .load _ => []

def TaskStore.due (s : TaskStore D) : List Nat := (s.active.elim [] (·.2.pending)) ++ s.created

theorem due_of_active {s : TaskStore D} {job : TaskJob D} {phase : JobPhase D}
    (hActive : s.active = some (job, phase)) : s.due = phase.pending ++ s.created := by
  unfold TaskStore.due
  rw [hActive]
  rfl

section Sound

variable (kind : StoreKind)

def PhaseSound (s : TaskStore D) : JobPhase D → Prop
| .load .loading => True
| .load (.fetched value) => s.cached = none → value = s.persisted
| .load (.ready i) => s.cached = some i
| .write snapshot _ => s.cached ≠ none ∧ Keeps kind s.due s.deleted snapshot
| .written _ => s.cached ≠ none ∧ Keeps kind s.due s.deleted (coerceTaskListEntry kind s.persisted)

structure StoreSound (s : TaskStore D) : Prop where
  queued : ∀ job ∈ s.queue, job.Readable
  nodup : s.due.Nodup
  persisted : Keeps kind s.created s.deleted (coerceTaskListEntry kind s.persisted)
  cached : ∀ i ∈ s.cached, i < s.objects.length ∧ Keeps kind s.due s.deleted (s.object i)
  readers : s.cached = none → ∀ phase ∈ s.readers, phase = .loading ∨ phase = .fetched s.persisted
  active : ∀ entry ∈ s.active, entry.1.Readable ∧ PhaseSound kind s entry.2

variable {kind}
variable {s : TaskStore D}
variable (h : StoreSound kind s)
include h

/- Before the list is loaded no job has made a task. -/
theorem StoreSound.due_eq (hCached : s.cached = none) : s.due = s.created := by
  unfold TaskStore.due
  cases hActive : s.active with
  | none => rfl
  | some entry =>
    have hPhase := (h.active entry hActive).2
    rcases entry with ⟨job, phase⟩
    cases phase with
    | load => rfl
    | write | written => exact absurd hCached hPhase.1

theorem StoreSound.install {value : Option (TaskListEntry D)}
    (hFresh : Fresh kind s value) (hValue : s.cached = none → value = s.persisted) :
    StoreSound kind (s.install kind value) where
  queued := h.queued
  nodup := h.nodup
  persisted := h.persisted
  cached := by
    intro i hI
    cases hI
    have hObject : (s.install kind value).object
        s.objects.length = coerceTaskListEntry kind value := by
      simp [TaskStore.object, TaskStore.install]
    refine ⟨by simp [TaskStore.install], ?_⟩
    rw [hObject]
    change Keeps kind s.due s.deleted _
    cases hCached : s.cached with
    | none =>
      rw [hValue hCached, h.due_eq hCached]
      exact h.persisted
    | some i =>
      rw [hFresh.1 i hCached]
      exact (h.cached i hCached).2
  readers := nofun
  active := by
    intro entry hEntry
    have hPhase := (h.active entry hEntry).2
    refine ⟨(h.active entry hEntry).1, ?_⟩
    rcases entry with ⟨job, phase⟩
    cases phase with
    | load phase => cases phase with
        | loading => trivial
        | fetched => exact nofun
        | ready i => exact absurd rfl (hFresh.2 _ hEntry i)
    | write | written => exact ⟨Option.some_ne_none _, hPhase.2⟩

/- A job takes the place of another, with the same tasks due. -/
theorem StoreSound.setActive {active : Option (TaskJob D × JobPhase D)}
    (hDue : s.due = TaskStore.due { s with active := active })
    (hActive : ∀ entry ∈ active, entry.1.Readable ∧
      PhaseSound kind { s with active := active } entry.2) :
    StoreSound kind { s with active := active } := by
  have hNodup := h.nodup
  have hCached := h.cached
  rw [hDue] at hNodup hCached
  exact ⟨h.queued, hNodup, h.persisted, hCached, h.readers, hActive⟩

/- A job that loads its list goes on. -/
theorem StoreSound.loads {job : TaskJob D} {phase next : LoadPhase D}
    (hActive : s.active = some (job, .load phase)) (hNext : PhaseSound kind s (.load next)) :
    StoreSound kind { s with active := some (job, .load next) } := by
  refine h.setActive (due_of_active hActive) ?_
  intro entry hEntry
  cases hEntry
  refine ⟨(h.active _ hActive).1, ?_⟩
  cases next with
  | loading => trivial
  | fetched | ready => exact hNext

variable (pruneTaskEvents : D → D)

theorem StoreSound.change {job : TaskJob D}
    {i : Nat} (hActive : s.active = some (job, .load (.ready i))) :
    StoreSound kind (s.changeStep kind pruneTaskEvents job i) := by
  rcases h.active _ hActive with ⟨hRead, hCached⟩
  change s.cached = some i at hCached
  have hDue : s.due = s.created := due_of_active hActive
  have hTarget : s.target kind i job = i := by
    cases job with
    | createTask => rfl
    | updateTask => cases kind <;> simp [TaskStore.target, hCached]
  rcases h.cached i hCached with ⟨hLength, hKeeps⟩
  unfold TaskStore.changeStep
  dsimp only
  rw [hTarget]
  cases hApply : job.apply kind (s.object i) with
  | none => exact h.setActive hDue nofun
  | some result =>
    rcases result with ⟨list, created⟩
    rcases hKeeps.apply hRead hApply with ⟨hNew, hFresh⟩
    have hSaved := hNew.persistList s pruneTaskEvents
    rw [hDue] at hSaved hFresh
    refine ⟨h.queued, ?_, ?_, ?_, ?_, ?_⟩
    · refine List.nodup_append.mpr ⟨?_, hDue ▸ h.nodup, ?_⟩
      · change created.toList.Nodup
        cases created <;> simp
      · rintro id hId _ hOld rfl
        exact hFresh id hId hOld
    · exact h.persisted.mono (fun _ => id) (fun _ => mem_append_right _)
    · intro j hJ
      rw [hCached] at hJ
      cases hJ
      refine ⟨by simpa using hLength, ?_⟩
      have hObject : (s.objects.set i (s.persistList pruneTaskEvents list))[i]? = some _ :=
        getElem?_set_self hLength
      unfold TaskStore.object
      rw [hObject]
      exact hSaved
    · exact fun hNone => absurd (hCached.symm.trans hNone) (Option.some_ne_none _)
    · intro entry hEntry
      cases hEntry
      exact ⟨hRead, hCached ▸ Option.some_ne_none _, hSaved⟩

theorem StoreSound.advance (hFresh : InstallsFresh kind s .advance) :
    StoreSound kind (storeStep kind pruneTaskEvents s .advance) := by
  unfold storeStep
  dsimp only
  split
  · exact h
  rename_i job phase hActive
  have hPhase := (h.active _ hActive).2
  unfold TaskStore.jobStep
  cases phase with
  | load phase => cases phase with
      | loading => exact h.loads hActive (fun _ => rfl)
      | fetched value => exact (h.install (hFresh _ hActive value rfl) hPhase).loads hActive rfl
      | ready i => exact h.change pruneTaskEvents hActive
  | write snapshot created =>
    have hSnapshot : Keeps kind s.due s.deleted (coerceTaskListEntry kind (some snapshot)) := by
      rw [hPhase.2.coerce]
      exact hPhase.2
    have hNodup := h.nodup
    have hCached := h.cached
    rw [due_of_active hActive] at hNodup hCached hSnapshot
    refine ⟨h.queued, hNodup, hSnapshot.mono (fun _ => mem_append_right _) (fun _ => id), hCached,
      fun hNone => absurd hNone hPhase.1, ?_⟩
    intro entry hEntry
    cases hEntry
    exact ⟨(h.active _ hActive).1, hPhase.1, hSnapshot⟩
  | written created =>
    have hNodup := h.nodup
    have hCached := h.cached
    have hPersisted := hPhase.2
    rw [due_of_active hActive] at hNodup hCached hPersisted
    exact ⟨h.queued, hNodup, hPersisted, hCached, h.readers, nofun⟩

theorem StoreSound.step {action : StoreAction D}
    (hFresh : InstallsFresh kind s action) :
    StoreSound kind (storeStep kind pruneTaskEvents s action) := by
  cases action with
  | submit job =>
    exact { h with
      queued := forall_mem_append.mpr ⟨h.queued, forall_mem_singleton.mpr hFresh⟩ }
  | enter =>
    unfold storeStep
    dsimp only
    split
    · rename_i job rest hActive hQueue
      have hQueued := h.queued
      rw [hQueue, forall_mem_cons] at hQueued
      have hDue : s.due = s.created := by rw [TaskStore.due, hActive]; rfl
      have hEntered :
          StoreSound kind { s with active := some (job, .load s.ensureListLoaded) } := by
        refine h.setActive hDue ?_
        intro entry hEntry
        cases hEntry
        refine ⟨hQueued.1, ?_⟩
        unfold TaskStore.ensureListLoaded
        split
        · assumption
        · trivial
      exact { hEntered with queued := hQueued.2 }
    · exact h
  | advance => exact h.advance pruneTaskEvents hFresh
  | listTasks =>
    refine { h with
      readers := fun hNone => forall_mem_append.mpr
        ⟨h.readers hNone, forall_mem_singleton.mpr (.inl ?_)⟩ }
    change s.cached = none at hNone
    rw [TaskStore.ensureListLoaded, hNone]
  | resume i =>
    unfold storeStep
    dsimp only
    split
    · exact h
    rename_i phase hGet
    have hMem := mem_of_getElem? hGet
    cases phase with
    | loading =>
      refine { h with readers := fun hNone other hSet => ?_ }
      exact (mem_or_eq_of_mem_set hSet).elim (h.readers hNone other) .inr
    | fetched value =>
      have hInstalled := h.install (hFresh _ hGet value rfl) (fun hNone => by
          simpa using h.readers hNone _ hMem)
      exact { hInstalled with readers := nofun }
    | ready list =>
      refine { h with readers := fun hNone other hSet => ?_ }
      exact h.readers hNone other ((mem_or_eq_of_mem_set hSet).elim id (fun hNew => hNew ▸ hMem))
  | restart =>
    exact ⟨nofun, (List.nodup_append.mp h.nodup).2.1, h.persisted,
      nofun, nofun,
      nofun⟩

theorem StoreSound.noTaskLost (action : StoreAction D) : NoTaskLost kind s action := by
  have hDue : ∀ id ∈ s.created, id ∈ s.due := fun _ => mem_append_right _
  refine ⟨(List.nodup_append.mp h.nodup).2.1, h.persisted.shown, ?_⟩
  intro i list _ hGet id hId hKept
  unfold TaskStore.list
  split
  · rename_i hNone
    simpa using h.readers hNone _ (mem_of_getElem? hGet)
  · rename_i j hCached
    exact (h.cached j hCached).2.shown id (hDue id hId) hKept

end Sound

/-
  In every run in which lists are installed fresh, no created task is lost, for both kinds of
  stores.
-/
theorem created_tasks_kept (kind : StoreKind) (pruneTaskEvents : D → D)
    {actions : List (StoreAction D)}
    (hFresh : AlongRun (storeStep kind pruneTaskEvents) (InstallsFresh kind) .start actions) :
    AlongRun (storeStep kind pruneTaskEvents) (NoTaskLost kind) .start actions := by
  have hStart : StoreSound kind (.start : TaskStore D) := by
    constructor <;> simp [TaskStore.start, TaskStore.due]
    exact ⟨by simp [coerceTaskListEntry, createEmptyTaskList], le_refl _, by simp, by simp⟩
  have hStep : ∀ s action, StoreSound kind s → InstallsFresh kind s action →
      NoTaskLost kind s action ∧ StoreSound kind (storeStep kind pruneTaskEvents s action) :=
    fun s action h hAction => ⟨h.noTaskLost action, h.step pruneTaskEvents hAction⟩
  exact AlongRun.of_invariant hStep hStart hFresh

/- A task is created, and the store is started again. -/
theorem task_kept_over_restart :
    AlongRun (storeStep .session id) (NoTaskLost .session) (.start : TaskStore Unit)
      [.submit (.createTask "a" "b" ()), .enter, .advance,
        .advance, .advance, .advance, .advance, .restart,
        .listTasks, .resume 0, .resume 0, .resume 0] := by
  refine created_tasks_kept .session id ?_
  simp [AlongRun, InstallsFresh, Fresh, storeStep, TaskStore.start, TaskStore.ensureListLoaded,
    TaskStore.jobStep, TaskStore.loadStep, TaskStore.install,
    TaskStore.changeStep, TaskStore.target, TaskJob.apply, TaskJob.Readable]

/- A reader puts back the list it read before the task. -/
theorem created_task_lost :
    let after (kind : StoreKind) := runSteps (storeStep kind id) (.start : TaskStore Unit)
      [.listTasks, .resume 0, .submit (.createTask "a" "b" ()), .enter, .advance,
        .advance, .advance, .advance, .advance, .resume 0, .listTasks]
    ¬ NoTaskLost .session (after .session) (.resume 1) ∧
      ¬ NoTaskLost .runtime (after .runtime) (.resume 1) := by
  intro after
  have hLost (kind : StoreKind) : ¬ NoTaskLost kind (after kind) (.resume 1) := by
    intro hKept
    have hRun : (after kind).readers[1]? = some (.ready 1) ∧ 1 ∈ (after kind).created ∧
        1 ∉ (after kind).deleted ∧ 1 ∉ (after kind).list := by
      cases kind <;> decide +kernel
    rcases hRun with ⟨hReady, hCreated, hKeep, hNot⟩
    exact hNot (hKept.2.2 1 1 rfl hReady 1 hCreated hKeep)
  exact ⟨hLost _, hLost _⟩

end AgencCore.Tools
