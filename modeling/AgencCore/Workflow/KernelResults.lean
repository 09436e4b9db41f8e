import AgencCore.Workflow.ExecutionKernel

/-
  What a planner graph returns.

  The fate of a step can be told without a schedule: a step with an unmet dependency is blocked, and
  any other one has the result that its node makes of the results of its dependencies. Whatever the
  room, the exclusive steps and the order of the completions, a run ends with these fates.
-/

namespace AgencCore.Workflow

open Foundations List

/- Nodes that complete, and read nothing but the results of their dependencies. -/
structure NodeBehaviour (needs : String → List String) where
  executeNode : String → (String → Option String) → String
  assessDependencySatisfaction : String → String → Bool
  reads : ∀ name results results', (∀ dependency ∈ needs name,
    results dependency = results' dependency) → executeNode name results = executeNode name results'

inductive StepFate where
  | blocked
  | completed (result : String)

section

variable {needs : String → List String} (node : NodeBehaviour needs)

def NodeBehaviour.met (name : String) : StepFate → Bool
| .blocked => false
| .completed result => node.assessDependencySatisfaction name result

inductive Settles : String → StepFate → Prop where
  | blocked {name dependency : String} {fate : StepFate} (hNeeds : dependency ∈ needs name)
      (hSettles : Settles dependency fate) (hUnmet : node.met dependency fate = false) :
      Settles name .blocked
  | completed {name : String} (results : String → String)
      (hSettles : ∀ dependency ∈ needs name, Settles dependency (.completed (results dependency)))
      (hMet : ∀ dependency ∈ needs name,
        node.met dependency (.completed (results dependency)) = true) :
      Settles name (.completed (node.executeNode name (fun other => some (results other))))

variable {node} {name : String} {fate fate' : StepFate}

theorem Settles.unique (hFate : Settles node name fate) (hFate' : Settles node name fate') :
    fate = fate' := by
  induction hFate generalizing fate' with
  | blocked hNeeds _ hUnmet ih =>
    cases hFate' with
    | blocked => rfl
    | completed results hSettles hMet =>
      rw [ih (hSettles _ hNeeds), hMet _ hNeeds] at hUnmet
      cases hUnmet
  | completed results _ hMet ih =>
    cases hFate' with
    | blocked hNeeds hSettles hUnmet =>
      rw [← ih _ hNeeds hSettles, hMet _ hNeeds] at hUnmet
      cases hUnmet
    | completed results' hSettles =>
      congr 1
      refine node.reads _ _ _ (fun dependency hNeeds => congrArg some ?_)
      exact StepFate.completed.inj (ih dependency hNeeds (hSettles dependency hNeeds))

end

----------
-- Results
----------

def buildDependencyBlockedResult (name : String) : String :=
  s!"Step \"{name}\" blocked by unsatisfied dependencies"

inductive PlannerStatus where
  | completed
  | failed
  | halted

/- A run that throws, or goes to the other executor, has no status here. -/
def KernelResult.status : KernelResult → Option PlannerStatus
| .completed => some .completed
| .halted => some .halted
| .deterministic => none
| .thrown => none
| _ => some .failed

/- The kernel, with what the nodes that completed have written. -/
structure PlannerExecution where
  kernel : KernelState
  written : List (String × String)

namespace PlannerExecution

/- A blocked step never completes, so that nothing is written over its text. -/
def results (s : PlannerExecution) (context : String → Option String) (name : String) :
    Option String :=
  if name ∈ s.kernel.blockedStepNames then some (buildDependencyBlockedResult name)
  else (s.written.lookup name).or (context name)

def executed (s : PlannerExecution) : List String := s.kernel.started.map Prod.fst

def completedSteps (s : PlannerExecution) : Nat := s.written.length

end PlannerExecution

structure SameOutcome (context : String → Option String) (s t : PlannerExecution) : Prop where
  executed : ∀ name, name ∈ s.executed ↔ name ∈ t.executed
  blocked : ∀ name, name ∈ s.kernel.blockedStepNames ↔ name ∈ t.kernel.blockedStepNames
  status : s.kernel.result.bind KernelResult.status = t.kernel.result.bind KernelResult.status
  completedSteps : s.completedSteps = t.completedSteps
  results : s.results context = t.results context

namespace PlannerRun

/- What is known of the steps in the middle of a run. -/
structure Agrees {needs : String → List String} (node : NodeBehaviour needs) (order : List String)
    (s : PlannerExecution) : Prop where
  known : s.executed ⊆ order
  executed : s.executed.Perm (s.kernel.running.map Prod.fst ++ s.written.map Prod.fst)
  made : ∀ entry ∈ s.written, Settles node entry.1 (.completed entry.2)
  blocked : ∀ name ∈ s.kernel.blockedStepNames, name ∈ order ∧ Settles node name .blocked
  satisfied : ∀ name ∈ s.kernel.satisfied,
    ∃ entry ∈ s.written, entry.1 = name ∧ node.met name (.completed entry.2) = true
  unsatisfied : ∀ name ∈ s.kernel.unsatisfied, name ∈ s.kernel.blockedStepNames ∨
    ∃ entry ∈ s.written, entry.1 = name ∧ node.met name (.completed entry.2) = false

/- In a run that has returned, the fates tell which steps were executed and blocked. -/
structure Returned {needs : String → List String} (node : NodeBehaviour needs)
    (order : List String) (s : PlannerExecution) : Prop extends Agrees node order s where
  once : s.executed.Nodup
  written : s.executed.Perm (s.written.map Prod.fst)
  placed : ∀ name ∈ order, name ∈ s.kernel.blockedStepNames ∨ name ∈ s.executed
  status : s.kernel.result.bind KernelResult.status =
    if s.kernel.blockedStepNames = [] then some .completed else some .failed

variable (run : PlannerRun) {needs : String → List String} (node : NodeBehaviour needs)
variable (context : String → Option String)

def deliver (s : PlannerExecution) (index : Nat) : PlannerExecution :=
  match s.kernel.result, s.kernel.running[index]? with
  | none, some (name, _) =>
    let result := node.executeNode name (s.results context)
    { kernel := run.step s.kernel
        ⟨index, .completed, node.assessDependencySatisfaction name result⟩
      written := (name, result) :: s.written }
  | _, _ => s

def execute (indexes : List Nat) : PlannerExecution :=
  runSteps (run.deliver node context) ⟨run.start, []⟩ indexes

def scheduledBy (isExclusiveNode : String → Bool) (maxParallelism : Option JsNumber) : PlannerRun :=
  { run with delegate := { run.delegate with
      isExclusiveNode := isExclusiveNode, maxParallelism := maxParallelism } }

/- A refused run stays as it is. -/
theorem execute_refuse {result : KernelResult} (hStart : run.start = .refuse result)
    (indexes : List Nat) : run.execute node context indexes = ⟨.refuse result, []⟩ := by
  unfold PlannerRun.execute
  rw [hStart]
  refine List.foldlRecOn (motive := (· = _)) indexes (run.deliver node context) rfl ?_
  rintro _ rfl index _
  rfl

variable {run context} {node : NodeBehaviour run.needs}
variable {order : List String} {s t : PlannerExecution} {name result : String}
variable (hAgrees : Agrees node order s)
include hAgrees

/- What was written for a step is found. -/
theorem Agrees.results_eq (hMem : (name, result) ∈ s.written) :
    s.results context name = some result := by
  have hSettles := hAgrees.made _ hMem
  have hFree : name ∉ s.kernel.blockedStepNames :=
    fun hBlocked => StepFate.noConfusion (hSettles.unique (hAgrees.blocked _ hBlocked).2)
  rw [PlannerExecution.results, if_neg hFree]
  cases hLookup : s.written.lookup name with
  | none =>
    have hNot := List.lookup_eq_none_iff.mp hLookup _ hMem
    exact absurd hNot (by simp)
  | some made =>
    rcases List.lookup_eq_some_iff.mp hLookup with ⟨before, after, hSplit, _⟩
    have hMade := hAgrees.made (name, made) (by simp [hSplit])
    exact congrArg some (StepFate.completed.inj (hMade.unique hSettles))

theorem Agrees.block (hOrder : name ∈ order)
    (hUnmet : ∃ dependency ∈ run.needs name, dependency ∈ s.kernel.unsatisfied) :
    Agrees node order { s with kernel := s.kernel.block name } := by
  rcases hUnmet with ⟨dependency, hNeeds, hUnmet⟩
  have hBlocked : Settles node name .blocked := by
    rcases hAgrees.unsatisfied dependency hUnmet with hBlocked | ⟨entry, hEntry, rfl, hNot⟩
    · exact .blocked hNeeds (hAgrees.blocked dependency hBlocked).2 rfl
    · exact .blocked hNeeds (hAgrees.made entry hEntry) hNot
  refine { hAgrees with blocked := ?_, unsatisfied := ?_ }
  · exact List.forall_mem_append.mpr
      ⟨hAgrees.blocked, List.forall_mem_singleton.mpr ⟨hOrder, hBlocked⟩⟩
  · refine List.forall_mem_cons.mpr ⟨.inl (mem_append_right _ mem_cons_self), ?_⟩
    exact fun other hOther =>
      (hAgrees.unsatisfied other hOther).imp_left (mem_append_left _)

theorem Agrees.begin (hOrder : name ∈ order)
    (exclusive : Bool) :
    Agrees node order { s with kernel := s.kernel.begin name exclusive } := by
  refine { hAgrees with known := ?_, executed := ?_ }
  · simp only [PlannerExecution.executed, KernelState.begin, map_append]
    exact List.append_subset.mpr ⟨hAgrees.known, List.cons_subset.mpr ⟨hOrder, nil_subset _⟩⟩
  · have hExecuted := hAgrees.executed
    simp only [PlannerExecution.executed, KernelState.begin, map_append] at hExecuted ⊢
    refine (hExecuted.append_right _).trans ?_
    rw [append_assoc, append_assoc]
    exact List.perm_append_comm.append_left _

theorem Agrees.schedule (exclusiveRunning : Bool)
    {rest : List String} (hRest : rest ⊆ order) :
    Agrees node order { s with kernel := run.schedule exclusiveRunning s.kernel rest } := by
  induction rest generalizing s with
  | nil => exact hAgrees
  | cons name rest ih =>
    rcases List.cons_subset.mp hRest with ⟨hOrder, hRest⟩
    unfold PlannerRun.schedule
    split_ifs with _ _ hUnmet
    · exact hAgrees
    · exact ih (hAgrees.block hOrder hUnmet) hRest
    · exact hAgrees
    · exact hAgrees.begin hOrder true
    · exact ih hAgrees hRest
    · exact ih (hAgrees.begin hOrder false) hRest
    · exact ih hAgrees hRest
    · exact ih hAgrees hRest

/- What a node makes of the results is its fate. -/
theorem Agrees.settles (hNeeds : run.needs name ⊆ s.kernel.satisfied) :
    Settles node name (.completed (node.executeNode name (s.results context))) := by
  have hEach : ∀ dependency ∈ run.needs name,
      Settles node dependency (.completed ((s.results context dependency).getD "")) ∧
        node.met dependency (.completed ((s.results context dependency).getD "")) = true ∧
        s.results context dependency = some ((s.results context dependency).getD "") := by
    intro dependency hNeed
    rcases hAgrees.satisfied dependency (hNeeds hNeed) with ⟨⟨_, made⟩, hEntry, rfl, hMet⟩
    rw [hAgrees.results_eq hEntry]
    exact ⟨hAgrees.made _ hEntry, hMet, rfl⟩
  rw [node.reads name (s.results context) _ (fun dependency hNeed => (hEach dependency hNeed).2.2)]
  exact .completed _ (fun dependency hNeed => (hEach dependency hNeed).1)
    (fun dependency hNeed => (hEach dependency hNeed).2.1)

/- A node is done, and what it has made is written. -/
theorem Agrees.finish {index : Nat} {exclusive : Bool}
    (hNode : s.kernel.running[index]? = some (name, exclusive))
    (hSettles : Settles node name (.completed result)) {satisfied unsatisfied : List String}
    (hSatisfied : ∀ other ∈ satisfied, other ∈ s.kernel.satisfied ∨
      name = other ∧ node.met other (.completed result) = true)
    (hUnsatisfied : ∀ other ∈ unsatisfied, other ∈ s.kernel.unsatisfied ∨
      name = other ∧ node.met other (.completed result) = false) :
    Agrees node order
      { kernel := { s.kernel with
          running := s.kernel.running.eraseIdx index
          satisfied := satisfied, unsatisfied := unsatisfied }
        written := (name, result) :: s.written } where
  known := hAgrees.known
  executed := by
    rcases List.getElem?_eq_some_iff.mp hNode with ⟨hBound, hAt⟩
    have hRunning := (getElem_cons_eraseIdx_perm hBound).map Prod.fst
    rw [hAt] at hRunning
    exact (hAgrees.executed.trans (hRunning.symm.append_right _)).trans List.perm_middle.symm
  made := List.forall_mem_cons.mpr ⟨hSettles, hAgrees.made⟩
  blocked := hAgrees.blocked
  satisfied := by
    intro other hOther
    rcases hSatisfied other hOther with hOld | ⟨hName, hMet⟩
    · exact (hAgrees.satisfied other hOld).imp fun _ => And.imp_left (mem_cons_of_mem _)
    · exact ⟨_, mem_cons_self, hName, hMet⟩
  unsatisfied := by
    intro other hOther
    rcases hUnsatisfied other hOther with hOld | ⟨hName, hMet⟩
    · exact (hAgrees.unsatisfied other hOld).imp_right
        (Exists.imp fun _ => And.imp_left (mem_cons_of_mem _))
    · exact .inr ⟨_, mem_cons_self, hName, hMet⟩

----------
-- Whole Runs
----------

/- A run of an accepted graph. -/
structure Follows (run : PlannerRun) (node : NodeBehaviour run.needs) (order : List String)
    (s : PlannerExecution) : Prop where
  safe : run.Safe order s.kernel
  agrees : Agrees node order s
  verdict : s.kernel.result = s.kernel.verdict
  runnable : s.kernel.result ≠ some .noRunnableNodes

theorem Agrees.pass (hSafe : run.Safe order s.kernel)
    (hOk : run.materializeDag = .ok order) :
    run.Follows node order { s with kernel := run.pass s.kernel order } where
  safe :=
    have hNext := hSafe.schedule (by simp) order
    { hNext with }
  agrees :=
    have hNext := hAgrees.schedule (s.kernel.running.any (·.2)) (List.Subset.refl order)
    { hNext with }
  verdict := rfl
  runnable := (hSafe.pass hOk).safely.runnable

omit hAgrees

theorem step_completed {s : KernelState} (hResult : s.result = none)
    (hOk : run.materializeDag = .ok order) {index : Nat} {exclusive : Bool}
    (hNode : s.running[index]? = some (name, exclusive)) (assessed : Bool) :
    run.step s ⟨index, .completed, assessed⟩ =
      if assessed then run.pass { s with
        running := s.running.eraseIdx index, satisfied := name :: s.satisfied } order
      else run.pass { s with
        running := s.running.eraseIdx index, unsatisfied := name :: s.unsatisfied } order := by
  unfold PlannerRun.step
  simp only [hResult, hOk, hNode]

theorem Follows.deliver (hFollows : run.Follows node order s)
    (hOk : run.materializeDag = .ok order) (index : Nat) :
    run.Follows node order (run.deliver node context s index) := by
  have hSafe := hFollows.safe
  unfold PlannerRun.deliver
  split
  · next name exclusive hResult hNode =>
    have hNeeds := (hSafe.current _ (mem_of_getElem? hNode)).1
    have hSettles : Settles node name (.completed (node.executeNode name (s.results context))) :=
      hFollows.agrees.settles hNeeds
    dsimp only
    rw [step_completed hResult hOk hNode]
    split
    · next hMet =>
      refine (hFollows.agrees.finish hNode hSettles ?_ (fun _ => .inl)).pass
        (hSafe.finish hNode (subset_cons_self _ _) (List.Subset.refl _) ?_
          (Or.inl mem_cons_self)) hOk
      · refine List.forall_mem_cons.mpr ⟨.inr ⟨rfl, hMet⟩, fun _ => .inl⟩
      · refine List.forall_mem_cons.mpr ⟨subset_cons_of_subset _ hNeeds, ?_⟩
        exact fun other hOther => subset_cons_of_subset _ (hSafe.closed other hOther)
    · next hMet =>
      refine (hFollows.agrees.finish hNode hSettles (fun _ => .inl) ?_).pass
        (hSafe.finish hNode (List.Subset.refl _) (subset_cons_self _ _) hSafe.closed
          (Or.inr mem_cons_self)) hOk
      exact List.forall_mem_cons.mpr ⟨.inr ⟨rfl, eq_false_of_ne_true hMet⟩, fun _ => .inl⟩
  · exact hFollows

theorem Follows.returned (hFollows : run.Follows node order s)
    (hReturned : s.kernel.result ≠ none) : Returned node order s := by
  have hAgrees := hFollows.agrees
  have hVerdict := hFollows.verdict
  have hRunnable := hFollows.runnable
  rw [hVerdict] at hRunnable hReturned
  have hEnd : s.kernel.running = [] ∧ s.kernel.pending = [] := by
    unfold KernelState.verdict at hRunnable hReturned
    split_ifs at hRunnable hReturned with hRunning hPending <;> simp_all
  have hWritten := hAgrees.executed
  rw [hEnd.1, map_nil, nil_append] at hWritten
  refine { hAgrees with
    once := hFollows.safe.once, written := hWritten, placed := ?_, status := ?_ }
  · intro name hName
    have hMade : (∃ entry ∈ s.written, entry.1 = name) → name ∈ s.executed :=
      fun ⟨entry, hEntry, hSame⟩ => hWritten.mem_iff.mpr (List.mem_map.mpr ⟨entry, hEntry, hSame⟩)
    have hPlace := hFollows.safe.placed name hName
    rw [hEnd.1, hEnd.2] at hPlace
    rcases hPlace with hNone | hNone | hMet | hUnmet
    · cases hNone
    · cases hNone
    · exact .inr (hMade ((hAgrees.satisfied name hMet).imp fun _ h => ⟨h.1, h.2.1⟩))
    · exact (hAgrees.unsatisfied name hUnmet).imp_right
        (fun hOther => hMade (hOther.imp fun _ h => ⟨h.1, h.2.1⟩))
  · rw [hVerdict, KernelState.verdict, hEnd.1, hEnd.2]
    by_cases hNone : s.kernel.blockedStepNames = [] <;> simp [hNone, KernelResult.status]

theorem Returned.exists_written (hReturned : Returned node order s) (hName : name ∈ s.executed) :
    ∃ result, (name, result) ∈ s.written ∧ Settles node name (.completed result) := by
  rcases List.mem_map.mp (hReturned.written.mem_iff.mp hName) with ⟨⟨_, result⟩, hEntry, rfl⟩
  exact ⟨result, hEntry, hReturned.made _ hEntry⟩

theorem Returned.subset (hLeft : Returned node order s) (hRight : Returned node order t) :
    s.executed ⊆ t.executed ∧ s.kernel.blockedStepNames ⊆ t.kernel.blockedStepNames := by
  constructor
  · intro name hName
    rcases hLeft.exists_written hName with ⟨result, _, hMade⟩
    refine (hRight.placed name (hLeft.known hName)).resolve_left (fun hBlocked => ?_)
    cases hMade.unique (hRight.blocked name hBlocked).2
  · intro name hName
    rcases hLeft.blocked name hName with ⟨hOrder, hBlocked⟩
    refine (hRight.placed name hOrder).resolve_right (fun hExecuted => ?_)
    rcases hRight.exists_written hExecuted with ⟨result, _, hMade⟩
    cases hMade.unique hBlocked

theorem Returned.sameOutcome (hLeft : Returned node order s)
    (hRight : Returned node order t) : SameOutcome context s t := by
  have hExecuted name : name ∈ s.executed ↔ name ∈ t.executed :=
    ⟨@(hLeft.subset hRight).1 name, @(hRight.subset hLeft).1 name⟩
  have hBlocked name : name ∈ s.kernel.blockedStepNames ↔ name ∈ t.kernel.blockedStepNames :=
    ⟨@(hLeft.subset hRight).2 name, @(hRight.subset hLeft).2 name⟩
  have hPerm : s.executed.Perm t.executed :=
    (perm_ext_iff_of_nodup hLeft.once hRight.once).mpr hExecuted
  refine ⟨hExecuted, hBlocked, ?_, ?_, ?_⟩
  · have hNil : s.kernel.blockedStepNames = [] ↔ t.kernel.blockedStepNames = [] := by
      simp only [eq_nil_iff_forall_not_mem, hBlocked]
    rw [hLeft.status, hRight.status]
    simp only [hNil]
  · have hLength := ((hLeft.written.symm.trans hPerm).trans hRight.written).length_eq
    rwa [length_map, length_map] at hLength
  · funext name
    by_cases hName : name ∈ s.executed
    · rcases hLeft.exists_written hName with ⟨result, hEntry, hMade⟩
      rcases hRight.exists_written ((hExecuted name).mp hName) with ⟨_, hEntry', hMade'⟩
      rw [hLeft.toAgrees.results_eq hEntry, hRight.toAgrees.results_eq hEntry',
        StepFate.completed.inj (hMade.unique hMade')]
    · have hNone {r : PlannerExecution} (hReturned : Returned node order r)
          (hName : name ∉ r.executed) : r.written.lookup name = none := by
        refine List.lookup_eq_none_iff.mpr (fun entry hEntry => ?_)
        rw [bne_iff_ne]
        rintro rfl
        exact hName (hReturned.written.mem_iff.mpr (List.mem_map_of_mem hEntry))
      rw [PlannerExecution.results, PlannerExecution.results, hNone hLeft hName,
        hNone hRight (mt (hExecuted name).mpr hName)]
      simp only [hBlocked]

/- The schedule has no say in what is accepted. -/
theorem materializeDag_scheduledBy (run : PlannerRun) (exclusive : String → Bool)
    (limit : Option JsNumber) :
    (run.scheduledBy exclusive limit).materializeDag = run.materializeDag := by
  have hVisit (order nodes : List String) :
      (run.scheduledBy exclusive limit).visitSteps order nodes = run.visitSteps order nodes := by
    induction nodes generalizing order with
    | nil => rfl
    | cons name rest ih =>
      simp only [visitSteps, ih]
      rfl
  unfold materializeDag
  rw [hVisit]
  rfl

/- Every schedule starts with a pass, or is refused in the same way. -/
theorem start_scheduledBy (run : PlannerRun) :
    (∃ order, run.materializeDag = .ok order ∧ ∀ exclusive limit,
      (run.scheduledBy exclusive limit).start =
        (run.scheduledBy exclusive limit).pass ⟨order, [], [], [], [], [], none⟩ order) ∨
      ∃ result, ∀ exclusive limit, (run.scheduledBy exclusive limit).start = .refuse result := by
  simp only [PlannerRun.start, materializeDag_scheduledBy]
  simp only [scheduledBy]
  by_cases hSteps : run.steps = []
  · exact .inr ⟨_, fun _ _ => if_pos hSteps⟩
  by_cases hFrom : 0 < run.startFrom
  · exact .inr ⟨_, fun _ _ => (if_neg hSteps).trans (if_pos hFrom)⟩
  · simp only [hSteps, hFrom, if_false]
    cases run.delegate.validationError with
    | some error => exact .inr ⟨_, fun _ _ => rfl⟩
    | none =>
      cases run.materializeDag with
      | error error => exact .inr ⟨_, fun _ _ => rfl⟩
      | ok order => exact .inl ⟨order, rfl, fun _ _ => rfl⟩

theorem Follows.execute (hOk : run.materializeDag = .ok order)
    (hStart : run.start = run.pass ⟨order, [], [], [], [], [], none⟩ order) (indexes : List Nat) :
    run.Follows node order (run.execute node context indexes) := by
  have hEmpty : Agrees node order ⟨⟨order, [], [], [], [], [], none⟩, []⟩ :=
    ⟨nil_subset _, .nil, forall_mem_nil _, forall_mem_nil _, forall_mem_nil _,
      forall_mem_nil _⟩
  have hFirst := hEmpty.pass (Safe.start run order) hOk
  rw [← hStart] at hFirst
  exact List.foldlRecOn indexes (run.deliver node context) hFirst
    (fun _ hFollows index _ => hFollows.deliver hOk index)

end PlannerRun

/- Any two schedules, once both runs have returned. -/
theorem planner_results_do_not_depend_on_the_schedule (run : PlannerRun)
    (node : NodeBehaviour run.needs) (context : String → Option String)
    (exclusive exclusive' : String → Bool) (limit limit' : Option JsNumber)
    (indexes indexes' : List Nat)
    (hReturned :
      ((run.scheduledBy exclusive limit).execute node context indexes).kernel.result ≠ none)
    (hReturned' :
      ((run.scheduledBy exclusive' limit').execute node context indexes').kernel.result ≠ none) :
    SameOutcome context ((run.scheduledBy exclusive limit).execute node context indexes)
      ((run.scheduledBy exclusive' limit').execute node context indexes') := by
  rcases run.start_scheduledBy with ⟨order, hOk, hStart⟩ | ⟨result, hStart⟩
  · have hReturns (exclusive : String → Bool) (limit : Option JsNumber) (indexes : List Nat) :
        (run.scheduledBy exclusive limit).Follows node order
          ((run.scheduledBy exclusive limit).execute node context indexes) :=
      .execute ((run.materializeDag_scheduledBy _ _).trans hOk) (hStart _ _) indexes
    have hLeft := (hReturns exclusive limit indexes).returned hReturned
    have hRight := (hReturns exclusive' limit' indexes').returned hReturned'
    exact PlannerRun.Returned.sameOutcome hLeft hRight
  · rw [PlannerRun.execute_refuse _ node context (hStart exclusive limit),
      PlannerRun.execute_refuse _ node context (hStart exclusive' limit')]
    exact ⟨fun _ => Iff.rfl, fun _ => Iff.rfl, rfl, rfl, rfl⟩

/- Two branches; the second step of the first one copies what it depends on. -/
def twoBranches : PlannerRun :=
  { steps := [⟨"a", []⟩, ⟨"b", ["a"]⟩, ⟨"c", []⟩], edges := [], startFrom := 0
    delegate := ⟨none, fun _ => false, none⟩ }

def copyingNodes : NodeBehaviour twoBranches.needs where
  executeNode name results := if name = "b" then (results "a").getD "" else name
  assessDependencySatisfaction name _ := name ≠ "c"
  reads name results results' hSame := by
    split
    · next hName =>
      subst hName
      rw [hSame "a" (by decide)]
    · rfl

theorem two_branches_end_alike : SameOutcome (fun _ => none)
      ((twoBranches.scheduledBy (fun _ => true) none).execute copyingNodes (fun _ => none) [0, 0, 0])
      ((twoBranches.scheduledBy (fun _ => false) (some 2)).execute copyingNodes (fun _ => none)
        [1, 0, 0]) :=
  planner_results_do_not_depend_on_the_schedule twoBranches copyingNodes _ _ _ _ _ _ _
    (by decide +kernel) (by decide +kernel)

----------
-- Settling
----------

/-
  An execution with the nodes in flight. When a node fails or halts, the nodes that are present are
  aborted and waited for; when one rejects, the execution settles at once. The results recorded and
  the steps counted are the local variables of the source.
-/
structure KernelRace where
  kernel : KernelState
  inFlight : List String
  present : List String
  aborted : List String
  finished : List String
  recorded : List String
  completedSteps : Nat
  settled : Bool

/- The names of the results in the returned context, and the number of steps. -/
structure PlannerAnswer where
  results : List String
  completedSteps : Nat

/- What a settled execution has returned: nothing, if it throws. -/
def KernelRace.returned (s : KernelRace) : Option PlannerAnswer :=
  if s.settled then
    (s.kernel.result.bind KernelResult.status).map (fun _ => ⟨s.recorded, s.completedSteps⟩)
  else none

namespace PlannerRun

variable (run : PlannerRun)

variable {run}

end PlannerRun

end AgencCore.Workflow
