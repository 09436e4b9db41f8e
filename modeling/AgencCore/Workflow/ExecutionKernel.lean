import AgencCore.Foundations.Numbers
import AgencCore.Foundations.Runs
import AgencCore.Foundations.TopologicalOrder

/-
  The execution kernel of planner graphs.

  The steps are put in an order that respects their dependencies. A pass over that order blocks the
  pending steps with an unmet dependency and starts those whose dependencies are all met, as far as
  there is room. After each completion there is another pass.
-/

namespace AgencCore.Workflow

open Foundations List

structure PlannerStep where
  name : String
  dependsOn : List String

structure PlannerEdge where
  source : String
  target : String

/- What the kernel asks the delegate before and while it schedules. -/
structure PlannerDelegate where
  validationError : Option String
  isExclusiveNode : String → Bool
  maxParallelism : Option JsNumber

structure PlannerRun where
  steps : List PlannerStep
  edges : List PlannerEdge
  startFrom : Nat
  delegate : PlannerDelegate

def duplicateName : List String → List String → Option String
| _, [] => none
| seen, name :: rest => if name ∈ seen then some name else duplicateName (name :: seen) rest

namespace PlannerRun

variable (run : PlannerRun)

def names : List String := run.steps.map (·.name)

/- The dependencies of a step; edges with an unknown end do not count. -/
def needs (name : String) : List String :=
  ((run.steps.find? (·.name = name)).map (·.dependsOn)).getD [] ++
    (run.edges.filter (fun edge =>
      edge.target = name ∧ edge.source ∈ run.names ∧ edge.target ∈ run.names)).map (·.source)

/- The first dependency that is not a step. -/
def unknownDependency : Option (String × String) :=
  run.names.findSome? (fun name => ((run.needs name).find? (· ∉ run.names)).map (name, ·))

def visitSteps : List String → List String → Except String (List String)
| order, [] => .ok order
| order, name :: rest =>
  match visit run.needs (run.steps.length + 1) [] order name with
  | none => .error s!"Planner DAG contains a cycle involving \"{name}\""
  | some order => visitSteps order rest

def materializeDag : Except String (List String) :=
  match duplicateName [] run.names with
  | some name => .error s!"Planner DAG has duplicate step name \"{name}\""
  | none =>
    match run.unknownDependency with
    | some (name, dependency) =>
      .error s!"Planner DAG step \"{name}\" depends on unknown step \"{dependency}\""
    | none => run.visitSteps [] run.names

def DependsOn (name dependency : String) : Prop := dependency ∈ run.needs name

def Cyclic : Prop := ∃ name ∈ run.names, Relation.TransGen run.DependsOn name name

def Dangling : Prop := ∃ name ∈ run.names, ∃ dependency ∈ run.needs name, dependency ∉ run.names

variable {run}

theorem visitSteps_ordered {order order' nodes : List String}
    (hOrdered : Ordered run.needs [] order) (hVisit : run.visitSteps order nodes = .ok order') :
    Ordered run.needs [] order' ∧ order ⊆ order' ∧ nodes ⊆ order' := by
  induction nodes generalizing order with
  | nil =>
    cases hVisit
    exact ⟨hOrdered, List.Subset.refl _, nil_subset _⟩
  | cons name rest ih =>
    rw [visitSteps] at hVisit
    split at hVisit
    · cases hVisit
    · next middle hFirst =>
      rcases visit_ordered _ _ hOrdered hFirst with ⟨hMiddle, hKept, hName⟩
      rcases ih hMiddle hVisit with ⟨hLast, hKept', hRest⟩
      exact ⟨hLast, List.Subset.trans hKept hKept', List.cons_subset.mpr ⟨hKept' hName, hRest⟩⟩

/- An accepted graph is in order, and neither cyclic nor dangling. -/
theorem materializeDag_ok {order : List String} (hOk : run.materializeDag = .ok order) :
    Ordered run.needs [] order ∧ run.names ⊆ order ∧ ¬ run.Cyclic ∧ ¬ run.Dangling := by
  unfold materializeDag at hOk
  split at hOk
  · cases hOk
  · split at hOk
    · cases hOk
    · next hKnown =>
      have hStart : Ordered run.needs [] [] := trivial
      rcases visitSteps_ordered hStart hOk with ⟨hOrdered, _, hAll⟩
      refine ⟨hOrdered, hAll, ?_, ?_⟩
      · rintro ⟨name, hName, hCycle⟩
        exact hOrdered.acyclic (hAll hName) (Relation.transGen_swap.mp hCycle)
      · rintro ⟨name, hName, dependency, hNeeds, hUnknown⟩
        have hNone := List.findSome?_eq_none_iff.mp hKnown name hName
        rw [Option.map_eq_none_iff, find?_eq_none] at hNone
        exact hNone dependency hNeeds (decide_eq_true hUnknown)

end PlannerRun

----------
-- Scheduling
----------

/- How an execution ends. -/
inductive KernelResult where
  | deterministic
  | invalid (error : String)
  | noRunnableNodes
  | completed
  | blocked (names : List String)
  | failed
  | halted
  | thrown
deriving DecidableEq

/-
  The sets of the kernel. The running steps come with their exclusivity, and the started ones with
  what was satisfied at their start.
-/
structure KernelState where
  pending : List String
  running : List (String × Bool)
  satisfied : List String
  unsatisfied : List String
  blockedStepNames : List String
  started : List (String × List String)
  result : Option KernelResult

/- How a node ends; a failed one may be recovered by its fallback. -/
inductive NodeOutcome where
  | completed
  | recovered
  | failed
  | halted
  | thrown
deriving DecidableEq

/- The completion of a running node, and what the delegate thinks of its result. -/
structure KernelAction where
  index : Nat
  outcome : NodeOutcome
  assessed : Bool

namespace KernelState

def remove (s : KernelState) (name : String) : List String := s.pending.filter (· ≠ name)

def block (s : KernelState) (name : String) : KernelState :=
  { s with pending := s.remove name, unsatisfied := name :: s.unsatisfied
           blockedStepNames := s.blockedStepNames ++ [name] }

def begin (s : KernelState) (name : String) (exclusive : Bool) : KernelState :=
  { s with pending := s.remove name, running := s.running ++ [(name, exclusive)]
           started := s.started ++ [(name, s.satisfied)] }

/- The result after a pass; while something runs there is none. -/
def verdict (s : KernelState) : Option KernelResult :=
  if s.running ≠ [] then none
  else if s.pending ≠ [] then some .noRunnableNodes
  else if s.blockedStepNames ≠ [] then some (.blocked s.blockedStepNames)
  else some .completed

def refuse (result : KernelResult) : KernelState := ⟨[], [], [], [], [], [], some result⟩

end KernelState

namespace PlannerRun

variable (run : PlannerRun)

def maxParallel : JsNumber := JsNumber.max 1 (run.delegate.maxParallelism.getD 1)

def schedule (exclusiveRunning : Bool) : KernelState → List String → KernelState
| s, [] => s
| s, name :: rest =>
  if name ∉ s.pending then schedule exclusiveRunning s rest
  else if run.maxParallel.le (.ofInt s.running.length) then s
  else if ∃ dependency ∈ run.needs name, dependency ∈ s.unsatisfied then
    schedule exclusiveRunning (s.block name) rest
  else if ¬ run.needs name ⊆ s.satisfied then schedule exclusiveRunning s rest
  else if exclusiveRunning then s
  else if run.delegate.isExclusiveNode name then
    if s.running = [] then s.begin name true else schedule exclusiveRunning s rest
  else schedule exclusiveRunning (s.begin name false) rest

def pass (s : KernelState) (order : List String) : KernelState :=
  let s := run.schedule (s.running.any (·.2)) s order
  { s with result := s.verdict }

def start : KernelState :=
  if run.steps = [] then .refuse .deterministic
  else if 0 < run.startFrom then
    .refuse (.invalid
      "Execution kernel does not support DAG resume offsets yet (startFrom > 0)")
  else
    match run.delegate.validationError with
    | some error => .refuse (.invalid error)
    | none =>
      match run.materializeDag with
      | .error error => .refuse (.invalid error)
      | .ok order => run.pass ⟨order, [], [], [], [], [], none⟩ order

def step (s : KernelState) (action : KernelAction) : KernelState :=
  match s.result, run.materializeDag, s.running[action.index]? with
  | none, .ok order, some (name, _) =>
    let others := s.running.eraseIdx action.index
    match action.outcome with
    | .failed => { s with running := [], result := some .failed }
    | .halted => { s with running := [], result := some .halted }
    | .thrown => { s with result := some .thrown }
    | _ =>
      if action.assessed then
        run.pass { s with running := others, satisfied := name :: s.satisfied } order
      else run.pass { s with running := others, unsatisfied := name :: s.unsatisfied } order
  | _, _, _ => s

/-
  A step is started once at most and after everything it depends on was satisfied, there is room for
  what runs, an exclusive step runs alone, and a bad graph starts nothing.
-/
structure ScheduledSafely (s : KernelState) : Prop where
  once : (s.started.map Prod.fst).Nodup
  ready : ∀ entry ∈ s.started, ∀ dependency,
    Relation.TransGen run.DependsOn entry.1 dependency → dependency ∈ entry.2
  room : ∀ others, s.running.length = others + 1 → run.maxParallel.le (.ofInt others) = false
  alone : (∃ node ∈ s.running, run.delegate.isExclusiveNode node.1 = true) → s.running.length = 1
  refused : run.Cyclic ∨ run.Dangling → s.started = []
  runnable : s.result ≠ some .noRunnableNodes

----------
-- Passes
----------

/- What passes and completions preserve. -/
structure Safe (order : List String) (s : KernelState) : Prop where
  once : (s.started.map Prod.fst).Nodup
  fresh : ∀ name ∈ s.pending, name ∉ s.started.map Prod.fst
  ready : ∀ entry ∈ s.started, ∀ dependency,
    Relation.TransGen run.DependsOn entry.1 dependency → dependency ∈ entry.2
  closed : ∀ name ∈ s.satisfied, run.needs name ⊆ s.satisfied
  current : ∀ node ∈ s.running,
    run.needs node.1 ⊆ s.satisfied ∧ node.2 = run.delegate.isExclusiveNode node.1
  room : ∀ others, s.running.length = others + 1 → run.maxParallel.le (.ofInt others) = false
  alone : (∃ node ∈ s.running, node.2 = true) → s.running.length = 1
  known : s.pending ⊆ order
  placed : ∀ name ∈ order, name ∈ s.pending ∨ name ∈ s.running.map Prod.fst ∨
    name ∈ s.satisfied ∨ name ∈ s.unsatisfied

variable {run}
variable {order : List String} {s : KernelState} {name : String}

theorem mem_remove {other : String} : other ∈ s.remove name ↔ other ∈ s.pending ∧ other ≠ name := by
  simp [KernelState.remove]

variable (hSafe : run.Safe order s)
include hSafe

theorem Safe.block (name : String) : run.Safe order (s.block name) :=
  { hSafe with
    fresh := fun other hMem => hSafe.fresh other (mem_remove.mp hMem).1
    known := fun other hMem => hSafe.known (mem_remove.mp hMem).1
    placed := by
      intro other hOther
      have hPlace := hSafe.placed other hOther
      simp only [KernelState.block, mem_remove, mem_cons]
      tauto }

/- What a satisfied set that is closed holds of a step it is ready for. -/
theorem Safe.mem_of_dependsOn (hNeeds : run.needs name ⊆ s.satisfied)
    {dependency : String} (hDepends : Relation.TransGen run.DependsOn name dependency) :
    dependency ∈ s.satisfied := by
  induction hDepends with
  | single hDirect => exact hNeeds hDirect
  | tail _ hDirect ih => exact hSafe.closed _ ih hDirect

theorem Safe.begin (hPending : name ∈ s.pending)
    (hRoom : run.maxParallel.le (.ofInt s.running.length) = false)
    (hNeeds : run.needs name ⊆ s.satisfied)
    (hAlone : run.delegate.isExclusiveNode name = true → s.running = [])
    (hOthers : ∀ node ∈ s.running, node.2 = false) :
    run.Safe order (s.begin name (run.delegate.isExclusiveNode name)) where
  once := by
    simpa [KernelState.begin] using hSafe.once.concat (hSafe.fresh name hPending)
  fresh := by
    intro other hMem
    rcases mem_remove.mp hMem with ⟨hOld, hNe⟩
    simp only [KernelState.begin, map_append, mem_append, not_or]
    exact ⟨hSafe.fresh other hOld, fun hSame => hNe (List.mem_singleton.mp hSame)⟩
  ready := by
    intro entry hEntry dependency hDepends
    rcases List.mem_append.mp hEntry with hOld | hNew
    · exact hSafe.ready entry hOld dependency hDepends
    · rw [List.mem_singleton.mp hNew] at hDepends ⊢
      exact hSafe.mem_of_dependsOn hNeeds hDepends
  closed := hSafe.closed
  current := by
    exact List.forall_mem_append.mpr ⟨hSafe.current, List.forall_mem_singleton.mpr ⟨hNeeds, rfl⟩⟩
  room := by
    intro others hLength
    simp only [KernelState.begin, length_append, length_singleton] at hLength
    rw [← Nat.succ_injective hLength]
    exact hRoom
  alone := by
    rintro ⟨node, hNode, hExclusive⟩
    rcases List.mem_append.mp hNode with hOld | hNew
    · rw [hOthers node hOld] at hExclusive
      cases hExclusive
    · rw [List.mem_singleton.mp hNew] at hExclusive
      simp [KernelState.begin, hAlone hExclusive]
  known := fun other hMem => hSafe.known (mem_remove.mp hMem).1
  placed := by
    intro other hOther
    have hPlace := hSafe.placed other hOther
    simp only [KernelState.begin, mem_remove, map_append, mem_append, map_singleton,
      mem_singleton]
    tauto

theorem Safe.schedule {exclusiveRunning : Bool}
    (hOthers : exclusiveRunning = false → ∀ node ∈ s.running, node.2 = false)
    (rest : List String) : run.Safe order (run.schedule exclusiveRunning s rest) := by
  induction rest generalizing s with
  | nil => exact hSafe
  | cons name rest ih =>
    unfold PlannerRun.schedule
    split_ifs with hPending hFull hBlocked hNeeds hRunning hExclusive hNone
    · exact hSafe
    · exact ih (hSafe.block name) hOthers
    · exact hSafe
    · have hBegin := hSafe.begin hPending (eq_false_of_ne_true hFull) hNeeds (fun _ => hNone)
        (hOthers (eq_false_of_ne_true hRunning))
      rwa [hExclusive] at hBegin
    · exact ih hSafe hOthers
    · have hBegin := hSafe.begin hPending (eq_false_of_ne_true hFull) hNeeds
        (fun h => absurd h hExclusive) (hOthers (eq_false_of_ne_true hRunning))
      rw [eq_false_of_ne_true hExclusive] at hBegin
      refine ih hBegin ?_
      intro hOff node hNode
      rcases List.mem_append.mp hNode with hOld | hNew
      · exact hOthers hOff node hOld
      · rw [List.mem_singleton.mp hNew]
    · exact ih hSafe hOthers
    · exact ih hSafe hOthers

omit hSafe in
/- A pass keeps what runs. -/
theorem schedule_running (exclusiveRunning : Bool) (s : KernelState) (rest : List String) :
    s.running ⊆ (run.schedule exclusiveRunning s rest).running := by
  induction rest generalizing s with
  | nil => exact List.Subset.refl _
  | cons name rest ih =>
    unfold schedule
    split_ifs
    · exact List.Subset.refl _
    · exact ih (s.block name)
    · exact List.Subset.refl _
    · exact subset_append_left _ _
    · exact ih s
    · exact List.Subset.trans (subset_append_left _ _) (ih (s.begin name false))
    · exact ih s
    · exact ih s

omit hSafe in
theorem maxParallel_pos (run : PlannerRun) : run.maxParallel.le (.ofInt 0) = false := by
  unfold maxParallel JsNumber.max
  generalize run.delegate.maxParallelism.getD 1 = most
  split_ifs with hNan hLess
  · rfl
  · have hPos : JsNumber.lt (.ofInt 0) most = true := JsNumber.lt_trans (by decide +kernel) hLess
    cases most with
    | nan | posInf => rfl
    | negInf => cases hPos
    | finite q =>
      change (!JsNumber.lt (.ofInt 0) (.finite q)) = false
      rw [hPos]
      rfl
  · exact JsNumber.le_ofInt 1 0

/- A pass that starts nothing leaves nothing pending behind it. -/
theorem Safe.pending_schedule {done rest : List String}
    (hOrdered : Ordered run.needs done rest)
    (hDone : ∀ name ∈ done, name ∈ s.satisfied ∨ name ∈ s.unsatisfied)
    (hOrder : ∀ name ∈ s.pending, name ∈ rest) (hRest : rest ⊆ order)
    (hEmpty : (run.schedule false s rest).running = []) :
    (run.schedule false s rest).pending = [] := by
  have hNone : s.running = [] := eq_nil_of_subset_nil (hEmpty ▸ schedule_running false s rest)
  induction rest generalizing s done with
  | nil => exact List.eq_nil_iff_forall_not_mem.mpr (fun name hMem => nomatch hOrder name hMem)
  | cons name rest ih =>
    rcases List.cons_subset.mp hRest with ⟨hName, hRest⟩
    unfold PlannerRun.schedule at hEmpty ⊢
    split_ifs at hEmpty ⊢ with hPending hFull hBlocked hNeeds hRunning hExclusive
    · rw [hNone, length_nil] at hFull
      exact absurd ((maxParallel_pos run).symm.trans hFull) Bool.false_ne_true
    · refine ih (hSafe.block name) hOrdered.2
        (List.forall_mem_cons.mpr ⟨Or.inr mem_cons_self, ?_⟩) ?_ hRest hEmpty hNone
      · exact fun other hOther => (hDone other hOther).imp_right (mem_cons_of_mem _)
      · intro other hOther
        rcases mem_remove.mp hOther with ⟨hOld, hNe⟩
        exact (List.mem_cons.mp (hOrder other hOld)).resolve_left hNe
    · cases hRunning
    · simp [KernelState.begin] at hEmpty
    · have hKept := @schedule_running run false (s.begin name false) rest
      rw [hEmpty] at hKept
      simp [KernelState.begin] at hKept
    · refine absurd ?_ hNeeds
      intro dependency hNeed
      exact (hDone dependency (hOrdered.1 dependency hNeed)).resolve_right
        (fun hUnmet => hBlocked ⟨dependency, hNeed, hUnmet⟩)
    · refine ih hSafe hOrdered.2 (List.forall_mem_cons.mpr ⟨?_, hDone⟩) ?_ hRest hEmpty hNone
      · have hPlace := hSafe.placed name hName
        rw [hNone] at hPlace
        simpa [hPending] using hPlace
      · intro other hOther
        rcases List.mem_cons.mp (hOrder other hOther) with rfl | hMem
        · exact absurd hOther hPending
        · exact hMem

----------
-- Whole Runs
----------

omit hSafe in
theorem Safe.start (run : PlannerRun) (order : List String) :
    run.Safe order ⟨order, [], [], [], [], [], none⟩ where
  once := nodup_nil
  fresh := fun _ _ => not_mem_nil
  ready := forall_mem_nil _
  closed := forall_mem_nil _
  current := forall_mem_nil _
  room := nofun
  alone := nofun
  known := List.Subset.refl _
  placed := fun _ hMem => Or.inl hMem

/- A node is done, and met or not. -/
theorem Safe.finish {index : Nat} {exclusive : Bool}
    (hNode : s.running[index]? = some (name, exclusive)) {satisfied unsatisfied : List String}
    (hMore : s.satisfied ⊆ satisfied) (hMore' : s.unsatisfied ⊆ unsatisfied)
    (hClosed : ∀ name ∈ satisfied, run.needs name ⊆ satisfied)
    (hName : name ∈ satisfied ∨ name ∈ unsatisfied) :
    run.Safe order { s with
      running := s.running.eraseIdx index, satisfied := satisfied, unsatisfied := unsatisfied } where
  once := hSafe.once
  fresh := hSafe.fresh
  ready := hSafe.ready
  closed := hClosed
  current := by
    intro node hMem
    rcases hSafe.current node (mem_of_mem_eraseIdx hMem) with ⟨hNeeds, hFlag⟩
    exact ⟨List.Subset.trans hNeeds hMore, hFlag⟩
  room := by
    intro others hLength
    have hBound := (List.getElem?_eq_some_iff.mp hNode).1
    rw [length_eraseIdx_of_lt hBound] at hLength
    have hBefore := hSafe.room (others + 1) (by omega)
    by_contra hLe
    have hNext : JsNumber.le (.ofInt others) (.ofInt (others + 1 : Nat)) = true := by simp
    rw [JsNumber.le_trans (Bool.of_not_eq_false hLe) hNext] at hBefore
    cases hBefore
  alone := by
    rintro ⟨node, hMem, hExclusive⟩
    have hOne := hSafe.alone ⟨node, mem_of_mem_eraseIdx hMem, hExclusive⟩
    have hBound := (List.getElem?_eq_some_iff.mp hNode).1
    have hNone := length_eraseIdx_of_lt hBound
    rw [hOne] at hNone
    rw [eq_nil_of_length_eq_zero hNone] at hMem
    cases hMem
  known := hSafe.known
  placed := by
    intro other hOther
    rcases hSafe.placed other hOther with hPending | hRunning | hSatisfied | hUnmet
    · exact Or.inl hPending
    · rcases List.mem_map.mp hRunning with ⟨node, hMem, rfl⟩
      rcases mem_iff_getElem?.mp hMem with ⟨place, hPlace⟩
      by_cases hSame : place = index
      · rw [hSame, hNode] at hPlace
        cases hPlace
        exact Or.inr (Or.inr hName)
      · refine Or.inr (Or.inl (List.mem_map_of_mem ?_))
        exact mem_eraseIdx_iff_getElem?.mpr ⟨place, hSame, hPlace⟩
    · exact Or.inr (Or.inr (Or.inl (hMore hSatisfied)))
    · exact Or.inr (Or.inr (Or.inr (hMore' hUnmet)))

/- A run is safe, and goes on with a safe state of an accepted graph. -/
structure Sound (run : PlannerRun) (s : KernelState) : Prop where
  safely : run.ScheduledSafely s
  goesOn : s.result = none → ∃ order, run.materializeDag = .ok order ∧ run.Safe order s

theorem Safe.sound (hOk : run.materializeDag = .ok order)
    (hResult : s.result ≠ some .noRunnableNodes) : run.Sound s := by
  rcases materializeDag_ok hOk with ⟨_, _, hAcyclic, hKnown⟩
  refine ⟨⟨hSafe.once, hSafe.ready, hSafe.room, ?_, ?_, hResult⟩, fun _ => ⟨order, hOk, hSafe⟩⟩
  · rintro ⟨node, hNode, hExclusive⟩
    exact hSafe.alone ⟨node, hNode, (hSafe.current node hNode).2.trans hExclusive⟩
  · rintro (hCyclic | hDangling)
    · exact absurd hCyclic hAcyclic
    · exact absurd hDangling hKnown

theorem Safe.pass (hOk : run.materializeDag = .ok order) : run.Sound (run.pass s order) := by
  have hNext : run.Safe order (run.schedule (s.running.any (·.2)) s order) :=
    hSafe.schedule (by simp) order
  refine Safe.sound { hNext with } hOk ?_
  intro hStuck
  change (run.schedule (s.running.any (·.2)) s order).verdict = _ at hStuck
  unfold KernelState.verdict at hStuck
  split_ifs at hStuck with hRunning hPending
  · have hEmpty := not_not.mp hRunning
    have hNone :=
      eq_nil_of_subset_nil (hEmpty ▸ schedule_running (s.running.any (·.2)) s order)
    rw [hNone] at hPending hEmpty
    exact hPending (hSafe.pending_schedule (materializeDag_ok hOk).1 (forall_mem_nil _)
      (fun _ hMem => hSafe.known hMem) (List.Subset.refl _) hEmpty)
  · cases hStuck
  · cases hStuck

omit hSafe

theorem Sound.start (run : PlannerRun) : run.Sound run.start := by
  have hRefuse (result : KernelResult) (hResult : result ≠ .noRunnableNodes) :
      run.Sound (.refuse result) :=
    ⟨⟨nodup_nil, forall_mem_nil _, nofun, nofun, fun _ => rfl,
      fun hSame => hResult (Option.some.inj hSame)⟩, nofun⟩
  unfold PlannerRun.start
  split_ifs
  · exact hRefuse _ nofun
  · exact hRefuse _ nofun
  · cases run.delegate.validationError with
    | some error => exact hRefuse _ nofun
    | none =>
      cases hOk : run.materializeDag with
      | error error => exact hRefuse _ nofun
      | ok order => exact (Safe.start run order).pass hOk

theorem Sound.step (hSound : run.Sound s) (action : KernelAction) :
    run.Sound (run.step s action) := by
  unfold PlannerRun.step
  split
  · next order name exclusive hResult hOk hNode =>
    rcases hSound.goesOn hResult with ⟨_, hOk', hSafe⟩
    cases hOk.symm.trans hOk'
    have hSafely := hSound.safely
    have hCurrent := (hSafe.current _ (mem_of_getElem? hNode)).1
    dsimp only
    split
    · exact ⟨⟨hSafely.once, hSafely.ready, nofun, nofun, hSafely.refused, nofun⟩, nofun⟩
    · exact ⟨⟨hSafely.once, hSafely.ready, nofun, nofun, hSafely.refused, nofun⟩, nofun⟩
    · exact ⟨{ hSafely with runnable := nofun }, nofun⟩
    · split
      · refine (hSafe.finish hNode (subset_cons_self _ _) (List.Subset.refl _) ?_
          (Or.inl mem_cons_self)).pass hOk
        refine List.forall_mem_cons.mpr ⟨subset_cons_of_subset _ hCurrent, ?_⟩
        exact fun other hOther => subset_cons_of_subset _ (hSafe.closed other hOther)
      · exact (hSafe.finish hNode (List.Subset.refl _) (subset_cons_self _ _) hSafe.closed
          (Or.inr mem_cons_self)).pass hOk
  · exact hSound

end PlannerRun

/- Whatever the graph, the delegate and the completions. -/
theorem planner_dags_scheduled_safely (run : PlannerRun) (actions : List KernelAction) :
    run.ScheduledSafely (runSteps run.step run.start actions) :=
  (List.foldlRecOn actions run.step (PlannerRun.Sound.start run)
    (fun _ hSound action _ => hSound.step action)).safely

/- With one and a half slots, two steps are in flight. -/
theorem one_and_a_half_slots :
    let run : PlannerRun :=
      { steps := [⟨"a", []⟩, ⟨"b", []⟩], edges := [], startFrom := 0
        delegate := ⟨none, fun _ => false, some (.finite (3 / 2))⟩ }
    run.start.running.length = 2 ∧ JsNumber.le (.ofInt 2) run.maxParallel = false := by
  decide +kernel

end AgencCore.Workflow
