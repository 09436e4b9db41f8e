import AgencCore.Foundations.Worklist
import AgencCore.Team.Engine

/-
  The two propagation algorithms keep checkpoints settled.

  A map of checkpoints is settled when completed checkpoints have completed dependencies, the
  blocked ones are the open ones with a failed or blocked dependency, and the ready ones are the
  other open ones whose dependencies are all completed. Completing a checkpoint and sweeping, or
  failing one and walking its dependents, leads from a settled map to a settled map.

  Main declarations:
  * `refreshCheckpointReadiness_stable`
  * `settled_refresh`
  * `sound_complete`
  * `FailureOf.settled_afterFailure`
-/

namespace AgencCore.Team

open Foundations List OrderedMap Option

/- Neither completed nor failed. -/
def TeamCheckpointStatus.isOpen (status : TeamCheckpointStatus) : Prop :=
  status ≠ .completed ∧ status ≠ .failed

def Blocks (checkpoints : Checkpoints) (depId : String) : Prop :=
  statusOf? checkpoints depId = some .failed ∨ statusOf? checkpoints depId = some .blocked

structure Settled (checkpoints : Checkpoints) : Prop where
  keyed : ∀ id c, checkpoints.get? id = some c → c.id = id
  completed : ∀ id c, checkpoints.get? id = some c →
      c.status = .completed → ∀ d ∈ c.dependsOn, statusOf? checkpoints d = some .completed
  blocked : ∀ id c, checkpoints.get? id = some c →
      (c.status = .blocked ↔ c.status.isOpen ∧ ∃ d ∈ c.dependsOn, Blocks checkpoints d)
  ready : ∀ id c, checkpoints.get? id = some c →
      (c.status = .ready ↔
        c.status.isOpen ∧ c.status ≠ .blocked ∧
          ∀ d ∈ c.dependsOn, statusOf? checkpoints d = some .completed)

variable (checkpoints : Checkpoints)

theorem hasFailedDependency_iff (dependsOn : List String) :
    hasFailedDependency checkpoints dependsOn = true ↔ ∃ d ∈ dependsOn, Blocks checkpoints d := by
  simp [hasFailedDependency, Blocks]

theorem areDependenciesCompleted_iff (dependencies : List String) :
    areDependenciesCompleted checkpoints dependencies = true ↔
      ∀ d ∈ dependencies, statusOf? checkpoints d = some .completed := by
  simp [areDependenciesCompleted]

theorem statusOf?_set (id d : String) (c : TeamCheckpointState) :
    statusOf? (checkpoints.set id c) d = if id = d then some c.status
      else statusOf? checkpoints d := by
  unfold statusOf?
  rw [get?_set]
  split <;> rfl

section Writes

variable {checkpoints : Checkpoints}
variable {id d : String}
variable {c c' : TeamCheckpointState}

theorem statusOf?_of_get? (hGet : checkpoints.get? id = some c) :
    statusOf? checkpoints id = some c.status := by rw [statusOf?, hGet, map_some]

/- A status that the overwritten checkpoint did not have is kept. -/
theorem statusOf?_set_of_ne (hGet : checkpoints.get? id = some c) {status : TeamCheckpointStatus}
    (hNe : c.status ≠ status) (hStatus : statusOf? checkpoints d = some status) :
    statusOf? (checkpoints.set id c') d = some status := by
  rw [statusOf?_set, if_neg]
  · exact hStatus
  · rintro rfl
    rw [statusOf?_of_get? hGet] at hStatus
    exact hNe (Option.some.inj hStatus)

theorem Blocks.set (hBlocks : Blocks checkpoints d) (hGet : checkpoints.get? id = some c)
    (hOpen : c.status.isOpen) (hNotBlocked : c.status ≠ .blocked) :
    Blocks (checkpoints.set id c') d :=
  hBlocks.imp (statusOf?_set_of_ne hGet hOpen.2) (statusOf?_set_of_ne hGet hNotBlocked)

theorem keyed_set (hKeyed : ∀ k x, checkpoints.get? k = some x → x.id = k)
    (hGet : checkpoints.get? id = some c) (hId : c'.id = c.id) :
    ∀ k x, (checkpoints.set id c').get? k = some x → x.id = k := by
  intro k x hx
  rcases get?_set_eq_some hx with ⟨rfl, rfl⟩ | ⟨_, hOld⟩
  · rw [hId]
    exact hKeyed id c hGet
  · exact hKeyed k x hOld

end Writes

----------
-- The Sweep Ends
----------

/- How often a checkpoint can still change in the sweeps. -/
def pendingChanges (checkpoints : Checkpoints) (c : TeamCheckpointState) : Int :=
  if c.status = .completed ∨ c.status = .failed ∨ c.status = .blocked then 0
  else if c.status = (if areDependenciesCompleted checkpoints c.dependsOn then .ready
        else .pending) then 1
  else 2

def changesLeft (checkpoints : Checkpoints) : Int :=
  (checkpoints.mapValues (fun _ c => pendingChanges checkpoints c)).total

theorem pendingChanges_bounds (checkpoints : Checkpoints) (c : TeamCheckpointState) :
    0 ≤ pendingChanges checkpoints c ∧ pendingChanges checkpoints c ≤ 2 := by
  unfold pendingChanges
  split_ifs <;> norm_num

theorem changesLeft_eq (checkpoints : Checkpoints) :
    changesLeft checkpoints = (checkpoints.values.map (pendingChanges checkpoints)).sum := by
  rw [changesLeft, OrderedMap.total, values_mapValues]

theorem changesLeft_nonneg (checkpoints : Checkpoints) : 0 ≤ changesLeft checkpoints := by
  rw [changesLeft_eq]
  exact sum_nonneg (List.forall_mem_map.mpr (fun c _ => (pendingChanges_bounds checkpoints c).1))

theorem changesLeft_le (checkpoints : Checkpoints) :
    changesLeft checkpoints ≤ 2 * checkpoints.size := by
  have hBound := sum_le_card_nsmul (checkpoints.values.map (pendingChanges checkpoints)) 2
    (List.forall_mem_map.mpr (fun c _ => (pendingChanges_bounds checkpoints c).2))
  rw [← changesLeft_eq, length_map, OrderedMap.values, length_map, nsmul_eq_mul] at hBound
  exact hBound.trans_eq (mul_comm _ _)

variable {checkpoints : Checkpoints}
variable {c : TeamCheckpointState}
variable {id : String}

/- A visit never touches a completed checkpoint. -/
theorem completed_refreshOne (hGet : checkpoints.get? id = some c) {next : TeamCheckpointStatus}
    (hStatus : c.status ≠ .completed) (hNext : next ≠ .completed) (d : String) :
    statusOf? (checkpoints.set id { c with status := next }) d = some .completed ↔
      statusOf? checkpoints d = some .completed := by
  rw [statusOf?_set]
  by_cases hEq : id = d
  · subst hEq
    simp [statusOf?, hGet, hStatus, hNext]
  · simp [hEq]

/- A changed checkpoint was open and uses up a change. -/
theorem refreshedStatus_changes (hChange : refreshedStatus checkpoints c ≠ c.status) :
    c.status ≠ .completed ∧ refreshedStatus checkpoints c ≠ .completed ∧
      pendingChanges checkpoints { c with status := refreshedStatus checkpoints c } <
        pendingChanges checkpoints c := by
  unfold refreshedStatus at hChange ⊢
  unfold pendingChanges
  cases hStatus : c.status <;> cases hFailed : hasFailedDependency checkpoints c.dependsOn <;>
    cases hDone : areDependenciesCompleted checkpoints c.dependsOn <;> simp_all

theorem changesLeft_set
    (hGet : checkpoints.get? id = some c) (hChange : refreshedStatus checkpoints c ≠ c.status) :
    changesLeft (checkpoints.set id { c with status := refreshedStatus checkpoints c }) <
      changesLeft checkpoints := by
  rcases refreshedStatus_changes hChange with ⟨hStatus, hNext, hLess⟩
  set c' : TeamCheckpointState := { c with status := refreshedStatus checkpoints c } with hc'
  have hCompleted := completed_refreshOne hGet hStatus hNext
  -- the targets depend on the completed checkpoints only
  have hSame : ∀ x, pendingChanges (checkpoints.set id c') x = pendingChanges checkpoints x := by
    intro x
    have hDone : areDependenciesCompleted (checkpoints.set id c') x.dependsOn =
          areDependenciesCompleted checkpoints x.dependsOn := by
      rw [Bool.eq_iff_iff, areDependenciesCompleted_iff, areDependenciesCompleted_iff]
      simp only [hc', hCompleted]
    unfold pendingChanges
    rw [hDone]
  have hSum := Entries.sum_put (pendingChanges checkpoints) id c' checkpoints.entries
  have hOld : Entries.lookup id checkpoints.entries = some c := hGet
  rw [hOld, map_some, getD_some] at hSum
  have hTotal : changesLeft (checkpoints.set id c') =
      changesLeft checkpoints - pendingChanges checkpoints c + pendingChanges checkpoints c' := by
    rw [changesLeft_eq, changesLeft_eq, funext hSame, OrderedMap.values, OrderedMap.values,
      List.map_map, List.map_map]
    exact hSum
  omega

/- A visit changes nothing, or it writes the refreshed status. -/
theorem refreshOne_cases (acc : Checkpoints × Bool) (id : String) : refreshOne acc id = acc ∨
      ∃ c, acc.1.get? id = some c ∧ refreshedStatus acc.1 c ≠ c.status ∧
        refreshOne acc id = (acc.1.set id { c with status := refreshedStatus acc.1 c }, true) := by
  unfold refreshOne
  cases acc.1.get? id with
  | none => exact .inl rfl
  | some c =>
    by_cases hSame : refreshedStatus acc.1 c = c.status
    · exact .inl (if_pos hSame)
    · exact .inr ⟨c, rfl, hSame, if_neg hSame⟩

/- What every change of a visit keeps, the sweeps keep. -/
theorem refreshLoop_induction {P : Checkpoints → Prop}
    (hVisit : ∀ checkpoints id c, P checkpoints → checkpoints.get? id = some c →
      refreshedStatus checkpoints c ≠ c.status →
        P (checkpoints.set id { c with status := refreshedStatus checkpoints c }))
    (fuel : Nat) (hStart : P checkpoints) : P (refreshLoop fuel checkpoints) := by
  induction fuel generalizing checkpoints with
  | zero => exact hStart
  | succ fuel ih =>
    have hSweep : P (refreshSweep checkpoints).1 := by
      refine foldlRecOn (motive := fun acc : Checkpoints × Bool => P acc.1) _ _ hStart ?_
      intro acc hAcc id _
      rcases refreshOne_cases acc id with hSame | ⟨c, hGet, hChange, hSet⟩
      · rw [hSame]
        exact hAcc
      · rw [hSet]
        exact hVisit acc.1 id c hAcc hGet hChange
    unfold refreshLoop
    simp only
    split
    · exact ih hSweep
    · exact hSweep

/- A sweep that reports a change uses up a change. -/
theorem changesLeft_refreshSweep (checkpoints : Checkpoints) :
    changesLeft (refreshSweep checkpoints).1 ≤ changesLeft checkpoints ∧
      ((refreshSweep checkpoints).2 = true →
        changesLeft (refreshSweep checkpoints).1 < changesLeft checkpoints) := by
  refine foldlRecOn (motive := fun acc : Checkpoints × Bool =>
    changesLeft acc.1 ≤ changesLeft checkpoints ∧
      (acc.2 = true → changesLeft acc.1 < changesLeft checkpoints)) _ _ ⟨le_rfl, nofun⟩ ?_
  intro acc hAcc id _
  rcases refreshOne_cases acc id with hSame | ⟨c, hGet, hChange, hSet⟩
  · rw [hSame]
    exact hAcc
  · have hLess := (changesLeft_set hGet hChange).trans_le hAcc.1
    rw [hSet]
    exact ⟨hLess.le, fun _ => hLess⟩

variable {acc : Checkpoints × Bool}

/- A sweep that reports no change has changed nothing, at no visit. -/
theorem refreshFold_of_no_change (ids : List String)
    (hFlag : (ids.foldl refreshOne acc).2 = false) :
    ids.foldl refreshOne acc = acc ∧ ∀ id ∈ ids, refreshOne acc id = acc := by
  induction ids generalizing acc with
  | nil => simp
  | cons id rest ih =>
    rw [foldl_cons] at hFlag ⊢
    rcases ih hFlag with ⟨hRest, hVisits⟩
    rw [hRest] at hFlag ⊢
    rcases refreshOne_cases acc id with hSame | ⟨c, _, _, hSet⟩
    · rw [hSame] at hVisits
      exact ⟨hSame, forall_mem_cons.mpr ⟨hSame, hVisits⟩⟩
    · rw [hSet] at hFlag
      cases hFlag

theorem refreshLoop_stable {fuel : Nat} (hFuel : changesLeft checkpoints < fuel) :
    (refreshSweep (refreshLoop fuel checkpoints)).2 = false := by
  induction fuel generalizing checkpoints with
  | zero =>
    have hNonneg := changesLeft_nonneg checkpoints
    omega
  | succ fuel ih =>
    unfold refreshLoop
    cases hSwept : (refreshSweep checkpoints).2 with
    | true =>
      simp only [hSwept, if_true]
      apply ih
      have hLess := (changesLeft_refreshSweep checkpoints).2 hSwept
      omega
    | false =>
      have hSame : refreshSweep checkpoints = (checkpoints, false) :=
        (refreshFold_of_no_change _ hSwept).1
      simp only [hSame, Bool.false_eq_true, if_false]

/- The fuel of the sweeps suffices. -/
theorem refreshCheckpointReadiness_stable (checkpoints : Checkpoints) :
    (refreshSweep (refreshCheckpointReadiness checkpoints)).2 = false := by
  apply refreshLoop_stable
  have hLe := changesLeft_le checkpoints
  push_cast
  omega

----------
-- Sweeping After A Completion
----------

/-
  The part of `Settled` that every visit of a sweep keeps: causes stay in place while statuses move
  on.
-/
structure Sound (checkpoints : Checkpoints) : Prop where
  keyed : ∀ id c, checkpoints.get? id = some c → c.id = id
  completed : ∀ id c, checkpoints.get? id = some c →
      c.status = .completed → ∀ d ∈ c.dependsOn, statusOf? checkpoints d = some .completed
  blocked : ∀ id c, checkpoints.get? id = some c →
      c.status = .blocked → ∃ d ∈ c.dependsOn, Blocks checkpoints d

/-
  How a map of checkpoints may move on: the same checkpoints with the same roles and dependencies,
  and what is completed or failed stays so.
-/
structure Evolves (before after : Checkpoints) : Prop where
  keys : after.keys = before.keys
  get? : ∀ id c, before.get? id = some c →
      ∃ c', after.get? id = some c' ∧ c'.id = c.id ∧ c'.roleId = c.roleId ∧
        c'.dependsOn = c.dependsOn ∧
        (c.status = .completed ∨ c.status = .failed → c'.status = c.status)

theorem Evolves.refl (checkpoints : Checkpoints) : Evolves checkpoints checkpoints :=
  ⟨rfl, fun _ c hGet => ⟨c, hGet, rfl, rfl, rfl, fun _ => rfl⟩⟩

theorem Evolves.trans {first second third : Checkpoints} (h₁ : Evolves first second)
    (h₂ : Evolves second third) : Evolves first third := by
  refine ⟨h₂.keys.trans h₁.keys, ?_⟩
  intro id c hGet
  rcases h₁.get? id c hGet with ⟨c₁, hGet₁, hId₁, hRole₁, hDeps₁, hKeep₁⟩
  rcases h₂.get? id c₁ hGet₁ with ⟨c₂, hGet₂, hId₂, hRole₂, hDeps₂, hKeep₂⟩
  refine ⟨c₂, hGet₂, hId₂.trans hId₁, hRole₂.trans hRole₁, hDeps₂.trans hDeps₁, ?_⟩
  intro hDone
  have hEq := hKeep₁ hDone
  rw [hKeep₂ (by rw [hEq]; exact hDone), hEq]

/- Overwriting an open checkpoint. -/
theorem evolves_set {c c' : TeamCheckpointState}
    (hGet : checkpoints.get? id = some c) (hOpen : c.status.isOpen) (hId : c'.id = c.id)
    (hRole : c'.roleId = c.roleId) (hDeps : c'.dependsOn = c.dependsOn) :
    Evolves checkpoints (checkpoints.set id c') := by
  refine ⟨keys_set_of_mem _ _ (mem_keys_of_get? hGet), ?_⟩
  intro k x hx
  rw [get?_set]
  by_cases hEq : id = k
  · subst hEq
    rw [hGet] at hx
    cases hx
    rw [if_pos rfl]
    exact ⟨c', rfl, hId, hRole, hDeps, fun hDone => absurd hDone (not_or.mpr hOpen)⟩
  · rw [if_neg hEq]
    exact ⟨x, hx, rfl, rfl, rfl, fun _ => rfl⟩

/- A status that a visit changes was open and stays open. -/
theorem isOpen_of_change (hChange : refreshedStatus checkpoints c ≠ c.status) :
    c.status.isOpen ∧ c.status ≠ .blocked ∧ (refreshedStatus checkpoints c).isOpen := by
  unfold refreshedStatus at hChange ⊢
  cases hStatus : c.status <;> cases hFailed : hasFailedDependency checkpoints c.dependsOn <;>
    cases hDone : areDependenciesCompleted checkpoints c.dependsOn <;>
    simp_all [TeamCheckpointStatus.isOpen]

/- A status that a visit sets to blocked has a cause. -/
theorem blocks_of_refreshed (hChange : refreshedStatus checkpoints c ≠ c.status)
    (hBlocked : refreshedStatus checkpoints c = .blocked) :
    ∃ d ∈ c.dependsOn, Blocks checkpoints d := by
  rw [← hasFailedDependency_iff]
  unfold refreshedStatus at hChange hBlocked
  split at hBlocked
  · rename_i hClosed
    rw [if_pos hClosed] at hChange
    exact (hChange rfl).elim
  · split at hBlocked
    · rename_i hFailed
      exact hFailed
    · split at hBlocked <;> cases hBlocked

/- Overwriting an open checkpoint that does not block. -/
theorem Sound.set (hSound : Sound checkpoints)
    {c c' : TeamCheckpointState} (hGet : checkpoints.get? id = some c) (hOpen : c.status.isOpen)
    (hNotBlocked : c.status ≠ .blocked) (hId : c'.id = c.id) (hDeps : c'.dependsOn = c.dependsOn)
    (hDone : c'.status = .completed → ∀ d ∈ c.dependsOn, statusOf? checkpoints d = some .completed)
    (hCause : c'.status = .blocked → ∃ d ∈ c.dependsOn, Blocks checkpoints d) :
    Sound (checkpoints.set id c') := by
  refine ⟨keyed_set hSound.keyed hGet hId, ?_, ?_⟩
  · intro k x hx hStatus d hd
    apply statusOf?_set_of_ne hGet hOpen.1
    rcases get?_set_eq_some hx with ⟨rfl, rfl⟩ | ⟨_, hOld⟩
    · exact hDone hStatus d (hDeps ▸ hd)
    · exact hSound.completed k x hOld hStatus d hd
  · intro k x hx hStatus
    have hOld : ∃ d ∈ x.dependsOn, Blocks checkpoints d := by
      rcases get?_set_eq_some hx with ⟨rfl, rfl⟩ | ⟨_, hOld⟩
      · rw [hDeps]
        exact hCause hStatus
      · exact hSound.blocked k x hOld hStatus
    rcases hOld with ⟨d, hd, hBlocks⟩
    exact ⟨d, hd, hBlocks.set hGet hOpen hNotBlocked⟩

theorem sound_refreshLoop (fuel : Nat) (hSound : Sound checkpoints) :
    Sound (refreshLoop fuel checkpoints) ∧ Evolves checkpoints (refreshLoop fuel checkpoints) := by
  refine refreshLoop_induction (P := fun after => Sound after ∧ Evolves checkpoints after) ?_ fuel
    ⟨hSound, .refl _⟩
  rintro middle id c ⟨hMiddle, hTo⟩ hGet hChange
  rcases isOpen_of_change hChange with ⟨hOpen, hNotBlocked, hNext⟩
  exact ⟨hMiddle.set hGet hOpen hNotBlocked rfl rfl (fun hDone => absurd hDone hNext.1)
    (blocks_of_refreshed hChange), hTo.trans (evolves_set hGet hOpen rfl rfl rfl)⟩

/- In a stable map every status is the refreshed one. -/
theorem refreshed_of_stable
    (hStable : (refreshSweep checkpoints).2 = false)
    (hGet : checkpoints.get? id = some c) : refreshedStatus checkpoints c = c.status := by
  have hVisit := (refreshFold_of_no_change _ hStable).2 id (mem_keys_of_get? hGet)
  by_contra hNot
  simp [refreshOne, hGet, hNot] at hVisit

/- A sound map with refreshed statuses is settled. -/
theorem settled_of_refreshed (hSound : Sound checkpoints)
    (hRefreshed : ∀ id c, checkpoints.get? id = some c → refreshedStatus checkpoints c = c.status) :
    Settled checkpoints := by
  refine ⟨hSound.keyed, hSound.completed, ?_, ?_⟩
  · intro id c hGet
    constructor
    · intro hBlocked
      refine ⟨?_, hSound.blocked id c hGet hBlocked⟩
      simp [TeamCheckpointStatus.isOpen, hBlocked]
    · rintro ⟨hOpen, hCause⟩
      rw [← hasFailedDependency_iff] at hCause
      have hEq := hRefreshed id c hGet
      unfold refreshedStatus at hEq
      by_contra hNot
      rw [if_neg (by simp [hOpen.1, hOpen.2, hNot]), if_pos hCause] at hEq
      exact hNot hEq.symm
  · intro id c hGet
    have hEq := hRefreshed id c hGet
    rw [← areDependenciesCompleted_iff]
    unfold refreshedStatus at hEq
    cases hStatus : c.status <;> cases hFailed : hasFailedDependency checkpoints c.dependsOn <;>
      cases hDone : areDependenciesCompleted checkpoints c.dependsOn <;>
      simp_all [TeamCheckpointStatus.isOpen]

theorem Settled.sound (hSettled : Settled checkpoints) : Sound checkpoints :=
  ⟨hSettled.keyed, hSettled.completed,
    fun id c hGet hBlocked => ((hSettled.blocked id c hGet).mp hBlocked).2⟩

theorem settled_refresh (hSound : Sound checkpoints) :
    Settled (refreshCheckpointReadiness checkpoints) ∧
      Evolves checkpoints (refreshCheckpointReadiness checkpoints) := by
  rcases sound_refreshLoop (2 * checkpoints.size + 1) hSound with ⟨hLoop, hTo⟩
  refine ⟨settled_of_refreshed hLoop ?_, hTo⟩
  intro id c hGet
  exact refreshed_of_stable (refreshCheckpointReadiness_stable checkpoints) hGet

theorem sound_complete (hSettled : Settled checkpoints)
    {c done : TeamCheckpointState} (hGet : checkpoints.get? id = some c) (hOpen : c.status.isOpen)
    (hNotBlocked : c.status ≠ .blocked)
    (hDeps : areDependenciesCompleted checkpoints c.dependsOn = true)
    (hDone : done.status = .completed) (hId : done.id = c.id)
    (hSame : done.dependsOn = c.dependsOn) : Sound (checkpoints.set id done) := by
  rw [areDependenciesCompleted_iff] at hDeps
  refine hSettled.sound.set hGet hOpen hNotBlocked hId hSame (fun _ => hDeps) ?_
  rw [hDone]
  exact nofun

----------
-- Blocking After A Failure
----------

def dependents (checkpoints : Checkpoints) (current : String) : List String :=
  (checkpoints.values.filter (fun checkpoint => decide (current ∈ checkpoint.dependsOn))).map
    (·.id)

theorem unseenDependents_eq_fresh (checkpoints : Checkpoints) (seen : List String)
    (current : String) :
    unseenDependents checkpoints seen current =
      Worklist.fresh (dependents checkpoints) seen current := by
  unfold unseenDependents Worklist.fresh dependents
  rw [List.filter_map, List.filter_filter]
  congr 1
  apply filter_congr
  intro c _
  simp [Bool.and_comm]

theorem blockOpen_id (c : TeamCheckpointState) : (blockOpen c).id = c.id := by
  unfold blockOpen
  split <;> rfl

theorem blockOpen_dependsOn (c : TeamCheckpointState) : (blockOpen c).dependsOn = c.dependsOn := by
  unfold blockOpen
  split <;> rfl

/- Changing statuses leaves the dependents alone. -/
theorem dependents_mapValues {g : TeamCheckpointState → TeamCheckpointState}
    (hId : ∀ c, (g c).id = c.id) (hDeps : ∀ c, (g c).dependsOn = c.dependsOn)
    (checkpoints : Checkpoints) :
    dependents (checkpoints.mapValues (fun _ => g)) = dependents checkpoints := by
  funext current
  unfold dependents
  rw [values_mapValues, List.filter_map, List.map_map]
  have hFilter : ((fun c : TeamCheckpointState => decide (current ∈ c.dependsOn)) ∘ g) =
        fun c => decide (current ∈ c.dependsOn) := by
    funext c
    simp [hDeps c]
  rw [hFilter]
  apply map_congr_left
  intro c _
  exact hId c

/- The walk blocks the open checkpoints it explores beyond those seen at the start. -/
theorem blockLoop_eq (fuel : Nat) (queue seen : List String) (checkpoints : Checkpoints) :
    blockLoop fuel queue seen checkpoints =
      checkpoints.mapValues (fun _ c =>
        if c.id ∈ Worklist.explore (dependents checkpoints) fuel queue seen ∧ c.id ∉ seen then
          blockOpen c
        else c) := by
  induction fuel generalizing queue seen checkpoints with
  | zero =>
    symm
    apply mapValues_eq_self
    intro _ c _
    simp [Worklist.explore]
  | succ fuel ih => cases queue with
      | nil =>
        symm
        apply mapValues_eq_self
        intro _ c _
        simp [Worklist.explore]
      | cons current queue =>
        set found := unseenDependents checkpoints seen current with hFound
        have hFresh : found = Worklist.fresh (dependents checkpoints) seen current :=
          unseenDependents_eq_fresh _ _ _
        have hSame : dependents (checkpoints.mapValues (fun _ c =>
                  if c.id ∈ found then blockOpen c
                  else c)) = dependents checkpoints := by
          apply dependents_mapValues <;> intro c <;> split <;>
            simp [blockOpen_id, blockOpen_dependsOn]
        have hRound : blockLoop (fuel + 1) (current :: queue) seen checkpoints =
              blockLoop fuel (queue ++ found) (seen ++ found)
                (checkpoints.mapValues (fun _ c =>
                  if c.id ∈ found then blockOpen c
                  else c)) := rfl
        rw [hRound, ih, hSame, mapValues_mapValues]
        apply mapValues_congr
        intro _ c _
        rw [Worklist.explore, ← hFresh]
        by_cases hIn : c.id ∈ found
        · have hNotSeen : c.id ∉ seen := by
            rw [hFresh] at hIn
            exact (Worklist.mem_fresh.mp hIn).2
          have hExplored := Worklist.subset_explore (dependents checkpoints) fuel
            (queue ++ found) (seen ++ found) c.id (mem_append_right _ hIn)
          simp [hIn, hNotSeen, hExplored, blockOpen_id]
        · simp [hIn]

/- The checkpoints the walk reaches from a failed one. -/
def failureCone (checkpoints : Checkpoints) (failedId : String) : List String :=
  Worklist.explore (dependents checkpoints) (checkpoints.size + 1) [failedId] [failedId]

theorem mem_dependents {current id : String} : id ∈ dependents checkpoints current ↔
      ∃ k c, checkpoints.get? k = some c ∧ c.id = id ∧ current ∈ c.dependsOn := by
  simp only [dependents, List.mem_map, mem_filter, mem_values_iff, decide_eq_true_eq]
  grind

theorem map_id_values (hKeyed : ∀ id c, checkpoints.get? id = some c → c.id = id) :
    checkpoints.values.map (·.id) = checkpoints.keys := by
  unfold OrderedMap.values OrderedMap.keys
  rw [List.map_map]
  apply map_congr_left
  intro entry hEntry
  exact hKeyed entry.1 entry.2 ((checkpoints.mem_entries_iff _ _).mp hEntry)

theorem failureCone_closed
    (hKeyed : ∀ id c, checkpoints.get? id = some c → c.id = id) (failedId : String) :
    ∀ k ∈ failureCone checkpoints failedId,
      ∀ j ∈ dependents checkpoints k, j ∈ failureCone checkpoints failedId := by
  have hIds := map_id_values hKeyed
  apply Worklist.explore_closed checkpoints.keys
  · intro k
    have hSub : (dependents checkpoints k).Sublist (checkpoints.values.map (·.id)) :=
      List.Sublist.map _ filter_sublist
    rw [hIds] at hSub
    exact checkpoints.nodup_keys.sublist hSub
  · intro k j hj
    rw [← hIds]
    rcases List.mem_map.mp hj with ⟨c, hc, hId⟩
    exact List.mem_map.mpr ⟨c, mem_of_mem_filter hc, hId⟩
  · have hUnseen : Worklist.unseen checkpoints.keys [failedId] ≤ checkpoints.size := by
      unfold Worklist.unseen
      refine (Finset.card_le_card Finset.sdiff_subset).trans ?_
      refine (toFinset_card_le _).trans ?_
      simp [OrderedMap.keys, OrderedMap.size]
    simp only [length_singleton]
    omega
  · intro k hk
    exact Or.inl hk

theorem get?_blockDependentCheckpoints (checkpoints : Checkpoints) (failedId k : String) :
    (blockDependentCheckpoints failedId checkpoints).get? k =
      (checkpoints.get? k).map (fun c =>
        if c.id ∈ failureCone checkpoints failedId ∧ c.id ≠ failedId then blockOpen c
        else c) := by
  unfold blockDependentCheckpoints failureCone
  rw [blockLoop_eq, get?_mapValues]
  simp

----------
-- A Failure Keeps The Map Settled
----------

/- The map after the failure and the walk. -/
def afterFailure (checkpoints : Checkpoints) (id : String)
    (failed : TeamCheckpointState) : Checkpoints :=
  blockDependentCheckpoints id (checkpoints.set id failed)

/- The facts that hold of a failure of an open checkpoint. -/
structure FailureOf (checkpoints : Checkpoints) (id : String)
    (c failed : TeamCheckpointState) : Prop where
  settled : Settled checkpoints
  get? : checkpoints.get? id = some c
  isOpen : c.status.isOpen
  status : failed.status = .failed
  id_eq : failed.id = c.id
  roleId_eq : failed.roleId = c.roleId
  dependsOn_eq : failed.dependsOn = c.dependsOn

namespace FailureOf

variable {c failed x y : TeamCheckpointState}
variable {d k : String}

/- The failed checkpoint and those the walk reaches from it. -/
def cone (_ : FailureOf checkpoints id c failed) : List String :=
  failureCone (checkpoints.set id failed) id

variable (h : FailureOf checkpoints id c failed)
include h

theorem keyed : ∀ k x, (checkpoints.set id failed).get? k = some x → x.id = k :=
  keyed_set h.settled.keyed h.get? h.id_eq

/- The failure changes no dependency. -/
theorem mem_dependents_iff : k ∈ dependents (checkpoints.set id failed) d ↔
      ∃ x, checkpoints.get? k = some x ∧ d ∈ x.dependsOn := by
  rw [mem_dependents]
  constructor
  · rintro ⟨key, y, hy, rfl, hDep⟩
    rw [h.keyed key y hy]
    rcases get?_set_eq_some hy with ⟨rfl, rfl⟩ | ⟨_, hOld⟩
    · exact ⟨c, h.get?, h.dependsOn_eq ▸ hDep⟩
    · exact ⟨y, hOld, hDep⟩
  · rintro ⟨x, hx, hDep⟩
    by_cases hEq : id = k
    · subst hEq
      cases h.get?.symm.trans hx
      exact ⟨id, failed, get?_set_self .., h.keyed id failed (get?_set_self ..),
        h.dependsOn_eq ▸ hDep⟩
    · exact ⟨k, x, (get?_set_of_ne _ _ hEq).trans hx, h.settled.keyed k x hx, hDep⟩

theorem mem_cone_self : id ∈ h.cone := Worklist.subset_explore _ _ _ _ id (by simp)

theorem mem_cone_of_dep (hx : checkpoints.get? k = some x) (hDep : d ∈ x.dependsOn)
    (hMem : d ∈ h.cone) : k ∈ h.cone :=
  failureCone_closed h.keyed id d hMem k (h.mem_dependents_iff.mpr ⟨x, hx, hDep⟩)

/- No checkpoint of the cone is completed, and beyond the root each has a cause in the cone. -/
theorem of_mem_cone : ∀ k ∈ h.cone, ∃ x, checkpoints.get? k = some x ∧ x.status ≠ .completed ∧
      (k ≠ id → ∃ d ∈ x.dependsOn, d ∈ h.cone) := by
  have hWalk : ∀ k ∈ h.cone, k ∈ h.cone ∧ ∃ x, checkpoints.get? k = some x ∧
        x.status ≠ .completed ∧ (k ≠ id → ∃ d ∈ x.dependsOn, d ∈ h.cone) := by
    refine Worklist.explore_sound ?_ _ ?_ ?_
    · rintro d k ⟨hCone, parent, hParent, hOpen, _⟩ hk
      rcases h.mem_dependents_iff.mp hk with ⟨x, hx, hDep⟩
      refine ⟨h.mem_cone_of_dep hx hDep hCone, x, hx, ?_, fun _ => ⟨d, hDep, hCone⟩⟩
      intro hDone
      have hStatus := h.settled.completed k x hx hDone d hDep
      rw [statusOf?_of_get? hParent] at hStatus
      exact hOpen (Option.some.inj hStatus)
    all_goals
      rw [forall_mem_singleton]
      exact ⟨h.mem_cone_self, c, h.get?, h.isOpen.1, fun hNe => (hNe rfl).elim⟩
  exact fun k hk => (hWalk k hk).2

theorem get?_after (k : String) : (afterFailure checkpoints id failed).get? k =
      (checkpoints.get? k).map (fun x =>
        if k = id then failed else if k ∈ h.cone then blockOpen x else x) := by
  unfold afterFailure cone
  rw [get?_blockDependentCheckpoints, get?_set]
  by_cases hEq : k = id
  · subst hEq
    simp [h.get?, h.keyed k failed (get?_set_self ..)]
  · rw [if_neg (Ne.symm hEq)]
    apply Option.map_congr
    intro x hx
    simp [h.settled.keyed k x hx, hEq]

/- Every checkpoint is failed or blocked in the cone, or kept. -/
theorem after_cases (hy : (afterFailure checkpoints id failed).get? k = some y) :
    ∃ x, checkpoints.get? k = some x ∧ y.id = x.id ∧ y.dependsOn = x.dependsOn ∧
      (k ∈ h.cone ∧ (y.status = .failed ∨ k ≠ id ∧ y.status = .blocked) ∨
        k ∉ h.cone ∧ y = x) := by
  rw [h.get?_after, map_eq_some_iff] at hy
  rcases hy with ⟨x, hx, rfl⟩
  refine ⟨x, hx, ?_⟩
  by_cases hEq : k = id
  · subst hEq
    cases h.get?.symm.trans hx
    simp [h.id_eq, h.dependsOn_eq, h.status, h.mem_cone_self]
  · by_cases hMem : k ∈ h.cone
    · rcases h.of_mem_cone k hMem with ⟨x', hx', hOpen, _⟩
      cases hx.symm.trans hx'
      rw [if_neg hEq, if_pos hMem, blockOpen_id, blockOpen_dependsOn]
      by_cases hFailed : x.status = .failed
      · simp [blockOpen, hFailed, hMem]
      · simp [blockOpen, hFailed, hOpen, hMem, hEq]
    · simp [hEq, hMem]

theorem blocks_of_mem_cone (hMem : d ∈ h.cone) : Blocks (afterFailure checkpoints id failed) d := by
  rcases h.of_mem_cone d hMem with ⟨x, hx, _⟩
  have hGet := h.get?_after d
  rw [hx, map_some] at hGet
  rcases h.after_cases hGet with ⟨_, _, _, _, ⟨_, hStatus⟩ | ⟨hNot, _⟩⟩
  · rw [Blocks, statusOf?_of_get? hGet]
    exact hStatus.imp (congrArg some) (fun hBlocked => congrArg some hBlocked.2)
  · exact (hNot hMem).elim

/- Outside of the cone nothing changes. -/
theorem statusOf?_after (hMem : d ∉ h.cone) :
    statusOf? (afterFailure checkpoints id failed) d = statusOf? checkpoints d := by
  have hNe : d ≠ id := fun hEq => hMem (hEq ▸ h.mem_cone_self)
  simp [statusOf?, h.get?_after, hNe, hMem]

/- The walk completes nothing and uncompletes nothing. -/
theorem completed_iff (d : String) :
    statusOf? (afterFailure checkpoints id failed) d = some .completed ↔
      statusOf? checkpoints d = some .completed := by
  by_cases hMem : d ∈ h.cone
  · rcases h.of_mem_cone d hMem with ⟨x, hx, hOpen, _⟩
    rw [statusOf?_of_get? hx]
    rcases h.blocks_of_mem_cone hMem with hStatus | hStatus <;> simp [hStatus, hOpen]
  · rw [h.statusOf?_after hMem]

theorem settled_afterFailure : Settled (afterFailure checkpoints id failed) := by
  refine ⟨?_, ?_, ?_, ?_⟩
  all_goals
    intro k y hy
    rcases h.after_cases hy with ⟨x, hx, hId, hDeps, hCases⟩
  · rw [hId]
    exact h.settled.keyed k x hx
  · intro hDone d hd
    rw [h.completed_iff]
    rcases hCases with ⟨_, hStatus⟩ | ⟨_, rfl⟩
    · simp [hDone] at hStatus
    · exact h.settled.completed k y hx hDone d hd
  · rcases hCases with ⟨hMem, hStatus | ⟨hNe, hStatus⟩⟩ | ⟨hMem, rfl⟩
    · simp [hStatus, TeamCheckpointStatus.isOpen]
    · rcases h.of_mem_cone k hMem with ⟨x', hx', _, hCause⟩
      cases hx.symm.trans hx'
      rcases hCause hNe with ⟨d, hd, hCone⟩
      rw [hDeps]
      refine iff_of_true hStatus ⟨by simp [hStatus, TeamCheckpointStatus.isOpen], d, hd, ?_⟩
      exact h.blocks_of_mem_cone hCone
    · rw [h.settled.blocked k y hx]
      refine and_congr_right (fun _ => exists_congr (fun d => and_congr_right (fun hd => ?_)))
      -- the dependencies of a kept checkpoint are kept
      rw [Blocks, Blocks, h.statusOf?_after (fun hIn => hMem (h.mem_cone_of_dep hx hd hIn))]
  · rcases hCases with ⟨_, hStatus | ⟨_, hStatus⟩⟩ | ⟨_, rfl⟩
    · simp [hStatus, TeamCheckpointStatus.isOpen]
    · simp [hStatus]
    · rw [h.settled.ready k y hx]
      simp only [h.completed_iff]

theorem evolves_afterFailure : Evolves checkpoints (afterFailure checkpoints id failed) := by
  have hSet := evolves_set h.get? h.isOpen h.id_eq h.roleId_eq h.dependsOn_eq
  refine ⟨?_, ?_⟩
  · unfold afterFailure blockDependentCheckpoints
    rw [blockLoop_eq, keys_mapValues, hSet.keys]
  · intro k x hx
    refine ⟨_, by rw [h.get?_after, hx, map_some], ?_⟩
    split
    · next hEq =>
      subst hEq
      cases h.get?.symm.trans hx
      exact ⟨h.id_eq, h.roleId_eq, h.dependsOn_eq, fun hDone => absurd hDone (not_or.mpr h.isOpen)⟩
    · split
      · refine ⟨blockOpen_id x, ?_, blockOpen_dependsOn x, ?_⟩
        · unfold blockOpen
          split <;> rfl
        · intro hDone
          unfold blockOpen
          rw [if_neg]
          exact fun hOpen => absurd hDone (not_or.mpr hOpen)
      · exact ⟨rfl, rfl, rfl, fun _ => rfl⟩

end FailureOf

end AgencCore.Team
