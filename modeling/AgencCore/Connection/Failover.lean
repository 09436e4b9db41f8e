import AgencCore.Foundations.Numbers
import AgencCore.Foundations.Runs

/-
  Reads that fail over from endpoint to endpoint.

  A read that has failed often enough at an endpoint goes on to the next one in the circle that is
  healthy or has cooled down. The position in the circle is looked up by the URL: with a URL that is
  configured twice, a read can go round without ever leaving it.
-/

namespace AgencCore.Connection

open Foundations List Nat

structure EndpointHealthState where
  healthy : Bool
  consecutiveFailures : Nat
  consecutiveSuccesses : Nat
  lastErrorTime : Option JsNumber

structure ConnectionManagerConfig where
  endpointUrls : List String
  maxRetries : Nat
  unhealthyThreshold : JsNumber
  healthyThreshold : JsNumber
  unhealthyCooldownMs : JsNumber

inductive ReadOutcome where
  | value
  | thrown
  | allEndpointsUnhealthy
deriving DecidableEq

/-
  A read, with the endpoints of its failed attempts, and those that it saw unhealthy before they
  had cooled down.
-/
structure ReadState where
  currentUrl : String
  triedEndpoints : Nat
  attempt : Nat
  failed : List String
  coolingDown : List String
  outcome : Option ReadOutcome
deriving DecidableEq

structure ConnectionManager where
  endpointHealth : String → EndpointHealthState
  activeIndex : Nat
  read : Option ReadState

/- How an attempt of the read ends; an error may be worth a retry. -/
inductive AttemptResult where
  | value
  | error (retryable : Bool)

/- The other requests change the health and the active endpoint in any way. -/
inductive ManagerAction where
  | executeRead
  | attempt (result : AttemptResult) (now : JsNumber)
  | others (endpointHealth : String → EndpointHealthState) (activeIndex : Nat)

variable (config : ConnectionManagerConfig)

def recordSuccess (h : EndpointHealthState) : EndpointHealthState :=
  { h with
    consecutiveSuccesses := h.consecutiveSuccesses + 1
    consecutiveFailures := 0
    healthy := h.healthy || config.healthyThreshold.le (.ofInt (h.consecutiveSuccesses + 1)) }

def recordFailure (now : JsNumber) (h : EndpointHealthState) : EndpointHealthState :=
  { consecutiveFailures := h.consecutiveFailures + 1
    consecutiveSuccesses := 0
    lastErrorTime := some now
    healthy := h.healthy && !config.unhealthyThreshold.le (.ofInt (h.consecutiveFailures + 1)) }

/- An error at the time zero counts as none. -/
def isCoolingDown (now : JsNumber) (h : EndpointHealthState) : Bool :=
  !h.healthy && !h.lastErrorTime.any (fun time =>
    time != .nan && time != 0 && config.unhealthyCooldownMs.le (now.sub time))

/- The endpoint at a place of the circle. -/
def endpointAt (place : Nat) : String :=
  config.endpointUrls.getD (place % config.endpointUrls.length) ""

/- The other endpoints, in the order in which they are looked at. -/
def endpointsAfter (url : String) : List String :=
  (List.range (config.endpointUrls.length - 1)).map
    (fun offset => endpointAt config (config.endpointUrls.idxOf url + (offset + 1)))

/- An endpoint has failed for good; the read goes on to the next one, or gives up. -/
def failover (s : ConnectionManager) (read : ReadState) (now : JsNumber) : ConnectionManager :=
  let cooling := fun url => isCoolingDown config now (s.endpointHealth url)
  let after := endpointsAfter config read.currentUrl
  let tried := read.triedEndpoints + 1
  let seen := read.coolingDown ++ after.takeWhile cooling
  match after.find? (!cooling ·) with
  | none =>
    { s with read := some { read with
        triedEndpoints := tried, coolingDown := seen, outcome := some .allEndpointsUnhealthy } }
  | some url =>
    { s with
      activeIndex := config.endpointUrls.idxOf url
      read := some { read with
        currentUrl := url, triedEndpoints := tried, attempt := 0, coolingDown := seen
        outcome := if tried < config.endpointUrls.length then none
          else some .allEndpointsUnhealthy } }

def finishAttempt (s : ConnectionManager) (read : ReadState) (now : JsNumber) :
    AttemptResult → ConnectionManager
| .value =>
  { s with
    endpointHealth := Function.update s.endpointHealth read.currentUrl
      (recordSuccess config (s.endpointHealth read.currentUrl))
    read := some { read with outcome := some .value } }
| .error retryable =>
  let health := recordFailure config now (s.endpointHealth read.currentUrl)
  let s := { s with endpointHealth := Function.update s.endpointHealth read.currentUrl health }
  let read := { read with failed := read.currentUrl :: read.failed }
  if !retryable then { s with read := some { read with outcome := some .thrown } }
  else if read.attempt < config.maxRetries then
    { s with read := some { read with attempt := read.attempt + 1 } }
  else failover config s read now

def managerStep (s : ConnectionManager) : ManagerAction → ConnectionManager
| .executeRead =>
  if s.read.isSome then s
  else { s with read := some ⟨endpointAt config s.activeIndex, 0, 0, [], [], none⟩ }
| .attempt result now =>
  match s.read with
  | some read => if read.outcome = none then finishAttempt config s read now result else s
  | none => s
| .others endpointHealth activeIndex =>
  { s with endpointHealth := endpointHealth, activeIndex := activeIndex }

/- The endpoint has failed for the read, or was seen cooling down. -/
def IsDown (read : ReadState) (url : String) : Prop :=
  config.maxRetries + 1 ≤ read.failed.count url ∨ url ∈ read.coolingDown

def GivesUpRightly (s : ConnectionManager) : Prop :=
  ∀ read ∈ s.read, read.outcome = some .allEndpointsUnhealthy →
    ∀ url ∈ config.endpointUrls, IsDown config read url

----------
-- The Walk
----------

variable {config}

theorem exists_add_mod_eq {n j : Nat} (hj : j < n) (start : Nat) :
    ∃ k < n, (start + k) % n = j := by
  have hPos := zero_lt_of_lt hj
  have hStart := mod_lt start hPos
  have hRound : start + (j + (n - start % n)) = j + n * (start / n + 1) := by
    have hDiv := div_add_mod start n
    rw [mul_add]
    omega
  refine ⟨(j + (n - start % n)) % n, mod_lt _ hPos, ?_⟩
  rw [add_mod_mod, hRound, add_mul_mod_self_left, mod_eq_of_lt hj]

/- From any place, the circle is gone round in as many places as there are endpoints. -/
theorem exists_place {url : String} (hUrl : url ∈ config.endpointUrls) (start : Nat) :
    ∃ k < config.endpointUrls.length, endpointAt config (start + k) = url := by
  rcases List.mem_iff_getElem.mp hUrl with ⟨j, hj, rfl⟩
  rcases exists_add_mod_eq hj start with ⟨k, hk, hPlace⟩
  exact ⟨k, hk, by rw [endpointAt, hPlace, getD_eq_getElem _ _ hj]⟩

/- A read that goes on has left behind it only endpoints that are down. -/
structure Walked (config : ConnectionManagerConfig) (read : ReadState) (start gone : Nat) :
    Prop where
  current : read.currentUrl = endpointAt config (start + gone)
  tried : read.triedEndpoints ≤ gone
  down : ∀ k < gone, IsDown config read (endpointAt config (start + k))
  attempts : read.attempt ≤ read.failed.count read.currentUrl

def ReadSound (config : ConnectionManagerConfig) (read : ReadState) : Prop :=
  (read.outcome = none → ∃ start gone, Walked config read start gone) ∧
    (read.outcome = some .allEndpointsUnhealthy →
      ∀ url ∈ config.endpointUrls, IsDown config read url)

variable (hDistinct : config.endpointUrls.Nodup)
include hDistinct

theorem endpointAt_idxOf (place offset : Nat) :
    endpointAt config (config.endpointUrls.idxOf (endpointAt config place) + offset) =
      endpointAt config (place + offset) := by
  by_cases hNone : config.endpointUrls.length = 0
  · simp [endpointAt, List.length_eq_zero_iff.mp hNone]
  · have hLt := mod_lt place (pos_of_ne_zero hNone)
    rw [endpointAt, endpointAt, endpointAt, getD_eq_getElem _ _ hLt,
      hDistinct.idxOf_getElem _ hLt, mod_add_mod]

theorem getElem?_endpointsAfter {place offset : Nat}
    (hOffset : offset + 1 < config.endpointUrls.length) :
    (endpointsAfter config (endpointAt config place))[offset]? =
      some (endpointAt config (place + (offset + 1))) := by
  rw [endpointsAfter, getElem?_map, getElem?_range (by omega), Option.map_some,
    endpointAt_idxOf hDistinct]

variable {read : ReadState} {start gone : Nat}

theorem failover_sound (s : ConnectionManager)
    (now : JsNumber) (hWalked : Walked config read start gone)
    (hFailed : config.maxRetries + 1 ≤ read.failed.count read.currentUrl) :
    ∀ next ∈ (failover config s read now).read, ReadSound config next := by
  have hPlace : ∀ offset, offset + 1 < config.endpointUrls.length →
      (endpointsAfter config read.currentUrl)[offset]? =
        some (endpointAt config (start + gone + (offset + 1))) := by
    rw [hWalked.current]
    exact fun _ => getElem?_endpointsAfter hDistinct
  -- The endpoints up to here are down.
  have hUpTo : ∀ k ≤ gone, ∀ next : ReadState, next.failed = read.failed →
      read.coolingDown ⊆ next.coolingDown → IsDown config next (endpointAt config (start + k)) := by
    intro k hk next hSame hMore
    rw [IsDown, hSame]
    rcases hk.lt_or_eq with hLt | rfl
    · exact (hWalked.down k hLt).imp_right (@hMore _)
    · exact Or.inl (hWalked.current ▸ hFailed)
  unfold failover
  dsimp only
  split
  · next hNone =>
    rintro _ ⟨⟩
    refine ⟨nofun, fun _ url hUrl => ?_⟩
    rcases exists_place hUrl (start + gone) with ⟨_ | offset, hk, rfl⟩
    · exact hUpTo gone le_rfl _ rfl (subset_append_left _ _)
    · refine Or.inr (mem_append_right _ ?_)
      rw [List.takeWhile_eq_self_iff.mpr (by simpa using hNone)]
      exact mem_of_getElem? (hPlace offset hk)
  · next url hFind =>
    rintro _ ⟨⟩
    rcases List.find?_eq_some_iff_append.mp hFind with ⟨hUrl, skipped, rest, hSplit, hSkipped⟩
    have hCooling : (endpointsAfter config read.currentUrl).takeWhile
        (fun url => isCoolingDown config now (s.endpointHealth url)) = skipped := by
      rw [hSplit, takeWhile_append_of_pos (by simpa using hSkipped),
        takeWhile_cons_of_neg (by simpa using hUrl), append_nil]
    have hLength : skipped.length + 1 < config.endpointUrls.length := by
      have hCount := congrArg List.length hSplit
      simp only [endpointsAfter, length_map, length_range, length_append,
        length_cons] at hCount
      omega
    rw [hCooling]
    refine ⟨fun _ => ⟨start, gone + (skipped.length + 1), ?_, ?_, ?_, zero_le _⟩, ?_⟩
    · have hNext := hPlace skipped.length hLength
      rw [hSplit, getElem?_append_right le_rfl, Nat.sub_self] at hNext
      rw [← Nat.add_assoc]
      exact Option.some.inj hNext
    · have hTried := hWalked.tried
      dsimp only
      omega
    · intro k hk
      by_cases hBefore : k ≤ gone
      · exact hUpTo k hBefore _ rfl (subset_append_left _ _)
      · rcases Nat.exists_eq_add_of_lt (not_le.mp hBefore) with ⟨offset, rfl⟩
        have hNext := hPlace offset (by omega)
        rw [hSplit, getElem?_append_left (by omega)] at hNext
        refine Or.inr (mem_append_right _ (mem_of_getElem? (i := offset) ?_))
        rw [hNext, add_assoc, add_assoc]
    · intro hOutcome url hUrl
      rcases exists_place hUrl start with ⟨k, hk, rfl⟩
      refine hUpTo k ?_ _ rfl (subset_append_left _ _)
      have hTried := hWalked.tried
      dsimp only at hOutcome
      split at hOutcome
      · cases hOutcome
      · omega

theorem managerStep_sound {s : ConnectionManager}
    (hSound : ∀ read ∈ s.read, ReadSound config read) (action : ManagerAction) :
    ∀ read ∈ (managerStep config s action).read, ReadSound config read := by
  cases action with
  | others => exact hSound
  | executeRead =>
    rw [managerStep]
    split
    · exact hSound
    · rintro _ ⟨⟩
      exact ⟨fun _ => ⟨s.activeIndex, 0, rfl, le_rfl, nofun, le_rfl⟩, nofun⟩
  | attempt result now =>
    rw [managerStep]
    split
    · next read hRead =>
      split
      · next hGoesOn =>
        rcases (hSound read hRead).1 hGoesOn with ⟨start, gone, hWalked⟩
        unfold finishAttempt
        cases result with
        | value =>
          rintro _ ⟨⟩
          exact ⟨nofun, nofun⟩
        | error retryable =>
          have hMore : ∀ url, read.failed.count url ≤
              (read.currentUrl :: read.failed).count url := fun url => count_le_count_cons
          have hFailed : read.attempt + 1 ≤
              (read.currentUrl :: read.failed).count read.currentUrl := by
            rw [count_cons_self]
            exact succ_le_succ hWalked.attempts
          have hDown : ∀ k < gone, IsDown config
              { read with failed := read.currentUrl :: read.failed }
              (endpointAt config (start + k)) :=
            fun k hk => (hWalked.down k hk).imp_left (fun hOld => hOld.trans (hMore _))
          dsimp only
          split_ifs with _ hRetry
          · rintro _ ⟨⟩
            exact ⟨nofun, nofun⟩
          · rintro _ ⟨⟩
            refine ⟨fun _ => ⟨start, gone, hWalked.current, hWalked.tried, hDown, hFailed⟩, ?_⟩
            rw [hGoesOn]
            exact nofun
          · refine failover_sound hDistinct _ now ⟨hWalked.current, hWalked.tried, hDown,
              hWalked.attempts.trans (hMore _)⟩ ?_
            exact (succ_le_succ (not_lt.mp hRetry)).trans hFailed
      · exact hSound
    · exact hSound

omit hDistinct

/- With distinct endpoints, a read gives up rightly in every run. -/
theorem reads_give_up_rightly (hDistinct : config.endpointUrls.Nodup)
    (endpointHealth : String → EndpointHealthState) (activeIndex : Nat)
    (actions : List ManagerAction) :
    GivesUpRightly config
      (runSteps (managerStep config) ⟨endpointHealth, activeIndex, none⟩ actions) := by
  have hSound : ∀ read ∈ (runSteps (managerStep config) ⟨endpointHealth, activeIndex, none⟩
      actions).read, ReadSound config read :=
    List.foldlRecOn (motive := fun s => ∀ read ∈ s.read, ReadSound config read) actions
      (managerStep config) (by rintro _ ⟨⟩)
      (fun _ hSound action _ => managerStep_sound hDistinct hSound action)
  exact fun read hRead => (hSound read hRead).2

def healthyEndpoint : EndpointHealthState := ⟨true, 0, 0, none⟩

/- A read without retries that fails at every attempt. -/
def failingRead (urls : List String) : ConnectionManager :=
  runSteps (managerStep ⟨urls, 0, .ofInt 3, .ofInt 1, .ofInt 60000⟩)
    ⟨fun _ => healthyEndpoint, 0, none⟩
    (.executeRead :: List.replicate 3 (.attempt (.error true) (.ofInt 1)))

theorem failing_read_gives_up_rightly :
    GivesUpRightly ⟨["a", "b", "c"], 0, .ofInt 3, .ofInt 1, .ofInt 60000⟩
      (failingRead ["a", "b", "c"]) :=
  reads_give_up_rightly (by decide) _ _ _

/- With a URL that is there twice, the third endpoint is never asked. -/
theorem repeated_url_hides_an_endpoint :
    ¬ GivesUpRightly ⟨["a", "a", "b"], 0, .ofInt 3, .ofInt 1, .ofInt 60000⟩
      (failingRead ["a", "a", "b"]) := by
  intro hRightly
  have hRead : (failingRead ["a", "a", "b"]).read =
      some ⟨"b", 3, 0, ["a", "a", "a"], ["a"], some .allEndpointsUnhealthy⟩ := by decide +kernel
  rcases hRightly _ hRead rfl "b" (by decide) with hFailed | hSeen
  · exact absurd hFailed (by decide)
  · exact absurd hSeen (by decide)

end AgencCore.Connection
