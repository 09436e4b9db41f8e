import AgencCore.Foundations.SortedLog
import AgencCore.Eval.Reports

/-
  Repeated and reordered deliveries.

  The place of an event in the projection counts every delivery that sorts before it, so a repeated
  delivery moves the events behind it. What the projection reports about lifecycles depends on the
  distinct events only.
-/

namespace AgencCore.Eval

open Foundations List

section

/-
  Inputs the projector accepts, with explicit sequence numbers; deliveries of one event differ in
  nothing else.
-/
structure Deliveries (host : EvalHost) (inputs : List OnChainProjectionInput) : Prop where
  accepted : ∀ input ∈ inputs, input.accepted = true
  votes : ∀ input ∈ inputs, VotesReadable host input
  numbered : ∀ input ∈ inputs, input.sourceEventSequence.isSome = true
  repeated : ∀ a ∈ inputs, ∀ b ∈ inputs, buildFingerprint host a = buildFingerprint host b →
        a.event = b.event ∧ a.timestampMs = b.timestampMs ∧ a.traceContext = b.traceContext

variable (host : EvalHost)

def itemOf (input : OnChainProjectionInput) : SortedItem := sortedItem host input 0

/- The order of events, whatever their sequence numbers. -/
def compareEvents : SortedItem → SortedItem → Ordering :=
  compareLex (compareField compare (·.input.slot))
    (compareLex (compareField host.text.localeCompare (·.input.signature))
      (compareLex (compareField compare SortedItem.trajectorySortKey)
        (compareLex (compareField host.text.localeCompare (·.input.eventName))
          (compareField host.text.localeCompare (fun item => item.fingerprint.text host)))))

def compareDeliveries : SortedItem → SortedItem → Ordering :=
  compareLex (compareEvents host) (compareField compare SortedItem.sourceEventSequence)

instance : Std.TransCmp (compareEvents host) := by
  unfold compareEvents
  infer_instance

instance : Std.TransCmp (compareDeliveries host) := by
  unfold compareDeliveries
  infer_instance

/- The collation tells the texts of the inputs apart. -/
structure Separated (inputs : List OnChainProjectionInput) : Prop where
  signatures : ∀ a ∈ inputs, ∀ b ∈ inputs,
      host.text.localeCompare a.signature b.signature = .eq → a.signature = b.signature
  names : ∀ a ∈ inputs, ∀ b ∈ inputs,
      host.text.localeCompare a.eventName b.eventName = .eq → a.eventName = b.eventName
  prints : ∀ a ∈ inputs, ∀ b ∈ inputs, host.text.localeCompare ((buildFingerprint host a).text host)
          ((buildFingerprint host b).text host) = .eq →
        buildFingerprint host a = buildFingerprint host b

variable {host}
variable {inputs : List OnChainProjectionInput}

theorem sortInputs_eq_sortBy_items (hDeliveries : Deliveries host inputs) :
    sortInputs host inputs = sortBy (compareItems host) (inputs.map (itemOf host)) := by
  unfold sortInputs
  congr 1
  apply ext_getElem?
  intro index
  rw [getElem?_mapIdx, getElem?_map]
  cases hGet : inputs[index]? with
  | none => rfl
  | some input =>
    rcases Option.isSome_iff_exists.mp
        (hDeliveries.numbered input (mem_of_getElem? hGet)) with ⟨sequence, hSequence⟩
    simp [itemOf, sortedItem, hSequence]

/- Where the collation separates, items are compared thus. -/
theorem compareItems_eq (hSeparated : Separated host inputs) {a b : OnChainProjectionInput}
    (ha : a ∈ inputs) (hb : b ∈ inputs) :
    compareItems host (itemOf host a) (itemOf host b) =
      compareDeliveries host (itemOf host a) (itemOf host b) := by
  have hSelf : ∀ s, host.text.localeCompare s s = .eq := cmp_self host.text.localeCompare
  have hInput : ∀ input, (itemOf host input).input = input := fun _ => rfl
  have hBuilt : ∀ input, (itemOf host input).fingerprint = buildFingerprint host input :=
    fun _ => rfl
  have hSignature : host.text.localeCompare a.signature b.signature = .eq ↔ _ :=
    ⟨hSeparated.signatures a ha b hb, fun hSame => hSame ▸ hSelf _⟩
  have hName : host.text.localeCompare a.eventName b.eventName = .eq ↔ _ :=
    ⟨hSeparated.names a ha b hb, fun hSame => hSame ▸ hSelf _⟩
  have hPrint : host.text.localeCompare ((buildFingerprint host a).text host)
      ((buildFingerprint host b).text host) = .eq ↔ _ :=
    ⟨hSeparated.prints a ha b hb, fun hSame => hSame ▸ hSelf _⟩
  simp only [compareItems, compareDeliveries, compareEvents, compareLex, compareField, hInput,
    hBuilt, ite_ne_eq_then compare_eq_iff_eq, ite_ne_eq_then hSignature, ite_ne_eq_then hName,
    ite_ne_eq_then hPrint, Ordering.then_assoc]

/- Two items are about one event if they have one print. -/
theorem compareEvents_eq_iff (hSeparated : Separated host inputs) {a b : OnChainProjectionInput}
    (ha : a ∈ inputs) (hb : b ∈ inputs) :
    compareEvents host (itemOf host a) (itemOf host b) = .eq ↔
      (itemOf host a).fingerprint = (itemOf host b).fingerprint := by
  constructor
  · intro hEq
    simp only [compareEvents, compareLex_eq_eq] at hEq
    exact hSeparated.prints a ha b hb hEq.2.2.2.2
  · intro hPrints
    have hFields := hPrints
    simp only [itemOf, sortedItem, buildFingerprint, Fingerprint.mk.injEq] at hFields
    rcases hFields with ⟨hSlot, hSignature, hName, _⟩
    simp only [compareEvents, compareLex_eq_eq, compareField, hPrints]
    simp only [itemOf, sortedItem, OnChainProjectionInput.typeText, OnChainProjectionInput.known?,
      hSlot, hSignature, hName]
    exact ⟨compare_eq_iff_eq.mpr rfl, cmp_self _ _, compare_eq_iff_eq.mpr rfl, cmp_self _ _,
      cmp_self _ _⟩

----------
-- The Same Deliveries
----------

/- The same inputs, in any order and number. -/
def SameDeliveries (inputs inputs' : List OnChainProjectionInput) : Prop :=
  ∀ input, input ∈ inputs' ↔ input ∈ inputs

/- Shuffled, with more copies of what is there. -/
def Redelivered (inputs inputs' : List OnChainProjectionInput) : Prop :=
  inputs.Subperm inputs' ∧ inputs' ⊆ inputs

theorem Redelivered.sameDeliveries {inputs inputs' : List OnChainProjectionInput}
    (hAgain : Redelivered inputs inputs') : SameDeliveries inputs inputs' :=
  fun _ => ⟨fun hIn => hAgain.2 hIn, fun hIn => hAgain.1.subset hIn⟩

/- The same events, disputes and violations. -/
structure SameProjection (result result' : ProjectionResult) : Prop where
  events : result'.events = result.events
  disputes : result'.disputes = result.disputes
  violations : result'.telemetry.transitionViolations = result.telemetry.transitionViolations

def ProjectedAlike (host : EvalHost) (options : ProjectionOptions)
    (inputs inputs' : List OnChainProjectionInput) : Prop :=
  ∃ result result', projectOnChainEvents host inputs options = .ok result ∧
      projectOnChainEvents host inputs' options = .ok result' ∧ SameProjection result result'

/- The number of deliveries of events that sort before. -/
def ahead (host : EvalHost) (inputs : List OnChainProjectionInput)
    (input : OnChainProjectionInput) : Nat :=
  inputs.countP (fun other => compareEvents host (itemOf host other) (itemOf host input) == .lt)

variable {host : EvalHost}
variable {inputs inputs' : List OnChainProjectionInput}
variable (hDeliveries : Deliveries host inputs)
include hDeliveries

theorem Deliveries.congr (hSame : SameDeliveries inputs inputs') : Deliveries host inputs' where
  accepted := fun input hInput => hDeliveries.accepted input ((hSame input).mp hInput)
  votes := fun input hInput => hDeliveries.votes input ((hSame input).mp hInput)
  numbered := fun input hInput => hDeliveries.numbered input ((hSame input).mp hInput)
  repeated := fun a ha b hb => hDeliveries.repeated a ((hSame a).mp ha) b ((hSame b).mp hb)

omit hDeliveries in
theorem Separated.congr (hSeparated : Separated host inputs)
    (hSame : SameDeliveries inputs inputs') : Separated host inputs' where
  signatures := fun a ha b hb => hSeparated.signatures a ((hSame a).mp ha) b ((hSame b).mp hb)
  names := fun a ha b hb => hSeparated.names a ((hSame a).mp ha) b ((hSame b).mp hb)
  prints := fun a ha b hb => hSeparated.prints a ((hSame a).mp ha) b ((hSame b).mp hb)

theorem Deliveries.eq_of_print {a b : OnChainProjectionInput}
    (ha : a ∈ inputs) (hb : b ∈ inputs) (hPrint : buildFingerprint host a = buildFingerprint host b)
    (hSequence : a.sourceEventSequence = b.sourceEventSequence) : a = b := by
  rcases hDeliveries.repeated a ha b hb hPrint with ⟨hEvent, hTimestamp, hTrace⟩
  simp only [buildFingerprint, Fingerprint.mk.injEq] at hPrint
  rcases hPrint with ⟨hSlot, hSignature, hName, _⟩
  cases a
  cases b
  simp_all

theorem mem_sortInputs_iff (item : SortedItem) :
    item ∈ sortInputs host inputs ↔ ∃ input ∈ inputs, itemOf host input = item := by
  rw [sortInputs_eq_sortBy_items hDeliveries, mem_sortBy, List.mem_map]

/- The sorted items, where the collation separates them. -/
theorem Deliveries.sortedByKey (hSeparated : Separated host inputs) :
    SortedByKey SortedItem.fingerprint (compareEvents host)
      (compareDeliveries host) (sortInputs host inputs) where
  sorted := by
    have hSort :
        sortInputs host inputs = sortBy (compareDeliveries host) (inputs.map (itemOf host)) := by
      rw [sortInputs_eq_sortBy_items hDeliveries]
      apply sortBy_congr
      simp only [forall_mem_map]
      exact fun a ha b hb => compareItems_eq hSeparated ha hb
    rw [hSort]
    exact pairwise_sortBy _ _
  refines := by
    intro s t hLe
    unfold compareDeliveries compareLex at hLe
    cases hCmp : compareEvents host s t with
    | lt | eq => rfl
    | gt => rw [hCmp] at hLe; cases hLe
  keys := by
    intro s hs t ht
    rcases (mem_sortInputs_iff hDeliveries s).mp hs with ⟨a, ha, rfl⟩
    rcases (mem_sortInputs_iff hDeliveries t).mp ht with ⟨b, hb, rfl⟩
    exact compareEvents_eq_iff hSeparated ha hb
  antisymm := by
    intro s hs t ht hEq
    rcases (mem_sortInputs_iff hDeliveries s).mp hs with ⟨a, ha, rfl⟩
    rcases (mem_sortInputs_iff hDeliveries t).mp ht with ⟨b, hb, rfl⟩
    rw [compareDeliveries, compareLex_eq_eq] at hEq
    have hPrint := (compareEvents_eq_iff hSeparated ha hb).mp hEq.1
    have hNumber := compare_eq_iff_eq.mp hEq.2
    rcases Option.isSome_iff_exists.mp (hDeliveries.numbered a ha) with ⟨m, hm⟩
    rcases Option.isSome_iff_exists.mp (hDeliveries.numbered b hb) with ⟨n, hn⟩
    simp only [itemOf, sortedItem, hm, hn, Option.getD_some] at hNumber
    rw [hDeliveries.eq_of_print ha hb hPrint (by rw [hm, hn, hNumber])]

theorem Deliveries.entryAccepted : ∀ entry ∈ entriesOf host inputs, entryAccepted entry = true := by
  intro entry hEntry
  rcases mem_of_mem_entriesOf hEntry with ⟨index, hInput, _⟩
  exact hDeliveries.accepted _ (mem_of_getElem? hInput)

/- Every delivery is accepted, so the first ones are kept. -/
theorem Deliveries.distinctEntries_eq :
    distinctEntries host inputs = firstEntries SortedItem.fingerprint (sortInputs host inputs) := by
  unfold distinctEntries
  rw [filter_eq_self.mpr hDeliveries.entryAccepted, insertAll_eq_append_newEntries]
  rfl

end

----------
-- What A Redelivery Changes
----------

section

variable {host : EvalHost}
variable {options : ProjectionOptions}
variable {inputs inputs' : List OnChainProjectionInput}
variable (hDeliveries : Deliveries host inputs)
include hDeliveries

theorem Deliveries.projects (hLenient : options.strictProjection = false) : ∃ result q,
      projectOnChainEvents host inputs options = .ok result ∧
        result.events = (distinctEntries host inputs).mapIdx (returnedEvent host) ∧
        ((distinctEntries host inputs).map Prod.snd).foldlM (reportItem host)
          (Projection.start 0) = .ok q ∧ result.disputes = q.disputeReplayStates ∧
        result.telemetry.transitionViolations = q.telemetry.transitionViolations := by
  rcases projectOnChainEvents_returns hDeliveries.votes hLenient with ⟨result, hOk⟩
  have hEvents := events_projectOnChainEvents hOk
  have hParts := hOk
  unfold projectOnChainEvents at hParts
  rcases (bind_eq_ok_iff _ _ _).mp hParts with ⟨p, hSorted, hResult⟩
  have hStart : Appended host [] (Projection.start inputs.length) := ⟨rfl, rfl⟩
  have hReports : SameReports (Projection.start inputs.length) (Projection.start 0) :=
    ⟨rfl, rfl, rfl, rfl, rfl, rfl⟩
  rcases reports_foldlM hDeliveries.entryAccepted hStart hReports hSorted with ⟨q, hRun, hSame⟩
  rw [hDeliveries.distinctEntries_eq] at hEvents ⊢
  split at hResult
  · cases hResult
  · cases hResult
    exact ⟨_, q, hOk, hEvents, hRun, hSame.replays.symm, hSame.violations.symm⟩

omit hDeliveries in
/- The place of an event in what is returned. -/
theorem places_of_events_eq {entries entries' : List Entry}
    (hEq : entries'.mapIdx (returnedEvent host) = entries.mapIdx (returnedEvent host)) :
    entries'.map Prod.fst = entries.map Prod.fst := by
  have hPlaces : ∀ l : List Entry, (l.mapIdx (returnedEvent host)).map (·.sourceEventSequence) =
          l.map Prod.fst := by
    intro l
    apply ext_getElem?
    intro index
    cases hGet : l[index]? <;>
      simp [getElem?_mapIdx, hGet, returnedEvent, entryEvent, projectedEvent]
  rw [← hPlaces entries', hEq, hPlaces entries]

/-
  Projections of the same deliveries report the same, so they differ at most in the places of the
  events.
-/
theorem projectedAlike_iff
    (hDeliveries' : Deliveries host inputs') (hLenient : options.strictProjection = false)
    (hItems :
      (distinctEntries host inputs').map Prod.snd = (distinctEntries host inputs).map Prod.snd) :
    ProjectedAlike host options inputs inputs' ↔
      (distinctEntries host inputs').map Prod.fst = (distinctEntries host inputs).map Prod.fst := by
  rcases hDeliveries.projects hLenient with ⟨result, q, hOk, hEvents, hRun, hDisputes, hViolations⟩
  rcases hDeliveries'.projects hLenient with
    ⟨result', q', hOk', hEvents', hRun', hDisputes', hViolations'⟩
  rw [hItems, hRun, Except.ok.injEq] at hRun'
  constructor
  · rintro ⟨r, r', hR, hR', hSame⟩
    rw [hOk, Except.ok.injEq] at hR
    rw [hOk', Except.ok.injEq] at hR'
    subst hR hR'
    have hEq := hSame.events
    rw [hEvents, hEvents'] at hEq
    exact places_of_events_eq hEq
  · intro hPlaces
    have hEntries : distinctEntries host inputs' = distinctEntries host inputs :=
      (zip_of_prod hPlaces hItems).trans (zip_of_prod rfl rfl).symm
    refine ⟨result, result', hOk, hOk', ?_, ?_, ?_⟩
    · rw [hEvents, hEvents', hEntries]
    · rw [hDisputes, hDisputes', hRun']
    · rw [hViolations, hViolations', hRun']

variable (hSeparated : Separated host inputs)
include hSeparated

/- The place of an entry counts the deliveries ahead. -/
theorem Deliveries.places : (distinctEntries host inputs).map Prod.fst =
      ((distinctEntries host inputs).map Prod.snd).map
        (fun item =>
          inputs.countP (fun other => compareEvents host (itemOf host other) item == .lt)) := by
  rw [List.map_map]
  apply map_congr_left
  intro entry hEntry
  rw [hDeliveries.distinctEntries_eq] at hEntry
  have hPlace := (hDeliveries.sortedByKey hSeparated).place hEntry
  rw [hPlace, sortInputs_eq_sortBy_items hDeliveries, (sortBy_perm _ _).countP_eq, countP_map]
  rfl

theorem Deliveries.places_eq_iff (hSame : SameDeliveries inputs inputs')
    (hItems :
      (distinctEntries host inputs').map Prod.snd = (distinctEntries host inputs).map Prod.snd) :
    (distinctEntries host inputs').map Prod.fst = (distinctEntries host inputs).map Prod.fst ↔
      ∀ input ∈ inputs, ahead host inputs' input = ahead host inputs input := by
  have hDeliveries' := hDeliveries.congr hSame
  have hSeparated' := hSeparated.congr hSame
  have hSorted := hDeliveries.sortedByKey hSeparated
  have hFirst : (distinctEntries host inputs).map Prod.snd =
        newEntries SortedItem.fingerprint [] (sortInputs host inputs) := by
    rw [hDeliveries.distinctEntries_eq, map_snd_firstEntries]
  rw [hDeliveries'.places hSeparated', hDeliveries.places hSeparated, hItems,
    map_inj_left, hFirst]
  constructor
  · intro hCounts input hInput
    have hMem : itemOf host input ∈ sortInputs host inputs :=
      (mem_sortInputs_iff hDeliveries _).mpr ⟨input, hInput, rfl⟩
    have hPrint : (itemOf host input).fingerprint ∈
          (newEntries SortedItem.fingerprint []
            (sortInputs host inputs)).map SortedItem.fingerprint :=
      mem_keys_newEntries_of_mem _ hMem
    rcases List.mem_map.mp hPrint with ⟨item, hItem, hEq⟩
    have hItemMem := (newEntries_sublist _ _ _).subset hItem
    have hCmp : compareEvents host item (itemOf host input) = .eq :=
      (hSorted.keys item hItemMem _ hMem).mpr hEq
    have hCongr : ∀ other, compareEvents host (itemOf host other) item =
            compareEvents host (itemOf host other) (itemOf host input) :=
      fun _ => Std.TransCmp.congr_right hCmp
    have hCount := hCounts item hItem
    simp only [hCongr] at hCount
    exact hCount
  · intro hAhead item hItem
    rcases (mem_sortInputs_iff hDeliveries item).mp ((newEntries_sublist _ _ _).subset hItem) with
      ⟨input, hInput, rfl⟩
    exact hAhead input hInput

/- The first items depend on which deliveries there are. -/
theorem Deliveries.items_eq (hSame : SameDeliveries inputs inputs') :
    (distinctEntries host inputs').map Prod.snd = (distinctEntries host inputs).map Prod.snd := by
  have hDeliveries' := hDeliveries.congr hSame
  rw [hDeliveries'.distinctEntries_eq, hDeliveries.distinctEntries_eq, map_snd_firstEntries,
    map_snd_firstEntries]
  apply SortedByKey.newEntries_eq (hDeliveries'.sortedByKey (hSeparated.congr hSame))
    (hDeliveries.sortedByKey hSeparated)
  intro item
  rw [mem_sortInputs_iff hDeliveries', mem_sortInputs_iff hDeliveries]
  simp only [hSame _]

omit hSeparated

/-
  Where the collation separates the inputs, a redelivery is projected alike exactly when every event
  has as many deliveries of other events ahead of it.
-/
theorem Deliveries.alike_iff_ahead
    (hLenient : options.strictProjection = false) (hSeparated : Separated host inputs)
    (hSame : SameDeliveries inputs inputs') :
    ProjectedAlike host options inputs inputs' ↔
      ∀ input ∈ inputs, ahead host inputs' input = ahead host inputs input := by
  have hItems := hDeliveries.items_eq hSeparated hSame
  rw [projectedAlike_iff hDeliveries (hDeliveries.congr hSame) hLenient hItems,
    hDeliveries.places_eq_iff hSeparated hSame hItems]

/- Another copy of the first delivery goes in front. -/
theorem Deliveries.sortInputs_cons_first
    {input : OnChainProjectionInput} (hInput : input ∈ inputs) {rest : List SortedItem}
    (hSort : sortInputs host inputs = itemOf host input :: rest) :
    Redelivered inputs (input :: inputs) ∧
      sortInputs host (input :: inputs) = itemOf host input :: itemOf host input :: rest := by
  have hAgain : Redelivered inputs (input :: inputs) :=
    ⟨(sublist_cons_self input inputs).subperm,
      List.cons_subset.mpr ⟨hInput, List.Subset.refl _⟩⟩
  have hSelf : compareItems host (itemOf host input) (itemOf host input) = .eq := by
    simp [compareItems]
  refine ⟨hAgain, ?_⟩
  rw [sortInputs_eq_sortBy_items hDeliveries] at hSort
  rw [sortInputs_eq_sortBy_items (hDeliveries.congr hAgain.sameDeliveries), map_cons]
  unfold sortBy at hSort ⊢
  rw [insertionSort_cons, hSort, orderedInsert_cons_of_le]
  rw [hSelf]
  rfl

/- The later first entries, counted from some place on. -/
def laterEntries (first : SortedItem) (place : Nat) (rest : List SortedItem) : List Entry :=
  newEntries entryPrint [first.fingerprint] (rest.mapIdx (fun index item => (place + index, item)))

omit hDeliveries in
theorem laterEntries_succ (first : SortedItem) (place : Nat) (rest : List SortedItem) :
    laterEntries first (place + 1) rest =
      (laterEntries first place rest).map (fun entry => (entry.1 + 1, entry.2)) := by
  unfold laterEntries
  rw [← newEntries_map entryPrint entryPrint (fun entry => (entry.1 + 1, entry.2)) (fun _ => rfl)]
  congr 1
  apply ext_getElem?
  intro index
  cases hGet : rest[index]? with
  | none => simp [getElem?_mapIdx, hGet]
  | some item =>
    simp only [getElem?_mapIdx, getElem?_map, hGet, Option.map_some, Option.some.injEq,
      Prod.mk.injEq, and_true]
    omega

omit hDeliveries in
theorem firstEntries_cons (first : SortedItem) (rest : List SortedItem) :
    firstEntries SortedItem.fingerprint (first :: rest) =
      (0, first) :: laterEntries first 1 rest := by
  unfold firstEntries laterEntries
  rw [mapIdx_cons, newEntries, if_neg not_mem_nil]
  congr 2
  apply List.mapIdx_eq_mapIdx_iff.mpr
  intro index _
  simp [Nat.add_comm]

/- A list with two events has a redelivery that shows. -/
theorem Deliveries.exists_not_alike
    (hLenient : options.strictProjection = false) {a b : OnChainProjectionInput} (ha : a ∈ inputs)
    (hb : b ∈ inputs) (hNe : buildFingerprint host a ≠ buildFingerprint host b) :
    ∃ inputs', Redelivered inputs inputs' ∧ ¬ ProjectedAlike host options inputs inputs' := by
  cases hSort : sortInputs host inputs with
  | nil =>
    have hMem := (mem_sortInputs_iff hDeliveries _).mpr ⟨a, ha, rfl⟩
    rw [hSort] at hMem
    cases hMem
  | cons first rest =>
    have hFirst : first ∈ sortInputs host inputs := hSort ▸ mem_cons_self
    rcases (mem_sortInputs_iff hDeliveries first).mp hFirst with ⟨input, hInput, rfl⟩
    rcases hDeliveries.sortInputs_cons_first hInput hSort with ⟨hAgain, hSort'⟩
    have hDeliveries' := hDeliveries.congr hAgain.sameDeliveries
    have hEntries := hDeliveries.distinctEntries_eq
    have hEntries' := hDeliveries'.distinctEntries_eq
    rw [hSort, firstEntries_cons] at hEntries
    rw [hSort', firstEntries_cons] at hEntries'
    -- The extra copy is not new and moves the others.
    have hMoved : laterEntries (itemOf host input) 1 (itemOf host input :: rest) =
          (laterEntries (itemOf host input) 1 rest).map (fun entry => (entry.1 + 1, entry.2)) := by
      rw [← laterEntries_succ]
      unfold laterEntries
      rw [mapIdx_cons, newEntries, if_pos (by simp [entryPrint])]
      congr 1
      apply List.mapIdx_eq_mapIdx_iff.mpr
      intro index _
      simp only [Prod.mk.injEq, and_true]
      omega
    rw [hMoved] at hEntries'
    refine ⟨input :: inputs, hAgain, ?_⟩
    rw [projectedAlike_iff hDeliveries hDeliveries' hLenient (by simp [hEntries, hEntries'])]
    intro hPlaces
    rw [hEntries, hEntries'] at hPlaces
    cases hLater : laterEntries (itemOf host input) 1 rest with
    | cons entry later =>
      rw [hLater] at hPlaces
      simp at hPlaces
    | nil =>
      -- Then every event would be the first one.
      have hOnly : ∀ other ∈ inputs, buildFingerprint host other = buildFingerprint host input := by
        intro other hOther
        have hMem : itemOf host other ∈ sortInputs host inputs :=
          (mem_sortInputs_iff hDeliveries _).mpr ⟨other, hOther, rfl⟩
        have hKey := mem_keys_newEntries_of_mem SortedItem.fingerprint hMem
        rw [← map_snd_firstEntries, hSort, firstEntries_cons, hLater] at hKey
        exact (by simpa using hKey :
          (itemOf host other).fingerprint = (itemOf host input).fingerprint)
      exact hNe ((hOnly a ha).trans (hOnly b hb).symm)

/- With one event there is nothing to count or separate. -/
theorem Deliveries.alike_of_one_event (hLenient : options.strictProjection = false)
    (hOne : ∀ a ∈ inputs, ∀ b ∈ inputs, buildFingerprint host a = buildFingerprint host b)
    (hSame : SameDeliveries inputs inputs') : ProjectedAlike host options inputs inputs' := by
  have hFields :
      ∀ a ∈ inputs, ∀ b ∈ inputs, a.signature = b.signature ∧ a.eventName = b.eventName := by
    intro a ha b hb
    have hPrint := hOne a ha b hb
    simp only [buildFingerprint, Fingerprint.mk.injEq] at hPrint
    exact ⟨hPrint.2.1, hPrint.2.2.1⟩
  have hSeparated : Separated host inputs :=
    ⟨fun a ha b hb _ => (hFields a ha b hb).1, fun a ha b hb _ => (hFields a ha b hb).2,
      fun a ha b hb _ => hOne a ha b hb⟩
  rw [hDeliveries.alike_iff_ahead hLenient hSeparated hSame]
  intro input hInput
  have hNone : ∀ l ⊆ inputs, ahead host l input = 0 := by
    intro l hSubset
    apply List.countP_eq_zero.mpr
    intro other hOther
    have hIn := hSubset hOther
    rw [(compareEvents_eq_iff hSeparated hIn hInput).mpr (hOne _ hIn _ hInput)]
    decide
  rw [hNone inputs' (fun other => (hSame other).mp), hNone inputs (Subset.refl _)]

omit hDeliveries

/-
  Every redelivery of a list is projected like the list exactly when the list holds a single event.
  A given redelivery, where the collation separates the inputs, is projected like the list exactly
  when each event has as many deliveries of other events ahead of it as before.
-/
theorem redelivery_keeps_projection_iff (host : EvalHost) {inputs : List OnChainProjectionInput}
    (hDeliveries : Deliveries host inputs) {options : ProjectionOptions}
    (hLenient : options.strictProjection = false) :
    ((∀ inputs', Redelivered inputs inputs' → ProjectedAlike host options inputs inputs') ↔
        ∀ a ∈ inputs, ∀ b ∈ inputs, buildFingerprint host a = buildFingerprint host b) ∧
      (Separated host inputs →
        ∀ inputs', Redelivered inputs inputs' →
          (ProjectedAlike host options inputs inputs' ↔
            ∀ input ∈ inputs, ahead host inputs' input = ahead host inputs input)) := by
  constructor
  · constructor
    · intro hLaw a ha b hb
      by_contra hNe
      rcases hDeliveries.exists_not_alike hLenient ha hb hNe with ⟨inputs', hAgain, hNot⟩
      exact hNot (hLaw inputs' hAgain)
    · intro hOne inputs' hAgain
      exact hDeliveries.alike_of_one_event hLenient hOne hAgain.sameDeliveries
  · intro hSeparated inputs' hAgain
    exact hDeliveries.alike_iff_ahead hLenient hSeparated hAgain.sameDeliveries

def sampleDelivery (eventName : String) : OnChainProjectionInput :=
  { eventName := eventName, event := .object [], slot := 1, signature := "sig"
    sourceEventSequence := some 0 }

theorem sampleDelivery_deliveries (names : List String)
    (hNames : ∀ name ∈ names, name ∈ ["taskCreated", "taskClaimed"]) :
    Deliveries EvalHost.basic (names.map sampleDelivery) := by
  have hKnown : ∀ name ∈ ["taskCreated", "taskClaimed"],
        (sampleDelivery name).accepted = true ∧
          (sampleDelivery name).known? ≠ some .disputeVoteCast := by decide
  constructor <;> simp only [forall_mem_map]
  · exact fun name hName => (hKnown name (hNames name hName)).1
  · exact fun name hName hVote => absurd hVote (hKnown name (hNames name hName)).2
  · exact fun _ _ => rfl
  · exact fun _ _ _ _ _ => ⟨rfl, rfl, rfl⟩

/- Copies of one event are projected alike, and so are two events in the other order. -/
theorem sample_events_redelivered :
    (∀ inputs', Redelivered [sampleDelivery "taskCreated"] inputs' →
        ProjectedAlike EvalHost.basic {} [sampleDelivery "taskCreated"] inputs') ∧
      ProjectedAlike EvalHost.basic {} (["taskCreated", "taskClaimed"].map sampleDelivery)
        (["taskClaimed", "taskCreated"].map sampleDelivery) := by
  have hOne := sampleDelivery_deliveries ["taskCreated"] (by decide)
  have hTwo := sampleDelivery_deliveries ["taskCreated", "taskClaimed"] (by decide)
  constructor
  · apply (redelivery_keeps_projection_iff EvalHost.basic hOne rfl).1.mpr
    intro a ha b hb
    rw [List.mem_singleton.mp ha, List.mem_singleton.mp hb]
  · refine ((redelivery_keeps_projection_iff EvalHost.basic hTwo rfl).2 ?_ _ ?_).mpr ?_
    · constructor <;> decide +kernel
    · exact ⟨(Perm.swap _ _ []).subperm, by simp⟩
    · decide +kernel

/- A second copy of the first event changes the sequence number of the second event from 1 to 2. -/
theorem repeated_delivery_renumbers :
    Deliveries EvalHost.basic (["taskCreated", "taskClaimed"].map sampleDelivery) ∧
      Redelivered (["taskCreated", "taskClaimed"].map sampleDelivery)
        (["taskCreated", "taskCreated", "taskClaimed"].map sampleDelivery) ∧
      ¬ ProjectedAlike EvalHost.basic {} (["taskCreated", "taskClaimed"].map sampleDelivery)
        (["taskCreated", "taskCreated", "taskClaimed"].map sampleDelivery) := by
  have hOnce : (projectOnChainEvents EvalHost.basic
          (["taskCreated", "taskClaimed"].map sampleDelivery) {}).toOption.map
        (fun result => result.events.map (·.sourceEventSequence)) =
        some [0, 1] := by decide +kernel
  have hTwice : (projectOnChainEvents EvalHost.basic
          (["taskCreated", "taskCreated", "taskClaimed"].map sampleDelivery) {}).toOption.map
        (fun result => result.events.map (·.sourceEventSequence)) =
        some [0, 2] := by decide +kernel
  refine ⟨sampleDelivery_deliveries _ (by decide), ⟨(sublist_cons_self _ _).subperm, by simp⟩, ?_⟩
  rintro ⟨result, result', hOk, hOk', hSame⟩
  rw [hOk] at hOnce
  rw [hOk'] at hTwice
  simp only [Except.toOption, Option.map_some, Option.some.injEq] at hOnce hTwice
  rw [hSame.events, hOnce] at hTwice
  revert hTwice
  decide

end

end AgencCore.Eval
