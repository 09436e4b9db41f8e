import AgencCore.Foundations.Milestones
import AgencCore.Foundations.OrderedMap
import AgencCore.Foundations.Runs

/-
  The queue that runs operations one after another per key.

  A call of `run` takes the gate stored for its key as its predecessor and stores its own gate. Its
  operation starts once the predecessor's gate is open, opens its own gate when it has settled, and
  the caller then gets the outcome and removes the gate if it is still the stored one.

  A call and its gate are named by the number of the call. Between two of these steps any other step
  may happen, of this key or of another one. The logs of starts, of settled operations and of
  outcomes handed to callers record what could be observed.
-/

namespace AgencCore.Utils

open Foundations List Option OrderedMap

/- How far a call has come, with the outcome once it has. -/
inductive CallPhase (β : Type) where
  | waiting
  | running
  | settled (outcome : β)
  | released (outcome : β)
  | done (outcome : β)

namespace CallPhase

variable {β : Type}

@[simp] def isWaiting : CallPhase β → Bool
| .waiting => true
| _ => false

@[simp] def isRunning : CallPhase β → Bool
| .running => true
| _ => false

/- What the operation settled with. -/
@[simp] def settlement : CallPhase β → Option β
| .waiting => none
| .running => none
| .settled outcome => some outcome
| .released outcome => some outcome
| .done outcome => some outcome

/- The gate of the call is open. -/
@[simp] def isReleased : CallPhase β → Bool
| .released _ => true
| .done _ => true
| _ => false

/- What the caller got. -/
@[simp] def delivery : CallPhase β → Option β
| .done outcome => some outcome
| _ => none

/- The steps that a call still has to take. -/
def remaining : CallPhase β → Nat
| .waiting => 4
| .running => 3
| .settled _ => 2
| .released _ => 1
| .done _ => 0

end CallPhase

structure QueueCall (κ β : Type) where
  key : κ
  previous : Option Nat
  phase : CallPhase β

structure KeyedAsyncQueue (κ β : Type) where
  calls : List (QueueCall κ β)
  chains : OrderedMap κ Nat
  starts : List (Nat × κ)
  settlements : List (Nat × β)
  deliveries : List (Nat × β)

inductive QueueEvent (κ β : Type) where
  | run (key : κ)
  | start (call : Nat)
  | settle (call : Nat) (outcome : β)
  | release (call : Nat)
  | finish (call : Nat)

/- The key of a new call. -/
def QueueEvent.runKey {κ β : Type} : QueueEvent κ β → Option κ
| .run key => some key
| _ => none

namespace KeyedAsyncQueue

variable {κ β : Type}

def empty : KeyedAsyncQueue κ β := ⟨[], .empty, [], [], []⟩

def phaseOf (q : KeyedAsyncQueue κ β) (call : Nat) : Option (CallPhase β) :=
  q.calls[call]?.map (·.phase)

def keyOf (q : KeyedAsyncQueue κ β) (call : Nat) : Option κ := q.calls[call]?.map (·.key)

/- The gate that a call has to wait for, if it found one. -/
def previousOf (q : KeyedAsyncQueue κ β) (call : Nat) : Option Nat :=
  q.calls[call]?.bind (·.previous)

def waitingAt (q : KeyedAsyncQueue κ β) (call : Nat) : Bool :=
  (q.phaseOf call).any CallPhase.isWaiting

def runningAt (q : KeyedAsyncQueue κ β) (call : Nat) : Bool :=
  (q.phaseOf call).any CallPhase.isRunning

def settledAt (q : KeyedAsyncQueue κ β) (call : Nat) : Bool :=
  (q.phaseOf call).any (·.settlement.isSome)

def releasedAt (q : KeyedAsyncQueue κ β) (call : Nat) : Bool :=
  (q.phaseOf call).any CallPhase.isReleased

def doneAt (q : KeyedAsyncQueue κ β) (call : Nat) : Bool :=
  (q.phaseOf call).any (·.delivery.isSome)

def gateOpen (q : KeyedAsyncQueue κ β) (call : Nat) : Bool := (q.previousOf call).all q.releasedAt

/- A call goes on to its next phase. -/
def move (q : KeyedAsyncQueue κ β) (call : Nat) (c : QueueCall κ β)
    (phase : CallPhase β) : KeyedAsyncQueue κ β :=
  { q with calls := q.calls.set call { c with phase := phase } }

variable [DecidableEq κ]

def step (q : KeyedAsyncQueue κ β) : QueueEvent κ β → KeyedAsyncQueue κ β
| .run key =>
  { q with
    calls := q.calls ++ [⟨key, q.chains.get? key, .waiting⟩]
    chains := q.chains.set key q.calls.length }
| .start call =>
  match q.calls[call]? with
  | some c =>
    match c.phase with
    | .waiting =>
      if q.gateOpen call then { q.move call c .running with starts := q.starts ++ [(call, c.key)] }
      else q
    | _ => q
  | none => q
| .settle call outcome =>
  match q.calls[call]? with
  | some c =>
    match c.phase with
    | .running =>
      { q.move call c (.settled outcome) with settlements := q.settlements ++ [(call, outcome)] }
    | _ => q
  | none => q
| .release call =>
  match q.calls[call]? with
  | some c =>
    match c.phase with
    | .settled outcome => q.move call c (.released outcome)
    | _ => q
  | none => q
| .finish call =>
  match q.calls[call]? with
  | some c =>
    match c.phase with
    | .released outcome =>
      { q.move call c (.done outcome) with
        chains := if q.chains.get? c.key = some call then q.chains.delete c.key
          else q.chains, deliveries := q.deliveries ++ [(call, outcome)] }
    | _ => q
  | none => q

/- Whether an event can happen now. -/
def enabled (q : KeyedAsyncQueue κ β) : QueueEvent κ β → Bool
| .run _ => true
| .start call => q.waitingAt call && q.gateOpen call
| .settle call _ => q.runningAt call
| .release call => q.settledAt call && !q.releasedAt call
| .finish call => q.releasedAt call && !q.doneAt call

/- The steps that the calls still have to take. -/
def remaining (q : KeyedAsyncQueue κ β) : Nat := (q.calls.map (·.phase.remaining)).sum

----------
-- Steps
----------

inductive Takes (q : KeyedAsyncQueue κ β) : QueueEvent κ β → KeyedAsyncQueue κ β → Prop where
  | run (key : κ) : Takes q (.run key)
        { q with
          calls := q.calls ++ [⟨key, q.chains.get? key, .waiting⟩]
          chains := q.chains.set key q.calls.length }
  | start {call : Nat} {c : QueueCall κ β} (hGet : q.calls[call]? = some c)
      (hPhase : c.phase = .waiting) (hOpen : q.gateOpen call = true) :
      Takes q (.start call) { q.move call c .running with starts := q.starts ++ [(call, c.key)] }
  | settle {call : Nat} {c : QueueCall κ β} (outcome : β) (hGet : q.calls[call]? = some c)
      (hPhase : c.phase = .running) :
      Takes q (.settle call outcome)
        { q.move call c (.settled outcome) with settlements := q.settlements ++ [(call, outcome)] }
  | release {call : Nat} {c : QueueCall κ β} {outcome : β} (hGet : q.calls[call]? = some c)
      (hPhase : c.phase = .settled outcome) :
      Takes q (.release call) (q.move call c (.released outcome))
  | finish {call : Nat} {c : QueueCall κ β} {outcome : β} (hGet : q.calls[call]? = some c)
      (hPhase : c.phase = .released outcome) :
      Takes q (.finish call)
        { q.move call c (.done outcome) with
          chains := if q.chains.get? c.key = some call then q.chains.delete c.key
            else q.chains, deliveries := q.deliveries ++ [(call, outcome)] }

omit [DecidableEq κ] in
/- A phase is read off the call it belongs to. -/
theorem any_phaseOf (q : KeyedAsyncQueue κ β) {call : Nat} {test : CallPhase β → Bool}
    (hTest : (q.phaseOf call).any test = true) :
    ∃ c, q.calls[call]? = some c ∧ test c.phase = true := by
  unfold phaseOf at hTest
  cases hGet : q.calls[call]? with
  | none => simp [hGet] at hTest
  | some c => exact ⟨c, rfl, by simpa [hGet] using hTest⟩

variable {q : KeyedAsyncQueue κ β}

omit [DecidableEq κ] in
theorem phaseOf_of_get {call : Nat} {c : QueueCall κ β}
    (hGet : q.calls[call]? = some c) : q.phaseOf call = some c.phase := by simp [phaseOf, hGet]

/- A step is what an event does if it can happen, and nothing otherwise. -/
theorem step_cases (event : QueueEvent κ β) :
    Takes q event (q.step event) ∨ q.step event = q ∧ q.enabled event = false := by
  cases event with
  | run key => exact .inl (.run key)
  | start call =>
    cases hGet : q.calls[call]? with
    | none => simp [step, hGet, enabled, waitingAt, phaseOf]
    | some c =>
      cases hOpen : q.gateOpen call <;> cases hPhase : c.phase <;>
        simp only [step, hGet, hPhase, hOpen, enabled, waitingAt, phaseOf] <;>
        first
          | exact .inl (.start hGet hPhase hOpen)
          | simp [hPhase]
  | settle call outcome | release call | finish call =>
    cases hGet : q.calls[call]? with
    | none => simp [step, hGet, enabled, runningAt, settledAt, releasedAt, phaseOf]
    | some c =>
      cases hPhase : c.phase <;>
        simp only [step, hGet, hPhase, enabled, runningAt, settledAt, releasedAt, doneAt,
          phaseOf] <;>
        first
          | exact .inl (.settle outcome hGet hPhase)
          | exact .inl (.release hGet hPhase)
          | exact .inl (.finish hGet hPhase)
          | simp [hPhase]

end KeyedAsyncQueue

----------
-- Order
----------

namespace KeyedAsyncQueue

variable {κ β : Type}

/- Every earlier call of the key has opened its gate. -/
def EarlierReleased (q : KeyedAsyncQueue κ β) (call : Nat) (key : κ) : Prop :=
  ∀ earlier < call, q.keyOf earlier = some key → q.releasedAt earlier = true

/-
  What a gate found for a key says of the calls before a place: it is the gate of the newest call of
  the key, or there is none and the calls of the key are over.
-/
def Follows (q : KeyedAsyncQueue κ β) (key : κ) (place : Nat) : Option Nat → Prop
| none => q.EarlierReleased place key
| some gate => gate < place ∧ q.keyOf gate = some key ∧
    ∀ between, gate < between → between < place → q.keyOf between ≠ some key

variable {q : KeyedAsyncQueue κ β}
variable {key : κ} {place : Nat} {found : Option Nat}

theorem Follows.mono {q' : KeyedAsyncQueue κ β} (hFollows : q.Follows key place found)
    (hKeys : ∀ call < place, q'.keyOf call = q.keyOf call)
    (hReleased : ∀ call < place, q.releasedAt call = true → q'.releasedAt call = true) :
    q'.Follows key place found := by
  cases found with
  | none =>
    intro earlier hLt hEarlier
    rw [hKeys earlier hLt] at hEarlier
    exact hReleased earlier hLt (hFollows earlier hLt hEarlier)
  | some gate =>
    rcases hFollows with ⟨hLt, hGate, hBetween⟩
    refine ⟨hLt, (hKeys gate hLt).trans hGate, fun between hAbove hBelow => ?_⟩
    rw [hKeys between hBelow]
    exact hBetween between hAbove hBelow

/- A call of another key changes nothing. -/
theorem Follows.succ (hFollows : q.Follows key place found) (hOther : q.keyOf place ≠ some key) :
    q.Follows key (place + 1) found := by
  cases found with
  | none =>
    intro earlier hLt hEarlier
    rcases Nat.lt_succ_iff_lt_or_eq.mp hLt with hBefore | rfl
    · exact hFollows earlier hBefore hEarlier
    · exact absurd hEarlier hOther
  | some gate =>
    rcases hFollows with ⟨hLt, hGate, hBetween⟩
    refine ⟨Nat.lt_succ_of_lt hLt, hGate, fun between hAbove hBelow => ?_⟩
    rcases Nat.lt_succ_iff_lt_or_eq.mp hBelow with hBefore | rfl
    · exact hBetween between hAbove hBefore
    · exact hOther

variable [DecidableEq κ]

/-
  The gates that calls have found and the stored ones follow the calls of their keys. Whatever has
  started came after calls that have opened their gates, and a stored gate is removed in the end.
-/
structure Chained (q : KeyedAsyncQueue κ β) : Prop where
  linked : ∀ call c, q.calls[call]? = some c → q.Follows c.key call c.previous
  started :
    ∀ call c, q.calls[call]? = some c → c.phase.isWaiting = false → q.EarlierReleased call c.key
  stored : ∀ key, q.Follows key q.calls.length (q.chains.get? key)
  pending : ∀ key gate, q.chains.get? key = some gate → q.doneAt gate = false

/- An open gate says that all earlier calls are over. -/
theorem Chained.earlierReleased_iff (hChained : q.Chained) (hFollows : q.Follows key place found) :
    found.all q.releasedAt = true ↔ q.EarlierReleased place key := by
  cases found with
  | none => exact iff_of_true rfl hFollows
  | some gate =>
    rcases hFollows with ⟨hLt, hGate, hBetween⟩
    refine ⟨fun hReleased => ?_, fun hEarlier => hEarlier gate hLt hGate⟩
    rcases q.any_phaseOf hReleased with ⟨c, hGet, hTest⟩
    have hKey : some c.key = some key := by rwa [keyOf, hGet] at hGate
    cases hKey
    have hBefore : q.EarlierReleased gate c.key := by
      apply hChained.started gate c hGet
      cases hPhase : c.phase <;> simp [hPhase] at hTest ⊢
    intro earlier hPlace hEarlier
    rcases lt_trichotomy earlier gate with hBelow | hSame | hAbove
    · exact hBefore earlier hBelow hEarlier
    · exact hSame ▸ hReleased
    · exact absurd hEarlier (hBetween earlier hAbove hPlace)

variable {call : Nat}
variable {c : QueueCall κ β}

/- A call may start as soon as all earlier calls are over. -/
theorem Chained.gateOpen_iff (hChained : q.Chained) (hGet : q.calls[call]? = some c) :
    q.gateOpen call = true ↔ q.EarlierReleased call c.key := by
  rw [gateOpen, previousOf, hGet, bind_some]
  exact hChained.earlierReleased_iff (hChained.linked call c hGet)

----------
-- Moving Calls
----------

section Moving

variable (hGet : q.calls[call]? = some c)
variable {phase : CallPhase β}
include hGet

omit [DecidableEq κ] in
theorem calls_move (phase : CallPhase β) (other : Nat) :
    (q.move call c phase).calls[other]? = if call = other then some { c with phase := phase }
      else q.calls[other]? := by
  have hLt : call < q.calls.length := (List.getElem?_eq_some_iff.mp hGet).1
  unfold move
  dsimp only
  rw [getElem?_set, if_pos hLt]

omit [DecidableEq κ] in
theorem phaseOf_move (phase : CallPhase β) (other : Nat) :
    (q.move call c phase).phaseOf other = if call = other then some phase
      else q.phaseOf other := by
  unfold phaseOf
  rw [calls_move hGet]
  split <;> rfl

omit [DecidableEq κ] in
/- Keys stay, and a gate that is open stays open. -/
theorem Follows.move (hKeeps : c.phase.isReleased = true → phase.isReleased = true)
    (hFollows : q.Follows key place found) : (q.move call c phase).Follows key place found := by
  refine hFollows.mono (fun other _ => ?_) (fun other _ hReleased => ?_)
  · unfold keyOf
    rw [calls_move hGet]
    split
    · next hEq => rw [← hEq, hGet, map_some, map_some]
    · rfl
  · unfold releasedAt at hReleased ⊢
    rw [phaseOf_move hGet]
    split
    · next hEq =>
        subst hEq
        rw [phaseOf_of_get hGet] at hReleased
        exact hKeeps hReleased
    · exact hReleased

/- A call that waits starts only through an open gate. The stored gates may change with it. -/
theorem Chained.move (hChained : q.Chained)
    (hKeeps : c.phase.isReleased = true → phase.isReleased = true)
    (hOpen : c.phase.isWaiting = true → q.gateOpen call = true) {chains : OrderedMap κ Nat}
    (hStored : ∀ key, q.Follows key q.calls.length (chains.get? key))
    (hPending : ∀ key gate, chains.get? key = some gate →
      (q.move call c phase).doneAt gate = false) :
    Chained { q.move call c phase with chains := chains } := by
  have hMoved {key : κ} {place : Nat} {found : Option Nat} (h : q.Follows key place found) :
      KeyedAsyncQueue.Follows { q.move call c phase with chains := chains } key place found :=
    (h.move hGet hKeeps).mono (fun _ _ => rfl) (fun _ _ => id)
  refine ⟨fun other d hOther => ?_, fun other d hOther hStarted => ?_, fun key => ?_, hPending⟩
  · change (q.move call c phase).calls[other]? = some d at hOther
    rw [calls_move hGet] at hOther
    split at hOther
    · next hSame =>
        cases hOther
        exact hSame ▸ hMoved (hChained.linked call c hGet)
    · exact hMoved (hChained.linked other d hOther)
  · change (q.move call c phase).calls[other]? = some d at hOther
    rw [calls_move hGet] at hOther
    refine @hMoved _ _ none ?_
    split at hOther
    · next hSame =>
        cases hOther
        subst hSame
        cases hWaiting : c.phase.isWaiting with
        | true => exact (hChained.gateOpen_iff hGet).mp (hOpen hWaiting)
        | false => exact hChained.started call c hGet hWaiting
    · exact hChained.started other d hOther hStarted
  · have hLength : (q.move call c phase).calls.length = q.calls.length := length_set
    exact hLength.symm ▸ hMoved (hStored key)

/- Steps before the last leave the stored gates. -/
theorem Chained.advance (hChained : q.Chained) (phase : CallPhase β)
    (hAfter : phase.delivery = none)
    (hKeeps : c.phase.isReleased = true → phase.isReleased = true)
    (hOpen : c.phase.isWaiting = true → q.gateOpen call = true) :
    (q.move call c phase).Chained := by
  refine hChained.move hGet hKeeps hOpen hChained.stored fun key gate hGate => ?_
  rw [doneAt, phaseOf_move hGet]
  split
  · rw [any_some, hAfter]
    rfl
  · exact hChained.pending key gate hGate

/- The last step removes the gate if it is the stored one. -/
theorem Chained.finish (hChained : q.Chained) {outcome : β} (hPhase : c.phase = .released outcome) :
    Chained { q.move call c (.done outcome) with
      chains := if q.chains.get? c.key = some call then q.chains.delete c.key
        else q.chains } := by
  have hReleased : q.releasedAt call = true := by rw [releasedAt, phaseOf_of_get hGet, hPhase]; rfl
  -- only its own key can have stored its gate
  have hOwn {key : κ} (hGate : q.chains.get? key = some call) : c.key = key := by
    have hFollows := hChained.stored key
    rw [hGate] at hFollows
    have hKey := hFollows.2.1
    rw [keyOf, hGet] at hKey
    exact Option.some.inj hKey
  have hChains (key : κ) : ((if q.chains.get? c.key = some call then q.chains.delete c.key
        else q.chains).get? key) =
          if q.chains.get? key = some call then none else q.chains.get? key := by
    by_cases hSame : c.key = key
    · subst hSame
      split
      · rw [get?_delete, if_pos rfl]
      · rfl
    · rw [if_neg (fun hGate => hSame (hOwn hGate))]
      split
      · rw [get?_delete, if_neg hSame]
      · rfl
  refine hChained.move hGet (fun _ => rfl) (by simp [hPhase]) (fun key => ?_) fun key gate => ?_
  · have hFollows := hChained.stored key
    rw [hChains]
    split
    · next hGate =>
      rw [hGate] at hFollows
      exact (hChained.earlierReleased_iff hFollows).mp hReleased
    · exact hFollows
  · rw [hChains, doneAt, phaseOf_move hGet]
    split
    · exact nofun
    · next hNot =>
      intro hGate
      rw [if_neg (fun hEq : call = gate => hNot (hEq ▸ hGate))]
      exact hChained.pending key gate hGate

end Moving

----------
-- New Calls
----------

/- A new call that takes the stored gate. -/
def accept (q : KeyedAsyncQueue κ β) (key : κ) : KeyedAsyncQueue κ β := q.step (.run key)

theorem calls_accept (q : KeyedAsyncQueue κ β) (key : κ) (call : Nat) :
    (q.accept key).calls[call]? =
      if call = q.calls.length then some ⟨key, q.chains.get? key, .waiting⟩
      else q.calls[call]? := by
  unfold accept step
  rcases lt_trichotomy call q.calls.length with hLt | rfl | hGt
  · rw [getElem?_append_left hLt, if_neg hLt.ne]
  · simp
  · rw [if_neg hGt.ne', getElem?_eq_none (by simpa using hGt), getElem?_eq_none hGt.le]

theorem Chained.accept (hChained : q.Chained) (key : κ) : (q.accept key).Chained := by
  have hOld {call : Nat} (hLt : call < q.calls.length) :
      (q.accept key).calls[call]? = q.calls[call]? :=
    (calls_accept q key call).trans (if_neg hLt.ne)
  have hNew : (q.accept key).calls[q.calls.length]? = some ⟨key, q.chains.get? key, .waiting⟩ :=
    (calls_accept q key _).trans (if_pos rfl)
  have hKept {other : κ} {place : Nat} {found : Option Nat} (hLe : place ≤ q.calls.length)
      (h : q.Follows other place found) : (q.accept key).Follows other place found := by
    refine h.mono (fun call hLt => ?_) (fun call hLt hReleased => ?_)
    · rw [keyOf, hOld (hLt.trans_le hLe), keyOf]
    · rwa [releasedAt, phaseOf, hOld (hLt.trans_le hLe)]
  have hBound {call : Nat} {c : QueueCall κ β} (hGet : q.calls[call]? = some c) :
      call ≤ q.calls.length := (List.getElem?_eq_some_iff.mp hGet).1.le
  refine ⟨fun call c hCall => ?_, fun call c hCall hStarted => ?_, fun other => ?_,
    fun other gate hGate => ?_⟩
  · rw [calls_accept] at hCall
    split at hCall
    · next hLast =>
        cases hCall
        exact hLast ▸ hKept le_rfl (hChained.stored key)
    · exact hKept (hBound hCall) (hChained.linked call c hCall)
  · rw [calls_accept] at hCall
    split at hCall
    · cases hCall
      cases hStarted
    · exact @hKept _ _ none (hBound hCall) (hChained.started call c hCall hStarted)
  · have hLength : (q.accept key).calls.length = q.calls.length + 1 := length_append
    have hChains : (q.accept key).chains.get? other =
        if key = other then some q.calls.length else q.chains.get? other :=
      get?_set _ _ _ _
    rw [hLength, hChains]
    split
    · next hSame =>
        refine ⟨Nat.lt_succ_self _, ?_, fun between hAbove hBelow => ?_⟩
        · rw [keyOf, hNew, ← hSame]
          rfl
        · exact absurd hBelow (by omega)
    · next hOther =>
        refine (hKept le_rfl (hChained.stored other)).succ ?_
        rw [keyOf, hNew]
        exact fun hKey => hOther (Option.some.inj hKey)
  · change (q.chains.set key q.calls.length).get? other = some gate at hGate
    rw [get?_set] at hGate
    split at hGate
    · cases hGate
      rw [doneAt, phaseOf, hNew]
      rfl
    · have hFollows := hChained.stored other
      rw [hGate] at hFollows
      rw [doneAt, phaseOf, hOld hFollows.1]
      exact hChained.pending other gate hGate

end KeyedAsyncQueue

----------
-- Coherence
----------

namespace QueueCall

variable {κ β : Type}

@[simp] def startedKey (c : QueueCall κ β) : Option κ :=
  if c.phase.isWaiting then none else some c.key

@[simp] def settlement (c : QueueCall κ β) : Option β := c.phase.settlement

@[simp] def delivery (c : QueueCall κ β) : Option β := c.phase.delivery

end QueueCall

namespace KeyedAsyncQueue

variable {κ β : Type}
variable [DecidableEq κ]

/- The operations of a key in the order they started. -/
def startsOf (q : KeyedAsyncQueue κ β) (key : κ) : List Nat :=
  (q.starts.filter (fun entry => entry.2 = key)).map Prod.fst

structure Coherent (q : KeyedAsyncQueue κ β) : Prop where
  chained : q.Chained
  started : Logged QueueCall.startedKey q.calls q.starts
  settled : Logged QueueCall.settlement q.calls q.settlements
  delivered : Logged QueueCall.delivery q.calls q.deliveries
  inOrder : ∀ key, (q.startsOf key).Pairwise (· < ·)

variable {q : KeyedAsyncQueue κ β}

/- An operation that starts comes after those that have. -/
theorem Coherent.startsOf_lt (hCoherent : q.Coherent) {call : Nat} {c : QueueCall κ β}
    (hGet : q.calls[call]? = some c) (hPhase : c.phase = .waiting) :
    ∀ earlier ∈ q.startsOf c.key, earlier < call := by
  intro earlier hMem
  rcases List.mem_map.mp hMem with ⟨⟨place, key⟩, hEntry, hPlace⟩
  rcases List.mem_filter.mp hEntry with ⟨hStart, hSame⟩
  have hKey : key = c.key := of_decide_eq_true hSame
  dsimp only at hPlace
  subst hKey hPlace
  rw [hCoherent.started.mem] at hStart
  rcases bind_eq_some_iff.mp hStart with ⟨d, hGet', hShows⟩
  unfold QueueCall.startedKey at hShows
  split at hShows
  · cases hShows
  · next hStarted =>
      by_contra hNot
      rcases (not_lt.mp hNot).lt_or_eq with hLt | hEq
      · -- The later operation started only after this one.
        have hReleased := hCoherent.chained.started _ d hGet' (by simpa using hStarted) call hLt
          (by rw [keyOf, hGet, hShows, map_some])
        rw [releasedAt, phaseOf_of_get hGet, hPhase] at hReleased
        cases hReleased
      · rw [← hEq, hGet] at hGet'
        rw [← Option.some.inj hGet', hPhase] at hStarted
        exact hStarted rfl

theorem Coherent.takes (hCoherent : q.Coherent) {event : QueueEvent κ β} {q' : KeyedAsyncQueue κ β}
    (hTakes : Takes q event q') : q'.Coherent := by
  have hLater := @hCoherent.startsOf_lt
  rcases hCoherent with ⟨hChained, hStarted, hSettled, hDelivered, hInOrder⟩
  cases hTakes with
  | run key =>
    exact ⟨hChained.accept key, hStarted.push rfl, hSettled.push rfl, hDelivered.push rfl, hInOrder⟩
  | @start call c hGet hPhase hOpen =>
    have hNext := hChained.advance hGet .running rfl (by simp [hPhase]) (fun _ => hOpen)
    refine ⟨{ hNext with }, hStarted.update_new hGet ?_ rfl, hSettled.update_same hGet ?_,
      hDelivered.update_same hGet ?_, ?inOrder⟩
    case inOrder =>
      intro key
      have hStarts : KeyedAsyncQueue.startsOf
              { q.move call c .running with starts := q.starts ++ [(call, c.key)] } key =
            q.startsOf key ++ if c.key = key then [call] else [] := by
        unfold startsOf
        rw [filter_append, map_append]
        by_cases hSame : c.key = key <;> simp [hSame]
      rw [hStarts]
      split
      · next hSame =>
          subst hSame
          exact List.pairwise_append.mpr
            ⟨hInOrder c.key, pairwise_singleton _ _,
              fun earlier hMem last hLast =>
                List.mem_singleton.mp hLast ▸ hLater hGet hPhase earlier hMem⟩
      · rw [append_nil]
        exact hInOrder key
    all_goals simp [hPhase]
  | @settle call c outcome hGet hPhase =>
    have hNext := hChained.advance hGet (.settled outcome) rfl (by simp [hPhase]) (by simp [hPhase])
    refine ⟨{ hNext with }, hStarted.update_same hGet ?_, hSettled.update_new hGet ?_ rfl,
      hDelivered.update_same hGet ?_, hInOrder⟩
    all_goals simp [hPhase]
  | @release call c outcome hGet hPhase =>
    have hNext := hChained.advance hGet (.released outcome) rfl (fun _ => rfl) (by simp [hPhase])
    refine ⟨hNext, hStarted.update_same hGet ?_, hSettled.update_same hGet ?_,
      hDelivered.update_same hGet ?_, hInOrder⟩
    all_goals simp [hPhase]
  | @finish call c outcome hGet hPhase =>
    have hNext := hChained.finish hGet hPhase
    refine ⟨{ hNext with }, hStarted.update_same hGet ?_, hSettled.update_same hGet ?_,
      hDelivered.update_new hGet ?_ rfl, hInOrder⟩
    all_goals simp [hPhase]

/- An event that cannot happen changes nothing. -/
theorem Coherent.step
    (hCoherent : q.Coherent)
    (event : QueueEvent κ β) :
    (q.step event).Coherent := by
  rcases step_cases event with hTakes | ⟨hSame, _⟩
  · exact hCoherent.takes hTakes
  · exact hSame.symm ▸ hCoherent

end KeyedAsyncQueue

namespace KeyedAsyncQueue

variable {κ β : Type}
variable [DecidableEq κ]
variable {q : KeyedAsyncQueue κ β}

/-
  The calls of a queue are those that a run has made, in their order, and an operation starts and
  settles only as the run has it.
-/
structure Recorded
    (q : KeyedAsyncQueue κ β)
    (events : List (QueueEvent κ β)) : Prop where
  calls : q.calls.map (·.key) = events.filterMap QueueEvent.runKey
  starts : ∀ call key, (call, key) ∈ q.starts → .start call ∈ events
  settlements : ∀ call outcome, (call, outcome) ∈ q.settlements → .settle call outcome ∈ events

omit [DecidableEq κ] in
/- An event that is no new call leaves the record right. -/
theorem Recorded.later
    {events : List (QueueEvent κ β)}
    (hRecorded : q.Recorded events)
    (event : QueueEvent κ β)
    (hOther : event.runKey = none) :
    q.Recorded (events ++ [event]) := by
  refine ⟨?_, fun call key hMem => ?_, fun call outcome hMem => ?_⟩
  · simp [hRecorded.calls, hOther]
  · exact mem_append_left _ (hRecorded.starts call key hMem)
  · exact mem_append_left _ (hRecorded.settlements call outcome hMem)

/- What an event does is recorded. -/
theorem Recorded.takes
    {events : List (QueueEvent κ β)}
    (hRecorded : q.Recorded events)
    {event : QueueEvent κ β}
    {q' : KeyedAsyncQueue κ β}
    (hTakes : Takes q event q') :
    q'.Recorded (events ++ [event]) := by
  have hKeys {call : Nat} {c : QueueCall κ β} (phase : CallPhase β)
      (hGet : q.calls[call]? = some c) :
      (q.move call c phase).calls.map (·.key) = q.calls.map (·.key) :=
    map_set_of_eq hGet rfl
  cases hTakes with
  | run key =>
    refine ⟨?_, fun call key hMem => ?_, fun call outcome hMem => ?_⟩
    · simp [hRecorded.calls, QueueEvent.runKey]
    · exact mem_append_left _ (hRecorded.starts call key hMem)
    · exact mem_append_left _ (hRecorded.settlements call outcome hMem)
  | @start call c hGet hPhase hOpen =>
    have hLater := hRecorded.later (.start call) rfl
    refine ⟨(hKeys _ hGet).trans hLater.calls, fun other key hMem => ?_, hLater.settlements⟩
    rcases mem_append.mp hMem with hOld | hNew
    · exact hLater.starts other key hOld
    · simp [(Prod.mk.inj (mem_singleton.mp hNew)).1]
  | @settle call c outcome hGet hPhase =>
    have hLater := hRecorded.later (.settle call outcome) rfl
    refine ⟨(hKeys _ hGet).trans hLater.calls, hLater.starts, fun other result hMem => ?_⟩
    rcases mem_append.mp hMem with hOld | hNew
    · exact hLater.settlements other result hOld
    · rcases Prod.mk.inj (mem_singleton.mp hNew) with ⟨rfl, rfl⟩
      simp
  | @release call c outcome hGet hPhase =>
    have hLater := hRecorded.later (.release call) rfl
    exact ⟨(hKeys _ hGet).trans hLater.calls, hLater.starts, hLater.settlements⟩
  | @finish call c outcome hGet hPhase =>
    have hLater := hRecorded.later (.finish call) rfl
    exact ⟨(hKeys _ hGet).trans hLater.calls, hLater.starts, hLater.settlements⟩

end KeyedAsyncQueue

end AgencCore.Utils
