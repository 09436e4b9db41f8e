import AgencCore.Foundations.Runs
import AgencCore.Gateway.RunStore

/-
  Fence tokens under interleaved calls.

  A claim raises the fence token of a run, and a save with an older token is rejected. Calls for a
  session run one at a time, but a collection writes the run it has read earlier, and with it the
  token of that time.
-/

namespace AgencCore.Gateway

open Foundations SessionStore Option List

def SessionStore.fence? (store : SessionStore) : Option Nat :=
  match store.run with
  | .valid run => some (fenceOf run.fenceToken)
  | _ => none

/- The token does not decrease while the run exists. -/
def TokenKept (before after : SessionStore) : Prop :=
  ∀ token ∈ before.fence?, ∀ token' ∈ after.fence?, token ≤ token'

/- The token of the run that a collection has read. -/
def CollectorWrite.fenceRead? : CollectorWrite → Option Nat
| .run read _ => some (fenceOf read.fenceToken)
| .wakeQueue _ _ => none

/-
  Times are finite, a release does not lower the token, and a collection writes while the token is
  the one it has read.
-/
def KeepsFence (state : SessionState) : SessionStep → Prop
| .claim _ _ now => now.isFinite = true
| .release _ now updates =>
  now.isFinite = true ∧
    ∀ token ∈ state.store.fence?, ∀ fenceToken ∈ updates.fenceToken, token ≤ fenceOf fenceToken
| .save _ run => run.updatedAt.isFinite = true
| .enqueue _ _ => True
| .deliver now _ => now.isFinite = true
| .proceed => True
| .collectLease now => now.isFinite = true
| .collectWake _ _ => True
| .collectorWrite index =>
  ∀ collector ∈ state.collectors[index]?,
    ∀ read ∈ collector.fenceRead?, ∀ token ∈ state.store.fence?, token = read

----------
-- Reads And Writes Of Runs
----------

theorem fenceOf_pos (fenceToken : JsNumber) : 0 < fenceOf fenceToken := by
  unfold fenceOf readPositive
  cases fenceToken with
  | finite q =>
    dsimp only
    split
    · rename_i hPos
      rw [getD_some]
      omega
    · exact Nat.one_pos
  | nan | posInf | negInf => exact Nat.one_pos

theorem fenceOf_ofInt {token : Nat} (hPos : 0 < token) : fenceOf (.ofInt token) = token := by
  unfold fenceOf
  rw [readPositive_ofInt hPos, getD_some]

@[simp] theorem fenceOf_coerceRun (run : BackgroundRun) :
    fenceOf (coerceRun run).fenceToken = fenceOf run.fenceToken :=
  fenceOf_ofInt (fenceOf_pos run.fenceToken)

/- A run that is stored has a time and a whole token. -/
structure BackgroundRun.IsRead (run : BackgroundRun) : Prop where
  updatedAt : run.updatedAt.isFinite = true
  token : run.fenceToken = .ofInt (fenceOf run.fenceToken)

def SessionStore.Read (store : SessionStore) : Prop := ∀ run, store.run = .valid run → run.IsRead

variable {run : BackgroundRun}

theorem readRun_isRead {read : BackgroundRun} (hRead : readRun run = .valid read) :
    read.IsRead ∧ fenceOf read.fenceToken = fenceOf run.fenceToken := by
  unfold readRun at hRead
  split at hRead
  · rename_i hTime
    cases hRead
    refine ⟨⟨hTime, ?_⟩, fenceOf_coerceRun _⟩
    rw [fenceOf_coerceRun]
    rfl
  · cases hRead

namespace SessionStore

variable {store : SessionStore}

theorem writeRun_read (store : SessionStore) (run : BackgroundRun) : (store.writeRun run).Read := by
  intro read hRead
  exact (readRun_isRead hRead).1

theorem writeRun_fence (store : SessionStore)
    (hTime : run.updatedAt.isFinite = true) :
    (store.writeRun run).fence? = some (fenceOf run.fenceToken) := by
  unfold fence? writeRun readRun
  rw [if_pos hTime]
  exact congrArg some (fenceOf_coerceRun _)

theorem loadRun_fence (store : SessionStore) : store.loadRun.2.fence? = store.fence? := by
  unfold loadRun fence?
  cases hRun : store.run <;> simp [hRun]

theorem loadRun_read (hRead : store.Read) : store.loadRun.2.Read := by
  unfold loadRun
  cases hRun : store.run with
  | absent | valid => exact hRead
  | damaged => exact nofun

@[simp] theorem overlay_fenceToken (store : SessionStore) (run : BackgroundRun) :
    (store.overlay run).fenceToken = run.fenceToken := by
  unfold overlay
  split <;> rfl

@[simp] theorem overlay_updatedAt (store : SessionStore) (run : BackgroundRun) :
    (store.overlay run).updatedAt = run.updatedAt := by
  unfold overlay
  split <;> rfl

theorem loadRun_some (hRead : store.Read)
    (hLoad : store.loadRun.1 = some run) :
    run.IsRead ∧ store.fence? = some (fenceOf run.fenceToken) := by
  unfold loadRun at hLoad
  cases hRun : store.run with
  | absent | damaged => simp [hRun] at hLoad
  | valid stored =>
    rw [hRun] at hLoad
    have hStored := hRead stored hRun
    have hLoaded : store.overlay stored = run := Option.some.inj hLoad
    rw [← hLoaded]
    refine ⟨⟨?_, ?_⟩, ?_⟩
    · rw [overlay_updatedAt]
      exact hStored.updatedAt
    · rw [overlay_fenceToken]
      exact hStored.token
    · rw [overlay_fenceToken, fence?, hRun]

end SessionStore

/- A save that passes has a token that is not older. -/
theorem le_of_saveRejection_eq_none {current validated : BackgroundRun} {owner : String}
    (hCurrent : current.IsRead) (hOwner : validated.leaseOwnerId = some owner)
    (hToken : validated.fenceToken = .ofInt (fenceOf validated.fenceToken))
    (hNone : saveRejection (some current) validated = none) :
    fenceOf current.fenceToken ≤ fenceOf validated.fenceToken := by
  unfold saveRejection at hNone
  rw [hOwner] at hNone
  dsimp only at hNone
  split at hNone
  · cases hNone
  · rename_i hLess
    rw [hCurrent.token, hToken, JsNumber.lt_ofInt] at hLess
    simpa using hLess

/- Up to its write, a save leaves the run alone. -/
theorem beginSave_fence {store : SessionStore} (hRead : store.Read) (host : HistoryHost)
    (support : TranscriptSupport) (validated : BackgroundRun) :
    (store.beginSave host support validated).2.Read ∧
      (store.beginSave host support validated).2.fence? = store.fence? := by
  let synced := store.syncConversationHistory host support .saveRun validated.internalHistory
  have hSynced : synced.Read := hRead
  exact ⟨loadRun_read hSynced, synced.loadRun_fence⟩

theorem beginSave_passed {store : SessionStore} (hRead : store.Read) {host : HistoryHost}
    {support : TranscriptSupport} {validated : BackgroundRun} {owner : String}
    (hOwner : validated.leaseOwnerId = some owner)
    (hToken : validated.fenceToken = .ofInt (fenceOf validated.fenceToken))
    (hPassed : (store.beginSave host support validated).1 = none) :
    ∀ token ∈ store.fence?, token ≤ fenceOf validated.fenceToken := by
  let synced := store.syncConversationHistory host support .saveRun validated.internalHistory
  have hSynced : synced.Read := hRead
  have hNone : saveRejection synced.loadRun.1 validated = none := hPassed
  intro token hFence
  cases hLoad : synced.loadRun.1 with
  | none =>
    have hGone : synced.fence? = none := by
      unfold SessionStore.loadRun at hLoad
      unfold SessionStore.fence?
      cases hRun : synced.run with
      | absent | damaged => rfl
      | valid run => simp [hRun] at hLoad
    have hSome : synced.fence? = some token := hFence
    rw [hGone] at hSome
    cases hSome
  | some current =>
    rcases loadRun_some hSynced hLoad with ⟨hIsRead, hCurrent⟩
    rw [hLoad] at hNone
    have hSome : synced.fence? = some token := hFence
    rw [hCurrent] at hSome
    cases hSome
    exact le_of_saveRejection_eq_none hIsRead hOwner hToken hNone

variable {instanceId : String}
variable {now : JsNumber}

theorem claimLease_eq_some {current : BackgroundRun} {workers : List WorkerRecord}
    {leaseDurationMs : JsNumber} (hCurrent : current.IsRead)
    (hClaim : claimLease current workers leaseDurationMs instanceId now = some run) :
    run.updatedAt = now ∧ fenceOf run.fenceToken = fenceOf current.fenceToken + 1 := by
  unfold claimLease at hClaim
  dsimp only at hClaim
  split at hClaim
  · cases hClaim
  · cases hClaim
    refine ⟨rfl, ?_⟩
    rw [fenceOf_coerceRun]
    have hAdd (token : Nat) : (JsNumber.ofInt token).add 1 = .ofInt ((token + 1 : Nat)) :=
      JsNumber.add_ofInt token 1
    have hNext : current.fenceToken.add 1 = .ofInt ((fenceOf current.fenceToken + 1 : Nat)) :=
      (congrArg (fun token => JsNumber.add token 1) hCurrent.token).trans (hAdd _)
    rw [hNext]
    exact fenceOf_ofInt (Nat.succ_pos _)

theorem releaseLease_eq_some {current : BackgroundRun}
    {updates : RunUpdates} (hRelease : releaseLease current instanceId now updates = some run) :
    run.updatedAt = now ∧
      fenceOf run.fenceToken = fenceOf (updates.fenceToken.getD current.fenceToken) := by
  unfold releaseLease at hRelease
  split at hRelease
  · cases hRelease
  · cases hRelease
    exact ⟨rfl, fenceOf_coerceRun _⟩

theorem collectLease_eq_some {next : BackgroundRun}
    (hCollect : collectLease run now = some next) :
    next.updatedAt = now ∧ next.fenceToken = run.fenceToken := by
  unfold collectLease at hCollect
  split at hCollect
  · cases hCollect
    exact ⟨rfl, rfl⟩
  · cases hCollect

theorem deliverDueWakeEvents_run (queue : WakeQueue)
    (limit : JsNumber) (hRun : run.updatedAt.isFinite = true) (hNow : now.isFinite = true) :
    (deliverDueWakeEvents run queue now limit).1.updatedAt.isFinite = true ∧
      fenceOf (deliverDueWakeEvents run queue now limit).1.fenceToken = fenceOf run.fenceToken := by
  unfold deliverDueWakeEvents
  dsimp only
  split
  · exact ⟨hRun, rfl⟩
  · exact ⟨hNow, fenceOf_coerceRun _⟩

----------
-- Fenced States
----------

/- What a call that has begun knows of the token. -/
def CallFenced (store : SessionStore) : PendingCall → Prop
| .claimed _ run =>
  run.updatedAt.isFinite = true ∧ ∃ token ∈ store.fence?, token < fenceOf run.fenceToken
| .saving _ run =>
  run.updatedAt.isFinite = true ∧ ∀ token ∈ store.fence?, token ≤ fenceOf run.fenceToken
| .released run =>
  run.updatedAt.isFinite = true ∧ ∀ token ∈ store.fence?, token ≤ fenceOf run.fenceToken
| .delivering (some run) now _ =>
  run.updatedAt.isFinite = true ∧ now.isFinite = true ∧ store.fence? = some (fenceOf run.fenceToken)
| .delivered run _ => run.updatedAt.isFinite = true ∧ store.fence? = some (fenceOf run.fenceToken)
| _ => True

/- A collection keeps the token that it has read. -/
def CollectorFenced (store : SessionStore) : CollectorWrite → Prop
| .run read write =>
  write.updatedAt.isFinite = true ∧ fenceOf write.fenceToken = fenceOf read.fenceToken ∧
    ∃ token, store.fence? = some token
| .wakeQueue _ _ => True

structure SessionState.Fenced (state : SessionState) : Prop where
  read : state.store.Read
  granted : ∀ grant ∈ state.grants, ∃ token ∈ state.store.fence?, grant.2 ≤ token
  increasing : state.grants.Pairwise (fun earlier later => earlier.2 < later.2)
  pending : ∀ call ∈ state.pending, CallFenced state.store call
  collectors : ∀ collector ∈ state.collectors, CollectorFenced state.store collector

/- The token is still there and has not decreased. -/
def TokenGrows (before after : SessionStore) : Prop :=
  ∀ token ∈ before.fence?, ∃ token' ∈ after.fence?, token ≤ token'

variable {before after : SessionStore}

theorem TokenGrows.of_eq (hSame : after.fence? = before.fence?) : TokenGrows before after := by
  intro token hToken
  exact ⟨token, by rw [hSame]; exact hToken, le_rfl⟩

theorem TokenGrows.kept (hGrows : TokenGrows before after) : TokenKept before after := by
  intro token hToken token' hToken'
  rcases hGrows token hToken with ⟨found, hFound, hLe⟩
  rw [mem_def.mp hToken'] at hFound
  cases hFound
  exact hLe

/- What a write that does not lower the token does to it. -/
theorem TokenGrows.writeRun {store : SessionStore}
    (hTime : run.updatedAt.isFinite = true)
    (hLe : ∀ token ∈ store.fence?, token ≤ fenceOf run.fenceToken) :
    TokenGrows store (store.writeRun run) := by
  intro token hToken
  exact ⟨_, store.writeRun_fence hTime, hLe token hToken⟩

theorem CallFenced.congr (hSame : after.fence? = before.fence?)
    {call : PendingCall} (hCall : CallFenced before call) : CallFenced after call := by
  cases call with
  | claimed | saving | released | delivered => exact ⟨hCall.1, by rw [hSame]; exact hCall.2⟩
  | enqueued | dequeued => trivial
  | delivering run now limit => cases run with
      | none => trivial
      | some run => exact ⟨hCall.1, hCall.2.1, by rw [hSame]; exact hCall.2.2⟩

theorem CollectorFenced.grows (hGrows : TokenGrows before after)
    {collector : CollectorWrite} (hCollector : CollectorFenced before collector) :
    CollectorFenced after collector := by
  cases collector with
  | run read write =>
    rcases hCollector with ⟨hTime, hToken, token, hFence⟩
    rcases hGrows token hFence with ⟨token', hFence', _⟩
    exact ⟨hTime, hToken, token', hFence'⟩
  | wakeQueue read write => trivial

namespace SessionState.Fenced

variable {state : SessionState}
variable {pending : Option PendingCall}
variable (hFenced : state.Fenced)
include hFenced

omit hFenced in
theorem idle {store : SessionStore} : ∀ call ∈ none, CallFenced store call :=
  fun _ hMem => nomatch hMem

/- The next state is fenced, and its token has not decreased. -/
def Advances (state next : SessionState) : Prop :=
  next.Fenced ∧ TokenGrows state.store next.store

theorem stays : Advances state state := ⟨hFenced, TokenGrows.of_eq rfl⟩

/- A step that leaves grants and collections alone. -/
theorem moved {store : SessionStore}
    {collectors : List CollectorWrite} (hRead : store.Read) (hGrows : TokenGrows state.store store)
    (hPending : ∀ call ∈ pending, CallFenced store call)
    (hCollectors : ∀ collector ∈ collectors,
      collector ∈ state.collectors ∨ CollectorFenced store collector) :
    Advances state ⟨store, pending, collectors, state.grants⟩ := by
  refine ⟨⟨hRead, ?_, hFenced.increasing, hPending, ?_⟩, hGrows⟩
  · intro grant hGrant
    rcases hFenced.granted grant hGrant with ⟨token, hToken, hLe⟩
    rcases hGrows token hToken with ⟨token', hToken', hLe'⟩
    exact ⟨token', hToken', hLe.trans hLe'⟩
  · intro collector hMem
    rcases hCollectors collector hMem with hOld | hNew
    · exact (hFenced.collectors collector hOld).grows hGrows
    · exact hNew

/- A call begins or goes on, and the token stays. -/
theorem called {store : SessionStore} (hRead : store.Read)
    (hFence : store.fence? = state.store.fence?)
    (hPending : ∀ call ∈ pending, CallFenced store call) :
    Advances state ⟨store, pending, state.collectors, state.grants⟩ :=
  hFenced.moved hRead (TokenGrows.of_eq hFence) hPending (fun _ => Or.inl)

/- A collection begins or ends, and the token stays. -/
theorem collected {store : SessionStore} {collectors : List CollectorWrite} (hRead : store.Read)
    (hFence : store.fence? = state.store.fence?)
    (hCollectors : ∀ collector ∈ collectors,
      collector ∈ state.collectors ∨ CollectorFenced store collector) :
    Advances state ⟨store, state.pending, collectors, state.grants⟩ :=
  hFenced.moved hRead (TokenGrows.of_eq hFence)
    (fun call hCall => (hFenced.pending call hCall).congr hFence) hCollectors

theorem readRunThen {next : BackgroundRun → Option PendingCall}
    (hNext : ∀ current, current.IsRead →
      state.store.fence? = some (fenceOf current.fenceToken) →
        ∀ call ∈ next current, CallFenced state.store call) :
    Advances state (state.readRunThen next) := by
  unfold SessionState.readRunThen
  cases hPending : state.pending with
  | some call => exact hFenced.stays
  | none =>
    have hFence := state.store.loadRun_fence
    refine hFenced.called (loadRun_read hFenced.read) hFence ?_
    intro call hCall
    rcases bind_eq_some_iff.mp hCall with ⟨current, hLoad, hCall⟩
    rcases loadRun_some hFenced.read hLoad with ⟨hIsRead, hToken⟩
    exact (hNext current hIsRead hToken call hCall).congr hFence

theorem beginSave (config : SessionConfig) (owner : String)
    (hTime : run.updatedAt.isFinite = true) :
    Advances state (state.beginSave config owner run) := by
  unfold SessionState.beginSave
  cases hPending : state.pending with
  | some call => exact hFenced.stays
  | none =>
    dsimp only
    set validated := coerceRun { run with leaseOwnerId := some owner } with hValidated
    have hToken : validated.fenceToken = .ofInt (fenceOf validated.fenceToken) := by
      rw [hValidated, fenceOf_coerceRun]
      rfl
    have hStore := beginSave_fence hFenced.read config.host config.support validated
    cases hSave : state.store.beginSave config.host config.support validated with
    | mk rejection store =>
      rw [hSave] at hStore
      cases rejection with
      | some rejection => exact hFenced.called hStore.1 hStore.2 idle
      | none =>
        refine hFenced.called hStore.1 hStore.2 ?_
        intro call hCall
        cases hCall
        refine ⟨hTime, ?_⟩
        rw [show store.fence? = _ from hStore.2]
        exact beginSave_passed hFenced.read rfl hToken (congrArg Prod.fst hSave)

/- The write of a run that does not lower the token. -/
theorem written (hTime : run.updatedAt.isFinite = true)
    (hLe : ∀ token ∈ state.store.fence?, token ≤ fenceOf run.fenceToken)
    (hPending : ∀ call ∈ pending, CallFenced (state.store.writeRun run) call) :
    Advances state { state with store := state.store.writeRun run, pending := pending } :=
  hFenced.moved (state.store.writeRun_read run) (TokenGrows.writeRun hTime hLe) hPending
    (fun _ => Or.inl)

theorem granted_claim {instanceId : String}
    (hCall : CallFenced state.store (.claimed instanceId run)) :
    Advances state
      { state with
        store := state.store.writeRun run, pending := none
        grants := state.grants ++ [(instanceId, fenceOf run.fenceToken)] } := by
  rcases hCall with ⟨hTime, token, hToken, hLess⟩
  have hOld (other : Nat) (hOther : other ∈ state.store.fence?) :
      other < fenceOf run.fenceToken := by
    rw [mem_def.mp hToken] at hOther
    cases hOther
    exact hLess
  have hWritten := hFenced.written hTime (fun other hOther => (hOld other hOther).le) idle
  refine ⟨{ hWritten.1 with granted := ?_, increasing := ?_ }, hWritten.2⟩
  · exact forall_mem_append.mpr ⟨hWritten.1.granted,
      forall_mem_singleton.mpr ⟨_, state.store.writeRun_fence hTime, le_rfl⟩⟩
  · refine pairwise_append.mpr ⟨hFenced.increasing, pairwise_singleton _ _, ?_⟩
    intro earlier hEarlier later hLater
    rw [mem_singleton.mp hLater]
    rcases hFenced.granted earlier hEarlier with ⟨stored, hStored, hLe⟩
    exact lt_of_le_of_lt hLe (hOld stored hStored)

theorem proceed : Advances state state.proceed := by
  unfold SessionState.proceed
  cases hPending : state.pending with
  | none => exact hFenced.stays
  | some call =>
    have hCall := hFenced.pending call hPending
    cases call with
    | claimed instanceId run => exact hFenced.granted_claim hCall
    | saving | released => exact hFenced.written hCall.1 hCall.2 idle
    | enqueued | dequeued => exact hFenced.called hFenced.read rfl idle
    | delivering run now limit => cases run with
        | none => exact hFenced.called hFenced.read rfl idle
        | some run =>
          refine hFenced.called hFenced.read rfl ?_
          intro call hNext
          cases hNext
          rcases deliverDueWakeEvents_run state.store.wakeQueue limit hCall.1
            hCall.2.1 with ⟨hTime, hToken⟩
          exact ⟨hTime, hCall.2.2.trans (congrArg some hToken.symm)⟩
    | delivered run queue =>
      refine hFenced.written hCall.1 ?_ ?_
      · intro token hToken
        rw [hCall.2] at hToken
        cases hToken
        exact le_rfl
      · intro call hNext
        cases hNext
        trivial

theorem beginCollectLease {now : JsNumber} (hNow : now.isFinite = true) :
    Advances state (state.beginCollectLease now) := by
  have hFence := state.store.loadRun_fence
  refine hFenced.collected (loadRun_read hFenced.read) hFence ?_
  intro collector hMem
  refine (mem_append.mp hMem).imp_right (fun hNew => ?_)
  rcases bind_eq_some_iff.mp (mem_toList.mp hNew) with ⟨run, hLoad, hMap⟩
  rcases map_eq_some_iff.mp hMap with ⟨next, hCollect, rfl⟩
  rcases collectLease_eq_some hCollect with ⟨hTime, hToken⟩
  rcases loadRun_some hFenced.read hLoad with ⟨_, hCurrent⟩
  exact ⟨by rw [hTime]; exact hNow, by rw [hToken], _, hFence.trans hCurrent⟩

theorem beginCollectWake (retention now : JsNumber) :
    Advances state (state.beginCollectWake retention now) := by
  refine hFenced.collected hFenced.read rfl ?_
  intro collector hMem
  refine (mem_append.mp hMem).imp_right (fun hNew => ?_)
  rcases map_eq_some_iff.mp (mem_toList.mp hNew) with ⟨next, _, rfl⟩
  trivial

theorem collectorWrite {index : Nat} (hKeeps : KeepsFence state (.collectorWrite index)) :
    Advances state (state.collectorWrite index) := by
  unfold SessionState.collectorWrite
  have hErased : ∀ collector ∈ state.collectors.eraseIdx index, collector ∈ state.collectors :=
    fun _ => mem_of_mem_eraseIdx
  cases hCollector : state.collectors[index]? with
  | none => exact hFenced.stays
  | some collector =>
    have hOwn := hFenced.collectors collector (mem_of_getElem? hCollector)
    cases collector with
    | run read write =>
      rcases hOwn with ⟨hTime, hToken, token, hStored⟩
      have hSame : token = fenceOf write.fenceToken := by
        rw [hToken]
        exact hKeeps _ hCollector _ rfl token hStored
      refine hFenced.collected (state.store.writeRun_read write) ?_
        (fun _ hMem => Or.inl (hErased _ hMem))
      rw [state.store.writeRun_fence hTime, hStored, hSame]
    | wakeQueue read write =>
      exact hFenced.collected hFenced.read rfl (fun _ hMem => Or.inl (hErased _ hMem))

theorem step (config : SessionConfig) {step : SessionStep}
    (hKeeps : KeepsFence state step) : Advances state (state.step config step) := by
  cases step with
  | claim workers instanceId now =>
    refine hFenced.readRunThen ?_
    intro current hRead hFence call hCall
    rcases map_eq_some_iff.mp hCall with ⟨run, hClaim, rfl⟩
    rcases claimLease_eq_some hRead hClaim with ⟨hTime, hToken⟩
    exact ⟨by rw [hTime]; exact hKeeps, fenceOf current.fenceToken, hFence,
      by rw [hToken]; exact Nat.lt_succ_self _⟩
  | release instanceId now updates =>
    refine hFenced.readRunThen ?_
    intro current hRead hFence call hCall
    rcases map_eq_some_iff.mp hCall with ⟨run, hRelease, rfl⟩
    rcases releaseLease_eq_some hRelease with ⟨hTime, hToken⟩
    refine ⟨by rw [hTime]; exact hKeeps.1, ?_⟩
    intro token hStored
    rw [hToken]
    cases hUpdate : updates.fenceToken with
    | none =>
      rw [hFence] at hStored
      cases hStored
      exact le_rfl
    | some fenceToken => exact hKeeps.2 token hStored fenceToken hUpdate
  | save owner run => exact hFenced.beginSave config owner hKeeps
  | enqueue params clock =>
    change Advances state (state.beginEnqueue params clock)
    unfold SessionState.beginEnqueue
    cases hPending : state.pending with
    | some call => exact hFenced.stays
    | none =>
      refine hFenced.called hFenced.read rfl ?_
      intro call hCall
      cases hCall
      trivial
  | deliver now limit =>
    change Advances state (state.beginDeliver now limit)
    unfold SessionState.beginDeliver
    cases hPending : state.pending with
    | some call => exact hFenced.stays
    | none =>
      have hFence := state.store.loadRun_fence
      refine hFenced.called (loadRun_read hFenced.read) hFence ?_
      intro call hCall
      have hCall : .delivering state.store.loadRun.1 now limit = call := Option.some.inj hCall
      rw [← hCall]
      cases hLoad : state.store.loadRun.1 with
      | none => trivial
      | some run =>
        rcases loadRun_some hFenced.read hLoad with ⟨hRead, hCurrent⟩
        exact ⟨hRead.updatedAt, hKeeps, hFence.trans hCurrent⟩
  | proceed => exact hFenced.proceed
  | collectLease now => exact hFenced.beginCollectLease hKeeps
  | collectWake retention now => exact hFenced.beginCollectWake retention now
  | collectorWrite index => exact hFenced.collectorWrite hKeeps

end SessionState.Fenced

end AgencCore.Gateway
