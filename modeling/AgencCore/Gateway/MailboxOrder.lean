import AgencCore.Gateway.Mailbox

/-
  The order in which workers get their mail.

  A claim takes the first pending message by time and, for equal times, by the text of the id, and
  `mail-10` comes before `mail-9`. Where equal times do not put ids in the wrong order, claims
  follow the order of the sends.
-/

namespace AgencCore.Gateway

open Foundations List

/- The mailboxes, the clock, and the messages claimed since the last repair. -/
structure DeliveryWorld where
  mailbox : Mailbox
  clock : ℚ
  claimed : List (String × Nat)

def MailboxCall.now : MailboxCall → ℚ
| .send now _ | .claim now _ _ _ | .acknowledge now _ _
| .markHandled now _ _ | .repair now => now

variable (host : TextHost)

def claimOf (mailbox : Mailbox) : MailboxCall → Option (String × MailboxMessage)
| .claim _ id workerId types =>
  (nextClaim host workerId types (mailbox.load id).messages).map (id, ·)
| _ => none

def deliveryStep (world : DeliveryWorld) (call : MailboxCall) : DeliveryWorld where
  mailbox := mailboxStep host world.mailbox call
  clock := call.now
  claimed :=
    match call with
    | .repair _ => []
    | _ => (claimOf host world.mailbox call).toList.map
        (fun claim => (claim.1, claim.2.number)) ++ world.claimed

/-
  The ids of each session are distinct, no message is claimed again before a repair, and a claim
  without types takes the pending message that was sent first.
-/
def Delivers (world : DeliveryWorld) (call : MailboxCall) : Prop :=
  (∀ id, OwnKey id → ((world.mailbox.load id).messages.map (·.number)).Nodup) ∧
  (∀ claim ∈ claimOf host world.mailbox call, (claim.1, claim.2.number) ∉ world.claimed) ∧
  ∀ now id workerId, call = .claim now id workerId none →
    nextClaim host workerId none (world.mailbox.load id).messages =
      ((world.mailbox.load id).messages.filter (claimable workerId none)).head?

/- Of two messages of one time, the first has the first id. -/
def TiesInOrder (messages : List MailboxMessage) : Prop :=
  messages.Pairwise (fun a b => a.createdAt = b.createdAt →
    (host.localeCompare ("mail-" ++ toString a.number) ("mail-" ++ toString b.number)).isLE = true)

/- A plain call, not before the clock, without wrong ties. -/
def InTurn (world : DeliveryWorld) (call : MailboxCall) : Prop :=
  PlainCall world.mailbox call ∧ world.clock ≤ call.now ∧ match call with
    | .claim _ id workerId none =>
      TiesInOrder host ((world.mailbox.load id).messages.filter (claimable workerId none))
    | _ => True

----------
-- Messages In Order
----------

/- The messages of a session are in the order of time. -/
def Timed (clock : ℚ) (messages : List MailboxMessage) : Prop :=
  (messages.map (·.createdAt)).Pairwise (· ≤ ·) ∧ ∀ time ∈ messages.map (·.createdAt), time ≤ clock

structure DeliverySound (world : DeliveryWorld) : Prop where
  sound : MailboxSound world.mailbox
  times : ∀ id, OwnKey id → Timed world.clock (world.mailbox.load id).messages
  claimed : ∀ claim ∈ world.claimed, OwnKey claim.1 ∧
    ∃ message ∈ (world.mailbox.load claim.1).messages,
      message.number = claim.2 ∧ message.status ≠ .pending

section Order

variable {host}
variable {world : DeliveryWorld}
variable {id : String}

theorem eq_of_number_eq {session : MailboxSession}
    (hSession : SessionSound id session) {a b : MailboxMessage} (hA : a ∈ session.messages)
    (hB : b ∈ session.messages) (hNumber : a.number = b.number) : a = b := by
  have hNodup : (session.messages.map (·.number)).Nodup :=
    List.pairwise_map.mpr (hSession.ordered.imp (fun h => Nat.ne_of_lt h))
  exact inj_on_of_nodup_map hNodup hA hB hNumber

variable {messages : List MailboxMessage}
variable {matched : MailboxMessage}

theorem mem_of_nextClaim {workerId : String} {types : Option (List MailboxType)}
    (hNext : nextClaim host workerId types messages = some matched) :
    matched ∈ messages ∧ matched.status = .pending := by
  have hMem := mem_of_mem_head? hNext
  rw [mem_sortBy, mem_filter] at hMem
  refine ⟨hMem.1, ?_⟩
  have hClaimable := hMem.2
  simp only [claimable, Bool.and_eq_true, decide_eq_true_eq] at hClaimable
  exact hClaimable.1.2

variable {call : MailboxCall}

theorem delivers_of_inTurn (h : DeliverySound world)
    (hTurn : InTurn host world call) : Delivers host world call := by
  refine ⟨fun id hKey => ?_, fun claim hClaim hAgain => ?_, ?_⟩
  · exact List.pairwise_map.mpr
      ((load_of_sound h.sound hKey).1.ordered.imp (fun hLt => Nat.ne_of_lt hLt))
  · rcases h.claimed _ hAgain with ⟨hKey, message, hMem, hNumber, hStatus⟩
    cases call with
    | send | acknowledge | markHandled | repair => cases hClaim
    | claim now id workerId types =>
      rcases Option.map_eq_some_iff.mp hClaim with ⟨matched, hNext, rfl⟩
      rcases mem_of_nextClaim hNext with ⟨hMatched, hPending⟩
      have hSame := eq_of_number_eq (load_of_sound h.sound hKey).1 hMem hMatched hNumber
      exact hStatus (hSame ▸ hPending)
  · rintro now id workerId rfl
    have hKey : OwnKey id := hTurn.1.1 id rfl
    have hTies : TiesInOrder host
        ((world.mailbox.load id).messages.filter (claimable workerId none)) := hTurn.2.2
    have hTimes := List.pairwise_map.mp (h.times id hKey).1
    unfold nextClaim
    rw [sortBy_eq_self]
    refine ((hTimes.filter _).and hTies).imp (fun hBoth => ?_)
    unfold compareMessages
    split
    · rename_i hNe
      rw [compare_lt_iff_lt.mpr (lt_of_le_of_ne hBoth.1 hNe)]
      rfl
    · rename_i hEq
      exact hBoth.2 (not_not.mp hEq)

/- A message that is not pending does not become so. -/
theorem updated_of_change
    (hCall : ∀ now, call ≠ .repair now) {message : MailboxMessage} (hMem : message ∈ messages)
    (hStatus : message.status ≠ .pending) :
    ∃ other ∈ call.change host messages,
      other.number = message.number ∧ other.status ≠ .pending := by
  have hFirst (isMeant : MailboxMessage → Bool) (now : ℚ)
      {status : MailboxStatus} (hNew : status ≠ .pending) :
      ∃ other ∈ updateFirst isMeant now status messages,
        other.number = message.number ∧ other.status ≠ .pending := by
    induction messages with
    | nil => cases hMem
    | cons first rest ih =>
      unfold updateFirst
      rcases List.mem_cons.mp hMem with rfl | hRest
      · split
        · exact ⟨_, mem_cons_self, rfl, hNew⟩
        · exact ⟨_, mem_cons_self, rfl, hStatus⟩
      · split
        · exact ⟨message, mem_cons_of_mem _ hRest, rfl, hStatus⟩
        · rcases ih hRest with ⟨other, hOther, hBoth⟩
          exact ⟨other, mem_cons_of_mem _ hOther, hBoth⟩
  cases call with
  | repair now => exact absurd rfl (hCall now)
  | send => exact ⟨message, hMem, rfl, hStatus⟩
  | claim | acknowledge | markHandled =>
    simp only [MailboxCall.change]
    repeat' split
    all_goals first
      | exact ⟨message, hMem, rfl, hStatus⟩
      | exact hFirst _ _ (by decide)

theorem mem_updateFirst
    (hMem : matched ∈ messages) (now : ℚ) (status : MailboxStatus) :
    { matched with status := status, updatedAt := now } ∈
      updateFirst (· = matched) now status messages := by
  induction messages with
  | nil => cases hMem
  | cons first rest ih =>
    unfold updateFirst
    split
    · rename_i hFirst
      rw [decide_eq_true_eq] at hFirst
      exact hFirst ▸ mem_cons_self
    · rename_i hFirst
      rcases List.mem_cons.mp hMem with rfl | hRest
      · simp at hFirst
      · exact mem_cons_of_mem _ (ih hRest)

variable {clock : ℚ}

theorem Timed.mono {later : ℚ}
    (hTimed : Timed clock messages) (hLater : clock ≤ later) : Timed later messages :=
  ⟨hTimed.1, fun time hTime => (hTimed.2 time hTime).trans hLater⟩

theorem Timed.follows {later : List MailboxMessage}
    (hTimed : Timed clock messages) (hFollows : Follows messages later) : Timed clock later := by
  have hTimes := congrArg (List.map Prod.snd) hFollows.map_eq
  rw [List.map_map, List.map_map] at hTimes
  have hSame : later.map (·.createdAt) = messages.map (·.createdAt) := hTimes
  unfold Timed
  rw [hSame]
  exact hTimed

theorem timed_mutateSession {mailbox : Mailbox} (hSound : MailboxSound mailbox)
    (hTimes : ∀ id, OwnKey id → Timed clock (mailbox.load id).messages)
    (hKey : OwnKey id) {change : List MailboxMessage → List MailboxMessage}
    (hChange : ∀ messages, Follows messages (change messages)) {other : String}
    (hOther : OwnKey other) :
    Timed clock ((mailbox.mutateSession id change).load other).messages := by
  have hSession := (hChange (mailbox.load id).messages).sound (load_of_sound hSound hKey).1
  rw [mutateSession_eq hSound hKey, load_set hSound hSession hOther]
  split
  · exact (hTimes id hKey).follows (hChange _)
  · exact hTimes other hOther

/- A call that changes the messages of one session. -/
theorem DeliverySound.mutated (h : DeliverySound world)
    (hKey : OwnKey id) (hCall : ∀ now, call ≠ .repair now) (hClock : world.clock ≤ call.now)
    (claimed : List (String × Nat))
    (hNew : ∀ claim ∈ claimed, claim.1 = id ∧
      ∃ message ∈ call.change host (world.mailbox.load id).messages,
        message.number = claim.2 ∧ message.status ≠ .pending) :
    DeliverySound
      ⟨world.mailbox.mutateSession id (fun messages => call.change host messages),
        call.now, claimed ++ world.claimed⟩ := by
  have hFollows (messages : List MailboxMessage) : Follows messages (call.change host messages) :=
    follows_change messages call
  have hSession := (hFollows _).sound (load_of_sound h.sound hKey).1
  have hLoad {other : String} (hOther : OwnKey other) := load_set h.sound hSession hOther
  refine ⟨(keeps_mutateSession h.sound hKey hFollows).sound,
    fun _ => timed_mutateSession h.sound (fun other hOther => (h.times other hOther).mono hClock)
      hKey hFollows, fun claim hClaim => ?_⟩
  rw [mutateSession_eq h.sound hKey]
  rcases List.mem_append.mp hClaim with hHere | hOld
  · rcases hNew claim hHere with ⟨rfl, hMessage⟩
    refine ⟨hKey, ?_⟩
    dsimp only
    rw [hLoad hKey, if_pos rfl]
    exact hMessage
  · rcases h.claimed claim hOld with ⟨hOther, message, hMem, hNumber, hStatus⟩
    refine ⟨hOther, ?_⟩
    dsimp only
    rw [hLoad hOther]
    split
    · rename_i hSame
      subst hSame
      rcases updated_of_change hCall hMem hStatus with ⟨other, hMem', hNumber', hStatus'⟩
      exact ⟨other, hMem', hNumber'.trans hNumber, hStatus'⟩
    · exact ⟨message, hMem, hNumber, hStatus⟩

theorem DeliverySound.step (h : DeliverySound world)
    (hTurn : InTurn host world call) : DeliverySound (deliveryStep host world call) := by
  rcases hTurn with ⟨hPlain, hClock, -⟩
  have hLater {id : String} (hKey : OwnKey id) := (h.times id hKey).mono hClock
  cases call with
  | acknowledge now id | markHandled now id =>
    exact h.mutated (hPlain.1 id rfl) (by simp) hClock [] (by simp)
  | claim now id workerId types =>
    refine h.mutated (hPlain.1 id rfl) (by simp) hClock _ ?_
    intro claim hClaim
    cases hNext : nextClaim host workerId types (world.mailbox.load id).messages with
    | none => simp [claimOf, hNext] at hClaim
    | some matched =>
      simp only [claimOf, hNext, Option.map_some,
        Option.toList_some, map_cons, map_nil, mem_singleton] at hClaim
      subst hClaim
      have hTaken := mem_updateFirst (mem_of_nextClaim hNext).1 now .acknowledged
      unfold MailboxCall.change
      dsimp only
      rw [hNext]
      exact ⟨rfl, _, hTaken, rfl, by simp⟩
  | repair now =>
    refine ⟨(keeps_step host h.sound hPlain).sound, ?_, by simp [deliveryStep]⟩
    have hSound := h.sound
    have hTimes : ∀ id, OwnKey id → Timed now (world.mailbox.load id).messages :=
      fun id hKey => hLater hKey
    have hKeys := ownKey_of_mem_keys h.sound
    change ∀ id, OwnKey id → Timed now
      ((world.mailbox.keys.foldl (fun mailbox key =>
        mailbox.mutateSession key (repairMessages now)) world.mailbox).load id).messages
    generalize world.mailbox.keys = keys at hKeys
    generalize world.mailbox = mailbox at hSound hTimes
    induction keys generalizing mailbox with
    | nil => exact hTimes
    | cons key rest ih =>
      have hKey := hKeys key mem_cons_self
      have hFollows (messages : List MailboxMessage) :
          Follows messages (repairMessages now messages) :=
        @follows_change host messages (.repair now)
      exact ih (fun id hMem => hKeys id (mem_cons_of_mem _ hMem)) _
        (keeps_mutateSession hSound hKey hFollows).sound
        (fun _ => timed_mutateSession hSound hTimes hKey hFollows)
  | send now draft =>
    have hKey : OwnKey draft.parentSessionId := hPlain.1 _ rfl
    have hSend := send_sound h.sound hPlain
    have hLoad {other : String} (hOther : OwnKey other) :=
      (congrArg (Mailbox.load · other) hSend.2).trans (load_set h.sound hSend.1 hOther)
    refine ⟨(keeps_step host h.sound hPlain).sound, fun id hId => ?_, fun claim hClaim => ?_⟩
    · change Timed now ((world.mailbox.send now draft).load id).messages
      rw [hLoad hId]
      split
      · have hOld := hLater hKey
        refine ⟨?_, ?_⟩ <;> simp only [map_append, map_cons, map_nil]
        · exact List.pairwise_append.mpr
            ⟨hOld.1, pairwise_singleton _ _,
              fun time hTime other hOther => (List.mem_singleton.mp hOther) ▸ hOld.2 time hTime⟩
        · intro time hTime
          rcases List.mem_append.mp hTime with hTime | hTime
          · exact hOld.2 time hTime
          · exact (List.mem_singleton.mp hTime).le
      · exact hLater hId
    · rcases h.claimed claim hClaim with ⟨hOther, message, hMem, hBoth⟩
      refine ⟨hOther, message, ?_, hBoth⟩
      change message ∈ ((world.mailbox.send now draft).load claim.1).messages
      rw [hLoad hOther]
      split
      · rename_i hSame
        exact mem_append_left _ (hSame ▸ hMem)
      · exact hMem

end Order

/-
  In every run of calls in turn, ids are distinct, messages are claimed once between repairs, and
  claims follow the order of the sends.
-/
theorem worker_mail_in_order {clock : ℚ} {calls : List MailboxCall}
    (hTurn : AlongRun (deliveryStep host) (InTurn host) ⟨.empty, clock, []⟩ calls) :
    AlongRun (deliveryStep host) (Delivers host) ⟨.empty, clock, []⟩ calls := by
  have hStep : ∀ world call, DeliverySound world → InTurn host world call →
      Delivers host world call ∧ DeliverySound (deliveryStep host world call) :=
    fun world call h hCall => ⟨delivers_of_inTurn h hCall, h.step hCall⟩
  refine AlongRun.of_invariant hStep ⟨?_, ?_, ?_⟩ hTurn
  · simp [MailboxSound]
  · simp [Mailbox.load, Timed]
  · simp

instance (world : DeliveryWorld) (call : MailboxCall) : Decidable (InTurn host world call) := by
  unfold InTurn TiesInOrder
  cases call with
  | claim _ _ _ types => cases types <;> exact inferInstance
  | _ => exact inferInstance

def tenShutdowns : List MailboxCall := List.replicate 10 (.send 0 (shutdownDraft "s"))

theorem second_message_second : AlongRun (deliveryStep .basic) (Delivers .basic) ⟨.empty, 0, []⟩
      [.send 0 (shutdownDraft "s"), .send 0 (shutdownDraft "s"),
        .claim 1 "s" "w" none, .claim 2 "s" "w" none] :=
  worker_mail_in_order .basic (by decide +kernel)

/- Of ten messages of one time, the tenth comes second. -/
theorem tenth_message_overtakes :
    let world := runSteps (deliveryStep .basic) ⟨.empty, 0, []⟩
      (tenShutdowns ++ [.claim 1 "s" "w" none])
    ¬ Delivers .basic world (.claim 2 "s" "w" none) := by
  intro world hDelivers
  have hHead := hDelivers.2.2 2 "s" "w" rfl
  revert hHead
  decide +kernel

end AgencCore.Gateway
