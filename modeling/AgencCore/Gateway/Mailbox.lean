import AgencCore.Foundations.OrderedMap
import AgencCore.Foundations.Runs
import AgencCore.Foundations.Text

/-
  The mailboxes of persistent workers.

  Every operation loads a session, trims what it reads, and saves the session under the id that it
  read. A session whose id has white space around it is therefore saved into another mailbox, and
  texts that are not trimmed come back changed. With trimmed ids and texts, messages are kept and
  mailboxes are separate.
-/

namespace AgencCore.Gateway

open Foundations List Option OrderedMap

inductive MailboxDirection where
  | parentToWorker
  | workerToParent
deriving DecidableEq

inductive MailboxStatus where
  | pending
  | acknowledged
  | handled
deriving DecidableEq

inductive MailboxType where
  | idleNotification
  | permissionRequest
  | permissionResponse
  | shutdownRequest
  | taskAssignment
  | modeChange
  | verifierResult
  | workerSummary
deriving DecidableEq

/- The fields of a type of message. -/
structure MailboxSchema where
  direction : MailboxDirection
  required : List String
  optional : List String
  choice : Option (String × List String)

def MailboxType.schema : MailboxType → MailboxSchema
| .idleNotification => ⟨.workerToParent, ["summary"], [], none⟩
| .permissionRequest =>
  ⟨.workerToParent, ["approvalRequestId", "message"],
    ["toolName", "subagentSessionId", "approverGroup"], none⟩
| .permissionResponse =>
  ⟨.parentToWorker, ["approvalRequestId"], ["approvedBy"],
    some ("disposition", ["yes", "no", "always"])⟩
| .shutdownRequest => ⟨.parentToWorker, [], ["reason"], none⟩
| .taskAssignment => ⟨.parentToWorker, ["taskId", "objective"], ["summary"], none⟩
| .modeChange => ⟨.parentToWorker, ["body"], ["subject"], none⟩
| .verifierResult =>
  ⟨.workerToParent, [], ["summary"], some ("overall", ["pass", "fail", "retry", "skipped"])⟩
| .workerSummary =>
  ⟨.workerToParent, ["summary"], [],
    some ("state", ["starting", "running", "idle",
      "waiting_for_permission", "verifying", "completed", "failed", "cancelled"])⟩

/- A message; the number is that of its id `mail-N`, and the texts are its fields by name. -/
structure MailboxMessage where
  number : Nat
  type : MailboxType
  parentSessionId : String
  workerId : String
  direction : MailboxDirection
  texts : List (String × String)
  requiredApproverRoles : Option (List String)
  status : MailboxStatus
  createdAt : ℚ
  updatedAt : ℚ
deriving DecidableEq

def asNonEmptyString (text : String) : Option String :=
  if trim text = "" then none else some (trim text)

/- The text fields that survive, trimmed. -/
def coerceTexts (names : List String) (texts : List (String × String)) : List (String × String) :=
  names.filterMap (fun name => ((Entries.lookup name texts).bind asNonEmptyString).map (name, ·))

namespace MailboxMessage

/- `coerceRuntimeMailboxMessage` -/
def coerce (message : MailboxMessage) : Option MailboxMessage := do
  let schema := message.type.schema
  let parentSessionId ← asNonEmptyString message.parentSessionId
  let workerId ← asNonEmptyString message.workerId
  let texts := coerceTexts
    (["taskId", "correlationId"] ++ schema.required ++ schema.optional).eraseDups message.texts
  let chosen ← match schema.choice with
    | none => some []
    | some (name, values) =>
      ((Entries.lookup name message.texts).filter (· ∈ values)).map (fun value => [(name, value)])
  if message.direction = schema.direction ∧
      schema.required.all (fun name => (Entries.lookup name texts).isSome) then
    some { message with
      parentSessionId := parentSessionId, workerId := workerId, texts := texts ++ chosen
      requiredApproverRoles :=
        if message.type = .permissionRequest then message.requiredApproverRoles
        else none }
  else none

/- A message that is read as it was written. -/
def Settled (message : MailboxMessage) : Prop := message.coerce = some message

/- The same message, but for its status and its update. -/
def SameContent (message other : MailboxMessage) : Prop :=
  other = { message with status := other.status, updatedAt := other.updatedAt }

theorem coerce_with (message : MailboxMessage) (status : MailboxStatus) (updatedAt : ℚ) :
    { message with status := status, updatedAt := updatedAt }.coerce =
      message.coerce.map (fun coerced =>
        { coerced with status := status, updatedAt := updatedAt }) := by
  unfold coerce
  cases asNonEmptyString message.parentSessionId with
  | none => rfl
  | some parent => cases asNonEmptyString message.workerId with
      | none => rfl
      | some worker =>
        dsimp only [bind_eq_bind, bind_some]
        rcases message.type.schema.choice with _ | ⟨name, values⟩
        · dsimp only [bind_some]
          split <;> rfl
        · dsimp only
          cases Option.filter (· ∈ values) (Entries.lookup name message.texts) with
          | none => rfl
          | some value =>
            dsimp only [map_some, bind_some]
            split <;> rfl

theorem Settled.with {message : MailboxMessage} (hSettled : message.Settled)
    (status : MailboxStatus) (updatedAt : ℚ) :
    { message with status := status, updatedAt := updatedAt }.Settled := by
  unfold Settled
  rw [coerce_with, hSettled]
  rfl

end MailboxMessage

----------
-- Sessions
----------

structure MailboxSession where
  parentSessionId : String
  nextMessageNumber : Nat
  messages : List MailboxMessage
deriving DecidableEq

/- What the backend holds, by session id. -/
abbrev Mailbox := OrderedMap String MailboxSession

namespace Mailbox

def load (mailbox : Mailbox) (parentSessionId : String) : MailboxSession :=
  match mailbox.get? parentSessionId with
  | none => ⟨parentSessionId, 1, []⟩
  | some raw =>
    { parentSessionId := (asNonEmptyString raw.parentSessionId).getD parentSessionId
      nextMessageNumber := if 0 < raw.nextMessageNumber then raw.nextMessageNumber
        else 1, messages := raw.messages.filterMap MailboxMessage.coerce }

def save (mailbox : Mailbox) (session : MailboxSession) : Mailbox :=
  mailbox.set session.parentSessionId session

def mutateSession (mailbox : Mailbox) (parentSessionId : String)
    (change : List MailboxMessage → List MailboxMessage) : Mailbox :=
  let session := mailbox.load parentSessionId
  mailbox.save { session with messages := change session.messages }

/- The message that `createMessage` makes of a draft. -/
def createMessage (mailbox : Mailbox) (now : ℚ) (draft : MailboxMessage) : MailboxMessage :=
  { draft with
    number := (mailbox.load draft.parentSessionId).nextMessageNumber, status := .pending
    createdAt := now, updatedAt := now }

def send (mailbox : Mailbox) (now : ℚ) (draft : MailboxMessage) : Mailbox :=
  let session := mailbox.load draft.parentSessionId
  mailbox.save
    { session with
      nextMessageNumber := session.nextMessageNumber + 1
      messages := session.messages ++ [mailbox.createMessage now draft] }

def getMessage (mailbox : Mailbox) (parentSessionId : String)
    (number : Nat) : Option MailboxMessage :=
  (mailbox.load parentSessionId).messages.find? (·.number = number)

end Mailbox

/- `left.createdAt - right.createdAt`, then the ids. -/
def compareMessages (host : TextHost) (left right : MailboxMessage) : Ordering :=
  if left.createdAt ≠ right.createdAt then compare left.createdAt right.createdAt
  else host.localeCompare ("mail-" ++ toString left.number) ("mail-" ++ toString right.number)

/- A listing; `keep` is its filter, and `limit` its limit. -/
def Mailbox.listMessages (host : TextHost) (mailbox : Mailbox) (parentSessionId : String)
    (keep : MailboxMessage → Bool) (limit : Option Nat) : List MailboxMessage :=
  let messages := sortBy (compareMessages host)
    ((mailbox.load parentSessionId).messages.filter keep)
  match limit with
  | none => messages
  | some limit => messages.drop (messages.length - max 1 limit)

def updateFirst (isMeant : MailboxMessage → Bool) (now : ℚ) (status : MailboxStatus) :
    List MailboxMessage → List MailboxMessage
| [] => []
| message :: rest =>
  if isMeant message then { message with status := status, updatedAt := now } :: rest
  else message :: updateFirst isMeant now status rest

/- The pending messages for a worker, of the given types. -/
def claimable (workerId : String) (types : Option (List MailboxType))
    (message : MailboxMessage) : Bool :=
  message.workerId = workerId && message.direction = .parentToWorker && message.status = .pending &&
    types.all (message.type ∈ ·)

/- The message that a claim takes. -/
def nextClaim (host : TextHost) (workerId : String) (types : Option (List MailboxType))
    (messages : List MailboxMessage) : Option MailboxMessage :=
  (sortBy (compareMessages host) (messages.filter (claimable workerId types))).head?

def repairMessages (now : ℚ) (messages : List MailboxMessage) : List MailboxMessage :=
  messages.map (fun message =>
    if message.direction = .parentToWorker ∧ message.status = .acknowledged then
      { message with status := .pending, updatedAt := now }
    else message)

/- The direction of a draft is that of the send. -/
inductive MailboxCall where
  | send (now : ℚ) (draft : MailboxMessage)
  | claim (now : ℚ) (parentSessionId workerId : String) (types : Option (List MailboxType))
  | acknowledge (now : ℚ) (parentSessionId : String) (number : Nat)
  | markHandled (now : ℚ) (parentSessionId : String) (number : Nat)
  | repair (now : ℚ)

variable (host : TextHost)

def MailboxCall.change (messages : List MailboxMessage) : MailboxCall → List MailboxMessage
| .send _ _ => messages
| .claim now _ workerId types =>
  match nextClaim host workerId types messages with
  | none => messages
  | some matched => updateFirst (· = matched) now .acknowledged messages
| .acknowledge now _ number =>
  match messages.find? (·.number = number) with
  | none => messages
  | some found =>
    if found.status = .pending then updateFirst (·.number = number) now .acknowledged messages
    else messages
| .markHandled now _ number =>
  match messages.find? (·.number = number) with
  | none => messages
  | some found =>
    if found.status ≠ .handled then updateFirst (·.number = number) now .handled messages
    else messages
| .repair now => repairMessages now messages

def mailboxStep (mailbox : Mailbox) (call : MailboxCall) : Mailbox :=
  match call with
  | .send now draft => mailbox.send now draft
  | .claim _ parentSessionId _ _
  | .acknowledge _ parentSessionId _
  | .markHandled _ parentSessionId _ =>
    mailbox.mutateSession parentSessionId (fun messages => call.change host messages)
  | .repair _ =>
    mailbox.keys.foldl
      (fun mailbox key => mailbox.mutateSession key (fun messages => call.change host messages))
      mailbox

def MailboxCall.session? : MailboxCall → Option String
| .send _ draft => some draft.parentSessionId
| .claim _ parentSessionId _ _
| .acknowledge _ parentSessionId _
| .markHandled _ parentSessionId _ => some parentSessionId
| .repair _ => none

----------
-- Sound Mailboxes
----------

/- A session is saved under the id it was loaded by. -/
def OwnKey (parentSessionId : String) : Prop :=
  (asNonEmptyString parentSessionId).getD parentSessionId = parentSessionId

instance (id : String) : Decidable (OwnKey id) := inferInstanceAs (Decidable (_ = _))

structure SessionSound (id : String) (session : MailboxSession) : Prop where
  own : session.parentSessionId = id
  key : OwnKey id
  positive : 0 < session.nextMessageNumber
  settled : ∀ message ∈ session.messages, message.Settled
  numbered : ∀ message ∈ session.messages, message.number < session.nextMessageNumber
  ordered : session.messages.Pairwise (fun a b => a.number < b.number)

def MailboxSound (mailbox : Mailbox) : Prop :=
  ∀ id session, mailbox.get? id = some session → SessionSound id session

section Sound

variable {host}
variable {mailbox : Mailbox}
variable {id : String}

theorem load_of_sound (hSound : MailboxSound mailbox) (hKey : OwnKey id) :
    SessionSound id (mailbox.load id) ∧
      ∀ session, mailbox.get? id = some session → mailbox.load id = session := by
  unfold Mailbox.load
  cases hGet : mailbox.get? id with
  | none => refine ⟨⟨rfl, hKey, Nat.one_pos, ?_, ?_, .nil⟩, ?_⟩ <;> simp
  | some raw =>
    have hRaw := hSound id raw hGet
    have hMessages : raw.messages.filterMap MailboxMessage.coerce = raw.messages := by
      rw [filterMap_congr (g := some) (fun message hMem => hRaw.settled message hMem)]
      exact filterMap_some
    have hLoad : (⟨(asNonEmptyString raw.parentSessionId).getD id,
        if 0 < raw.nextMessageNumber then raw.nextMessageNumber else 1,
        raw.messages.filterMap MailboxMessage.coerce⟩ : MailboxSession) = raw := by
      rw [hMessages, if_pos hRaw.positive, hRaw.own, hKey]
      cases raw
      cases hRaw.own
      rfl
    dsimp only
    rw [hLoad]
    exact ⟨hRaw, fun session hSame => Option.some.inj hSame⟩

/- Messages only change their status and their update. -/
abbrev Follows := List.Forall₂ MailboxMessage.SameContent

theorem follows_refl (messages : List MailboxMessage) : Follows messages messages :=
  List.forall₂_same.mpr (fun _ _ => rfl)

theorem follows_updateFirst (isMeant : MailboxMessage → Bool) (now : ℚ) (status : MailboxStatus)
    (messages : List MailboxMessage) :
    Follows messages (updateFirst isMeant now status messages) := by
  induction messages with
  | nil => exact .nil
  | cons message rest ih =>
    unfold updateFirst
    split
    · exact .cons rfl (follows_refl rest)
    · exact .cons rfl ih

theorem follows_change (messages : List MailboxMessage) (call : MailboxCall) :
    Follows messages (call.change host messages) := by
  cases call with
  | send => exact follows_refl messages
  | repair now =>
    refine List.forall₂_map_right_iff.mpr (List.forall₂_same.mpr (fun message _ => ?_))
    split <;> rfl
  | claim | acknowledge | markHandled =>
    simp only [MailboxCall.change]
    repeat' split
    all_goals first
      | exact follows_refl messages
      | exact follows_updateFirst _ _ _ messages

theorem Follows.exists_mem {messages later : List MailboxMessage}
    (hFollows : Follows messages later) {message : MailboxMessage} (hMem : message ∈ messages) :
    ∃ other ∈ later, message.SameContent other := by
  induction hFollows with
  | nil => cases hMem
  | cons hHead _ ih =>
    rcases List.mem_cons.mp hMem with rfl | hRest
    · exact ⟨_, mem_cons_self, hHead⟩
    · rcases ih hRest with ⟨other, hOther, hSame⟩
      exact ⟨other, mem_cons_of_mem _ hOther, hSame⟩

theorem Follows.map_eq {messages later : List MailboxMessage} (hFollows : Follows messages later) :
    later.map (fun m => (m.number, m.createdAt)) =
      messages.map (fun m => (m.number, m.createdAt)) := by
  induction hFollows with
  | nil => rfl
  | cons hHead _ ih => rw [map_cons, map_cons, ih, hHead]

variable {session : MailboxSession}

theorem Follows.sound (hSession : SessionSound id session)
    {later : List MailboxMessage} (hFollows : Follows session.messages later) :
    SessionSound id { session with messages := later } := by
  have hBack : ∀ other ∈ later, ∃ message ∈ session.messages, message.SameContent other := by
    intro other hOther
    rcases List.mem_iff_getElem.mp hOther with ⟨i, hI, rfl⟩
    have hLength := hFollows.length_eq
    exact ⟨_, getElem_mem (hLength ▸ hI), hFollows.get (hLength ▸ hI) hI⟩
  have hNumbers := congrArg (List.map Prod.fst) hFollows.map_eq
  rw [List.map_map, List.map_map] at hNumbers
  refine ⟨hSession.own, hSession.key, hSession.positive, ?_, ?_, ?_⟩
  · intro other hOther
    rcases hBack other hOther with ⟨message, hMem, hSame⟩
    rw [hSame]
    exact (hSession.settled message hMem).with _ _
  · intro other hOther
    rcases hBack other hOther with ⟨message, hMem, hSame⟩
    rw [hSame]
    exact hSession.numbered message hMem
  · exact List.pairwise_map.mp (hNumbers ▸ List.pairwise_map.mpr hSession.ordered)

variable (hSound : MailboxSound mailbox)
variable (hSession : SessionSound id session)
include hSound hSession

theorem MailboxSound.set : MailboxSound (mailbox.set id session) := by
  intro other found hFound
  rw [get?_set] at hFound
  split at hFound
  · rename_i hSame
    cases hFound
    exact hSame ▸ hSession
  · exact hSound other found hFound

/- What a step keeps: sound sessions and their messages. -/
structure Keeps (mailbox later : Mailbox) : Prop where
  sound : MailboxSound later
  messages : ∀ id, OwnKey id →
    ∀ message ∈ (mailbox.load id).messages,
      ∃ other ∈ (later.load id).messages, message.SameContent other

theorem load_set {other : String} (hOther : OwnKey other) :
    Mailbox.load (mailbox.set id session) other =
      if id = other then session else mailbox.load other := by
  split
  · rename_i hSame
    subst hSame
    exact (load_of_sound (hSound.set hSession) hOther).2 session (get?_set_self _ _ _)
  · rename_i hNe
    unfold Mailbox.load
    rw [get?_set_of_ne _ _ hNe]

theorem Keeps.set (hMessages : ∀ message ∈ (mailbox.load id).messages,
      ∃ other ∈ session.messages, message.SameContent other) :
    Keeps mailbox (mailbox.set id session) where
  sound := hSound.set hSession
  messages other hOther message hMem := by
    rw [load_set hSound hSession hOther]
    split
    · rename_i hSame
      exact hMessages message (hSame ▸ hMem)
    · exact ⟨message, hMem, rfl⟩

omit hSession

theorem mutateSession_eq (hKey : OwnKey id)
    (change : List MailboxMessage → List MailboxMessage) :
    mailbox.mutateSession id change =
      mailbox.set id { mailbox.load id with messages := change (mailbox.load id).messages } := by
  have hOwn := (load_of_sound hSound hKey).1.own
  simp only [Mailbox.mutateSession, Mailbox.save, hOwn]

theorem keeps_mutateSession (hKey : OwnKey id)
    {change : List MailboxMessage → List MailboxMessage}
    (hChange : ∀ messages, Follows messages (change messages)) :
    Keeps mailbox (mailbox.mutateSession id change) := by
  rw [mutateSession_eq hSound hKey]
  exact Keeps.set hSound ((hChange _).sound (load_of_sound hSound hKey).1)
    (fun message hMem => (hChange _).exists_mem hMem)

omit hSound

theorem Keeps.trans {later last : Mailbox} (hFirst : Keeps mailbox later)
    (hSecond : Keeps later last) : Keeps mailbox last where
  sound := hSecond.sound
  messages id hKey message hMem := by
    rcases hFirst.messages id hKey message hMem with ⟨middle, hMiddle, hSame⟩
    rcases hSecond.messages id hKey middle hMiddle with ⟨other, hOther, hSame'⟩
    refine ⟨other, hOther, ?_⟩
    rw [MailboxMessage.SameContent, hSame'] at *
    rw [hSame]

end Sound

----------
-- Faithful And Separate
----------

/- Ids that are their own keys, and drafts that are read as they are written. -/
def PlainCall (mailbox : Mailbox) (call : MailboxCall) : Prop :=
  (∀ id ∈ call.session?, OwnKey id) ∧ match call with
    | .send now draft => (mailbox.createMessage now draft).Settled
    | _ => True

variable {mailbox : Mailbox}

theorem ownKey_of_mem_keys (hSound : MailboxSound mailbox) : ∀ id ∈ mailbox.keys, OwnKey id := by
  intro id hMem
  have hSome := (mem_keys_iff _ _).mp hMem
  rcases isSome_iff_exists.mp hSome with ⟨session, hGet⟩
  exact (hSound id session hGet).key

theorem send_sound (hSound : MailboxSound mailbox) {now : ℚ}
    {draft : MailboxMessage} (hPlain : PlainCall mailbox (.send now draft)) :
    let id := draft.parentSessionId
    let session : MailboxSession :=
      { mailbox.load id with
        nextMessageNumber := (mailbox.load id).nextMessageNumber + 1
        messages := (mailbox.load id).messages ++ [mailbox.createMessage now draft] }
    SessionSound id session ∧ mailbox.send now draft = mailbox.set id session := by
  have hKey := hPlain.1 _ rfl
  have hSession := (load_of_sound hSound hKey).1
  refine ⟨⟨hSession.own, hKey, Nat.succ_pos _, ?_, ?_, ?_⟩, ?_⟩
  · exact List.forall_mem_append.mpr ⟨hSession.settled, List.forall_mem_singleton.mpr hPlain.2⟩
  · intro message hMem
    rcases List.mem_append.mp hMem with hOld | hNew
    · exact Nat.lt_succ_of_lt (hSession.numbered message hOld)
    · rw [List.mem_singleton.mp hNew]
      exact Nat.lt_succ_self _
  · refine List.pairwise_append.mpr
      ⟨hSession.ordered, pairwise_singleton _ _, fun message hOld other hNew => ?_⟩
    rw [List.mem_singleton.mp hNew]
    exact hSession.numbered message hOld
  · have hOwn := hSession.own
    simp only [Mailbox.send, Mailbox.save, hOwn]

variable {call : MailboxCall}

theorem keeps_step (hSound : MailboxSound mailbox)
    (hPlain : PlainCall mailbox call) : Keeps mailbox (mailboxStep host mailbox call) := by
  cases call with
  | send now draft =>
    have hSend := send_sound hSound hPlain
    unfold mailboxStep
    dsimp only
    rw [hSend.2]
    exact Keeps.set hSound hSend.1 (fun message hMem => ⟨message, mem_append_left _ hMem, rfl⟩)
  | claim | acknowledge | markHandled =>
    exact keeps_mutateSession hSound (hPlain.1 _ rfl) (fun messages => follows_change messages _)
  | repair now =>
    have hKeys := ownKey_of_mem_keys hSound
    unfold mailboxStep
    dsimp only
    generalize mailbox.keys = keys at hKeys
    induction keys generalizing mailbox with
    | nil => exact ⟨hSound, fun _ _ message hMem => ⟨message, hMem, rfl⟩⟩
    | cons key rest ih =>
      have hFirst := keeps_mutateSession hSound (hKeys key mem_cons_self)
        (fun messages => @follows_change host messages (.repair now))
      exact hFirst.trans (ih hFirst.sound ⟨nofun, trivial⟩
        (fun id hMem => hKeys id (mem_cons_of_mem _ hMem)))

/- The mailboxes, and the messages that were returned. -/
structure MailboxWorld where
  mailbox : Mailbox
  sent : List MailboxMessage

def worldStep (world : MailboxWorld) (call : MailboxCall) : MailboxWorld where
  mailbox := mailboxStep host world.mailbox call
  sent :=
    match call with
    | .send now draft => world.mailbox.createMessage now draft :: world.sent
    | _ => world.sent

/- Every message that was sent is returned with its content. -/
def Faithful (world : MailboxWorld) : Prop :=
  ∀ message ∈ world.sent, ∃ other ∈ world.mailbox.getMessage message.parentSessionId message.number,
      message.SameContent other

/- A call leaves the listings of other sessions. -/
def Separate (world : MailboxWorld) (call : MailboxCall) : Prop :=
  ∀ id ∈ call.session?, ∀ other, other ≠ id →
    ∀ keep limit, (mailboxStep host world.mailbox call).listMessages host other keep limit =
        world.mailbox.listMessages host other keep limit

theorem getMessage_of_mem {id : String}
    (hSession : SessionSound id (mailbox.load id)) {message : MailboxMessage}
    (hMem : message ∈ (mailbox.load id).messages) :
    mailbox.getMessage id message.number = some message := by
  unfold Mailbox.getMessage
  have hOrdered := hSession.ordered
  generalize (mailbox.load id).messages = messages at *
  induction messages with
  | nil => cases hMem
  | cons first rest ih =>
    rw [pairwise_cons] at hOrdered
    rcases List.mem_cons.mp hMem with rfl | hRest
    · simp
    · have hNe : first.number ≠ message.number := Nat.ne_of_lt (hOrdered.1 message hRest)
      rw [find?_cons_of_neg (by simpa using hNe)]
      exact ih hRest hOrdered.2

variable {world : MailboxWorld}

theorem separate_of_plain (hSound : MailboxSound world.mailbox)
    (hPlain : PlainCall world.mailbox call) : Separate host world call := by
  intro id hId other hNe keep limit
  have hOwn := (load_of_sound hSound (hPlain.1 id hId)).1.own
  have hLoad : (mailboxStep host world.mailbox call).load other = world.mailbox.load other := by
    cases call with
    | repair => cases hId
    | send | claim | acknowledge | markHandled =>
      cases hId
      simp only [mailboxStep, Mailbox.send, Mailbox.mutateSession, Mailbox.save, Mailbox.load]
        at hOwn ⊢
      rw [hOwn, get?_set_of_ne _ _ hNe.symm]
  unfold Mailbox.listMessages
  rw [hLoad]

/- What is known along a run of plain calls. -/
structure WorldSound (world : MailboxWorld) : Prop where
  sound : MailboxSound world.mailbox
  sent : ∀ message ∈ world.sent, OwnKey message.parentSessionId ∧
      ∃ other ∈ (world.mailbox.load message.parentSessionId).messages, message.SameContent other

theorem WorldSound.step (h : WorldSound world)
    (hPlain : PlainCall world.mailbox call) : WorldSound (worldStep host world call) := by
  have hKeeps := keeps_step host h.sound hPlain
  have hOld : ∀ message ∈ world.sent, OwnKey message.parentSessionId ∧
        ∃ other ∈ ((mailboxStep host world.mailbox call).load message.parentSessionId).messages,
          message.SameContent other := by
    intro message hMem
    rcases h.sent message hMem with ⟨hKey, middle, hMiddle, hSame⟩
    rcases hKeeps.messages _ hKey middle hMiddle with ⟨other, hOther, hSame'⟩
    refine ⟨hKey, other, hOther, ?_⟩
    rw [MailboxMessage.SameContent, hSame'] at *
    rw [hSame]
  refine ⟨hKeeps.sound, ?_⟩
  cases call with
  | claim | acknowledge | markHandled | repair => exact hOld
  | send now draft =>
    intro message hMem
    rcases List.mem_cons.mp hMem with rfl | hRest
    · have hKey : OwnKey draft.parentSessionId := hPlain.1 _ rfl
      refine ⟨hKey, world.mailbox.createMessage now draft, ?_, rfl⟩
      have hSend := send_sound h.sound hPlain
      change _ ∈ ((world.mailbox.send now draft).load draft.parentSessionId).messages
      rw [hSend.2, load_set h.sound hSend.1 hKey, if_pos rfl]
      exact mem_append_right _ mem_cons_self
    · exact hOld message hRest

/-
  In every run of plain calls, sent messages keep being returned with their content, and each call
  leaves the listings of all other sessions.
-/
theorem mailboxes_faithful {calls : List MailboxCall}
    (hPlain : AlongRun (worldStep host) (fun world call => PlainCall world.mailbox call)
      ⟨.empty, []⟩ calls) :
    Faithful (runSteps (worldStep host) ⟨.empty, []⟩ calls) ∧
      AlongRun (worldStep host) (Separate host) ⟨.empty, []⟩ calls := by
  have hStart : WorldSound ⟨.empty, []⟩ := ⟨by simp [MailboxSound], by simp⟩
  have hStep : ∀ world call, WorldSound world → PlainCall world.mailbox call →
      Separate host world call ∧ WorldSound (worldStep host world call) :=
    fun world call h hCall => ⟨separate_of_plain host h.sound hCall, h.step host hCall⟩
  refine ⟨fun message hMem => ?_, AlongRun.of_invariant hStep hStart hPlain⟩
  have hEnd := runSteps_invariant (fun world call h hCall => (hStep world call h hCall).2)
    hStart hPlain
  rcases hEnd.sent message hMem with ⟨hKey, other, hOther, hSame⟩
  have hNumber : other.number = message.number := by rw [hSame]
  refine ⟨other, ?_, hSame⟩
  rw [← hNumber]
  exact getMessage_of_mem (load_of_sound hEnd.sound hKey).1 hOther

def shutdownDraft (parentSessionId : String) : MailboxMessage where
  number := 0
  type := .shutdownRequest
  parentSessionId := parentSessionId
  workerId := "w"
  direction := .parentToWorker
  texts := []
  requiredApproverRoles := none
  status := .pending
  createdAt := 0
  updatedAt := 0

instance (mailbox : Mailbox) (call : MailboxCall) : Decidable (PlainCall mailbox call) :=
  match call with
  | .send _ _ => inferInstanceAs (Decidable (_ ∧ _ = _))
  | .claim _ _ _ _ | .acknowledge _ _ _ | .markHandled _ _ _
  | .repair _ => inferInstanceAs (Decidable (_ ∧ True))

theorem two_sessions_faithful : Faithful (runSteps (worldStep .basic) ⟨.empty, []⟩
      [.send 0 (shutdownDraft "s"), .send 0 (shutdownDraft "t"), .claim 1 "s" "w" none]) :=
  (mailboxes_faithful .basic (by decide +kernel)).1

/- Two calls on an id with a space lose the other mailbox. -/
theorem spaced_session_overwrites :
    let world := runSteps (worldStep .basic) ⟨.empty, []⟩
      [.send 0 (shutdownDraft "s"), .acknowledge 1 " s" 1, .acknowledge 2 " s" 1]
    ¬ Faithful world := by
  intro world hFaithful
  rcases hFaithful { shutdownDraft "s" with number := 1 }
    (by decide +kernel) with ⟨other, hOther, -⟩
  have hNone : world.mailbox.getMessage "s" 1 = none := by decide +kernel
  change other ∈ world.mailbox.getMessage "s" 1 at hOther
  rw [hNone] at hOther
  cases hOther

end AgencCore.Gateway
