import AgencCore.Foundations.OrderedMap
import AgencCore.Gateway.Stored

/-
  The transcript of a background run.

  A conversation is kept as a stream of events: messages, and snapshots that replace all that came
  before. Reading the stream gives a history, which is then repaired: blank answers and unfinished
  tool turns are taken out, and a turn that was interrupted is continued.

  A backend may keep the stream itself. It then stores a message in a form of its own and knows an
  event by its identifier only. Without such a backend the stream is one document, and an event
  whose dedupe key is known is left out.

  The identifiers of events are random; here they are taken from a counter. All events of a stream
  belong to one session, which is left out of the dedupe keys.
-/

namespace AgencCore.Gateway

open Foundations

inductive MessageRole where
  | system
  | user
  | assistant
  | tool
deriving DecidableEq

inductive ContentPart where
  | text (text : String)
  | imageUrl (url : String)
deriving DecidableEq

inductive MessageContent where
  | text (text : String)
  | parts (parts : List ContentPart)
deriving DecidableEq

inductive AssistantPhase where
  | commentary
  | finalAnswer
deriving DecidableEq

structure RuntimeOnly where
  mergeBoundary : Bool
  anchorPreserve : Option Bool
deriving DecidableEq

structure ToolCall where
  id : String
  name : String
  arguments : String
deriving DecidableEq

structure LLMMessage where
  role : MessageRole
  content : MessageContent
  phase : Option AssistantPhase := none
  runtimeOnly : Option RuntimeOnly := none
  toolCalls : Option (List ToolCall) := none
  toolCallId : Option String := none
  toolName : Option String := none
deriving DecidableEq

namespace LLMMessage

def calls (message : LLMMessage) : List ToolCall :=
  if message.role = .assistant then message.toolCalls.getD []
  else []

/- The identifier a tool message answers, if it has one. -/
def answers (message : LLMMessage) : Option String :=
  if message.role = .tool then givenText (message.toolCallId.map trim)
  else none

end LLMMessage

def ToolCall.key (toolCall : ToolCall) : Option String := givenText (some (trim toolCall.id))

def isWhitespaceOnlyMessage (message : LLMMessage) : Bool :=
  match message.content with
  | .text text => isBlank text
  | .parts parts => parts.all (fun part =>
    match part with
    | .text text => isBlank text
    | .imageUrl _ => false)

----------
-- Recovery
----------

def dropWhitespaceOnlyAssistantMessages (history : List LLMMessage) : List LLMMessage :=
  (history.mapIdx (fun index message =>
    (index, message))).filterMap (fun (index, message) =>
      if message.role = .assistant ∧ message.calls = [] ∧ index ≠ history.length - 1 ∧
          isWhitespaceOnlyMessage message then none
      else some message)

def issuedIds (history : List LLMMessage) : List String :=
  (history.flatMap (fun message => message.calls.filterMap ToolCall.key)).eraseDups

/- The tool calls that are answered in a history. -/
def resolvedIds (history : List LLMMessage) : List String :=
  (history.filterMap LLMMessage.answers).eraseDups

def dropUnresolvedToolTurns (history : List LLMMessage) : List LLMMessage :=
  let issued := issuedIds history
  let resolved := resolvedIds history
  if issued.length = resolved.length ∧ issued.all (fun id => resolved.contains id) then history
  else
    history.filterMap (fun message =>
      let answered : List ToolCall :=
        message.calls.filter (fun toolCall => toolCall.key.any (fun id => resolved.contains id))
      if message.calls ≠ [] ∧ answered = [] then none
      else if answered.length < message.calls.length then
        some { message with toolCalls := some answered }
      else if message.answers.any (fun id => !issued.contains id) then none
      else some message)

def continuePrompt : String := "Continue from where you left off."

/- The text of a message, trimmed. -/
def promptText (content : MessageContent) : String :=
  match content with
  | .text text => trim text
  | .parts parts => trim (String.intercalate " " (parts.filterMap (fun part =>
      match part with
      | .text text => some (trim text)
      | .imageUrl _ => none)))

/- The last message was a prompt that nobody answered. -/
def isInterrupted (history : List LLMMessage) : Bool :=
  match history.reverse.find? (fun message => message.role ≠ .system) with
  | none => false
  | some message =>
    message.role ≠ .assistant && message.role ≠ .tool && promptText message.content ≠ "" &&
      promptText message.content ≠ continuePrompt

inductive ToolTurnIssue where
  | assistantToolCallIdMissing
  | assistantToolCallIdDuplicate
  | assistantToolCallsStartedBeforeResults
  | toolMessageMissingToolCallId
  | toolResultWithoutAssistantCall
  | toolResultUnknownId
  | toolResultDuplicate
  | toolResultMissing
deriving DecidableEq

/- Issue the calls of one message, each for the first time. -/
def issueCalls (ids issued : List String) :
    List ToolCall → Except ToolTurnIssue (List String × List String)
| [] => .ok (ids, issued)
| toolCall :: rest =>
  match toolCall.key with
  | none => .error .assistantToolCallIdMissing
  | some id => if id ∈ ids ∨ id ∈ issued then .error .assistantToolCallIdDuplicate
      else issueCalls (ids ++ [id]) (issued ++ [id]) rest

/-
  The first message that breaks a tool turn. Calls that are pending have to be answered by the next
  messages.
-/
def findIssueFrom (pending issued resolved : List String) : List LLMMessage → Option ToolTurnIssue
| [] => if pending = [] then none else some .toolResultMissing
| message :: rest =>
  if message.calls ≠ [] then if pending ≠ [] then some .assistantToolCallsStartedBeforeResults
    else
      match issueCalls [] issued message.calls with
      | .error issue => some issue
      | .ok (ids, issued') => findIssueFrom ids issued' resolved rest
  else if message.role = .tool then
    match message.answers with
    | none => some .toolMessageMissingToolCallId
    | some id => if id ∈ resolved then some .toolResultDuplicate
        else if pending = [] then some .toolResultWithoutAssistantCall
        else if id ∉ pending then some .toolResultUnknownId
        else findIssueFrom (pending.erase id) issued (resolved ++ [id]) rest
  else if pending ≠ [] then some .toolResultMissing
  else findIssueFrom pending issued resolved rest

def findToolTurnValidationIssue (messages : List LLMMessage) : Option ToolTurnIssue :=
  findIssueFrom [] [] [] messages

----------
-- Repair
----------

structure RepairState where
  repaired : List LLMMessage
  issued : List String
  resolved : List String
  pending : OrderedMap String String

def missingResult : String := "[missing tool result inserted during transcript recovery]"

namespace RepairState

variable (state : RepairState)

def push (message : LLMMessage) : RepairState :=
  { state with repaired := state.repaired ++ [message] }

/- Make up a result for every call that is pending. -/
def flush : RepairState :=
  { state with
    repaired := state.repaired ++
      state.pending.entries.map (fun entry =>
        { role := .tool, content := .text missingResult, toolCallId := some entry.1
          toolName := some entry.2 }), resolved := state.resolved ++ state.pending.keys
    pending := OrderedMap.empty }

/- The calls that are issued for the first time. -/
def newCalls (issued : List String) : List ToolCall → List ToolCall × List String
| [] => ([], issued)
| toolCall :: rest =>
  match toolCall.key with
  | none => newCalls issued rest
  | some id => if id ∈ issued then newCalls issued rest
      else
        let (calls, issued') := newCalls (issued ++ [id]) rest
        (toolCall :: calls, issued')

/- An assistant message that calls tools. -/
def turn (message : LLMMessage) : RepairState :=
  let state := state.flush
  let (calls, issued) := newCalls state.issued message.calls
  let state := { state with issued := issued }
  if calls = [] then if isWhitespaceOnlyMessage message then state
    else state.push { message with toolCalls := none }
  else
    { state with
      pending := OrderedMap.ofList (calls.map (fun toolCall => (trim toolCall.id, toolCall.name)))
      repaired := state.repaired ++ [{ message with toolCalls := some calls }] }

/- A tool message that belongs to no call that is known. -/
def isOrphan (message : LLMMessage) : Bool :=
  message.answers.any (fun id => !state.pending.has id && !state.resolved.contains id)

/- An envelope for a block of orphaned tool messages. -/
def adopt (orphans : List LLMMessage) : RepairState :=
  let calls := orphans.map (fun orphan =>
    { id := orphan.toolCallId.getD "", name := orphan.toolName.getD "unknown"
      arguments := "\x7b\x7d" : ToolCall })
  let ids := orphans.filterMap LLMMessage.answers
  { repaired := state.repaired ++
      [{ role := .assistant, content := .text "", toolCalls := some calls }] ++ orphans
    issued := state.issued ++ ids, resolved := state.resolved ++ ids
    pending := ids.foldl (fun pending id => pending.delete id)
      (OrderedMap.ofList (calls.map (fun toolCall => (toolCall.id, toolCall.name)))) }

/- A tool message that answers a pending call. -/
def settle (message : LLMMessage) (id : String) : RepairState :=
  { state with
    pending := state.pending.delete id, resolved := state.resolved ++ [id]
    repaired := state.repaired ++ [message] }

end RepairState

/- Repair the messages one by one; the fuel is their number. -/
def repairFrom (state : RepairState) : Nat → List LLMMessage → RepairState
| 0, _ => state
| _, [] => state
| fuel + 1, message :: rest => if message.calls ≠ [] then repairFrom (state.turn message) fuel rest
    else if message.role = .tool then
      match message.answers with
      | none => repairFrom state fuel rest
      | some id => if id ∈ state.resolved then repairFrom state fuel rest
          else if state.pending.has id then repairFrom (state.settle message id) fuel rest
          else
            repairFrom (state.adopt (message :: rest.takeWhile state.isOrphan))
              fuel (rest.dropWhile state.isOrphan)
    else if message.role = .system then repairFrom (state.push message) fuel rest
    else repairFrom (state.flush.push message) fuel rest

/- The repair that also makes up missing results. -/
def repairToolTurnSequence (messages : List LLMMessage) : List LLMMessage :=
  if findToolTurnValidationIssue messages = none then messages
  else (repairFrom ⟨[], [], [], OrderedMap.empty⟩ messages.length messages).flush.repaired

----------
-- Streams
----------

inductive SyncReason where
  | saveRun
  | saveCheckpoint
  | seed
  | fork
deriving DecidableEq

inductive TranscriptKey where
  | message (index : Nat) (role : MessageRole)
  | snapshot (reason : SyncReason) (digest : String)
deriving DecidableEq

inductive TranscriptPayload where
  | message (message : LLMMessage)
  | snapshot (history : List LLMMessage)
deriving DecidableEq

structure TranscriptEvent where
  eventId : Nat
  dedupeKey : Option TranscriptKey
  payload : TranscriptPayload
deriving DecidableEq

/- Whether the backend keeps the stream itself. -/
inductive TranscriptSupport where
  | native
  | fallback
deriving DecidableEq

/- The form in which a backend stores a message. -/
def storedMessage (message : LLMMessage) : LLMMessage :=
  { message with
    runtimeOnly := none, toolCallId := givenText message.toolCallId
    toolName := givenText message.toolName }

def storedPayload : TranscriptPayload → TranscriptPayload
| .message message => .message (storedMessage message)
| .snapshot history => .snapshot history

/- An event of the same identifier or dedupe key is there. -/
def isKnownEvent (support : TranscriptSupport) (events : List TranscriptEvent)
    (event : TranscriptEvent) : Bool :=
  events.any (fun other => other.eventId = event.eventId) ||
    (support = .fallback &&
      event.dedupeKey.any (fun key => events.any (fun other => other.dedupeKey = some key)))

def storedEvent (support : TranscriptSupport) (event : TranscriptEvent) : TranscriptEvent :=
  match support with
  | .native => { event with payload := storedPayload event.payload }
  | .fallback => event

/- One event after the other, unless it is known. -/
def appendTranscriptBatch (support : TranscriptSupport) (events batch : List TranscriptEvent) :
    List TranscriptEvent :=
  batch.foldl (fun events event => if isKnownEvent support events event then events
    else events ++ [storedEvent support event]) events

def historyFromTranscript (events : List TranscriptEvent) : List LLMMessage :=
  events.foldl (fun history event =>
    match event.payload with
    | .message message => history ++ [message]
    | .snapshot snapshot => snapshot) []

def recoverTranscriptHistory (events : List TranscriptEvent) : List LLMMessage :=
  let history := historyFromTranscript events
  let withoutWhitespace := dropWhitespaceOnlyAssistantMessages history
  let withoutUnresolved := dropUnresolvedToolTurns withoutWhitespace
  let recovered :=
    if isInterrupted withoutUnresolved then
      withoutUnresolved ++ [{ role := .user, content := .text continuePrompt }]
    else withoutUnresolved
  repairToolTurnSequence recovered

/-
  Histories are compared by their JSON text. The same text means the same history; two histories
  with the same values may have different texts, as the order of fields counts.
-/
structure HistoryHost where
  sameText : List LLMMessage → List LLMMessage → Bool
  sameText_eq : ∀ left right, sameText left right = true → left = right
  sameText_comm : ∀ left right, sameText left right = sameText right left
  digestHistory : List LLMMessage → String

/- The host for which equal histories have equal texts. -/
def HistoryHost.plain : HistoryHost where
  sameText := fun left right => decide (left = right)
  sameText_eq := by
    intro left right hSame
    exact of_decide_eq_true hSame
  sameText_comm := by
    intro left right
    exact decide_eq_decide.mpr eq_comm
  digestHistory := fun history => toString history.length

def syncEvents (host : HistoryHost) (reason : SyncReason) (uuid : Nat)
    (current desired : List LLMMessage) : List TranscriptEvent :=
  if current ≠ [] ∧ desired = [] then []
  else if host.sameText current desired then []
  else if current ≠ [] ∧ current.length ≤ desired.length ∧
      host.sameText (desired.take current.length) current then
    (desired.drop current.length).mapIdx
      (fun index message =>
        { eventId := uuid + index, dedupeKey := some
            (.message (current.length + index) message.role), payload := .message message })
  else
    [{ eventId := uuid, dedupeKey := some (.snapshot reason (host.digestHistory desired))
       payload := .snapshot desired }]

end AgencCore.Gateway
