import AgencCore.Eval.Projector

/-
  Replay records.

  `toReplayStoreRecord` turns a projected event into the record that a replay store keeps. A record
  is hashed with its place in the batch it was projected in, and stores tell records apart by slot,
  signature and type.
-/

namespace AgencCore.Replay

open Foundations List
open Eval

section

def hexDigitValue? (c : Char) : Option Nat :=
  if c.isDigit then some (c.toNat - '0'.toNat)
  else if 'a' ≤ c ∧ c ≤ 'f' then some (c.toNat - 'a'.toNat + 10)
  else if 'A' ≤ c ∧ c ≤ 'F' then some (c.toNat - 'A'.toNat + 10)
  else none

/- The bytes of pairs of hexadecimal digits. -/
def bytesOfDigits : List Nat → List UInt8
| high :: low :: rest => UInt8.ofNat (16 * high + low) :: bytesOfDigits rest
| _ => []

/- The 32 bytes of a text of 64 hexadecimal digits. -/
def hexKey? (value : String) : Option (List UInt8) := let digits :=
    match value.toList with
    | '0' :: 'x' :: rest => rest
    | digits => digits
  if digits.length = 64 then (digits.mapM hexDigitValue?).map bytesOfDigits
  else none

variable (host : EvalHost)

def bytesToPdaString (bytes : List UInt8) : Option String :=
  if bytes.length = 0 then none
  else some (bytesToPublicKeyString host bytes)

/- A number from 0 to 255, truncated to a byte. -/
def truncatedByte? : Json → Option UInt8
| .number (.finite q) => if 0 ≤ q ∧ q ≤ 255 then some (UInt8.ofNat q.floor.toNat)
    else none
| _ => none

def normalizePdaValue : Json → Option String
| .array entries => (entries.mapM truncatedByte?).bind (bytesToPdaString host)
| .string value => if value = "" then none
    else
      match hexKey? value with
      | some bytes => some (host.base58 bytes)
      | none => some value
| _ => none

/- The identifier in a field of a JSON object. -/
def pdaField (fields : List (String × Json)) (name : String) : Option String :=
  truthy ((fields.lookup name).bind (normalizePdaValue host))

def extractDisputePdaFromPayload (payload : List (String × Json)) : Option String :=
  (pdaField host payload "disputeId").or (match payload.lookup "onchain" with
    | some (.object onchain) => pdaField host onchain "disputeId"
    | _ => none)

def deriveTraceId (base : Option String) (slot : Int) (signature eventName : String)
    (eventSequence : Int) : String :=
  (truthy base).getD
    ((host.sha256
      ("agenc-runtime:" ++ toString slot ++ ":" ++ signature ++ ":" ++ eventName ++ ":" ++
        toString eventSequence)).take 32).toString

def deriveSpanId (traceId eventName : String) (slot : Int) (signature : String)
    (eventSequence : Int) : String :=
  ((host.sha256
    (traceId ++ ":" ++ eventName ++ ":" ++ toString slot ++ ":" ++ signature ++ ":" ++
      toString eventSequence)).take 16).toString

/- A rate between 0 and 1; without one, every item counts. -/
def normalizeSampleRate (sampleRate : JsNumber) : JsNumber :=
  if sampleRate.isNaN then 1
  else if JsNumber.le sampleRate 0 then 0
  else if JsNumber.le 1 sampleRate then 1
  else sampleRate

/- The first eight digits of a hash, as part of their range. -/
def sampleValue (key : String) : JsNumber :=
  let digits := ((host.sha256 key).toList.take 8).filterMap hexDigitValue?
  let value : Nat := digits.foldl (fun value digit => 16 * value + digit) 0
  .finite (value / 4294967295)

def deterministicSample (key : String) (sampleRate : JsNumber) : Bool :=
  if JsNumber.le 1 sampleRate then true
  else if JsNumber.le sampleRate 0 then false
  else JsNumber.lt (sampleValue host key) sampleRate

def buildReplayTraceContext (traceId : Option String) (eventName : String) (slot : Int)
    (signature : String) (eventSequence : Int) (sampleRate : JsNumber) : ReplayTraceContext :=
  let traceId := deriveTraceId host traceId slot signature eventName eventSequence
  { traceId := traceId, spanId := deriveSpanId host traceId eventName slot signature eventSequence
    parentSpanId := none
    sampled := deterministicSample host
      (traceId ++ ":" ++ eventName ++ ":" ++ toString slot ++ ":" ++ signature ++ ":" ++
        toString eventSequence) (normalizeSampleRate sampleRate) }

----------
-- Records
----------

structure ReplayTimelineRecord where
  schemaVersion : Option Nat := some 1
  seq : Nat
  type : String
  taskPda : Option String
  disputePda : Option String
  timestampMs : JsNumber
  payload : List (String × Json)
  slot : Int
  signature : String
  sourceEventName : String
  sourceEventType : String
  sourceEventSequence : Nat
  traceId : Option String
  traceSpanId : Option String
  traceParentSpanId : Option String
  traceSampled : Option Bool
  projectionHash : String

def buildReplayKey (slot : Int) (signature sourceEventType : String) : String :=
  toString slot ++ "|" ++ signature ++ "|" ++ sourceEventType

def ReplayTimelineRecord.key (record : ReplayTimelineRecord) : String :=
  buildReplayKey record.slot record.signature record.sourceEventType

/- A field without a value is left out of the hashed text. -/
def computeProjectionHash (event : ProjectedTimelineEvent) : String :=
  host.sha256 (stableStringifyJson host
    (.object
      ([("slot", .number (JsNumber.ofInt event.slot)), ("signature", .string event.signature),
        ("sourceEventName", .string event.sourceEventName),
        ("sourceEventSequence", .number (JsNumber.ofInt event.sourceEventSequence)),
        ("payload", .object event.payload), ("seq", .number (JsNumber.ofInt event.seq))] ++
        (match event.taskPda with
        | none => []
        | some taskPda => [("taskPda", .string taskPda)]) ++
        [("timestampMs", .number event.timestampMs), ("type", .string event.type.text)])))

/- The field of a trace that holds a text. -/
def traceText (trace : Option Json) (name : String) : Option String :=
  match trace with
  | some (.object fields) =>
    match fields.lookup name with
    | some (.string value) => some value
    | _ => none
  | _ => none

def traceSampledOf (trace : Option Json) : Bool :=
  match trace with
  | some (.object fields) =>
    match fields.lookup "sampled" with
    | some (.bool value) => value
    | _ => false
  | _ => false

def traceOf (payload : List (String × Json)) : Option Json :=
  match payload.lookup "onchain" with
  | some (.object onchain) => onchain.lookup "trace"
  | _ => none

def toReplayStoreRecord (event : ProjectedTimelineEvent) : ReplayTimelineRecord :=
  let trace := traceOf event.payload
  { schemaVersion := some 1, seq := event.seq, type := event.type.text, taskPda := event.taskPda
    disputePda := extractDisputePdaFromPayload host event.payload, timestampMs := event.timestampMs
    payload := event.payload, slot := event.slot, signature := event.signature
    sourceEventName := event.sourceEventName, sourceEventType := event.type.text
    sourceEventSequence := event.sourceEventSequence
    traceId := some ((traceText trace "traceId").getD
      (deriveTraceId host none event.slot event.signature
        event.sourceEventName event.sourceEventSequence)), traceSpanId := traceText trace "spanId"
    traceParentSpanId := traceText trace "parentSpanId", traceSampled := some (traceSampledOf trace)
    projectionHash := computeProjectionHash host event }

end

theorem bar_not_mem_slot (slot : Int) : '|' ∉ (toString slot).toList := by
  have hDigits : ∀ n : Nat, '|' ∉ (toString n).toList := by
    intro n hIn
    have hDigit : '|'.isDigit = true :=
      Nat.isDigit_of_mem_toDigits (b := 10) (n := n) (by omega) (by omega) (by simpa using hIn)
    revert hDigit
    decide
  cases slot with
  | ofNat n => exact hDigits n
  | negSucc n =>
    have hText : (toString (Int.negSucc n)).toList = '-' :: (toString n.succ).toList := by
      show ("-" ++ n.succ.repr).toList = _
      simp
    rw [hText]
    simp only [mem_cons, not_or]
    exact ⟨by decide, hDigits _⟩

theorem bar_not_mem_type (name : OnChainEventName) :
    '|' ∉ (trajectoryEventBySource name).text.toList := by cases name <;> decide

theorem toList_buildReplayKey (slot : Int) (signature type : String) :
    (buildReplayKey slot signature type).toList =
      (toString slot).toList ++ '|' :: (signature.toList ++ '|' :: type.toList) := by
  simp [buildReplayKey]

/- The slot of a key, and the rest of its text. -/
theorem slot_of_buildReplayKey_eq {slot slot' : Int} {signature signature' type type' : String}
    (hEq : buildReplayKey slot signature type = buildReplayKey slot' signature' type') :
    slot = slot' ∧
      signature.toList ++ '|' :: type.toList = signature'.toList ++ '|' :: type'.toList := by
  have hLists := congrArg String.toList hEq
  rw [toList_buildReplayKey, toList_buildReplayKey] at hLists
  rcases eq_of_append_cons_eq (bar_not_mem_slot slot) (bar_not_mem_slot slot') hLists with
    ⟨hSlot, hRest⟩
  exact ⟨Int.repr_inj.mp (String.toList_inj.mp hSlot), hRest⟩

/- A key determines its parts if no type has a bar. -/
theorem buildReplayKey_inj {slot slot' : Int} {signature signature' type type' : String}
    (hType : '|' ∉ type.toList) (hType' : '|' ∉ type'.toList)
    (hEq : buildReplayKey slot signature type = buildReplayKey slot' signature' type') :
    slot = slot' ∧ signature = signature' ∧ type = type' := by
  rcases slot_of_buildReplayKey_eq hEq with ⟨hSlot, hRest⟩
  -- The bar before the type is the last one.
  have hReversed := congrArg List.reverse hRest
  simp only [reverse_append, reverse_cons,
    append_assoc, singleton_append] at hReversed
  rcases eq_of_append_cons_eq (by simpa using hType) (by simpa using hType') hReversed with
    ⟨hTypes, hSignatures⟩
  exact ⟨hSlot, String.toList_inj.mp (reverse_injective hSignatures),
    String.toList_inj.mp (reverse_injective hTypes)⟩

end AgencCore.Replay
