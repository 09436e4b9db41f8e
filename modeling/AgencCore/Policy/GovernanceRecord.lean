import AgencCore.Eval.CanonicalText

/-
  Records of the governance audit log.

  An event becomes a record: its payload is stripped, redacted and copied into JSON, the record is
  hashed over its canonical JSON and the hash is signed. A record that was stored comes back through
  `JSON.stringify`, `JSON.parse` and a check of its field types.

  A payload is any value of the language, seen as the code sees it: a function, a symbol or a big
  integer only by its text, any other object only by its own entries.
-/

namespace AgencCore.Policy

open Foundations Eval List

section

inductive PayloadValue where
  | undefined
  | null
  | bool (value : Bool)
  | number (value : JsNumber)
  | string (value : String)
  | other (text : String)
  | array (entries : List PayloadValue)
  | object (fields : List (String × PayloadValue))

/- Assign fields one after the other to a new object. -/
def assignFields {α : Type} (fields : List (String × α)) : List (String × α) :=
  (fields.filter assignable).foldl (fun out field => setField out field.1 field.2) []

mutual

def toJsonValue : PayloadValue → Json
| .undefined => .string "undefined"
| .null => .null
| .bool value => .bool value
| .number value => .number value
| .string value => .string value
| .other text => .string text
| .array entries => .array (toJsonEntries entries)
| .object fields => .object (assignFields (enumerationOrder (toJsonFields fields)))

def toJsonEntries : List PayloadValue → List Json
| [] => []
| entry :: rest => toJsonValue entry :: toJsonEntries rest

def toJsonFields : List (String × PayloadValue) → List (String × Json)
| [] => []
| (name, value) :: rest => (name, toJsonValue value) :: toJsonFields rest

end

mutual

/- A JSON value that was read, as a value of the language. -/
def PayloadValue.ofJson : Json → PayloadValue
| .null => .null
| .bool value => .bool value
| .number value => .number value
| .string value => .string value
| .array entries => .array (PayloadValue.ofEntries entries)
| .object fields => .object (PayloadValue.ofFields fields)

def PayloadValue.ofEntries : List Json → List PayloadValue
| [] => []
| entry :: rest => PayloadValue.ofJson entry :: PayloadValue.ofEntries rest

def PayloadValue.ofFields : List (String × Json) → List (String × PayloadValue)
| [] => []
| (name, value) :: rest => (name, PayloadValue.ofJson value) :: PayloadValue.ofFields rest

end

----------
-- Redaction
----------

/-
  What the log takes from its host: JSON and hashing, the text of a time unless it is invalid, the
  keyed hash, and regular expressions.
-/
structure GovernanceHost where
  eval : EvalHost
  toISOString : JsNumber → Option String
  hmac : String → String → String
  replaceAll : String → String → String → String

def redactedMarker : String := "[REDACTED]"

structure CompiledRedactionPolicy where
  redactActors : Bool
  stripFields : List String
  redactPatterns : List String

variable (host : GovernanceHost)

mutual

/- Remove the field at a path of names. -/
def stripFieldPathSegments (key : String) (rest : List String) : PayloadValue → PayloadValue
| .array entries => .array (stripEntries key rest entries)
| .object fields => if fields.all (fun field => field.1 ≠ key) then .object fields
    else
      match rest with
      | [] => .object (assignFields ((enumerationOrder fields).filter (fun field => field.1 ≠ key)))
      | next :: rest' => .object (stripFields key next rest' fields)
| value => value

def stripEntries (key : String) (rest : List String) : List PayloadValue → List PayloadValue
| [] => []
| entry :: entries => stripFieldPathSegments key rest entry :: stripEntries key rest entries

/- The value of the named field is stripped further down. -/
def stripFields (key next : String) (rest : List String) :
    List (String × PayloadValue) → List (String × PayloadValue)
| [] => []
| (name, value) :: fields => (name, if name = key then stripFieldPathSegments next rest value
        else value) :: stripFields key next rest fields

end

def stripFieldPath (value : PayloadValue) (path : String) : PayloadValue :=
  let normalized :=
    if path.startsWith "payload." then String.ofList (path.toList.drop "payload.".toList.length)
    else path
  match (normalized.splitOn ".").filter (fun segment => segment ≠ "") with
  | [] => value
  | key :: rest => stripFieldPathSegments key rest value

/- A text with every match of every pattern replaced. -/
def redactText (patterns : List String) (value : String) : String :=
  patterns.foldl (fun current pattern => host.replaceAll pattern redactedMarker current) value

mutual

def redactPatterns (patterns : List String) : PayloadValue → PayloadValue
| .string value => .string (redactText host patterns value)
| .array entries => .array (redactEntries patterns entries)
| .object fields => .object (assignFields (enumerationOrder (redactFields patterns fields)))
| value => value

def redactEntries (patterns : List String) : List PayloadValue → List PayloadValue
| [] => []
| entry :: rest => redactPatterns patterns entry :: redactEntries patterns rest

def redactFields (patterns : List String) :
    List (String × PayloadValue) → List (String × PayloadValue)
| [] => []
| (name, value) :: rest => (name, redactPatterns patterns value) :: redactFields patterns rest

end

def redactPayload (payload : Option (List (String × PayloadValue)))
    (policy : CompiledRedactionPolicy) : Json :=
  let stripped := policy.stripFields.foldl stripFieldPath (.object (payload.getD []))
  toJsonValue (if policy.redactPatterns = [] then stripped
    else redactPatterns host policy.redactPatterns stripped)

----------
-- Records
----------

inductive GovernanceAuditEventType where
  | policyDenied
  | policyShadowDenied
  | approvalRequested
  | approvalEscalated
  | approvalResolved
  | credentialIssued
  | credentialRevoked
  | runControlled
deriving DecidableEq

def GovernanceAuditEventType.text : GovernanceAuditEventType → String
| .policyDenied => "policy.denied"
| .policyShadowDenied => "policy.shadow_denied"
| .approvalRequested => "approval.requested"
| .approvalEscalated => "approval.escalated"
| .approvalResolved => "approval.resolved"
| .credentialIssued => "credential.issued"
| .credentialRevoked => "credential.revoked"
| .runControlled => "run.controlled"

/-
  A scope object. A field is missing, or it is there and `undefined`, or it is there with a text.
-/
structure AuditScope where
  tenantId : Option (Option String)
  projectId : Option (Option String)
  runId : Option (Option String)
  sessionId : Option (Option String)
  channel : Option (Option String)
deriving DecidableEq

namespace AuditScope

def entries (scope : AuditScope) : List (String × Option String) :=
  [("tenantId", scope.tenantId), ("projectId", scope.projectId), ("runId", scope.runId),
    ("sessionId", scope.sessionId),
    ("channel", scope.channel)].filterMap (fun field => field.2.map (fun value => (field.1, value)))

def toPayload (scope : AuditScope) : PayloadValue :=
  .object (scope.entries.map (fun field => (field.1, match field.2 with
      | none => .undefined
      | some text => .string text)))

/- What `JSON.stringify` leaves of a field. -/
def cloneField (field : Option (Option String)) : Option (Option String) :=
  field.filter Option.isSome

/- `cloneJson(scope)` -/
def clone (scope : AuditScope) : AuditScope :=
  { tenantId := cloneField scope.tenantId, projectId := cloneField scope.projectId
    runId := cloneField scope.runId, sessionId := cloneField scope.sessionId
    channel := cloneField scope.channel }

end AuditScope

structure GovernanceAuditEvent where
  type : GovernanceAuditEventType
  actor : Option String
  subject : Option String
  scope : Option AuditScope
  payload : Option (List (String × PayloadValue))
  timestamp : Option String

/- A record before it is hashed and signed. -/
structure GovernanceAuditFields where
  seq : Nat
  timestamp : String
  type : GovernanceAuditEventType
  actor : Option String
  subject : Option String
  scope : Option AuditScope
  payload : Json
  payloadHash : String
  prevRecordHash : String
  expiresAtMs : Option JsNumber

structure GovernanceAuditRecord extends GovernanceAuditFields where
  recordHash : String
  signature : String

/- A field that is set unless its text is missing or empty. -/
def optionalField (name : String) (text : Option String) : List (String × Json) :=
  ((truthy text).map (fun text => (name, .string text))).toList

def canonicalizeRecord (record : GovernanceAuditFields) : Json :=
  .object
    ([("seq", .number (.ofInt record.seq)), ("timestamp", .string record.timestamp),
        ("type", .string record.type.text)] ++ optionalField "actor" record.actor ++
      optionalField "subject" record.subject ++
      (record.scope.map (fun scope => ("scope", toJsonValue scope.toPayload))).toList ++
      [("payload", record.payload), ("payloadHash", .string record.payloadHash),
        ("prevRecordHash", .string record.prevRecordHash)] ++
      (record.expiresAtMs.map (fun expiresAtMs => ("expiresAtMs", .number expiresAtMs))).toList)

def computeHash (value : Json) : String := host.eval.sha256 (stableStringifyJson host.eval value)

def signRecord (signingKey recordHash : String) : String := host.hmac signingKey recordHash

/-
  A record for an event, built at the given time. Without a timestamp the time has to have a text.
-/
def buildRecord (event : GovernanceAuditEvent) (seq : Nat) (now : JsNumber) (signingKey : String)
    (redaction : CompiledRedactionPolicy) (prevRecordHash : String)
    (retentionMs : Option JsNumber) : Except String GovernanceAuditRecord :=
  match event.timestamp.or (host.toISOString now) with
  | none => .error "Invalid time value"
  | some timestamp =>
    let payload := redactPayload host event.payload redaction
    let actor := if redaction.redactActors then some redactedMarker
      else event.actor
    let baseRecord : GovernanceAuditFields :=
      { seq := seq, timestamp := timestamp, type := event.type, actor := truthy actor
        subject := truthy event.subject, scope := event.scope, payload := payload
        payloadHash := computeHash host payload, prevRecordHash := prevRecordHash
        expiresAtMs := retentionMs.map (fun ms => now.add ms) }
    let recordHash := computeHash host (canonicalizeRecord baseRecord)
    .ok
      { toGovernanceAuditFields := baseRecord, recordHash := recordHash
        signature := signRecord host signingKey recordHash }

/-
  A record as JSON has it. Only the expiry may have lost its type: a number that is not finite is
  read back as `null`.
-/
structure StoredRecord where
  seq : Nat
  timestamp : String
  type : GovernanceAuditEventType
  actor : Option String
  subject : Option String
  scope : Option AuditScope
  payload : Json
  payloadHash : String
  prevRecordHash : String
  recordHash : String
  signature : String
  expiresAtMs : Option Json

/- `cloneJson(record)` -/
def cloneRecord (record : GovernanceAuditRecord) : StoredRecord :=
  { seq := record.seq, timestamp := record.timestamp, type := record.type, actor := record.actor
    subject := record.subject, scope := record.scope.map AuditScope.clone
    payload := reparse record.payload, payloadHash := record.payloadHash
    prevRecordHash := record.prevRecordHash, recordHash := record.recordHash
    signature := record.signature
    expiresAtMs := record.expiresAtMs.map (fun expiresAtMs => reparse (.number expiresAtMs)) }

/-
  The record that a stored one is taken for. The fields that the code tests for being texts and
  numbers are so by the type of `StoredRecord`.
-/
def coerceGovernanceAuditRecord (raw : StoredRecord) : GovernanceAuditRecord :=
  { seq := raw.seq, timestamp := raw.timestamp, type := raw.type, actor := raw.actor
    subject := raw.subject, scope := raw.scope.map AuditScope.clone
    payload := toJsonValue (.ofJson raw.payload), payloadHash := raw.payloadHash
    prevRecordHash := raw.prevRecordHash, recordHash := raw.recordHash, signature := raw.signature
    expiresAtMs :=
      match raw.expiresAtMs with
      | some (.number expiresAtMs) => some expiresAtMs
      | _ => none }

----------
-- Copies
----------

variable {α : Type}
variable {fields : List (String × α)}

/- A name that is new is put at the end. -/
theorem setField_of_not_mem {name : String}
    (hNew : name ∉ fields.map Prod.fst) (value : α) :
    setField fields name value = fields ++ [(name, value)] := by
  unfold setField
  rw [if_neg]
  intro hAny
  rcases List.any_eq_true.mp hAny with ⟨field, hMem, hName⟩
  exact hNew (List.mem_map.mpr ⟨field, hMem, beq_iff_eq.mp hName⟩)

theorem names_setField (hNames : (fields.map Prod.fst).Nodup) (name : String) (value : α) :
    ((setField fields name value).map Prod.fst).Nodup := by
  by_cases hNew : name ∈ fields.map Prod.fst
  · have hSame : (setField fields name value).map Prod.fst = fields.map Prod.fst := by
      unfold setField
      rw [if_pos, List.map_map]
      · apply map_congr_left
        intro field _
        by_cases hName : field.1 = name <;> simp [hName]
      · rcases List.mem_map.mp hNew with ⟨field, hMem, hName⟩
        exact List.any_eq_true.mpr ⟨field, hMem, beq_iff_eq.mpr hName⟩
    rw [hSame]
    exact hNames
  · rw [setField_of_not_mem hNew]
    simpa using hNames.concat hNew

theorem names_assignFields (fields : List (String × α)) :
    ((assignFields fields).map Prod.fst).Nodup := by
  refine List.foldlRecOn (motive := fun out : List (String × α) => (out.map Prod.fst).Nodup)
    _ _ nodup_nil ?_
  intro out hNames field _
  exact names_setField hNames field.1 field.2

/- Fields with distinct names are all kept, in order, but for `__proto__`. -/
theorem assignFields_eq_filter (hNames : (fields.map Prod.fst).Nodup) :
    assignFields fields = fields.filter assignable := by
  have hStep : ∀ rest out : List (String × α), ((out ++ rest).map Prod.fst).Nodup →
          rest.foldl (fun out field => setField out field.1 field.2) out = out ++ rest := by
    intro rest
    induction rest with
    | nil => intro out _; simp
    | cons field rest ih =>
      intro out hAll
      have hNew : field.1 ∉ out.map Prod.fst := by
        rw [map_append, map_cons, nodup_append] at hAll
        intro hMem
        exact hAll.2.2 _ hMem _ mem_cons_self rfl
      rw [foldl_cons, setField_of_not_mem hNew, ih]
      · simp
      · simpa using hAll
  exact hStep _ [] (hNames.sublist (filter_sublist.map Prod.fst))

theorem mem_assignFields {field : String × α}
    (hMem : field ∈ assignFields fields) : field ∈ fields := by
  have hAll : ∀ field ∈ assignFields fields, field ∈ fields := by
    refine List.foldlRecOn (motive := fun out : List (String × α) => ∀ field ∈ out, field ∈ fields)
      _ _ nofun ?_
    intro out hOut added hFilter field hMem
    have hAdded := mem_of_mem_filter hFilter
    unfold setField at hMem
    split at hMem
    · rcases List.mem_map.mp hMem with ⟨old, hOld, rfl⟩
      split
      · exact hAdded
      · exact hOut old hOld
    · rcases List.mem_append.mp hMem with hOld | hNew
      · exact hOut field hOld
      · rw [List.mem_singleton.mp hNew]
        exact hAdded
  exact hAll field hMem

mutual

/- A copy has distinct names in each of its objects. -/
theorem toJsonValue_distinct : (value : PayloadValue) → DistinctNames (toJsonValue value)
| .undefined => by rw [toJsonValue, DistinctNames] <;> simp
| .null => by rw [toJsonValue, DistinctNames] <;> simp
| .bool _ => by rw [toJsonValue, DistinctNames] <;> simp
| .number _ => by rw [toJsonValue, DistinctNames] <;> simp
| .string _ => by rw [toJsonValue, DistinctNames] <;> simp
| .other _ => by rw [toJsonValue, DistinctNames] <;> simp
| .array entries => by
    rw [toJsonValue, DistinctNames]
    exact toJsonEntries_distinct entries
| .object fields => by
    rw [toJsonValue, DistinctNames]
    refine ⟨names_assignFields _, ?_⟩
    rw [distinctFields_iff]
    intro field hMem
    have hAll := (distinctFields_iff _).mp (toJsonFields_distinct fields)
    exact hAll field ((enumerationOrder_perm _).mem_iff.mp (mem_assignFields hMem))

theorem toJsonEntries_distinct :
    (entries : List PayloadValue) → DistinctEntries (toJsonEntries entries)
| [] => by rw [toJsonEntries, DistinctEntries]; trivial
| entry :: rest => by
    rw [toJsonEntries, DistinctEntries]
    exact ⟨toJsonValue_distinct entry, toJsonEntries_distinct rest⟩

theorem toJsonFields_distinct :
    (fields : List (String × PayloadValue)) → DistinctFields (toJsonFields fields)
| [] => by rw [toJsonFields, DistinctFields]; trivial
| (_, value) :: rest => by
    rw [toJsonFields, DistinctFields]
    exact ⟨toJsonValue_distinct value, toJsonFields_distinct rest⟩

end

/- Copying keeps the names of the fields. -/
theorem names_toJsonFields_ofFields (fields : List (String × Json)) :
    (toJsonFields (PayloadValue.ofFields fields)).map Prod.fst = fields.map Prod.fst := by
  induction fields with
  | nil => rfl
  | cons field rest ih => rw [PayloadValue.ofFields, toJsonFields, map_cons, map_cons, ih]

variable (host : EvalHost)

mutual

/- A copy of a JSON value has its canonical text. -/
theorem stableStringifyJson_copy : (value : Json) → DistinctNames value →
      stableStringifyJson host (toJsonValue (PayloadValue.ofJson value)) =
        stableStringifyJson host value
| .null, _ => rfl
| .bool _, _ => rfl
| .number _, _ => rfl
| .string _, _ => rfl
| .array entries, hDistinct => by
    rw [PayloadValue.ofJson, toJsonValue, stableStringifyJson_array, stableStringifyJson_array,
      copyEntries_texts entries hDistinct]
| .object fields, hDistinct => by
    rw [DistinctNames] at hDistinct
    rw [PayloadValue.ofJson, toJsonValue, assignFields_eq_filter]
    · symm
      apply stableStringifyJson_object_perm host ?_ hDistinct.1
      rw [← copyFields_texts fields hDistinct.2, textFields_filter]
      exact (((enumerationOrder_perm _).filter _).map _).symm
    · rw [((enumerationOrder_perm _).map Prod.fst).nodup_iff, names_toJsonFields_ofFields]
      exact hDistinct.1

theorem copyEntries_texts : (entries : List Json) → DistinctEntries entries →
      (toJsonEntries (PayloadValue.ofEntries entries)).map (stableStringifyJson host) =
        entries.map (stableStringifyJson host)
| [], _ => rfl
| entry :: rest, hDistinct => by
    rw [DistinctEntries] at hDistinct
    rw [PayloadValue.ofEntries, toJsonEntries, List.map_cons, List.map_cons,
      stableStringifyJson_copy entry hDistinct.1, copyEntries_texts rest hDistinct.2]

theorem copyFields_texts : (fields : List (String × Json)) →
    DistinctFields fields →
      textFields host (toJsonFields (PayloadValue.ofFields fields)) = textFields host fields
| [], _ => rfl
| (name, value) :: rest, hDistinct => by
    rw [DistinctFields] at hDistinct
    have hRest := copyFields_texts rest hDistinct.2
    rw [PayloadValue.ofFields, toJsonFields, textFields_cons, textFields_cons, hRest,
      stableStringifyJson_copy value hDistinct.1]

end

----------
-- Storing
----------

/- No field of the scope is there and `undefined`. -/
def AuditScope.Defined (scope : AuditScope) : Prop := ∀ field ∈ scope.entries, field.2.isSome = true

instance (scope : AuditScope) : Decidable scope.Defined := inferInstanceAs (Decidable (∀ _ ∈ _, _))

theorem AuditScope.clone_of_defined {scope : AuditScope} (hDefined : scope.Defined) :
    scope.clone = scope := by
  have hField : ∀ (name : String) (field : Option (Option String)),
        (∀ value, field = some value → (name, value) ∈ scope.entries) →
        cloneField field = field := by
    intro name field hMem
    cases field with
    | none => rfl
    | some value =>
      have hSome := hDefined _ (hMem value rfl)
      rw [cloneField, Option.filter_some, if_pos hSome]
  have hEntries : ∀ name field value, (name, field) ∈
            [("tenantId", scope.tenantId), ("projectId", scope.projectId), ("runId", scope.runId),
              ("sessionId", scope.sessionId), ("channel", scope.channel)] →
        field = some value → (name, value) ∈ scope.entries := by
    intro name field value hMem hSome
    exact List.mem_filterMap.mpr ⟨(name, field), hMem, by rw [hSome]; rfl⟩
  have hAll : ∀ name field, (name, field) ∈
            [("tenantId", scope.tenantId), ("projectId", scope.projectId), ("runId", scope.runId),
              ("sessionId", scope.sessionId), ("channel", scope.channel)] →
          cloneField field = field :=
    fun name field hMem => hField name field (fun value => hEntries name field value hMem)
  have hTenant := hAll "tenantId" scope.tenantId (by simp)
  have hProject := hAll "projectId" scope.projectId (by simp)
  have hRun := hAll "runId" scope.runId (by simp)
  have hSession := hAll "sessionId" scope.sessionId (by simp)
  have hChannel := hAll "channel" scope.channel (by simp)
  unfold AuditScope.clone
  rw [hTenant, hProject, hRun, hSession, hChannel]

/- A record that JSON can hold. -/
structure GovernanceAuditRecord.Storable (record : GovernanceAuditRecord) : Prop where
  scope : ∀ scope ∈ record.scope, scope.Defined
  expiry : ∀ ms ∈ record.expiresAtMs, ms.isFinite = true
  payload : DistinctNames record.payload

variable {record : GovernanceAuditRecord}

/- A record that was stored differs in its payload at most. -/
theorem coerce_cloneRecord (hStorable : record.Storable) :
    coerceGovernanceAuditRecord (cloneRecord record) =
      { record with payload := toJsonValue (.ofJson (reparse record.payload)) } := by
  have hScope : (record.scope.map AuditScope.clone).map AuditScope.clone = record.scope := by
    cases hGet : record.scope with
    | none => rfl
    | some scope =>
      have hClone := AuditScope.clone_of_defined (hStorable.scope scope hGet)
      rw [Option.map_some, Option.map_some, hClone, hClone]
  have hExpiry :
      (coerceGovernanceAuditRecord (cloneRecord record)).expiresAtMs = record.expiresAtMs := by
    unfold coerceGovernanceAuditRecord cloneRecord
    cases hGet : record.expiresAtMs with
    | none => rfl
    | some ms =>
      have hFinite := hStorable.expiry ms hGet
      simp only [Option.map_some, reparse, if_pos hFinite]
  unfold coerceGovernanceAuditRecord cloneRecord at hExpiry ⊢
  dsimp only at hExpiry ⊢
  rw [hScope, hExpiry]

/- The stored record has the canonical text of the first. -/
theorem canonicalizeRecord_stored (hStorable : record.Storable) : stableStringifyJson host
        (canonicalizeRecord
          (coerceGovernanceAuditRecord (cloneRecord record)).toGovernanceAuditFields) =
      stableStringifyJson host (canonicalizeRecord record.toGovernanceAuditFields) := by
  have hPayload : stableStringifyJson host (toJsonValue (.ofJson (reparse record.payload))) =
        stableStringifyJson host record.payload :=
    (stableStringifyJson_copy host _
      (reparse_distinct _ hStorable.payload)).trans
        (stableStringifyJson_reparse host _ hStorable.payload)
  rw [coerce_cloneRecord hStorable]
  unfold canonicalizeRecord
  rw [stableStringifyJson_object, stableStringifyJson_object]
  have hTexts : textFields host
          [("payload", toJsonValue (.ofJson (reparse record.payload))),
            ("payloadHash", .string record.payloadHash),
            ("prevRecordHash", .string record.prevRecordHash)] =
        textFields host
          [("payload", record.payload), ("payloadHash", .string record.payloadHash),
            ("prevRecordHash", .string record.prevRecordHash)] := by
    simp only [textFields_cons, hPayload]
  simp only [textFields_append, hTexts]

end

end AgencCore.Policy
