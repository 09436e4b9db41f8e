import AgencCore.Foundations.Runs
import AgencCore.Policy.Matching

/-
  Approvals of tool calls.

  The gate submits a request for a call that a rule matches, and the call goes on if the request is
  answered with yes or always. A request is answered by an authorised response, by its timer, or
  when the engine is disposed. Roles of a rule are trimmed and blank ones are dropped, so a rule
  with blank roles only lets everybody answer.
-/

namespace AgencCore.Gateway

open Foundations List
open Policy (PolicyHost matchGlob)

/- A rule; without roles everybody may answer. -/
structure ApprovalRule where
  tool : String
  minAmount : Option JsNumber
  argPatterns : List (String × String)
  approverRoles : List String
deriving DecidableEq

/- Arguments of a tool, and how they are read. -/
structure ArgHost (A : Type) where
  isNullOrEmpty : A → Bool
  toNumber : A → JsNumber
  toText : A → String

variable {A : Type}

section Rules

variable (host : PolicyHost)
variable (argHost : ArgHost A)

def extractAmount (args : List (String × A)) : Option JsNumber :=
  ["amount", "reward", "lamports"].findSome? (fun key =>
    (args.lookup key).bind (fun value =>
      if argHost.isNullOrEmpty value ∨ (argHost.toNumber value).isNaN then none
      else some (argHost.toNumber value)))

def ApprovalRule.applies (rule : ApprovalRule) (toolName : String)
    (args : List (String × A)) : Bool :=
  matchGlob host rule.tool toolName &&
    rule.minAmount.all (fun least => (extractAmount argHost args).any (!·.le least)) &&
    rule.argPatterns.all (fun entry =>
      (args.lookup entry.1).any (fun value => matchGlob host entry.2 (argHost.toText value)))

def requiresApproval (rules : List ApprovalRule) (toolName : String)
    (args : List (String × A)) : Option ApprovalRule :=
  rules.find? (·.applies host argHost toolName args)

end Rules

----------
-- Extra Arguments
----------

section ExtraArguments

variable (host : PolicyHost)
variable {argHost : ArgHost A}
variable {args more : List (String × A)}

/- A record with further arguments. -/
def Extends (args more : List (String × A)) : Prop :=
  ∀ key value, args.lookup key = some value → more.lookup key = some value

theorem isNaN_of_extractAmount {amount : JsNumber}
    (hAmount : extractAmount argHost args = some amount) : amount.isNaN = false := by
  rcases List.exists_of_findSome?_eq_some hAmount with ⟨_, _, hRead⟩
  rcases Option.bind_eq_some_iff.mp hRead with ⟨value, _, hSome⟩
  split at hSome
  · cases hSome
  · next hNot =>
    cases hSome
    simpa using (not_or.mp hNot).2

theorem ApprovalRule.applies_of_extends (hExtends : Extends args more)
    (hAmount : ∀ amount ∈ extractAmount argHost args,
      ∃ amount' ∈ extractAmount argHost more, amount.le amount' = true)
    {rule : ApprovalRule} {toolName : String}
    (hApplies : rule.applies host argHost toolName args = true) :
    rule.applies host argHost toolName more = true := by
  simp only [ApprovalRule.applies, Bool.and_eq_true, List.all_eq_true, Option.all_eq_true,
    Option.any_eq_true] at hApplies ⊢
  rcases hApplies with ⟨⟨hTool, hLeast⟩, hPatterns⟩
  refine ⟨⟨hTool, fun least hSome => ?_⟩, fun entry hEntry => ?_⟩
  · rcases hLeast least hSome with ⟨amount, hRead, hOver⟩
    rcases hAmount amount hRead with ⟨amount', hRead', hLe⟩
    refine ⟨amount', hRead', ?_⟩
    -- an amount that is not more than the least leaves the smaller one below it
    rw [Bool.not_eq_true_eq_eq_false, Bool.eq_false_iff] at hOver ⊢
    exact fun hBelow => hOver (JsNumber.le_trans hLe hBelow)
  · rcases hPatterns entry hEntry with ⟨value, hValue, hMatch⟩
    exact ⟨value, hExtends _ _ hValue, hMatch⟩

theorem requiresApproval_over (least : JsNumber) :
    requiresApproval host argHost [⟨"", some least, [], []⟩] "" args ≠ none ↔
      ∃ amount ∈ extractAmount argHost args, amount.le least = false := by
  have hName : matchGlob host "" "" = true := rfl
  simp [requiresApproval, ApprovalRule.applies, hName, Option.any_eq_true]

variable (argHost)

/- Further arguments lift no approval exactly if they do not make the amount smaller. -/
theorem extra_arguments_lift_nothing_iff (hExtends : Extends args more) :
    (∀ rules toolName, requiresApproval host argHost rules toolName args ≠ none →
      requiresApproval host argHost rules toolName more ≠ none) ↔
      ∀ amount ∈ extractAmount argHost args,
        ∃ amount' ∈ extractAmount argHost more, amount.le amount' = true := by
  constructor
  · intro hLifts amount hAmount
    have hOver (least : JsNumber) (hLess : amount.le least = false) :=
      (requiresApproval_over host least).mp
        (hLifts _ "" ((requiresApproval_over host least).mpr ⟨amount, hAmount, hLess⟩))
    rcases hOver .nan (by cases amount <;> rfl) with ⟨amount', hMore, _⟩
    refine ⟨amount', hMore, ?_⟩
    -- otherwise the rule for more than the second amount applies to the first only
    by_contra hNot
    rcases hOver amount' (Bool.eq_false_iff.mpr hNot) with ⟨same, hSame, hLess⟩
    have hNaN := isNaN_of_extractAmount hMore
    rw [Option.mem_unique hSame hMore] at hLess
    cases amount' <;> simp [JsNumber.le, JsNumber.lt, JsNumber.isNaN] at hLess hNaN
  · intro hAmount rules toolName hRequired
    simp only [requiresApproval, ne_eq, List.find?_eq_none, not_forall, not_not] at hRequired ⊢
    rcases hRequired with ⟨rule, hRule, hApplies⟩
    exact ⟨rule, hRule, rule.applies_of_extends host hExtends hAmount hApplies⟩

def numberArgs : ArgHost JsNumber := ⟨fun _ => false, id, fun _ => ""⟩

theorem larger_amount_lifts_nothing :
    requiresApproval PolicyHost.basic numberArgs [⟨"*", some 10, [], []⟩] "transfer"
      [("lamports", 100), ("amount", 200)] ≠ none := by
  have hExtends :
      Extends [("lamports", (100 : JsNumber))] [("lamports", 100), ("amount", 200)] := by
    intro key value hValue
    rw [List.lookup_cons] at hValue ⊢
    split at hValue
    · exact hValue
    · cases hValue
  exact (extra_arguments_lift_nothing_iff PolicyHost.basic numberArgs hExtends).mpr
    (by decide +kernel) _ _ (by decide +kernel)

/- An amount of zero hides the amount in lamports. -/
theorem zero_amount_lifts_approval :
    let rules : List ApprovalRule := [⟨"*", some 10, [], []⟩]
    requiresApproval PolicyHost.basic numberArgs rules "transfer" [("lamports", 100)] ≠ none ∧
      requiresApproval PolicyHost.basic numberArgs rules "transfer"
        [("lamports", 100), ("amount", 0)] = none := by decide +kernel

end ExtraArguments

def normalizeResolverRoles (roles : List String) : List String :=
  ((roles.map trim).filter (· ≠ "")).eraseDups

----------
-- Requests
----------

inductive ApprovalDisposition where
  | yes
  | no
  | always
deriving DecidableEq

structure ApprovalResponse where
  disposition : ApprovalDisposition
  roles : List String
deriving DecidableEq

structure ApprovalRequest where
  id : String
  sessionId : String
  parentSessionId : Option String
  rule : ApprovalRule
  approvalScopeKey : Option String
  requiredApproverRoles : List String

/-
  A submitted request with its timer, the responses that are being notified, and the answers that
  were given. The gated ones are those of the gate.
-/
structure Submission where
  request : ApprovalRequest
  gated : Bool
  timer : Bool
  resolving : List ApprovalResponse
  answers : List ApprovalResponse

/- Elevations and denials are pairs of session and pattern. -/
structure ApprovalEngine where
  elevations : List (String × String)
  denials : List (String × String)
  pending : OrderedMap String Nat
  submissions : List Submission

def ApprovalEngine.start : ApprovalEngine := ⟨[], [], .empty, []⟩

def normalizeResponse (response : ApprovalResponse) : ApprovalResponse :=
  { response with roles := normalizeResolverRoles response.roles }

def isResolutionAuthorized (request : ApprovalRequest) (response : ApprovalResponse) : Bool :=
  let resolverRoles := normalizeResolverRoles response.roles
  if request.requiredApproverRoles = [] then true
  else if resolverRoles = [] then false
  else request.requiredApproverRoles.any (· ∈ resolverRoles)

namespace ApprovalEngine

def elevate (s : ApprovalEngine) (sessionId pattern : String) : ApprovalEngine :=
  { s with elevations := s.elevations.insert (sessionId, pattern) }

def revokeElevation (s : ApprovalEngine) (sessionId : String) : ApprovalEngine :=
  { s with elevations := s.elevations.filter (·.1 ≠ sessionId) }

def deny (s : ApprovalEngine) (sessionId pattern : String) : ApprovalEngine :=
  if trim sessionId = "" then s
  else { s with denials := s.denials.insert (trim sessionId, pattern) }

def clearDeniedPattern (s : ApprovalEngine) (sessionId pattern : String) : ApprovalEngine :=
  if trim sessionId = "" then s
  else { s with denials := s.denials.filter (· ≠ (trim sessionId, pattern)) }

def clearElevatedPattern (s : ApprovalEngine) (sessionId pattern : String) : ApprovalEngine :=
  if trim sessionId = "" then s
  else { s with elevations := s.elevations.filter (· ≠ (trim sessionId, pattern)) }

end ApprovalEngine

/- The pattern that a request elevates or denies. -/
def ApprovalRequest.pattern (request : ApprovalRequest) : String :=
  match request.approvalScopeKey.filter (· ≠ "") with
  | some key => "scope:" ++ key
  | none => request.rule.tool

/- What a response changes for the sessions of a request. -/
def ApprovalEngine.record (s : ApprovalEngine) (request : ApprovalRequest)
    (disposition : ApprovalDisposition) : ApprovalEngine :=
  let sessions := request.sessionId :: (request.parentSessionId.filter (· ≠ "")).toList
  match disposition with
  | .yes => sessions.foldl (·.clearDeniedPattern · request.pattern) s
  | .always => sessions.foldl (·.clearDeniedPattern · request.pattern)
      (s.elevate request.sessionId request.pattern)
  | .no => sessions.foldl (·.deny · request.pattern) s

----------
-- The Gate
----------

inductive PolicyOperation where
  | allow
  | deny
  | clear
  | reset

inductive ApprovalAction (A : Type) where
  | call (toolName : String) (args : List (String × A)) (sessionId requestId : String)
  | requestApproval (request : ApprovalRequest)
  | resolve (requestId : String) (response : ApprovalResponse)
  | notified (i : Nat)
  | timeout (i : Nat)
  | dispose
  | elevate (sessionId pattern : String)
  | revokeElevation (sessionId : String)
  | mutate (sessionId : String) (operation : PolicyOperation) (pattern : Option String)

inductive GateResult where
  | continue
  | block
  | request (rule : ApprovalRule)

section Gate

variable (host : PolicyHost)
variable (argHost : ArgHost A)
variable (rules : List ApprovalRule)

/- Patterns of scopes match no tool by its name. -/
def isPatternMatch (pattern toolName : String) : Bool :=
  !Policy.startsWith pattern.toList "scope:".toList && matchGlob host pattern toolName

namespace ApprovalEngine

def isToolElevated (s : ApprovalEngine) (sessionId toolName : String) : Bool :=
  s.elevations.any (fun entry => entry.1 = sessionId ∧ isPatternMatch host entry.2 toolName)

def isToolDenied (s : ApprovalEngine) (sessionId toolName : String) : Bool :=
  trim sessionId ≠ "" ∧
    s.denials.any (fun entry => entry.1 = trim sessionId ∧ isPatternMatch host entry.2 toolName)

/- `simulate`, and what the hook makes of its decision. -/
def gate (s : ApprovalEngine) (toolName : String) (args : List (String × A))
    (sessionId : String) : GateResult :=
  if toolName = "" then .continue
  else if s.isToolDenied host sessionId toolName then .block
  else if s.isToolElevated host sessionId toolName then .continue
  else
    match requiresApproval host argHost rules toolName args with
    | none => .continue
    | some rule => .request rule

def requestApproval (s : ApprovalEngine) (request : ApprovalRequest)
    (gated : Bool) : ApprovalEngine :=
  { s with
    pending := s.pending.set request.id s.submissions.length
    submissions := s.submissions ++ [⟨request, gated, true, [], []⟩] }

def setSubmission (s : ApprovalEngine) (i : Nat) (submission : Submission) : ApprovalEngine :=
  { s with submissions := s.submissions.set i submission }

def resolve (s : ApprovalEngine) (requestId : String)
    (response : ApprovalResponse) : ApprovalEngine :=
  match s.pending.get? requestId with
  | none => s
  | some i =>
    match s.submissions[i]? with
    | none => s
    | some entry =>
      let normalized := normalizeResponse response
      if isResolutionAuthorized entry.request normalized then
        ({ s with pending := s.pending.delete requestId }
          |>.setSubmission i
            { entry with timer := false, resolving := entry.resolving ++ [normalized] }).record
          entry.request normalized.disposition
      else s

def autoDenied (entry : Submission) : Submission :=
  { entry with timer := false, answers := entry.answers ++ [⟨.no, []⟩] }

def timeout (s : ApprovalEngine) (i : Nat) : ApprovalEngine :=
  match s.submissions[i]? with
  | none => s
  | some entry => if entry.timer then { s with pending := s.pending.delete entry.request.id }
          |>.setSubmission i (autoDenied entry)
      else s

/- The handlers have returned, and the request is answered. -/
def notified (s : ApprovalEngine) (i : Nat) : ApprovalEngine :=
  match s.submissions[i]? with
  | none => s
  | some entry =>
    match entry.resolving with
    | [] => s
    | response :: rest =>
      s.setSubmission i { entry with resolving := rest, answers := entry.answers ++ [response] }

/- Answers the requests that the pending map points to. -/
def dispose (s : ApprovalEngine) : ApprovalEngine where
  elevations := []
  denials := []
  pending := .empty
  submissions := s.submissions.mapIdx (fun i entry =>
    if s.pending.get? entry.request.id = some i then autoDenied entry
    else entry)

def applySessionPolicyMutation (s : ApprovalEngine) (sessionId : String)
    (operation : PolicyOperation) (pattern : Option String) : ApprovalEngine :=
  let session := trim sessionId
  if session = "" then s
  else
    match operation, (pattern.map trim).filter (· ≠ "") with
    | .reset, _ => { s.revokeElevation session with denials := s.denials.filter (·.1 ≠ session) }
    | _, none => s
    | .allow, some text => (s.elevate session text).clearDeniedPattern session text
    | .deny, some text => (s.deny session text).clearElevatedPattern session text
    | .clear, some text => (s.clearDeniedPattern session text).clearElevatedPattern session text

end ApprovalEngine

/- The request that the gate submits for a call. -/
def gateRequest (requestId sessionId : String) (rule : ApprovalRule) : ApprovalRequest where
  id := requestId
  sessionId := sessionId
  parentSessionId := none
  rule := rule
  approvalScopeKey := none
  requiredApproverRoles := normalizeResolverRoles rule.approverRoles

def approvalStep (s : ApprovalEngine) : ApprovalAction A → ApprovalEngine
| .call toolName args sessionId requestId =>
  match s.gate host argHost rules toolName args sessionId with
  | .request rule => s.requestApproval (gateRequest requestId sessionId rule) true
  | _ => s
| .requestApproval request => s.requestApproval request false
| .resolve requestId response => s.resolve requestId response
| .notified i => s.notified i
| .timeout i => s.timeout i
| .dispose => s.dispose
| .elevate sessionId pattern => s.elevate sessionId pattern
| .revokeElevation sessionId => s.revokeElevation sessionId
| .mutate sessionId operation pattern => s.applySessionPolicyMutation sessionId operation pattern

/- The resolver has one of the rule's roles, if there are any. -/
def Authorised (rule : ApprovalRule) (response : ApprovalResponse) : Prop :=
  rule.approverRoles ≠ [] →
    ∃ role ∈ rule.approverRoles, ∃ own ∈ response.roles, trim own = trim role

/- A request has one answer when nothing is outstanding. -/
def AnsweredOnce (entry : Submission) : Prop :=
  entry.answers.length ≤ 1 ∧ (entry.timer = false → entry.resolving = [] → entry.answers.length = 1)

/-
  A call that a rule matches goes on at once only for an elevated session without a denial, and
  later only with an authorised answer; requests are answered once.
-/
def GatedSafely (s : ApprovalEngine) (action : ApprovalAction A) : Prop :=
  (∀ toolName args sessionId requestId, action = .call toolName args sessionId requestId →
    requiresApproval host argHost rules toolName args ≠ none →
    s.gate host argHost rules toolName args sessionId = .continue →
    s.isToolElevated host sessionId toolName = true ∧
      s.isToolDenied host sessionId toolName = false) ∧
  ∀ entry ∈ s.submissions, AnsweredOnce entry ∧
    (entry.gated = true → ∀ response ∈ entry.answers,
      response.disposition ≠ .no → Authorised entry.request.rule response)

/- A role that is given is not blank. -/
def RoleGiven (rule : ApprovalRule) : Prop :=
  rule.approverRoles ≠ [] → ∃ role ∈ rule.approverRoles, trim role ≠ ""

end Gate

----------
-- Sound Engines
----------

theorem mem_normalizeResolverRoles {roles : List String} {role : String} :
    role ∈ normalizeResolverRoles roles ↔ (∃ raw ∈ roles, trim raw = role) ∧ role ≠ "" := by
  simp [normalizeResolverRoles, mem_eraseDups]

theorem authorised_of_required {request : ApprovalRequest}
    (hRequired : request.requiredApproverRoles = normalizeResolverRoles request.rule.approverRoles)
    (hGiven : RoleGiven request.rule) {response : ApprovalResponse}
    (hAllowed : isResolutionAuthorized request response = true) :
    Authorised request.rule response := by
  intro hRoles
  unfold isResolutionAuthorized at hAllowed
  dsimp only at hAllowed
  rw [hRequired] at hAllowed
  split at hAllowed
  · rename_i hNone
    rcases hGiven hRoles with ⟨role, hRole, hText⟩
    have hMem := mem_normalizeResolverRoles.mpr ⟨⟨role, hRole, rfl⟩, hText⟩
    rw [hNone] at hMem
    cases hMem
  split at hAllowed
  · cases hAllowed
  rcases List.any_eq_true.mp hAllowed with ⟨role, hRole, hOwn⟩
  rcases (mem_normalizeResolverRoles.mp hRole).1 with ⟨raw, hRaw, hTrim⟩
  rcases (mem_normalizeResolverRoles.mp (of_decide_eq_true hOwn)).1 with ⟨own, hMem, hTrim'⟩
  exact ⟨raw, hRaw, own, hMem, hTrim'.trans hTrim.symm⟩

/-
  A request is answered by its timer, by a response that is being notified, or it has been answered.
-/
structure SubmissionSound (entry : Submission) : Prop where
  once : entry.timer.toNat + entry.resolving.length + entry.answers.length = 1
  roles : entry.gated = true →
    entry.request.requiredApproverRoles = normalizeResolverRoles entry.request.rule.approverRoles ∧
      RoleGiven entry.request.rule
  authorised : entry.gated = true →
    ∀ response ∈ entry.resolving ++ entry.answers,
      response.disposition ≠ .no → Authorised entry.request.rule response

structure EngineSound (s : ApprovalEngine) : Prop where
  submissions : ∀ entry ∈ s.submissions, SubmissionSound entry
  pending : ∀ id i, s.pending.get? id = some i →
    ∃ entry, s.submissions[i]? = some entry ∧ entry.timer = true ∧ entry.request.id = id

theorem SubmissionSound.answeredOnce {entry : Submission} (h : SubmissionSound entry) :
    AnsweredOnce entry := by
  have hOnce := h.once
  refine ⟨by omega, fun hTimer hNone => ?_⟩
  rw [hTimer, hNone] at hOnce
  simpa using hOnce

theorem SubmissionSound.autoDenied {entry : Submission} (h : SubmissionSound entry)
    (hTimer : entry.timer = true) : SubmissionSound (ApprovalEngine.autoDenied entry) := by
  have hOnce := h.once
  rw [hTimer] at hOnce
  refine ⟨?_, h.roles, ?_⟩
  · simp only [ApprovalEngine.autoDenied, Bool.toNat_false,
      length_append, length_singleton]
    simp only [Bool.toNat_true] at hOnce
    omega
  · intro hGated response hMem hYes
    rcases List.mem_append.mp hMem with hOld | hMem
    · exact h.authorised hGated response (mem_append_left _ hOld) hYes
    rcases List.mem_append.mp hMem with hOld | hNew
    · exact h.authorised hGated response (mem_append_right _ hOld) hYes
    · rw [List.mem_singleton.mp hNew] at hYes
      exact absurd rfl hYes

section Steps

variable {s : ApprovalEngine}
variable (h : EngineSound s)
include h

variable (sessionId pattern : String)

/- Elevations and denials say nothing about requests. -/
theorem EngineSound.elevate : EngineSound (s.elevate sessionId pattern) := { h with }

theorem EngineSound.deny : EngineSound (s.deny sessionId pattern) := by
  unfold ApprovalEngine.deny
  split
  · exact h
  · exact { h with }

theorem EngineSound.clearDenied : EngineSound (s.clearDeniedPattern sessionId pattern) := by
  unfold ApprovalEngine.clearDeniedPattern
  split
  · exact h
  · exact { h with }

theorem EngineSound.clearElevated : EngineSound (s.clearElevatedPattern sessionId pattern) := by
  unfold ApprovalEngine.clearElevatedPattern
  split
  · exact h
  · exact { h with }

omit h in
theorem EngineSound.foldl {change : ApprovalEngine → String → ApprovalEngine}
    (hChange : ∀ t sessionId, EngineSound t → EngineSound (change t sessionId)) (h : EngineSound s)
    (sessions : List String) : EngineSound (sessions.foldl change s) := by
  induction sessions generalizing s with
  | nil => exact h
  | cons sessionId rest ih => exact ih (hChange s sessionId h)

theorem EngineSound.record (request : ApprovalRequest)
    (disposition : ApprovalDisposition) : EngineSound (s.record request disposition) := by
  cases disposition with
  | yes => exact EngineSound.foldl (fun _ sessionId hT => hT.clearDenied sessionId _) h _
  | always =>
    exact EngineSound.foldl (fun _ sessionId hT => hT.clearDenied sessionId _) (h.elevate _ _) _
  | no => exact EngineSound.foldl (fun _ sessionId hT => hT.deny sessionId _) h _

theorem EngineSound.mutate (sessionId : String) (operation : PolicyOperation)
    (pattern : Option String) :
    EngineSound (s.applySessionPolicyMutation sessionId operation pattern) := by
  unfold ApprovalEngine.applySessionPolicyMutation
  dsimp only
  split
  · exact h
  split
  · exact { h with }
  · exact h
  · exact (h.elevate _ _).clearDenied _ _
  · exact (h.deny _ _).clearElevated _ _
  · exact (h.clearDenied _ _).clearElevated _ _

theorem EngineSound.requestApproval {request : ApprovalRequest} {gated : Bool}
    (hRoles : gated = true →
      request.requiredApproverRoles = normalizeResolverRoles request.rule.approverRoles ∧
        RoleGiven request.rule) : EngineSound (s.requestApproval request gated) := by
  refine ⟨?_, ?_⟩
  · exact List.forall_mem_append.mpr
      ⟨h.submissions, List.forall_mem_singleton.mpr ⟨rfl, hRoles, by simp⟩⟩
  · intro id i hGet
    change (s.pending.set request.id _).get? id = some i at hGet
    rw [OrderedMap.get?_set] at hGet
    split at hGet
    · cases hGet
      exact ⟨_, getElem?_concat_length, rfl, ‹_›⟩
    · rcases h.pending id i hGet with ⟨entry, hEntry, hBoth⟩
      have hLt := (List.getElem?_eq_some_iff.mp hEntry).1
      exact ⟨entry, (getElem?_append_left hLt).trans hEntry, hBoth⟩

/- A request goes on, and others stay as they are. -/
theorem EngineSound.setSubmission {i : Nat} {entry new : Submission}
    (hGet : s.submissions[i]? = some entry) (hNew : SubmissionSound new)
    {pending : OrderedMap String Nat}
    (hPending : ∀ id j, pending.get? id = some j →
      s.pending.get? id = some j ∧ (j = i → new.timer = true ∧ new.request.id = id)) :
    EngineSound (ApprovalEngine.setSubmission { s with pending := pending } i new) := by
  have hLt := (List.getElem?_eq_some_iff.mp hGet).1
  refine ⟨?_, ?_⟩
  · intro other hMem
    rcases mem_or_eq_of_mem_set hMem with hOld | rfl
    · exact h.submissions other hOld
    · exact hNew
  · intro id j hJ
    rcases hPending id j hJ with ⟨hOld, hHere⟩
    rcases h.pending id j hOld with ⟨other, hOther, hBoth⟩
    change ∃ entry, (s.submissions.set i new)[j]? = some entry ∧ _
    by_cases hSame : i = j
    · subst hSame
      exact ⟨new, getElem?_set_self hLt, hHere rfl⟩
    · exact ⟨other, (getElem?_set_ne hSame).trans hOther, hBoth⟩

/- The request's own entry is taken out of the map. -/
theorem EngineSound.settled {i : Nat} {entry new : Submission}
    (hGet : s.submissions[i]? = some entry) (hNew : SubmissionSound new) :
    EngineSound (ApprovalEngine.setSubmission
      { s with pending := s.pending.delete entry.request.id } i new) := by
  refine h.setSubmission hGet hNew ?_
  intro id j hJ
  rw [OrderedMap.get?_delete] at hJ
  split at hJ
  · cases hJ
  · rename_i hNe
    refine ⟨hJ, ?_⟩
    rintro rfl
    rcases h.pending id j hJ with ⟨other, hOther, _, hId⟩
    rw [hGet] at hOther
    cases hOther
    exact absurd hId hNe

theorem EngineSound.resolve (requestId : String) (response : ApprovalResponse) :
    EngineSound (s.resolve requestId response) := by
  unfold ApprovalEngine.resolve
  split
  · exact h
  rename_i i hPending
  rcases h.pending requestId i hPending with ⟨entry, hGet, hTimer, rfl⟩
  simp only [hGet]
  split
  · rename_i hAllowed
    have hSound := h.submissions entry (mem_of_getElem? hGet)
    have hOnce := hSound.once
    rw [hTimer, Bool.toNat_true] at hOnce
    have hNew : SubmissionSound
        { entry with
          timer := false, resolving := entry.resolving ++ [normalizeResponse response] } := by
      refine ⟨?_, hSound.roles, ?_⟩
      · simp only [Bool.toNat_false, length_append, length_singleton]
        omega
      · intro hGated other hMem hYes
        rw [append_assoc] at hMem
        rcases List.mem_append.mp hMem with hOld | hMem
        · exact hSound.authorised hGated other (mem_append_left _ hOld) hYes
        rcases List.mem_cons.mp hMem with rfl | hOld
        · rcases hSound.roles hGated with ⟨hRequired, hGiven⟩
          exact authorised_of_required hRequired hGiven hAllowed
        · exact hSound.authorised hGated other (mem_append_right _ hOld) hYes
    exact (h.settled hGet hNew).record _ _
  · exact h

theorem EngineSound.timeout (i : Nat) : EngineSound (s.timeout i) := by
  unfold ApprovalEngine.timeout
  split
  · exact h
  rename_i entry hGet
  split
  · rename_i hTimer
    exact h.settled hGet ((h.submissions entry (mem_of_getElem? hGet)).autoDenied hTimer)
  · exact h

theorem EngineSound.notified (i : Nat) : EngineSound (s.notified i) := by
  unfold ApprovalEngine.notified
  split
  · exact h
  rename_i entry hGet
  split
  · exact h
  rename_i response rest hResolving
  have hSound := h.submissions entry (mem_of_getElem? hGet)
  have hOnce := hSound.once
  have hAll := hSound.authorised
  rw [hResolving] at hOnce hAll
  simp only [length_cons] at hOnce
  have hNew : SubmissionSound
      { entry with resolving := rest, answers := entry.answers ++ [response] } := by
    refine ⟨?_, hSound.roles, ?_⟩
    · simp only [length_append, length_singleton]
      omega
    · intro hGated other hMem
      refine hAll hGated other ?_
      simp only [mem_append, mem_cons, not_mem_nil, or_false] at hMem ⊢
      tauto
  refine h.setSubmission hGet hNew ?_
  intro id j hJ
  refine ⟨hJ, ?_⟩
  rintro rfl
  rcases h.pending id j hJ with ⟨other, hOther, hTimer, _⟩
  rw [hGet] at hOther
  cases hOther
  rw [hTimer, Bool.toNat_true] at hOnce
  omega

theorem EngineSound.dispose : EngineSound s.dispose := by
  refine ⟨?_, fun id i hGet => ?_⟩
  · intro entry hMem
    rcases List.mem_mapIdx.mp hMem with ⟨i, hLt, rfl⟩
    have hSound := h.submissions _ (getElem_mem hLt)
    split
    · rename_i hPending
      rcases h.pending _ i hPending with ⟨other, hGet, hTimer, _⟩
      rw [getElem?_eq_getElem hLt] at hGet
      cases hGet
      exact hSound.autoDenied hTimer
    · exact hSound
  · cases hGet

omit h

variable {rules : List ApprovalRule}

/- What the gate found out when it submits or continues. -/
theorem requires_of_gate {host : PolicyHost} {argHost : ArgHost A}
    {toolName sessionId : String} {args : List (String × A)} {rule : ApprovalRule}
    (hGate : s.gate host argHost rules toolName args sessionId = .request rule) :
    requiresApproval host argHost rules toolName args = some rule := by
  unfold ApprovalEngine.gate at hGate
  split at hGate
  · cases hGate
  split at hGate
  · cases hGate
  split at hGate
  · cases hGate
  split at hGate
  · cases hGate
  · cases hGate
    assumption

theorem elevated_of_gate {host : PolicyHost} {argHost : ArgHost A}
    {toolName sessionId : String} {args : List (String × A)} (hName : toolName ≠ "")
    (hRule : requiresApproval host argHost rules toolName args ≠ none)
    (hGate : s.gate host argHost rules toolName args sessionId = .continue) :
    s.isToolElevated host sessionId toolName = true ∧
      s.isToolDenied host sessionId toolName = false := by
  unfold ApprovalEngine.gate at hGate
  rw [if_neg hName] at hGate
  split at hGate
  · cases hGate
  rename_i hDenied
  split at hGate
  · exact ⟨‹_›, Bool.eq_false_iff.mpr hDenied⟩
  split at hGate
  · contradiction
  · cases hGate

theorem EngineSound.step (host : PolicyHost) (argHost : ArgHost A) (hGiven : ∀ toolName args rule,
      requiresApproval host argHost rules toolName args = some rule → RoleGiven rule)
    (h : EngineSound s) (action : ApprovalAction A) :
    EngineSound (approvalStep host argHost rules s action) := by
  cases action with
  | call toolName args sessionId requestId =>
    unfold approvalStep
    dsimp only
    split
    · rename_i rule hGate
      refine h.requestApproval (fun _ => ⟨rfl, ?_⟩)
      exact hGiven toolName args rule (requires_of_gate hGate)
    · exact h
  | requestApproval request => exact h.requestApproval nofun
  | resolve requestId response => exact h.resolve _ _
  | notified i => exact h.notified i
  | timeout i => exact h.timeout i
  | dispose => exact h.dispose
  | elevate | revokeElevation => exact { h with }
  | mutate sessionId operation pattern => exact h.mutate _ _ _

end Steps

/-
  The calls of all runs are gated safely exactly if matched calls have a name and matching rules
  give a role.
-/
theorem gated_calls_safe_iff (host : PolicyHost) (argHost : ArgHost A) (rules : List ApprovalRule) :
    (∀ actions, AlongRun (approvalStep host argHost rules)
        (GatedSafely host argHost rules) .start actions) ↔
      ∀ toolName args rule, requiresApproval host argHost rules toolName args = some rule →
        toolName ≠ "" ∧ RoleGiven rule := by
  constructor
  · intro hSafe toolName args rule hRule
    have hName : toolName ≠ "" := by
      rintro rfl
      have hFirst := (hSafe [.call "" args "s" "x"]).1.1 "" args "s" "x" rfl (by simp [hRule]) rfl
      simp [ApprovalEngine.isToolElevated, ApprovalEngine.start] at hFirst
    refine ⟨hName, ?_⟩
    intro hRoles
    by_contra hBlank
    have hNone : normalizeResolverRoles rule.approverRoles = [] := by
      refine List.eq_nil_iff_forall_not_mem.mpr ?_
      intro role hMem
      rcases mem_normalizeResolverRoles.mp hMem with ⟨⟨raw, hRaw, rfl⟩, hText⟩
      exact hBlank ⟨raw, hRaw, hText⟩
    have hNobody : normalizeResolverRoles [] = [] := rfl
    have hSent := (hSafe
      [.call toolName args "s" "x", .resolve "x" ⟨.yes, []⟩, .notified 0, .dispose]).2.2.2.1.2
    have hAnswered := hSent ⟨gateRequest "x" "s" rule, true, false, [], [⟨.yes, []⟩]⟩
      (by
        simp [approvalStep, ApprovalEngine.gate, hName, hRule,
          ApprovalEngine.isToolDenied, ApprovalEngine.start,
          ApprovalEngine.isToolElevated, gateRequest, hNone, ApprovalEngine.requestApproval,
          ApprovalEngine.resolve, isResolutionAuthorized, normalizeResponse, ApprovalEngine.record,
          ApprovalEngine.setSubmission, ApprovalEngine.clearDeniedPattern, hNobody,
          ApprovalEngine.notified])
    rcases hAnswered.2 rfl ⟨.yes, []⟩ mem_cons_self
      (by simp) hRoles with ⟨role, _, own, hOwn, _⟩
    cases hOwn
  · intro hGiven actions
    have hStart : EngineSound .start :=
      ⟨by simp [ApprovalEngine.start], by simp [ApprovalEngine.start]⟩
    refine AlongRun.of_preserved ?_ hStart actions
    intro s action h
    refine ⟨⟨?_, ?_⟩, h.step host argHost (fun _ _ _ hRule => (hGiven _ _ _ hRule).2) action⟩
    · intro toolName args sessionId requestId _ hRule hGate
      rcases Option.ne_none_iff_exists'.mp hRule with ⟨rule, hSome⟩
      exact elevated_of_gate (hGiven _ _ _ hSome).1 hRule hGate
    · intro entry hMem
      have hSound := h.submissions entry hMem
      exact ⟨hSound.answeredOnce,
        fun hGated response hAnswer =>
          hSound.authorised hGated response (mem_append_right _ hAnswer)⟩

def textArgs : ArgHost String := ⟨(· = ""), fun _ => .nan, id⟩

/- A response without roles for a rule with a blank role. -/
theorem blank_role_lets_everybody_approve :
    let rules : List ApprovalRule := [⟨"wallet.sign", none, [], [" "]⟩]
    let s := runSteps (approvalStep PolicyHost.basic textArgs rules) .start
      [.call "wallet.sign" [] "s" "x", .resolve "x" ⟨.yes, []⟩, .notified 0]
    ¬ GatedSafely PolicyHost.basic textArgs rules s .dispose := by
  intro rules s hSafe
  have hEntry : s.submissions.map (fun entry =>
      (entry.gated, entry.request.rule.approverRoles,
        entry.answers)) = [(true, [" "], [⟨.yes, []⟩])] := by decide +kernel
  rcases List.map_eq_cons_iff.mp hEntry with ⟨entry, rest, hList, hFields, _⟩
  simp only [Prod.mk.injEq] at hFields
  rcases hFields with ⟨hGated, hRoles, hAnswers⟩
  have hMem : entry ∈ s.submissions := by simp [hList]
  rcases (hSafe.2 entry hMem).2 hGated ⟨.yes, []⟩
    (by simp [hAnswers]) (by simp) (by simp [hRoles]) with ⟨role, _, own, hOwn, _⟩
  cases hOwn

end AgencCore.Gateway
