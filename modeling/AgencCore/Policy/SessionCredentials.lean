import AgencCore.Policy.Bundles
import AgencCore.Policy.Matching

/-
  Credentials leased to sessions.

  The broker prepares an injection from the catalog of the policy, and leases a credential to the
  session when it is injected. The leases of all sessions are kept in one map, under a key that
  joins the identifiers of the session and of the credential. The environment, the URL parser and
  the filling of templates come from the host.
-/

namespace AgencCore.Policy

open Foundations

section

structure RuntimeSessionCredentialConfig where
  sourceEnvVar : String
  domains : List String
  headerTemplates : Option (Record String) := none
  allowedTools : Option (List String) := none
  ttlMs : Option JsNumber := none

/- What the broker takes from its host. -/
structure CredentialHost extends PolicyHost where
  env : String → Option String
  urlHostname : String → Option String
  fillTemplate : String → String → String

/- Trimmed entries that are not empty, without repetition. -/
def asNonEmptyStringArray (value : Option (List String)) : List String :=
  (((value.getD []).map trim).filter (fun entry => entry ≠ "")).eraseDups

variable (host : CredentialHost)

def matchDomain (hostname pattern : String) : Bool :=
  let lower := (host.toLowerCase hostname).toList
  let normalized := (host.toLowerCase (trim pattern)).toList
  match normalized with
  | [] => false
  | '*' :: '.' :: rest =>
    let suffix := '.' :: rest
    suffix.isSuffixOf lower && decide (suffix.length < lower.length)
  | normalized => lower == normalized

def defaultHeaderTemplates : Record String :=
  OrderedMap.ofList [("Authorization", "Bearer $\x7bsecret\x7d")]

/- Headers under their trimmed names. -/
def normalizeHeaderTemplates (value : Option (Record String)) : Record String :=
  (Record.objectEntries (value.getD defaultHeaderTemplates)).foldl
    (fun normalized entry => if trim entry.1 = "" then normalized
      else Record.assign normalized (trim entry.1) entry.2) OrderedMap.empty

def extractCredentialTarget (toolName : String) (url : Option String) : Option String :=
  if toolName ∈ ["system.httpGet", "system.httpPost", "system.httpFetch"] then
    (url.map trim).filter (fun url => url ≠ "")
  else none

def formatCredentialError (credentialId sourceEnvVar : String) : String :=
  "Session credential \"" ++ credentialId ++ "\" is unavailable because env." ++ sourceEnvVar ++
    " is not set."

/- The secret of a credential, if the environment has it. -/
def secretOf (config : RuntimeSessionCredentialConfig) : Option String :=
  (host.env config.sourceEnvVar).filter (fun secret => !isBlank secret)

structure ResolvedCredentialMatch where
  credentialId : String
  config : RuntimeSessionCredentialConfig

structure SessionCredentialPreview where
  credentialIds : List String
  headerNames : List String
  domains : List String

structure PreparedSessionCredentialInjection where
  sessionId : String
  toolName : String
  url : String
  preview : SessionCredentialPreview
  resolvedMatches : List ResolvedCredentialMatch

/- Whether a credential is meant for a tool and a host. -/
def applies (toolName hostname : String) (credential : RuntimeSessionCredentialConfig) : Bool :=
  let allowedTools := asNonEmptyStringArray credential.allowedTools
  (allowedTools.isEmpty || allowedTools.contains toolName) &&
    (asNonEmptyStringArray (some credential.domains)).any
      (fun pattern => matchDomain host hostname pattern)

/- The credentials that match, up to the first failure. -/
def resolveMatches (catalog : Option (Record RuntimeSessionCredentialConfig))
    (toolName hostname : String) : List String → Except String (List ResolvedCredentialMatch)
| [] => .ok []
| credentialId :: rest => match catalog.bind (fun catalog => catalog.get? credentialId) with
    | none =>
      .error ("Session credential \"" ++ credentialId ++
        "\" is referenced by policy but missing from " ++ "policy.credentialCatalog.")
    | some credential =>
      if !applies host toolName hostname credential then
        resolveMatches catalog toolName hostname rest
      else if (secretOf host credential).isNone then
        .error (formatCredentialError credentialId credential.sourceEnvVar)
      else
        (resolveMatches catalog toolName hostname rest).map
          (fun later => ⟨credentialId, credential⟩ :: later)

def previewOf (resolvedMatches : List ResolvedCredentialMatch) : SessionCredentialPreview :=
  { credentialIds := resolvedMatches.map ResolvedCredentialMatch.credentialId
    headerNames := (resolvedMatches.flatMap (fun found =>
      Record.objectKeys (normalizeHeaderTemplates found.config.headerTemplates))).eraseDups
    domains := (resolvedMatches.flatMap (fun found =>
      asNonEmptyStringArray (some found.config.domains))).eraseDups }

/- Nothing is prepared if no credential is asked for. -/
def prepare (policy : RuntimePolicyConfig)
    (catalog : Option (Record RuntimeSessionCredentialConfig)) (sessionId toolName : String)
    (url : Option String) (scope : Option PolicyEvaluationScope) :
    Except String (Option PreparedSessionCredentialInjection) :=
  match extractCredentialTarget toolName url with
  | none => .ok none
  | some target =>
    match host.urlHostname target with
    | none => .ok none
    | some hostname => let resolved := resolvePolicyContext (some policy) scope
        let credentialIds := asNonEmptyStringArray resolved.policy.credentialAllowList
        match resolveMatches host catalog toolName hostname credentialIds with
        | .error message => .error message
        | .ok [] => .ok none
        | .ok found =>
          .ok (some
            { sessionId := sessionId, toolName := toolName, url := target
              preview := previewOf found, resolvedMatches := found })

end

----------
-- Leases
----------

structure SessionCredentialLease where
  sessionId : String
  credentialId : String
  sourceEnvVar : String
  domains : List String
  allowedTools : List String
  issuedAt : ℚ
  expiresAt : JsNumber
  revokedAt : Option ℚ := none

structure SessionCredentialBroker where
  leases : OrderedMap String SessionCredentialLease

def SessionCredentialBroker.create : SessionCredentialBroker := { leases := OrderedMap.empty }

/- `Math.floor(value)` -/
def floorNumber : JsNumber → JsNumber
| .finite q => .ofInt ⌊q⌋
| value => value

def leaseKey (sessionId credentialId : String) : String := sessionId ++ ":" ++ credentialId

/- Neither revoked nor expired. -/
def SessionCredentialLease.isLive (now : ℚ) (lease : SessionCredentialLease) : Bool :=
  lease.revokedAt.isNone && JsNumber.lt (.finite now) lease.expiresAt

def newLease (now : ℚ) (sessionId credentialId : String) (config : RuntimeSessionCredentialConfig) :
    SessionCredentialLease :=
  { sessionId := sessionId, credentialId := credentialId, sourceEnvVar := config.sourceEnvVar
    domains := asNonEmptyStringArray (some config.domains)
    allowedTools := asNonEmptyStringArray config.allowedTools, issuedAt := now
    expiresAt := JsNumber.add (.finite now)
      (JsNumber.max (.ofInt 1000) (floorNumber (config.ttlMs.getD (.ofInt 300000)))) }

namespace SessionCredentialBroker

/- A live lease under the key is used again. -/
def issueLease (broker : SessionCredentialBroker) (now : ℚ) (sessionId credentialId : String)
    (config : RuntimeSessionCredentialConfig) : SessionCredentialLease × SessionCredentialBroker :=
  let key := leaseKey sessionId credentialId
  match (broker.leases.get? key).filter (SessionCredentialLease.isLive now) with
  | some existing => (existing, broker)
  | none =>
    let lease := newLease now sessionId credentialId config
    (lease, { leases := broker.leases.set key lease })

variable (host : CredentialHost)

/- The headers of a credential, with its secret filled in. -/
def mergeHeaders (headers : Record String) (config : RuntimeSessionCredentialConfig)
    (secret : String) : Record String :=
  (Record.objectEntries (normalizeHeaderTemplates config.headerTemplates)).foldl
    (fun merged entry => Record.assign merged entry.1 (host.fillTemplate entry.2 secret)) headers

/- The credentials in turn; a missing secret ends the loop. -/
def injectMatches (now : ℚ) (sessionId : String) :
    SessionCredentialBroker → Record String → List ResolvedCredentialMatch →
      Except String (Record String × List SessionCredentialLease) × SessionCredentialBroker
| broker, headers, [] => (.ok (headers, []), broker)
| broker, headers, found :: rest =>
  match secretOf host found.config with
  | none => (.error (formatCredentialError found.credentialId found.config.sourceEnvVar), broker)
  | some secret =>
    let (lease, broker) := broker.issueLease now sessionId found.credentialId found.config
    let (result, broker) := injectMatches now sessionId
      broker (mergeHeaders host headers found.config secret) rest
    (result.map (fun injected => (injected.1, lease :: injected.2)), broker)

def inject (broker : SessionCredentialBroker) (now : ℚ)
    (prepared : PreparedSessionCredentialInjection) (headers : Record String) :
    Except String (Record String × List SessionCredentialLease) × SessionCredentialBroker :=
  injectMatches host now prepared.sessionId broker headers prepared.resolvedMatches

/- A lease that has expired is marked as revoked. -/
def pruneExpiredLease (now : ℚ) (lease : SessionCredentialLease) : SessionCredentialLease :=
  if lease.revokedAt.isSome || JsNumber.lt (.finite now) lease.expiresAt then lease
  else { lease with revokedAt := some now }

def pruneExpiredLeases (broker : SessionCredentialBroker) (now : ℚ) : SessionCredentialBroker :=
  { leases := broker.leases.mapValues (fun _ => pruneExpiredLease now) }

def listLeases (broker : SessionCredentialBroker) (now : ℚ) (sessionId : String) :
    List SessionCredentialLease × SessionCredentialBroker :=
  let broker := broker.pruneExpiredLeases now
  (broker.leases.values.filter (fun lease => lease.sessionId = sessionId ∧ lease.revokedAt = none),
    broker)

/- The leases that a call of `revoke` marks. -/
def isRevoked (sessionId : String) (credentialId : Option String)
    (lease : SessionCredentialLease) : Bool :=
  decide (lease.sessionId = sessionId) && (match credentialId.filter (fun id => id ≠ "") with
    | none => true
    | some id => decide (lease.credentialId = id)) && lease.revokedAt.isNone

def revokeLease (now : ℚ) (sessionId : String) (credentialId : Option String)
    (lease : SessionCredentialLease) : SessionCredentialLease :=
  if isRevoked sessionId credentialId lease then { lease with revokedAt := some now }
  else lease

def revoke (broker : SessionCredentialBroker) (now : ℚ) (sessionId : String)
    (credentialId : Option String) : Nat × SessionCredentialBroker :=
  (broker.leases.values.countP (isRevoked sessionId credentialId),
    { leases := broker.leases.mapValues (fun _ => revokeLease now sessionId credentialId) })

end SessionCredentialBroker

end AgencCore.Policy
