import AgencCore.Foundations.Runs
import AgencCore.Policy.SessionCredentials

/-
  Credential leases and the sessions they belong to.

  Listing and revoking ask a lease for its session, and stay with it. Issuing asks for a key, and
  two pairs of session and credential can have the same key: a live lease of the other pair is then
  handed out. The leases stay with their sessions exactly if no injection finds such a lease.
-/

namespace AgencCore.Policy

open Foundations List OrderedMap

section

inductive BrokerCall where
  | inject (now : ℚ) (prepared : PreparedSessionCredentialInjection) (headers : Record String)
  | listLeases (now : ℚ) (sessionId : String)
  | revoke (now : ℚ) (sessionId : String) (credentialId : Option String)

variable (host : CredentialHost)

def brokerStep (broker : SessionCredentialBroker) : BrokerCall → SessionCredentialBroker
| .inject now prepared headers => (broker.inject host now prepared headers).2
| .listLeases now sessionId => (broker.listLeases now sessionId).2
| .revoke now sessionId credentialId => (broker.revoke now sessionId credentialId).2

/-
  What a call has to do with the sessions: the leases of an injection are those asked for, the
  listed leases are live leases of the session, and a revocation leaves what other sessions list at
  any time.
-/
def StaysWithSession (broker : SessionCredentialBroker) : BrokerCall → Prop
| .inject now prepared headers =>
  ∀ merged leases, (broker.inject host now prepared headers).1 = .ok (merged, leases) →
    leases.map (fun lease => (lease.sessionId, lease.credentialId)) =
      prepared.resolvedMatches.map (fun found => (prepared.sessionId, found.credentialId))
| .listLeases now sessionId =>
  ∀ lease ∈ (broker.listLeases now sessionId).1,
    lease.sessionId = sessionId ∧ lease.isLive now = true
| .revoke now sessionId credentialId =>
  ∀ other later, other ≠ sessionId →
    ((broker.revoke now sessionId credentialId).2.listLeases later other).1 =
      (broker.listLeases later other).1

/-
  If an injection succeeds, a live lease that it finds under a key is for the session and the
  credential of the key.
-/
def KeyIsOwn (broker : SessionCredentialBroker) : BrokerCall → Prop
| .inject now prepared headers =>
  (∃ injected, (broker.inject host now prepared headers).1 = .ok injected) →
  ∀ found ∈ prepared.resolvedMatches, ∀ lease,
    broker.leases.get? (leaseKey prepared.sessionId found.credentialId) = some lease →
    lease.isLive now = true →
    lease.sessionId = prepared.sessionId ∧ lease.credentialId = found.credentialId
| _ => True

end

namespace SessionCredentialBroker

variable (broker : SessionCredentialBroker)

theorem sessionId_pruneExpiredLease (now : ℚ) (lease : SessionCredentialLease) :
    (pruneExpiredLease now lease).sessionId = lease.sessionId := by
  unfold pruneExpiredLease
  split <;> rfl

variable {lease : SessionCredentialLease}

/- A lease that is listed is live. -/
theorem mem_listLeases {now : ℚ} {sessionId : String}
    (hMem : lease ∈ (broker.listLeases now sessionId).1) :
    lease.sessionId = sessionId ∧ lease.isLive now = true := by
  unfold listLeases pruneExpiredLeases at hMem
  dsimp only at hMem
  rw [mem_filter, decide_eq_true_iff, values_mapValues, List.mem_map] at hMem
  rcases hMem with ⟨⟨stored, _, hStored⟩, hSession, hUnrevoked⟩
  refine ⟨hSession, ?_⟩
  unfold pruneExpiredLease at hStored
  split at hStored
  · next hKept =>
      rw [hStored] at hKept
      unfold SessionCredentialLease.isLive
      rw [hUnrevoked] at hKept ⊢
      simpa using hKept
  · rw [← hStored] at hUnrevoked
    cases hUnrevoked

/- Only leases of the session are marked. -/
theorem revokeLease_of_ne (now : ℚ) {sessionId : String} (credentialId : Option String)
    (hNe : lease.sessionId ≠ sessionId) :
    revokeLease now sessionId credentialId lease = lease := by
  unfold revokeLease isRevoked
  simp [hNe]

theorem sessionId_revokeLease (now : ℚ) (sessionId : String) (credentialId : Option String)
    (lease : SessionCredentialLease) :
    (revokeLease now sessionId credentialId lease).sessionId = lease.sessionId := by
  unfold revokeLease
  split <;> rfl

/- A revocation leaves the lists of other sessions. -/
theorem listLeases_revoke (now : ℚ) {sessionId other : String} (credentialId : Option String)
    (later : ℚ) (hNe : other ≠ sessionId) :
    ((broker.revoke now sessionId credentialId).2.listLeases later other).1 =
      (broker.listLeases later other).1 := by
  unfold listLeases pruneExpiredLeases revoke
  dsimp only
  rw [values_mapValues, values_mapValues, values_mapValues]
  induction broker.leases.values with
  | nil => rfl
  | cons lease rest ih =>
    simp only [map_cons, filter_cons]
    by_cases hSession : lease.sessionId = sessionId
    · -- a lease of the session is in neither list
      have hOther : lease.sessionId ≠ other := fun hEq => hNe (hEq.symm.trans hSession)
      simp only [sessionId_pruneExpiredLease, sessionId_revokeLease, hOther, false_and,
        decide_false, Bool.false_eq_true, if_false]
      exact ih
    · rw [revokeLease_of_ne now credentialId hSession, ih]

----------
-- Issuing
----------

variable {broker : SessionCredentialBroker}
variable {now : ℚ}
variable {sessionId : String}

/- The live leases that an injection would find are its own. -/
def OwnKeys (broker : SessionCredentialBroker) (now : ℚ) (sessionId : String)
    (resolvedMatches : List ResolvedCredentialMatch) : Prop :=
  ∀ found ∈ resolvedMatches, ∀ lease,
    broker.leases.get? (leaseKey sessionId found.credentialId) = some lease →
    lease.isLive now = true → lease.sessionId = sessionId ∧ lease.credentialId = found.credentialId

/- Issuing answers with a live lease, or with a new one. -/
theorem issueLease_cases (broker : SessionCredentialBroker) (now : ℚ)
    (sessionId credentialId : String) (config : RuntimeSessionCredentialConfig) :
    (∃ existing, broker.leases.get? (leaseKey sessionId credentialId) = some existing ∧
      existing.isLive now = true ∧
      broker.issueLease now sessionId credentialId config = (existing, broker)) ∨
    ((∀ existing, broker.leases.get? (leaseKey sessionId credentialId) = some existing →
        existing.isLive now = false) ∧
      broker.issueLease now sessionId credentialId config =
        (newLease now sessionId credentialId config,
          { leases := broker.leases.set (leaseKey sessionId credentialId)
              (newLease now sessionId credentialId config) })) := by
  unfold issueLease
  dsimp only
  cases hLive : (broker.leases.get?
      (leaseKey sessionId credentialId)).filter (SessionCredentialLease.isLive now) with
  | some existing =>
    rcases Option.filter_eq_some_iff.mp hLive with ⟨hGet, hExisting⟩
    exact Or.inl ⟨existing, hGet, hExisting, rfl⟩
  | none =>
    refine Or.inr ⟨?_, rfl⟩
    intro existing hGet
    rw [hGet, Option.filter_some] at hLive
    split at hLive
    · cases hLive
    · next hDead => exact Bool.not_eq_true _ ▸ hDead

theorem get?_issueLease_of_live {key : String} {lease : SessionCredentialLease}
    (hGet : broker.leases.get? key = some lease) (hLive : lease.isLive now = true)
    (sessionId credentialId : String) (config : RuntimeSessionCredentialConfig) :
    (broker.issueLease now sessionId credentialId config).2.leases.get? key = some lease := by
  rcases issueLease_cases broker now sessionId credentialId config with
    ⟨_, _, _, hIssue⟩ | ⟨hDead, hIssue⟩
  · rw [hIssue]
    exact hGet
  · rw [hIssue]
    have hNe : leaseKey sessionId credentialId ≠ key := by
      intro hKey
      rw [hDead lease (hKey.symm ▸ hGet)] at hLive
      cases hLive
    dsimp only
    rw [OrderedMap.get?_set_of_ne _ _ hNe]
    exact hGet

variable {found : ResolvedCredentialMatch}
variable {rest : List ResolvedCredentialMatch}

theorem OwnKeys.issueLease
    (hOwn : OwnKeys broker now sessionId (found :: rest)) :
    OwnKeys
      (broker.issueLease now sessionId found.credentialId found.config).2 now sessionId rest := by
  intro later hMem lease hGet hLive
  rcases issueLease_cases broker now sessionId found.credentialId found.config with
    ⟨_, _, _, hIssue⟩ | ⟨_, hIssue⟩
  · rw [hIssue] at hGet
    exact hOwn later (mem_cons_of_mem _ hMem) lease hGet hLive
  · rw [hIssue] at hGet
    dsimp only at hGet
    rw [OrderedMap.get?_set] at hGet
    split at hGet
    · next hKey =>
        rw [← Option.some.inj hGet]
        refine ⟨rfl, ?_⟩
        have hIds := congrArg String.toList hKey
        simp only [leaseKey, String.toList_append, append_cancel_left_eq,
          String.toList_inj] at hIds
        exact hIds
    · exact hOwn later (mem_cons_of_mem _ hMem) lease hGet hLive

variable {host : CredentialHost}
variable {leases : List SessionCredentialLease}

/- A successful injection of a credential and others. -/
theorem injectMatches_cons {headers merged : Record String}
    (hOk :
      (injectMatches host now sessionId broker headers (found :: rest)).1 = .ok (merged, leases)) :
    ∃ later headers', (injectMatches host now sessionId
        (broker.issueLease now sessionId found.credentialId found.config).2 headers' rest).1 =
        .ok (merged, later) ∧
      leases = (broker.issueLease now sessionId found.credentialId found.config).1 :: later := by
  unfold injectMatches at hOk
  split at hOk
  · cases hOk
  · next secret hSecret =>
      dsimp only at hOk
      cases hRest : (injectMatches host now sessionId
          (broker.issueLease now sessionId found.credentialId found.config).2
          (mergeHeaders host headers found.config secret) rest).1 with
      | error message =>
        rw [hRest] at hOk
        cases hOk
      | ok injected =>
        rw [hRest] at hOk
        have hPair := Except.ok.inj hOk
        refine ⟨injected.2, mergeHeaders host headers found.config secret,
          ?_, (congrArg Prod.snd hPair).symm⟩
        have hMerged : injected.1 = merged := congrArg Prod.fst hPair
        rw [hRest, ← hMerged]

/- A successful injection hands out the leases asked for exactly if it finds its own leases only. -/
theorem injectMatches_own_iff {headers : Record String}
    {resolvedMatches : List ResolvedCredentialMatch} {merged : Record String}
    (hOk :
      (injectMatches host now sessionId broker headers resolvedMatches).1 = .ok (merged, leases)) :
    leases.map (fun lease => (lease.sessionId, lease.credentialId)) =
      resolvedMatches.map (fun found => (sessionId, found.credentialId)) ↔
      OwnKeys broker now sessionId resolvedMatches := by
  induction resolvedMatches generalizing broker headers merged leases with
  | nil =>
    have hNil : leases = [] := by
      simp only [injectMatches] at hOk
      exact (congrArg Prod.snd (Except.ok.inj hOk)).symm
    rw [hNil]
    exact ⟨nofun, fun _ => rfl⟩
  | cons found rest ih =>
    rcases injectMatches_cons hOk with ⟨later, headers', hLater, rfl⟩
    rw [map_cons, map_cons, List.cons.injEq, ih hLater]
    constructor
    · rintro ⟨hFirst, hRest⟩ other hMem lease hGet hLive
      rcases List.mem_cons.mp hMem with rfl | hMem
      · rcases issueLease_cases broker now sessionId other.credentialId other.config with
          ⟨existing, hExisting, _, hIssue⟩ | ⟨hDead, _⟩
        · rw [hIssue] at hFirst
          rw [hGet] at hExisting
          rw [Option.some.inj hExisting]
          exact Prod.mk.inj hFirst
        · rw [hDead lease hGet] at hLive
          cases hLive
      · exact hRest other hMem lease (get?_issueLease_of_live hGet hLive _ _ _) hLive
    · intro hOwn
      refine ⟨?_, hOwn.issueLease⟩
      rcases issueLease_cases broker now sessionId found.credentialId found.config with
        ⟨existing, hExisting, hLive, hIssue⟩ | ⟨_, hIssue⟩
      · rcases hOwn found mem_cons_self existing hExisting hLive with ⟨hSession, hCredential⟩
        rw [hIssue, hSession, hCredential]
      · rw [hIssue]
        rfl

end SessionCredentialBroker

----------
-- Leases Stay With Their Session
----------

theorem staysWithSession_iff (host : CredentialHost) (broker : SessionCredentialBroker)
    (call : BrokerCall) : StaysWithSession host broker call ↔ KeyIsOwn host broker call := by
  cases call with
  | listLeases now sessionId => exact ⟨fun _ => trivial, fun _ _ hMem => broker.mem_listLeases hMem⟩
  | revoke now sessionId credentialId =>
    exact ⟨fun _ => trivial,
      fun _ _ later hNe => broker.listLeases_revoke now credentialId later hNe⟩
  | inject now prepared headers =>
    constructor
    · rintro hStays ⟨⟨merged, leases⟩, hOk⟩
      exact (SessionCredentialBroker.injectMatches_own_iff hOk).mp (hStays merged leases hOk)
    · intro hOwn merged leases hOk
      exact (SessionCredentialBroker.injectMatches_own_iff hOk).mpr (hOwn ⟨(merged, leases), hOk⟩)

/-
  In a run, leases stay with their sessions exactly if every injection that succeeds finds its own
  leases only.
-/
theorem leases_stay_with_session_iff (host : CredentialHost) (calls : List BrokerCall) :
    AlongRun (brokerStep host) (StaysWithSession host) .create calls ↔
      AlongRun (brokerStep host) (KeyIsOwn host) .create calls := by
  generalize SessionCredentialBroker.create = broker
  induction calls generalizing broker with
  | nil => exact Iff.rfl
  | cons call rest ih => exact and_congr (staysWithSession_iff host broker call) (ih _)

theorem eq_ok_of_toOption {ε α : Type} {result : Except ε α} {a : α}
    (hOption : result.toOption = some a) : result = .ok a := by
  cases result with
  | error e => cases hOption
  | ok b => rw [Option.some.inj hOption]

/- Two credentials for one host, both set. -/
def twoCredentials : Record RuntimeSessionCredentialConfig :=
  OrderedMap.ofList
    [("c", { sourceEnvVar := "C", domains := ["h"] }),
      ("b:c", { sourceEnvVar := "BC", domains := ["h"] })]

def CredentialHost.basic : CredentialHost where
  toPolicyHost := PolicyHost.basic
  env := fun _ => some "secret"
  urlHostname := fun _ => some "h"
  fillTemplate := fun template _ => template

/- A policy that lets every session use both. -/
def sharingPolicy : RuntimePolicyConfig :=
  { bundle := { credentialAllowList := some ["c", "b:c"] }, defaultTenantId := none
    defaultProjectId := none, tenantBundles := none, projectBundles := none }

def preparedFor (sessionId : String) : Option PreparedSessionCredentialInjection :=
  (prepare CredentialHost.basic sharingPolicy (some twoCredentials) sessionId "system.httpGet"
    (some "http://h") none).toOption.join

/-
  The session `a` is handed the lease of the credential `c` of the session `a:b` for its own
  credential `b:c`.
-/
theorem lease_of_another_session_injected :
    ∃ first second, preparedFor "a:b" = some first ∧ preparedFor "a" = some second ∧
      ¬ AlongRun (brokerStep CredentialHost.basic) (StaysWithSession CredentialHost.basic) .create
        [.inject 0 first OrderedMap.empty, .inject 0 second OrderedMap.empty] := by
  refine ⟨(preparedFor "a:b").get (by decide +kernel), (preparedFor "a").get (by decide +kernel),
    (Option.some_get _).symm, (Option.some_get _).symm, ?_⟩
  intro hRun
  have hStays := hRun.2.1
  unfold StaysWithSession at hStays
  dsimp only at hStays
  have hPairs : ((brokerStep CredentialHost.basic .create
          (.inject 0 ((preparedFor "a:b").get (by decide +kernel))
            OrderedMap.empty)).inject CredentialHost.basic 0
          ((preparedFor "a").get (by decide +kernel))
          OrderedMap.empty).1.toOption.map
            (fun injected => injected.2.map (fun lease => (lease.sessionId, lease.credentialId))) =
        some [("a", "c"), ("a:b", "c")] := by decide +kernel
  rcases Option.map_eq_some_iff.mp hPairs with ⟨⟨merged, leases⟩, hOption, hLeases⟩
  have hOwn := hStays merged leases (eq_ok_of_toOption hOption)
  rw [hLeases] at hOwn
  revert hOwn
  decide +kernel

end AgencCore.Policy
