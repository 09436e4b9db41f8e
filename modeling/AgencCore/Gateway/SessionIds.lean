import AgencCore.Foundations.OrderedMap
import AgencCore.Foundations.Text

/-
  Session lookups and the sessions they share.

  A session is found under the digest of a text that joins the workspace and the components of the
  effective scope with NUL characters. Nothing escapes a NUL inside of a component, so as soon as
  one lookup has another scope than `main`, two lookups across a boundary share a session.
-/

namespace AgencCore.Gateway

open Foundations String

inductive SessionScope where
  | main
  | perPeer
  | perChannelPeer
  | perAccountChannelPeer
deriving DecidableEq

inductive MessageScope where
  | dm
  | group
  | thread
deriving DecidableEq

structure SessionLookupParams where
  workspaceId : String
  channel : String
  senderId : String
  scope : MessageScope
  guildId : Option String
  threadId : Option String
deriving DecidableEq

/- `Partial<SessionConfig>` -/
structure SessionConfigOverride where
  scope : Option SessionScope
  overrides : Option (MessageScope → Option SessionConfigOverride)
  channelOverrides : Option (String → Option SessionConfigOverride)

structure SessionIdConfig where
  scope : SessionScope
  overrides : Option (MessageScope → Option SessionConfigOverride)
  channelOverrides : Option (String → Option SessionConfigOverride)

def mergeConfig (base : SessionIdConfig) (override : SessionConfigOverride) : SessionIdConfig where
  scope := override.scope.getD base.scope
  overrides := override.overrides <|> base.overrides
  channelOverrides := override.channelOverrides <|> base.channelOverrides

/- Base, then the channel's override, then the scope's. -/
def resolveConfig (config : SessionIdConfig) (params : SessionLookupParams) : SessionIdConfig :=
  let merged :=
    match config.channelOverrides.bind (· params.channel) with
    | some override => mergeConfig config override
    | none => config
  match merged.overrides.bind (· params.scope) with
  | some override => mergeConfig merged override
  | none => merged

def sessionText (params : SessionLookupParams) : SessionScope → String
| .main => params.workspaceId ++ "\x00" ++ "main"
| .perPeer => params.workspaceId ++ "\x00" ++ params.senderId
| .perChannelPeer => params.workspaceId ++ "\x00" ++ params.channel ++ "\x00" ++ params.senderId
| .perAccountChannelPeer =>
  params.workspaceId ++ "\x00" ++ params.channel ++ "\x00" ++ params.senderId ++
    "\x00" ++ params.guildId.getD "" ++ "\x00" ++ params.threadId.getD ""

section Lookups

variable (sha256hex : String → String)

def deriveSessionId (params : SessionLookupParams) (scope : SessionScope) : String :=
  "session:" ++ sha256hex (sessionText params scope)

/- A session object; `object` tells two objects apart. -/
structure GatewaySession where
  object : Nat
  id : String
  workspaceId : String
deriving DecidableEq

structure SessionManager where
  config : SessionIdConfig
  sessions : OrderedMap String GatewaySession
  created : Nat
  filed : ∀ id session, sessions.get? id = some session → session.id = id

namespace SessionManager

def start (config : SessionIdConfig) : SessionManager where
  config := config
  sessions := .empty
  created := 0
  filed := by simp

def getOrCreate (manager : SessionManager) (params : SessionLookupParams) :
    GatewaySession × SessionManager :=
  let id := deriveSessionId sha256hex params (resolveConfig manager.config params).scope
  match manager.sessions.get? id with
  | some existing => (existing, manager)
  | none => let session : GatewaySession := ⟨manager.created, id, params.workspaceId⟩
      (session,
        { manager with
          sessions := manager.sessions.set id session, created := manager.created + 1, filed := by
            intro key found hFound
            rw [OrderedMap.get?_set] at hFound
            split at hFound
            · rename_i hKey
              cases hFound
              exact hKey
            · exact manager.filed key found hFound })

theorem id_getOrCreate (manager : SessionManager) (params : SessionLookupParams) :
    (manager.getOrCreate sha256hex params).1.id =
      deriveSessionId sha256hex params (resolveConfig manager.config params).scope := by
  unfold getOrCreate
  dsimp only
  split
  · rename_i existing hFound
    exact manager.filed _ existing hFound
  · rfl

end SessionManager

end Lookups

----------
-- Isolation
----------

def effectiveScope (config : SessionIdConfig) (params : SessionLookupParams) : SessionScope :=
  (resolveConfig config params).scope

def Agree (p q : SessionLookupParams) : SessionScope → Prop
| .main => True
| .perPeer => p.senderId = q.senderId
| .perChannelPeer => p.channel = q.channel ∧ p.senderId = q.senderId
| .perAccountChannelPeer =>
  p.channel = q.channel ∧ p.senderId = q.senderId ∧ p.guildId = q.guildId ∧ p.threadId = q.threadId

/- The lookups are on one side of every boundary. -/
def Isolated (config : SessionIdConfig) (p q : SessionLookupParams) : Prop :=
  p.workspaceId = q.workspaceId ∧ Agree p q (effectiveScope config p) ∧
    Agree p q (effectiveScope config q)

/-
  Whatever happened to the manager before either lookup, one session object is returned for lookups
  of one side only.
-/
def SharesOnlyWithin (sha256hex : String → String) (config : SessionIdConfig)
    (p q : SessionLookupParams) : Prop :=
  ∀ before after : SessionManager, before.config = config → after.config = config →
      (before.getOrCreate sha256hex p).1 = (after.getOrCreate sha256hex q).1 → Isolated config p q

/- The components that are joined. -/
def sessionParts (params : SessionLookupParams) : SessionScope → List String
| .main => [params.workspaceId, "main"]
| .perPeer => [params.workspaceId, params.senderId]
| .perChannelPeer => [params.workspaceId, params.channel, params.senderId]
| .perAccountChannelPeer =>
  [params.workspaceId, params.channel, params.senderId,
    params.guildId.getD "", params.threadId.getD ""]

/-
  A lookup whose text can be taken apart: no component has a NUL, a peer is not called `main`, and a
  guild or thread that is given is not empty.
-/
structure Separable (scope : SessionScope) (params : SessionLookupParams) : Prop where
  plain : ∀ part ∈ sessionParts params scope, '\x00' ∉ part.toList
  peer : scope = .perPeer → params.senderId ≠ "main"
  given : params.guildId ≠ some "" ∧ params.threadId ≠ some ""

theorem toList_sessionText (params : SessionLookupParams) (scope : SessionScope) :
    (sessionText params scope).toList =
      ['\x00'].intercalate ((sessionParts params scope).map String.toList) := by
  cases scope <;> simp [sessionText, sessionParts, List.intercalate]

variable {p q : SessionLookupParams}

theorem sessionParts_eq {s t : SessionScope} (hP : Separable s p)
    (hQ : Separable t q) (hText : sessionText p s = sessionText q t) :
    sessionParts p s = sessionParts q t := by
  have hSplit (params : SessionLookupParams) (scope : SessionScope)
      (hSep : Separable scope params) :
      (sessionText params scope).toList.splitOn '\x00' =
        (sessionParts params scope).map String.toList := by
    rw [toList_sessionText]
    apply List.splitOn_intercalate
    · intro chars hChars
      rcases List.mem_map.mp hChars with ⟨part, hPart, rfl⟩
      exact hSep.plain part hPart
    · cases scope <;> simp [sessionParts]
  have hMap := hSplit p s hP
  rw [hText, hSplit q t hQ] at hMap
  exact (List.map_injective_iff.mpr (fun _ _ => toList_inj.mp) hMap).symm

theorem getD_empty_inj {a b : Option String} (hA : a ≠ some "") (hB : b ≠ some "")
    (hEq : a.getD "" = b.getD "") : a = b := by cases a <;> cases b <;> simp_all

/- Equal parts come from one scope and one side. -/
theorem agree_of_sessionParts_eq {s t : SessionScope}
    (hP : Separable s p) (hQ : Separable t q) (hParts : sessionParts p s = sessionParts q t) :
    p.workspaceId = q.workspaceId ∧ Agree p q s ∧ Agree p q t := by
  cases s <;> cases t <;>
    simp only [sessionParts, List.cons.injEq, and_true, reduceCtorEq, and_false] at hParts
  case main.main => exact ⟨hParts, trivial, trivial⟩
  case main.perPeer => exact absurd hParts.2.symm (hQ.peer rfl)
  case perPeer.main => exact absurd hParts.2 (hP.peer rfl)
  case perPeer.perPeer => exact ⟨hParts.1, hParts.2, hParts.2⟩
  case perChannelPeer.perChannelPeer => exact ⟨hParts.1, hParts.2, hParts.2⟩
  case perAccountChannelPeer.perAccountChannelPeer =>
    rcases hParts with ⟨hWorkspace, hChannel, hSender, hGuild, hThread⟩
    have hAgree : Agree p q .perAccountChannelPeer :=
      ⟨hChannel, hSender, getD_empty_inj hP.given.1 hQ.given.1 hGuild,
        getD_empty_inj hP.given.2 hQ.given.2 hThread⟩
    exact ⟨hWorkspace, hAgree, hAgree⟩

variable {sha256hex : String → String}

theorem sessionText_eq_of_shared (hInj : Function.Injective sha256hex)
    {before after : SessionManager}
    (hSame : (before.getOrCreate sha256hex p).1 = (after.getOrCreate sha256hex q).1) :
    sessionText p (effectiveScope before.config p) =
      sessionText q (effectiveScope after.config q) := by
  have hId := congrArg GatewaySession.id hSame
  rw [SessionManager.id_getOrCreate, SessionManager.id_getOrCreate] at hId
  exact hInj (append_right_inj _ |>.mp hId)

variable {config : SessionIdConfig}

/- Lookups whose texts can be taken apart are kept apart. -/
theorem sharesOnlyWithin_of_separable
    (hInj : Function.Injective sha256hex)
    (hP : Separable (effectiveScope config p) p) (hQ : Separable (effectiveScope config q) q) :
    SharesOnlyWithin sha256hex config p q := by
  intro before after hBefore hAfter hSame
  have hText := sessionText_eq_of_shared hInj hSame
  rw [hBefore, hAfter] at hText
  exact agree_of_sessionParts_eq hP hQ (sessionParts_eq hP hQ hText)

theorem sharesOnlyWithin_of_main (hInj : Function.Injective sha256hex)
    (hP : effectiveScope config p = .main)
    (hQ : effectiveScope config q = .main) : SharesOnlyWithin sha256hex config p q := by
  intro before after hBefore hAfter hSame
  have hText := sessionText_eq_of_shared hInj hSame
  rw [hBefore, hAfter, hP, hQ] at hText
  refine ⟨?_, by rw [hP]; trivial, by rw [hQ]; trivial⟩
  simp only [sessionText, append_assoc] at hText
  exact (append_left_inj _).mp hText

----------
-- Collisions
----------

/- The second lookup finds the session of the first. -/
theorem getOrCreate_twice (sha256hex : String → String) (config : SessionIdConfig)
    (hText : sessionText p (effectiveScope config p) = sessionText q (effectiveScope config q)) :
    ∃ after : SessionManager, after.config = config ∧
      ((SessionManager.start config).getOrCreate
        sha256hex p).1 = (after.getOrCreate sha256hex q).1 := by
  refine ⟨((SessionManager.start config).getOrCreate sha256hex p).2, rfl, ?_⟩
  have hId : deriveSessionId sha256hex q
      (resolveConfig config q).scope = deriveSessionId sha256hex p (resolveConfig config p).scope :=
    congrArg (fun text => "session:" ++ sha256hex text) hText.symm
  simp only [SessionManager.getOrCreate, SessionManager.start,
    OrderedMap.get?_empty, hId, OrderedMap.get?_set_self]

/-
  A lookup and its twin in another workspace: what follows the first NUL moves from the sender to
  the workspace.
-/
def innerLookup (params : SessionLookupParams) : SessionLookupParams :=
  { params with senderId := params.channel ++ "\x00" ++ params.senderId }

def outerLookup (params : SessionLookupParams) : SessionLookupParams :=
  { params with workspaceId := params.workspaceId ++ "\x00" ++ params.channel }

theorem not_sharesOnlyWithin (sha256hex : String → String)
    {params : SessionLookupParams} (hScope : effectiveScope config params ≠ .main) :
    ¬ SharesOnlyWithin sha256hex config (innerLookup params) (outerLookup params) := by
  have hInner : effectiveScope config (innerLookup params) = effectiveScope config params := rfl
  have hOuter : effectiveScope config (outerLookup params) = effectiveScope config params := rfl
  have hText : sessionText (innerLookup params)
      (effectiveScope config (innerLookup params)) =
        sessionText (outerLookup params) (effectiveScope config (outerLookup params)) := by
    rw [hInner, hOuter]
    cases hCase : effectiveScope config params with
    | main => exact absurd hCase hScope
    | perPeer | perChannelPeer | perAccountChannelPeer =>
      simp only [sessionText, innerLookup, outerLookup, append_assoc]
  rcases getOrCreate_twice sha256hex config hText with ⟨after, hConfig, hSame⟩
  intro hWithin
  have hWorkspace := (hWithin _ after rfl hConfig hSame).1
  have hLength : params.workspaceId.toList.length =
      (params.workspaceId ++ "\x00" ++ params.channel).toList.length :=
    congrArg (·.toList.length) hWorkspace
  rw [toList_append, toList_append, List.length_append, List.length_append] at hLength
  have hSeparator : "\x00".toList.length = 1 := rfl
  omega

/-
  A configuration keeps all lookups apart exactly if their scopes are all `main`. Whatever the
  configuration, the lookups that can be taken apart are kept apart.
-/
theorem sessions_isolated_iff {sha256hex : String → String} (hInj : Function.Injective sha256hex)
    (config : SessionIdConfig) :
    ((∀ p q, SharesOnlyWithin sha256hex config p q) ↔ ∀ p, effectiveScope config p = .main) ∧
      ∀ p q, Separable (effectiveScope config p) p →
        Separable (effectiveScope config q) q → SharesOnlyWithin sha256hex config p q := by
  refine ⟨⟨fun hAll params => ?_, fun hMain p q => ?_⟩,
    fun _ _ => sharesOnlyWithin_of_separable hInj⟩
  · by_contra hScope
    exact not_sharesOnlyWithin sha256hex hScope (hAll (innerLookup params) (outerLookup params))
  · exact sharesOnlyWithin_of_main hInj (hMain p) (hMain q)

def perPeerConfig : SessionIdConfig where
  scope := .perPeer
  overrides := none
  channelOverrides := none

def peerLookup (workspaceId senderId : String) : SessionLookupParams where
  workspaceId := workspaceId
  channel := "web"
  senderId := senderId
  scope := .dm
  guildId := none
  threadId := none

theorem per_peer_lookups_kept_apart :
    SharesOnlyWithin id perPeerConfig (peerLookup "a" "b") (peerLookup "a" "c") :=
  (sessions_isolated_iff Function.injective_id perPeerConfig).2 _ _
    ⟨by decide, by decide, by decide⟩ ⟨by decide, by decide, by decide⟩

theorem peers_of_two_workspaces_share :
    let first := (SessionManager.start perPeerConfig).getOrCreate id (peerLookup "a" "b\x00c")
    let second := first.2.getOrCreate id (peerLookup "a\x00b" "c")
    first.1 = second.1 ∧
      ¬ Isolated perPeerConfig (peerLookup "a" "b\x00c") (peerLookup "a\x00b" "c") := by
  refine ⟨by decide +kernel, ?_⟩
  intro hIsolated
  exact absurd hIsolated.1 (by decide)

end AgencCore.Gateway
