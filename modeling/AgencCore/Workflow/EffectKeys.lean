import AgencCore.Foundations.JsonText
import AgencCore.Workflow.Effects

/-
  Idempotency keys of effects.

  Inside of a pipeline the key is joined from the pipeline, the index and the name of the step;
  outside it is the key that the tool call brings, under the name of the tool, or a digest of the
  call. Only the digest knows the session, and no part is escaped, so different actions can have one
  key and then share one record.
-/

namespace AgencCore.Workflow

open Foundations List

structure StepRef where
  pipelineId : String
  stepName : String
  stepIndex : Nat
deriving DecidableEq

def StepRef.indexAndName (step : StepRef) : String :=
  ":step:" ++ toString step.stepIndex ++ ":" ++ step.stepName

def buildPipelineEffectIdempotencyKey (step : StepRef) : String :=
  "pipeline:" ++ step.pipelineId ++ step.indexAndName

/-
  A tool call: the `idempotencyKey` among its arguments if that is a text, and the JSON text of its
  arguments.
-/
structure EffectToolCall where
  sessionId : String
  toolName : String
  toolCallId : String
  providedKey : Option String
  argsText : String
deriving DecidableEq

namespace EffectToolCall

def ownKey (call : EffectToolCall) : Option String := (call.providedKey.map trim).filter (· ≠ "")

def textOfCall (call : EffectToolCall) : String :=
  ",\"toolName\":" ++ quoteText call.toolName ++ ",\"toolCallId\":" ++ quoteText call.toolCallId ++
    ",\"args\":" ++ call.argsText ++ "\x7d"

def text (call : EffectToolCall) : String :=
  "\x7b\"sessionId\":" ++ (quoteText call.sessionId ++ call.textOfCall)

end EffectToolCall

variable (sha256hex : String → String)

def deriveEffectIdempotencyKey (call : EffectToolCall) (contextKey : Option String) : String :=
  match contextKey.filter (· ≠ "") with
  | some key => key
  | none =>
    match call.ownKey with
    | some key => call.toolName ++ ":" ++ key
    | none => "tool:" ++ sha256hex call.text

inductive EffectAction where
  | outside (call : EffectToolCall)
  | inStep (call : EffectToolCall) (step : StepRef)
deriving DecidableEq

def EffectAction.key : EffectAction → String
| .outside call => deriveEffectIdempotencyKey sha256hex call none
| .inStep call step =>
  deriveEffectIdempotencyKey sha256hex call (some (buildPipelineEffectIdempotencyKey step))

/- Actions that should not share a record. -/
def Different : EffectAction → EffectAction → Prop
| .outside a, .outside b => a.sessionId ≠ b.sessionId
| .inStep _ s, .inStep _ t => s ≠ t
| _, _ => True

/- A pipeline's id that goes on like the key of a step. -/
def Continues (s t : StepRef) : Prop :=
  ∃ more, more ≠ "" ∧ t.pipelineId = s.pipelineId ++ more ∧ s.indexAndName = more ++ t.indexAndName

/-
  Two names with their keys: they are the same, or one name goes on at a colon with a text with
  which the key of the other begins.
-/
def RunTogether (name key name' key' : String) : Prop :=
  name = name' ∧ key = key' ∨
    (∃ more, name' = name ++ ":" ++ more ∧ key = more ++ ":" ++ key') ∨
    ∃ more, name = name' ++ ":" ++ more ∧ key' = more ++ ":" ++ key

/-
  The ways in which different actions have one key. A digest counts as the key of a tool named
  `tool`, and a step as the key of a tool named `pipeline`.
-/
def Clash : EffectAction → EffectAction → Prop
| .outside a, .outside b =>
  a.sessionId ≠ b.sessionId ∧
    match a.ownKey, b.ownKey with
    | some k, some l => RunTogether a.toolName k b.toolName l
    | some k, none => RunTogether a.toolName k "tool" (sha256hex b.text)
    | none, some l => RunTogether b.toolName l "tool" (sha256hex a.text)
    | none, none => False
| .inStep _ s, .inStep _ t => Continues s t ∨ Continues t s
| .outside a, .inStep _ s | .inStep _ s, .outside a =>
  ∃ k ∈ a.ownKey, RunTogether a.toolName k "pipeline" (s.pipelineId ++ s.indexAndName)

----------
-- Equal Keys
----------

/- A name and a key that are joined by a colon. -/
theorem join_eq_iff (name key name' key' : String) :
    name ++ ":" ++ key = name' ++ ":" ++ key' ↔ RunTogether name key name' key' := by
  have hSplit {x y k l : List Char} (hEq : x ++ ':' :: k = y ++ ':' :: l) :
      x = y ∧ k = l ∨ (∃ more, y = x ++ ':' :: more ∧ k = more ++ ':' :: l) ∨
        ∃ more, x = y ++ ':' :: more ∧ l = more ++ ':' :: k := by
    rcases append_eq_append_iff.mp hEq with ⟨more, hName, hKey⟩ | ⟨more, hName, hKey⟩ <;>
      cases more <;> simp_all [eq_comm]
  constructor
  · intro hEq
    have hList := congrArg String.toList hEq
    simp only [String.toList_append, append_assoc] at hList
    refine (hSplit hList).imp (fun hSame => ?_) (Or.imp ?_ ?_)
    · exact ⟨String.toList_inj.mp hSame.1, String.toList_inj.mp hSame.2⟩
    all_goals
      rintro ⟨more, hName, hKey⟩
      refine ⟨String.ofList more, String.toList_inj.mp ?_, String.toList_inj.mp ?_⟩
      · simpa using hName
      · simpa using hKey
  · rintro (⟨rfl, rfl⟩ | ⟨more, rfl, rfl⟩ | ⟨more, rfl, rfl⟩) <;> simp only [String.append_assoc]

theorem key_inStep (call : EffectToolCall) (step : StepRef) :
    (EffectAction.inStep call step).key sha256hex = buildPipelineEffectIdempotencyKey step := by
  have hSome : buildPipelineEffectIdempotencyKey step ≠ "" := by
    intro hEmpty
    have := congrArg String.toList hEmpty
    simp [buildPipelineEffectIdempotencyKey] at this
  simp [EffectAction.key, deriveEffectIdempotencyKey, Option.filter, hSome]

theorem indexAndName_inj {s t : StepRef} (hEq : s.indexAndName = t.indexAndName) :
    s.stepIndex = t.stepIndex ∧ s.stepName = t.stepName := by
  have hDigits (n : Nat) : ':' ∉ (toString n).toList := by
    intro hIn
    have hDigit : ':'.isDigit = true :=
      Nat.isDigit_of_mem_toDigits (b := 10) (n := n) (by omega) (by omega) (by simpa using hIn)
    revert hDigit
    decide
  have hList := congrArg String.toList hEq
  simp only [StepRef.indexAndName, String.toList_append,
    append_assoc, append_cancel_left_eq] at hList
  rcases eq_of_append_cons_eq (hDigits s.stepIndex) (hDigits t.stepIndex) hList with ⟨hIndex, hName⟩
  exact ⟨Nat.repr_inj.mp (String.toList_inj.mp hIndex), String.toList_inj.mp hName⟩

/- Keys of steps are equal if one id goes on as the other. -/
theorem pipelineKey_eq_iff {s t : StepRef} (hNe : s ≠ t) :
    buildPipelineEffectIdempotencyKey s = buildPipelineEffectIdempotencyKey t ↔
      Continues s t ∨ Continues t s := by
  have hExtend (a b : StepRef) (more : List Char) (hNe : a ≠ b)
      (hId : b.pipelineId.toList = a.pipelineId.toList ++ more)
      (hRest : a.indexAndName.toList = more ++ b.indexAndName.toList) : Continues a b := by
    refine ⟨String.ofList more, ?_, ?_, ?_⟩
    · intro hEmpty
      have hNil : more = [] := by simpa using congrArg String.toList hEmpty
      subst hNil
      rcases indexAndName_inj (String.toList_inj.mp hRest) with ⟨hIndex, hName⟩
      rw [append_nil, String.toList_inj] at hId
      exact hNe (by cases a; cases b; simp_all)
    · exact String.toList_inj.mp (by simpa using hId)
    · exact String.toList_inj.mp (by simpa using hRest)
  constructor
  · intro hEq
    have hList := congrArg String.toList hEq
    simp only [buildPipelineEffectIdempotencyKey, String.toList_append, append_assoc,
      append_cancel_left_eq] at hList
    rcases append_eq_append_iff.mp hList with ⟨more, hId, hRest⟩ | ⟨more, hId, hRest⟩
    · exact .inl (hExtend s t more hNe hId hRest)
    · exact .inr (hExtend t s more hNe.symm hId hRest)
  · rintro (⟨more, -, hId, hRest⟩ | ⟨more, -, hId, hRest⟩) <;>
      simp only [buildPipelineEffectIdempotencyKey, hId, hRest, String.append_assoc]

theorem Continues.ne {s t : StepRef} (hContinues : Continues s t) : s ≠ t := by
  rintro rfl
  rcases hContinues with ⟨more, hMore, hId, -⟩
  have hList := congrArg String.toList hId
  rw [String.toList_append] at hList
  exact hMore (String.toList_eq_nil_iff.mp (self_eq_append_right.mp hList))

theorem sessionId_of_text_eq {a b : EffectToolCall} (hText : a.text = b.text) :
    a.sessionId = b.sessionId := by
  have hList := congrArg String.toList ((String.append_right_inj _).mp hText)
  rw [String.toList_append, String.toList_append] at hList
  exact (quoteText_prefixCode a.sessionId b.sessionId _ _ hList).1

/- A digest is not the key of a step. -/
theorem digest_ne_pipelineKey (digest : String) (step : StepRef) :
    "tool:" ++ digest ≠ buildPipelineEffectIdempotencyKey step := by
  intro hEq
  have hList := congrArg String.toList hEq
  simp [buildPipelineEffectIdempotencyKey] at hList

theorem key_eq_iff_clash
    {sha256hex : String → String}
    (hInj : Function.Injective sha256hex)
    (a b : EffectAction) :
    (Different a b ∧ a.key sha256hex = b.key sha256hex) ↔ Clash sha256hex a b := by
  have hMixed (call : EffectToolCall) (step : StepRef) :
      (EffectAction.outside call).key sha256hex = buildPipelineEffectIdempotencyKey step ↔
        ∃ k ∈ call.ownKey,
          RunTogether call.toolName k "pipeline" (step.pipelineId ++ step.indexAndName) := by
    simp only [← join_eq_iff]
    cases hKey : call.ownKey with
    | none =>
      simp [EffectAction.key, deriveEffectIdempotencyKey, hKey, digest_ne_pipelineKey]
    | some k =>
      simp [EffectAction.key, deriveEffectIdempotencyKey, hKey, buildPipelineEffectIdempotencyKey,
        String.append_assoc]
  cases a with
  | outside a =>
    cases b with
    | outside b =>
      unfold Different Clash
      refine and_congr_right (fun hSession => ?_)
      cases hA : a.ownKey <;> cases hB : b.ownKey <;>
        simp only [EffectAction.key, Option.filter_none, deriveEffectIdempotencyKey, hA, hB,
          ← join_eq_iff]
      case none.none =>
        refine ⟨fun hEq => hSession ?_, False.elim⟩
        exact sessionId_of_text_eq (hInj ((String.append_right_inj _).mp hEq))
      case none.some => exact eq_comm
      all_goals rfl
    | inStep call step =>
      rw [key_inStep]
      simpa [Different, Clash] using hMixed a step
  | inStep call s =>
    cases b with
    | outside b =>
      rw [key_inStep, eq_comm (b := _)]
      simpa [Different, Clash] using hMixed b s
    | inStep _ t =>
      rw [key_inStep, key_inStep]
      unfold Different Clash
      constructor
      · rintro ⟨hNe, hEq⟩
        exact (pipelineKey_eq_iff hNe).mp hEq
      · intro hContinues
        have hNe : s ≠ t := hContinues.elim Continues.ne (·.ne.symm)
        exact ⟨hNe, (pipelineKey_eq_iff hNe).mpr hContinues⟩

----------
-- Records Of Other Keys
----------

/- Every key leads to a record that has the key, under a plain id. -/
def EffectStorage.Filed (storage : EffectStorage) : Prop :=
  ∀ key id, storage.ids.get? key = some id →
    PlainId id ∧
      ∃ record, storage.records.get? id = some record ∧ record.id = id ∧ record.idempotencyKey = key

theorem save_eq (storage : EffectStorage) (record : EffectRecord) :
    (storage.save record).records = storage.records.set record.id record ∧
      (storage.save record).ids = storage.ids.set record.idempotencyKey record.id := by
  have hIndex (keys : List EffectIndex) (start : EffectStorage) :
      let final := keys.foldl
        (fun storage key => storage.appendIndex key record.id (storage.listed key)) start
      final.records = start.records ∧ final.ids = start.ids := by
    induction keys generalizing start with
    | nil => exact ⟨rfl, rfl⟩
    | cons key rest ih =>
      have hKept : (start.appendIndex key record.id (start.listed key)).records = start.records ∧
          (start.appendIndex key record.id (start.listed key)).ids = start.ids := by
        unfold EffectStorage.appendIndex
        split <;> exact ⟨rfl, rfl⟩
      rw [← hKept.1, ← hKept.2]
      exact ih _
  exact hIndex record.scope.indexes _

/- The record of another key stays as it is. -/
theorem getByIdempotencyKey_beginEffect {storage : EffectStorage} (hFiled : storage.Filed)
    {input : EffectRecordInput} (hFresh : ∀ key, storage.ids.get? key ≠ some input.id)
    {key : String} (hNe : key ≠ input.idempotencyKey) :
    (beginEffect storage input).getByIdempotencyKey key = storage.getByIdempotencyKey key := by
  have hAttempt : (attemptRecord input
        (storage.getByIdempotencyKey input.idempotencyKey)).idempotencyKey = input.idempotencyKey ∧
      storage.ids.get? key ≠ some (attemptRecord input
        (storage.getByIdempotencyKey input.idempotencyKey)).id := by
    cases hFound : storage.getByIdempotencyKey input.idempotencyKey with
    | none => exact ⟨rfl, hFresh key⟩
    | some existing =>
      rcases Option.bind_eq_some_iff.mp hFound with ⟨id, hId, hRecord⟩
      rcases hFiled _ id (Option.filter_eq_some_iff.mp hId).1 with ⟨_, record, hStored, hOwn, hKey⟩
      cases hRecord.symm.trans hStored
      refine ⟨hKey, fun hClash => ?_⟩
      rcases hFiled key existing.id hClash with ⟨_, other, hOther, -, hOtherKey⟩
      rw [hOwn, hRecord] at hOther
      cases hOther
      exact hNe (hOtherKey.symm.trans hKey)
  unfold beginEffect
  generalize attemptRecord input
    (storage.getByIdempotencyKey input.idempotencyKey) = attempt at hAttempt
  unfold EffectStorage.getByIdempotencyKey
  rw [(save_eq _ _).1, (save_eq _ _).2, hAttempt.1, OrderedMap.get?_set_of_ne _ _ hNe.symm]
  cases hGet : storage.ids.get? key with
  | none => rfl
  | some found =>
    have hFound : attempt.id ≠ found := by
      rintro rfl
      exact hAttempt.2 hGet
    simp only [Option.filter]
    split
    · exact OrderedMap.get?_set_of_ne _ _ hFound
    · rfl

/-
  Two different actions have different keys exactly if they do not clash; and beginning the effect
  of a fresh call leaves the records of all other keys.
-/
theorem effect_keys_differ_iff
    {sha256hex : String → String}
    (hInj : Function.Injective sha256hex)
    (a b : EffectAction) :
    ((Different a b → a.key sha256hex ≠ b.key sha256hex) ↔ ¬ Clash sha256hex a b) ∧
      (a.key sha256hex ≠ b.key sha256hex →
        ∀ (storage : EffectStorage) (input : EffectRecordInput), storage.Filed →
          PlainId input.id → (∀ key, storage.ids.get? key ≠ some input.id) →
          input.idempotencyKey = b.key sha256hex →
          (beginEffect storage input).getByIdempotencyKey (a.key sha256hex) =
            storage.getByIdempotencyKey (a.key sha256hex)) := by
  constructor
  · rw [← key_eq_iff_clash hInj, not_and]
  · intro hNe storage input hFiled _ hFresh hKey
    exact getByIdempotencyKey_beginEffect hFiled hFresh (hKey ▸ hNe)

/- A call that brings a key. -/
def broughtCall (sessionId toolCallId key : String) : EffectAction :=
  .outside ⟨sessionId, "system.writeFile", toolCallId, some key, "\x7b\x7d"⟩

def broughtEffect (id key : String) : EffectRecordInput :=
  { id := id
    idempotencyKey := "system.writeFile:" ++ key
    scope := ⟨"s", none, none⟩
    createdAt := .ofInt 0
    requiresApproval := false }

/- Calls of two sessions that bring different keys have a record each. -/
theorem calls_with_keys_differ :
    (broughtCall "a" "1" "k").key id ≠ (broughtCall "b" "2" "l").key id ∧
      (beginEffect (beginEffect .empty (broughtEffect "e" "k"))
          (broughtEffect "f" "l")).getByIdempotencyKey ((broughtCall "a" "1" "k").key id) =
        some (createInitialEffectRecord (broughtEffect "e" "k")) := by
  have hKeys := effect_keys_differ_iff Function.injective_id (broughtCall "a" "1" "k")
    (broughtCall "b" "2" "l")
  have hNe : (broughtCall "a" "1" "k").key id ≠ (broughtCall "b" "2" "l").key id := by
    refine hKeys.1.mpr ?_ (show "a" ≠ "b" by decide)
    rintro ⟨-, hTogether⟩
    change RunTogether "system.writeFile" "k" "system.writeFile" "l" at hTogether
    rw [← join_eq_iff] at hTogether
    exact absurd hTogether (by decide +kernel)
  have hIds {key id : String}
      (hId : (beginEffect .empty (broughtEffect "e" "k")).ids.get? key = some id) :
      "system.writeFile:k" = key ∧ "e" = id := by
    rcases OrderedMap.get?_set_eq_some hId with hOwn | ⟨_, hNone⟩
    · exact hOwn
    · cases hNone
  refine ⟨hNe, (hKeys.2 hNe _ (broughtEffect "f" "l") ?_ (by decide +kernel) ?_ ?_).trans ?_⟩
  · intro key id hId
    rcases hIds hId with ⟨rfl, rfl⟩
    exact ⟨by decide +kernel, createInitialEffectRecord (broughtEffect "e" "k"), rfl, rfl, rfl⟩
  · intro key hId
    exact absurd (hIds hId).2 (by decide +kernel)
  · decide +kernel
  · decide +kernel

theorem sessions_share_key :
    Different (broughtCall "a" "1" "k") (broughtCall "b" "2" "k") ∧
      (broughtCall "a" "1" "k").key id = (broughtCall "b" "2" "k").key id := by
  exact ⟨show "a" ≠ "b" by decide, by decide +kernel⟩

end AgencCore.Workflow
