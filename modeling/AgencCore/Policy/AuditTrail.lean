import AgencCore.Eval.CanonicalJson
import AgencCore.Foundations.HashChain
import AgencCore.Foundations.JsonText
import AgencCore.Foundations.Runs

/-
  The audit trail of operator actions.

  Every entry carries the hash of the entry before it and its own hash over its other fields in
  canonical JSON. The check of a trail recomputes the links and the hashes.

  If the hash is injective and never the empty text, the last hash of a trail that passes the check
  determines the trail, except for sequence numbers that are not finite: these have the same text.
-/

namespace AgencCore.Policy

open Foundations Eval List

section

inductive OperatorRole where
  | read
  | investigate
  | execute
  | admin
deriving DecidableEq

def OperatorRole.text : OperatorRole → String
| .read => "read"
| .investigate => "investigate"
| .execute => "execute"
| .admin => "admin"

inductive IncidentCommandCategory where
  | replayBackfill
  | replayCompare
  | replayIncident
  | replayExport
  | incidentAnnotate
  | incidentResolve
  | incidentArchive
  | configUpdate
  | policyUpdate
deriving DecidableEq

def IncidentCommandCategory.text : IncidentCommandCategory → String
| .replayBackfill => "replay.backfill"
| .replayCompare => "replay.compare"
| .replayIncident => "replay.incident"
| .replayExport => "replay.export"
| .incidentAnnotate => "incident.annotate"
| .incidentResolve => "incident.resolve"
| .incidentArchive => "incident.archive"
| .configUpdate => "config.update"
| .policyUpdate => "policy.update"

/- What the caller of `append` gives. -/
structure AuditTrailInput where
  timestamp : String
  actor : String
  role : OperatorRole
  action : IncidentCommandCategory
  inputHash : String
  outputHash : String
deriving DecidableEq

/- The fields that the hash of an entry covers. -/
structure AuditTrailFields extends AuditTrailInput where
  seq : JsNumber
  prevEntryHash : String
deriving DecidableEq

structure AuditTrailEntry extends AuditTrailFields where
  entryHash : String
deriving DecidableEq

/- A host that can write numbers down. -/
structure AuditHost where
  eval : EvalHost
  numerals : eval.text.Numerals

def entryJson (entry : AuditTrailFields) : Json :=
  .object
    [("seq", .number entry.seq), ("timestamp", .string entry.timestamp),
      ("actor", .string entry.actor), ("role", .string entry.role.text),
      ("action", .string entry.action.text), ("inputHash", .string entry.inputHash),
      ("outputHash", .string entry.outputHash), ("prevEntryHash", .string entry.prevEntryHash)]

variable (host : AuditHost)

def computeEntryHash (entry : AuditTrailFields) : String :=
  host.eval.sha256 (stableStringifyJson host.eval (entryJson entry))

end

structure AuditTrailVerification where
  valid : Bool
  entries : Nat
  brokenAt : Option JsNumber
  message : Option String
deriving DecidableEq

namespace InMemoryAuditTrail

variable (host : AuditHost)

/- The loop of `verify`, with the hash of the last entry. -/
def verifyFrom (count : Nat) : String → List AuditTrailEntry → AuditTrailVerification
| _, [] => ⟨true, count, none, none⟩
| expectedPrev, entry :: rest =>
  if entry.prevEntryHash ≠ expectedPrev then
    ⟨false, count, some entry.seq, some "chain link broken"⟩
  else if entry.entryHash ≠ computeEntryHash host entry.toAuditTrailFields then
    ⟨false, count, some entry.seq, some "entry hash mismatch"⟩
  else verifyFrom count entry.entryHash rest

def verify (entries : List AuditTrailEntry) : AuditTrailVerification :=
  verifyFrom host entries.length "" entries

/- The entry that is returned, and the trail with it. -/
def append (entries : List AuditTrailEntry) (input : AuditTrailInput) :
    AuditTrailEntry × List AuditTrailEntry :=
  let entry : AuditTrailFields :=
    { input with
      seq := .ofInt (entries.length + 1)
      prevEntryHash := (entries.getLast?.map (·.entryHash)).getD "" }
  let resolved : AuditTrailEntry := { entry with entryHash := computeEntryHash host entry }
  (resolved, entries ++ [resolved])

inductive Op where
  | append (input : AuditTrailInput)
  | clear

def step (entries : List AuditTrailEntry) : Op → List AuditTrailEntry
| .append input => (append host entries input).2
| .clear => []

end InMemoryAuditTrail

----------
-- Text Of An Entry
----------

section

variable (host : AuditHost)

/- The keys of an entry, numbered as they are set. -/
def trailKeys : List (String × Fin 8) :=
  [("seq", 0), ("timestamp", 1), ("actor", 2), ("role", 3),
    ("action", 4), ("inputHash", 5), ("outputHash", 6), ("prevEntryHash", 7)]

def sortedTrailKeys : List (String × Fin 8) :=
  [("action", 4), ("actor", 2), ("inputHash", 5),
    ("outputHash", 6), ("prevEntryHash", 7), ("role", 3), ("seq", 0), ("timestamp", 1)]

theorem sort_trailKeys :
    sortBy (fun a b => compareCodeUnits a.1 b.1) trailKeys = sortedTrailKeys := by decide +kernel

theorem trailKeys_no_index : ∀ name ∈ sortedTrailKeys.map Prod.fst, arrayIndex? name = none := by
  decide +kernel

/- The canonical entry has its keys in order. -/
theorem canonicalize_entryJson (entry : AuditTrailFields) : canonicalizeJson (entryJson entry) =
      .object
        [("action", .string entry.action.text), ("actor", .string entry.actor),
          ("inputHash", .string entry.inputHash), ("outputHash", .string entry.outputHash),
          ("prevEntryHash", .string entry.prevEntryHash), ("role", .string entry.role.text),
          ("seq", .number entry.seq), ("timestamp", .string entry.timestamp)] := by
  let value : Fin 8 → Json :=
    ![.number entry.seq, .string entry.timestamp, .string entry.actor, .string entry.role.text,
      .string entry.action.text, .string entry.inputHash,
      .string entry.outputHash, .string entry.prevEntryHash]
  have hSorted : sortBy (fun a b : String × Json => compareCodeUnits a.1 b.1)
          (trailKeys.map (fun key => (key.1, value key.2))) =
        sortedTrailKeys.map (fun key => (key.1, value key.2)) := by
    rw [← sort_trailKeys]
    exact sortBy_map _ _ _ (fun _ _ => rfl) _
  exact congrArg Json.object hSorted

def entryTexts (entry : AuditTrailFields) : List (String × String) :=
  [("action", quoteText entry.action.text), ("actor", quoteText entry.actor),
    ("inputHash", quoteText entry.inputHash), ("outputHash", quoteText entry.outputHash),
    ("prevEntryHash", quoteText entry.prevEntryHash), ("role", quoteText entry.role.text),
    ("seq", (Json.number entry.seq).stringify host.eval.text),
    ("timestamp", quoteText entry.timestamp)]

theorem entryText_eq (entry : AuditTrailFields) :
    (stableStringifyJson host.eval (entryJson entry)).toList =
      '\x7b' :: fieldsText (entryTexts host entry) := by
  unfold stableStringifyJson
  rw [canonicalize_entryJson, Json.stringify_object, enumerationOrder_eq_self]
  swap
  · exact trailKeys_no_index
  rw [String.append_assoc, String.toList_append, fieldsText_eq]
  rfl

theorem OperatorRole.text_injective : Function.Injective OperatorRole.text := by
  intro a b hText
  cases a <;> cases b <;> simp [OperatorRole.text] at hText ⊢

theorem IncidentCommandCategory.text_injective :
    Function.Injective IncidentCommandCategory.text := by
  intro a b hText
  cases a <;> cases b <;> simp [IncidentCommandCategory.text] at hText ⊢

/- The same entry, up to sequence numbers without a text. -/
def AlikeEntries (a b : AuditTrailFields) : Prop :=
  a.toAuditTrailInput = b.toAuditTrailInput ∧ a.prevEntryHash = b.prevEntryHash ∧
    (a.seq = b.seq ∨ (a.seq.isFinite = false ∧ b.seq.isFinite = false))

/- The canonical text determines the entry. -/
theorem alike_of_entryText {a b : AuditTrailFields}
    (hText :
      stableStringifyJson host.eval (entryJson a) = stableStringifyJson host.eval (entryJson b)) :
    AlikeEntries a b := by
  have hFields : entryTexts host a = entryTexts host b := by
    apply fieldsText_inj
    · refine .cons ⟨rfl, quoteText_delimited _ _⟩ (.cons ⟨rfl, quoteText_delimited _ _⟩
        (.cons ⟨rfl, quoteText_delimited _ _⟩ (.cons ⟨rfl, quoteText_delimited _ _⟩
        (.cons ⟨rfl, quoteText_delimited _ _⟩ (.cons ⟨rfl, quoteText_delimited _ _⟩
        (.cons ⟨rfl, number_delimited host.numerals _ _⟩
        (.cons ⟨rfl, quoteText_delimited _ _⟩ .nil)))))))
    · have hChars := congrArg String.toList hText
      rw [entryText_eq, entryText_eq] at hChars
      exact (List.cons.inj hChars).2
  simp only [entryTexts, List.cons.injEq, Prod.mk.injEq, true_and, and_true] at hFields
  rcases hFields with ⟨hAction, hActor, hInput, hOutput, hPrev, hRole, hSeq, hTimestamp⟩
  refine ⟨?_, quoteText_injective hPrev, eq_of_number_text host.numerals hSeq⟩
  rcases a with ⟨⟨_, _, _, _, _, _⟩, _, _⟩
  rcases b with ⟨⟨_, _, _, _, _, _⟩, _, _⟩
  exact AuditTrailInput.mk.injEq _ _ _ _ _ _ _ _ _ _ _ _ ▸
    ⟨quoteText_injective hTimestamp, quoteText_injective hActor,
      OperatorRole.text_injective (quoteText_injective hRole),
      IncidentCommandCategory.text_injective (quoteText_injective hAction),
      quoteText_injective hInput, quoteText_injective hOutput⟩

end

----------
-- Commitment
----------

def trailChain : HashChain AuditTrailEntry String where
  previous := fun entry => entry.prevEntryHash
  hash := fun entry => entry.entryHash

def HashMatches (host : AuditHost) (entry : AuditTrailEntry) : Prop :=
  entry.entryHash = computeEntryHash host entry.toAuditTrailFields

namespace InMemoryAuditTrail

variable (host : AuditHost)

theorem verifyFrom_valid_iff (count : Nat) (expectedPrev : String)
    (entries : List AuditTrailEntry) :
    (verifyFrom host count expectedPrev entries).valid = true ↔
      trailChain.Linked expectedPrev entries ∧ ∀ entry ∈ entries, HashMatches host entry := by
  induction entries generalizing expectedPrev with
  | nil => simp [verifyFrom, HashChain.Linked]
  | cons entry rest ih =>
    rw [verifyFrom, HashChain.Linked, forall_mem_cons]
    split
    · next hBroken =>
        refine ⟨fun hValid => absurd hValid Bool.false_ne_true, ?_⟩
        rintro ⟨⟨hPrev, _⟩, _⟩
        exact absurd hPrev hBroken
    · next hPrev =>
        split
        · next hMismatch =>
            refine ⟨fun hValid => absurd hValid Bool.false_ne_true, ?_⟩
            rintro ⟨_, hHash, _⟩
            exact absurd hHash hMismatch
        · next hHash =>
            rw [ih]
            have hLink : trailChain.previous entry = expectedPrev := not_not.mp hPrev
            have hOwn : HashMatches host entry := not_not.mp hHash
            exact ⟨fun h => ⟨⟨hLink, h.1⟩, hOwn, h.2⟩, fun h => ⟨h.1.2, h.2.2⟩⟩

/- A trail passes if it is linked and its hashes match. -/
theorem verify_valid_iff (entries : List AuditTrailEntry) : (verify host entries).valid = true ↔
      trailChain.Linked "" entries ∧ ∀ entry ∈ entries, HashMatches host entry :=
  verifyFrom_valid_iff host entries.length "" entries

/- A trail that was only appended to and cleared passes the check and is numbered from one. -/
theorem written_trail_verifies (ops : List Op) :
    (verify host (runSteps (step host) [] ops)).valid = true ∧
      (runSteps (step host) [] ops).map (·.seq) =
        (List.range (runSteps (step host) [] ops).length).map (fun i => .ofInt (i + 1)) := by
  refine List.foldlRecOn (motive := fun entries : List AuditTrailEntry =>
    (verify host entries).valid = true ∧
      entries.map (·.seq) = (List.range entries.length).map (fun i => .ofInt (i + 1)))
    ops _ ⟨rfl, rfl⟩ ?_
  rintro entries ⟨hValid, hNumbers⟩ op _
  cases op with
  | clear => exact ⟨rfl, rfl⟩
  | append input =>
    rw [verify_valid_iff] at hValid ⊢
    refine ⟨⟨(trailChain.linked_concat "" _ _).mpr ⟨hValid.1, rfl⟩, ?_⟩, ?_⟩
    · rw [step, append, forall_mem_append, forall_mem_singleton]
      exact ⟨hValid.2, rfl⟩
    · simp [step, append, hNumbers, range_succ]

end InMemoryAuditTrail

/- No place has two different numbers without a text. -/
def SeqsComparable (a b : List AuditTrailEntry) : Prop :=
  ∀ (i : Nat) (x y : AuditTrailEntry), a[i]? = some x → b[i]? = some y →
      x.seq.isFinite = false → y.seq.isFinite = false → x.seq = y.seq

/- Alike entries with the same hash and number are equal. -/
theorem eq_of_alike {x y : AuditTrailEntry}
    (hAlike : AlikeEntries x.toAuditTrailFields y.toAuditTrailFields)
    (hHash : x.entryHash = y.entryHash)
    (hSeq : x.seq.isFinite = false → y.seq.isFinite = false → x.seq = y.seq) : x = y := by
  rcases hAlike with ⟨hInput, hPrev, hSeqs⟩
  have hSame : x.seq = y.seq := by
    rcases hSeqs with hSame | ⟨hX, hY⟩
    · exact hSame
    · exact hSeq hX hY
  rcases x with ⟨⟨x, xSeq, xPrev⟩, xHash⟩
  rcases y with ⟨⟨y, ySeq, yPrev⟩, yHash⟩
  dsimp only at hInput hPrev hSame hHash
  rw [hInput, hPrev, hSame, hHash]

theorem eq_of_forall₂_alike {a b : List AuditTrailEntry}
    (hAlike : List.Forall₂
        (fun x y =>
          AlikeEntries x.toAuditTrailFields y.toAuditTrailFields ∧ x.entryHash = y.entryHash) a b)
    (hSeqs : SeqsComparable a b) : a = b := by
  induction hAlike with
  | nil => rfl
  | cons hHead _ ih =>
    rw [eq_of_alike hHead.1 hHead.2 (hSeqs 0 _ _ rfl rfl),
      ih (fun i x y hX hY => hSeqs (i + 1) x y hX hY)]

/-
  Under a hash that is injective and never empty, two trails that pass the check and have the same
  last hash are the same exactly when no place holds two different sequence numbers that are not
  finite.
-/
theorem head_hash_commits_iff (host : AuditHost) (hInjective : Function.Injective host.eval.sha256)
    (hNonempty : ∀ text, host.eval.sha256 text ≠ "") {a b : List AuditTrailEntry}
    (hA : (InMemoryAuditTrail.verify host a).valid = true)
    (hB : (InMemoryAuditTrail.verify host b).valid = true)
    (hHead : a.getLast?.map (·.entryHash) =
        b.getLast?.map (·.entryHash)) : a = b ↔ SeqsComparable a b := by
  rw [InMemoryAuditTrail.verify_valid_iff] at hA hB
  constructor
  · rintro rfl i x y hX hY _ _
    rw [Option.some.inj (hX.symm.trans hY)]
  · intro hSeqs
    have hAlike : List.Forall₂
          (fun x y =>
            AlikeEntries x.toAuditTrailFields y.toAuditTrailFields ∧ x.entryHash = y.entryHash)
          a b := by
      refine trailChain.forall₂_of_headHash ?_ ?_ hA.1 hB.1 hA.2 hB.2
        (congrArg (fun hash => hash.getD "") hHead)
      · intro x hX hEmpty
        exact hNonempty _ (hX.symm.trans hEmpty)
      · intro x y hX hY hHash
        have hText := hInjective (hX.symm.trans (Eq.trans hHash hY))
        have hSame := alike_of_entryText host hText
        exact ⟨hSame.2.1, hSame, hHash⟩
    exact eq_of_forall₂_alike hAlike hSeqs

/- A host with a stand-in for the hash. -/
def AuditHost.stroke : AuditHost where
  eval := { EvalHost.basic with text := TextHost.stroke, sha256 := fun text => "#" ++ text }
  numerals := TextHost.stroke_numerals

theorem AuditHost.stroke_sha256_injective : Function.Injective AuditHost.stroke.eval.sha256 := by
  intro text text' hEq
  have hChars := congrArg String.toList hEq
  simp only [AuditHost.stroke, String.toList_append] at hChars
  exact String.toList_inj.mp (append_cancel_left hChars)

theorem AuditHost.stroke_sha256_ne_empty (text : String) :
    AuditHost.stroke.eval.sha256 text ≠ "" := by
  intro hEmpty
  have hChars := congrArg String.toList hEmpty
  simp [AuditHost.stroke] at hChars

def sampleInput : AuditTrailInput :=
  { timestamp := "t"
    actor := "alice"
    role := .admin
    action := .policyUpdate
    inputHash := "i"
    outputHash := "o" }

/- An entry with the given number and link. -/
def sampleEntry
    (seq : JsNumber)
    (prevEntryHash : String) : AuditTrailEntry :=
  let fields : AuditTrailFields :=
    { sampleInput with
      seq := seq
      prevEntryHash := prevEntryHash }
  { fields with entryHash := computeEntryHash .stroke fields }

/- A chain of two entries, the first of which has the given number. -/
def trailWithSeq (seq : JsNumber) : List AuditTrailEntry :=
  let first := sampleEntry seq ""
  [first, sampleEntry 2 first.entryHash]

theorem trailWithSeq_valid (seq : JsNumber) :
    (InMemoryAuditTrail.verify .stroke (trailWithSeq seq)).valid = true := by
  rw [InMemoryAuditTrail.verify_valid_iff]
  refine ⟨⟨rfl, rfl, trivial⟩, ?_⟩
  intro entry hEntry
  rcases mem_pair.mp hEntry with rfl | rfl <;> rfl

theorem trailWithSeq_injective : Function.Injective trailWithSeq := by
  intro seq seq' hSame
  have hSeqs := congrArg (fun trail => trail.map (·.seq)) hSame
  simpa [trailWithSeq, sampleEntry] using hSeqs

/- Chains whose first entries have one hash end in one hash. -/
theorem getLast_trailWithSeq
    {seq seq' : JsNumber}
    (hHash : (sampleEntry seq "").entryHash = (sampleEntry seq' "").entryHash) :
    (trailWithSeq seq).getLast?.map (·.entryHash) =
      (trailWithSeq seq').getLast?.map (·.entryHash) := by
  simp [trailWithSeq, hHash]

/-
  Two appends and the chain written out, which end in one hash, are one trail. The chains that
  begin with `NaN` and with `Infinity` end in one hash as well, and are told apart by their numbers.
-/
theorem two_entry_trails_committed :
    runSteps (InMemoryAuditTrail.step .stroke) [] [.append sampleInput, .append sampleInput] =
        trailWithSeq 1 ∧
      trailWithSeq .nan ≠ trailWithSeq .posInf ∧
      ¬ SeqsComparable (trailWithSeq .nan) (trailWithSeq .posInf) := by
  have hCommits := @head_hash_commits_iff .stroke AuditHost.stroke_sha256_injective
    AuditHost.stroke_sha256_ne_empty
  have hDiffer : trailWithSeq .nan ≠ trailWithSeq .posInf :=
    trailWithSeq_injective.ne (by decide)
  refine ⟨?_, hDiffer, ?_⟩
  · have hWritten := InMemoryAuditTrail.written_trail_verifies .stroke
      [.append sampleInput, .append sampleInput]
    apply (hCommits hWritten.1 (trailWithSeq_valid 1) rfl).mpr
    intro i x y hX _ hInfinite
    have hSeq : x.seq ∈ [JsNumber.ofInt 1, .ofInt 2] :=
      mem_map_of_mem (f := (·.seq)) (mem_of_getElem? hX)
    rcases mem_pair.mp hSeq with hOne | hTwo <;> simp_all [JsNumber.ofInt, JsNumber.isFinite]
  · rw [← hCommits (trailWithSeq_valid .nan) (trailWithSeq_valid .posInf)
      (getLast_trailWithSeq (by decide +kernel))]
    exact hDiffer

/-
  `NaN` and `Infinity` are both written `null`: two trails that pass the check, with one head hash
  and different entries.
-/
theorem head_hash_misses_seq :
    (InMemoryAuditTrail.verify .stroke (trailWithSeq .nan)).valid = true ∧
      (InMemoryAuditTrail.verify .stroke (trailWithSeq .posInf)).valid = true ∧
      (trailWithSeq .nan).getLast?.map (·.entryHash) =
        (trailWithSeq .posInf).getLast?.map (·.entryHash) ∧
      trailWithSeq .nan ≠ trailWithSeq .posInf := by
  exact ⟨trailWithSeq_valid .nan, trailWithSeq_valid .posInf,
    getLast_trailWithSeq (by decide +kernel), trailWithSeq_injective.ne (by decide)⟩

end AgencCore.Policy
