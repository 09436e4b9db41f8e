import AgencCore.Foundations.Runs

/-
  Histories of sessions while they are compacted.

  A compaction takes the array of the history, waits for a hook and for the summarizer, and then
  puts a shorter array in its place, whatever became of the session meanwhile. If no session is
  reset while it is compacted, and no more messages come than a compaction keeps, a reset session
  stays without its old messages and none of the new ones is dropped.
-/

namespace AgencCore.Gateway

open Foundations List Nat

inductive CompactionStrategy where
  | truncate
  | slidingWindow
  | summarize
deriving DecidableEq

inductive ResetMode where
  | never
  | idle (minutes : ℚ)
  | daily
  | weekday

/-
  What a session is configured with, with the calendar and the tests of messages that a compaction
  asks for.
-/
structure CompactionConfig (M : Type) where
  strategy : CompactionStrategy
  hasSummarizer : Bool
  maxHistoryLength : Nat
  reset : ResetMode
  resetEpoch : ℚ → ℚ
  dateString : ℚ → String
  day : ℚ → Nat
  isCompactBoundaryMessage : M → Bool
  hasContentParts : M → Bool
  hasToolTurnIssue : List M → Bool

structure HistoryEntry (M : Type) where
  number : Nat
  message : M

variable {M : Type}

section Config

variable (config : CompactionConfig M)

def resetDue (lastActiveAt now : ℚ) : Bool :=
  match config.reset with
  | .never => false
  | .idle minutes => minutes * 60000 ≤ now - lastActiveAt
  | .daily => lastActiveAt < config.resetEpoch now ∧ config.resetEpoch now ≤ now
  | .weekday =>
    config.dateString lastActiveAt ≠ config.dateString now ∧
      config.day lastActiveAt ≠ config.day now

def findSafeRetainedTailStartIndex (history : List (HistoryEntry M)) : Nat → Nat
| 0 => 0
| start + 1 =>
  if config.hasToolTurnIssue ((history.drop (start + 1)).map (·.message)) then
    findSafeRetainedTailStartIndex history start
  else start + 1

def compactHistoryIntoArtifactContext (history : List (HistoryEntry M)) (keepTailCount : Nat)
    (boundary : HistoryEntry M) : List (HistoryEntry M) :=
  let keep := max 1 keepTailCount
  if history.length ≤ keep then boundary :: history
  else
    let start := findSafeRetainedTailStartIndex config history (history.length - keep)
    let toCompact := history.take start
    let compactable := toCompact.filter (!config.isCompactBoundaryMessage ·.message)
    toCompact.filter (config.isCompactBoundaryMessage ·.message)
      ++ boundary :: compactable.filter (config.hasContentParts ·.message) ++ history.drop start

----------
-- Sessions
----------

/- Where a compaction waits, with the array it has taken. -/
inductive CompactionPhase where
  | before (array : Nat)
  | summarizing (array keepCount : Nat)
  | closing
  | ended
deriving DecidableEq

/- A compaction, with the first number that came later. -/
structure CompactionRun where
  start : Nat
  phase : CompactionPhase

/-
  A session. Arrays are objects; `history` is the current one. Entries are numbered, `floor` is the
  first number since the last reset, and `appended` are the numbers of appended messages.
-/
structure SessionWorld (M : Type) where
  arrays : List (List (HistoryEntry M))
  history : Nat
  lastActiveAt : ℚ
  pending : Option Nat
  runs : List CompactionRun
  next : Nat
  floor : Nat
  appended : List Nat

inductive SessionAction (M : Type) where
  | appendMessage (now : ℚ) (message : M)
  | reset (now : ℚ)
  | replaceHistory (now : ℚ) (messages : List M)
  | checkResets (now : ℚ)
  | compact
  | resume (i : Nat) (boundary : M)
  | fail (i : Nat)

namespace SessionWorld

def start : SessionWorld M := ⟨[[]], 0, 0, none, [], 0, 0, []⟩

def array (s : SessionWorld M) (i : Nat) : List (HistoryEntry M) := s.arrays[i]?.getD []

def current (s : SessionWorld M) : List (HistoryEntry M) := s.array s.history

def assign (s : SessionWorld M) (entries : List (HistoryEntry M)) : SessionWorld M :=
  { s with arrays := s.arrays ++ [entries], history := s.arrays.length }

def compact (s : SessionWorld M) : SessionWorld M :=
  match s.pending with
  | some _ => s
  | none => { s with
        pending := some s.runs.length, runs := s.runs ++ [⟨s.next, .before s.history⟩] }

def push (s : SessionWorld M) (now : ℚ) (message : M) : SessionWorld M :=
  { s with
    arrays := s.arrays.set s.history (s.current ++ [⟨s.next, message⟩]), lastActiveAt := now
    next := s.next + 1, appended := s.next :: s.appended }

def appendMessage (s : SessionWorld M) (now : ℚ) (message : M) : SessionWorld M :=
  let pushed := s.push now message
  if config.maxHistoryLength < pushed.current.length then pushed.compact
  else pushed

def replaceHistory (s : SessionWorld M) (now : ℚ) (messages : List M) : SessionWorld M :=
  { s.assign (messages.mapIdx (fun i message => ⟨s.next + i, message⟩)) with
    lastActiveAt := now, pending := none, next := s.next + messages.length, floor := s.next }

def reset (s : SessionWorld M) (now : ℚ) : SessionWorld M :=
  { s.assign [] with lastActiveAt := now, pending := none, floor := s.next }

/- Other than `reset`, it leaves a pending compaction. -/
def checkResets (s : SessionWorld M) (now : ℚ) : SessionWorld M :=
  if resetDue config s.lastActiveAt now then { s.reset now with pending := s.pending }
  else s

def setPhase (s : SessionWorld M) (i : Nat) (run : CompactionRun)
    (phase : CompactionPhase) : SessionWorld M := { s with runs := s.runs.set i ⟨run.start, phase⟩ }

/- Assigns the shorter history, with a new boundary. -/
def summarized (s : SessionWorld M) (array keepCount : Nat) (boundary : M) : SessionWorld M :=
  { s.assign (compactHistoryIntoArtifactContext config
      (s.array array) keepCount ⟨s.next, boundary⟩) with next := s.next + 1 }

def resume (s : SessionWorld M) (i : Nat) (boundary : M) (run : CompactionRun) : SessionWorld M :=
  match run.phase with
  | .before array =>
    let history := s.array array
    let keepCount := (history.length + 1) / 2
    if history.length ≤ 1 then s.setPhase i run .closing
    else if config.strategy = .truncate then
      (s.assign (history.drop (history.length - keepCount))).setPhase i run .closing
    else if config.hasSummarizer then s.setPhase i run (.summarizing array keepCount)
    else (s.summarized config array keepCount boundary).setPhase i run .closing
  | .summarizing array keepCount =>
    (s.summarized config array keepCount boundary).setPhase i run .closing
  | .closing => { s.setPhase i run .ended with pending := none }
  | .ended => s

end SessionWorld

def sessionStep (s : SessionWorld M) : SessionAction M → SessionWorld M
| .appendMessage now message => s.appendMessage config now message
| .reset now => s.reset now
| .replaceHistory now messages => s.replaceHistory now messages
| .checkResets now => s.checkResets config now
| .compact => s.compact
| .resume i boundary =>
  match s.runs[i]? with
  | none => s
  | some run => s.resume config i boundary run
| .fail i =>
  match s.runs[i]? with
  | none => s
  | some run =>
    if run.phase = .ended then s
    else s.setPhase i run .closing

/- Messages that came since the start are in the history. -/
def SessionWorld.Holds (s : SessionWorld M) (first : Nat) : Prop :=
  ∀ number ∈ s.appended, first ≤ number → s.floor ≤ number →
    ∃ entry ∈ s.current, entry.number = number

/-
  The history has nothing from before the last reset, and a compaction that ends leaves what came
  since its start.
-/
def HistoryKept (s : SessionWorld M) (action : SessionAction M) : Prop :=
  (∀ entry ∈ s.current, s.floor ≤ entry.number) ∧
  ∀ i boundary, action = .resume i boundary →
    ∀ run ∈ s.runs[i]?, run.phase = .closing → s.Holds run.start

/- The array that is shortened next, and how much is kept. -/
def CompactionPhase.cut (s : SessionWorld M) : CompactionPhase → Option (Nat × Nat)
| .before array => some (array, ((s.array array).length + 1) / 2)
| .summarizing array keepCount => some (array, keepCount)
| _ => none

/- The array has no more late messages than are kept. -/
def FewLate (s : SessionWorld M) (start array keepCount : Nat) : Prop :=
  ((s.array array).filter (start ≤ ·.number)).length ≤ keepCount

/-
  Histories are replaced while no compaction is in progress, and a compaction keeps all that came
  since its start.
-/
def CompactsAlone (s : SessionWorld M) : SessionAction M → Prop
| .reset _ | .replaceHistory _ _ => ∀ run ∈ s.runs, run.phase = .ended
| .checkResets now => resetDue config s.lastActiveAt now = true → ∀ run ∈ s.runs, run.phase = .ended
| .resume i _ => ∀ run ∈ s.runs[i]?, ∀ cut ∈ run.phase.cut s, FewLate s run.start cut.1 cut.2
| _ => True

instance (s : SessionWorld M) (action : SessionAction M) :
    Decidable (CompactsAlone config s action) := by
  unfold CompactsAlone FewLate
  cases action <;> exact inferInstance

end Config

----------
-- Sound Sessions
----------

def CompactionPhase.array? : CompactionPhase → Option Nat
| .before array | .summarizing array _ => some array
| _ => none

/- Late messages are behind all the others. -/
def LateLast (first : Nat) (entries : List (HistoryEntry M)) : Prop :=
  ∃ old new, entries = old ++ new ∧ (∀ entry ∈ old, entry.number < first) ∧
    ∀ entry ∈ new, first ≤ entry.number

structure RunSound (s : SessionWorld M) (run : CompactionRun) : Prop where
  start : run.start ≤ s.next
  holds : s.Holds run.start
  array : ∀ array ∈ run.phase.array?, array = s.history ∧ LateLast run.start s.current

structure CompactionSound (s : SessionWorld M) : Prop where
  entries : ∀ entry ∈ s.current, s.floor ≤ entry.number ∧ entry.number < s.next
  floor : s.floor ≤ s.next
  appended : ∀ number ∈ s.appended, number < s.next
  history : s.history < s.arrays.length
  runs : ∀ i run, s.runs[i]? = some run → run.phase ≠ .ended → s.pending = some i ∧ RunSound s run

section Sound

variable {config : CompactionConfig M}
variable {s : SessionWorld M}

theorem current_assign (entries : List (HistoryEntry M)) :
    (s.assign entries).current = entries := by
  simp [SessionWorld.current, SessionWorld.array, SessionWorld.assign]

variable {entries : List (HistoryEntry M)}

theorem mem_drop_of_lateLast {first keepCount start : Nat}
    (hLate : LateLast first entries) (hFew : (entries.filter (first ≤ ·.number)).length ≤ keepCount)
    (hStart : start ≤ entries.length - keepCount) {entry : HistoryEntry M} (hMem : entry ∈ entries)
    (hFirst : first ≤ entry.number) : entry ∈ entries.drop start := by
  rcases hLate with ⟨old, new, rfl, hOld, hNew⟩
  have hNone : old.filter (first ≤ ·.number) = [] := by simpa using hOld
  have hAll : new.filter (first ≤ ·.number) = new := by simpa using hNew
  rw [filter_append, hNone, hAll, nil_append] at hFew
  rw [length_append] at hStart
  have hLength : start ≤ old.length := by omega
  rw [drop_append_of_le_length hLength]
  rcases List.mem_append.mp hMem with hHere | hHere
  · exact absurd hFirst (not_le.mpr (hOld entry hHere))
  · exact mem_append_right _ hHere

theorem findSafe_le (history : List (HistoryEntry M)) (start : Nat) :
    findSafeRetainedTailStartIndex config history start ≤ start := by
  induction start with
  | zero => exact le_refl _
  | succ start ih =>
    unfold findSafeRetainedTailStartIndex
    split
    · exact le_succ_of_le ih
    · exact le_refl _

/- A compacted history has late messages, and only entries of the history and the boundary. -/
theorem compacted_entries {history : List (HistoryEntry M)} {first keepCount : Nat}
    (hLate : LateLast first history) (hFew : (history.filter (first ≤ ·.number)).length ≤ keepCount)
    (boundary : HistoryEntry M) :
    let entries := compactHistoryIntoArtifactContext config history keepCount boundary
    (∀ entry ∈ entries, entry ∈ history ∨ entry = boundary) ∧
      ∀ entry ∈ history, first ≤ entry.number → entry ∈ entries := by
  unfold compactHistoryIntoArtifactContext
  dsimp only
  split
  · exact ⟨fun entry hMem => (List.mem_cons.mp hMem).symm,
      fun entry hMem _ => mem_cons_of_mem _ hMem⟩
  · constructor
    · intro entry hMem
      simp only [mem_append, mem_cons, mem_filter] at hMem
      rcases hMem with (hTaken | rfl | hTaken) | hTail
      · exact .inl (mem_of_mem_take hTaken.1)
      · exact .inr rfl
      · exact .inl (mem_of_mem_take hTaken.1.1)
      · exact .inl (mem_of_mem_drop hTail)
    · intro entry hMem hFirst
      have hStart := @findSafe_le _ config history (history.length - max 1 keepCount)
      refine mem_append_right _ (mem_drop_of_lateLast hLate hFew ?_ hMem hFirst)
      omega

variable {i : Nat}
variable {run : CompactionRun}
variable (h : CompactionSound s)
variable (hGet : s.runs[i]? = some run)
include h hGet

theorem CompactionSound.setPhase (hOpen : run.phase ≠ .ended) {phase : CompactionPhase}
    (hArray : ∀ array ∈ phase.array?, array ∈ run.phase.array?) :
    CompactionSound (s.setPhase i run phase) := by
  refine ⟨h.entries, h.floor, h.appended, h.history, ?_⟩
  intro j other hOther hPhase
  change (s.runs.set i ⟨run.start, phase⟩)[j]? = some other at hOther
  rw [getElem?_set] at hOther
  split at hOther
  · rename_i hSame
    subst hSame
    split at hOther
    · cases hOther
      rcases h.runs i run hGet hOpen with ⟨hPending, hRun⟩
      exact ⟨hPending, hRun.start, hRun.holds,
        fun array hMem => hRun.array array (hArray array hMem)⟩
    · cases hOther
  · rcases h.runs j other hOther hPhase with ⟨hPending, hRun⟩
    exact ⟨hPending, hRun.start, hRun.holds, hRun.array⟩

/- A compaction puts an array in place of the history. -/
theorem CompactionSound.assigned (hOpen : run.phase ≠ .ended)
    {next : Nat} (hNext : s.next ≤ next)
    (hEntries : ∀ entry ∈ entries, s.floor ≤ entry.number ∧ entry.number < next)
    (hLate : ∀ entry ∈ s.current, run.start ≤ entry.number → entry ∈ entries) :
    CompactionSound (SessionWorld.setPhase
      { s.assign entries with next := next } i run .closing) := by
  have hCurrent := current_assign (s := s) entries
  rcases h.runs i run hGet hOpen with ⟨hPending, hRun⟩
  refine ⟨?_, h.floor.trans hNext, ?_, ?_, ?_⟩
  · intro entry hMem
    change entry ∈ (s.assign entries).current at hMem
    rw [hCurrent] at hMem
    exact hEntries entry hMem
  · exact fun number hMem => (h.appended number hMem).trans_le hNext
  · simp [SessionWorld.setPhase, SessionWorld.assign]
  · intro j other hOther hPhase
    change (s.runs.set i ⟨run.start, .closing⟩)[j]? = some other at hOther
    rw [getElem?_set] at hOther
    split at hOther
    · rename_i hSame
      subst hSame
      split at hOther
      · cases hOther
        refine ⟨hPending, hRun.start.trans hNext, ?_, nofun⟩
        intro number hMem hFirst hFloor
        rcases hRun.holds number hMem hFirst hFloor with ⟨entry, hEntry, rfl⟩
        refine ⟨entry, ?_, rfl⟩
        change entry ∈ (s.assign entries).current
        rw [hCurrent]
        exact hLate entry hEntry hFirst
      · cases hOther
    · rename_i hNe
      have hOther := (h.runs j other hOther hPhase).1
      rw [hPending] at hOther
      exact absurd (Option.some.inj hOther) hNe

theorem CompactionSound.summarized {array keepCount : Nat} (hArray : array ∈ run.phase.array?)
    (hFew : FewLate s run.start array keepCount) (boundary : M) :
    CompactionSound ((s.summarized config array keepCount boundary).setPhase i run .closing) := by
  have hOpen : run.phase ≠ .ended := by
    rintro hEnded
    rw [hEnded] at hArray
    cases hArray
  rcases (h.runs i run hGet hOpen).2.array array hArray with ⟨rfl, hLast⟩
  rcases @compacted_entries _ config _ _ _ hLast hFew ⟨s.next, boundary⟩ with ⟨hOnly, hLate⟩
  refine h.assigned hGet hOpen (le_succ _) ?_ hLate
  intro entry hMem
  rcases hOnly entry hMem with hOld | rfl
  · exact ⟨(h.entries entry hOld).1, (h.entries entry hOld).2.trans (lt_succ_self _)⟩
  · exact ⟨h.floor, lt_succ_self _⟩

omit hGet

theorem CompactionSound.resume {boundary : M}
    (hAlone : CompactsAlone config s (.resume i boundary))
    (hGet : s.runs[i]? = some run) : CompactionSound (s.resume config i boundary run) := by
  have hFew := hAlone run hGet
  unfold SessionWorld.resume
  cases hPhase : run.phase with
  | before array =>
    rw [hPhase] at hFew
    have hFew := hFew _ rfl
    have hOpen : run.phase ≠ .ended := by simp [hPhase]
    have hArray : array ∈ run.phase.array? := by
      rw [hPhase]
      rfl
    dsimp only
    split
    · exact h.setPhase hGet hOpen nofun
    split
    · rcases (h.runs i run hGet hOpen).2.array array hArray with ⟨rfl, hLast⟩
      refine h.assigned hGet hOpen (le_refl _) ?_ ?_
      · exact fun entry hMem => h.entries entry (mem_of_mem_drop hMem)
      · exact fun entry hMem hFirst => mem_drop_of_lateLast hLast hFew (le_refl _) hMem hFirst
    split
    · exact h.setPhase hGet hOpen (fun other hMem => Option.mem_some.mp hMem ▸ hArray)
    · exact h.summarized hGet hArray hFew boundary
  | summarizing array keepCount =>
    rw [hPhase] at hFew
    exact h.summarized hGet (by rw [hPhase]; rfl) (hFew _ rfl) boundary
  | closing =>
    have hOpen : run.phase ≠ .ended := by simp [hPhase]
    refine ⟨h.entries, h.floor, h.appended, h.history, ?_⟩
    intro j other hOther hLeft
    change (s.runs.set i ⟨run.start, .ended⟩)[j]? = some other at hOther
    rw [getElem?_set] at hOther
    split at hOther
    · split at hOther
      · cases hOther
        exact absurd rfl hLeft
      · cases hOther
    · rename_i hNe
      have hHere := (h.runs i run hGet hOpen).1
      have hThere := (h.runs j other hOther hLeft).1
      rw [hHere] at hThere
      exact absurd (Option.some.inj hThere) hNe
  | ended => exact h

theorem CompactionSound.push (now : ℚ) (message : M) : CompactionSound (s.push now message) := by
  have hCurrent : (s.push now message).current = s.current ++ [⟨s.next, message⟩] := by
    have hSet := getElem?_set_self (a := s.current ++ [⟨s.next, message⟩]) h.history
    simp only [SessionWorld.current, SessionWorld.array, SessionWorld.push]
    exact congrArg (Option.getD · []) hSet
  refine ⟨?_, le_succ_of_le h.floor, ?_, ?_, ?_⟩
  · intro entry hMem
    rw [hCurrent] at hMem
    rcases List.mem_append.mp hMem with hOld | hNew
    · exact ⟨(h.entries entry hOld).1, lt_succ_of_lt (h.entries entry hOld).2⟩
    · rw [List.mem_singleton.mp hNew]
      exact ⟨h.floor, lt_succ_self _⟩
  · intro number hMem
    rcases List.mem_cons.mp hMem with rfl | hOld
    · exact lt_succ_self _
    · exact lt_succ_of_lt (h.appended number hOld)
  · simpa [SessionWorld.push] using h.history
  · intro i run hGet hOpen
    rcases h.runs i run hGet hOpen with ⟨hPending, hRun⟩
    refine ⟨hPending, le_succ_of_le hRun.start, ?_, ?_⟩
    · intro number hMem hFirst hFloor
      rw [hCurrent]
      rcases List.mem_cons.mp hMem with rfl | hOld
      · exact ⟨_, mem_append_right _ mem_cons_self, rfl⟩
      · rcases hRun.holds number hOld hFirst hFloor with ⟨entry, hEntry, hNumber⟩
        exact ⟨entry, mem_append_left _ hEntry, hNumber⟩
    · intro array hArray
      rcases hRun.array array hArray with ⟨hHistory, old, new, hSplit, hOld, hNew⟩
      refine ⟨hHistory, old, new ++ [⟨s.next, message⟩], ?_, hOld, ?_⟩
      · rw [hCurrent, hSplit, append_assoc]
      · exact List.forall_mem_append.mpr ⟨hNew, List.forall_mem_singleton.mpr hRun.start⟩

theorem CompactionSound.compact : CompactionSound s.compact := by
  unfold SessionWorld.compact
  split
  · exact h
  rename_i hNone
  refine ⟨h.entries, h.floor, h.appended, h.history, ?_⟩
  intro i run hGet hOpen
  dsimp only at hGet
  rw [getElem?_append] at hGet
  split at hGet
  · have hPending := (h.runs i run hGet hOpen).1
    rw [hNone] at hPending
    cases hPending
  · rw [getElem?_singleton] at hGet
    split at hGet
    · rename_i hLe hZero
      cases hGet
      refine ⟨congrArg some (by omega), le_refl _, ?_, ?_⟩
      · intro number hMem hFirst
        exact absurd (h.appended number hMem) (not_lt.mpr hFirst)
      · intro array hArray
        cases hArray
        exact ⟨rfl, s.current, [], (append_nil _).symm,
          fun entry hMem => (h.entries entry hMem).2, nofun⟩
    · cases hGet

/- Without a compaction in progress, a history is replaced. -/
theorem CompactionSound.replaced
    (hEnded : ∀ run ∈ s.runs, run.phase = .ended) (messages : List M) (now : ℚ)
    (pending : Option Nat) :
    CompactionSound { s.replaceHistory now messages with pending := pending } := by
  have hCurrent := current_assign (s := s) (messages.mapIdx
    (fun i message => ⟨s.next + i, message⟩))
  refine ⟨?_, le_add_right _ _, ?_, ?_, ?_⟩
  · intro entry hMem
    change entry ∈ (s.assign _).current at hMem
    rw [hCurrent] at hMem
    rcases List.mem_mapIdx.mp hMem with ⟨i, hLt, rfl⟩
    exact ⟨Nat.le_add_right _ _, Nat.add_lt_add_left hLt _⟩
  · exact fun number hMem => (h.appended number hMem).trans_le (Nat.le_add_right _ _)
  · simp [SessionWorld.replaceHistory, SessionWorld.assign]
  · intro i run hGet hOpen
    exact absurd (hEnded run (mem_of_getElem? hGet)) hOpen

theorem CompactionSound.step {action : SessionAction M}
    (hAlone : CompactsAlone config s action) : CompactionSound (sessionStep config s action) := by
  cases action with
  | appendMessage now message =>
    unfold sessionStep SessionWorld.appendMessage
    dsimp only
    split
    · exact (h.push now message).compact
    · exact h.push now message
  | reset now => exact h.replaced hAlone [] now none
  | replaceHistory now messages => exact h.replaced hAlone messages now none
  | checkResets now =>
    unfold sessionStep SessionWorld.checkResets
    dsimp only
    split
    · rename_i hDue
      exact h.replaced (hAlone hDue) [] now s.pending
    · exact h
  | compact => exact h.compact
  | resume i boundary =>
    unfold sessionStep
    dsimp only
    split
    · exact h
    · rename_i run hGet
      exact h.resume hAlone hGet
  | fail i =>
    unfold sessionStep
    dsimp only
    split
    · exact h
    rename_i run hGet
    split
    · exact h
    · rename_i hOpen
      exact h.setPhase hGet hOpen nofun

end Sound

/- In every run in which compactions are alone, the history is kept. -/
theorem compacted_history_kept (config : CompactionConfig M) {actions : List (SessionAction M)}
    (hAlone : AlongRun (sessionStep config) (CompactsAlone config) .start actions) :
    AlongRun (sessionStep config) HistoryKept .start actions := by
  have hStart : CompactionSound (.start : SessionWorld M) := by
    constructor <;> simp [SessionWorld.start, SessionWorld.current, SessionWorld.array]
  have hStep : ∀ s action, CompactionSound s → CompactsAlone config s action →
      HistoryKept s action ∧ CompactionSound (sessionStep config s action) := by
    intro s action h hAction
    refine ⟨⟨fun entry hMem => (h.entries entry hMem).1, ?_⟩, h.step hAction⟩
    intro i boundary _ run hGet hPhase
    exact (h.runs i run hGet (by simp [hPhase])).2.holds
  exact AlongRun.of_invariant hStep hStart hAlone

def plainConfig (strategy : CompactionStrategy) : CompactionConfig Nat where
  strategy := strategy
  hasSummarizer := true
  maxHistoryLength := 100
  reset := .never
  resetEpoch := id
  dateString := fun _ => ""
  day := fun _ => 0
  isCompactBoundaryMessage := fun _ => false
  hasContentParts := fun _ => false
  hasToolTurnIssue := fun _ => false

theorem summarized_session_kept : AlongRun (sessionStep (plainConfig .summarize)) HistoryKept .start
      [.appendMessage 0 1, .appendMessage 0 2, .compact,
        .resume 0 0, .appendMessage 0 3, .resume 0 0,
        .resume 0 0, .reset 0, .appendMessage 0 4] := by
  exact compacted_history_kept (plainConfig .summarize) (by decide +kernel)

/- A compaction in progress brings back the second message. -/
theorem reset_history_regained :
    let s := runSteps (sessionStep (plainConfig .truncate)) .start
      [.appendMessage 0 1, .appendMessage 0 2, .compact, .reset 0, .resume 0 0]
    ¬ HistoryKept s .compact := by
  intro s hKept
  have hHere : ⟨1, 2⟩ ∈ s.current := List.mem_singleton.mpr rfl
  exact absurd (hKept.1 _ hHere) (by decide +kernel)

end AgencCore.Gateway
