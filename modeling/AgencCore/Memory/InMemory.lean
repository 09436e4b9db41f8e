import AgencCore.Foundations.Numbers
import AgencCore.Foundations.OrderedMap
import AgencCore.Foundations.Runs

/-
  The in-memory backend and its limits.

  An entry is added to the thread that was fetched before the evictions. When the oldest entry of
  all is the only one of that thread, its eviction takes the thread out of the map, and the new
  entry goes to a list that nobody reaches. The session without a name is never evicted from.
-/

namespace AgencCore.Memory

open Foundations OrderedMap List

/- An entry as it is stored; the other fields are not read here. -/
structure MemoryEntry where
  id : Nat
  sessionId : String
  timestamp : ℚ
  expiresAt : Option JsNumber
deriving DecidableEq

structure InMemoryConfig where
  maxEntriesPerSession : JsNumber
  maxTotalEntries : JsNumber
  perSession : JsNumber.le 1 maxEntriesPerSession = true
  altogether : JsNumber.le 1 maxTotalEntries = true

structure InMemoryBackend where
  threads : OrderedMap String (List MemoryEntry)
  totalEntries : Int

/- The entries that are left of a full thread. -/
def evictFull (most : JsNumber) : List MemoryEntry → List MemoryEntry
| [] => []
| entry :: rest =>
  if most.le (.ofInt (rest.length + 1)) then evictFull most rest else entry :: rest

/- The session whose first entry is the oldest, and its time. -/
def oldestSession (threads : List (String × List MemoryEntry)) : Option (ℚ × String) :=
  threads.foldl (fun oldest thread =>
    match thread.2 with
    | [] => oldest
    | first :: _ =>
      if oldest.all (first.timestamp < ·.1) then some (first.timestamp, thread.1) else oldest) none

namespace InMemoryBackend

def empty : InMemoryBackend := ⟨.empty, 0⟩

def thread (s : InMemoryBackend) (sessionId : String) : List MemoryEntry :=
  (s.threads.get? sessionId).getD []

def evictOldest (s : InMemoryBackend) : InMemoryBackend :=
  match oldestSession s.threads.entries with
  | none => s
  | some (_, sessionId) =>
    if sessionId = "" then s
    else
      let rest := (s.thread sessionId).tail
      { threads := if rest = [] then s.threads.delete sessionId else s.threads.set sessionId rest
        totalEntries := s.totalEntries - 1 }

variable (config : InMemoryConfig)

/- The thread is made, and cut to less than its limit. -/
def makeRoom (s : InMemoryBackend) (sessionId : String) : InMemoryBackend :=
  let kept := evictFull config.maxEntriesPerSession (s.thread sessionId)
  { threads := s.threads.set sessionId kept
    totalEntries := s.totalEntries - ((s.thread sessionId).length - kept.length) }

/- A thread that has left the map gets the entry unseen. -/
def addEntry (s : InMemoryBackend) (entry : MemoryEntry) : InMemoryBackend :=
  let roomy := s.makeRoom config entry.sessionId
  let roomy := if config.maxTotalEntries.le (.ofInt roomy.totalEntries) then roomy.evictOldest
    else roomy
  { threads :=
      match roomy.threads.get? entry.sessionId with
      | some thread => roomy.threads.set entry.sessionId (thread ++ [entry])
      | none => roomy.threads
    totalEntries := roomy.totalEntries + 1 }

def deleteThread (s : InMemoryBackend) (sessionId : String) : InMemoryBackend :=
  match s.threads.get? sessionId with
  | none => s
  | some thread => ⟨s.threads.delete sessionId, s.totalEntries - thread.length⟩

end InMemoryBackend

inductive MemoryOp where
  | addEntry (entry : MemoryEntry)
  | deleteThread (sessionId : String)
  | clear

def memoryStep (config : InMemoryConfig) (s : InMemoryBackend) : MemoryOp → InMemoryBackend
| .addEntry entry => s.addEntry config entry
| .deleteThread sessionId => s.deleteThread sessionId
| .clear => .empty

----------
-- Limits
----------

/- The number of entries that are reached through the threads. -/
def entryCount (threads : OrderedMap String (List MemoryEntry)) : Int :=
  (threads.entries.map (fun thread => (thread.2.length : Int))).sum

structure WithinLimits (config : InMemoryConfig) (s : InMemoryBackend) : Prop where
  counted : s.totalEntries = entryCount s.threads
  altogether : JsNumber.le (.ofInt s.totalEntries) config.maxTotalEntries = true
  perSession : ∀ sessionId thread, s.threads.get? sessionId = some thread →
    JsNumber.le (.ofInt thread.length) config.maxEntriesPerSession = true

/- The limits are kept, and an entry that was added is the last of its thread. -/
def EntryKept (config : InMemoryConfig) (s : InMemoryBackend) (op : MemoryOp) : Prop :=
  WithinLimits config (memoryStep config s op) ∧
    match op with
    | .addEntry entry =>
      ((memoryStep config s op).threads.get? entry.sessionId).bind List.getLast? = some entry
    | _ => True

/-
  With limits that are whole numbers, an eviction at the total limit finds its entry in a session
  with a name, and not as the only entry of the thread that is added to.
-/
def EvictsElsewhere (config : InMemoryConfig) (s : InMemoryBackend) (op : MemoryOp) : Prop :=
  WholeLimit config.maxEntriesPerSession ∧ WholeLimit config.maxTotalEntries ∧
    match op with
    | .addEntry entry =>
      let roomy := s.makeRoom config entry.sessionId
      config.maxTotalEntries.le (.ofInt roomy.totalEntries) = true →
        ∃ oldest ∈ oldestSession roomy.threads.entries, oldest.2 ≠ "" ∧
          (oldest.2 = entry.sessionId → (roomy.thread entry.sessionId).length ≠ 1)
    | _ => True

variable {config : InMemoryConfig} {s : InMemoryBackend}

theorem entryCount_set (threads : OrderedMap String (List MemoryEntry)) (sessionId : String)
    (thread : List MemoryEntry) :
    entryCount (threads.set sessionId thread) =
      entryCount threads - ((threads.get? sessionId).getD []).length + thread.length := by
  have hSum := Entries.sum_put (fun thread : List MemoryEntry => (thread.length : Int)) sessionId
    thread threads.entries
  unfold entryCount OrderedMap.get? OrderedMap.set
  cases hGet : Entries.lookup sessionId threads.entries <;> simpa [hGet] using hSum

theorem entryCount_delete (threads : OrderedMap String (List MemoryEntry)) (sessionId : String) :
    entryCount (threads.delete sessionId) =
      entryCount threads - ((threads.get? sessionId).getD []).length := by
  have hSum := Entries.sum_remove (fun thread : List MemoryEntry => (thread.length : Int))
    sessionId threads.entries
  unfold entryCount OrderedMap.get? OrderedMap.delete
  cases hGet : Entries.lookup sessionId threads.entries <;> simpa [hGet] using hSum

/- What is left is below the limit. -/
theorem le_evictFull {most : JsNumber} (hMost : JsNumber.le 1 most = true)
    (thread : List MemoryEntry) : most.le (.ofInt (evictFull most thread).length) = false := by
  induction thread with
  | nil =>
    by_contra hZero
    have hLe := JsNumber.le_trans hMost (Bool.of_not_eq_false hZero)
    rw [show (1 : JsNumber) = .ofInt 1 from rfl, JsNumber.le_ofInt] at hLe
    simp [evictFull] at hLe
  | cons entry rest ih =>
    unfold evictFull
    split
    · exact ih
    · next hBelow => simpa using hBelow

theorem evictFull_length_le (most : JsNumber) (thread : List MemoryEntry) :
    (evictFull most thread).length ≤ thread.length := by
  induction thread with
  | nil => exact le_rfl
  | cons entry rest ih =>
    unfold evictFull
    split
    · exact Nat.le_succ_of_le ih
    · exact le_rfl

theorem oldestSession_mem {threads : List (String × List MemoryEntry)} {oldest : ℚ × String}
    (hOldest : oldestSession threads = some oldest) :
    ∃ first rest, (oldest.2, first :: rest) ∈ threads := by
  have hFold : ∀ (more : List (String × List MemoryEntry)) (best : Option (ℚ × String)),
      (∀ oldest ∈ best, ∃ first rest, (oldest.2, first :: rest) ∈ threads) → more ⊆ threads →
      ∀ oldest ∈ more.foldl (fun oldest thread =>
        match thread.2 with
        | [] => oldest
        | first :: _ =>
          if oldest.all (first.timestamp < ·.1) then some (first.timestamp, thread.1)
          else oldest) best, ∃ first rest, (oldest.2, first :: rest) ∈ threads := by
    intro more
    induction more with
    | nil => exact fun _ hBest _ => hBest
    | cons thread more ih =>
      intro best hBest hMore
      rcases cons_subset.mp hMore with ⟨hThread, hMore⟩
      refine ih _ ?_ hMore
      rcases thread with ⟨sessionId, _ | ⟨first, rest⟩⟩
      · exact hBest
      · dsimp only
        split
        · rintro _ ⟨⟩
          exact ⟨first, rest, hThread⟩
        · exact hBest
  exact hFold threads none nofun (List.Subset.refl _) oldest hOldest

----------
-- Evictions
----------

/- What an eviction leaves: as many entries as are counted, and threads no longer than before. -/
structure Shrunk (s next : InMemoryBackend) : Prop where
  counted : next.totalEntries = entryCount next.threads
  shorter : ∀ sessionId thread, next.threads.get? sessionId = some thread →
    thread.length ≤ (s.thread sessionId).length

theorem thread_eq {sessionId : String} {thread : List MemoryEntry}
    (hGet : s.threads.get? sessionId = some thread) : s.thread sessionId = thread := by
  rw [InMemoryBackend.thread, hGet]
  rfl

theorem Shrunk.makeRoom (config : InMemoryConfig)
    (hCounted : s.totalEntries = entryCount s.threads) (sessionId : String) :
    (s.makeRoom config sessionId).totalEntries =
      entryCount (s.makeRoom config sessionId).threads := by
  rw [InMemoryBackend.makeRoom, entryCount_set, hCounted]
  change _ = entryCount s.threads - ((s.thread sessionId).length : Int) + _
  ring

theorem Shrunk.evictOldest (hCounted : s.totalEntries = entryCount s.threads)
    {oldest : ℚ × String} (hOldest : oldestSession s.threads.entries = some oldest)
    (hNamed : oldest.2 ≠ "") :
    Shrunk s s.evictOldest ∧ s.evictOldest.totalEntries = s.totalEntries - 1 ∧
      ∀ sessionId thread, s.threads.get? sessionId = some thread →
        (oldest.2 = sessionId → thread.length ≠ 1) →
          ∃ rest, s.evictOldest.threads.get? sessionId = some rest := by
  rcases oldestSession_mem hOldest with ⟨first, rest, hMem⟩
  have hGet := (s.threads.mem_entries_iff _ _).mp hMem
  have hThread := thread_eq hGet
  have hNext : s.evictOldest =
      { threads := if rest = [] then s.threads.delete oldest.2 else s.threads.set oldest.2 rest
        totalEntries := s.totalEntries - 1 } := by
    rw [InMemoryBackend.evictOldest, hOldest]
    dsimp only
    rw [if_neg hNamed, hThread, tail_cons]
  rw [hNext]
  refine ⟨⟨?_, ?_⟩, rfl, ?_⟩
  · dsimp only
    rw [hCounted]
    split
    · next hRest =>
      rw [entryCount_delete, hGet, hRest]
      rfl
    · rw [entryCount_set, hGet, Option.getD_some, length_cons]
      push_cast
      ring
  · intro sessionId thread hFound
    dsimp only at hFound
    split at hFound
    · rw [get?_delete] at hFound
      split at hFound
      · cases hFound
      · rw [thread_eq hFound]
    · rw [get?_set] at hFound
      split at hFound
      · next hSame =>
        cases hFound
        rw [← hSame, hThread]
        exact Nat.le_succ _
      · rw [thread_eq hFound]
  · intro sessionId thread hFound hMore
    dsimp only
    by_cases hSame : oldest.2 = sessionId
    · have hLonger := hMore hSame
      rw [← hSame, hGet] at hFound
      cases hFound
      rw [if_neg (fun hNil => hLonger (by rw [hNil]; rfl)), hSame]
      exact ⟨rest, get?_set_self _ _ _⟩
    · refine ⟨thread, ?_⟩
      split
      · rw [get?_delete, if_neg hSame, hFound]
      · rw [get?_set, if_neg hSame, hFound]

theorem exists_room (hWithin : WithinLimits config s) {entry : MemoryEntry}
    (hElsewhere : EvictsElsewhere config s (.addEntry entry)) :
    ∃ roomy thread, s.addEntry config entry =
        ⟨roomy.threads.set entry.sessionId (thread ++ [entry]), roomy.totalEntries + 1⟩ ∧
      Shrunk (s.makeRoom config entry.sessionId) roomy ∧
      roomy.threads.get? entry.sessionId = some thread ∧
      JsNumber.le (.ofInt (roomy.totalEntries + 1)) config.maxTotalEntries = true := by
  rcases hElsewhere with ⟨_, hWhole, hEvict⟩
  have hCounted := Shrunk.makeRoom config hWithin.counted entry.sessionId
  have hMade : (s.makeRoom config entry.sessionId).threads.get? entry.sessionId = some _ :=
    get?_set_self _ _ _
  unfold InMemoryBackend.addEntry
  dsimp only at hEvict ⊢
  by_cases hFull : config.maxTotalEntries.le
      (.ofInt (s.makeRoom config entry.sessionId).totalEntries) = true
  · rcases hEvict hFull with ⟨oldest, hOldest, hNamed, hMore⟩
    rw [thread_eq hMade] at hMore
    rcases Shrunk.evictOldest hCounted hOldest hNamed with ⟨hShrunk, hTotal, hStays⟩
    rcases hStays _ _ hMade hMore with ⟨thread, hThread⟩
    refine ⟨_, thread, by rw [if_pos hFull, hThread], hShrunk, hThread, ?_⟩
    rw [hTotal, sub_add_cancel]
    refine le_limit_of_le ?_ hWithin.altogether
    have hFewer : (evictFull config.maxEntriesPerSession (s.thread entry.sessionId)).length ≤
        (s.thread entry.sessionId).length := evictFull_length_le _ _
    simp only [InMemoryBackend.makeRoom]
    omega
  · refine ⟨_, _, by rw [if_neg hFull, hMade], ⟨hCounted, ?_⟩, hMade,
      hWhole.succ_le (eq_false_of_ne_true hFull)⟩
    intro sessionId thread hThread
    rw [thread_eq hThread]

theorem withinLimits_empty (config : InMemoryConfig) : WithinLimits config .empty :=
  ⟨rfl, JsNumber.le_trans (by decide +kernel : JsNumber.le (.ofInt 0) 1 = true) config.altogether,
    nofun⟩

theorem entryKept_of_evictsElsewhere (hWithin : WithinLimits config s) {op : MemoryOp}
    (hElsewhere : EvictsElsewhere config s op) : EntryKept config s op := by
  cases op with
  | clear =>
    exact ⟨withinLimits_empty config, trivial⟩
  | deleteThread sessionId =>
    refine ⟨?_, trivial⟩
    unfold memoryStep InMemoryBackend.deleteThread
    dsimp only
    split
    · exact hWithin
    · next thread hGet =>
      refine ⟨?_, le_limit_of_le (by dsimp only; omega) hWithin.altogether, ?_⟩
      · rw [entryCount_delete, hGet, hWithin.counted]
        rfl
      · intro other found hFound
        rw [get?_delete] at hFound
        split at hFound
        · cases hFound
        · exact hWithin.perSession other found hFound
  | addEntry entry =>
    rcases exists_room hWithin hElsewhere with ⟨roomy, thread, hAdd, hShrunk, hThread, hTotal⟩
    unfold EntryKept
    dsimp only [memoryStep]
    rw [hAdd]
    refine ⟨⟨?_, hTotal, ?_⟩, ?_⟩
    · rw [entryCount_set, hThread, hShrunk.counted, Option.getD_some, length_append,
        length_singleton]
      push_cast
      ring
    · intro sessionId found hFound
      rw [get?_set] at hFound
      split at hFound
      · cases hFound
        have hLess := hShrunk.shorter _ _ hThread
        have hMade : (s.makeRoom config entry.sessionId).thread entry.sessionId =
            evictFull config.maxEntriesPerSession (s.thread entry.sessionId) :=
          thread_eq (get?_set_self _ _ _)
        rw [hMade] at hLess
        refine le_limit_of_le ?_ (hElsewhere.1.succ_le (le_evictFull config.perSession
          (s.thread entry.sessionId)))
        rw [length_append]
        push_cast
        exact_mod_cast Nat.succ_le_succ hLess
      · next hOther =>
        have hLess := hShrunk.shorter sessionId found hFound
        have hSame : (s.makeRoom config entry.sessionId).thread sessionId = s.thread sessionId := by
          simp [InMemoryBackend.thread, InMemoryBackend.makeRoom, get?_set, hOther]
        rw [hSame] at hLess
        cases hGet : s.threads.get? sessionId with
        | none =>
          simp only [InMemoryBackend.thread, hGet, Option.getD_none, length_nil] at hLess
          exact le_limit_of_le (by omega : (found.length : Int) ≤ 1) config.perSession
        | some thread =>
          rw [thread_eq hGet] at hLess
          exact le_limit_of_le (by omega) (hWithin.perSession sessionId thread hGet)
    · simp

/- As long as evictions find their entry elsewhere, the limits are kept in every run. -/
theorem entries_kept_within_limits (config : InMemoryConfig) {ops : List MemoryOp}
    (hElsewhere : AlongRun (memoryStep config) (EvictsElsewhere config) .empty ops) :
    AlongRun (memoryStep config) (EntryKept config) .empty ops := by
  refine AlongRun.of_invariant ?_ (withinLimits_empty config) hElsewhere
  intro s op hWithin hOp
  have hKept := entryKept_of_evictsElsewhere hWithin hOp
  exact ⟨hKept, hKept.1⟩

def entryLimits (perSession altogether : Nat) : InMemoryConfig :=
  have hOne (n : Nat) : JsNumber.le 1 (.ofInt (n + 1)) = true :=
    (JsNumber.le_ofInt 1 _).trans (decide_eq_true (by omega))
  ⟨.ofInt (perSession + 1), .ofInt (altogether + 1), hOne _, hOne _⟩

/- With room for two entries, the third one evicts the entry of the other session. -/
theorem entries_kept_in_two_sessions :
    AlongRun (memoryStep (entryLimits 1 1)) (EntryKept (entryLimits 1 1)) .empty
      [.addEntry ⟨1, "a", 1, none⟩, .addEntry ⟨2, "b", 2, none⟩, .addEntry ⟨3, "b", 3, none⟩] := by
  refine entries_kept_within_limits _ ⟨⟨.inr ⟨2, rfl⟩, .inr ⟨2, rfl⟩, ?_⟩,
    ⟨.inr ⟨2, rfl⟩, .inr ⟨2, rfl⟩, ?_⟩, ⟨.inr ⟨2, rfl⟩, .inr ⟨2, rfl⟩, ?_⟩, trivial⟩
  all_goals decide +kernel

/-
  With room for one entry, the second one of a session evicts the first: the thread leaves the map,
  and the new entry goes into the thread that has left.
-/
theorem only_entry_is_lost : ¬ EntryKept (entryLimits 999 0)
      (runSteps (memoryStep (entryLimits 999 0)) .empty [.addEntry ⟨1, "a", 1, none⟩])
      (.addEntry ⟨2, "a", 2, none⟩) := by
  intro hKept
  exact absurd hKept.2 (by decide +kernel)

end AgencCore.Memory
