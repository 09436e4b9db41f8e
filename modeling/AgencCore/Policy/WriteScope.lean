import AgencCore.Policy.StaticRules

/-
  Write scopes.

  A path is below a root if the segments of the root begin its own. The relative path between the
  two tells it, except that a directory whose name begins with two dots looks like a way out.
-/

namespace AgencCore.Policy

open Foundations List

section

variable (host : PolicyHost)

/- The segments of the root begin those of the candidate. -/
def IsBelow (root candidate : String) : Prop := resolvePath host root <+: resolvePath host candidate

/- The first step below the root is not a name that begins with two dots. -/
def StepsPlainly (root candidate : String) : Prop :=
  ∀ segment rest, resolvePath host candidate = resolvePath host root ++ segment :: rest →
    startsWith segment ['.', '.'] = false

theorem sharedSegments_append (source rest : List (List Char)) :
    sharedSegments source (source ++ rest) = source.length := by
  induction source with
  | nil => cases rest <;> rfl
  | cons segment source ih => simp [sharedSegments, ih]

theorem isPrefix_of_sharedSegments {source target : List (List Char)}
    (hShared : source.length ≤ sharedSegments source target) : source <+: target := by
  induction source generalizing target with
  | nil => exact nil_prefix
  | cons segment source ih =>
    cases target with
    | nil => simp [sharedSegments] at hShared
    | cons other target =>
      rw [sharedSegments] at hShared
      split at hShared
      · next hSame =>
        exact hSame ▸ (prefix_cons_inj segment).mpr (ih (Nat.le_of_succ_le_succ hShared))
      · simp at hShared

theorem relativePath_append (source rest : List (List Char)) :
    relativePath source (source ++ rest) = ['/'].intercalate rest := by
  simp [relativePath, sharedSegments_append]

/- Outside the root, the relative path climbs. -/
theorem startsWith_relativePath {source target : List (List Char)}
    (hOutside : ¬ source <+: target) : startsWith (relativePath source target) ['.', '.'] = true := by
  have hLess : 0 < source.length - sharedSegments source target := by
    have hNot := mt isPrefix_of_sharedSegments hOutside
    omega
  rcases Nat.exists_eq_succ_of_ne_zero hLess.ne' with ⟨climbs, hClimbs⟩
  rw [relativePath, hClimbs, replicate_succ, cons_append]
  cases List.replicate climbs ['.', '.'] ++ target.drop (sharedSegments source target) <;>
    simp [startsWith, List.intercalate]

theorem nil_not_mem_normalizeSegments (segments : List (List Char)) :
    [] ∉ normalizeSegments segments := by
  refine List.foldlRecOn (motive := ([] ∉ ·)) segments _ not_mem_nil
    (fun out hOut next _ => ?_)
  split
  · exact hOut
  · split
    · exact fun hMem => hOut (mem_of_mem_dropLast hMem)
    · next hNext _ =>
      rw [mem_append, mem_singleton]
      exact not_or.mpr ⟨hOut, fun hNil => hNext (.inl hNil.symm)⟩

theorem pathMatchesRoot_eq_true_iff (candidate root : String) :
    pathMatchesRoot host candidate root = true ↔
      IsBelow host root candidate ∧ StepsPlainly host root candidate := by
  unfold pathMatchesRoot IsBelow StepsPlainly
  by_cases hBelow : resolvePath host root <+: resolvePath host candidate
  · rcases hBelow with ⟨rest, hRest⟩
    rw [← hRest, relativePath_append]
    cases rest with
    | nil => simp [List.intercalate]
    | cons segment rest =>
      have hText : ['/'].intercalate (segment :: rest) ≠ [] ∧
          startsWith (['/'].intercalate (segment :: rest)) ['.', '.'] =
            startsWith segment ['.', '.'] := by
        rcases segment with _ | ⟨c, _ | ⟨d, segment⟩⟩
        · have hMem : [] ∈ resolvePath host candidate := hRest ▸ by simp
          exact absurd hMem (nil_not_mem_normalizeSegments _)
        · cases rest <;> simp [startsWith, List.intercalate]
        · cases rest <;> simp [startsWith, List.intercalate]
      simp [hText]
  · have hTrue := startsWith_relativePath hBelow
    have hText : relativePath (resolvePath host root) (resolvePath host candidate) ≠ [] := by
      intro hNil
      simp [hNil, startsWith] at hTrue
    simp [hTrue, hText, hBelow]

/- An absolute path is not blank. -/
theorem mem_usableEntries {list : Option (List String)} {root : String}
    (hRoot : root ∈ entriesOf list) (hAbsolute : isAbsolute root = true) :
    root ∈ usableEntries list := by
  refine List.mem_filter.mpr ⟨hRoot, ?_⟩
  rw [isAbsolute, beq_iff_eq, head?_eq_some_iff] at hAbsolute
  rcases hAbsolute with ⟨rest, hText⟩
  have hSlash : ('/' :: rest).rdropWhile isWhiteSpace ≠ [] := by
    rw [ne_eq, rdropWhile_eq_nil_iff]
    exact fun hAll => absurd (hAll '/' mem_cons_self) (by decide)
  rcases exists_cons_of_ne_nil hSlash with ⟨c, others, hTrimmed⟩
  have hTrim : trim root = String.ofList (c :: others) := by
    rw [trim, hText]
    exact congrArg String.ofList hTrimmed
  simp only [isBlank, hTrim, jsLength, String.toList_ofList, map_cons, sum_cons]
  split <;> simp

/- What keeps a rule from covering what its roots say. -/
theorem write_scope_exact (candidate : String) :
    (∀ root, (pathMatchesRoot host candidate root = true ↔ IsBelow host root candidate) ↔
      (IsBelow host root candidate → StepsPlainly host root candidate)) ∧
    ∀ writePaths rule, candidate ∈ writePaths →
      ((∃ root ∈ entriesOf rule.denyRoots, isAbsolute root ∧ IsBelow host root candidate ∧
          StepsPlainly host root candidate) ∨
        ((∃ root ∈ entriesOf rule.allowRoots, isAbsolute root) ∧
          ∀ root ∈ entriesOf rule.allowRoots, ¬ IsBelow host root candidate)) →
      (findWriteScopeViolation host writePaths rule).isSome := by
  refine ⟨fun root => ?_, fun writePaths rule hPath hScope => ?_⟩
  · rw [pathMatchesRoot_eq_true_iff]
    tauto
  · rw [findWriteScopeViolation, findSome?_isSome_iff]
    refine ⟨candidate, hPath, ?_⟩
    unfold writePathViolation
    rcases hScope with ⟨root, hRoot, hAbsolute, hBelow, hPlain⟩ |
      ⟨⟨root, hRoot, hAbsolute⟩, hOutside⟩
    · have hDenied : (usableEntries rule.denyRoots).any (pathMatchesRoot host candidate) = true :=
        List.any_eq_true.mpr ⟨root, mem_usableEntries hRoot hAbsolute,
          (pathMatchesRoot_eq_true_iff host candidate root).mpr ⟨hBelow, hPlain⟩⟩
      rw [if_pos hDenied]
      split <;> rfl
    · have hNone : (usableEntries rule.allowRoots).any (pathMatchesRoot host candidate) = false := by
        refine List.any_eq_false.mpr (fun root hRoot hMatches => ?_)
        exact hOutside root (mem_of_mem_filter hRoot)
          ((pathMatchesRoot_eq_true_iff host candidate root).mp hMatches).1
      have hOutsideAll : usableEntries rule.allowRoots ≠ [] ∧
          (!(usableEntries rule.allowRoots).any (pathMatchesRoot host candidate)) = true :=
        ⟨ne_nil_of_mem (mem_usableEntries hRoot hAbsolute), congrArg not hNone⟩
      rw [if_pos hOutsideAll]
      split
      · rfl
      · split <;> rfl

end

theorem write_below_denied_root :
    (findWriteScopeViolation PolicyHost.basic ["/a/b"] ⟨none, some ["/a"]⟩).isSome := by
  have hBelow : IsBelow PolicyHost.basic "/a" "/a/b" := by
    unfold IsBelow
    decide +kernel
  have hPlain : StepsPlainly PolicyHost.basic "/a" "/a/b" := by
    intro segment rest hSplit
    have hSegments : [['a'], ['b']] = [['a']] ++ segment :: rest := hSplit
    cases hSegments
    rfl
  exact (write_scope_exact PolicyHost.basic "/a/b").2 _ _ mem_cons_self
    (.inl ⟨"/a", mem_cons_self, rfl, hBelow, hPlain⟩)

/- The path steps into a directory whose name begins with two dots. -/
theorem dotted_directory_escapes : IsBelow PolicyHost.basic "/a" "/a/..b" ∧
      findWriteScopeViolation PolicyHost.basic ["/a/..b"] ⟨none, some ["/a"]⟩ = none := by
  unfold IsBelow
  decide +kernel

/- What lies below a root lies below the roots above it. -/
theorem scopes_nest (host : PolicyHost) {candidate middle root : String}
    (hInner : pathMatchesRoot host candidate middle = true)
    (hOuter : pathMatchesRoot host middle root = true) :
    pathMatchesRoot host candidate root = true := by
  rw [pathMatchesRoot_eq_true_iff] at *
  refine ⟨hOuter.1.trans hInner.1, fun segment rest hSplit => ?_⟩
  rcases hOuter.1 with ⟨upper, hUpper⟩
  rcases hInner.1 with ⟨lower, hLower⟩
  -- the first step below the root is one of the middle path, unless the two are the same
  cases upper with
  | nil =>
    rw [append_nil] at hUpper
    exact hInner.2 segment rest (by rw [hSplit, hUpper])
  | cons step upper =>
    rw [← hLower, ← hUpper, append_assoc, append_cancel_left_eq, cons_append, cons.injEq] at hSplit
    exact hSplit.1 ▸ hOuter.2 step upper hUpper.symm

theorem nested_directory_in_scope :
    pathMatchesRoot PolicyHost.basic "/a/b/c" "/a" = true :=
  scopes_nest PolicyHost.basic (by decide +kernel : pathMatchesRoot _ _ "/a/b" = true)
    (by decide +kernel)

end AgencCore.Policy
