import AgencCore.Policy.Matching

/-
  The names that patterns with wildcards describe.

  Both matchers walk the segments between the wildcards from left to right and commit to the first
  occurrence of each. A later occurrence leaves no more room than the first one, and where wildcards
  have to do without dots, what it adds to the next wildcard has none. The last segment has to stand
  at the end, so that its first occurrence may be the wrong one.
-/

namespace AgencCore.Policy

open List

/- The text is the pattern with a text of free characters for each wildcard. -/
def Describes (free : Char → Bool) : List Char → List Char → Prop
| [], text => text = []
| c :: pattern, text =>
  if c = '*' then ∃ filling rest, text = filling ++ rest ∧ filling.all free ∧
    Describes free pattern rest
  else ∃ rest, text = c :: rest ∧ Describes free pattern rest

/- The same from the first wildcard on, over the segments that follow the wildcards. -/
def Fills (free : Char → Bool) : List (List Char) → List Char → Prop
| [], text => text = []
| segment :: segments, text => ∃ filling rest, text = filling ++ segment ++ rest ∧
    filling.all free ∧ Fills free segments rest

/- Walk over segments, with the text skipped before each one free. -/
def walkFree (free : Char → Bool) (value : List Char) : Nat → List (List Char) → Option Nat
| cursor, [] => some cursor
| cursor, segment :: rest => if segment = [] then walkFree free value cursor rest
    else
      match indexOfFrom value segment cursor with
      | none => none
      | some start =>
        if ((value.drop cursor).take (start - cursor)).all free then
          walkFree free value (start + segment.length) rest
        else none

/- A wildcard of a tool pattern does not cross a dot. -/
def undotted (c : Char) : Bool := c != '.'

/- A tool pattern with at least one wildcard. -/
def matchTool (lowerTool lowerPattern : List Char) : Bool :=
  let parts := splitOnChar '*' lowerPattern
  let first := parts.headD []
  if !startsWith lowerTool first then false
  else match walkFree undotted lowerTool first.length parts.tail with
    | none => false
    | some cursor =>
      let rest := lowerTool.drop cursor
      if endsWith lowerPattern ['*'] then rest.all undotted else rest.length == 0

def matchesPattern (host : PolicyHost) (toolName pattern : String) : Bool :=
  if pattern = "*" then true
  else if '*' ∉ pattern.toList then host.toLowerCase toolName == host.toLowerCase pattern
  else matchTool (host.toLowerCase toolName).toList (host.toLowerCase pattern).toList

----------
-- Segments
----------

section

variable {free : Char → Bool} {pattern value text : List Char} {segment : List Char}
  {segments more : List (List Char)}

theorem startsWith_iff : startsWith value segment = true ↔ segment <+: value := by
  rw [startsWith, beq_iff_eq, prefix_iff_eq_take, eq_comm]

theorem splitOnChar_ne_nil (c : Char) (text : List Char) : splitOnChar c text ≠ [] := by
  induction text with
  | nil => simp [splitOnChar]
  | cons d text ih =>
    rw [splitOnChar]
    split
    · simp
    · split <;> simp

theorem describes_iff : Describes free pattern text ↔
    ∃ rest, text = (splitOnChar '*' pattern).headD [] ++ rest ∧
      Fills free (splitOnChar '*' pattern).tail rest := by
  induction pattern generalizing text with
  | nil => simp [Describes, splitOnChar, Fills]
  | cons c pattern ih =>
    rcases exists_cons_of_ne_nil (splitOnChar_ne_nil '*' pattern) with ⟨part, parts, hParts⟩
    rw [Describes, splitOnChar]
    simp only [ih, hParts]
    split
    · simp only [headD_cons, tail_cons, nil_append, exists_eq_left', Fills,
        append_assoc]
      constructor
      · rintro ⟨filling, _, rfl, hFree, rest, rfl, hRest⟩
        exact ⟨filling, rest, rfl, hFree, hRest⟩
      · rintro ⟨filling, rest, rfl, hFree, hRest⟩
        exact ⟨filling, _, rfl, hFree, rest, rfl, hRest⟩
    · simp only [headD_cons, tail_cons, cons_append]
      constructor
      · rintro ⟨_, rfl, rest, rfl, hRest⟩
        exact ⟨rest, rfl, hRest⟩
      · rintro ⟨rest, rfl, hRest⟩
        exact ⟨_, rfl, rest, rfl, hRest⟩

theorem describes_iff_eq (hNone : '*' ∉ pattern) :
    Describes free pattern text ↔ text = pattern := by
  induction pattern generalizing text with
  | nil => rfl
  | cons c pattern ih =>
    rw [mem_cons, not_or] at hNone
    rw [Describes, if_neg (Ne.symm hNone.1)]
    simp [ih hNone.2]

/- The first occurrence of a segment. -/
theorem indexOf_spec (segment text : List Char) (offset : Nat) :
    (∀ start ∈ indexOf segment offset text, ∃ before after, text = before ++ segment ++ after ∧
      start = offset + before.length ∧
      ∀ other rest, text = other ++ segment ++ rest → before.length ≤ other.length) ∧
    (indexOf segment offset text = none → ∀ other rest, text ≠ other ++ segment ++ rest) := by
  induction text generalizing offset with
  | nil =>
    rw [indexOf]
    split
    · next hNil => simp [hNil]
    · next hSome => simp [hSome]
  | cons c text ih =>
    rw [indexOf]
    split
    · next hHere =>
      rcases startsWith_iff.mp hHere with ⟨after, hAfter⟩
      exact ⟨fun start hStart => ⟨[], after, hAfter.symm, (Option.some.inj hStart).symm,
        fun _ _ _ => Nat.zero_le _⟩, nofun⟩
    · next hNot =>
      have hLater : ∀ other rest, c :: text = other ++ segment ++ rest →
          ∃ tail, other = c :: tail ∧ text = tail ++ segment ++ rest := by
        intro other rest hText
        cases other with
        | nil => exact absurd (startsWith_iff.mpr ⟨rest, hText.symm⟩) hNot
        | cons d tail =>
          cases hText
          exact ⟨tail, rfl, rfl⟩
      refine ⟨fun start hStart => ?_, fun hNone other rest hText => ?_⟩
      · rcases (ih (offset + 1)).1 start hStart with ⟨before, after, rfl, hLength, hFirst⟩
        refine ⟨c :: before, after, rfl, by rw [hLength, length_cons]; omega, ?_⟩
        intro other rest hText
        rcases hLater other rest hText with ⟨tail, rfl, hTail⟩
        exact Nat.succ_le_succ (hFirst tail rest hTail)
      · rcases hLater other rest hText with ⟨tail, _, hTail⟩
        exact (ih (offset + 1)).2 hNone tail rest hTail

/- A text that overlaps itself after a free text is free. -/
theorem all_of_append_eq_append {x p u : List Char} (hEq : x ++ p = p ++ u) (hSome : x ≠ [])
    (hFree : x.all free) : p.all free := by
  rcases List.append_eq_append_iff.mp hEq with ⟨a, rfl, hRest⟩ | ⟨c, rfl, _⟩
  · have hLess : a.length < (x ++ a).length := by
      simp [List.length_pos_iff.mpr hSome]
    rw [all_append, hFree, Bool.true_and]
    exact all_of_append_eq_append hRest hSome hFree
  · exact (Bool.and_eq_true_iff.mp (all_append ▸ hFree)).1
termination_by p.length

variable {before after : List Char}

/- A later occurrence leaves a free text after the first one. -/
theorem exists_free_of_first (hText : text = before ++ segment ++ after)
    (hFirst : ∀ other rest, text = other ++ segment ++ rest → before.length ≤ other.length)
    {filling rest : List Char} (hOther : text = filling ++ segment ++ rest)
    (hFree : filling.all free) :
    before.all free ∧ ∃ u, after = u ++ rest ∧ u.all free ∧ (u = [] ∨ segment.all free) := by
  have hBefore : before <+: filling := prefix_of_prefix_length_le
    ⟨_, ((append_assoc ..).symm.trans hText.symm)⟩
    ⟨_, ((append_assoc ..).symm.trans hOther.symm)⟩ (hFirst filling rest hOther)
  rcases hBefore with ⟨x, rfl⟩
  rw [all_append, Bool.and_eq_true] at hFree
  refine ⟨hFree.1, ?_⟩
  have hShift : segment ++ after = (x ++ segment) ++ rest := by
    simpa [hText, append_assoc] using hOther
  have hOverlap : segment <+: x ++ segment :=
    prefix_of_prefix_length_le ⟨after, rfl⟩ ⟨rest, hShift.symm⟩ (by simp)
  rcases hOverlap with ⟨u, hU⟩
  rw [← hU, append_assoc] at hShift
  refine ⟨u, append_cancel_left hShift, ?_⟩
  by_cases hNil : x = []
  · have hSame : u = [] := by simpa [hNil] using hU
    simp [hSame]
  · have hSegment := all_of_append_eq_append hU.symm hNil hFree.2
    have hBoth : (segment ++ u).all free = true := by simp [hU, hFree.2, hSegment]
    exact ⟨(Bool.and_eq_true_iff.mp (all_append ▸ hBoth)).2, .inr hSegment⟩

theorem fills_append (hMore : more ≠ []) {u : List Char} (hFree : u.all free)
    (hFills : Fills free more text) : Fills free more (u ++ text) := by
  cases more with
  | nil => exact absurd rfl hMore
  | cons segment more =>
    rcases hFills with ⟨filling, rest, rfl, hFilling, hRest⟩
    exact ⟨u ++ filling, rest, by simp, by simp [hFree, hFilling], hRest⟩

theorem fills_cons_iff (hText : text = before ++ segment ++ after)
    (hFirst : ∀ other rest, text = other ++ segment ++ rest → before.length ≤ other.length)
    (hMore : more ≠ []) :
    Fills free (segment :: more) text ↔ before.all free ∧ Fills free more after := by
  constructor
  · rintro ⟨filling, rest, hOther, hFree, hRest⟩
    rcases exists_free_of_first hText hFirst hOther hFree with ⟨hBefore, u, rfl, hU, _⟩
    exact ⟨hBefore, fills_append hMore hU hRest⟩
  · exact fun hBoth => ⟨before, after, hText, hBoth.1, hBoth.2⟩

variable (free value) in
/- The walk stops, or goes on after the first occurrence of the segment. -/
theorem walkFree_cons (hSegment : segment ≠ []) (cursor : Nat) (segments : List (List Char)) :
    (walkFree free value cursor (segment :: segments) = none ∧
      ∀ other rest, value.drop cursor ≠ other ++ segment ++ rest) ∨
    ∃ before next, next ≤ value.length ∧ value.drop cursor = before ++ segment ++ value.drop next ∧
      (∀ other rest, value.drop cursor = other ++ segment ++ rest →
        before.length ≤ other.length) ∧
      walkFree free value cursor (segment :: segments) =
        if before.all free then walkFree free value next segments else none := by
  have hSpec := indexOf_spec segment (value.drop cursor) cursor
  rw [walkFree, if_neg hSegment]
  cases hIndex : indexOfFrom value segment cursor with
  | none => exact .inl ⟨rfl, hSpec.2 hIndex⟩
  | some start =>
    rcases hSpec.1 start hIndex with ⟨before, after, hText, rfl, hFirst⟩
    have hTake : (value.drop cursor).take (cursor + before.length - cursor) = before := by
      rw [hText, Nat.add_sub_cancel_left, append_assoc, take_left]
    have hDrop : value.drop (cursor + before.length + segment.length) = after := by
      rw [Nat.add_assoc, ← drop_drop, hText, ← length_append, drop_left]
    have hLength := congrArg List.length hText
    have hPos := List.length_pos_iff.mpr hSegment
    simp only [length_drop, length_append] at hLength
    refine .inr ⟨before, cursor + before.length + segment.length, by omega, ?_, hFirst, ?_⟩
    · rw [hDrop, hText]
    · dsimp only
      rw [hTake]

theorem walkFree_le {cursor next : Nat} (hCursor : cursor ≤ value.length)
    (hWalk : walkFree free value cursor segments = some next) : next ≤ value.length := by
  induction segments generalizing cursor with
  | nil =>
    cases hWalk
    exact hCursor
  | cons segment segments ih =>
    by_cases hNil : segment = []
    · rw [walkFree, if_pos hNil] at hWalk
      exact ih hCursor hWalk
    · rcases walkFree_cons free value hNil cursor segments with
        ⟨hNone, _⟩ | ⟨_, next', hNext, _, _, hSome⟩
      · cases hNone.symm.trans hWalk
      · rw [hSome] at hWalk
        split at hWalk
        · exact ih hNext hWalk
        · cases hWalk

/- The walk finds the segments if they can be found at all. -/
theorem fills_append_iff (hMore : more ≠ []) (cursor : Nat) :
    Fills free (segments ++ more) (value.drop cursor) ↔
      ∃ next ∈ walkFree free value cursor segments, Fills free more (value.drop next) := by
  induction segments generalizing cursor with
  | nil => simp [walkFree]
  | cons segment segments ih =>
    have hAppend : segments ++ more ≠ [] := append_ne_nil_of_right_ne_nil _ hMore
    rw [cons_append]
    by_cases hNil : segment = []
    · have hText : value.drop cursor = [] ++ segment ++ value.drop cursor := by simp [hNil]
      rw [walkFree, if_pos hNil, fills_cons_iff hText (fun _ _ _ => Nat.zero_le _) hAppend,
        all_nil, and_iff_right rfl]
      exact ih cursor
    · rcases walkFree_cons free value hNil cursor segments with
        ⟨hWalk, hNone⟩ | ⟨before, next, _, hText, hFirst, hWalk⟩
      · refine iff_of_false ?_ (by simp [hWalk])
        rintro ⟨filling, rest, hText, _⟩
        exact hNone filling rest hText
      · rw [hWalk, fills_cons_iff hText hFirst hAppend]
        split
        · next hFree => rw [and_iff_right hFree, ih next]
        · next hNot => exact iff_of_false (fun hBoth => hNot hBoth.1) (by simp)

variable {first last : List Char} {inner : List (List Char)}

theorem describes_iff_walk (hParts : splitOnChar '*' pattern = first :: (inner ++ [last])) :
    Describes free pattern value ↔ startsWith value first = true ∧
      ∃ next ∈ walkFree free value first.length inner, Fills free [last] (value.drop next) := by
  rw [describes_iff, hParts, startsWith_iff, ← fills_append_iff (by simp)]
  constructor
  · rintro ⟨rest, rfl, hRest⟩
    exact ⟨⟨rest, rfl⟩, by simpa using hRest⟩
  · rintro ⟨⟨rest, rfl⟩, hRest⟩
    exact ⟨rest, rfl, by simpa using hRest⟩

/- Two parts at least. -/
theorem exists_parts (hStar : '*' ∈ pattern) :
    ∃ first inner last, splitOnChar '*' pattern = first :: (inner ++ [last]) := by
  have hTail : (splitOnChar '*' pattern).tail ≠ [] := by
    induction pattern with
    | nil => cases hStar
    | cons c pattern ih =>
      rcases exists_cons_of_ne_nil (splitOnChar_ne_nil '*' pattern) with ⟨part, parts, hParts⟩
      rw [hParts] at ih
      rw [splitOnChar, hParts]
      split
      · simp
      · next hOther => exact ih ((List.mem_cons.mp hStar).resolve_left (Ne.symm hOther))
  rcases exists_cons_of_ne_nil (splitOnChar_ne_nil '*' pattern) with ⟨first, rest, hParts⟩
  rw [hParts, tail_cons] at hTail
  exact ⟨first, rest.dropLast, rest.getLast hTail, by rw [hParts, dropLast_append_getLast]⟩

----------
-- Globs
----------

theorem walkSegments_eq (value : List Char) (cursor : Nat) (segments : List (List Char)) :
    walkSegments value cursor segments = walkFree (fun _ => true) value cursor segments := by
  induction segments generalizing cursor with
  | nil => rfl
  | cons segment segments ih =>
    rw [walkSegments, walkFree]
    cases indexOfFrom value segment cursor <;> simp [ih]

theorem endsWith_drop_iff {cursor : Nat} (hCursor : cursor ≤ value.length) :
    endsWith value last = true ∧ cursor + last.length ≤ value.length ↔
      Fills (fun _ => true) [last] (value.drop cursor) := by
  have hFills : Fills (fun _ => true) [last] (value.drop cursor) ↔ last <:+ value.drop cursor := by
    simp [Fills, List.IsSuffix, @eq_comm _ (value.drop cursor)]
  rw [hFills, endsWith, startsWith_iff, reverse_prefix]
  constructor
  · rintro ⟨hSuffix, hLength⟩
    refine suffix_of_suffix_length_le hSuffix (drop_suffix cursor value) ?_
    rw [length_drop]
    omega
  · intro hSuffix
    have hLength := hSuffix.length_le
    rw [length_drop] at hLength
    exact ⟨hSuffix.trans (drop_suffix cursor value), by omega⟩

theorem matchSegments_iff (hStar : '*' ∈ pattern) :
    matchSegments pattern value = true ↔ Describes (fun _ => true) pattern value := by
  rcases exists_parts hStar with ⟨first, inner, last, hParts⟩
  rw [describes_iff_walk hParts, matchSegments, hParts]
  simp only [headD_cons, tail_cons, dropLast_concat, walkSegments_eq,
    getLastD_cons, getLastD_concat]
  cases hStarts : startsWith value first with
  | false => simp
  | true =>
    have hFirst := (startsWith_iff.mp hStarts).length_le
    cases hWalk : walkFree (fun _ => true) value first.length inner with
    | none => simp
    | some next =>
      simp only [Option.mem_some_iff, exists_eq_left', ← endsWith_drop_iff (walkFree_le hFirst hWalk)]
      cases endsWith value last <;> simp

end

/- The glob matcher decides the patterns without alternatives and regular expressions. -/
theorem globs_decided (host : PolicyHost) (pattern value : String)
    (hPlain : '|' ∉ pattern.toList) (hGlob : isRegExpForm pattern.toList = false) :
    matchGlob host pattern value = true ↔
      Describes (fun _ => true) pattern.toList value.toList := by
  rw [matchGlob, if_neg (by simp [hPlain]), matchEntry, hGlob]
  split
  · next hNil => simp [hNil, Describes]
  · split
    · next hStar => simp [hStar, Describes]
    · rw [if_neg (by simp)]
      split
      · next hNone => rw [beq_iff_eq, describes_iff_eq hNone]
      · next hStar => exact matchSegments_iff (not_not.mp hStar)

theorem glob_describes_name : Describes (fun _ => true) "a*c".toList "abbc".toList :=
  (globs_decided PolicyHost.basic "a*c" "abbc" (by decide) rfl).mp (by decide +kernel)

----------
-- Tool Patterns
----------

section

variable {free : Char → Bool} {value pattern segment last : List Char}

theorem splitOnChar_concat (text : List Char) :
    splitOnChar '*' (text ++ ['*']) = splitOnChar '*' text ++ [[]] := by
  induction text with
  | nil => rfl
  | cons c text ih =>
    rcases exists_cons_of_ne_nil (splitOnChar_ne_nil '*' text) with ⟨part, parts, hParts⟩
    rw [cons_append, splitOnChar, splitOnChar, ih, hParts]
    split <;> rfl

/- A pattern that ends in a wildcard. -/
theorem last_eq_nil {parts : List (List Char)} (hParts : splitOnChar '*' pattern = parts ++ [last])
    (hEnds : endsWith pattern ['*'] = true) : last = [] := by
  rw [endsWith, startsWith_iff, reverse_prefix] at hEnds
  rcases hEnds with ⟨text, rfl⟩
  rw [splitOnChar_concat] at hParts
  exact (List.singleton_inj.mp (append_inj' hParts rfl).2).symm

theorem walkFree_append (cursor : Nat) (segments more : List (List Char)) :
    walkFree free value cursor (segments ++ more) =
      (walkFree free value cursor segments).bind (walkFree free value · more) := by
  induction segments generalizing cursor with
  | nil => rfl
  | cons segment segments ih =>
    rw [cons_append, walkFree, walkFree]
    split
    · exact ih cursor
    · split
      · rfl
      · split
        · exact ih _
        · rfl

/- The walk leaves what follows a text that the segments fill. -/
theorem fills_of_walkFree
    {cursor stop : Nat}
    {segments : List (List Char)}
    (hWalk : walkFree free value cursor segments = some stop) :
    ∃ text, value.drop cursor = text ++ value.drop stop ∧ Fills free segments text := by
  induction segments generalizing cursor with
  | nil =>
    cases hWalk
    exact ⟨[], rfl, rfl⟩
  | cons segment segments ih =>
    by_cases hNil : segment = []
    · rw [walkFree, if_pos hNil] at hWalk
      rcases ih hWalk with ⟨text, hText, hFills⟩
      exact ⟨text, hText, [], text, by simp [hNil], rfl, hFills⟩
    · rcases walkFree_cons free value hNil cursor segments with
        ⟨hNone, _⟩ | ⟨before, next, _, hHere, _, hSome⟩
      · cases hNone.symm.trans hWalk
      · rw [hSome] at hWalk
        split at hWalk
        · next hFree =>
          rcases ih hWalk with ⟨text, hText, hFills⟩
          refine ⟨before ++ segment ++ text, ?_, before, text, rfl, hFree, hFills⟩
          rw [hHere, hText, append_assoc _ text]
        · cases hWalk

/- A text after the filled segments is one more segment. -/
theorem Fills.concat
    {segments : List (List Char)}
    {text : List Char}
    (hFills : Fills free segments text)
    (more : List Char) :
    Fills free (segments ++ [more]) (text ++ more) := by
  induction segments generalizing text with
  | nil =>
    cases hFills
    exact ⟨[], [], by simp, rfl, rfl⟩
  | cons segment segments ih =>
    rcases hFills with ⟨filling, rest, rfl, hFree, hRest⟩
    exact ⟨filling, rest ++ more, by simp, hFree, ih hRest⟩

/- The walk finds the segments of a beginning, and leaves at least what follows it. -/
theorem walkFree_of_fills
    {cursor : Nat}
    {segments : List (List Char)}
    {text more : List Char}
    (hText : value.drop cursor = text ++ more)
    (hFills : Fills free segments text) :
    ∃ stop ∈ walkFree free value cursor segments, more <:+ value.drop stop := by
  have hBoth : Fills free (segments ++ [more]) (value.drop cursor) := hText ▸ hFills.concat more
  rcases (fills_append_iff (by simp) cursor).mp hBoth with ⟨stop, hStop, filling, rest, hDrop, _, rfl⟩
  exact ⟨stop, hStop, filling, by simp [hDrop]⟩

/-
  Without a wildcard at its end a pattern catches what it describes, unless it describes a shorter
  beginning as well.
-/
theorem matchTool_iff_of_not_endsWith (hEnds : endsWith pattern ['*'] = false) :
    matchTool value pattern = true ↔ Describes undotted pattern value ∧
      ∀ shorter, shorter <+: value → shorter ≠ value → ¬ Describes undotted pattern shorter := by
  set first := (splitOnChar '*' pattern).headD [] with hHead
  set segments := (splitOnChar '*' pattern).tail with hTail
  have hDescribes : ∀ text, Describes undotted pattern text ↔
      ∃ rest, text = first ++ rest ∧ Fills undotted segments rest := fun _ => describes_iff
  have hCode : matchTool value pattern = true ↔ first <+: value ∧
      ∃ stop ∈ walkFree undotted value first.length segments, value.drop stop = [] := by
    rw [← startsWith_iff, matchTool, ← hHead, ← hTail, hEnds]
    cases startsWith value first <;>
      cases walkFree undotted value first.length segments <;> simp [Nat.sub_eq_zero_iff_le]
  refine hCode.trans ⟨?_, ?_⟩
  · rintro ⟨⟨rest, rfl⟩, stop, hStop, hEnd⟩
    rcases fills_of_walkFree hStop with ⟨text, hText, hFills⟩
    rw [hEnd, append_nil, drop_left] at hText
    refine ⟨(hDescribes _).mpr ⟨rest, rfl, hText ▸ hFills⟩, ?_⟩
    -- a shorter beginning would leave a text behind the walk
    rintro shorter ⟨more, hMore⟩ hShorter hBegins
    rcases (hDescribes shorter).mp hBegins with ⟨text', rfl, hFills'⟩
    have hDrop : (first ++ rest).drop first.length = text' ++ more := by
      rw [← hMore, append_assoc, drop_left]
    rcases walkFree_of_fills hDrop hFills' with ⟨stop', hStop', hSuffix⟩
    rw [Option.mem_unique hStop' hStop, hEnd, suffix_nil] at hSuffix
    exact hShorter (by rw [← hMore, hSuffix, append_nil])
  · rintro ⟨hText, hFirst⟩
    rcases (hDescribes value).mp hText with ⟨rest, rfl, hFills⟩
    have hDrop : (first ++ rest).drop first.length = rest ++ [] := by rw [drop_left, append_nil]
    rcases walkFree_of_fills hDrop hFills with ⟨stop, hStop, _⟩
    refine ⟨⟨rest, rfl⟩, stop, hStop, ?_⟩
    rcases fills_of_walkFree hStop with ⟨text, hSplit, hFilled⟩
    rw [drop_left] at hSplit
    by_contra hLeft
    refine hFirst (first ++ text) ⟨_, by rw [append_assoc, ← hSplit]⟩ ?_
      ((hDescribes _).mpr ⟨text, rfl, hFilled⟩)
    intro hSame
    rw [append_cancel_left hSame] at hSplit
    exact hLeft (by simpa using hSplit)

/- With a wildcard at its end it catches all that it describes. -/
theorem matchTool_iff_of_endsWith (hEnds : endsWith pattern ['*'] = true) :
    matchTool value pattern = true ↔ Describes undotted pattern value := by
  have hStar : '*' ∈ pattern := by
    rw [endsWith, startsWith_iff, reverse_prefix] at hEnds
    exact hEnds.subset (mem_singleton_self _)
  rcases exists_parts hStar with ⟨first, inner, last, hParts⟩
  have hLast : last = [] := last_eq_nil (cons_append ▸ hParts) hEnds
  rw [describes_iff_walk hParts, matchTool]
  simp only [hParts, headD_cons, tail_cons, walkFree_append]
  cases startsWith value first with
  | false => simp
  | true =>
    cases walkFree undotted value first.length inner <;> simp [hEnds, hLast, walkFree, Fills]

end

/-
  A tool pattern catches a name exactly when the name is described and, unless the pattern ends with
  a wildcard, no shorter beginning of the name is. So it answers rightly exactly for the names that
  are not described, for the patterns that end with a wildcard, and for the names that are described
  but by no shorter beginning.
-/
theorem tool_patterns_described_iff
    (host : PolicyHost)
    (hLower : ∀ text, '*' ∈ (host.toLowerCase text).toList ↔ '*' ∈ text.toList)
    (toolName : String)
    {pattern : String}
    (hPattern : pattern ≠ "*") :
    let lowerTool := (host.toLowerCase toolName).toList
    let lowerPattern := (host.toLowerCase pattern).toList
    (matchesPattern host toolName pattern = true ↔ Describes undotted lowerPattern lowerTool) ↔
      (endsWith lowerPattern ['*'] = true ∨
        (Describes undotted lowerPattern lowerTool →
          ∀ shorter, shorter <+: lowerTool → shorter ≠ lowerTool →
            ¬ Describes undotted lowerPattern shorter)) := by
  dsimp only
  rw [matchesPattern, if_neg hPattern]
  by_cases hStar : '*' ∈ pattern.toList
  · rw [if_neg (not_not.mpr hStar)]
    cases hEnds : endsWith (host.toLowerCase pattern).toList ['*'] with
    | true => simp [matchTool_iff_of_endsWith hEnds]
    | false =>
      rw [matchTool_iff_of_not_endsWith hEnds, and_iff_left_iff_imp]
      simp
  · have hPlain := mt (hLower pattern).mp hStar
    rw [if_pos hStar, beq_iff_eq]
    refine iff_of_true ?_ (.inr ?_)
    · rw [describes_iff_eq hPlain, String.toList_inj]
    · intro hText shorter _ hShorter hBegins
      rw [describes_iff_eq hPlain] at hText hBegins
      exact hShorter (hBegins.trans hText.symm)

/- A host that leaves letters as they are. -/
def PolicyHost.caseless : PolicyHost := { PolicyHost.basic with toLowerCase := id }

/- The only beginning of `axb` that `a*b` describes is the whole name, and it is caught. -/
theorem single_end_caught : matchesPattern .caseless "axb" "a*b" = true ∧
    Describes undotted "a*b".toList "axb".toList := by
  have hCaught : matchesPattern .caseless "axb" "a*b" = true := by decide +kernel
  refine ⟨hCaught, ((tool_patterns_described_iff .caseless (fun _ => Iff.rfl) "axb"
    (by decide)).mpr (.inr ?_)).mp hCaught⟩
  intro _ shorter hBegins hShorter hDescribed
  have hText : Describes undotted ['a', '*', 'b'] shorter := hDescribed
  have hInits : shorter ∈ inits ['a', 'x', 'b'] := (mem_inits shorter _).mpr hBegins
  simp only [inits, map_cons, map_nil, mem_cons, not_mem_nil, or_false] at hInits
  rcases hInits with rfl | rfl | rfl | rfl
  · simp [Describes] at hText
  · simp [Describes] at hText
  · simp [Describes, singleton_eq_append_iff] at hText
  · exact hShorter rfl

/- The first occurrence of the last segment is not at the end. -/
theorem repeated_end_escapes : Describes undotted "a*b".toList "abb".toList ∧
      matchesPattern PolicyHost.basic "abb" "a*b" = false :=
  ⟨describes_iff.mpr ⟨['b', 'b'], rfl, ['b'], [], rfl, rfl, rfl⟩, by decide +kernel⟩

end AgencCore.Policy
