import AgencCore.Foundations.Json
import AgencCore.Foundations.PrefixCode

/-
  Reading JSON text back.

  A quoted text ends where its closing quote stands, so that it can be told from what follows.
  Numbers have no quotes; what is asked of a host is that the text of a finite number determines it
  and has only the characters of numerals.
-/

namespace Foundations

open List

section

/- The character that a quoted text begins with. -/
def readChar : List Char → Option (Char × List Char)
| [] => none
| '"' :: _ => none
| '\\' :: '"' :: rest => some ('"', rest)
| '\\' :: '\\' :: rest => some ('\\', rest)
| '\\' :: 'n' :: rest => some ('\n', rest)
| '\\' :: 'r' :: rest => some ('\r', rest)
| '\\' :: 't' :: rest => some ('\t', rest)
| '\\' :: 'b' :: rest => some (Char.ofNat 8, rest)
| '\\' :: 'f' :: rest => some (Char.ofNat 12, rest)
| '\\' :: 'u' :: '0' :: '0' :: high :: low :: rest =>
  some (Char.ofNat
    (16 * "0123456789abcdef".toList.idxOf high + "0123456789abcdef".toList.idxOf low), rest)
| c :: rest => some (c, rest)

theorem readChar_control {c : Char} (hControl : c.toNat < 32) (rest : List Char) :
    readChar ((quoteChar c).toList ++ rest) = some (c, rest) := by
  have hChar : c = Char.ofNat c.toNat := (Char.ofNat_toNat c).symm
  generalize c.toNat = n at hControl hChar
  subst hChar
  interval_cases n <;> rfl

/- Any other character stands for itself. -/
theorem readChar_plain {c : Char} (hQuote : c ≠ '"') (hSlash : c ≠ '\\') (rest : List Char) :
    readChar (c :: rest) = some (c, rest) := by
  rw [readChar]
  · exact hQuote
  all_goals
    intros
    exact hSlash ‹_›

theorem quoteChar_plain {c : Char} (hQuote : c ≠ '"') (hSlash : c ≠ '\\') (hPlain : 32 ≤ c.toNat) :
    (quoteChar c).toList = [c] := by
  unfold quoteChar
  split
  · exact absurd rfl hQuote
  · exact absurd rfl hSlash
  · exact absurd hPlain (by decide)
  · exact absurd hPlain (by decide)
  · exact absurd hPlain (by decide)
  · rw [if_neg (by omega), if_neg (by omega), if_neg (by omega)]
    exact String.toList_singleton c

theorem readChar_quoteChar (c : Char) (rest : List Char) :
    readChar ((quoteChar c).toList ++ rest) = some (c, rest) := by
  by_cases hControl : c.toNat < 32
  · exact readChar_control hControl rest
  · by_cases hQuote : c = '"'
    · subst hQuote
      rfl
    · by_cases hSlash : c = '\\'
      · subst hSlash
        rfl
      · rw [quoteChar_plain hQuote hSlash (by omega)]
        exact readChar_plain hQuote hSlash rest

/- A quoted text can be told from what follows it. -/
theorem quoteText_prefixCode : PrefixCode (fun s : String => (quoteText s).toList) := by
  have hChars : PrefixCode (fun c : Char => (quoteChar c).toList) :=
    .of_reader readChar readChar_quoteChar
  have hBody := hChars.sequence '"' (by
    intro c rest rest' hEq
    have hRead := readChar_quoteChar c rest
    rw [hEq] at hRead
    cases hRead)
  intro s t rest rest' hEq
  have hQuote : ∀ s, (quoteText s).toList =
        '"' :: (s.toList.flatMap (fun c => (quoteChar c).toList) ++ ['"']) := by
    intro s
    simp [quoteText, String.toList_join, flatMap_map]
  dsimp only at hEq
  rw [hQuote, hQuote] at hEq
  rcases hBody s.toList t.toList rest rest' (List.cons.inj hEq).2 with ⟨hSame, hRest⟩
  exact ⟨String.toList_inj.mp hSame, hRest⟩

theorem quoteText_injective : Function.Injective quoteText := by
  intro s t hText
  exact (quoteText_prefixCode s t [] [] (by simp only [hText])).1

----------
-- Numbers
----------

/- The text of a finite number determines the number and has only characters of numerals. -/
structure TextHost.Numerals (host : TextHost) : Prop where
  inj : ∀ a b, a.isFinite = true → b.isFinite = true →
      host.numberToString a = host.numberToString b → a = b
  chars : ∀ a, a.isFinite = true → ∀ c ∈ (host.numberToString a).toList, c ∈ "+-.0123456789e".toList

variable {host : TextHost}

/- Numbers with the same text are the same, unless they are not finite. -/
theorem eq_of_number_text (hNumerals : host.Numerals) {a b : JsNumber}
    (hText : (Json.number a).stringify host = (Json.number b).stringify host) :
    a = b ∨ (a.isFinite = false ∧ b.isFinite = false) := by
  have hNull : ∀ a, a.isFinite = true → host.numberToString a ≠ "null" := by
    intro a hFinite hEq
    have hChar := hNumerals.chars a hFinite 'n' (by
      rw [hEq]
      decide)
    exact absurd hChar (by decide)
  rw [Json.stringify, Json.stringify] at hText
  split at hText <;> split at hText <;> rename_i hA hB
  · exact .inl (hNumerals.inj a b hA hB hText)
  · exact absurd hText (hNull a hA)
  · exact absurd hText.symm (hNull b hB)
  · exact .inr ⟨Bool.eq_false_iff.mpr hA, Bool.eq_false_iff.mpr hB⟩

/- The sign and as many strokes as the number has units. -/
def strokes (n : Int) : List Char := (if n < 0 then '-' else '+') :: List.replicate n.natAbs '1'

theorem strokes_injective : Function.Injective strokes := by
  intro m n hEq
  rcases List.cons.inj hEq with ⟨hSign, hUnits⟩
  have hAbs : m.natAbs = n.natAbs := by simpa using congrArg List.length hUnits
  split at hSign <;> split at hSign
  · omega
  · cases hSign
  · cases hSign
  · omega

theorem mem_strokes {n : Int} {c : Char} (hMem : c ∈ strokes n) : c ∈ "+-1".toList := by
  rcases List.mem_cons.mp hMem with hSign | hUnit
  · rw [hSign]
    split <;> decide
  · rw [eq_of_mem_replicate hUnit]
    decide

/- A host that writes fractions with strokes. -/
def TextHost.stroke : TextHost :=
  { TextHost.basic with numberToString := fun number =>
      match number with
      | .finite value => String.ofList (strokes value.num ++ 'e' :: strokes value.den)
      | .nan => "NaN"
      | .posInf => "Infinity"
      | .negInf => "-Infinity" }

theorem TextHost.stroke_numerals : TextHost.stroke.Numerals := by
  have hMark : ∀ n, 'e' ∉ strokes n := by
    intro n hMem
    exact absurd (mem_strokes hMem) (by decide)
  constructor
  · intro a b hA hB hText
    cases a <;> cases hA
    cases b <;> cases hB
    next p q =>
      have hChars := String.ofList_inj.mp hText
      rcases eq_of_append_cons_eq (hMark _) (hMark _) hChars with ⟨hNum, hDen⟩
      rw [Rat.ext (strokes_injective hNum) (Int.ofNat_inj.mp (strokes_injective hDen))]
  · intro a hA c hMem
    cases a <;> cases hA
    next p =>
      have hIn : c ∈ strokes p.num ++ 'e' :: strokes p.den := by simpa [TextHost.stroke] using hMem
      have hSub : ∀ c ∈ "+-1".toList, c ∈ "+-.0123456789e".toList := by simp
      rcases List.mem_append.mp hIn with hNum | hRest
      · exact hSub c (mem_strokes hNum)
      · rcases List.mem_cons.mp hRest with hE | hDen
        · rw [hE]
          decide
        · exact hSub c (mem_strokes hDen)

end

----------
-- Objects
----------

/- What may follow the value of a field. -/
def isStop (c : Char) : Bool := c = ',' || c = '\x7d'

/- Texts that are told apart by where a field ends. -/
def Delimited (text text' : String) : Prop :=
  ∀ stop stop' rest rest', isStop stop = true → isStop stop' = true →
    text.toList ++ stop :: rest = text'.toList ++ stop' :: rest' →
      text = text' ∧ stop :: rest = stop' :: rest'

theorem quoteText_delimited (s t : String) : Delimited (quoteText s) (quoteText t) := by
  intro stop stop' rest rest' _ _ hEq
  rcases quoteText_prefixCode s t _ _ hEq with ⟨hSame, hRest⟩
  exact ⟨by rw [hSame], hRest⟩

/- Texts without stops are told apart by the first stop. -/
theorem delimited_of_no_stop {text text' : String} (hText : ∀ c ∈ text.toList, isStop c = false)
    (hText' : ∀ c ∈ text'.toList, isStop c = false) : Delimited text text' := by
  intro stop stop' rest rest' hStop hStop' hEq
  have hSplit :
      ∀ (word : List Char) (stop : Char) (rest : List Char), (∀ c ∈ word, isStop c = false) →
        isStop stop = true →
          (word ++ stop :: rest).takeWhile (fun c => !isStop c) = word ∧
            (word ++ stop :: rest).dropWhile (fun c => !isStop c) = stop :: rest := by
    intro word stop rest hWord hStop
    have hAll : ∀ c ∈ word, (!isStop c) = true := by simpa using hWord
    rw [takeWhile_append_of_pos hAll, dropWhile_append_of_pos hAll]
    simp [hStop]
  rcases hSplit _ stop rest hText hStop with ⟨hTake, hDrop⟩
  rcases hSplit _ stop' rest' hText' hStop' with ⟨hTake', hDrop'⟩
  rw [hEq] at hTake hDrop
  exact ⟨String.toList_inj.mp (hTake.symm.trans hTake'), hDrop.symm.trans hDrop'⟩

/- Numbers are told apart by where their field ends. -/
theorem number_delimited {host : TextHost} (hNumerals : host.Numerals) (a b : JsNumber) :
    Delimited ((Json.number a).stringify host) ((Json.number b).stringify host) := by
  have hNoStop :
      ∀ a : JsNumber, ∀ c ∈ ((Json.number a).stringify host).toList, isStop c = false := by
    have hChars : ∀ c ∈ "+-.0123456789e".toList ++ "null".toList, isStop c = false := by
      simp [isStop]
    intro a c hMem
    rw [Json.stringify] at hMem
    split at hMem
    · next hFinite => exact hChars c (mem_append_left _ (hNumerals.chars a hFinite c hMem))
    · exact hChars c (mem_append_right _ hMem)
  exact delimited_of_no_stop (hNoStop a) (hNoStop b)

/- The text of fields up to the closing brace. -/
def fieldsText : List (String × String) → List Char
| [] => ['\x7d']
| [field] => (quoteText field.1).toList ++ ':' :: (field.2.toList ++ ['\x7d'])
| field :: next :: rest =>
  (quoteText field.1).toList ++ ':' :: (field.2.toList ++ ',' :: fieldsText (next :: rest))

theorem fieldsText_eq (fields : List (String × String)) :
    (",".intercalate (fields.map (fun field => quoteText field.1 ++ ":" ++ field.2)) ++
      "\x7d").toList = fieldsText fields := by
  induction fields using fieldsText.induct with
  | case1 => rfl
  | case2 field => simp [fieldsText]
  | case3 field next rest ih =>
    simp only [String.toList_append, String.toList_intercalate, map_cons,
      List.intercalate, intersperse_cons_cons, flatten_cons, append_assoc] at ih ⊢
    rw [ih]
    simp [fieldsText]

/- Objects with the same names in the same order and the same text have the same texts of values. -/
theorem fieldsText_inj {fields fields' : List (String × String)}
    (hFields : List.Forall₂ (fun field field' => field.1 = field'.1 ∧ Delimited field.2 field'.2)
        fields fields') (hText : fieldsText fields = fieldsText fields') : fields = fields' := by
  induction hFields with
  | nil => rfl
  | @cons field field' rest rest' hField hRest ih =>
    rcases field with ⟨name, text⟩
    rcases field' with ⟨name', text'⟩
    rcases hField with ⟨hName, hDelimited⟩
    dsimp only at hName hDelimited
    subst hName
    cases hRest with
    | nil =>
      have hTail := (List.cons.inj (append_cancel_left hText)).2
      rcases hDelimited _ _ _ _ rfl rfl hTail with ⟨hSame, _⟩
      rw [hSame]
    | cons hNext hMore =>
      have hTail := (List.cons.inj (append_cancel_left hText)).2
      rcases hDelimited _ _ _ _ rfl rfl hTail with ⟨hSame, hAfter⟩
      rw [hSame, ih (List.cons.inj hAfter).2]

/- The character that a list of code units begins with. -/
def readUnits : List Nat → Option (Char × List Nat)
| [] => none
| high :: rest => if 0xD800 ≤ high ∧ high < 0xDC00 then
      match rest with
      | [] => none
      | low :: rest' =>
        some (Char.ofNat (0x10000 + (high - 0xD800) * 0x400 + (low - 0xDC00)), rest')
    else some (Char.ofNat high, rest)

theorem readUnits_charUnits (c : Char) (rest : List Nat) :
    readUnits (charUnits c ++ rest) = some (c, rest) := by
  have hValid : c.toNat < 0xD800 ∨ (0xDFFF < c.toNat ∧ c.toNat < 0x110000) := c.valid
  unfold charUnits
  split
  · rw [singleton_append]
    unfold readUnits
    dsimp only
    rw [if_neg (by omega), Char.ofNat_toNat]
  · rw [cons_append, singleton_append]
    unfold readUnits
    dsimp only
    have hCode : 0x10000 + (0xD800 + (c.toNat - 0x10000) / 0x400 - 0xD800) * 0x400 +
            (0xDC00 + (c.toNat - 0x10000) % 0x400 - 0xDC00) = c.toNat := by omega
    rw [if_pos (by omega), hCode, Char.ofNat_toNat]

theorem codeUnits_injective : Function.Injective codeUnits := by
  have hCode : PrefixCode charUnits := .of_reader readUnits readUnits_charUnits
  have hNonempty : ∀ c, charUnits c ≠ [] := by
    intro c
    unfold charUnits
    split <;> exact cons_ne_nil _ _
  intro s t hEq
  exact String.toList_inj.mp (hCode.flatMap_injective hNonempty hEq)

/- The comparator that sorts fields by their names. -/
def compareFields {α : Type} (a b : String × α) : Ordering := compareCodeUnits a.1 b.1

instance {α : Type} : Std.TransCmp (@compareFields α) :=
  inferInstanceAs (Std.TransCmp (compareOn (fun field : String × α => codeUnits field.1)))

theorem name_eq_of_compareFields {α : Type} {a b : String × α} (hEq : compareFields a b = .eq) :
    a.1 = b.1 := codeUnits_injective (Std.LawfulEqOrd.eq_of_compare hEq)

/- Fields with distinct names have one sorted order. -/
theorem sortBy_compareFields_perm {α : Type} {fields fields' : List (String × α)}
    (hPerm : fields.Perm fields') (hNames : (fields.map Prod.fst).Nodup) :
    sortBy compareFields fields = sortBy compareFields fields' := by
  apply sortBy_eq_of_perm hPerm
  intro a hA b hB hEq
  exact inj_on_of_nodup_map hNames hA hB (name_eq_of_compareFields hEq)

end Foundations
