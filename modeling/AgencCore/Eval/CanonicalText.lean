import AgencCore.Eval.CanonicalJson
import AgencCore.Foundations.JsonText

/-
  Canonical text depends on values, not on the order of fields.

  The canonical text of an object is made of the canonical texts of its fields, sorted by name. A
  value that is written as JSON and read back, or copied field by field, keeps its canonical text as
  long as the names in each of its objects are distinct.
-/

namespace AgencCore.Eval

open Foundations List

section

variable (host : EvalHost)

/- The canonical texts of the fields of an object. -/
def textFields (fields : List (String × Json)) : List (String × String) :=
  (fields.filter assignable).map (fun field => (field.1, stableStringifyJson host field.2))

theorem canonicalizeFields_eq (fields : List (String × Json)) :
    canonicalizeFields fields = fields.map (fun field => (field.1, canonicalizeJson field.2)) := by
  induction fields with
  | nil => rfl
  | cons field rest ih => rw [canonicalizeFields, ih, map_cons]

theorem canonicalizeEntries_eq (entries : List Json) :
    canonicalizeEntries entries = entries.map canonicalizeJson := by
  induction entries with
  | nil => rfl
  | cons entry rest ih => rw [canonicalizeEntries, ih, map_cons]

theorem textFields_cons (name : String) (value : Json) (rest : List (String × Json)) :
    textFields host ((name, value) :: rest) = if name = "__proto__" then textFields host rest
      else (name, stableStringifyJson host value) :: textFields host rest := by
  by_cases hName : name = "__proto__" <;> simp [textFields, assignable, hName]

theorem textFields_append (fields fields' : List (String × Json)) :
    textFields host (fields ++ fields') = textFields host fields ++ textFields host fields' := by
  rw [textFields, filter_append, map_append]
  rfl

theorem textFields_filter (fields : List (String × Json)) :
    textFields host (fields.filter assignable) = textFields host fields := by
  simp [textFields, filter_filter]

theorem stringifyFields_eq (host : TextHost) (fields : List (String × Json)) :
    Json.stringifyFields host fields =
      fields.map (fun field => (field.1, field.2.stringify host)) := by
  induction fields with
  | nil => rfl
  | cons field rest ih => rw [Json.stringifyFields, ih, map_cons]

theorem stringifyEntries_eq (host : TextHost) (entries : List Json) :
    Json.stringifyEntries host entries = entries.map (Json.stringify host) := by
  induction entries with
  | nil => rfl
  | cons entry rest ih => rw [Json.stringifyEntries, ih, map_cons]

theorem stableStringifyJson_object (fields : List (String × Json)) :
    stableStringifyJson host (.object fields) =
      "\x7b" ++
        ",".intercalate
          ((enumerationOrder
            (sortBy compareFields
              (textFields host fields))).map (fun field => quoteText field.1 ++ ":" ++ field.2)) ++
        "\x7d" := by
  have hTexts : Json.stringifyFields host.text
          (sortBy (fun a b => compareCodeUnits a.1 b.1)
            ((canonicalizeFields fields).filter assignable)) =
        sortBy compareFields (textFields host fields) := by
    have hMap : textFields host fields =
          ((canonicalizeFields fields).filter assignable).map (fun field =>
            (field.1, field.2.stringify host.text)) := by
      rw [canonicalizeFields_eq, filter_map, List.map_map]
      rfl
    rw [hMap, stringifyFields_eq]
    refine (sortBy_map _ compareFields _ ?_ _).symm
    intro a b
    rfl
  unfold stableStringifyJson
  rw [canonicalizeJson, Json.stringify_object, hTexts]

theorem stableStringifyJson_array (entries : List Json) :
    stableStringifyJson host (.array entries) =
      "[" ++ ",".intercalate (entries.map (stableStringifyJson host)) ++ "]" := by
  unfold stableStringifyJson
  rw [canonicalizeJson, Json.stringify, stringifyEntries_eq, canonicalizeEntries_eq, List.map_map]
  rfl

/- The order in which fields were set does not matter. -/
theorem stableStringifyJson_object_perm {fields fields' : List (String × Json)}
    (hPerm : (textFields host fields).Perm (textFields host fields'))
    (hNames : (fields.map Prod.fst).Nodup) :
    stableStringifyJson host (.object fields) = stableStringifyJson host (.object fields') := by
  have hTexts : ((textFields host fields).map Prod.fst).Nodup := by
    rw [textFields, List.map_map]
    exact hNames.sublist (filter_sublist.map Prod.fst)
  rw [stableStringifyJson_object, stableStringifyJson_object,
    sortBy_compareFields_perm hPerm hTexts]

mutual

/- No object in the value has two fields of one name. -/
def DistinctNames : Json → Prop
| .array entries => DistinctEntries entries
| .object fields => (fields.map Prod.fst).Nodup ∧ DistinctFields fields
| _ => True

def DistinctEntries : List Json → Prop
| [] => True
| entry :: rest => DistinctNames entry ∧ DistinctEntries rest

def DistinctFields : List (String × Json) → Prop
| [] => True
| (_, value) :: rest => DistinctNames value ∧ DistinctFields rest

end

theorem distinctFields_iff (fields : List (String × Json)) :
    DistinctFields fields ↔ ∀ field ∈ fields, DistinctNames field.2 := by
  induction fields with
  | nil => simp [DistinctFields]
  | cons field rest ih => rw [DistinctFields, ih, forall_mem_cons]

----------
-- Writing And Reading Back
----------

mutual

/- `JSON.parse(JSON.stringify(value))` -/
def reparse : Json → Json
| .null => .null
| .bool value => .bool value
| .number value => if value.isFinite then .number value else .null
| .string value => .string value
| .array entries => .array (reparseEntries entries)
| .object fields => .object (enumerationOrder (reparseFields fields))

def reparseEntries : List Json → List Json
| [] => []
| entry :: rest => reparse entry :: reparseEntries rest

def reparseFields : List (String × Json) → List (String × Json)
| [] => []
| (name, value) :: rest => (name, reparse value) :: reparseFields rest

end

variable (host : EvalHost)

/- Listing the fields of an object permutes them. -/
theorem enumerationOrder_perm {α : Type} (fields : List (String × α)) :
    (enumerationOrder fields).Perm fields := by
  unfold enumerationOrder
  refine ((sortBy_perm _ _).append_right _).trans ?_
  have hNot :
      (fun e : String × α => (arrayIndex? e.1).isNone) = (fun e => !(arrayIndex? e.1).isSome) := by
    funext e
    cases arrayIndex? e.1 <;> rfl
  rw [hNot]
  exact filter_append_perm _ _

mutual

theorem stableStringifyJson_reparse : (value : Json) → DistinctNames value →
      stableStringifyJson host (reparse value) = stableStringifyJson host value
| .null, _ => rfl
| .bool _, _ => rfl
| .string _, _ => rfl
| .number value, _ => by
    unfold stableStringifyJson
    rw [reparse]
    split
    · rfl
    · next hNot =>
        rw [canonicalizeJson, canonicalizeJson, Json.stringify, Json.stringify, if_neg hNot]
        all_goals
          intros
          contradiction
| .array entries, hDistinct => by
    rw [reparse, stableStringifyJson_array, stableStringifyJson_array,
      reparseEntries_texts entries hDistinct]
| .object fields, hDistinct => by
    rw [DistinctNames] at hDistinct
    rw [reparse]
    symm
    apply stableStringifyJson_object_perm host ?_ hDistinct.1
    rw [← reparseFields_texts fields hDistinct.2]
    exact (((enumerationOrder_perm _).filter _).map _).symm

theorem reparseEntries_texts : (entries : List Json) → DistinctEntries entries →
      (reparseEntries entries).map (stableStringifyJson host) =
        entries.map (stableStringifyJson host)
| [], _ => rfl
| entry :: rest, hDistinct => by
    rw [DistinctEntries] at hDistinct
    rw [reparseEntries, List.map_cons, List.map_cons, stableStringifyJson_reparse entry hDistinct.1,
      reparseEntries_texts rest hDistinct.2]

theorem reparseFields_texts : (fields : List (String × Json)) →
    DistinctFields fields → textFields host (reparseFields fields) = textFields host fields
| [], _ => rfl
| (name, value) :: rest, hDistinct => by
    rw [DistinctFields] at hDistinct
    have hRest := reparseFields_texts rest hDistinct.2
    rw [reparseFields, textFields_cons, textFields_cons, hRest,
      stableStringifyJson_reparse value hDistinct.1]

end

/- Reading back keeps the names of the fields. -/
theorem names_reparseFields (fields : List (String × Json)) :
    (reparseFields fields).map Prod.fst = fields.map Prod.fst := by
  induction fields with
  | nil => rfl
  | cons field rest ih => rw [reparseFields, map_cons, map_cons, ih]

mutual

theorem reparse_distinct : (value : Json) → DistinctNames value → DistinctNames (reparse value)
| .null, _ => trivial
| .bool _, _ => trivial
| .string _, _ => trivial
| .number value, _ => by
    rw [reparse]
    split <;> trivial
| .array entries, hDistinct => by
    rw [reparse, DistinctNames]
    exact reparseEntries_distinct entries hDistinct
| .object fields, hDistinct => by
    rw [DistinctNames] at hDistinct
    rw [reparse, DistinctNames, distinctFields_iff]
    have hPerm := enumerationOrder_perm (reparseFields fields)
    constructor
    · rw [(hPerm.map Prod.fst).nodup_iff, names_reparseFields]
      exact hDistinct.1
    · intro field hMem
      exact (distinctFields_iff _).mp (reparseFields_distinct fields hDistinct.2) field
        (hPerm.mem_iff.mp hMem)

theorem reparseEntries_distinct :
    (entries : List Json) → DistinctEntries entries → DistinctEntries (reparseEntries entries)
| [], _ => trivial
| entry :: rest, hDistinct => by
    rw [DistinctEntries] at hDistinct
    rw [reparseEntries, DistinctEntries]
    exact ⟨reparse_distinct entry hDistinct.1, reparseEntries_distinct rest hDistinct.2⟩

theorem reparseFields_distinct : (fields : List (String × Json)) →
    DistinctFields fields → DistinctFields (reparseFields fields)
| [], _ => trivial
| (_, value) :: rest, hDistinct => by
    rw [DistinctFields] at hDistinct
    rw [reparseFields, DistinctFields]
    exact ⟨reparse_distinct value hDistinct.1, reparseFields_distinct rest hDistinct.2⟩

end

end

/- The fields of objects are set in other orders, anywhere in a value. -/
inductive Reordered : Json → Json → Prop
  | refl (value : Json) : Reordered value value
  | trans {a b c : Json} : Reordered a b → Reordered b c → Reordered a c
  | fields {fields fields' : List (String × Json)} : (fields.map Prod.fst).Nodup →
      fields.Perm fields' → Reordered (.object fields) (.object fields')
  | field (before after : List (String × Json)) (name : String) {a b : Json} : Reordered a b →
      Reordered (.object (before ++ (name, a) :: after)) (.object (before ++ (name, b) :: after))
  | entry (before after : List Json) {a b : Json} : Reordered a b →
      Reordered (.array (before ++ a :: after)) (.array (before ++ b :: after))

theorem reordered_text_eq (host : EvalHost) {a b : Json} (hReordered : Reordered a b) :
    stableStringifyJson host a = stableStringifyJson host b := by
  induction hReordered with
  | refl => rfl
  | trans _ _ hFirst hSecond => exact hFirst.trans hSecond
  | fields hNames hPerm =>
    exact stableStringifyJson_object_perm host ((hPerm.filter _).map _) hNames
  | field before after name _ ih =>
    simp only [stableStringifyJson_object, textFields_append, textFields_cons, ih]
  | entry before after _ ih => simp only [stableStringifyJson_array, map_append, map_cons, ih]

theorem nested_fields_reordered : stableStringifyJson EvalHost.basic
      (.array [.object [("b", .null), ("a", .bool true)]]) =
    stableStringifyJson EvalHost.basic (.array [.object [("a", .bool true), ("b", .null)]]) :=
  reordered_text_eq EvalHost.basic (.entry [] [] (.fields (by decide) (.swap _ _ _)))

end AgencCore.Eval
