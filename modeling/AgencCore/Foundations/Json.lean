import AgencCore.Foundations.Records

/-
  Values of the scripting language, and the JSON values among them with their text.

  The fields of an object are listed in the order in which they were set. The language enumerates
  array indices first and in ascending order; `enumerationOrder` is that order. Byte arrays and
  public keys are kept apart from ordinary objects, as the code asks for their classes.
-/

namespace Foundations

inductive JsValue where
  | undefined
  | null
  | bool (value : Bool)
  | number (value : JsNumber)
  | string (value : String)
  | bigint (value : Int)
  | bytes (value : List UInt8)
  | publicKey (value : List UInt8)
  | date (isoText : String)
  | array (entries : List JsValue)
  | object (fields : List (String × JsValue))

/- `value.name`, for a value that may be any value. -/
def JsValue.field (value : JsValue) (name : String) : JsValue :=
  match value with
  | .object fields => (fields.lookup name).getD .undefined
  | _ => .undefined

/- `value ?? other` -/
def JsValue.orElse (value other : JsValue) : JsValue :=
  match value with
  | .undefined => other
  | .null => other
  | _ => value

inductive Json where
  | null
  | bool (value : Bool)
  | number (value : JsNumber)
  | string (value : String)
  | array (entries : List Json)
  | object (fields : List (String × Json))

mutual

def Json.toJsValue : Json → JsValue
| .null => .null
| .bool value => .bool value
| .number value => .number value
| .string value => .string value
| .array entries => .array (Json.toJsEntries entries)
| .object fields => .object (Json.toJsFields fields)

def Json.toJsEntries : List Json → List JsValue
| [] => []
| entry :: rest => Json.toJsValue entry :: Json.toJsEntries rest

def Json.toJsFields : List (String × Json) → List (String × JsValue)
| [] => []
| (name, value) :: rest => (name, Json.toJsValue value) :: Json.toJsFields rest

end

/- `fields[name] = value`; a field that exists keeps its place. -/
def setField {α : Type} (fields : List (String × α)) (name : String)
    (value : α) : List (String × α) :=
  if fields.any (fun field => field.1 == name) then
    fields.map (fun field => if field.1 = name then (name, value) else field)
  else fields ++ [(name, value)]

----------
-- Text
----------

/- The UTF-16 code units of a character. -/
def charUnits (c : Char) : List Nat :=
  if c.toNat < 0x10000 then [c.toNat]
  else [0xD800 + (c.toNat - 0x10000) / 0x400, 0xDC00 + (c.toNat - 0x10000) % 0x400]

/- The code units of a text. -/
def codeUnits (s : String) : List Nat := s.toList.flatMap charUnits

/- The default order of `sort()`. -/
def compareCodeUnits (a b : String) : Ordering := compare (codeUnits a) (codeUnits b)

def enumerationOrder {α : Type} (fields : List (String × α)) : List (String × α) :=
  sortBy (fun a b => compare ((arrayIndex? a.1).getD 0) ((arrayIndex? b.1).getD 0))
      (fields.filter (fun e => (arrayIndex? e.1).isSome))
    ++ fields.filter (fun e => (arrayIndex? e.1).isNone)

/- Without array indices the order is that of setting. -/
theorem enumerationOrder_eq_self {α : Type} {fields : List (String × α)}
    (hNames : ∀ name ∈ fields.map Prod.fst, arrayIndex? name = none) :
    enumerationOrder fields = fields := by
  have hNone : ∀ field ∈ fields, arrayIndex? field.1 = none :=
    fun field hMem => hNames _ (List.mem_map_of_mem hMem)
  unfold enumerationOrder
  rw [List.filter_eq_nil_iff.mpr, List.filter_eq_self.mpr]
  · rfl
  · intro field hMem
    rw [hNone field hMem]
    rfl
  · intro field hMem
    rw [hNone field hMem]
    decide

/- The two lower-case digits of a byte. -/
def hexByte (byte : Nat) : String :=
  String.ofList [Nat.digitChar (byte / 16), Nat.digitChar (byte % 16)]

def bytesToHex (bytes : List UInt8) : String :=
  String.join (bytes.map (fun byte => hexByte byte.toNat))

/- A character inside a JSON string. -/
def quoteChar (c : Char) : String :=
  match c with
  | '"' => "\\\""
  | '\\' => "\\\\"
  | '\n' => "\\n"
  | '\r' => "\\r"
  | '\t' => "\\t"
  | c =>
    if c.toNat = 8 then "\\b"
    else if c.toNat = 12 then "\\f"
    else if c.toNat < 32 then "\\u00" ++ hexByte c.toNat
    else c.toString

def quoteText (s : String) : String := "\"" ++ String.join (s.toList.map quoteChar) ++ "\""

variable (host : TextHost)

mutual

/- `JSON.stringify(value)`; it has no text for `NaN`. -/
def Json.stringify : Json → String
| .null => "null"
| .bool value => if value then "true" else "false"
| .number value => if value.isFinite then host.numberToString value
    else "null"
| .string value => quoteText value
| .array entries => "[" ++ ",".intercalate (Json.stringifyEntries entries) ++ "]"
| .object fields =>
  "\x7b" ++
    ",".intercalate
      ((enumerationOrder
        (Json.stringifyFields fields)).map (fun field => quoteText field.1 ++ ":" ++ field.2)) ++
    "\x7d"

def Json.stringifyEntries : List Json → List String
| [] => []
| entry :: rest => Json.stringify entry :: Json.stringifyEntries rest

def Json.stringifyFields : List (String × Json) → List (String × String)
| [] => []
| (name, value) :: rest => (name, Json.stringify value) :: Json.stringifyFields rest

end

/- The text of an object from the texts of its fields. -/
theorem Json.stringify_object (fields : List (String × Json)) :
    (Json.object fields).stringify host =
      "\x7b" ++
        ",".intercalate
          ((enumerationOrder
            (Json.stringifyFields host fields)).map
              (fun field => quoteText field.1 ++ ":" ++ field.2)) ++ "\x7d" := by
  rw [Json.stringify]

end Foundations
