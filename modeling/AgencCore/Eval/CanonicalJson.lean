import AgencCore.Foundations.Json

/-
  Canonical JSON for events.

  `sanitizeJson` turns any value into JSON and `stableStringifyJson` renders JSON with sorted keys,
  so that equal events have equal texts.
-/

namespace AgencCore.Eval

open Foundations

section

/-
  What the projection takes from its host: text services, the base58 form of a public key, which
  determines the key, the hash, and the conversions behind `BigInt(String(v))`.
-/
structure EvalHost where
  text : TextHost
  base58 : List UInt8 → String
  base58_injective : ∀ a b, a.length = 32 → b.length = 32 → base58 a = base58 b → a = b
  base58_ne_empty : ∀ a, a.length = 32 → base58 a ≠ ""
  sha256 : String → String
  bigIntOf : JsValue → Option Int

def byteChar (byte : UInt8) : Char := Char.ofNat (byte.toNat + 49)

theorem byteChar_injective : Function.Injective byteChar := by
  intro a b hEq
  have hNat := congrArg Char.toNat hEq
  have hValid : ∀ byte : UInt8, (byte.toNat + 49).isValidChar := by
    intro byte
    have hLt := byte.toNat_lt
    exact Or.inl (by omega)
  unfold byteChar at hNat
  rw [Char.toNat_ofNat, Char.toNat_ofNat, if_pos (hValid a), if_pos (hValid b)] at hNat
  exact UInt8.toNat_inj.mp (by omega)

/- A host with a stand-in for base58 and for the hash. -/
def EvalHost.basic : EvalHost where
  text := TextHost.basic
  base58 := fun bytes => String.ofList (bytes.map byteChar)
  base58_injective := by
    intro a b _ _ hEq
    exact byteChar_injective.list_map (String.ofList_inj.mp hEq)
  base58_ne_empty := by
    intro a hLength hEmpty
    have hNil : a.map byteChar = [] := String.ofList_inj.mp hEmpty
    rw [List.map_eq_nil_iff.mp hNil] at hLength
    cases hLength
  sha256 := fun text => text
  bigIntOf := fun _ => none

----------
-- Canonical Form
----------

/- `output[key] = value` creates a field, unless the key is `__proto__`. -/
def assignable {α : Type} (field : String × α) : Bool := decide (field.1 ≠ "__proto__")

mutual

/- Objects are rebuilt with their keys sorted. -/
def canonicalizeJson : Json → Json
| .array entries => .array (canonicalizeEntries entries)
| .object fields => .object
    (sortBy (fun a b => compareCodeUnits a.1 b.1) ((canonicalizeFields fields).filter assignable))
| value => value

def canonicalizeEntries : List Json → List Json
| [] => []
| entry :: rest => canonicalizeJson entry :: canonicalizeEntries rest

def canonicalizeFields : List (String × Json) → List (String × Json)
| [] => []
| (name, value) :: rest => (name, canonicalizeJson value) :: canonicalizeFields rest

end

variable (host : EvalHost)

def stableStringifyJson (value : Json) : String := (canonicalizeJson value).stringify host.text

mutual

def sanitizeJson : JsValue → Json
| .null => .null
| .bool value => .bool value
| .string value => .string value
| .number value => if value.isFinite then .number value
    else .string (host.text.numberToString value)
| .bigint value => .string (toString value)
| .bytes value => .string (bytesToHex value)
| .publicKey value => .string (host.base58 value)
| .array entries => .array (sanitizeEntries entries)
| .date isoText => .string isoText
| .object fields =>
  .object (host.text.sortOn Prod.fst ((sanitizeFields fields).filter assignable))
| .undefined => .string "undefined"

def sanitizeEntries : List JsValue → List Json
| [] => []
| entry :: rest => sanitizeJson entry :: sanitizeEntries rest

def sanitizeFields : List (String × JsValue) → List (String × Json)
| [] => []
| (name, value) :: rest => (name, sanitizeJson value) :: sanitizeFields rest

end

/- The fields of a payload; other values are wrapped. -/
def sanitizePayload (payload : JsValue) : List (String × Json) :=
  match sanitizeJson host payload with
  | .object fields => fields
  | value => [("value", value)]

def bytesToPublicKeyString (bytes : List UInt8) : String :=
  if bytes.length ≠ 32 then bytesToHex bytes
  else host.base58 bytes

/- The value of an array entry that is a byte. -/
def byteOf : JsValue → Option UInt8
| .number value =>
  match value.toBigInt? with
  | some n => if 0 ≤ n ∧ n ≤ 255 then some (UInt8.ofNat n.toNat)
      else none
  | none => none
| _ => none

/- The identifier in a field. -/
def toPublicKeyString : JsValue → Option String
| .publicKey bytes => some (host.base58 bytes)
| .bytes bytes => some (bytesToPublicKeyString host bytes)
| .array entries => (entries.mapM byteOf).map (bytesToPublicKeyString host)
| _ => none

/- A text that counts as true: it is there and not empty. -/
def truthy (text : Option String) : Option String := text.filter (fun text => text ≠ "")

end

end AgencCore.Eval
