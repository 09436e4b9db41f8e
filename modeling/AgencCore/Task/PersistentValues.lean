import AgencCore.Foundations.Records

/-
  How the SQLite stores of tasks keep values.

  JSON has no bigints and no byte arrays, so they are written as objects with a tag. JSON gives back
  what it was given, and the reader goes from the inside out and takes every object with a tag for
  what the tag says, also an object that had one before it was written.
-/

namespace AgencCore.Task

inductive PersistentValue where
  | null
  | bool (value : Bool)
  | number (value : ℚ)
  | string (value : String)
  | bigint (value : Int)
  | bytes (value : List UInt8)
  | array (entries : List PersistentValue)
  | object (fields : List (String × PersistentValue))

/- `Array.from`, for an array of bytes. -/
def byteEntries (bytes : List UInt8) : List PersistentValue :=
  bytes.map (fun byte => .number byte.toNat)

/- `BigInt` and `Uint8Array.from`, which may throw. -/
structure CodecHost where
  toBigInt : String → Option Int
  toBytes : List PersistentValue → Option (List UInt8)
  toBigInt_toString : ∀ value, toBigInt (toString value) = some value
  toBytes_byteEntries : ∀ bytes, toBytes (byteEntries bytes) = some bytes

mutual

/- The value whose text is written. -/
def serializePersistentValue : PersistentValue → PersistentValue
| .bigint value =>
  .object [("__agencType", .string "bigint"), ("value", .string (toString value))]
| .bytes value =>
  .object [("__agencType", .string "uint8array"), ("value", .array (byteEntries value))]
| .array entries => .array (serializeEntries entries)
| .object fields => .object (serializeFields fields)
| value => value

def serializeEntries : List PersistentValue → List PersistentValue
| [] => []
| entry :: rest => serializePersistentValue entry :: serializeEntries rest

def serializeFields : List (String × PersistentValue) → List (String × PersistentValue)
| [] => []
| (name, value) :: rest => (name, serializePersistentValue value) :: serializeFields rest

end

section Reader

variable (host : CodecHost)

/- What an object is read as, once its fields are. -/
def revive (fields : List (String × PersistentValue)) : Option PersistentValue :=
  match fields.lookup "__agencType", fields.lookup "value" with
  | some (.string "bigint"), some (.string text) => (host.toBigInt text).map .bigint
  | some (.string "uint8array"), some (.array entries) => (host.toBytes entries).map .bytes
  | _, _ => some (.object fields)

mutual

def deserializePersistentValue : PersistentValue → Option PersistentValue
| .array entries => (deserializeEntries entries).map .array
| .object fields => (deserializeFields fields).bind (revive host)
| value => some value

def deserializeEntries : List PersistentValue → Option (List PersistentValue)
| [] => some []
| entry :: rest =>
  (deserializePersistentValue entry).bind (fun entry => (deserializeEntries rest).map (entry :: ·))

def deserializeFields :
    List (String × PersistentValue) → Option (List (String × PersistentValue))
| [] => some []
| (name, value) :: rest => (deserializePersistentValue value).bind (fun value =>
    (deserializeFields rest).map ((name, value) :: ·))

end

end Reader

/- The fields of an object that is read as another value. -/
def Tagged (fields : List (String × PersistentValue)) : Prop :=
  match fields.lookup "__agencType", fields.lookup "value" with
  | some (.string "bigint"), some (.string _) => True
  | some (.string "uint8array"), some (.array _) => True
  | _, _ => False

mutual

/- No object in the value looks like an encoded bigint or byte array. -/
def Untagged : PersistentValue → Prop
| .array entries => UntaggedEntries entries
| .object fields => UntaggedFields fields ∧ ¬ Tagged fields
| _ => True

def UntaggedEntries : List PersistentValue → Prop
| [] => True
| entry :: rest => Untagged entry ∧ UntaggedEntries rest

def UntaggedFields : List (String × PersistentValue) → Prop
| [] => True
| (_, value) :: rest => Untagged value ∧ UntaggedFields rest

end

variable (host : CodecHost)

theorem revive_eq_object_iff {fields read : List (String × PersistentValue)} :
    revive host read = some (.object fields) ↔ read = fields ∧ ¬ Tagged read := by
  unfold revive Tagged
  split <;> simp

theorem deserializeEntries_byteEntries (bytes : List UInt8) :
    deserializeEntries host (byteEntries bytes) = some (byteEntries bytes) := by
  induction bytes with
  | nil => rfl
  | cons byte rest ih =>
    change (deserializeEntries host (byteEntries rest)).map _ = _
    rw [ih]
    rfl

mutual

theorem deserialize_serialize_iff : ∀ value : PersistentValue,
    deserializePersistentValue host (serializePersistentValue value) = some value ↔ Untagged value
| .null | .bool _ | .number _ | .string _ => by
  simp [serializePersistentValue, deserializePersistentValue, Untagged]
| .bigint value => by
  have hRead := host.toBigInt_toString value
  simpa [serializePersistentValue, deserializePersistentValue, deserializeFields, revive,
    List.lookup, Untagged] using hRead
| .bytes value => by
  have hRead := host.toBytes_byteEntries value
  simp [serializePersistentValue, deserializePersistentValue, deserializeFields, revive,
    List.lookup, Untagged, hRead, deserializeEntries_byteEntries]
| .array entries => by
  have hEntries := entries_read_back_iff entries
  simp [serializePersistentValue, deserializePersistentValue, Untagged, hEntries]
| .object fields => by
  have hFields := fields_read_back_iff fields
  simp only [serializePersistentValue, deserializePersistentValue, Untagged, ← hFields,
    Option.bind_eq_some_iff, revive_eq_object_iff]
  constructor
  · rintro ⟨_, hRead, rfl, hTag⟩
    exact ⟨hRead, hTag⟩
  · rintro ⟨hRead, hTag⟩
    exact ⟨fields, hRead, rfl, hTag⟩

theorem entries_read_back_iff : ∀ entries : List PersistentValue,
    deserializeEntries host (serializeEntries entries) = some entries ↔ UntaggedEntries entries
| [] => by simp [serializeEntries, deserializeEntries, UntaggedEntries]
| entry :: rest => by
  have hEntry := deserialize_serialize_iff entry
  have hRest := entries_read_back_iff rest
  simp [serializeEntries, deserializeEntries, UntaggedEntries, ← hEntry, ← hRest,
    Option.bind_eq_some_iff]

theorem fields_read_back_iff : ∀ fields : List (String × PersistentValue),
    deserializeFields host (serializeFields fields) = some fields ↔ UntaggedFields fields
| [] => by simp [serializeFields, deserializeFields, UntaggedFields]
| (_, value) :: rest => by
  have hValue := deserialize_serialize_iff value
  have hRest := fields_read_back_iff rest
  simp [serializeFields, deserializeFields, UntaggedFields, ← hValue, ← hRest,
    Option.bind_eq_some_iff]

end

theorem byteEntries_injective : Function.Injective byteEntries := by
  refine List.map_injective_iff.mpr fun a b hEq => ?_
  simpa [UInt8.toNat_inj] using hEq

instance : Nonempty CodecHost :=
  ⟨⟨fun text => text.toInt?, Function.partialInv byteEntries, Int.toInt?_repr,
    Function.partialInv_left byteEntries_injective⟩⟩

/-
  A value is read back exactly if no object in it carries a tag of its own, and such values differ
  in what is written of them.
-/
theorem persistent_values_read_back (host : CodecHost) (value other : PersistentValue) :
    (deserializePersistentValue host (serializePersistentValue value) = some value ↔
        Untagged value) ∧
      (Untagged value → Untagged other →
        serializePersistentValue value = serializePersistentValue other → value = other) := by
  refine ⟨deserialize_serialize_iff host value, fun hValue hOther hSame => ?_⟩
  have hRead := (deserialize_serialize_iff host value).mpr hValue
  rw [hSame, (deserialize_serialize_iff host other).mpr hOther] at hRead
  exact (Option.some.inj hRead).symm

end AgencCore.Task
