import Dynex.Serialization.KVBinaryFormat
import Dynex.Serialization.KVBinaryInputProperties

/-!
# What the key-value parser builds from the key-value form

`parseBinary` reads the bytes of `KVBinaryFormat` back as the tree `toJson` describes: a value's
payload after its type byte (`loads_wellFormed`), the entries of a structure's fields
(`reads_entries`), and the elements of a vector (`reads_payloads`), given nesting budget enough
for the value (`loadFuel`). The budget `parseBinary` starts with is enough
for every well-formed structure (`fieldsFuel_le`), so `parseBinary` of the writer's bytes is the
tree of the structure's fields (`parseBinary_entries`).
-/

set_option autoImplicit false

namespace Dynex.KVBinaryInputStreamSerializer

open Codec Loader Common KVValue

/-! ## Sizes, names and strings -/

theorem readVarint_word {word width : Nat} (mark : bytesLeftOf (word % 4).toUInt8 + 1 = width)
    (fits : word < 256 ^ width) (rest : List UInt8) (reserved : Nat) :
    readVarint ⟨leBytes width word ++ rest, reserved⟩ = .ok (word / 4) ⟨rest, reserved⟩ := by
  subst mark
  exact readVarint_leBytes fits rest reserved

theorem readVarint_sizeBytes {size : Nat} (fits : size < 2 ^ 62) (rest : List UInt8)
    (reserved : Nat) : readVarint ⟨sizeBytes size ++ rest, reserved⟩ = .ok size ⟨rest, reserved⟩ := by
  unfold sizeBytes
  by_cases byte : size ≤ 63
  · rw [if_pos byte, readVarint_word (by rw [show 4 * size % 4 = 0 by omega]; rfl) (by omega)]
    congr 1
    omega
  rw [if_neg byte]
  by_cases word : size ≤ 16383
  · rw [if_pos word, readVarint_word (by rw [show (4 * size + 1) % 4 = 1 by omega]; rfl) (by omega)]
    congr 1
    omega
  rw [if_neg word]
  by_cases dword : size ≤ 1073741823
  · rw [if_pos dword, readVarint_word (by rw [show (4 * size + 2) % 4 = 2 by omega]; rfl) (by omega)]
    congr 1
    omega
  rw [if_neg dword, readVarint_word (by rw [show (4 * size + 3) % 4 = 3 by omega]; rfl) (by omega)]
  congr 1
  omega

theorem length_sizeBytes_pos (size : Nat) : 0 < (sizeBytes size).length := by
  unfold sizeBytes
  split_ifs <;> simp

theorem readName_nameBytes {name : List UInt8} (valid : ValidName name) (previous : List UInt8)
    (rest : List UInt8) (reserved : Nat) :
    readName previous ⟨nameBytes name ++ rest, reserved⟩ =
      .ok name ⟨rest, reserved + name.length⟩ := by
  have small : name.length < 256 := by have := valid.2; omega
  have length : (UInt8.ofNat name.length).toNat = name.length := by
    simp [UInt8.toNat_ofNat', Nat.mod_eq_of_lt small]
  have nonzero : UInt8.ofNat name.length ≠ 0 := by
    intro zero
    have := congrArg UInt8.toNat zero
    rw [length] at this
    exact valid.1 (List.length_eq_zero_iff.mp this)
  rw [nameBytes, List.cons_append, readName, bind_of_ok (readByte_cons _ _ _), if_pos nonzero, bind_of_ok (reserve_apply _ _), length, readPod_append]

theorem readString_sizeBytes {text : List UInt8} (fits : text.length < 2 ^ 62) (rest : List UInt8)
    (reserved : Nat) :
    readString ⟨sizeBytes text.length ++ text ++ rest, reserved⟩ =
      .ok text ⟨rest, reserved + text.length⟩ := by
  rw [List.append_assoc, readString, bind_of_ok (readVarint_sizeBytes fits _ _),
    bind_of_ok (reserve_apply _ _)]
  by_cases empty : text = []
  · subst empty
    rfl
  · rw [if_pos (by simpa using empty), readPod_append]

/-! ## Numbers -/

theorem readIntegerJson_leBytes (width : Nat) (toInteger : Nat → Int64) (word : Nat)
    (rest : List UInt8) (reserved : Nat) :
    readIntegerJson width toInteger ⟨leBytes width word ++ rest, reserved⟩ =
      .ok (.integer (toInteger (word % 256 ^ width))) ⟨rest, reserved⟩ := by
  have read := readPod_append (leBytes width word) rest reserved
  rw [length_leBytes] at read
  rw [readIntegerJson, bind_of_ok read, leValue_leBytes]
  rfl

theorem loadValue_scalar (fuel : Nat) {value : KVValue} (scalar : value.IsScalar)
    (rest : List UInt8) (reserved : Nat) :
    loadValue (fuel + 1) value.typeCode ⟨value.payload ++ rest, reserved⟩ =
      .ok value.toJson ⟨rest, reserved⟩ := by
  cases value <;> simp only [IsScalar] at scalar
  all_goals
    rw [loadValue.eq_2]
    simp +decide only [typeCode, payload, BIN_KV_SERIALIZE_TYPE_INT64, BIN_KV_SERIALIZE_TYPE_INT32,
      BIN_KV_SERIALIZE_TYPE_INT16, BIN_KV_SERIALIZE_TYPE_INT8, BIN_KV_SERIALIZE_TYPE_UINT64,
      BIN_KV_SERIALIZE_TYPE_UINT32, BIN_KV_SERIALIZE_TYPE_UINT16, BIN_KV_SERIALIZE_TYPE_UINT8,
      BIN_KV_SERIALIZE_TYPE_DOUBLE, BIN_KV_SERIALIZE_TYPE_BOOL, reduceIte]
  case double bits =>
    have read := readPod_append (leBytes 8 bits.toNat) rest reserved
    rw [length_leBytes] at read
    have small : bits.toNat % 256 ^ 8 = bits.toNat :=
      Nat.mod_eq_of_lt (by simpa using bits.toNat_lt)
    rw [bind_of_ok read, leValue_leBytes, small]
    simp [toJson]
  case bool value =>
    cases value <;> rfl
  all_goals
    rw [readIntegerJson_leBytes]
    simp [toJson]

theorem loadValue_object (fuel : Nat) :
    loadValue (fuel + 1) BIN_KV_SERIALIZE_TYPE_OBJECT = loadSection fuel := by
  rw [loadValue.eq_2]
  rfl

/-! ## Reading a prefix -/

theorem reads_sizeBytes {size : Nat} (fits : size < 2 ^ 62) : Reads readVarint (sizeBytes size) size :=
  fun rest reserved => ⟨reserved, readVarint_sizeBytes fits rest reserved⟩

theorem reads_nameBytes {name : List UInt8} (valid : ValidName name) (previous : List UInt8) :
    Reads (readName previous) (nameBytes name) name :=
  fun rest reserved => ⟨reserved + name.length, readName_nameBytes valid previous rest reserved⟩

theorem reads_string {text : List UInt8} (fits : text.length < 2 ^ 62) (fuel : Nat) :
    Reads (loadValue (fuel + 1) BIN_KV_SERIALIZE_TYPE_STRING) (sizeBytes text.length ++ text)
      (.string text) := by
  rw [loadValue_string]
  exact Reads.bind_last
    (fun rest reserved => ⟨reserved + text.length, readString_sizeBytes fits rest reserved⟩)
    (reads_pure _)

theorem reads_sectionRound {load : Loader JsonValue} {name bytes : List UInt8} {json : JsonValue}
    {members : List (List UInt8 × JsonValue)} (valid : ValidName name)
    (fresh : members.any (·.1 == name) = false) (loaded : Reads load bytes json)
    (previous : List UInt8) :
    Reads (sectionRound load (previous, .object members)) (nameBytes name ++ bytes)
      (name, .object (members ++ [(name, json)])) := by
  have inserted : (JsonValue.object members).insert name json =
      .ok (.object (members ++ [(name, json)])) := by
    rw [JsonValue.insert_object, fresh]
    rfl
  unfold sectionRound
  refine (reads_nameBytes valid previous).bind (loaded.bind_last ?_)
  show Reads (Loader.ofExcept ((JsonValue.object members).insert name json) >>= fun sec =>
    pure (name, sec)) [] _
  rw [inserted, ofExcept_ok]
  exact (reads_pure _).bind_last (reads_pure _)

theorem reads_arrayRound {load : Loader JsonValue} {bytes : List UInt8} {json : JsonValue}
    (loaded : Reads load bytes json) (values : List JsonValue) :
    Reads (arrayRound load (.array values)) bytes (.array (values ++ [json])) := by
  unfold arrayRound
  refine loaded.bind_last ?_
  show Reads (Loader.ofExcept ((JsonValue.array values).pushBack json)) [] _
  rw [JsonValue.pushBack_array, ofExcept_ok]
  exact reads_pure _

theorem reads_loadSection {fuel : Nat} {fields : List (List UInt8 × KVValue)}
    (few : fields.length < 2 ^ 62) {last : List UInt8}
    (rounds : Reads (loop (sectionRound (loadEntry fuel)) (entryCount fields) ([], .object []))
      (entries fields) (last, .object (jsonMembers fields))) :
    Reads (loadSection (fuel + 1)) (sizeBytes (entryCount fields) ++ entries fields)
      (.object (jsonMembers fields)) := by
  rw [loadSection]
  exact (reads_sizeBytes (lt_of_le_of_lt (List.countP_le_length) few)).bind
    (rounds.bind_last (reads_pure _))

theorem reads_loadArray {fuel : Nat} {item : KVValue} {elements : List KVValue}
    (few : elements.length < 2 ^ 62)
    (rounds : Reads (loop (arrayRound (loadValue fuel item.typeCode)) elements.length (.array []))
      (payloads elements) (.array (jsonElements elements))) :
    Reads (loadArray (fuel + 1) item.typeCode) (sizeBytes elements.length ++ payloads elements)
      (.array (jsonElements elements)) := by
  rw [loadArray]
  exact (reads_sizeBytes few).bind rounds

/-! ## Values, fields and elements -/

theorem typeCode_plain {value : KVValue} (element : value.IsElement) :
    value.typeCode &&& BIN_KV_SERIALIZE_FLAG_ARRAY = 0 := by
  cases value <;> simp only [IsElement] at element <;> simp only [typeCode] <;> decide

theorem typeCode_flagged {item : KVValue} (element : item.IsElement) (elements : List KVValue) :
    (KVValue.array item elements).typeCode &&& BIN_KV_SERIALIZE_FLAG_ARRAY ≠ 0 ∧
      (KVValue.array item elements).typeCode &&& ~~~BIN_KV_SERIALIZE_FLAG_ARRAY = item.typeCode := by
  cases item <;> simp only [IsElement] at element <;> simp only [typeCode] <;> decide

/-- What the loaders read of a value with budget `fuel`: its type byte and payload as an entry,
and its payload alone when its type byte has no array flag. -/
def Loads (fuel : Nat) (value : KVValue) : Prop :=
  Reads (loadEntry (fuel + 1)) (value.typeCode :: value.payload) value.toJson ∧
    (value.typeCode &&& BIN_KV_SERIALIZE_FLAG_ARRAY = 0 →
      Reads (loadValue fuel value.typeCode) value.payload value.toJson)

theorem loads_of_plain {fuel : Nat} {value : KVValue}
    (plain : value.typeCode &&& BIN_KV_SERIALIZE_FLAG_ARRAY = 0)
    (loaded : Reads (loadValue fuel value.typeCode) value.payload value.toJson) :
    Loads fuel value := by
  refine ⟨fun rest reserved => ?_, fun _ => loaded⟩
  obtain ⟨after, read⟩ := loaded rest reserved
  exact ⟨after, by rw [List.cons_append, loadEntry_value (not_not.mpr plain), read]⟩

theorem loads_array {fuel : Nat} {item : KVValue} {elements : List KVValue}
    (element : item.IsElement)
    (loaded : Reads (loadArray fuel item.typeCode) (KVValue.array item elements).payload
      (KVValue.array item elements).toJson) :
    Loads fuel (.array item elements) := by
  obtain ⟨flagged, stripped⟩ := typeCode_flagged element elements
  refine ⟨fun rest reserved => ?_, fun plain => absurd plain flagged⟩
  obtain ⟨after, read⟩ := loaded rest reserved
  exact ⟨after, by rw [List.cons_append, loadEntry_array flagged, stripped, read]⟩

theorem loads_scalar {value : KVValue} (scalar : value.IsScalar) {fuel : Nat} (enough : 1 ≤ fuel) :
    Loads fuel value := by
  obtain ⟨fuel, rfl⟩ : ∃ smaller, fuel = smaller + 1 := ⟨fuel - 1, by omega⟩
  refine loads_of_plain ?_ fun rest reserved => ⟨reserved, loadValue_scalar fuel scalar rest reserved⟩
  cases value <;> simp only [IsScalar] at scalar <;> simp only [typeCode] <;> decide

mutual

/-- The nesting budget the loaders spend on a value after its type byte. -/
def loadFuel : KVValue → Nat
  | .object fields => fieldsFuel fields + 3
  | .array _ elements => elementsFuel elements + 1
  | _ => 1

/-- The largest budget an entry of the fields needs; a field with no entry needs none. -/
def fieldsFuel : List (List UInt8 × KVValue) → Nat
  | [] => 0
  | (_, value) :: rest =>
      if value.present then max (loadFuel value) (fieldsFuel rest) else fieldsFuel rest

def elementsFuel : List KVValue → Nat
  | [] => 0
  | value :: rest => max (loadFuel value) (elementsFuel rest)

end

mutual

/-- A well-formed value is read back as its tree, from its type byte or its payload, given the
budget its nesting needs. -/
theorem loads_wellFormed : ∀ (value : KVValue), value.WellFormed → ∀ (fuel : Nat),
    loadFuel value ≤ fuel → Loads fuel value
  | .string text, fits, fuel, enough => by
      obtain ⟨fuel, rfl⟩ : ∃ smaller, fuel = smaller + 1 := ⟨fuel - 1, by simp only [loadFuel] at enough; omega⟩
      exact loads_of_plain (by simp only [typeCode]; decide) (reads_string fits fuel)
  | .binary bytes, fits, fuel, enough => by
      obtain ⟨fuel, rfl⟩ : ∃ smaller, fuel = smaller + 1 := ⟨fuel - 1, by simp only [loadFuel] at enough; omega⟩
      exact loads_of_plain (by simp only [typeCode]; decide) (reads_string fits fuel)
  | .object fields, ⟨few, distinct, wellFormed⟩, fuel, enough => by
      simp only [loadFuel] at enough
      obtain ⟨fuel, rfl⟩ : ∃ smaller, fuel = smaller + 1 + 1 + 1 := ⟨fuel - 3, by omega⟩
      obtain ⟨last, rounds⟩ := reads_entries (fuel + 1) fields wellFormed distinct (by omega) [] []
        (by simp)
      rw [List.nil_append] at rounds
      refine loads_of_plain (by simp only [typeCode]; decide) ?_
      show Reads (loadValue (fuel + 1 + 1 + 1) BIN_KV_SERIALIZE_TYPE_OBJECT) _ _
      rw [loadValue_object]
      exact reads_loadSection few rounds
  | .array item elements, ⟨element, few, wellFormed⟩, fuel, enough => by
      simp only [loadFuel] at enough
      obtain ⟨fuel, rfl⟩ : ∃ smaller, fuel = smaller + 1 := ⟨fuel - 1, by omega⟩
      have rounds := reads_payloads fuel item element elements wellFormed (by omega) []
      rw [List.nil_append] at rounds
      exact loads_array element (reads_loadArray few rounds)
  | .uint8 _, _, _, enough | .int16 _, _, _, enough | .uint16 _, _, _, enough
  | .int32 _, _, _, enough | .uint32 _, _, _, enough | .int64 _, _, _, enough
  | .uint64 _, _, _, enough | .double _, _, _, enough | .bool _, _, _, enough =>
      loads_scalar (by trivial) enough

/-- The entries of distinct, well-formed fields, none of them in the section yet, are read by
as many rounds of `loadSection` as the fields have entries. -/
theorem reads_entries (fuel : Nat) : ∀ (fields : List (List UInt8 × KVValue)),
    FieldsWellFormed fields → (fields.map (·.1)).Nodup → fieldsFuel fields + 1 ≤ fuel →
    ∀ (previous : List UInt8) (members : List (List UInt8 × JsonValue)),
      (∀ name ∈ fields.map (·.1), members.any (·.1 == name) = false) →
      ∃ last, Reads (loop (sectionRound (loadEntry fuel)) (entryCount fields)
        (previous, .object members)) (entries fields) (last, .object (members ++ jsonMembers fields))
  | [], _, _, _, previous, members, _ =>
      ⟨previous, by
        simpa [entryCount, jsonMembers] using
          reads_loop_zero (sectionRound (loadEntry fuel)) (previous, .object members)⟩
  | (name, value) :: rest, ⟨valid, wellFormed, restWellFormed⟩, distinct, enough, previous,
      members, fresh => by
      rw [List.map_cons, List.nodup_cons] at distinct
      have restFresh : ∀ other ∈ rest.map (·.1), members.any (·.1 == other) = false :=
        fun other mem => fresh other (List.mem_cons_of_mem _ mem)
      by_cases present : value.present
      · simp only [fieldsFuel, present, if_true] at enough
        obtain ⟨fuel, rfl⟩ : ∃ smaller, fuel = smaller + 1 := ⟨fuel - 1, by omega⟩
        have round := reads_sectionRound valid (fresh name List.mem_cons_self)
          (loads_wellFormed value wellFormed fuel (by omega)).1 previous
        have stillFresh : ∀ other ∈ rest.map (·.1),
            (members ++ [(name, value.toJson)]).any (·.1 == other) = false := by
          intro other mem
          have differs : name ≠ other := fun same => distinct.1 (same ▸ mem)
          simp [restFresh other mem, differs]
        obtain ⟨last, rounds⟩ := reads_entries (fuel + 1) rest restWellFormed distinct.2 (by omega)
          name _ stillFresh
        refine ⟨last, ?_⟩
        have counted : entryCount ((name, value) :: rest) = entryCount rest + 1 := by
          simp [entryCount, present]
        rw [counted, entries_cons, entry, if_pos present, jsonMembers, if_pos present]
        simpa using round.loop_succ rounds
      · simp only [fieldsFuel, present] at enough
        have counted : entryCount ((name, value) :: rest) = entryCount rest := by
          simp [entryCount, present]
        obtain ⟨last, rounds⟩ := reads_entries fuel rest restWellFormed distinct.2 (by simpa using enough)
          previous members restFresh
        refine ⟨last, ?_⟩
        rw [counted, entries_cons, entry, if_neg present, List.nil_append, jsonMembers, if_neg present]
        exact rounds

theorem reads_payloads (fuel : Nat) (item : KVValue) (element : item.IsElement) :
    ∀ (elements : List KVValue), ElementsWellFormed item elements → elementsFuel elements ≤ fuel →
    ∀ (values : List JsonValue),
      Reads (loop (arrayRound (loadValue fuel item.typeCode)) elements.length (.array values))
        (payloads elements) (.array (values ++ jsonElements elements))
  | [], _, _, values => by
      simpa [payloads, jsonElements] using
        reads_loop_zero (arrayRound (loadValue fuel item.typeCode)) (.array values)
  | value :: rest, ⟨typed, wellFormed, restWellFormed⟩, enough, values => by
      simp only [elementsFuel, max_le_iff] at enough
      have loaded := (loads_wellFormed value wellFormed fuel enough.1).2
        (typeCode_plain (element.of_typeOf typed))
      rw [typeCode_eq_of_typeOf typed] at loaded
      have rounds := reads_payloads fuel item element rest restWellFormed enough.2
        (values ++ [value.toJson])
      simpa [payloads, jsonElements] using (reads_arrayRound loaded values).loop_succ rounds

end

/-! ## The budget -/

mutual

theorem loadFuel_le : ∀ (value : KVValue), loadFuel value ≤ 2 * value.payload.length + 1
  | .object fields => by
      have entriesBound := fieldsFuel_le fields
      have counted := length_sizeBytes_pos (entryCount fields)
      simp only [loadFuel, payload, List.length_append]
      omega
  | .array _ elements => by
      have elementsBound := elementsFuel_le elements
      have counted := length_sizeBytes_pos elements.length
      simp only [loadFuel, payload, List.length_append]
      omega
  | .uint8 _ | .int16 _ | .uint16 _ | .int32 _ | .uint32 _ | .int64 _ | .uint64 _ | .double _
  | .bool _ | .string _ | .binary _ => Nat.le_add_left 1 _

theorem fieldsFuel_le : ∀ (fields : List (List UInt8 × KVValue)),
    fieldsFuel fields ≤ 2 * (entries fields).length
  | [] => Nat.le_refl 0
  | (_, value) :: rest => by
      have restBound := fieldsFuel_le rest
      by_cases present : value.present
      · have valueBound := loadFuel_le value
        simp only [fieldsFuel, entries_cons, entry, present, if_true, List.length_append,
          List.length_cons]
        omega
      · simp only [fieldsFuel, entries_cons, entry, present]
        simpa using restBound

theorem elementsFuel_le : ∀ (elements : List KVValue),
    elementsFuel elements ≤ 2 * (payloads elements).length + 1
  | [] => Nat.zero_le _
  | value :: rest => by
      have valueBound := loadFuel_le value
      have restBound := elementsFuel_le rest
      simp only [elementsFuel, payloads, List.length_append]
      omega

end

/-! ## The whole parse -/

theorem parseBinaryWith_entries {fields : List (List UInt8 × KVValue)}
    (few : fields.length < 2 ^ 62) (distinct : (fields.map (·.1)).Nodup)
    (wellFormed : FieldsWellFormed fields) {fuel : Nat} (enough : fieldsFuel fields + 2 ≤ fuel) :
    ∃ reserved, parseBinaryWith fuel ⟨KVBinaryStorageBlockHeader.portable.toBytes ++
        sizeBytes (entryCount fields) ++ entries fields, 0⟩ =
      .ok (.object (jsonMembers fields)) ⟨[], reserved⟩ := by
  obtain ⟨fuel, rfl⟩ : ∃ smaller, fuel = smaller + 1 := ⟨fuel - 1, by omega⟩
  obtain ⟨last, rounds⟩ := reads_entries fuel fields wellFormed distinct (by omega) [] [] (by simp)
  rw [List.nil_append] at rounds
  obtain ⟨reserved, loaded⟩ := reads_loadSection few rounds [] 0
  rw [List.append_nil] at loaded
  exact ⟨reserved, by rw [List.append_assoc, parseBinaryWith_portable, loaded]⟩

theorem parseBinary_entries {fields : List (List UInt8 × KVValue)}
    (few : fields.length < 2 ^ 62) (distinct : (fields.map (·.1)).Nodup)
    (wellFormed : FieldsWellFormed fields) :
    ∃ reserved, parseBinary ⟨KVBinaryStorageBlockHeader.portable.toBytes ++
        sizeBytes (entryCount fields) ++ entries fields, 0⟩ =
      .ok (.object (jsonMembers fields)) ⟨[], reserved⟩ := by
  have entriesBound := fieldsFuel_le fields
  have counted := length_sizeBytes_pos (entryCount fields)
  rw [parseBinary_eq]
  exact parseBinaryWith_entries few distinct wellFormed (by
    simp only [nestingBudget, List.length_append]
    omega)

end Dynex.KVBinaryInputStreamSerializer
