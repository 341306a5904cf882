import Dynex.Lib.FallibleState
import Dynex.Common.StreamTools
import Dynex.Serialization.KVBinaryFormat
import Dynex.Serialization.SerializationTools

/-!
# What the key-value writer writes

The writer refines the key-value form of `KVBinaryFormat`: serializing a well-formed field in
an object appends the field's `entry` to the object's stream and counts it when it has one
(`serializeValue_object`), and serializing an element of an array appends the array's preamble
before the first element and then the element's `payload` (`serializeValue_array`). So
`storeToBinaryKeyValue` returns the header, the root's entry count and its `entries`.

Each member of the writer gets one lemma for a level of an object and one for a level of an
array; the proofs of the four mutual theorems run the members through them.
-/

set_option autoImplicit false

namespace Dynex.KVBinaryOutputStreamSerializer

open Codec FallibleState KVValue

/-! ## Sizes and names -/

theorem packVarint_eq {width pv : Nat} {type_or : UInt8} (fits : 4 * pv < 2 ^ (8 * width))
    (mark : type_or.toNat < 4) :
    packVarint width type_or pv = leBytes width (4 * pv + type_or.toNat) := by
  have shifted : (pv <<< 2) % 2 ^ (8 * width) = pv * 2 ^ 2 := by
    rw [Nat.shiftLeft_eq, Nat.mod_eq_of_lt (by omega)]
  have joined : pv * 2 ^ 2 ||| type_or.toNat = type_or.toNat + pv * 2 ^ 2 := by
    rw [Nat.or_comm, ← Common.low_or_shifted mark, Nat.shiftLeft_eq]
  rw [packVarint, shifted, joined]
  congr 1
  omega

theorem writeArraySize_of_lt {size : Nat} (fits : size < 2 ^ 62) :
    writeArraySize size = .ok (sizeBytes size) := by
  unfold writeArraySize sizeBytes
  by_cases byte : size ≤ 63
  · rw [if_pos byte, if_pos byte, packVarint_eq (by omega) (by decide)]
    rfl
  rw [if_neg byte, if_neg byte]
  by_cases word : size ≤ 16383
  · rw [if_pos word, if_pos word, packVarint_eq (by omega) (by decide)]
    rfl
  rw [if_neg word, if_neg word]
  by_cases dword : size ≤ 1073741823
  · rw [if_pos dword, if_pos dword, packVarint_eq (by omega) (by decide)]
    rfl
  rw [if_neg dword, if_neg dword, if_neg (by omega), packVarint_eq (by omega) (by decide)]
  rfl

theorem writeElementName_of_le {name : List UInt8} (short : name.length ≤ 255) :
    writeElementName name = .ok (nameBytes name) := by
  rw [writeElementName, if_neg (by omega)]
  rfl

/-! ## The members on a stream and a level -/

variable (ss : List (List UInt8)) (ls : List Level)

@[simp] theorem liftExcept_ok_run {α : Type} (value : α) (s : KVBinaryOutputStreamSerializer) :
    (liftExcept (.ok value)).run s = .ok (value, s) := rfl

@[simp] theorem write_run (top bytes : List UInt8) :
    (write bytes).run ⟨top :: ss, ls⟩ = .ok ((), ⟨(top ++ bytes) :: ss, ls⟩) := rfl

@[simp] theorem stream_run (top : List UInt8) :
    stream.run ⟨top :: ss, ls⟩ = .ok (top, ⟨top :: ss, ls⟩) := rfl

@[simp] theorem topLevel_run (level : Level) :
    topLevel.run ⟨ss, level :: ls⟩ = .ok (level, ⟨ss, level :: ls⟩) := rfl

@[simp] theorem setTopLevel_run (level next : Level) :
    (setTopLevel next).run ⟨ss, level :: ls⟩ = .ok ((), ⟨ss, next :: ls⟩) := rfl

@[simp] theorem popLevel_run (level : Level) :
    popLevel.run ⟨ss, level :: ls⟩ = .ok (level, ⟨ss, ls⟩) := rfl

@[simp] theorem popStream_run (top : List UInt8) :
    popStream.run ⟨top :: ss, ls⟩ = .ok (top, ⟨ss, ls⟩) := rfl

def arrayPreamble (level : Level) (type : UInt8) : List UInt8 :=
  nameBytes level.name ++ (BIN_KV_SERIALIZE_FLAG_ARRAY ||| type) :: sizeBytes level.count

/-- A level of an array the writer can write the preamble of. -/
structure ArrayLevel (level : Level) : Prop where
  inArray : level.state = .ArrayPrefix ∨ level.state = .Array
  name : level.name.length ≤ 255
  count : level.count < 2 ^ 62

def elementPrefix (level : Level) (type : UInt8) : List UInt8 :=
  if level.state = .ArrayPrefix then arrayPreamble level type else []

theorem ArrayLevel.toArray {level : Level} (valid : ArrayLevel level) :
    ArrayLevel { level with state := .Array } :=
  ⟨.inr rfl, valid.name, valid.count⟩

theorem checkArrayPreamble_of_ne (type : UInt8) (top : List UInt8) {level : Level}
    (started : level.state ≠ .ArrayPrefix) :
    (checkArrayPreamble type).run ⟨top :: ss, level :: ls⟩ = .ok ((), ⟨top :: ss, level :: ls⟩) := by
  rw [checkArrayPreamble, run_bind_of_ok (run_get _)]
  dsimp only
  rw [if_neg started]
  rfl

theorem checkArrayPreamble_array (type : UInt8) (top : List UInt8) {level : Level}
    (valid : ArrayLevel level) :
    (checkArrayPreamble type).run ⟨top :: ss, level :: ls⟩ =
      .ok ((), ⟨(top ++ elementPrefix level type) :: ss, { level with state := .Array } :: ls⟩) := by
  by_cases first : level.state = .ArrayPrefix
  · rw [checkArrayPreamble, run_bind_of_ok (run_get _)]
    dsimp only
    rw [if_pos first, writeElementName_of_le valid.name, writeArraySize_of_lt valid.count,
      run_bind_of_ok (liftExcept_ok_run _ _), run_bind_of_ok (write_run _ _ _ _),
      run_bind_of_ok (write_run _ _ _ _), run_bind_of_ok (liftExcept_ok_run _ _),
      run_bind_of_ok (write_run _ _ _ _), setTopLevel_run]
    simp [elementPrefix, first, arrayPreamble, List.append_assoc]
  · have already : level.state = .Array := valid.inArray.resolve_left first
    rw [checkArrayPreamble_of_ne ss ls type top first, elementPrefix, if_neg first, List.append_nil]
    cases level
    cases already
    rfl

theorem writeElementPrefix_object (type : UInt8) (top : List UInt8) {level : Level}
    {name : List UInt8} (object : level.state = .Object) (valid : ValidName name) :
    (writeElementPrefix type name).run ⟨top :: ss, level :: ls⟩ =
      .ok ((), ⟨(top ++ nameBytes name ++ [type]) :: ss,
        { level with count := level.count + 1 } :: ls⟩) := by
  have started : level.state ≠ .ArrayPrefix := by rw [object]; decide
  have inObject : level.state ≠ .Array := by rw [object]; decide
  rw [writeElementPrefix, run_bind_of_ok (topLevel_run _ _ _),
    run_bind_of_ok (checkArrayPreamble_of_ne ss ls type top started),
    run_bind_of_ok (topLevel_run _ _ _)]
  dsimp only
  rw [if_pos inObject, if_pos valid.1, writeElementName_of_le valid.2,
    run_bind_of_ok (liftExcept_ok_run _ _), run_bind_of_ok (write_run _ _ _ _),
    run_bind_of_ok (write_run _ _ _ _), setTopLevel_run]

theorem writeElementPrefix_array (type : UInt8) (top : List UInt8) {level : Level}
    (name : List UInt8) (valid : ArrayLevel level) :
    (writeElementPrefix type name).run ⟨top :: ss, level :: ls⟩ =
      .ok ((), ⟨(top ++ elementPrefix level type) :: ss, { level with state := .Array } :: ls⟩) := by
  rw [writeElementPrefix, run_bind_of_ok (topLevel_run _ _ _),
    run_bind_of_ok (checkArrayPreamble_array ss ls type top valid),
    run_bind_of_ok (topLevel_run _ _ _)]
  dsimp only
  rw [if_neg (by simp)]
  rfl

theorem writeNumber_object {α : Type} (type : UInt8) (width : Nat) (toBits : α → Nat)
    (value : α) (top : List UInt8) {level : Level} {name : List UInt8}
    (object : level.state = .Object) (valid : ValidName name) :
    (writeNumber type width toBits value name).run ⟨top :: ss, level :: ls⟩ =
      .ok ((value, true), ⟨(top ++ nameBytes name ++ type :: leBytes width (toBits value)) :: ss,
        { level with count := level.count + 1 } :: ls⟩) := by
  rw [writeNumber, run_bind_of_ok (writeElementPrefix_object ss ls type top object valid),
    run_bind_of_ok (write_run _ _ _ _), run_pure]
  simp

theorem writeNumber_array {α : Type} (type : UInt8) (width : Nat) (toBits : α → Nat)
    (value : α) (top : List UInt8) {level : Level} (name : List UInt8) (valid : ArrayLevel level) :
    (writeNumber type width toBits value name).run ⟨top :: ss, level :: ls⟩ =
      .ok ((value, true), ⟨(top ++ elementPrefix level type ++ leBytes width (toBits value)) :: ss,
        { level with state := .Array } :: ls⟩) := by
  rw [writeNumber, run_bind_of_ok (writeElementPrefix_array ss ls type top name valid),
    run_bind_of_ok (write_run _ _ _ _)]
  rfl

theorem operatorString_object (value : List UInt8) (top : List UInt8) {level : Level}
    {name : List UInt8} (object : level.state = .Object) (valid : ValidName name)
    (fits : value.length < 2 ^ 62) :
    (operatorString value name).run ⟨top :: ss, level :: ls⟩ =
      .ok ((value, true), ⟨(top ++ nameBytes name ++ BIN_KV_SERIALIZE_TYPE_STRING ::
        (sizeBytes value.length ++ value)) :: ss, { level with count := level.count + 1 } :: ls⟩) := by
  rw [operatorString, run_bind_of_ok (writeElementPrefix_object ss ls _ top object valid),
    writeArraySize_of_lt fits, run_bind_of_ok (liftExcept_ok_run _ _),
    run_bind_of_ok (write_run _ _ _ _), run_bind_of_ok (write_run _ _ _ _), run_pure]
  simp

theorem operatorString_array (value : List UInt8) (top : List UInt8) {level : Level}
    (name : List UInt8) (valid : ArrayLevel level) (fits : value.length < 2 ^ 62) :
    (operatorString value name).run ⟨top :: ss, level :: ls⟩ =
      .ok ((value, true), ⟨(top ++ elementPrefix level BIN_KV_SERIALIZE_TYPE_STRING ++
        (sizeBytes value.length ++ value)) :: ss, { level with state := .Array } :: ls⟩) := by
  rw [operatorString, run_bind_of_ok (writeElementPrefix_array ss ls _ top name valid),
    writeArraySize_of_lt fits, run_bind_of_ok (liftExcept_ok_run _ _),
    run_bind_of_ok (write_run _ _ _ _), run_bind_of_ok (write_run _ _ _ _), run_pure]
  simp

theorem binary_object (value : List UInt8) (top : List UInt8) {level : Level}
    {name : List UInt8} (object : level.state = .Object) (valid : ValidName name)
    (fits : value.length < 2 ^ 62) :
    (binary value name).run ⟨top :: ss, level :: ls⟩ =
      .ok ((value, true), if value = [] then ⟨top :: ss, level :: ls⟩ else
        ⟨(top ++ nameBytes name ++ BIN_KV_SERIALIZE_TYPE_STRING ::
          (sizeBytes value.length ++ value)) :: ss, { level with count := level.count + 1 } :: ls⟩) := by
  by_cases empty : value = []
  · subst empty
    rfl
  · have positive : value.length > 0 := List.length_pos_iff.mpr empty
    rw [binary, if_pos positive, run_bind_of_ok (writeElementPrefix_object ss ls _ top object valid),
      writeArraySize_of_lt fits, run_bind_of_ok (liftExcept_ok_run _ _),
      run_bind_of_ok (write_run _ _ _ _), run_bind_of_ok (write_run _ _ _ _), run_pure, if_neg empty]
    simp

theorem beginObject_object (top : List UInt8) {level : Level} (name : List UInt8)
    (object : level.state = .Object) :
    (beginObject name).run ⟨top :: ss, level :: ls⟩ =
      .ok (true, ⟨[] :: top :: ss, Level.object name :: level :: ls⟩) := by
  have started : level.state ≠ .ArrayPrefix := by rw [object]; decide
  rw [beginObject, run_bind_of_ok (checkArrayPreamble_of_ne ss ls _ top started)]
  rfl

theorem beginObject_array (top : List UInt8) {level : Level} (name : List UInt8)
    (valid : ArrayLevel level) :
    (beginObject name).run ⟨top :: ss, level :: ls⟩ =
      .ok (true, ⟨[] :: (top ++ elementPrefix level BIN_KV_SERIALIZE_TYPE_OBJECT) :: ss,
        Level.object name :: { level with state := .Array } :: ls⟩) := by
  rw [beginObject, run_bind_of_ok (checkArrayPreamble_array ss ls _ top valid)]
  rfl

theorem endObject_object (inner top : List UInt8) {child level : Level}
    (object : level.state = .Object) (valid : ValidName child.name) (fits : child.count < 2 ^ 62) :
    endObject.run ⟨inner :: top :: ss, child :: level :: ls⟩ =
      .ok ((), ⟨(top ++ nameBytes child.name ++ BIN_KV_SERIALIZE_TYPE_OBJECT ::
        (sizeBytes child.count ++ inner)) :: ss, { level with count := level.count + 1 } :: ls⟩) := by
  rw [endObject, run_bind_of_ok (stream_run _ _ _), run_bind_of_ok (popLevel_run _ _ _),
    run_bind_of_ok (popStream_run _ _ _), run_bind_of_ok (stream_run _ _ _),
    run_bind_of_ok (writeElementPrefix_object ss ls _ top object valid), writeArraySize_of_lt fits,
    run_bind_of_ok (liftExcept_ok_run _ _), run_bind_of_ok (write_run _ _ _ _), write_run]
  simp

theorem endObject_array (inner top : List UInt8) {child level : Level}
    (valid : ArrayLevel level) (started : level.state = .Array) (fits : child.count < 2 ^ 62) :
    endObject.run ⟨inner :: top :: ss, child :: level :: ls⟩ =
      .ok ((), ⟨(top ++ (sizeBytes child.count ++ inner)) :: ss, level :: ls⟩) := by
  have noPreamble : elementPrefix level BIN_KV_SERIALIZE_TYPE_OBJECT = [] := by
    rw [elementPrefix, if_neg (by rw [started]; decide)]
  have same : { level with state := .Array } = level := by
    cases level
    cases started
    rfl
  rw [endObject, run_bind_of_ok (stream_run _ _ _), run_bind_of_ok (popLevel_run _ _ _),
    run_bind_of_ok (popStream_run _ _ _), run_bind_of_ok (stream_run _ _ _),
    run_bind_of_ok (writeElementPrefix_array ss ls _ top child.name valid), noPreamble, same,
    writeArraySize_of_lt fits, run_bind_of_ok (liftExcept_ok_run _ _),
    run_bind_of_ok (write_run _ _ _ _), write_run]
  simp

@[simp] theorem beginArray_run (size : Nat) (name : List UInt8) :
    (beginArray size name).run ⟨ss, ls⟩ = .ok ((size, true), ⟨ss, Level.array name size :: ls⟩) :=
  rfl

theorem endArray_run (child level : Level) :
    endArray.run ⟨ss, child :: level :: ls⟩ =
      .ok ((), ⟨ss, (if level.state = .Object ∧ child.state = .Array then
        { level with count := level.count + 1 } else level) :: ls⟩) := by
  rw [endArray, run_bind_of_ok (popLevel_run _ _ _), run_bind_of_ok (topLevel_run _ _ _)]
  by_cases counted : level.state = .Object ∧ child.state = .Array
  · rw [if_pos counted, if_pos counted]
    rfl
  · rw [if_neg counted, if_neg counted]
    rfl

/-! ## Fields and elements

The four theorems recurse through a value as the writer does: a field in an object, an element
in an array, the fields of a structure, the elements of a vector. -/

theorem entryCount_lt {fields : List (List UInt8 × KVValue)} (few : fields.length < 2 ^ 62) :
    entryCount fields < 2 ^ 62 :=
  Nat.lt_of_le_of_lt (List.countP_le_length) few

theorem serializeScalar_object (top : List UInt8) {level : Level} (object : level.state = .Object)
    {name : List UInt8} (valid : ValidName name) {value : KVValue} (scalar : value.IsScalar) :
    (serializer.serializeValue name value).run ⟨top :: ss, level :: ls⟩ =
      .ok ((value, true), ⟨(top ++ nameBytes name ++ value.typeCode :: value.payload) :: ss,
        { level with count := level.count + 1 } :: ls⟩) := by
  cases value <;> simp only [IsScalar] at scalar
  all_goals
    rw [ISerializer.serializeValue]
    dsimp only [serializer, operatorUInt8, operatorInt16, operatorUInt16, operatorInt32,
      operatorUInt32, operatorInt64, operatorUInt64, operatorDouble, operatorBool]
    rw [run_bind_of_ok (writeNumber_object ss ls _ _ _ _ top object valid), run_pure]
    rfl

theorem serializeScalar_array (top : List UInt8) {level : Level} (valid : ArrayLevel level)
    {value : KVValue} (scalar : value.IsScalar) :
    (serializer.serializeValue [] value).run ⟨top :: ss, level :: ls⟩ =
      .ok ((value, true), ⟨(top ++ elementPrefix level value.typeCode ++ value.payload) :: ss,
        { level with state := .Array } :: ls⟩) := by
  cases value <;> simp only [IsScalar] at scalar
  all_goals
    rw [ISerializer.serializeValue]
    dsimp only [serializer, operatorUInt8, operatorInt16, operatorUInt16, operatorInt32,
      operatorUInt32, operatorInt64, operatorUInt64, operatorDouble, operatorBool]
    rw [run_bind_of_ok (writeNumber_array ss ls _ _ _ _ top [] valid), run_pure]
    rfl

mutual

/-- A field of an object: its entry goes to the object's stream, and counts if it is there. -/
theorem serializeValue_object (ss : List (List UInt8)) (ls : List Level) (top : List UInt8)
    (level : Level) (object : level.state = .Object) :
    ∀ (name : List UInt8) (value : KVValue), ValidName name → value.WellFormed →
      (serializer.serializeValue name value).run ⟨top :: ss, level :: ls⟩ =
        .ok ((value, true), ⟨(top ++ entry name value) :: ss,
          { level with count := level.count + if value.present then 1 else 0 } :: ls⟩)
  | name, .string text, valid, fits => by
      rw [ISerializer.serializeValue]
      simp only [serializer_string]
      rw [run_bind_of_ok (operatorString_object ss ls text top object valid fits), run_pure]
      simp [entry, present, typeCode, payload]
  | name, .binary bytes, valid, fits => by
      rw [ISerializer.serializeValue]
      simp only [serializer_binary]
      rw [run_bind_of_ok (binary_object ss ls bytes top object valid fits), run_pure]
      by_cases empty : bytes = []
      · subst empty
        simp [entry, present]
      · simp [entry, present, typeCode, payload, empty]
  | name, .object fields, valid, ⟨few, _, fieldsWellFormed⟩ => by
      rw [ISerializer.serializeValue]
      simp only [serializer_beginObject, serializer_endObject]
      rw [run_bind_of_ok (beginObject_object ss ls top name object)]
      rw [if_neg (by decide)]
      rw [run_bind_of_ok (serializeFields_object (top :: ss) (level :: ls) [] (Level.object name) rfl
        fields fieldsWellFormed)]
      rw [run_bind_of_ok (endObject_object ss ls _ top object valid (by simpa [Level.object] using entryCount_lt few)),
        run_pure]
      simp [entry, present, typeCode, payload, Level.object]
  | name, .array item elements, valid, ⟨element, few, elementsWellFormed⟩ => by
      rw [ISerializer.serializeValue]
      simp only [serializer_beginArray, serializer_endArray]
      rw [run_bind_of_ok (beginArray_run _ _ _ _)]
      dsimp only
      rw [if_neg (by decide)]
      rw [run_bind_of_ok (serializeElements_array ss (level :: ls) top (Level.array name elements.length)
        ⟨.inl rfl, valid.2, few⟩ item element elements elementsWellFormed)]
      simp only [Nat.sub_self, List.replicate_zero, List.mapM_nil]
      rw [run_bind_of_ok (run_pure _ _), run_bind_of_ok (endArray_run _ _ _ _), run_pure]
      by_cases empty : elements = []
      · subst empty
        simp [entry, present, payloads, Level.array]
      · simp [entry, present, typeCode, payload, Level.array, elementPrefix, arrayPreamble, empty,
          object]
  | name, .uint8 _, valid, _ | name, .int16 _, valid, _ | name, .uint16 _, valid, _
  | name, .int32 _, valid, _ | name, .uint32 _, valid, _ | name, .int64 _, valid, _
  | name, .uint64 _, valid, _ | name, .double _, valid, _ | name, .bool _, valid, _ => by
      refine (serializeScalar_object ss ls top object valid ?_).trans ?_
      · trivial
      · simp [entry, present]

theorem serializeValue_array (ss : List (List UInt8)) (ls : List Level) (top : List UInt8)
    (level : Level) (valid : ArrayLevel level) :
    ∀ (value : KVValue), value.IsElement → value.WellFormed →
      (serializer.serializeValue [] value).run ⟨top :: ss, level :: ls⟩ =
        .ok ((value, true), ⟨(top ++ elementPrefix level value.typeCode ++ value.payload) :: ss,
          { level with state := .Array } :: ls⟩)
  | .string text, _, fits => by
      rw [ISerializer.serializeValue]
      simp only [serializer_string]
      rw [run_bind_of_ok (operatorString_array ss ls text top [] valid fits), run_pure]
      rfl
  | .object fields, _, ⟨few, _, fieldsWellFormed⟩ => by
      rw [ISerializer.serializeValue]
      simp only [serializer_beginObject, serializer_endObject]
      rw [run_bind_of_ok (beginObject_array ss ls top [] valid)]
      rw [if_neg (by decide)]
      rw [run_bind_of_ok (serializeFields_object (_ :: ss) (_ :: ls) [] (Level.object []) rfl
        fields fieldsWellFormed)]
      rw [run_bind_of_ok (endObject_array ss ls _ _ valid.toArray rfl
        (by simpa [Level.object] using entryCount_lt few)), run_pure]
      simp [payload, typeCode, Level.object]
  | .uint8 _, _, _ | .int16 _, _, _ | .uint16 _, _, _ | .int32 _, _, _ | .uint32 _, _, _
  | .int64 _, _, _ | .uint64 _, _, _ | .double _, _, _ | .bool _, _, _ =>
      serializeScalar_array ss ls top valid (by trivial)
  | .binary _, element, _ | .array _ _, element, _ => element.elim

theorem serializeFields_object (ss : List (List UInt8)) (ls : List Level) (top : List UInt8)
    (level : Level) (object : level.state = .Object) :
    ∀ (fields : List (List UInt8 × KVValue)), FieldsWellFormed fields →
      (serializer.serializeFields fields).run ⟨top :: ss, level :: ls⟩ =
        .ok (fields, ⟨(top ++ entries fields) :: ss,
          { level with count := level.count + entryCount fields } :: ls⟩)
  | [], _ => by
      rw [ISerializer.serializeFields, run_pure]
      simp [entryCount]
  | (name, value) :: rest, ⟨valid, wellFormed, restWellFormed⟩ => by
      rw [ISerializer.serializeFields,
        run_bind_of_ok (serializeValue_object ss ls top level object name value valid wellFormed)]
      dsimp only
      rw [run_bind_of_ok (serializeFields_object ss ls (top ++ entry name value)
        { level with count := level.count + if value.present then 1 else 0 } object rest
        restWellFormed), run_pure]
      simp only [entryCount, List.countP_cons, entries_cons, List.append_assoc]
      rw [Nat.add_right_comm, Nat.add_assoc]

theorem serializeElements_array (ss : List (List UInt8)) (ls : List Level) (top : List UInt8)
    (level : Level) (valid : ArrayLevel level) (item : KVValue) (element : item.IsElement) :
    ∀ (elements : List KVValue), ElementsWellFormed item elements →
      (serializer.serializeElements elements.length elements).run ⟨top :: ss, level :: ls⟩ =
        .ok (elements, ⟨(top ++ (if elements = [] then [] else elementPrefix level item.typeCode) ++
          payloads elements) :: ss, (if elements = [] then level else { level with state := .Array }) :: ls⟩)
  | [], _ => by
      rw [ISerializer.serializeElements, run_pure]
      simp [payloads]
  | value :: rest, ⟨typed, wellFormed, restWellFormed⟩ => by
      rw [List.length_cons, ISerializer.serializeElements,
        run_bind_of_ok (serializeValue_array ss ls top level valid value
          (element.of_typeOf typed) wellFormed)]
      dsimp only
      rw [run_bind_of_ok (serializeElements_array ss ls _ _ valid.toArray item element rest
        restWellFormed), run_pure]
      by_cases last : rest = []
      · subst last
        simp [payloads, typeCode_eq_of_typeOf typed]
      · simp [payloads, typeCode_eq_of_typeOf typed, last, elementPrefix, List.append_assoc]

end

theorem init_eq : init = .ok ⟨[[]], [Level.object []]⟩ := rfl

end Dynex.KVBinaryOutputStreamSerializer

namespace Dynex

open KVBinaryOutputStreamSerializer FallibleState KVValue

theorem storeToBinaryKeyValue_eq {fields : List (List UInt8 × KVValue)}
    (few : fields.length < 2 ^ 62) (wellFormed : FieldsWellFormed fields) :
    storeToBinaryKeyValue fields =
      .ok (KVBinaryStorageBlockHeader.portable.toBytes ++ sizeBytes (entryCount fields) ++
        entries fields) := by
  have written := serializeFields_object [] [] [] (Level.object []) rfl fields wellFormed
  have counted : KVBinaryOutputStreamSerializer.writeArraySize
      ((Level.object []).count + entryCount fields) =
      .ok (sizeBytes (entryCount fields)) := by
    simpa [Level.object] using writeArraySize_of_lt (entryCount_lt few)
  rw [storeToBinaryKeyValue, init_eq]
  show ((serializer.serializeFields fields).run ⟨[[]], [Level.object []]⟩ >>= fun ran =>
    ran.2.dump) = _
  rw [written]
  show (KVBinaryOutputStreamSerializer.writeArraySize ((Level.object []).count + entryCount fields)
      >>= fun count =>
    pure (KVBinaryStorageBlockHeader.portable.toBytes ++ count ++ ([] ++ entries fields))) = _
  rw [counted, List.nil_append]
  rfl

end Dynex
