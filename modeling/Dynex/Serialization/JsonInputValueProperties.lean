import Dynex.Lib.FallibleState
import Dynex.Serialization.KVBinaryFormat
import Dynex.Serialization.KVBinaryInputStreamSerializer

/-!
# What the readers take out of the tree of a stored value

`KVBinaryInputStreamSerializer` reads a structure out of the tree `parseBinary` builds, with the
members of `JsonInputValueSerializer`. A member reads from a slot: the member under its name in
the innermost object, or the next element of the innermost array (`Slot`). Read into a target of
its type, every value comes back as it was stored (`serializeValue_slot`,
`serializeFields_members`), except a `double`: `parseBinary` builds a real from it, and
`getNumber` reads every number with `getInteger`, which throws on a real.
-/

set_option autoImplicit false

namespace Dynex.JsonInputValueSerializer

open Common FallibleState KVValue KVBinaryInputStreamSerializer

def notInteger : String := "JsonValue type is not INTEGER"

section Runs

variable (chain : List JsonValue) (idxs : List Nat)

@[simp] theorem liftExcept_ok_run {α : Type} (value : α) (state : JsonInputValueSerializer) :
    (liftExcept (.ok value)).run state = .ok (value, state) := rfl

@[simp] theorem liftExcept_error_run {α : Type} (message : String)
    (state : JsonInputValueSerializer) :
    (liftExcept (.error message : Except String α)).run state = .error message := rfl

@[simp] theorem top_run (value : JsonValue) :
    top.run ⟨value :: chain, idxs⟩ = .ok (value, ⟨value :: chain, idxs⟩) := rfl

@[simp] theorem nextIndex_run (index : Nat) :
    nextIndex.run ⟨chain, index :: idxs⟩ = .ok (index, ⟨chain, (index + 1) :: idxs⟩) := rfl

@[simp] theorem pushChain_run (value : JsonValue) :
    (pushChain value).run ⟨chain, idxs⟩ = .ok ((), ⟨value :: chain, idxs⟩) := rfl

@[simp] theorem endObject_run (value : JsonValue) :
    endObject.run ⟨value :: chain, idxs⟩ = .ok ((), ⟨chain, idxs⟩) := rfl

@[simp] theorem endArray_run (value : JsonValue) (index : Nat) :
    endArray.run ⟨value :: chain, index :: idxs⟩ = .ok ((), ⟨chain, idxs⟩) := rfl

end Runs

/-! ## Slots -/

/-- Where a member reads from, and the state it leaves: the member `name` of the innermost
object, or the next element of the innermost array, whatever the name. -/
inductive Slot : JsonInputValueSerializer → List UInt8 → Option JsonValue →
    JsonInputValueSerializer → Prop
  | member {members : List (List UInt8 × JsonValue)} {name : List UInt8} {json : Option JsonValue}
      (found : (members.find? (·.1 == name)).map (·.2) = json) (chain : List JsonValue)
      (idxs : List Nat) :
      Slot ⟨.object members :: chain, idxs⟩ name json ⟨.object members :: chain, idxs⟩
  | element {elements : List JsonValue} {index : Nat} {element : JsonValue}
      (found : elements[index]? = some element) (chain : List JsonValue) (idxs : List Nat)
      (name : List UInt8) :
      Slot ⟨.array elements :: chain, index :: idxs⟩ name (some element)
        ⟨.array elements :: chain, (index + 1) :: idxs⟩

theorem any_eq_isSome_find? (members : List (List UInt8 × JsonValue)) (name : List UInt8) :
    members.any (·.1 == name) = (members.find? (·.1 == name)).isSome :=
  List.isSome_find?.symm

theorem getValue_slot {state after : JsonInputValueSerializer} {name : List UInt8}
    {json : Option JsonValue} (slot : Slot state name json after) :
    (getValue name).run state = .ok (json, after) := by
  cases slot with
  | member found chain idxs =>
      subst found
      cases lookup : List.find? _ _ <;>
        simp [getValue, JsonValue.isArray, JsonValue.contains, JsonValue.get, JsonValue.getObject,
          any_eq_isSome_find?, lookup]
  | element found chain idxs name =>
      simp [getValue, JsonValue.isArray, JsonValue.index, found]

theorem beginObject_slot {state after : JsonInputValueSerializer} {name : List UInt8}
    {json : JsonValue} (slot : Slot state name (some json) after) :
    (beginObject name).run state = .ok (true, ⟨json :: after.chain, after.idxs⟩) := by
  cases slot with
  | member found chain idxs =>
      obtain ⟨⟨key, member⟩, lookup, rfl⟩ := Option.map_eq_some_iff.mp found
      simp [beginObject, JsonValue.isArray, JsonValue.contains, JsonValue.get, JsonValue.getObject,
        any_eq_isSome_find?, lookup]
  | element found chain idxs name =>
      simp [beginObject, JsonValue.isArray, JsonValue.index, found]

theorem beginArray_member {members : List (List UInt8 × JsonValue)} {name : List UInt8}
    {elements : List JsonValue} (lookup : (members.find? (·.1 == name)).map (·.2) = some (.array elements))
    (size : Nat) (chain : List JsonValue) (idxs : List Nat) :
    (beginArray size name).run ⟨.object members :: chain, idxs⟩ =
      .ok ((elements.length, true), ⟨.array elements :: .object members :: chain, 0 :: idxs⟩) := by
  obtain ⟨⟨key, member⟩, lookup, rfl⟩ := Option.map_eq_some_iff.mp lookup
  simp [beginArray, JsonValue.contains, JsonValue.get, JsonValue.getObject, JsonValue.size,
    any_eq_isSome_find?, lookup]

theorem beginArray_absent {members : List (List UInt8 × JsonValue)} {name : List UInt8}
    (lookup : (members.find? (·.1 == name)).map (·.2) = none)
    (size : Nat) (chain : List JsonValue) (idxs : List Nat) :
    (beginArray size name).run ⟨.object members :: chain, idxs⟩ =
      .ok ((0, false), ⟨.object members :: chain, idxs⟩) := by
  rw [Option.map_eq_none_iff] at lookup
  simp [beginArray, JsonValue.contains, JsonValue.getObject, any_eq_isSome_find?, lookup]

/-! ## Members -/

section Members

variable {state after : JsonInputValueSerializer} {name : List UInt8}

theorem getNumber_integer {α : Type} (cast : Int64 → α) (value : α) {integer : Int64}
    (slot : Slot state name (some (.integer integer)) after) :
    (getNumber cast value name).run state = .ok ((cast integer, true), after) := by
  simp [getNumber, getValue_slot slot, JsonValue.getInteger]

theorem getNumber_real {α : Type} (cast : Int64 → α) (value : α) {bits : UInt64}
    (slot : Slot state name (some (.real bits)) after) :
    (getNumber cast value name).run state = .error notInteger := by
  simp [getNumber, getValue_slot slot, JsonValue.getInteger, notInteger]

theorem operatorString_string (value : List UInt8) {text : List UInt8}
    (slot : Slot state name (some (.string text)) after) :
    (operatorString value name).run state = .ok ((text, true), after) := by
  simp [operatorString, getValue_slot slot, JsonValue.getString]

theorem operatorString_absent (value : List UInt8) (slot : Slot state name none after) :
    (operatorString value name).run state = .ok ((value, false), after) := by
  simp [operatorString, getValue_slot slot]

theorem operatorBool_bool (value : Bool) {flag : Bool}
    (slot : Slot state name (some (.bool flag)) after) :
    (operatorBool value name).run state = .ok ((flag, true), after) := by
  simp [operatorBool, getValue_slot slot, JsonValue.getBool]

def slotOf (value : KVValue) : Option JsonValue :=
  if value.present then some value.toJson else none

theorem slotOf_of_isElement {value : KVValue} (element : value.IsElement) :
    slotOf value = some value.toJson := by
  cases value <;> simp only [IsElement] at element <;> rfl

theorem serializeValue_scalar {value : KVValue} (scalar : value.IsScalar) {target : KVValue}
    (sameType : target.typeOf = value.typeOf) (slot : Slot state name (slotOf value) after) :
    (serializer.serializeValue name target).run state =
      failsIf value.hasDouble notInteger (.ok ((value, true), after)) := by
  rw [slotOf_of_isElement (by cases value <;> simp_all [IsScalar, IsElement])] at slot
  cases value <;> simp only [IsScalar] at scalar <;> cases target <;> simp [typeOf] at sameType <;>
    simp only [toJson] at slot
  case double.double =>
    simp [ISerializer.serializeValue, operatorDouble, hasDouble, getNumber_real _ _ slot]
  case bool.bool =>
    simp [ISerializer.serializeValue, hasDouble, operatorBool_bool _ slot]
  all_goals
    simp [ISerializer.serializeValue, operatorUInt8, operatorInt16, operatorUInt16, operatorInt32,
      operatorUInt32, operatorInt64, operatorUInt64, hasDouble, getNumber_integer _ _ slot]

theorem serializeValue_string {text : List UInt8} {target : KVValue}
    (sameType : target.typeOf = .string) (slot : Slot state name (some (.string text)) after) :
    (serializer.serializeValue name target).run state = .ok ((.string text, true), after) := by
  cases target <;> simp [typeOf] at sameType
  simp [ISerializer.serializeValue, operatorString_string _ slot]

theorem serializeValue_binary {bytes : List UInt8} {target : KVValue}
    (sameType : target.typeOf = (KVValue.binary bytes).typeOf)
    (slot : Slot state name (slotOf (.binary bytes)) after) :
    (serializer.serializeValue name target).run state =
      .ok ((.binary bytes, !bytes.isEmpty), after) := by
  cases target <;> simp [typeOf] at sameType
  rename_i kept
  by_cases empty : bytes = []
  · subst empty
    have none : kept = [] := List.eq_nil_of_length_eq_zero sameType
    subst none
    simp [slotOf, present] at slot
    simp [ISerializer.serializeValue, KVBinaryInputStreamSerializer.binary,
      operatorString_absent _ slot]
  · simp [slotOf, present, empty, toJson] at slot
    simp [ISerializer.serializeValue, KVBinaryInputStreamSerializer.binary,
      operatorString_string _ slot, sameType, empty]

theorem serializeValue_object {fields targets : List (List UInt8 × KVValue)} {doubles : Bool}
    (slot : Slot state name (some (.object (jsonMembers fields))) after)
    (read : (serializer.serializeFields targets).run
        ⟨.object (jsonMembers fields) :: after.chain, after.idxs⟩ =
      failsIf doubles notInteger (.ok (fields, ⟨.object (jsonMembers fields) :: after.chain, after.idxs⟩))) :
    (serializer.serializeValue name (.object targets)).run state =
      failsIf doubles notInteger (.ok ((.object fields, true), after)) := by
  rw [ISerializer.serializeValue]
  simp only [serializer_beginObject, serializer_endObject]
  rw [run_bind_of_ok (beginObject_slot slot)]
  rw [if_neg (by decide), run_bind_of_failsIf read, run_bind_of_ok (endObject_run _ _ _), run_pure]

end Members

/-! ## Structures and vectors -/

def readItem (item : KVValue) : Unit → ValueReader KVValue := fun _ => do
  let (value, _) ← serializer.serializeValue [] item
  pure value

theorem IsElement.ne_array {value : KVValue} (element : value.IsElement) :
    ∀ item elements, value ≠ .array item elements := by
  rintro item elements rfl
  exact element

theorem length_jsonElements : ∀ (elements : List KVValue),
    (jsonElements elements).length = elements.length
  | [] => rfl
  | _ :: rest => by simp [jsonElements, length_jsonElements rest]

theorem elementsHaveDouble_append : ∀ (first second : List KVValue),
    elementsHaveDouble (first ++ second) = (elementsHaveDouble first || elementsHaveDouble second)
  | [], _ => rfl
  | value :: rest, second => by
      simp [elementsHaveDouble, elementsHaveDouble_append rest second, Bool.or_assoc]

def MembersHold (members : List (List UInt8 × JsonValue)) (fields : List (List UInt8 × KVValue)) :
    Prop :=
  ∀ field ∈ fields, (members.find? (·.1 == field.1)).map (·.2) = slotOf field.2

theorem MembersHold.tail {members : List (List UInt8 × JsonValue)}
    {field : List UInt8 × KVValue} {fields : List (List UInt8 × KVValue)}
    (holds : MembersHold members (field :: fields)) : MembersHold members fields :=
  fun other mem => holds other (List.mem_cons_of_mem _ mem)

theorem find?_jsonMembers_of_not_mem {name : List UInt8} :
    ∀ {fields : List (List UInt8 × KVValue)}, name ∉ fields.map (·.1) →
      (jsonMembers fields).find? (·.1 == name) = none
  | [], _ => rfl
  | (other, value) :: rest, absent => by
      rw [List.map_cons, List.mem_cons, not_or] at absent
      have differs : (other == name) = false := beq_false_of_ne (Ne.symm absent.1)
      by_cases present : value.present <;>
        simp [jsonMembers, present, differs, find?_jsonMembers_of_not_mem absent.2]

theorem membersHold_jsonMembers :
    ∀ {fields : List (List UInt8 × KVValue)}, (fields.map (·.1)).Nodup →
      MembersHold (jsonMembers fields) fields
  | [], _ => fun _ mem => by cases mem
  | (name, value) :: rest, distinct => by
      simp only [List.map_cons, List.nodup_cons] at distinct
      intro field mem
      rcases List.mem_cons.mp mem with rfl | mem
      · by_cases present : value.present <;>
          simp [jsonMembers, present, slotOf, find?_jsonMembers_of_not_mem distinct.1]
      · have differs : (name == field.1) = false :=
          beq_false_of_ne fun same => distinct.1 (by rw [same]; exact List.mem_map_of_mem mem)
        have later := membersHold_jsonMembers distinct.2 field mem
        by_cases present : value.present <;> simp [jsonMembers, present, differs, later]

section Steps

variable {state middle after : JsonInputValueSerializer}

theorem serializeFields_cons_run {name : List UInt8} {target value : KVValue} {found doubles : Bool}
    {targets fields : List (List UInt8 × KVValue)}
    (first : (serializer.serializeValue name target).run state =
      failsIf value.hasDouble notInteger (.ok ((value, found), state)))
    (rest : (serializer.serializeFields targets).run state =
      failsIf doubles notInteger (.ok (fields, state))) :
    (serializer.serializeFields ((name, target) :: targets)).run state =
      failsIf (value.hasDouble || doubles) notInteger (.ok ((name, value) :: fields, state)) := by
  rw [ISerializer.serializeFields, run_bind_of_failsIf first]
  dsimp only
  rw [run_bind_of_failsIf rest, run_pure, failsIf_failsIf]

theorem serializeElements_succ_run {target value : KVValue} {found doubles : Bool} {size : Nat}
    {targets elements : List KVValue}
    (first : (serializer.serializeValue [] target).run state =
      failsIf value.hasDouble notInteger (.ok ((value, found), middle)))
    (rest : (serializer.serializeElements size targets).run middle =
      failsIf doubles notInteger (.ok (elements, after))) :
    (serializer.serializeElements (size + 1) (target :: targets)).run state =
      failsIf (value.hasDouble || doubles) notInteger (.ok (value :: elements, after)) := by
  rw [ISerializer.serializeElements, run_bind_of_failsIf first]
  dsimp only
  rw [run_bind_of_failsIf rest, run_pure, failsIf_failsIf]

theorem readPadding_succ_run {item value : KVValue} {found doubles : Bool} {count : Nat}
    {elements : List KVValue}
    (first : (serializer.serializeValue [] item).run state =
      failsIf value.hasDouble notInteger (.ok ((value, found), middle)))
    (rest : ((List.replicate count ()).mapM (readItem item)).run middle =
      failsIf doubles notInteger (.ok (elements, after))) :
    ((List.replicate (count + 1) ()).mapM (readItem item)).run state =
      failsIf (value.hasDouble || doubles) notInteger (.ok (value :: elements, after)) := by
  have element : (readItem item ()).run state =
      failsIf value.hasDouble notInteger (.ok (value, middle)) := by
    rw [readItem]
    dsimp only
    rw [run_bind_of_failsIf first, run_pure]
  rw [List.replicate_succ, List.mapM_cons, run_bind_of_failsIf element, run_bind_of_failsIf rest,
    run_pure, failsIf_failsIf]

end Steps

/-- A vector in an object: the target's elements that fit, then copies of `T()`, are read from
the array under the name, and an absent array is read as empty. -/
theorem serializeValue_array_member {members : List (List UInt8 × JsonValue)}
    {chain : List JsonValue} {idxs : List Nat} {name : List UInt8} {item : KVValue}
    {elements targets : List KVValue} {middle last : Nat}
    (lookup : (members.find? (·.1 == name)).map (·.2) = slotOf (.array item elements))
    (kept : (serializer.serializeElements elements.length targets).run
        ⟨.array (jsonElements elements) :: .object members :: chain, 0 :: idxs⟩ =
      failsIf (elementsHaveDouble (elements.take targets.length)) notInteger
        (.ok (elements.take targets.length,
          ⟨.array (jsonElements elements) :: .object members :: chain, middle :: idxs⟩)))
    (padded : ((List.replicate (elements.length - targets.length) ()).mapM (readItem item)).run
        ⟨.array (jsonElements elements) :: .object members :: chain, middle :: idxs⟩ =
      failsIf (elementsHaveDouble (elements.drop targets.length)) notInteger
        (.ok (elements.drop targets.length,
          ⟨.array (jsonElements elements) :: .object members :: chain, last :: idxs⟩))) :
    (serializer.serializeValue name (.array item targets)).run ⟨.object members :: chain, idxs⟩ =
      failsIf (elementsHaveDouble elements) notInteger
        (.ok ((.array item elements, !elements.isEmpty), ⟨.object members :: chain, idxs⟩)) := by
  rw [ISerializer.serializeValue]
  simp only [serializer_beginArray, serializer_endArray, serializer_type]
  by_cases empty : elements = []
  · subst empty
    rw [run_bind_of_ok (beginArray_absent (by simpa [slotOf, present] using lookup) _ _ _)]
    simp [elementsHaveDouble]
  · have found : slotOf (.array item elements) = some (.array (jsonElements elements)) := by
      simp [slotOf, present, empty, toJson]
    rw [run_bind_of_ok (beginArray_member (lookup.trans found) _ _ _), length_jsonElements]
    dsimp only
    unfold readItem at padded
    rw [if_neg (by decide), run_bind_of_failsIf kept, run_bind_of_failsIf padded,
      run_bind_of_ok (endArray_run _ _ _ _), run_pure, failsIf_failsIf,
      ← elementsHaveDouble_append, List.take_append_drop]
    cases elements with
    | nil => exact absurd rfl empty
    | cons _ _ => rfl

/-! ## Reading a stored value back -/

mutual

theorem serializeValue_slot : ∀ (value : KVValue), value.WellFormed →
    (∀ item elements, value ≠ .array item elements) →
    ∀ (target : KVValue), target.Typed → target.typeOf = value.typeOf →
    ∀ {state after : JsonInputValueSerializer} {name : List UInt8},
      Slot state name (slotOf value) after →
      (serializer.serializeValue name target).run state =
        failsIf value.hasDouble notInteger (.ok ((value, value.present), after))
  | .string _, _, _, _, _, sameType, _, _, _, slot => serializeValue_string sameType slot
  | .binary _, _, _, _, _, sameType, _, _, _, slot => serializeValue_binary sameType slot
  | .object fields, ⟨_, distinct, wellFormed⟩, _, target, typed, sameType, _, _, _, slot => by
      cases target <;> simp only [typeOf, reduceCtorEq] at sameType
      rename_i targets
      exact serializeValue_object slot (serializeFields_members _ _ _ fields wellFormed
        (membersHold_jsonMembers distinct) targets typed (KVType.object.inj sameType))
  | .array item elements, _, single, _, _, _, _, _, _, _ => absurd rfl (single item elements)
  | .uint8 _, _, _, _, _, sameType, _, _, _, slot | .int16 _, _, _, _, _, sameType, _, _, _, slot
  | .uint16 _, _, _, _, _, sameType, _, _, _, slot | .int32 _, _, _, _, _, sameType, _, _, _, slot
  | .uint32 _, _, _, _, _, sameType, _, _, _, slot | .int64 _, _, _, _, _, sameType, _, _, _, slot
  | .uint64 _, _, _, _, _, sameType, _, _, _, slot | .double _, _, _, _, _, sameType, _, _, _, slot
  | .bool _, _, _, _, _, sameType, _, _, _, slot =>
      serializeValue_scalar (by trivial) sameType slot
termination_by structural value _ _ _ _ _ _ _ _ _ => value

/-- The fields of a structure, read into targets of their types from members that hold each
field's slot, come back as they were, unless one holds a `double`. -/
theorem serializeFields_members (members : List (List UInt8 × JsonValue))
    (chain : List JsonValue) (idxs : List Nat) :
    ∀ (fields : List (List UInt8 × KVValue)), FieldsWellFormed fields →
    MembersHold members fields →
    ∀ (targets : List (List UInt8 × KVValue)), FieldsTyped targets →
      fieldTypes targets = fieldTypes fields →
      (serializer.serializeFields targets).run ⟨.object members :: chain, idxs⟩ =
        failsIf (fieldsHaveDouble fields) notInteger (.ok (fields, ⟨.object members :: chain, idxs⟩))
  | [], _, _, targets, _, sameTypes => by
      cases targets with
      | nil => rfl
      | cons _ _ => simp [fieldTypes] at sameTypes
  | (name, .array item elements) :: rest, ⟨_, ⟨element, _, elementsWellFormed⟩, restWellFormed⟩,
      holds, targets, typed, sameTypes => by
      cases targets with
      | nil => simp [fieldTypes] at sameTypes
      | cons field targets =>
          obtain ⟨targetName, target⟩ := field
          simp only [fieldTypes, List.cons.injEq, Prod.mk.injEq] at sameTypes
          obtain ⟨⟨rfl, sameType⟩, sameTypes⟩ := sameTypes
          cases target <;> simp only [typeOf, reduceCtorEq, KVType.array.injEq] at sameType
          rename_i targetItem kept
          subst targetItem
          obtain ⟨⟨itemTyped, keptTyped⟩, targetsTyped⟩ := typed
          have first := serializeValue_array_member (holds _ List.mem_cons_self)
            (serializeElements_elements item element (jsonElements elements)
              (.object members :: chain) idxs elements elementsWellFormed kept keptTyped [] rfl
              (min kept.length elements.length) (by simp))
            (readPadding_elements item itemTyped element (jsonElements elements)
              (.object members :: chain) idxs elements elementsWellFormed kept.length [] rfl
              (min kept.length elements.length) (by simp) elements.length (by simp))
          exact serializeFields_cons_run first (serializeFields_members members chain idxs rest
            restWellFormed holds.tail targets targetsTyped sameTypes)
  | (name, .uint8 _) :: rest, ⟨_, wellFormed, restWellFormed⟩, holds, targets, typed,
      sameTypes
  | (name, .int16 _) :: rest, ⟨_, wellFormed, restWellFormed⟩, holds, targets, typed,
      sameTypes
  | (name, .uint16 _) :: rest, ⟨_, wellFormed, restWellFormed⟩, holds, targets, typed,
      sameTypes
  | (name, .int32 _) :: rest, ⟨_, wellFormed, restWellFormed⟩, holds, targets, typed,
      sameTypes
  | (name, .uint32 _) :: rest, ⟨_, wellFormed, restWellFormed⟩, holds, targets, typed,
      sameTypes
  | (name, .int64 _) :: rest, ⟨_, wellFormed, restWellFormed⟩, holds, targets, typed,
      sameTypes
  | (name, .uint64 _) :: rest, ⟨_, wellFormed, restWellFormed⟩, holds, targets, typed,
      sameTypes
  | (name, .double _) :: rest, ⟨_, wellFormed, restWellFormed⟩, holds, targets, typed,
      sameTypes
  | (name, .bool _) :: rest, ⟨_, wellFormed, restWellFormed⟩, holds, targets, typed,
      sameTypes
  | (name, .string _) :: rest, ⟨_, wellFormed, restWellFormed⟩, holds, targets, typed,
      sameTypes
  | (name, .binary _) :: rest, ⟨_, wellFormed, restWellFormed⟩, holds, targets, typed,
      sameTypes
  | (name, .object _) :: rest, ⟨_, wellFormed, restWellFormed⟩, holds, targets, typed,
      sameTypes => by
      cases targets with
      | nil => simp [fieldTypes] at sameTypes
      | cons field targets =>
          obtain ⟨targetName, target⟩ := field
          simp only [fieldTypes, List.cons.injEq, Prod.mk.injEq] at sameTypes
          obtain ⟨⟨rfl, sameType⟩, sameTypes⟩ := sameTypes
          exact serializeFields_cons_run
            (serializeValue_slot _ wellFormed (by intro item elements same; cases same) target
              typed.1 sameType (Slot.member (holds _ List.mem_cons_self) chain idxs))
            (serializeFields_members members chain idxs rest restWellFormed holds.tail targets
              typed.2 sameTypes)
termination_by structural fields _ _ _ _ _ => fields

/-- The first elements of a vector, as many as the target has, read into the target's. -/
theorem serializeElements_elements (item : KVValue) (element : item.IsElement)
    (array chain : List JsonValue) (idxs : List Nat) :
    ∀ (elements : List KVValue), ElementsWellFormed item elements →
    ∀ (targets : List KVValue), ElementsTyped item targets →
    ∀ (before : List JsonValue), array = before ++ jsonElements elements →
    ∀ (last : Nat), last = before.length + min targets.length elements.length →
      (serializer.serializeElements elements.length targets).run
          ⟨.array array :: chain, before.length :: idxs⟩ =
        failsIf (elementsHaveDouble (elements.take targets.length)) notInteger
          (.ok (elements.take targets.length, ⟨.array array :: chain, last :: idxs⟩))
  | [], _, targets, _, before, _, last, isLast => by
      have stays : last = before.length := by simpa using isLast
      subst stays
      cases targets <;> simp [ISerializer.serializeElements, elementsHaveDouble]
  | value :: rest, ⟨typed, wellFormed, restWellFormed⟩, targets, targetsTyped, before, layout,
      last, isLast => by
      cases targets with
      | nil =>
          have stays : last = before.length := by simpa using isLast
          subst stays
          simp [ISerializer.serializeElements, elementsHaveDouble]
      | cons target targets =>
          obtain ⟨targetType, targetTyped, targetsTyped⟩ := targetsTyped
          have valueElement : value.IsElement := element.of_typeOf typed
          have found : array[before.length]? = some value.toJson := by
            simp [layout, jsonElements]
          have slot : Slot ⟨.array array :: chain, before.length :: idxs⟩ [] (slotOf value)
              ⟨.array array :: chain, (before.length + 1) :: idxs⟩ := by
            rw [slotOf_of_isElement valueElement]
            exact Slot.element found chain idxs []
          have later := serializeElements_elements item element array chain idxs rest
            restWellFormed targets targetsTyped (before ++ [value.toJson])
            (by simp [layout, jsonElements]) last (by simp at isLast ⊢; omega)
          rw [List.length_append, List.length_singleton] at later
          exact serializeElements_succ_run
            (serializeValue_slot value wellFormed (IsElement.ne_array valueElement) target
              targetTyped (targetType.trans typed.symm) slot) later
termination_by structural elements _ _ _ _ _ _ _ => elements

/-- The elements of a vector past the first `kept`, read into copies of `T()`. -/
theorem readPadding_elements (item : KVValue) (itemTyped : item.Typed) (element : item.IsElement)
    (array chain : List JsonValue) (idxs : List Nat) :
    ∀ (elements : List KVValue), ElementsWellFormed item elements →
    ∀ (kept : Nat) (before : List JsonValue), array = before ++ jsonElements elements →
    ∀ (index : Nat), index = before.length + min kept elements.length →
    ∀ (last : Nat), last = before.length + elements.length →
      ((List.replicate (elements.length - kept) ()).mapM (readItem item)).run
          ⟨.array array :: chain, index :: idxs⟩ =
        failsIf (elementsHaveDouble (elements.drop kept)) notInteger
          (.ok (elements.drop kept, ⟨.array array :: chain, last :: idxs⟩))
  | [], _, kept, before, _, index, isIndex, last, isLast => by
      have stays : index = last := by simp at isIndex isLast; omega
      subst stays
      simp [elementsHaveDouble]
  | value :: rest, ⟨typed, wellFormed, restWellFormed⟩, 0, before, layout, index, isIndex, last,
      isLast => by
      have valueElement : value.IsElement := element.of_typeOf typed
      have found : array[index]? = some value.toJson := by
        simp [layout, isIndex, jsonElements]
      have slot : Slot ⟨.array array :: chain, index :: idxs⟩ [] (slotOf value)
          ⟨.array array :: chain, (index + 1) :: idxs⟩ := by
        rw [slotOf_of_isElement valueElement]
        exact Slot.element found chain idxs []
      have later := readPadding_elements item itemTyped element array chain idxs rest
        restWellFormed 0 (before ++ [value.toJson]) (by simp [layout, jsonElements]) (index + 1)
        (by simp [isIndex]) last (by simp [isLast]; omega)
      rw [Nat.sub_zero] at later
      rw [List.length_cons, Nat.sub_zero]
      exact readPadding_succ_run
        (serializeValue_slot value wellFormed (IsElement.ne_array valueElement) item itemTyped
          typed.symm slot) later
  | value :: rest, ⟨_, _, restWellFormed⟩, kept + 1, before, layout, index, isIndex, last,
      isLast => by
      have later := readPadding_elements item itemTyped element array chain idxs rest
        restWellFormed kept (before ++ [value.toJson]) (by simp [layout, jsonElements]) index
        (by simp [isIndex]; omega) last (by simp [isLast]; omega)
      rw [List.length_cons, Nat.add_sub_add_right]
      exact later
termination_by structural elements _ _ _ _ _ _ _ _ => elements

end

end Dynex.JsonInputValueSerializer
