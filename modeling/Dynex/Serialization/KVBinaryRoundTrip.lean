import Dynex.Serialization.KVBinaryDecodeProperties
import Dynex.Serialization.KVBinaryOutputProperties
import Dynex.Serialization.JsonInputValueProperties

/-!
# Storing a structure and loading it back

The two halves meet at the tree `jsonMembers` of the structure's fields: `parseBinary` builds it
from the bytes `storeToBinaryKeyValue` writes (`parseBinary_entries`), and the readers of
`JsonInputValueSerializer` take the fields back out of it (`serializeFields_members`). Every
field comes back, into any target of the structure's type, except a `double`, which the parser
keeps as a real and `getNumber` reads with `getInteger`.
-/

set_option autoImplicit false

namespace Dynex

open Common FallibleState KVValue

/-- The structure a distinct-named, well-formed structure is stored as is read back into any
target of its type, unless it holds a `double`, which makes the reader throw. -/
theorem readBinaryKeyValue_storeToBinaryKeyValue {fields target : List (List UInt8 × KVValue)}
    (few : fields.length < 2 ^ 62) (distinct : (fields.map (·.1)).Nodup)
    (wellFormed : FieldsWellFormed fields) (typed : FieldsTyped target)
    (sameType : fieldTypes target = fieldTypes fields) :
    ∃ buf, storeToBinaryKeyValue fields = .ok buf ∧
      readBinaryKeyValue target buf =
        failsIf (fieldsHaveDouble fields) "JsonValue type is not INTEGER" (.ok fields) := by
  obtain ⟨reserved, parsed⟩ :=
    KVBinaryInputStreamSerializer.parseBinary_entries few distinct wellFormed
  refine ⟨_, storeToBinaryKeyValue_eq few wellFormed, ?_⟩
  have created : KVBinaryInputStreamSerializer.create (KVBinaryStorageBlockHeader.portable.toBytes ++
      sizeBytes (entryCount fields) ++ entries fields) = .ok ⟨[.object (jsonMembers fields)], []⟩ := by
    rw [KVBinaryInputStreamSerializer.create, parsed]
    rfl
  have read := JsonInputValueSerializer.serializeFields_members (jsonMembers fields) [] [] fields
    wellFormed (JsonInputValueSerializer.membersHold_jsonMembers distinct) target typed sameType
  rw [readBinaryKeyValue, created, ok_bind, StateT.run'_eq, read]
  cases fieldsHaveDouble fields <;> rfl

theorem structure_without_double_reads_back :
    ∃ buf, storeToBinaryKeyValue [([97], .uint8 5), ([98], .array (.string []) [.string [120]]),
        ([99], .object [([100], .bool true)])] = .ok buf ∧
      readBinaryKeyValue [([97], .uint8 0), ([98], .array (.string []) []),
        ([99], .object [([100], .bool false)])] buf =
        .ok [([97], .uint8 5), ([98], .array (.string []) [.string [120]]),
          ([99], .object [([100], .bool true)])] := by
  obtain ⟨buf, stored, read⟩ := @readBinaryKeyValue_storeToBinaryKeyValue
    [([97], .uint8 5), ([98], .array (.string []) [.string [120]]),
      ([99], .object [([100], .bool true)])]
    [([97], .uint8 0), ([98], .array (.string []) []), ([99], .object [([100], .bool false)])]
    (by decide) (by decide)
    (by simp [FieldsWellFormed, WellFormed, ElementsWellFormed, ValidName, IsElement, typeOf])
    (by simp [FieldsTyped, Typed, ElementsTyped]) rfl
  exact ⟨buf, stored, read⟩

/-- A structure of one `double` is stored, and loading it back fails. -/
theorem double_field_fails_to_load :
    storeToBinaryKeyValue [([97], .double 0)] =
        .ok [1, 17, 1, 1, 1, 1, 2, 1, 1, 4, 1, 97, 9, 0, 0, 0, 0, 0, 0, 0, 0] ∧
      loadFromBinaryKeyValue [([97], .double 0)]
        [1, 17, 1, 1, 1, 1, 2, 1, 1, 4, 1, 97, 9, 0, 0, 0, 0, 0, 0, 0, 0] = none :=
  ⟨rfl, rfl⟩

end Dynex
