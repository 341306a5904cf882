import Mathlib

/-!
# JSON values

`Common::JsonValue` of `JsonValue.cpp`, with the members the key-value serializers use. A string
and a key are byte strings, as `std::string` holds them; a real keeps the eight bytes of its
`double`, which nothing here computes with. An object is `std::map<Key, JsonValue>`: the model
keeps its members in insertion order, and every operation used here (`contains`, `at`,
`emplace`) looks a key up, so the order is never observed. A getter of the wrong kind throws the
source's `runtime_error`; `at` out of range throws `std::out_of_range`.
-/

set_option autoImplicit false

namespace Dynex.Common

inductive JsonValue where
  | array (elements : List JsonValue)
  | bool (value : Bool)
  | integer (value : Int64)
  | nil
  | object (members : List (List UInt8 × JsonValue))
  | real (bits : UInt64)
  | string (value : List UInt8)
  deriving Repr, Inhabited

namespace JsonValue

def isArray : JsonValue → Bool
  | .array _ => true
  | _ => false

def isObject : JsonValue → Bool
  | .object _ => true
  | _ => false

def getBool : JsonValue → Except String Bool
  | .bool value => pure value
  | _ => throw "JsonValue type is not BOOL"

def getInteger : JsonValue → Except String Int64
  | .integer value => pure value
  | _ => throw "JsonValue type is not INTEGER"

def getString : JsonValue → Except String (List UInt8)
  | .string value => pure value
  | _ => throw "JsonValue type is not STRING"

def getObject : JsonValue → Except String (List (List UInt8 × JsonValue))
  | .object members => pure members
  | _ => throw "JsonValue type is not OBJECT"

/-- `size()` of an array or an object. -/
def size : JsonValue → Except String Nat
  | .array elements => pure elements.length
  | .object members => pure members.length
  | _ => throw "JsonValue type is not ARRAY or OBJECT"

/-- `operator[](index)`: `at` of the array. -/
def index (value : JsonValue) (index : Nat) : Except String JsonValue :=
  match value with
  | .array elements =>
      match elements[index]? with
      | some element => pure element
      | none => throw "vector::_M_range_check"
  | _ => throw "JsonValue type is not ARRAY"

def contains (value : JsonValue) (key : List UInt8) : Except String Bool := do
  let members ← value.getObject
  pure (members.any (·.1 == key))

/-- `operator()(key)`: `getObject().at(key)`. -/
def get (value : JsonValue) (key : List UInt8) : Except String JsonValue := do
  let members ← value.getObject
  match members.find? (·.1 == key) with
  | some (_, member) => pure member
  | none => throw "map::at"

/-- `insert(key, value)`: `getObject().emplace(key, value)`, which keeps a member already
under the key. -/
def insert (value : JsonValue) (key : List UInt8) (member : JsonValue) : Except String JsonValue := do
  let members ← value.getObject
  if members.any (·.1 == key) then pure (.object members)
  else pure (.object (members ++ [(key, member)]))

/-- `pushBack(value)`. -/
def pushBack (value : JsonValue) (element : JsonValue) : Except String JsonValue :=
  match value with
  | .array elements => pure (.array (elements ++ [element]))
  | _ => throw "JsonValue type is not ARRAY"

@[simp] theorem insert_object (members : List (List UInt8 × JsonValue)) (key : List UInt8)
    (member : JsonValue) :
    (JsonValue.object members).insert key member =
      .ok (.object (if members.any (·.1 == key) then members else members ++ [(key, member)])) := by
  by_cases found : members.any (·.1 == key) = true
  · rw [if_pos found]
    exact if_pos found
  · rw [if_neg found]
    exact if_neg found

@[simp] theorem pushBack_array (elements : List JsonValue) (element : JsonValue) :
    (JsonValue.array elements).pushBack element = .ok (.array (elements ++ [element])) := rfl

theorem insert_error {value : JsonValue} {key : List UInt8} {member : JsonValue} {message : String}
    (failed : value.insert key member = .error message) : message = "JsonValue type is not OBJECT" := by
  cases value with
  | object members =>
      rw [insert_object] at failed
      cases failed
  | _ => cases failed; rfl

theorem pushBack_error {value element : JsonValue} {message : String}
    (failed : value.pushBack element = .error message) : message = "JsonValue type is not ARRAY" := by
  cases value with
  | array elements => cases failed
  | _ => cases failed; rfl

end JsonValue

end Dynex.Common
