import Dynex.Common.JsonValue
import Dynex.Serialization.ISerializer

/-!
# Reading values out of a JSON tree

`JsonInputValueSerializer.cpp`. The serializer walks a `JsonValue` it never changes: `chain`
holds the values it has entered, the innermost first, and `idxs` the next index of each array it
has entered. A member looks its name up in the innermost object, or takes the next element of
the innermost array; every number is read with `getInteger` and cast to the field's type. The
source's unchecked `back()` of an empty vector fails here with the expression as the message.
-/

set_option autoImplicit false

namespace Dynex

open Common

structure JsonInputValueSerializer where
  chain : List JsonValue
  idxs : List Nat
  deriving Inhabited

namespace JsonInputValueSerializer

abbrev ValueReader := StateT JsonInputValueSerializer (Except String)

def liftExcept {α : Type} : Except String α → ValueReader α
  | .ok value => pure value
  | .error message => throw message

/-- The constructor: only an object can be read. -/
def create (value : JsonValue) : Except String JsonInputValueSerializer :=
  if !value.isObject then
    throw "Serializer doesn't support this type of serialization: Object expected."
  else pure ⟨[value], []⟩

/-- `chain.back()`. -/
def top : ValueReader JsonValue := do
  match (← get).chain with
  | [] => throw "chain.back()"
  | value :: _ => pure value

/-- `idxs.back()++`. -/
def nextIndex : ValueReader Nat := do
  let s ← get
  match s.idxs with
  | [] => throw "idxs.back()"
  | index :: rest =>
      set { s with idxs := (index + 1) :: rest }
      pure index

def pushChain (value : JsonValue) : ValueReader Unit :=
  modify fun s => { s with chain := value :: s.chain }

def beginObject (name : List UInt8) : ValueReader Bool := do
  let parent ← top
  if parent.isArray then
    let v ← liftExcept (parent.index (← nextIndex))
    pushChain v
    return true
  if ← liftExcept (parent.contains name) then
    let v ← liftExcept (parent.get name)
    pushChain v
    return true
  return false

def endObject : ValueReader Unit := do
  let s ← get
  match s.chain with
  | [] => throw "!chain.empty()"
  | _ :: rest => set { s with chain := rest }

/-- `beginArray(size, name)`: the size is the array's, or zero when the name is absent. -/
def beginArray (_size : Nat) (name : List UInt8) : ValueReader (Nat × Bool) := do
  let parent ← top
  if ← liftExcept (parent.contains name) then
    let arr ← liftExcept (parent.get name)
    let size ← liftExcept arr.size
    modify fun s => ⟨arr :: s.chain, 0 :: s.idxs⟩
    return (size, true)
  return (0, false)

def endArray : ValueReader Unit := do
  let s ← get
  match s.chain, s.idxs with
  | [], _ => throw "!chain.empty()"
  | _, [] => throw "!idxs.empty()"
  | _ :: chain, _ :: idxs => set (⟨chain, idxs⟩ : JsonInputValueSerializer)

/-- `getValue(name)`: the next element of an array, or the member `name` of an object. -/
def getValue (name : List UInt8) : ValueReader (Option JsonValue) := do
  let val ← top
  if val.isArray then
    return some (← liftExcept (val.index (← nextIndex)))
  if ← liftExcept (val.contains name) then
    return some (← liftExcept (val.get name))
  return none

/-- `getNumber(name, v)`: `v = static_cast<T>(ptr->getInteger())` when the value is there. -/
def getNumber {α : Type} (cast : Int64 → α) (value : α) (name : List UInt8) :
    ValueReader (α × Bool) := do
  match ← getValue name with
  | none => return (value, false)
  | some ptr => return (cast (← liftExcept ptr.getInteger), true)

def operatorUInt8 := getNumber fun (integer : Int64) => integer.toUInt64.toUInt8
def operatorInt16 := getNumber Int64.toInt16
def operatorUInt16 := getNumber fun (integer : Int64) => integer.toUInt64.toUInt16
def operatorInt32 := getNumber Int64.toInt32
def operatorUInt32 := getNumber fun (integer : Int64) => integer.toUInt64.toUInt32
def operatorInt64 := getNumber fun (integer : Int64) => integer
def operatorUInt64 := getNumber Int64.toUInt64
def operatorDouble := getNumber fun (integer : Int64) => (Float.ofInt integer.toInt).toBits

def operatorString (value : List UInt8) (name : List UInt8) : ValueReader (List UInt8 × Bool) := do
  match ← getValue name with
  | none => return (value, false)
  | some ptr => return (← liftExcept ptr.getString, true)

def operatorBool (value : Bool) (name : List UInt8) : ValueReader (Bool × Bool) := do
  match ← getValue name with
  | none => return (value, false)
  | some ptr => return (← liftExcept ptr.getBool, true)

end JsonInputValueSerializer

end Dynex
