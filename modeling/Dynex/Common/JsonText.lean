import Dynex.Common.JsonValue
import Dynex.Core.AmountText

/-!
# JSON text

`operator<<` and `operator>>` of `Common/JsonValue.cpp`, with `JsonValue::toString` and
`JsonValue::fromString` over them. The printer writes a string's bytes between two quotes as they
are, an integer in decimal, the elements of an array and the members of an object separated by
commas. The reader looks at the first byte that is not a space and reads the value it starts;
`readStringToken` ends a string at the first quote that does not follow a backslash, and keeps a
backslash with the byte after it.

Strings are their bytes. An object is `std::map<std::string, JsonValue>`, which holds and visits
its members in the order of their keys; the model's list of members is that map when its keys
ascend, and the reader builds it so (`assign`). What the C library does with a `double` (the
text of `std::fixed` with `std::setprecision(11)`, and the number `istringstream >>` reads) is
the parameter `DoubleText`. The reader's recursion through `operator>>`, `readArray` and
`readObject` takes a fuel argument, one unit a call; each call reads a byte before the next one,
and `fromString` gives three units a byte of its text.
-/

set_option autoImplicit false

namespace Dynex.Common

def trueText : List UInt8 := [116, 114, 117, 101]
def falseText : List UInt8 := [102, 97, 108, 115, 101]
def nullText : List UInt8 := [110, 117, 108, 108]

/-- What the C library does with a `double`: `fixed` is what `std::fixed` with
`std::setprecision(11)` writes for its bits, `ofText` the bits `istringstream >>` reads from a
text. -/
structure DoubleText where
  fixed : UInt64 → List UInt8
  ofText : List UInt8 → UInt64

/-- `std::less<std::string>`: bytes compare as `unsigned char`, and a proper prefix comes first. -/
def stringLess : List UInt8 → List UInt8 → Bool
  | [], [] => false
  | [], _ :: _ => true
  | _ :: _, [] => false
  | a :: left, b :: right => a < b || (a == b && stringLess left right)

/-- `value[name] = member` on the map of an object: the member replaces the one under its key, or
goes in at the key's place among the ascending keys. -/
def assign : List (List UInt8 × JsonValue) → List UInt8 → JsonValue → List (List UInt8 × JsonValue)
  | [], name, member => [(name, member)]
  | (key, value) :: rest, name, member =>
      if name = key then (name, member) :: rest
      else if stringLess name key then (name, member) :: (key, value) :: rest
      else (key, value) :: assign rest name member

def integerText (value : Int64) : List UInt8 :=
  if value < 0 then 45 :: to_string value.toInt.natAbs else to_string value.toInt.toNat

/-- The loop of the `REAL` case of `operator<<`, on the text reversed: a trailing `0` goes while
the text is longer than one byte and the byte before it is not a point. -/
def trimReversedZeros : List UInt8 → List UInt8
  | 48 :: before :: rest =>
      if before = 46 then 48 :: before :: rest else trimReversedZeros (before :: rest)
  | reversed => reversed

def realText (doubles : DoubleText) (bits : UInt64) : List UInt8 :=
  (trimReversedZeros (doubles.fixed bits).reverse).reverse

mutual
/-- `operator<<(out, jsonValue)`. -/
def print (doubles : DoubleText) : JsonValue → List UInt8
  | .array [] => [91, 93]
  | .array (first :: rest) => 91 :: print doubles first ++ printElements doubles rest ++ [93]
  | .bool valueBool => if valueBool then trueText else falseText
  | .integer valueInteger => integerText valueInteger
  | .nil => nullText
  | .object [] => [123, 125]
  | .object ((key, value) :: rest) =>
      123 :: 34 :: key ++ [34, 58] ++ print doubles value ++ printMembers doubles rest ++ [125]
  | .real valueReal => realText doubles valueReal
  | .string valueString => 34 :: valueString ++ [34]

def printElements (doubles : DoubleText) : List JsonValue → List UInt8
  | [] => []
  | element :: rest => 44 :: print doubles element ++ printElements doubles rest

/-- The members of an object after the first: `,"key":value` each. -/
def printMembers (doubles : DoubleText) : List (List UInt8 × JsonValue) → List UInt8
  | [] => []
  | (key, value) :: rest =>
      44 :: 34 :: key ++ [34, 58] ++ print doubles value ++ printMembers doubles rest
end

section Printing

variable (doubles : DoubleText)

@[simp] theorem print_array_nil : print doubles (.array []) = [91, 93] := rfl

@[simp] theorem print_array_cons (first : JsonValue) (rest : List JsonValue) :
    print doubles (.array (first :: rest)) =
      91 :: print doubles first ++ printElements doubles rest ++ [93] := rfl

@[simp] theorem print_bool (valueBool : Bool) :
    print doubles (.bool valueBool) = if valueBool then trueText else falseText := rfl

@[simp] theorem print_integer (valueInteger : Int64) :
    print doubles (.integer valueInteger) = integerText valueInteger := rfl

@[simp] theorem print_nil : print doubles .nil = nullText := rfl

@[simp] theorem print_object_nil : print doubles (.object []) = [123, 125] := rfl

@[simp] theorem print_object_cons (key : List UInt8) (value : JsonValue)
    (rest : List (List UInt8 × JsonValue)) :
    print doubles (.object ((key, value) :: rest)) =
      123 :: 34 :: key ++ [34, 58] ++ print doubles value ++ printMembers doubles rest ++ [125] :=
  rfl

@[simp] theorem print_real (valueReal : UInt64) :
    print doubles (.real valueReal) = realText doubles valueReal := rfl

@[simp] theorem print_string (valueString : List UInt8) :
    print doubles (.string valueString) = 34 :: valueString ++ [34] := rfl

@[simp] theorem printElements_nil : printElements doubles [] = [] := rfl

@[simp] theorem printElements_cons (element : JsonValue) (rest : List JsonValue) :
    printElements doubles (element :: rest) =
      44 :: print doubles element ++ printElements doubles rest := rfl

@[simp] theorem printMembers_nil : printMembers doubles [] = [] := rfl

@[simp] theorem printMembers_cons (key : List UInt8) (value : JsonValue)
    (rest : List (List UInt8 × JsonValue)) :
    printMembers doubles ((key, value) :: rest) =
      44 :: 34 :: key ++ [34, 58] ++ print doubles value ++ printMembers doubles rest := rfl

end Printing

namespace JsonValue

def toString (doubles : DoubleText) (value : JsonValue) : List UInt8 := print doubles value

end JsonValue

def endOfStream : String := "Unable to parse: unexpected end of stream"

def outOfFuel : String := "out of fuel"

def readChar : List UInt8 → Except String (UInt8 × List UInt8)
  | [] => throw endOfStream
  | c :: rest => pure (c, rest)

def readNonWsChar : List UInt8 → Except String (UInt8 × List UInt8)
  | [] => throw endOfStream
  | c :: rest => if isspace c then readNonWsChar rest else pure (c, rest)

theorem readNonWsChar_cons_of_not_space {c : UInt8} (notSpace : isspace c = false)
    (rest : List UInt8) : readNonWsChar (c :: rest) = .ok (c, rest) := by
  rw [readNonWsChar, if_neg (by simp [notSpace])]
  rfl

/-- `readStringToken(in)`: the bytes up to the first `"`, a backslash taken with the byte after
it. -/
def readStringToken : List UInt8 → Except String (List UInt8 × List UInt8)
  | [] => throw endOfStream
  | 34 :: rest => pure ([], rest)
  -- `readChar` after a backslash at the end of the stream
  | [92] => throw endOfStream
  | 92 :: c :: rest => do
      let (value, rest) ← readStringToken rest
      pure (92 :: c :: value, rest)
  | c :: rest => do
      let (value, rest) ← readStringToken rest
      pure (c :: value, rest)

/-- What `in.read` of `readTrue`, `readFalse` and `readNull` must find after the first byte. -/
def readWord (word : List UInt8) (value : JsonValue) (input : List UInt8) :
    Except String (JsonValue × List UInt8) :=
  if input.take word.length = word then pure (value, input.drop word.length)
  else throw "Unable to parse"

def readTrue : List UInt8 → Except String (JsonValue × List UInt8) :=
  readWord [114, 117, 101] (.bool true)

def readFalse : List UInt8 → Except String (JsonValue × List UInt8) :=
  readWord [97, 108, 115, 101] (.bool false)

def readNull : List UInt8 → Except String (JsonValue × List UInt8) :=
  readWord [117, 108, 108] .nil

def isNumberChar (i : UInt8) : Bool := isdigit i || i == 46

/-- The number `istringstream >>` stores in an `int64_t`: the nearest bound for one out of
range. -/
def clampInt64 (n : Int) : Int64 :=
  if n < Int64.minValue.toInt then Int64.minValue
  else if Int64.maxValue.toInt < n then Int64.maxValue
  else Int64.ofInt n

def integerOfText : List UInt8 → Int64
  | 45 :: digits => if digits.isEmpty then 0 else clampInt64 (-(decimalValue digits : Int))
  | digits => clampInt64 (decimalValue digits)

/-- The sign of an exponent, when `in.peek()` shows one. -/
def exponentSign : List UInt8 → List UInt8 × List UInt8
  | 43 :: rest => ([43], rest)
  | 45 :: rest => ([45], rest)
  | rest => ([], rest)

/-- The exponent `readNumber` takes after a fraction: an `e`, a sign and at least one digit, when
`in.peek()` shows an `e`. -/
def readExponent (input : List UInt8) : Except String (List UInt8 × List UInt8) :=
  match input with
  | 101 :: afterE =>
      let (sign, rest) := exponentSign afterE
      match rest with
      | i :: _ =>
          if isdigit i then pure (101 :: sign ++ rest.takeWhile isdigit, rest.dropWhile isdigit)
          else throw "Unable to parse"
      | [] => throw "Unable to parse"
  | _ => pure ([], input)

/-- `JsonValue::readNumber(in, c)`. -/
def readNumber (doubles : DoubleText) (c : UInt8) (input : List UInt8) :
    Except String (JsonValue × List UInt8) := do
  let taken := input.takeWhile isNumberChar
  let rest := input.dropWhile isNumberChar
  let text := c :: taken
  let dots := taken.count 46
  if 0 < dots then
    if 1 < dots then throw "Unable to parse"
    let (exponent, rest) ← readExponent rest
    pure (.real (doubles.ofText (text ++ exponent)), rest)
  else
    if 1 < text.length ∧ (text[0]? = some 48 ∨ (text[0]? = some 45 ∧ text[1]? = some 48)) then
      throw "Unable to parse"
    pure (.integer (integerOfText text), rest)

def readString (input : List UInt8) : Except String (JsonValue × List UInt8) := do
  let (value, rest) ← readStringToken input
  pure (.string value, rest)

mutual
/-- `operator>>(in, jsonValue)`. -/
def readValue (doubles : DoubleText) : Nat → List UInt8 → Except String (JsonValue × List UInt8)
  | 0, _ => throw outOfFuel
  | fuel + 1, input => do
      let (c, rest) ← readNonWsChar input
      if c = 91 then readArray doubles fuel rest
      else if c = 116 then readTrue rest
      else if c = 102 then readFalse rest
      else if c = 45 ∨ isdigit c then readNumber doubles c rest
      else if c = 110 then readNull rest
      else if c = 123 then readObject doubles fuel rest
      else if c = 34 then readString rest
      else throw "Unable to parse"

/-- `JsonValue::readArray(in)`. -/
def readArray (doubles : DoubleText) : Nat → List UInt8 → Except String (JsonValue × List UInt8)
  | 0, _ => throw outOfFuel
  | fuel + 1, input => do
      let (c, rest) ← readNonWsChar input
      if c = 93 then pure (.array [], rest)
      else
        -- `in.putback(c)` before the first element
        let (elements, rest) ← readElements doubles fuel [] (c :: rest)
        pure (.array elements, rest)

/-- The `for (;;)` loop of `readArray`, after the elements `value`. -/
def readElements (doubles : DoubleText) :
    Nat → List JsonValue → List UInt8 → Except String (List JsonValue × List UInt8)
  | 0, _, _ => throw outOfFuel
  | fuel + 1, value, input => do
      let (element, rest) ← readValue doubles fuel input
      let (c, rest) ← readNonWsChar rest
      if c = 93 then pure (value ++ [element], rest)
      else if c ≠ 44 then throw "Unable to parse"
      else readElements doubles fuel (value ++ [element]) rest

/-- `JsonValue::readObject(in)`. -/
def readObject (doubles : DoubleText) : Nat → List UInt8 → Except String (JsonValue × List UInt8)
  | 0, _ => throw outOfFuel
  | fuel + 1, input => do
      let (c, rest) ← readNonWsChar input
      if c = 125 then pure (.object [], rest)
      else
        let (members, rest) ← readMembers doubles fuel [] c rest
        pure (.object members, rest)

/-- The `for (;;)` loop of `readObject`, after the members `value`, with the byte `c` read
before the round. -/
def readMembers (doubles : DoubleText) :
    Nat → List (List UInt8 × JsonValue) → UInt8 → List UInt8 →
      Except String (List (List UInt8 × JsonValue) × List UInt8)
  | 0, _, _, _ => throw outOfFuel
  | fuel + 1, value, c, input => do
      if c ≠ 34 then throw "Unable to parse"
      let (name, rest) ← readStringToken input
      let (c, rest) ← readNonWsChar rest
      if c ≠ 58 then throw "Unable to parse"
      -- `in >> value[name]`: the member read replaces whatever the key held
      let (member, rest) ← readValue doubles fuel rest
      let value := assign value name member
      let (c, rest) ← readNonWsChar rest
      if c = 125 then pure (value, rest)
      else if c ≠ 44 then throw "Unable to parse"
      else
        let (c, rest) ← readNonWsChar rest
        readMembers doubles fuel value c rest
end

/-! The rounds of the reader with fuel left, one equation a function, so that a proof reads one
round without unfolding the others. -/

section Rounds

variable (doubles : DoubleText) (fuel : Nat)

theorem readValue_succ (input : List UInt8) :
    readValue doubles (fuel + 1) input = (do
      let (c, rest) ← readNonWsChar input
      if c = 91 then readArray doubles fuel rest
      else if c = 116 then readTrue rest
      else if c = 102 then readFalse rest
      else if c = 45 ∨ isdigit c then readNumber doubles c rest
      else if c = 110 then readNull rest
      else if c = 123 then readObject doubles fuel rest
      else if c = 34 then readString rest
      else throw "Unable to parse") := rfl

theorem readArray_succ (input : List UInt8) :
    readArray doubles (fuel + 1) input = (do
      let (c, rest) ← readNonWsChar input
      if c = 93 then pure (.array [], rest)
      else
        let (elements, rest) ← readElements doubles fuel [] (c :: rest)
        pure (.array elements, rest)) := rfl

theorem readElements_succ (value : List JsonValue) (input : List UInt8) :
    readElements doubles (fuel + 1) value input = (do
      let (element, rest) ← readValue doubles fuel input
      let (c, rest) ← readNonWsChar rest
      if c = 93 then pure (value ++ [element], rest)
      else if c ≠ 44 then throw "Unable to parse"
      else readElements doubles fuel (value ++ [element]) rest) := rfl

theorem readObject_succ (input : List UInt8) :
    readObject doubles (fuel + 1) input = (do
      let (c, rest) ← readNonWsChar input
      if c = 125 then pure (.object [], rest)
      else
        let (members, rest) ← readMembers doubles fuel [] c rest
        pure (.object members, rest)) := rfl

theorem readMembers_succ (value : List (List UInt8 × JsonValue)) (c : UInt8)
    (input : List UInt8) :
    readMembers doubles (fuel + 1) value c input = (do
      if c ≠ 34 then throw "Unable to parse"
      let (name, rest) ← readStringToken input
      let (c, rest) ← readNonWsChar rest
      if c ≠ 58 then throw "Unable to parse"
      let (member, rest) ← readValue doubles fuel rest
      let value := assign value name member
      let (c, rest) ← readNonWsChar rest
      if c = 125 then pure (value, rest)
      else if c ≠ 44 then throw "Unable to parse"
      else
        let (c, rest) ← readNonWsChar rest
        readMembers doubles fuel value c rest) := rfl

end Rounds

namespace JsonValue

/-- `JsonValue::fromString(source)`: `none` where it throws. What follows the value is not
looked at. -/
def fromString (doubles : DoubleText) (source : List UInt8) : Option JsonValue :=
  match readValue doubles (3 * source.length) source with
  | .ok (value, _) => some value
  | .error _ => none

end JsonValue

end Dynex.Common
