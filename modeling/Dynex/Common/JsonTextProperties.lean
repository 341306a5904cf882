import Dynex.Common.JsonText
import Dynex.Core.AmountTextProperties
import Dynex.Lib.ByteCodec
import Dynex.Lib.FallibleState

/-!
# JSON text read back

`fromString (toString v) = some v` for every value `v` whose strings and keys `readStringToken`
gives back (`tokenSafe`), with no `REAL`, and whose objects hold their keys ascending, as a
`std::map` does (`readable`). Integers come back whole, `INT64_MIN` included. The printer writes
a string's bytes as they are while `readStringToken` stops at the first quote after no
backslash and takes a backslash with the byte after it: a string reads back exactly when it is
`tokenSafe`. The string `"` comes back empty, and a string ending in a single backslash is not
read at all.

The argument follows the printer: scanner lemmas for each kind of token (`readStringToken`
before a quote, the digits of an integer before a byte that does not continue a number), then
three mutual theorems by structural recursion over values, the elements after the first and the
members after the first, with `readFuel` the fuel each needs.
-/

set_option autoImplicit false

namespace Dynex.Common

/-! ## Strings -/

/-- A string that `readStringToken` gives back from between two quotes: no quote but right after
a backslash, and no backslash without a byte after it. -/
def tokenSafe : List UInt8 → Bool
  | [] => true
  | 34 :: _ => false
  | [92] => false
  | 92 :: _ :: rest => tokenSafe rest
  | _ :: rest => tokenSafe rest

theorem readStringToken_plain {c : UInt8} (notQuote : c ≠ 34) (notBackslash : c ≠ 92)
    (rest : List UInt8) :
    readStringToken (c :: rest) = (do
      let (value, rest) ← readStringToken rest
      pure (c :: value, rest)) :=
  readStringToken.eq_5 c rest notQuote (by simp [notBackslash]) (by simp [notBackslash])

theorem readStringToken_tokenSafe {value : List UInt8} (safe : tokenSafe value = true)
    (rest : List UInt8) : readStringToken (value ++ 34 :: rest) = .ok (value, rest) := by
  fun_induction tokenSafe value with
  | case1 => rfl
  | case2 => cases safe
  | case3 => cases safe
  | case4 c tail ih =>
      simp only [List.cons_append, readStringToken, ih safe]
      rfl
  | case5 c tail notQuote notLast notEscape ih =>
      have notBackslash : c ≠ 92 := by
        intro same
        subst same
        cases tail with
        | nil => exact notLast rfl rfl
        | cons next after => exact notEscape next after rfl rfl
      rw [List.cons_append, readStringToken_plain notQuote notBackslash, ih safe]
      rfl

/-- A string read back whole from before a quote is `tokenSafe`. -/
theorem tokenSafe_of_readStringToken {value rest after : List UInt8}
    (read : readStringToken (value ++ 34 :: rest) = .ok (value, after)) :
    tokenSafe value = true := by
  fun_induction tokenSafe value generalizing after with
  | case1 => rfl
  | case2 tail =>
      simp only [List.cons_append, readStringToken] at read
      cases read
  | case3 =>
      simp only [List.cons_append, List.nil_append, readStringToken] at read
      obtain ⟨⟨token, left⟩, -, pack⟩ := Codec.except_bind_ok.mp read
      simp [pure, Except.pure] at pack
  | case4 c tail ih =>
      simp only [List.cons_append, readStringToken] at read
      obtain ⟨⟨token, left⟩, tailRead, pack⟩ := Codec.except_bind_ok.mp read
      obtain ⟨rfl, rfl⟩ : token = tail ∧ left = after := by simpa [pure, Except.pure] using pack
      exact ih tailRead
  | case5 c tail notQuote notLast notEscape ih =>
      have notBackslash : c ≠ 92 := by
        intro same
        subst same
        cases tail with
        | nil => exact notLast rfl rfl
        | cons next after => exact notEscape next after rfl rfl
      rw [List.cons_append, readStringToken_plain notQuote notBackslash] at read
      obtain ⟨⟨token, left⟩, tailRead, pack⟩ := Codec.except_bind_ok.mp read
      obtain ⟨rfl, rfl⟩ : token = tail ∧ left = after := by simpa [pure, Except.pure] using pack
      exact ih tailRead

/-! ## Integers -/

def EndsNumber (rest : List UInt8) : Prop := rest.takeWhile isNumberChar = []

theorem endsNumber_nil : EndsNumber [] := rfl

theorem endsNumber_cons {c : UInt8} (stop : isNumberChar c = false) (rest : List UInt8) :
    EndsNumber (c :: rest) := by
  simp [EndsNumber, stop]

theorem toNat_digitByte {digit : Nat} (small : digit < 10) :
    ((48 + digit).toUInt8).toNat = 48 + digit :=
  UInt8.toNat_ofNat_of_lt' (by simp only [UInt8.size]; omega)

theorem to_string_head {value : Nat} (positive : 0 < value) :
    ∃ digit, 0 < digit ∧ digit < 10 ∧ (to_string value).head? = some (48 + digit).toUInt8 := by
  have nonzero : value ≠ 0 := by omega
  have digitsNe : Nat.digits 10 value ≠ [] := Nat.digits_ne_nil_iff_ne_zero.mpr nonzero
  refine ⟨(Nat.digits 10 value).getLast digitsNe,
    Nat.pos_of_ne_zero (Nat.getLast_digit_ne_zero 10 nonzero),
    Nat.digits_lt_base (by decide) (List.getLast_mem digitsNe), ?_⟩
  rw [to_string, if_neg nonzero, List.head?_map, List.head?_reverse,
    List.getLast?_eq_some_getLast digitsNe]
  rfl

theorem to_string_cons (value : Nat) :
    ∃ c digits, to_string value = c :: digits ∧ isdigit c = true := by
  cases text : to_string value with
  | nil =>
      have width : 0 < (to_string value).length := by
        unfold to_string
        split
        · simp
        · rename_i nonzero
          simp only [List.length_map, List.length_reverse]
          exact List.length_pos_of_ne_nil (Nat.digits_ne_nil_iff_ne_zero.mpr nonzero)
      rw [text] at width
      cases width
  | cons c digits => exact ⟨c, digits, rfl, isdigit_to_string value c (by simp [text])⟩

theorem clampInt64_toInt (value : Int64) : clampInt64 value.toInt = value := by
  rw [clampInt64, if_neg (Int.not_lt.mpr (Int64.minValue_le_toInt value)),
    if_neg (Int.not_lt.mpr (Int64.toInt_le value)), Int64.ofInt_toInt]

theorem integerOfText_of_digit {c : UInt8} (digit : isdigit c = true) (digits : List UInt8) :
    integerOfText (c :: digits) = clampInt64 (decimalValue (c :: digits)) := by
  have notMinus : c ≠ 45 := by
    rintro rfl
    cases digit
  simp [integerOfText, notMinus]

theorem integerOfText_to_string (value : Nat) :
    integerOfText (to_string value) = clampInt64 value := by
  obtain ⟨c, digits, text, digit⟩ := to_string_cons value
  rw [text, integerOfText_of_digit digit, ← text, decimalValue_to_string]

theorem integerOfText_integerText (value : Int64) : integerOfText (integerText value) = value := by
  unfold integerText
  split
  · rename_i negative
    have below : value.toInt < 0 := by
      simpa [Int64.lt_iff_toInt_lt] using negative
    obtain ⟨c, digits, text, -⟩ := to_string_cons value.toInt.natAbs
    have magnitude : -((decimalValue (to_string value.toInt.natAbs) : Nat) : Int) = value.toInt := by
      rw [decimalValue_to_string]
      omega
    simp only [integerOfText, text, List.isEmpty_cons, Bool.false_eq_true, if_false]
    rw [← text, magnitude, clampInt64_toInt]
  · rename_i nonnegative
    have above : 0 ≤ value.toInt := by
      simpa [Int64.lt_iff_toInt_lt] using nonnegative
    rw [integerOfText_to_string, show ((value.toInt.toNat : Nat) : Int) = value.toInt by omega,
      clampInt64_toInt]

/-- The text of an integer passes the leading-zero test of `readNumber`. -/
theorem integerText_no_leading_zero (value : Int64) :
    ¬ (1 < (integerText value).length ∧ ((integerText value)[0]? = some 48 ∨
      ((integerText value)[0]? = some 45 ∧ (integerText value)[1]? = some 48))) := by
  unfold integerText
  split
  · rename_i negative
    have positive : 0 < value.toInt.natAbs := by
      have below : value.toInt < 0 := by simpa [Int64.lt_iff_toInt_lt] using negative
      omega
    obtain ⟨digit, nonzero, small, head⟩ := to_string_head positive
    have second : (to_string value.toInt.natAbs)[0]? ≠ some 48 := by
      rw [← List.head?_eq_getElem?, head]
      intro same
      have byte := congrArg (fun byte : Option UInt8 => (byte.map UInt8.toNat).getD 0) same
      simp only [Option.map_some, Option.getD_some, toNat_digitByte small] at byte
      simp at byte
      omega
    simp [second]
  · by_cases zero : value.toInt.toNat = 0
    · simp [zero, to_string]
    · obtain ⟨digit, nonzero, small, head⟩ := to_string_head (Nat.pos_of_ne_zero zero)
      have byte : ((48 + digit).toUInt8).toNat = 48 + digit := toNat_digitByte small
      have first : (48 + digit).toUInt8 ≠ 48 ∧ (48 + digit).toUInt8 ≠ 45 := by
        constructor <;> intro same <;> rw [same] at byte <;> simp at byte <;> omega
      rw [← List.head?_eq_getElem?, head]
      rintro ⟨-, same | ⟨same, -⟩⟩
      · exact first.1 (Option.some_injective _ same)
      · exact first.2 (Option.some_injective _ same)

theorem readNumber_integer (doubles : DoubleText) {c : UInt8} {digits rest : List UInt8}
    (allDigits : ∀ d ∈ digits, isdigit d = true) (ends : EndsNumber rest)
    (noLeadingZero : ¬ (1 < (c :: digits).length ∧ ((c :: digits)[0]? = some 48 ∨
      ((c :: digits)[0]? = some 45 ∧ (c :: digits)[1]? = some 48)))) :
    readNumber doubles c (digits ++ rest) = .ok (.integer (integerOfText (c :: digits)), rest) := by
  have numberChars : ∀ d ∈ digits, isNumberChar d = true := fun d member => by
    simp [isNumberChar, allDigits d member]
  have taken : (digits ++ rest).takeWhile isNumberChar = digits := by
    rw [List.takeWhile_append_of_pos numberChars, ends, List.append_nil]
  have dropped : (digits ++ rest).dropWhile isNumberChar = rest := by
    have whole := @List.takeWhile_append_dropWhile _ isNumberChar rest
    have stop : rest.takeWhile isNumberChar = [] := ends
    rw [stop, List.nil_append] at whole
    rw [List.dropWhile_append_of_pos numberChars, whole]
  have noDots : digits.count 46 = 0 := List.count_eq_zero.mpr fun member => by
    have point := allDigits 46 member
    exact absurd point (by decide)
  simp only [readNumber, taken, dropped, noDots, Nat.lt_irrefl, if_false]
  rw [if_neg noLeadingZero]
  rfl

theorem integerText_cons (value : Int64) :
    ∃ c digits, integerText value = c :: digits ∧ (c = 45 ∨ isdigit c = true) ∧
      ∀ d ∈ digits, isdigit d = true := by
  unfold integerText
  split
  · exact ⟨45, _, rfl, Or.inl rfl, isdigit_to_string _⟩
  · obtain ⟨c, digits, text, digit⟩ := to_string_cons value.toInt.toNat
    refine ⟨c, digits, text, Or.inr digit, fun d member => isdigit_to_string value.toInt.toNat d ?_⟩
    rw [text]
    exact List.mem_cons_of_mem c member

/-! ## What `operator>>` does with the first byte -/

section Dispatch

variable (doubles : DoubleText) (fuel : Nat) (rest : List UInt8)

theorem readValue_array : readValue doubles (fuel + 1) (91 :: rest) = readArray doubles fuel rest :=
  rfl

theorem readValue_object :
    readValue doubles (fuel + 1) (123 :: rest) = readObject doubles fuel rest := rfl

theorem readValue_string : readValue doubles (fuel + 1) (34 :: rest) = readString rest := rfl

theorem readValue_readTrue : readValue doubles (fuel + 1) (116 :: rest) = readTrue rest := rfl

theorem readValue_readFalse : readValue doubles (fuel + 1) (102 :: rest) = readFalse rest := rfl

theorem readValue_readNull : readValue doubles (fuel + 1) (110 :: rest) = readNull rest := rfl

theorem readValue_number {c : UInt8} (start : c = 45 ∨ isdigit c = true) :
    readValue doubles (fuel + 1) (c :: rest) = readNumber doubles c rest := by
  rcases start with rfl | digit
  · rfl
  · have notSpace := isspace_of_isdigit digit
    have others : c ≠ 91 ∧ c ≠ 116 ∧ c ≠ 102 := by
      refine ⟨?_, ?_, ?_⟩ <;> rintro rfl <;> cases digit
    simp [readValue_succ, readNonWsChar_cons_of_not_space notSpace, others.1, others.2.1,
      others.2.2, digit]

end Dispatch

theorem readWord_append (word : List UInt8) (value : JsonValue) (rest : List UInt8) :
    readWord word value (word ++ rest) = .ok (value, rest) := by
  simp [readWord]

theorem readValue_trueText (doubles : DoubleText) (fuel : Nat) (rest : List UInt8) :
    readValue doubles (fuel + 1) (trueText ++ rest) = .ok (.bool true, rest) := by
  rw [trueText, List.cons_append, readValue_readTrue, readTrue, readWord_append]

theorem readValue_falseText (doubles : DoubleText) (fuel : Nat) (rest : List UInt8) :
    readValue doubles (fuel + 1) (falseText ++ rest) = .ok (.bool false, rest) := by
  rw [falseText, List.cons_append, readValue_readFalse, readFalse, readWord_append]

theorem readValue_nullText (doubles : DoubleText) (fuel : Nat) (rest : List UInt8) :
    readValue doubles (fuel + 1) (nullText ++ rest) = .ok (.nil, rest) := by
  rw [nullText, List.cons_append, readValue_readNull, readNull, readWord_append]

theorem readValue_integerText (doubles : DoubleText) (fuel : Nat) (value : Int64)
    {rest : List UInt8} (ends : EndsNumber rest) :
    readValue doubles (fuel + 1) (integerText value ++ rest) = .ok (.integer value, rest) := by
  obtain ⟨c, digits, text, start, allDigits⟩ := integerText_cons value
  have leading := integerText_no_leading_zero value
  rw [text] at leading ⊢
  rw [List.cons_append, readValue_number doubles fuel (digits ++ rest) start,
    readNumber_integer doubles allDigits ends leading, ← text, integerOfText_integerText]

theorem readValue_stringText (doubles : DoubleText) (fuel : Nat) {value : List UInt8}
    (safe : tokenSafe value = true) (rest : List UInt8) :
    readValue doubles (fuel + 1) (34 :: (value ++ 34 :: rest)) = .ok (.string value, rest) := by
  rw [readValue_string, readString, readStringToken_tokenSafe safe]
  rfl

/-! ## The loops of `readArray` and `readObject` -/

section Loops

variable (doubles : DoubleText) (fuel : Nat)

theorem readArray_close (rest : List UInt8) :
    readArray doubles (fuel + 1) (93 :: rest) = .ok (.array [], rest) := rfl

theorem readArray_open {c : UInt8} {tail rest : List UInt8} {elements : List JsonValue}
    (notSpace : isspace c = false) (notClose : c ≠ 93)
    (read : readElements doubles fuel [] (c :: tail) = .ok (elements, rest)) :
    readArray doubles (fuel + 1) (c :: tail) = .ok (.array elements, rest) := by
  simp [readArray_succ, readNonWsChar_cons_of_not_space notSpace, notClose, read]

theorem readElements_close {acc : List JsonValue} {input rest : List UInt8} {element : JsonValue}
    (read : readValue doubles fuel input = .ok (element, 93 :: rest)) :
    readElements doubles (fuel + 1) acc input = .ok (acc ++ [element], rest) := by
  simp [readElements_succ, read, @readNonWsChar_cons_of_not_space 93 (by decide)]

theorem readElements_next {acc : List JsonValue} {input more : List UInt8} {element : JsonValue}
    (read : readValue doubles fuel input = .ok (element, 44 :: more)) :
    readElements doubles (fuel + 1) acc input = readElements doubles fuel (acc ++ [element]) more := by
  simp [readElements_succ, read, @readNonWsChar_cons_of_not_space 44 (by decide)]

theorem readObject_close (rest : List UInt8) :
    readObject doubles (fuel + 1) (125 :: rest) = .ok (.object [], rest) := rfl

theorem readObject_open {tail rest : List UInt8} {members : List (List UInt8 × JsonValue)}
    (read : readMembers doubles fuel [] 34 tail = .ok (members, rest)) :
    readObject doubles (fuel + 1) (34 :: tail) = .ok (.object members, rest) := by
  simp [readObject_succ, @readNonWsChar_cons_of_not_space 34 (by decide), read]

theorem readMembers_close {acc : List (List UInt8 × JsonValue)} {input after rest key : List UInt8}
    {member : JsonValue} (name : readStringToken input = .ok (key, 58 :: after))
    (read : readValue doubles fuel after = .ok (member, 125 :: rest)) :
    readMembers doubles (fuel + 1) acc 34 input = .ok (assign acc key member, rest) := by
  simp [readMembers_succ, name, read, @readNonWsChar_cons_of_not_space 58 (by decide),
    @readNonWsChar_cons_of_not_space 125 (by decide)]

theorem readMembers_next {acc : List (List UInt8 × JsonValue)} {input after more key : List UInt8}
    {member : JsonValue} (name : readStringToken input = .ok (key, 58 :: after))
    (read : readValue doubles fuel after = .ok (member, 44 :: 34 :: more)) :
    readMembers doubles (fuel + 1) acc 34 input =
      readMembers doubles fuel (assign acc key member) 34 more := by
  simp [readMembers_succ, name, read, @readNonWsChar_cons_of_not_space 58 (by decide),
    @readNonWsChar_cons_of_not_space 44 (by decide), @readNonWsChar_cons_of_not_space 34 (by decide)]

end Loops

/-! ## The order of keys -/

theorem stringLess_irrefl (key : List UInt8) : stringLess key key = false := by
  induction key with
  | nil => rfl
  | cons c rest ih => simp [stringLess, ih]

theorem stringLess_asymm {left right : List UInt8} (less : stringLess left right = true) :
    stringLess right left = false := by
  induction left generalizing right with
  | nil =>
      cases right with
      | nil => cases less
      | cons b right => rfl
  | cons a left ih =>
      cases right with
      | nil => cases less
      | cons b right =>
          simp only [stringLess, Bool.or_eq_true, decide_eq_true_eq, Bool.and_eq_true,
            beq_iff_eq] at less
          simp only [stringLess, Bool.or_eq_false_iff, decide_eq_false_iff_not,
            Bool.and_eq_false_imp, beq_iff_eq]
          rcases less with below | ⟨rfl, rest⟩
          · refine ⟨fun above => ?_, fun same => ?_⟩
            · rw [UInt8.lt_iff_toNat_lt] at below above
              omega
            · rw [same] at below
              exact absurd below (UInt8.lt_irrefl _)
          · exact ⟨UInt8.lt_irrefl _, fun _ => ih rest⟩

theorem assign_of_lt {members : List (List UInt8 × JsonValue)} {name : List UInt8}
    (above : ∀ entry ∈ members, stringLess entry.1 name = true) (member : JsonValue) :
    assign members name member = members ++ [(name, member)] := by
  induction members with
  | nil => rfl
  | cons entry rest ih =>
      obtain ⟨key, value⟩ := entry
      have less : stringLess key name = true := above (key, value) (by simp)
      have other : name ≠ key := by
        rintro rfl
        rw [stringLess_irrefl] at less
        cases less
      rw [assign, if_neg other, if_neg (by rw [stringLess_asymm less]; decide),
        ih (fun entry member => above entry (by simp [member]))]
      rfl

theorem keys_below {acc others : List (List UInt8 × JsonValue)} {key : List UInt8}
    {member : JsonValue}
    (ascending : (acc ++ (key, member) :: others).Pairwise
      fun left right => stringLess left.1 right.1 = true) :
    ∀ entry ∈ acc, stringLess entry.1 key = true := fun entry earlier =>
  (List.pairwise_append.mp ascending).2.2 entry earlier (key, member) (by simp)

/-! ## The values that read back -/

mutual
/-- The values whose text reads back: no `REAL`, every string and key `tokenSafe`, and the keys
of every object ascending, the order in which the map holds them. -/
def readable : JsonValue → Bool
  | .array elements => readableElements elements
  | .bool _ => true
  | .integer _ => true
  | .nil => true
  | .object members =>
      decide (members.Pairwise fun left right => stringLess left.1 right.1 = true) &&
        readableMembers members
  | .real _ => false
  | .string value => tokenSafe value

def readableElements : List JsonValue → Bool
  | [] => true
  | element :: rest => readable element && readableElements rest

def readableMembers : List (List UInt8 × JsonValue) → Bool
  | [] => true
  | (key, value) :: rest => tokenSafe key && readable value && readableMembers rest
end

@[simp] theorem readable_array (elements : List JsonValue) :
    readable (.array elements) = readableElements elements := rfl

@[simp] theorem readable_bool (valueBool : Bool) : readable (.bool valueBool) = true := rfl

@[simp] theorem readable_integer (value : Int64) : readable (.integer value) = true := rfl

@[simp] theorem readable_nil : readable .nil = true := rfl

@[simp] theorem readable_object (members : List (List UInt8 × JsonValue)) :
    readable (.object members) =
      (decide (members.Pairwise fun left right => stringLess left.1 right.1 = true) &&
        readableMembers members) := rfl

@[simp] theorem readable_real (bits : UInt64) : readable (.real bits) = false := rfl

@[simp] theorem readable_string (value : List UInt8) : readable (.string value) = tokenSafe value :=
  rfl

@[simp] theorem readableElements_nil : readableElements [] = true := rfl

@[simp] theorem readableElements_cons (element : JsonValue) (rest : List JsonValue) :
    readableElements (element :: rest) = (readable element && readableElements rest) := rfl

@[simp] theorem readableMembers_nil : readableMembers [] = true := rfl

@[simp] theorem readableMembers_cons (key : List UInt8) (value : JsonValue)
    (rest : List (List UInt8 × JsonValue)) :
    readableMembers ((key, value) :: rest) =
      (tokenSafe key && readable value && readableMembers rest) := rfl

mutual
/-- The fuel `readValue` takes to read the text of a value back: a unit for `operator>>`, one
for `readArray` or `readObject`, and a unit for each round of their loops. -/
def readFuel : JsonValue → Nat
  | .array elements => 2 + readFuelElements elements
  | .object members => 2 + readFuelMembers members
  | _ => 1

def readFuelElements : List JsonValue → Nat
  | [] => 0
  | element :: rest => 1 + readFuel element + readFuelElements rest

def readFuelMembers : List (List UInt8 × JsonValue) → Nat
  | [] => 0
  | (_, value) :: rest => 1 + readFuel value + readFuelMembers rest
end

@[simp] theorem readFuel_array (elements : List JsonValue) :
    readFuel (.array elements) = 2 + readFuelElements elements := rfl

@[simp] theorem readFuel_bool (valueBool : Bool) : readFuel (.bool valueBool) = 1 := rfl

@[simp] theorem readFuel_integer (value : Int64) : readFuel (.integer value) = 1 := rfl

@[simp] theorem readFuel_nil : readFuel .nil = 1 := rfl

@[simp] theorem readFuel_object (members : List (List UInt8 × JsonValue)) :
    readFuel (.object members) = 2 + readFuelMembers members := rfl

@[simp] theorem readFuel_string (value : List UInt8) : readFuel (.string value) = 1 := rfl

@[simp] theorem readFuelElements_nil : readFuelElements [] = 0 := rfl

@[simp] theorem readFuelElements_cons (element : JsonValue) (rest : List JsonValue) :
    readFuelElements (element :: rest) = 1 + readFuel element + readFuelElements rest := rfl

@[simp] theorem readFuelMembers_nil : readFuelMembers [] = 0 := rfl

@[simp] theorem readFuelMembers_cons (key : List UInt8) (value : JsonValue)
    (rest : List (List UInt8 × JsonValue)) :
    readFuelMembers ((key, value) :: rest) = 1 + readFuel value + readFuelMembers rest := rfl

def ReadsBack (doubles : DoubleText) (value : JsonValue) : Prop :=
  ∀ fuel rest, readFuel value ≤ fuel → EndsNumber rest →
    readValue doubles fuel (print doubles value ++ rest) = .ok (value, rest)

/-- The text of a value starts with a byte that is not a space and does not close an array. -/
theorem print_head (doubles : DoubleText) {value : JsonValue} (safe : readable value = true) :
    ∃ c tail, print doubles value = c :: tail ∧ isspace c = false ∧ c ≠ 93 := by
  cases value with
  | array elements =>
      cases elements with
      | nil => exact ⟨91, [93], rfl, by decide, by decide⟩
      | cons first rest =>
          exact ⟨91, print doubles first ++ printElements doubles rest ++ [93], rfl, by decide,
            by decide⟩
  | bool valueBool =>
      cases valueBool with
      | false => exact ⟨102, _, rfl, by decide, by decide⟩
      | true => exact ⟨116, _, rfl, by decide, by decide⟩
  | integer valueInteger =>
      obtain ⟨c, digits, text, start, -⟩ := integerText_cons valueInteger
      refine ⟨c, digits, text, ?_, ?_⟩
      · rcases start with rfl | digit
        · decide
        · exact isspace_of_isdigit digit
      · rintro rfl
        rcases start with minus | digit
        · cases minus
        · cases digit
  | nil => exact ⟨110, _, rfl, by decide, by decide⟩
  | object members =>
      cases members with
      | nil => exact ⟨123, [125], rfl, by decide, by decide⟩
      | cons first rest =>
          obtain ⟨key, member⟩ := first
          exact ⟨123, 34 :: key ++ [34, 58] ++ print doubles member ++ printMembers doubles rest ++ [125],
            rfl, by decide, by decide⟩
  | real bits => simp at safe
  | string valueString => exact ⟨34, valueString ++ [34], rfl, by decide, by decide⟩

/-! ## The round trip, one case a constructor -/

section RoundTrip

variable (doubles : DoubleText)

/-- The loop of `readArray` reads back the elements `first :: others` before the closing
bracket. -/
def ElementsReadBack (first : JsonValue) (others : List JsonValue) : Prop :=
  ∀ fuel acc rest, readFuel first + readFuelElements others < fuel →
    readElements doubles fuel acc
        (print doubles first ++ (printElements doubles others ++ 93 :: rest)) =
      .ok (acc ++ first :: others, rest)

/-- The loop of `readObject` reads back the members `(key, member) :: others` before the closing
brace, after members whose keys are below theirs. -/
def MembersReadBack (key : List UInt8) (member : JsonValue)
    (others : List (List UInt8 × JsonValue)) : Prop :=
  ∀ fuel acc rest,
    (acc ++ (key, member) :: others).Pairwise (fun left right => stringLess left.1 right.1 = true) →
    readFuel member + readFuelMembers others < fuel →
    readMembers doubles fuel acc 34
        (key ++ 34 :: 58 :: (print doubles member ++ (printMembers doubles others ++ 125 :: rest))) =
      .ok (acc ++ (key, member) :: others, rest)

theorem readsBack_array_nil : ReadsBack doubles (.array []) := by
  intro fuel rest enough _
  obtain ⟨f, rfl⟩ : ∃ f, fuel = f + 1 + 1 :=
    ⟨fuel - 2, by simp at enough; omega⟩
  simp only [print_array_nil, List.cons_append, List.nil_append, readValue_array]
  exact readArray_close doubles f rest

theorem readsBack_array_cons {first : JsonValue} {others : List JsonValue}
    (firstSafe : readable first = true) (loop : ElementsReadBack doubles first others) :
    ReadsBack doubles (.array (first :: others)) := by
  intro fuel rest enough _
  simp only [readFuel_array, readFuelElements_cons] at enough
  obtain ⟨f, rfl⟩ : ∃ f, fuel = f + 1 + 1 := ⟨fuel - 2, by omega⟩
  have elements := loop f [] rest (by omega)
  obtain ⟨c, tail, head, notSpace, notClose⟩ := print_head doubles firstSafe
  simp only [print_array_cons, List.cons_append, List.append_assoc, readValue_array]
  rw [head, List.cons_append] at elements ⊢
  rw [List.nil_append] at elements
  exact readArray_open doubles f notSpace notClose elements

theorem readsBack_bool (valueBool : Bool) : ReadsBack doubles (.bool valueBool) := by
  intro fuel rest enough _
  obtain ⟨f, rfl⟩ : ∃ f, fuel = f + 1 := ⟨fuel - 1, by simp at enough; omega⟩
  cases valueBool with
  | false => exact readValue_falseText doubles f rest
  | true => exact readValue_trueText doubles f rest

theorem readsBack_integer (value : Int64) : ReadsBack doubles (.integer value) := by
  intro fuel rest enough ends
  obtain ⟨f, rfl⟩ : ∃ f, fuel = f + 1 := ⟨fuel - 1, by simp at enough; omega⟩
  exact readValue_integerText doubles f value ends

theorem readsBack_nil : ReadsBack doubles .nil := by
  intro fuel rest enough _
  obtain ⟨f, rfl⟩ : ∃ f, fuel = f + 1 := ⟨fuel - 1, by simp at enough; omega⟩
  exact readValue_nullText doubles f rest

theorem readsBack_object_nil : ReadsBack doubles (.object []) := by
  intro fuel rest enough _
  obtain ⟨f, rfl⟩ : ∃ f, fuel = f + 1 + 1 :=
    ⟨fuel - 2, by simp at enough; omega⟩
  simp only [print_object_nil, List.cons_append, List.nil_append, readValue_object]
  exact readObject_close doubles f rest

theorem readsBack_object_cons {key : List UInt8} {member : JsonValue}
    {others : List (List UInt8 × JsonValue)}
    (ascending : ((key, member) :: others).Pairwise
      fun left right => stringLess left.1 right.1 = true)
    (loop : MembersReadBack doubles key member others) :
    ReadsBack doubles (.object ((key, member) :: others)) := by
  intro fuel rest enough _
  simp only [readFuel_object, readFuelMembers_cons] at enough
  obtain ⟨f, rfl⟩ : ∃ f, fuel = f + 1 + 1 := ⟨fuel - 2, by omega⟩
  have members := loop f [] rest (by rw [List.nil_append]; exact ascending) (by omega)
  simp only [print_object_cons, List.cons_append, List.append_assoc, List.nil_append,
    readValue_object]
  simpa using readObject_open doubles f members

theorem readsBack_string {value : List UInt8} (safe : tokenSafe value = true) :
    ReadsBack doubles (.string value) := by
  intro fuel rest enough _
  obtain ⟨f, rfl⟩ : ∃ f, fuel = f + 1 := ⟨fuel - 1, by simp at enough; omega⟩
  simp only [print_string, List.cons_append, List.append_assoc]
  exact readValue_stringText doubles f safe rest

theorem elementsReadBack_nil {first : JsonValue} (firstBack : ReadsBack doubles first) :
    ElementsReadBack doubles first [] := by
  intro fuel acc rest enough
  obtain ⟨f, rfl⟩ : ∃ f, fuel = f + 1 := ⟨fuel - 1, by omega⟩
  have read := firstBack f (93 :: rest) (by simp at enough; omega)
    (endsNumber_cons (by decide) rest)
  simp only [printElements_nil, List.nil_append]
  exact readElements_close doubles f read

theorem elementsReadBack_cons {first next : JsonValue} {others : List JsonValue}
    (firstBack : ReadsBack doubles first) (loop : ElementsReadBack doubles next others) :
    ElementsReadBack doubles first (next :: others) := by
  intro fuel acc rest enough
  simp only [readFuelElements_cons] at enough
  obtain ⟨f, rfl⟩ : ∃ f, fuel = f + 1 := ⟨fuel - 1, by omega⟩
  have read := firstBack f (printElements doubles (next :: others) ++ 93 :: rest) (by omega)
    (by simp only [printElements_cons, List.cons_append]; exact endsNumber_cons (by decide) _)
  simp only [printElements_cons, List.cons_append, List.append_assoc] at read ⊢
  rw [readElements_next doubles f read]
  simpa using loop f (acc ++ [first]) rest (by omega)

theorem membersReadBack_nil {key : List UInt8} {member : JsonValue}
    (keySafe : tokenSafe key = true) (memberBack : ReadsBack doubles member) :
    MembersReadBack doubles key member [] := by
  intro fuel acc rest ascending enough
  obtain ⟨f, rfl⟩ : ∃ f, fuel = f + 1 := ⟨fuel - 1, by omega⟩
  have read := memberBack f (125 :: rest) (by simp at enough; omega)
    (endsNumber_cons (by decide) rest)
  simp only [printMembers_nil, List.nil_append]
  rw [readMembers_close doubles f (readStringToken_tokenSafe keySafe _) read,
    assign_of_lt (keys_below ascending) member]

theorem membersReadBack_cons {key next : List UInt8} {member nextMember : JsonValue}
    {others : List (List UInt8 × JsonValue)} (keySafe : tokenSafe key = true)
    (memberBack : ReadsBack doubles member) (loop : MembersReadBack doubles next nextMember others) :
    MembersReadBack doubles key member ((next, nextMember) :: others) := by
  intro fuel acc rest ascending enough
  simp only [readFuelMembers_cons] at enough
  obtain ⟨f, rfl⟩ : ∃ f, fuel = f + 1 := ⟨fuel - 1, by omega⟩
  have read := memberBack f (printMembers doubles ((next, nextMember) :: others) ++ 125 :: rest)
    (by omega) (by simp only [printMembers_cons, List.cons_append]; exact endsNumber_cons (by decide) _)
  simp only [printMembers_cons, List.cons_append, List.append_assoc, List.nil_append] at read ⊢
  rw [readMembers_next doubles f (readStringToken_tokenSafe keySafe _) read,
    assign_of_lt (keys_below ascending) member]
  simpa using loop f (acc ++ [(key, member)]) rest (by simpa using ascending) (by omega)

end RoundTrip

theorem readable_array_cons_iff {first : JsonValue} {others : List JsonValue} :
    readable (.array (first :: others)) = true ↔
      readable first = true ∧ readableElements others = true := by
  simp

theorem readableElements_cons_iff {element : JsonValue} {rest : List JsonValue} :
    readableElements (element :: rest) = true ↔
      readable element = true ∧ readableElements rest = true := by
  simp

theorem readable_object_iff {members : List (List UInt8 × JsonValue)} :
    readable (.object members) = true ↔
      members.Pairwise (fun left right => stringLess left.1 right.1 = true) ∧
        readableMembers members = true := by
  simp

theorem readableMembers_cons_iff {key : List UInt8} {member : JsonValue}
    {rest : List (List UInt8 × JsonValue)} :
    readableMembers ((key, member) :: rest) = true ↔
      tokenSafe key = true ∧ readable member = true ∧ readableMembers rest = true := by
  simp [Bool.and_assoc]

/-! ## The round trip, by recursion over values -/

mutual
theorem readsBack_of_readable (doubles : DoubleText) :
    ∀ value, readable value = true → ReadsBack doubles value
  | .array [], _ => readsBack_array_nil doubles
  | .array (first :: others), safe =>
      readsBack_array_cons doubles (readable_array_cons_iff.mp safe).1
        (elementsReadBack_of_readable doubles others first
          (readsBack_of_readable doubles first (readable_array_cons_iff.mp safe).1)
          (readable_array_cons_iff.mp safe).2)
  | .bool valueBool, _ => readsBack_bool doubles valueBool
  | .integer value, _ => readsBack_integer doubles value
  | .nil, _ => readsBack_nil doubles
  | .object [], _ => readsBack_object_nil doubles
  | .object ((key, member) :: others), safe =>
      readsBack_object_cons doubles (readable_object_iff.mp safe).1
        (membersReadBack_of_readable doubles others key member
          (readableMembers_cons_iff.mp (readable_object_iff.mp safe).2).1
          (readsBack_of_readable doubles member
            (readableMembers_cons_iff.mp (readable_object_iff.mp safe).2).2.1)
          (readableMembers_cons_iff.mp (readable_object_iff.mp safe).2).2.2)
  | .real _, safe => absurd safe (by simp)
  | .string _, safe => readsBack_string doubles safe

theorem elementsReadBack_of_readable (doubles : DoubleText) :
    ∀ (others : List JsonValue) (first : JsonValue), ReadsBack doubles first →
      readableElements others = true → ElementsReadBack doubles first others
  | [], _, firstBack, _ => elementsReadBack_nil doubles firstBack
  | next :: others, _, firstBack, safe =>
      elementsReadBack_cons doubles firstBack
        (elementsReadBack_of_readable doubles others next
          (readsBack_of_readable doubles next (readableElements_cons_iff.mp safe).1)
          (readableElements_cons_iff.mp safe).2)

theorem membersReadBack_of_readable (doubles : DoubleText) :
    ∀ (others : List (List UInt8 × JsonValue)) (key : List UInt8) (member : JsonValue),
      tokenSafe key = true → ReadsBack doubles member → readableMembers others = true →
      MembersReadBack doubles key member others
  | [], _, _, keySafe, memberBack, _ => membersReadBack_nil doubles keySafe memberBack
  | (next, nextMember) :: others, _, _, keySafe, memberBack, safe =>
      membersReadBack_cons doubles keySafe memberBack
        (membersReadBack_of_readable doubles others next nextMember
          (readableMembers_cons_iff.mp safe).1
          (readsBack_of_readable doubles nextMember (readableMembers_cons_iff.mp safe).2.1)
          (readableMembers_cons_iff.mp safe).2.2)
end

/-! ## Enough fuel -/

mutual
theorem readFuel_le (doubles : DoubleText) :
    ∀ value, readable value = true → readFuel value ≤ 2 * (print doubles value).length
  | .array [], _ => by simp
  | .array (first :: others), safe => by
      obtain ⟨firstSafe, othersSafe⟩ : readable first = true ∧ readableElements others = true := by
        simpa using safe
      have firstBound := readFuel_le doubles first firstSafe
      have othersBound := readFuelElements_le doubles others othersSafe
      simp only [readFuel_array, readFuelElements_cons, print_array_cons, List.length_cons,
        List.length_append]
      omega
  | .bool valueBool, _ => by cases valueBool <;> simp [trueText, falseText]
  | .integer value, _ => by
      obtain ⟨c, digits, text, -⟩ := integerText_cons value
      simp only [readFuel_integer, print_integer, text, List.length_cons]
      omega
  | .nil, _ => by simp [nullText]
  | .object [], _ => by simp
  | .object ((key, member) :: others), safe => by
      simp only [readable_object, readableMembers_cons, Bool.and_eq_true, decide_eq_true_eq] at safe
      obtain ⟨-, ⟨-, memberSafe⟩, othersSafe⟩ := safe
      have memberBound := readFuel_le doubles member memberSafe
      have othersBound := readFuelMembers_le doubles others othersSafe
      simp only [readFuel_object, readFuelMembers_cons, print_object_cons, List.length_cons,
        List.length_append]
      omega
  | .real _, safe => by simp at safe
  | .string value, _ => by
      simp only [readFuel_string, print_string, List.length_cons, List.length_append]
      omega

theorem readFuelElements_le (doubles : DoubleText) :
    ∀ elements, readableElements elements = true →
      readFuelElements elements ≤ 2 * (printElements doubles elements).length
  | [], _ => by simp
  | element :: rest, safe => by
      obtain ⟨elementSafe, restSafe⟩ : readable element = true ∧ readableElements rest = true := by
        simpa using safe
      have elementBound := readFuel_le doubles element elementSafe
      have restBound := readFuelElements_le doubles rest restSafe
      simp only [readFuelElements_cons, printElements_cons, List.length_cons, List.length_append]
      omega

theorem readFuelMembers_le (doubles : DoubleText) :
    ∀ members, readableMembers members = true →
      readFuelMembers members ≤ 2 * (printMembers doubles members).length
  | [], _ => by simp
  | (key, member) :: rest, safe => by
      simp only [readableMembers_cons, Bool.and_eq_true] at safe
      obtain ⟨⟨-, memberSafe⟩, restSafe⟩ := safe
      have memberBound := readFuel_le doubles member memberSafe
      have restBound := readFuelMembers_le doubles rest restSafe
      simp only [readFuelMembers_cons, printMembers_cons, List.length_cons, List.length_append]
      omega
end

/-! ## `fromString` of `toString` -/

theorem fromString_eq_some_iff (doubles : DoubleText) (source : List UInt8) (value : JsonValue) :
    JsonValue.fromString doubles source = some value ↔
      ∃ rest, readValue doubles (3 * source.length) source = .ok (value, rest) := by
  unfold JsonValue.fromString
  cases readValue doubles (3 * source.length) source with
  | error message => simp
  | ok result =>
      obtain ⟨read, rest⟩ := result
      simp

theorem fromString_toString (doubles : DoubleText) {value : JsonValue}
    (safe : readable value = true) :
    JsonValue.fromString doubles (JsonValue.toString doubles value) = some value := by
  have enough := readFuel_le doubles value safe
  have back := readsBack_of_readable doubles value safe (3 * (print doubles value).length) []
    (by omega) endsNumber_nil
  rw [List.append_nil] at back
  exact (fromString_eq_some_iff doubles _ value).mpr ⟨[], back⟩

theorem fromString_string_iff (doubles : DoubleText) (value : List UInt8) :
    JsonValue.fromString doubles (JsonValue.toString doubles (.string value)) =
        some (.string value) ↔ tokenSafe value = true := by
  constructor
  · intro back
    obtain ⟨rest, read⟩ := (fromString_eq_some_iff doubles _ _).mp back
    obtain ⟨f, fuel⟩ : ∃ f, 3 * (JsonValue.toString doubles (.string value)).length = f + 1 :=
      ⟨3 * (value.length + 2) - 1, by simp [JsonValue.toString]; omega⟩
    rw [fuel] at read
    simp only [JsonValue.toString, print_string, List.cons_append, readValue_string, readString] at read
    obtain ⟨⟨token, after⟩, tokenRead, pack⟩ := Codec.except_bind_ok.mp read
    obtain ⟨rfl, -⟩ : token = value ∧ after = rest := by simpa using pack
    exact tokenSafe_of_readStringToken tokenRead
  · intro safe
    exact fromString_toString doubles (by simpa using safe)

/-- The text `toString` writes reads back as the value for every `readable` value, and a string
value reads back exactly when it is `tokenSafe`. -/
theorem json_text_round_trip :
    (∀ (doubles : DoubleText) (value : JsonValue), readable value = true →
      JsonValue.fromString doubles (JsonValue.toString doubles value) = some value) ∧
    (∀ (doubles : DoubleText) (value : List UInt8),
      JsonValue.fromString doubles (JsonValue.toString doubles (.string value)) =
          some (.string value) ↔ tokenSafe value = true) :=
  ⟨fun doubles _ safe => fromString_toString doubles safe, fromString_string_iff⟩

theorem quote_and_backslash_strings_misread (doubles : DoubleText) :
    JsonValue.fromString doubles (JsonValue.toString doubles (.string [34])) = some (.string []) ∧
      JsonValue.fromString doubles (JsonValue.toString doubles (.string [92])) = none :=
  ⟨rfl, rfl⟩

def zeroDoubles : DoubleText := ⟨fun _ => [48], fun _ => 0⟩

/-- A string holding one quote reads back empty, and one holding one backslash does not read
back at all. -/
theorem quote_string_reads_back_empty :
    JsonValue.fromString zeroDoubles (JsonValue.toString zeroDoubles (.string [34])) =
        some (.string []) ∧
      JsonValue.fromString zeroDoubles (JsonValue.toString zeroDoubles (.string [92])) = none :=
  quote_and_backslash_strings_misread zeroDoubles

end Dynex.Common
