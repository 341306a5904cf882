import Mathlib.Data.Nat.Digits.Defs

/-!
# Amounts as text

`Currency::formatAmount` writes an amount in atomic units as its decimal digits with a point
`m_numberOfDecimalPlaces` digits from the right, padded with zeros in front to have a digit before
the point; the `int64_t` overload puts a `-` before the absolute value. `Currency::parseAmount`
trims the text, drops trailing zeros of the fraction while it is longer than the decimal places,
refuses a longer fraction, removes the point, refuses an empty or non-digit text, pads the
fraction with zeros and reads the number with `Common::fromString`.

Strings are their bytes. The number of decimal places is an argument, the currency's
`m_numberOfDecimalPlaces` (`CRYPTONOTE_DISPLAY_DECIMAL_POINT` on the node). `std::abs` of an
`int64_t` negates in two's complement on the node's hosts, so `INT64_MIN` stays itself and is cast
to `2 ^ 63`; the standard leaves that case undefined.
-/

set_option autoImplicit false

namespace Dynex

def CRYPTONOTE_DISPLAY_DECIMAL_POINT : Nat := 9

namespace Common

def isdigit (c : UInt8) : Bool := 48 ≤ c && c ≤ 57

def isspace (c : UInt8) : Bool := c == 32 || (9 ≤ c && c ≤ 13)

def trim (text : List UInt8) : List UInt8 :=
  ((text.dropWhile isspace).reverse.dropWhile isspace).reverse

def to_string (value : Nat) : List UInt8 :=
  if value = 0 then [48] else (Nat.digits 10 value).reverse.map fun digit => (48 + digit).toUInt8

def decimalValue (text : List UInt8) : Nat :=
  text.foldl (fun value c => 10 * value + (c.toNat - 48)) 0

def fromString (text : List UInt8) : Option UInt64 :=
  if decimalValue text < 2 ^ 64 then some (decimalValue text).toUInt64 else none

end Common

namespace Currency

open Common

/-- `formatAmount(uint64_t amount)`. -/
def formatAmount (m_numberOfDecimalPlaces : Nat) (amount : UInt64) : List UInt8 :=
  let digits := to_string amount.toNat
  let s := if digits.length < m_numberOfDecimalPlaces + 1 then
      List.replicate (m_numberOfDecimalPlaces + 1 - digits.length) 48 ++ digits
    else digits
  s.take (s.length - m_numberOfDecimalPlaces) ++ 46 :: s.drop (s.length - m_numberOfDecimalPlaces)

def formatAmountInt64 (m_numberOfDecimalPlaces : Nat) (amount : Int64) : List UInt8 :=
  let s := formatAmount m_numberOfDecimalPlaces (if amount < 0 then -amount else amount).toUInt64
  if amount < 0 then 45 :: s else s

/-- The `while` loop of `parseAmount`: trailing `0`s go while the fraction is longer than the
decimal places. Returns the text and `fractionSize`. -/
def stripFractionZeros (m_numberOfDecimalPlaces : Nat) (strAmount : List UInt8) :
    (fractionSize : Nat) → List UInt8 × Nat
  | 0 => (strAmount, 0)
  | fractionSize + 1 =>
      if m_numberOfDecimalPlaces < fractionSize + 1 ∧ strAmount.getLast? = some 48 then
        stripFractionZeros m_numberOfDecimalPlaces strAmount.dropLast fractionSize
      else (strAmount, fractionSize + 1)

/-- `parseAmount` after the point: the text without it, and `fractionSize`; `none` for a fraction
with more digits than the decimal places once its surplus trailing zeros are gone. -/
def removePoint (m_numberOfDecimalPlaces : Nat) (strAmount : List UInt8) :
    Option (List UInt8 × Nat) :=
  match strAmount.idxOf? 46 with
  | some pointIndex =>
      let stripped := stripFractionZeros m_numberOfDecimalPlaces strAmount
        (strAmount.length - pointIndex - 1)
      if m_numberOfDecimalPlaces < stripped.2 then none
      else some (stripped.1.eraseIdx pointIndex, stripped.2)
  | none => some (strAmount, 0)

/-- `parseAmount(str, amount)`. -/
def parseAmount (m_numberOfDecimalPlaces : Nat) (str : List UInt8) : Option UInt64 :=
  match removePoint m_numberOfDecimalPlaces (trim str) with
  | none => none
  | some (strAmount, fractionSize) =>
      if strAmount.isEmpty then none
      else if !strAmount.all isdigit then none
      else
        let padded := if fractionSize < m_numberOfDecimalPlaces then
            strAmount ++ List.replicate (m_numberOfDecimalPlaces - fractionSize) 48
          else strAmount
        fromString padded

end Currency

end Dynex
