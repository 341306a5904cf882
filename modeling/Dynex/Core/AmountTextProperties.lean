import Dynex.Core.AmountText
import Mathlib.Data.Nat.Digits.Lemmas
import Mathlib.Data.List.DropRight

/-!
# Amounts read back, and the texts `parseAmount` accepts

`parseAmount` reads back every amount `formatAmount` writes, whatever the number of decimal
places, and the `int64_t` `formatAmount` is a `-` before the absolute value, `INT64_MIN`
included. With at least one decimal place, `parseAmount` accepts exactly the trimmed texts of
digits with at most one point and at least one digit whose fraction, without trailing zeros, has
at most that many digits and whose value in atomic units is below `2 ^ 64`
(`DecimalAmount`), and returns that value. With no decimal places, a point followed only by
zeros, as in `.0`, is refused: the zeros go with the surplus of the fraction and nothing is left.

The argument splits the trimmed text at its first point (`split_first_point`); the zeros loop
keeps `min fractionSize (max places r)` fraction digits, `r` the fraction's length without its
trailing zeros (`stripFractionZeros_eq`).
-/

set_option autoImplicit false

namespace Dynex

open Common Currency

/-! ## Decimal values -/

theorem foldl_decimal (text : List UInt8) (start : Nat) :
    text.foldl (fun value c => 10 * value + (c.toNat - 48)) start =
      start * 10 ^ text.length + decimalValue text := by
  induction text generalizing start with
  | nil => simp [decimalValue]
  | cons c rest ih =>
      simp only [List.foldl_cons, decimalValue, List.length_cons] at ih ⊢
      rw [ih, ih (10 * 0 + (c.toNat - 48)), Nat.pow_succ]
      ring

theorem decimalValue_append (first second : List UInt8) :
    decimalValue (first ++ second) =
      decimalValue first * 10 ^ second.length + decimalValue second := by
  rw [decimalValue, List.foldl_append, foldl_decimal]
  rfl

theorem decimalValue_replicate_zero (count : Nat) : decimalValue (List.replicate count 48) = 0 := by
  induction count with
  | zero => rfl
  | succ count ih =>
      rw [List.replicate_succ', decimalValue_append, ih]
      rfl

theorem decimalValue_digits (digits : List Nat) (small : ∀ digit ∈ digits, digit < 10) :
    decimalValue (digits.reverse.map fun digit => (48 + digit).toUInt8) = Nat.ofDigits 10 digits := by
  induction digits with
  | nil => rfl
  | cons digit rest ih =>
      have below : digit < 10 := small digit (by simp)
      rw [List.reverse_cons, List.map_append, decimalValue_append,
        ih (fun d member => small d (by simp [member])), Nat.ofDigits_cons]
      simp only [List.map_cons, List.map_nil, List.length_singleton, pow_one]
      have byte : ((48 + digit).toUInt8).toNat = 48 + digit :=
        UInt8.toNat_ofNat_of_lt' (by simp only [UInt8.size]; omega)
      simp only [decimalValue, List.foldl_cons, List.foldl_nil, byte]
      ring_nf
      omega

theorem decimalValue_to_string (value : Nat) : decimalValue (to_string value) = value := by
  unfold to_string
  split
  · rename_i zero
    rw [zero]
    rfl
  · rw [decimalValue_digits _ (fun _ member => Nat.digits_lt_base (by decide) member),
      Nat.ofDigits_digits]

theorem isdigit_of_lt {digit : Nat} (small : digit < 10) : isdigit (48 + digit).toUInt8 = true := by
  have byte : ((48 + digit).toUInt8).toNat = 48 + digit :=
    UInt8.toNat_ofNat_of_lt' (by simp only [UInt8.size]; omega)
  simp only [isdigit, Bool.and_eq_true, decide_eq_true_eq, UInt8.le_iff_toNat_le, byte]
  constructor <;> simp <;> omega

theorem isdigit_to_string (value : Nat) : ∀ c ∈ to_string value, isdigit c = true := by
  unfold to_string
  split
  · intro c member
    rw [List.mem_singleton] at member
    subst member
    rfl
  · intro c member
    obtain ⟨digit, digitMember, rfl⟩ := List.mem_map.mp member
    exact isdigit_of_lt (Nat.digits_lt_base (by decide) (List.mem_reverse.mp digitMember))

theorem fromString_eq_some_iff {text : List UInt8} {amount : UInt64} :
    fromString text = some amount ↔ amount.toNat = decimalValue text := by
  unfold fromString
  constructor
  · intro parsed
    split at parsed
    · rename_i fits
      cases parsed
      exact UInt64.toNat_ofNat_of_lt' fits
    · cases parsed
  · intro same
    rw [if_pos (same ▸ amount.toNat_lt), ← same]
    exact congrArg some UInt64.ofNat_toNat

/-! ## Trimming and the first point -/

theorem isspace_of_isdigit {c : UInt8} (digit : isdigit c = true) : isspace c = false := by
  simp only [isdigit, Bool.and_eq_true, decide_eq_true_eq, UInt8.le_iff_toNat_le] at digit
  simp only [isspace, Bool.or_eq_false_iff, beq_eq_false_iff_ne, ne_eq, Bool.and_eq_false_imp,
    decide_eq_true_eq, UInt8.le_iff_toNat_le, decide_eq_false_iff_not, Nat.not_le]
  refine ⟨fun same => ?_, fun _ => ?_⟩
  · rw [same] at digit
    simp at digit
  · simp only [UInt8.toNat_ofNat] at digit ⊢
    omega

theorem trim_of_no_space {text : List UInt8} (noSpace : ∀ c ∈ text, isspace c = false) :
    trim text = text := by
  have front : text.dropWhile isspace = text := by
    cases text with
    | nil => rfl
    | cons c rest => simp [List.dropWhile_cons, noSpace c List.mem_cons_self]
  have back : text.reverse.dropWhile isspace = text.reverse := by
    cases reversed : text.reverse with
    | nil => rfl
    | cons c rest =>
        have member : c ∈ text := by
          rw [← List.mem_reverse, reversed]
          exact List.mem_cons_self
        simp [List.dropWhile_cons, noSpace c member]
  rw [trim, front, back, List.reverse_reverse]

theorem split_first_point {text : List UInt8} (member : 46 ∈ text) :
    ∃ whole fraction, text = whole ++ 46 :: fraction ∧ 46 ∉ whole := by
  induction text with
  | nil => cases member
  | cons c rest ih =>
      by_cases point : c = 46
      · exact ⟨[], rest, by rw [point]; rfl, List.not_mem_nil⟩
      · have later : 46 ∈ rest := by
          rcases List.mem_cons.mp member with same | later
          · exact absurd same.symm point
          · exact later
        obtain ⟨whole, fraction, rfl, noPoint⟩ := ih later
        refine ⟨c :: whole, fraction, rfl, ?_⟩
        rw [List.mem_cons, not_or]
        exact ⟨fun same => point same.symm, noPoint⟩

theorem first_point_unique {whole fraction whole' fraction' : List UInt8} (noPoint : 46 ∉ whole)
    (noPoint' : 46 ∉ whole') (same : whole ++ 46 :: fraction = whole' ++ 46 :: fraction') :
    whole = whole' ∧ fraction = fraction' := by
  induction whole generalizing whole' with
  | nil =>
      cases whole' with
      | nil => simpa using same
      | cons c rest =>
          simp only [List.nil_append, List.cons_append, List.cons.injEq] at same
          exact absurd (same.1 ▸ List.mem_cons_self) noPoint'
  | cons c rest ih =>
      cases whole' with
      | nil =>
          simp only [List.nil_append, List.cons_append, List.cons.injEq] at same
          exact absurd (same.1 ▸ List.mem_cons_self) noPoint
      | cons c' rest' =>
          simp only [List.cons_append, List.cons.injEq] at same
          obtain ⟨restSame, fractionSame⟩ := ih (fun m => noPoint (List.mem_cons_of_mem _ m))
            (fun m => noPoint' (List.mem_cons_of_mem _ m)) same.2
          exact ⟨by rw [same.1, restSame], fractionSame⟩

theorem idxOf?_first_point {whole fraction : List UInt8} (noPoint : 46 ∉ whole) :
    (whole ++ 46 :: fraction).idxOf? 46 = some whole.length := by
  induction whole with
  | nil => simp [List.idxOf?, List.findIdx?_cons]
  | cons c rest ih =>
      have other : c ≠ 46 := fun same => noPoint (by simp [same])
      have restNo : (46 : UInt8) ∉ rest := fun m => noPoint (by simp [m])
      simp [List.idxOf?, List.findIdx?_cons, other] at ih ⊢
      exact ih restNo

/-! ## The zeros loop -/

theorem length_rdropWhile_le (fraction : List UInt8) :
    (fraction.rdropWhile (· == 48)).length ≤ fraction.length := by
  have dropped := List.length_dropWhile_le (· == 48) fraction.reverse
  rw [List.length_reverse] at dropped
  rw [List.rdropWhile, List.length_reverse]
  exact dropped

def keptDigits (places : Nat) (fraction : List UInt8) : Nat :=
  if fraction.length ≤ places then fraction.length
  else max places (fraction.rdropWhile (· == 48)).length

theorem stripFractionZeros_eq (places : Nat) (front fraction : List UInt8) :
    stripFractionZeros places (front ++ fraction) fraction.length =
      (front ++ fraction.take (keptDigits places fraction), keptDigits places fraction) := by
  induction fraction using List.reverseRecOn with
  | nil => simp [stripFractionZeros, keptDigits]
  | append_singleton init c ih =>
      have last : (front ++ (init ++ [c])).getLast? = some c := by simp
      have shorter : (front ++ (init ++ [c])).dropLast = front ++ init := by
        rw [← List.append_assoc, List.dropLast_concat]
      rw [List.length_append, List.length_singleton, stripFractionZeros, last, shorter]
      by_cases strip : places < init.length + 1 ∧ some c = some 48
      · rw [if_pos strip, ih]
        have zero : c = 48 := Option.some.inj strip.2
        have sameSignificant : (init ++ [c]).rdropWhile (· == 48) = init.rdropWhile (· == 48) :=
          List.rdropWhile_concat_pos _ _ _ (by simp [zero])
        have bound := length_rdropWhile_le init
        have kept : keptDigits places init = keptDigits places (init ++ [c]) := by
          simp only [keptDigits, List.length_append, List.length_singleton, sameSignificant]
          split_ifs <;> omega
        have within : keptDigits places init ≤ init.length := by
          simp only [keptDigits]
          split_ifs <;> omega
        rw [kept, List.take_append_of_le_length (kept ▸ within)]
      · rw [if_neg strip]
        have kept : keptDigits places (init ++ [c]) = init.length + 1 := by
          simp only [keptDigits, List.length_append, List.length_singleton]
          split_ifs with within
          · rfl
          · have notZero : ¬((c == 48) = true) := by
              simp only [beq_iff_eq]
              exact fun zero => strip ⟨by omega, by rw [zero]⟩
            rw [@List.rdropWhile_concat_neg _ (· == 48) init c notZero, List.length_append,
              List.length_singleton]
            omega
        rw [kept, List.take_of_length_le (by simp)]

theorem keptDigits_bounds (places : Nat) (fraction : List UInt8) :
    (fraction.rdropWhile (· == 48)).length ≤ keptDigits places fraction ∧
      keptDigits places fraction ≤ fraction.length ∧
      (places < keptDigits places fraction ↔ places < (fraction.rdropWhile (· == 48)).length) ∧
      (fraction ≠ [] → min 1 places ≤ keptDigits places fraction) := by
  have bound := length_rdropWhile_le fraction
  have nonempty : fraction ≠ [] → 1 ≤ fraction.length := fun full =>
    List.length_pos_of_ne_nil full
  simp only [keptDigits]
  split_ifs <;> refine ⟨by omega, by omega, by omega, fun full => ?_⟩ <;>
    have := nonempty full <;> omega

theorem rdropWhile_append_zeros (fraction : List UInt8) :
    fraction = fraction.rdropWhile (· == 48) ++
      List.replicate (fraction.length - (fraction.rdropWhile (· == 48)).length) 48 := by
  induction fraction using List.reverseRecOn with
  | nil => rfl
  | append_singleton init c ih =>
      by_cases zero : c = 48
      · have bound := length_rdropWhile_le init
        rw [List.rdropWhile_concat_pos _ _ _ (by simp [zero]), zero, List.length_append,
          List.length_singleton, show init.length + 1 - (init.rdropWhile (· == 48)).length =
            (init.length - (init.rdropWhile (· == 48)).length) + 1 by omega,
          List.replicate_succ', ← List.append_assoc, ← ih]
      · rw [@List.rdropWhile_concat_neg _ (· == 48) init c (by simpa using zero)]
        simp

theorem take_keptDigits (places : Nat) (fraction : List UInt8) :
    fraction.take (keptDigits places fraction) = fraction.rdropWhile (· == 48) ++
      List.replicate (keptDigits places fraction - (fraction.rdropWhile (· == 48)).length) 48 := by
  obtain ⟨low, high, -, -⟩ := keptDigits_bounds places fraction
  generalize keptDigits places fraction = kept at low high ⊢
  conv_lhs => rw [rdropWhile_append_zeros fraction]
  rw [List.take_append, List.take_of_length_le low, List.take_replicate]
  congr 2
  omega

theorem drop_keptDigits (places : Nat) (fraction : List UInt8) :
    ∀ c ∈ fraction.drop (keptDigits places fraction), c = 48 := by
  obtain ⟨low, -, -, -⟩ := keptDigits_bounds places fraction
  generalize keptDigits places fraction = kept at low ⊢
  intro c member
  rw [rdropWhile_append_zeros fraction, List.drop_append, List.drop_of_length_le low,
    List.nil_append] at member
  exact List.eq_of_mem_replicate (List.mem_of_mem_drop member)

/-! ## Removing the point -/

theorem removePoint_of_no_point (places : Nat) {text : List UInt8} (noPoint : 46 ∉ text) :
    removePoint places text = some (text, 0) := by
  rw [removePoint, List.idxOf?_eq_none_iff.mpr noPoint]

theorem removePoint_of_point (places : Nat) {whole fraction : List UInt8} (noPoint : 46 ∉ whole) :
    removePoint places (whole ++ 46 :: fraction) =
      if places < keptDigits places fraction then none
      else some (whole ++ fraction.take (keptDigits places fraction), keptDigits places fraction) := by
  have size : (whole ++ 46 :: fraction).length - whole.length - 1 = fraction.length := by
    simp only [List.length_append, List.length_cons]
    omega
  have joined : whole ++ 46 :: fraction = (whole ++ [46]) ++ fraction := by simp
  have erased : ((whole ++ [46]) ++ fraction.take (keptDigits places fraction)).eraseIdx
      whole.length = whole ++ fraction.take (keptDigits places fraction) := by
    rw [List.append_assoc, List.eraseIdx_append_of_length_le (Nat.le_refl _), Nat.sub_self]
    rfl
  simp only [removePoint, idxOf?_first_point noPoint, size]
  rw [joined, stripFractionZeros_eq, erased]

/-! ## After the point -/

theorem parseAmount_of_removePoint {places : Nat} {str strAmount : List UInt8} {fractionSize : Nat}
    (removed : removePoint places (trim str) = some (strAmount, fractionSize))
    (fits : fractionSize ≤ places) (amount : UInt64) :
    parseAmount places str = some amount ↔
      strAmount ≠ [] ∧ (∀ c ∈ strAmount, isdigit c = true) ∧
        amount.toNat = decimalValue strAmount * 10 ^ (places - fractionSize) := by
  have padded : (if fractionSize < places then
      strAmount ++ List.replicate (places - fractionSize) 48 else strAmount) =
      strAmount ++ List.replicate (places - fractionSize) 48 := by
    split_ifs with shorter
    · rfl
    · rw [show places - fractionSize = 0 by omega, List.replicate_zero, List.append_nil]
  simp only [parseAmount, removed, padded]
  by_cases empty : strAmount = []
  · simp [empty]
  by_cases digits : strAmount.all isdigit = true
  · rw [if_neg (by simpa using empty), if_neg (by simp [digits]), fromString_eq_some_iff,
      decimalValue_append, decimalValue_replicate_zero, List.length_replicate, Nat.add_zero]
    exact ⟨fun value => ⟨empty, List.all_eq_true.mp digits, value⟩, fun parsed => parsed.2.2⟩
  · rw [if_neg (by simpa using empty), if_pos (by simp [digits])]
    simp only [reduceCtorEq, false_iff, not_and]
    exact fun _ allDigits => absurd (List.all_eq_true.mpr allDigits) digits

theorem parseAmount_of_removePoint_none {places : Nat} {str : List UInt8}
    (removed : removePoint places (trim str) = none) : parseAmount places str = none := by
  simp only [parseAmount, removed]

/-- The value of the kept digits, padded to the decimal places: the whole part scaled by
`10 ^ places` and the significant fraction by what it lacks of the places. -/
theorem decimalValue_kept (places : Nat) (whole fraction : List UInt8)
    (within : keptDigits places fraction ≤ places) :
    decimalValue (whole ++ fraction.take (keptDigits places fraction)) *
        10 ^ (places - keptDigits places fraction) =
      decimalValue whole * 10 ^ places + decimalValue (fraction.rdropWhile (· == 48)) *
        10 ^ (places - (fraction.rdropWhile (· == 48)).length) := by
  obtain ⟨low, -, -, -⟩ := keptDigits_bounds places fraction
  rw [take_keptDigits, decimalValue_append, decimalValue_append, decimalValue_replicate_zero]
  generalize keptDigits places fraction = kept at low within ⊢
  generalize (fraction.rdropWhile (· == 48)) = significant at low ⊢
  simp only [List.length_append, List.length_replicate, Nat.add_zero]
  have whole_scale : 10 ^ (significant.length + (kept - significant.length)) * 10 ^ (places - kept) =
      10 ^ places := by
    rw [← pow_add]
    congr 1
    omega
  have fraction_scale : 10 ^ (kept - significant.length) * 10 ^ (places - kept) =
      10 ^ (places - significant.length) := by
    rw [← pow_add]
    congr 1
    omega
  calc (decimalValue whole * 10 ^ (significant.length + (kept - significant.length)) +
          decimalValue significant * 10 ^ (kept - significant.length)) * 10 ^ (places - kept)
      = decimalValue whole * (10 ^ (significant.length + (kept - significant.length)) *
            10 ^ (places - kept)) +
          decimalValue significant * (10 ^ (kept - significant.length) * 10 ^ (places - kept)) := by
        ring
    _ = decimalValue whole * 10 ^ places +
          decimalValue significant * 10 ^ (places - significant.length) := by
        rw [whole_scale, fraction_scale]

/-! ## The texts `parseAmount` accepts -/

/-- What `parseAmount` is for: decimal digits with at most one point and at least one digit,
whose fraction without its trailing zeros has at most `places` digits; `amount` is the value in
units of `10 ^ -places`. -/
def DecimalAmount (places : Nat) (text : List UInt8) (amount : Nat) : Prop :=
  (text ≠ [] ∧ (∀ c ∈ text, isdigit c = true) ∧ amount = decimalValue text * 10 ^ places) ∨
  ∃ whole fraction, text = whole ++ 46 :: fraction ∧ whole ++ fraction ≠ [] ∧
    (∀ c ∈ whole ++ fraction, isdigit c = true) ∧
    (fraction.rdropWhile (· == 48)).length ≤ places ∧
    amount = decimalValue whole * 10 ^ places + decimalValue (fraction.rdropWhile (· == 48)) *
      10 ^ (places - (fraction.rdropWhile (· == 48)).length)

theorem decimalAmount_of_no_point {places : Nat} {text : List UInt8} (noPoint : 46 ∉ text)
    (amount : Nat) :
    DecimalAmount places text amount ↔
      text ≠ [] ∧ (∀ c ∈ text, isdigit c = true) ∧ amount = decimalValue text * 10 ^ places := by
  constructor
  · rintro (plain | ⟨whole, fraction, split, -⟩)
    · exact plain
    · exact absurd (split ▸ List.mem_append_right _ List.mem_cons_self) noPoint
  · exact Or.inl

theorem decimalAmount_of_point {places : Nat} {whole fraction : List UInt8} (noPoint : 46 ∉ whole)
    (amount : Nat) :
    DecimalAmount places (whole ++ 46 :: fraction) amount ↔
      whole ++ fraction ≠ [] ∧ (∀ c ∈ whole ++ fraction, isdigit c = true) ∧
        (fraction.rdropWhile (· == 48)).length ≤ places ∧
        amount = decimalValue whole * 10 ^ places + decimalValue (fraction.rdropWhile (· == 48)) *
          10 ^ (places - (fraction.rdropWhile (· == 48)).length) := by
  constructor
  · rintro (⟨-, digits, -⟩ | ⟨whole', fraction', split, rest⟩)
    · exact absurd (digits 46 (List.mem_append_right _ List.mem_cons_self)) (by decide)
    · have noPoint' : 46 ∉ whole' := fun member =>
        absurd (rest.2.1 46 (List.mem_append_left _ member)) (by decide)
      obtain ⟨rfl, rfl⟩ := first_point_unique noPoint noPoint' split
      exact rest
  · exact fun spec => Or.inr ⟨whole, fraction, rfl, spec⟩

/-- With at least one decimal place, keeping some of the trailing zeros keeps a digit when the
whole text had one, and keeps only digits exactly when the whole text was digits. -/
theorem kept_digits_iff {places : Nat} (positive : 0 < places) (whole fraction : List UInt8) :
    (whole ++ fraction.take (keptDigits places fraction) ≠ [] ↔ whole ++ fraction ≠ []) ∧
      ((∀ c ∈ whole ++ fraction.take (keptDigits places fraction), isdigit c = true) ↔
        ∀ c ∈ whole ++ fraction, isdigit c = true) := by
  obtain ⟨-, -, -, least⟩ := keptDigits_bounds places fraction
  constructor
  · constructor
    · intro kept empty
      rw [List.append_eq_nil_iff] at empty
      rw [empty.1, empty.2] at kept
      exact kept rfl
    · intro full empty
      rw [List.append_eq_nil_iff] at empty
      have noFraction : fraction = [] := by
        by_contra someFraction
        have one := least someFraction
        rw [List.take_eq_nil_iff] at empty
        rcases empty.2 with zero | nil
        · omega
        · exact someFraction nil
      exact full (by rw [empty.1, noFraction]; rfl)
  · constructor
    · intro digits c member
      rw [List.mem_append] at member
      rcases member with inWhole | inFraction
      · exact digits c (List.mem_append_left _ inWhole)
      · rw [← List.take_append_drop (keptDigits places fraction) fraction,
          List.mem_append] at inFraction
        rcases inFraction with kept | dropped
        · exact digits c (List.mem_append_right _ kept)
        · rw [drop_keptDigits places fraction c dropped]
          rfl
    · intro digits c member
      rw [List.mem_append] at member
      rcases member with inWhole | kept
      · exact digits c (List.mem_append_left _ inWhole)
      · exact digits c (List.mem_append_right _ (List.mem_of_mem_take kept))

theorem parseAmount_eq_some_iff {places : Nat} (positive : 0 < places) (str : List UInt8)
    (amount : UInt64) :
    parseAmount places str = some amount ↔ DecimalAmount places (trim str) amount.toNat := by
  by_cases point : 46 ∈ trim str
  · obtain ⟨whole, fraction, split, noPoint⟩ := split_first_point point
    obtain ⟨-, -, overIff, -⟩ := keptDigits_bounds places fraction
    rw [split, decimalAmount_of_point noPoint]
    by_cases tooMany : places < keptDigits places fraction
    · rw [parseAmount_of_removePoint_none
        (by rw [split, removePoint_of_point places noPoint, if_pos tooMany])]
      simp only [reduceCtorEq, false_iff, not_and]
      intro _ _ short
      exact absurd (overIff.mp tooMany) (Nat.not_lt.mpr short)
    · have short : (fraction.rdropWhile (· == 48)).length ≤ places :=
        Nat.not_lt.mp (fun longer => tooMany (overIff.mpr longer))
      obtain ⟨nonempty, digits⟩ := kept_digits_iff positive whole fraction
      rw [parseAmount_of_removePoint
        (by rw [split, removePoint_of_point places noPoint, if_neg tooMany])
        (Nat.not_lt.mp tooMany),
        decimalValue_kept places whole fraction (Nat.not_lt.mp tooMany), nonempty, digits]
      exact ⟨fun ⟨full, allDigits, value⟩ => ⟨full, allDigits, short, value⟩,
        fun ⟨full, allDigits, _, value⟩ => ⟨full, allDigits, value⟩⟩
  · rw [parseAmount_of_removePoint (removePoint_of_no_point places point) (Nat.zero_le _) amount,
      Nat.sub_zero, decimalAmount_of_no_point point]

theorem DecimalAmount.unique {places : Nat} {text : List UInt8} {first second : Nat}
    (isFirst : DecimalAmount places text first) (isSecond : DecimalAmount places text second) :
    first = second := by
  by_cases point : 46 ∈ text
  · obtain ⟨whole, fraction, split, noPoint⟩ := split_first_point point
    rw [split, decimalAmount_of_point noPoint] at isFirst isSecond
    rw [isFirst.2.2.2, isSecond.2.2.2]
  · rw [decimalAmount_of_no_point point] at isFirst isSecond
    rw [isFirst.2.2, isSecond.2.2]

theorem parseAmount_isSome_iff {places : Nat} (positive : 0 < places) (str : List UInt8) :
    (∃ amount, parseAmount places str = some amount) ↔
      ∃ value < 2 ^ 64, DecimalAmount places (trim str) value := by
  constructor
  · rintro ⟨amount, parsed⟩
    exact ⟨amount.toNat, amount.toNat_lt, (parseAmount_eq_some_iff positive str amount).mp parsed⟩
  · rintro ⟨value, fits, spec⟩
    refine ⟨value.toUInt64, (parseAmount_eq_some_iff positive str _).mpr ?_⟩
    rw [UInt64.toNat_ofNat_of_lt' fits]
    exact spec

/-- With no decimal places, `.0` is a decimal amount of value 0, but its zero goes with the
surplus of the fraction and `parseAmount` is left with nothing. -/
theorem point_zero_refused_without_places :
    DecimalAmount 0 [46, 48] 0 ∧ parseAmount 0 [46, 48] = none :=
  ⟨Or.inr ⟨[], [48], rfl, by decide +kernel, by decide +kernel, by decide +kernel,
    by decide +kernel⟩, by decide +kernel⟩

/-! ## Formatted amounts read back -/

/-- `formatAmount` writes the digits of the amount, padded to more than the decimal places, with
the point before the last `places` of them. -/
theorem formatAmount_split (places : Nat) (amount : UInt64) :
    ∃ whole fraction, formatAmount places amount = whole ++ 46 :: fraction ∧
      fraction.length = places ∧ whole ≠ [] ∧ (∀ c ∈ whole ++ fraction, isdigit c = true) ∧
      decimalValue (whole ++ fraction) = amount.toNat := by
  set digits := to_string amount.toNat with digitsEq
  set padded := (if digits.length < places + 1 then
    List.replicate (places + 1 - digits.length) 48 ++ digits else digits) with paddedEq
  have long : places + 1 ≤ padded.length := by
    rw [paddedEq]
    split_ifs <;> simp <;> omega
  have allDigits : ∀ c ∈ padded, isdigit c = true := by
    rw [paddedEq]
    split_ifs
    · intro c member
      rcases List.mem_append.mp member with zero | digit
      · rw [List.eq_of_mem_replicate zero]
        rfl
      · exact isdigit_to_string _ c digit
    · exact isdigit_to_string _
  have value : decimalValue padded = amount.toNat := by
    rw [paddedEq]
    split_ifs
    · rw [decimalValue_append, decimalValue_replicate_zero, Nat.zero_mul, Nat.zero_add,
        digitsEq, decimalValue_to_string]
    · rw [digitsEq, decimalValue_to_string]
  refine ⟨padded.take (padded.length - places), padded.drop (padded.length - places), rfl,
    by simp; omega, ?_, ?_, ?_⟩
  · intro empty
    rcases List.take_eq_nil_iff.mp empty with zero | nil
    · omega
    · rw [nil, List.length_nil] at long
      omega
  · rw [List.take_append_drop]
    exact allDigits
  · rw [List.take_append_drop]
    exact value

theorem parseAmount_formatAmount (places : Nat) (amount : UInt64) :
    parseAmount places (formatAmount places amount) = some amount := by
  obtain ⟨whole, fraction, written, length, full, digits, value⟩ := formatAmount_split places amount
  have noSpace : ∀ c ∈ formatAmount places amount, isspace c = false := by
    intro c member
    rw [written, List.mem_append, List.mem_cons] at member
    rcases member with inWhole | point | inFraction
    · exact isspace_of_isdigit (digits c (List.mem_append_left _ inWhole))
    · rw [point]
      rfl
    · exact isspace_of_isdigit (digits c (List.mem_append_right _ inFraction))
  have noPoint : 46 ∉ whole := fun member =>
    absurd (digits 46 (List.mem_append_left _ member)) (by decide)
  have kept : keptDigits places fraction = places := by simp [keptDigits, length]
  have removed : removePoint places (trim (formatAmount places amount)) =
      some (whole ++ fraction, places) := by
    rw [trim_of_no_space noSpace, written, removePoint_of_point places noPoint, kept,
      if_neg (Nat.lt_irrefl _), ← length, List.take_length]
  rw [parseAmount_of_removePoint removed (Nat.le_refl _) amount, Nat.sub_self, pow_zero,
    Nat.mul_one, value]
  exact ⟨fun empty => full (List.append_eq_nil_iff.mp empty).1, digits, rfl⟩

/-! ## Negative amounts -/

theorem toNat_toUInt64_neg {amount : Int64} (negative : amount < 0) :
    (-amount).toUInt64.toNat = amount.toInt.natAbs := by
  have below : amount.toInt < 0 := by simpa [Int64.lt_iff_toInt_lt] using negative
  have bits : amount.toInt = if 2 * amount.toUInt64.toNat < 2 ^ 64 then
      (amount.toUInt64.toNat : Int) else (amount.toUInt64.toNat : Int) - 2 ^ 64 := by
    rw [← Int64.toInt_toBitVec, BitVec.toInt_eq_toNat_cond, Int64.toNat_toBitVec]
    norm_num
  have bound := amount.toUInt64.toNat_lt
  rw [Int64.toUInt64_neg, UInt64.toNat_neg, UInt64.size]
  split at bits
  · omega
  · have absolute : amount.toInt = -((2 ^ 64 - amount.toUInt64.toNat : Nat) : Int) := by omega
    rw [absolute, Int.natAbs_neg, Int.natAbs_natCast]
    omega

theorem formatAmountInt64_of_neg (places : Nat) {amount : Int64} (negative : amount < 0) :
    formatAmountInt64 places amount = 45 :: formatAmount places amount.toInt.natAbs.toUInt64 := by
  have absolute : (-amount).toUInt64 = amount.toInt.natAbs.toUInt64 := by
    apply UInt64.toNat_inj.mp
    rw [toNat_toUInt64_neg negative, UInt64.toNat_ofNat_of_lt']
    have low := Int64.le_toInt amount
    have below : amount.toInt < 0 := by simpa [Int64.lt_iff_toInt_lt] using negative
    simp only [UInt64.size]
    omega
  simp only [formatAmountInt64, if_pos negative, absolute]

/-! ## The codec -/

/-- `parseAmount` reads back every amount `formatAmount` writes; the `int64_t` `formatAmount` of a
negative amount is `-` before that of its absolute value; and with at least one decimal place,
`parseAmount` succeeds exactly on the texts that trim to a decimal amount below `2 ^ 64`, and
returns that amount. -/
theorem amount_text_codec :
    (∀ (places : Nat) (amount : UInt64),
      parseAmount places (formatAmount places amount) = some amount) ∧
    (∀ (places : Nat) (amount : Int64), amount < 0 →
      formatAmountInt64 places amount = 45 :: formatAmount places amount.toInt.natAbs.toUInt64) ∧
    (∀ places : Nat, 0 < places → ∀ str : List UInt8,
      ((∃ amount, parseAmount places str = some amount) ↔
        ∃ value < 2 ^ 64, DecimalAmount places (trim str) value) ∧
      ∀ amount : UInt64,
        parseAmount places str = some amount ↔ DecimalAmount places (trim str) amount.toNat) :=
  ⟨parseAmount_formatAmount, fun places _ negative => formatAmountInt64_of_neg places negative,
    fun _ positive str => ⟨parseAmount_isSome_iff positive str, parseAmount_eq_some_iff positive str⟩⟩

end Dynex
