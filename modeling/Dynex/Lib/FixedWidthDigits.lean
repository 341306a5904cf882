import Mathlib.Data.Nat.Digits.Defs

/-!
# Fixed-width digits and blocks

A block codec writes a number as exactly `width` digits in a base, padding with zeros, and
reads a digit string back as its value. `fixedDigits` gives the digits least significant first,
which Mathlib's `Nat.ofDigits` reads back; a big-endian codec uses their reverse. The two are
inverse on numbers below `base ^ width` and on digit strings of length `width`
(`ofDigits_fixedDigits`, `fixedDigits_ofDigits`).

A codec that works block by block cuts its input at multiples of the block size: `blocks size
count input` are the first `count` blocks, and what follows them is the last, shorter block.
The flatten of the blocks and the rest is the input (`flatten_blocks`), and cutting a flatten of
blocks of one size gives back those blocks (`blocks_flatten`).
-/

set_option autoImplicit false

namespace FixedWidthDigits

def fixedDigits (base : Nat) : Nat → Nat → List Nat
  | 0, _ => []
  | width + 1, number => number % base :: fixedDigits base width (number / base)

section Digits

variable {base : Nat}

@[simp] theorem length_fixedDigits :
    ∀ (width number : Nat), (fixedDigits base width number).length = width
  | 0, _ => rfl
  | width + 1, number => by simp [fixedDigits, length_fixedDigits width]

theorem lt_of_mem_fixedDigits (positive : 0 < base) :
    ∀ {width number digit : Nat}, digit ∈ fixedDigits base width number → digit < base
  | 0, _, _, member => by cases member
  | width + 1, number, digit, member => by
      rcases List.mem_cons.mp member with rfl | later
      · exact Nat.mod_lt _ positive
      · exact lt_of_mem_fixedDigits positive later

theorem ofDigits_fixedDigits :
    ∀ (width number : Nat), Nat.ofDigits base (fixedDigits base width number) =
      number % base ^ width
  | 0, number => by simp [fixedDigits, Nat.mod_one]
  | width + 1, number => by
      rw [fixedDigits, Nat.ofDigits_cons, ofDigits_fixedDigits width, Nat.pow_succ',
        Nat.mod_mul]

theorem fixedDigits_ofDigits :
    ∀ (digits : List Nat), (∀ digit ∈ digits, digit < base) →
      fixedDigits base digits.length (Nat.ofDigits base digits) = digits
  | [], _ => rfl
  | digit :: digits, small => by
      have below := small digit List.mem_cons_self
      have positive : 0 < base := by omega
      have low : (digit + base * Nat.ofDigits base digits) % base = digit := by
        rw [Nat.add_mul_mod_self_left, Nat.mod_eq_of_lt below]
      have high : (digit + base * Nat.ofDigits base digits) / base = Nat.ofDigits base digits := by
        rw [Nat.add_mul_div_left _ _ positive, Nat.div_eq_of_lt below, Nat.zero_add]
      rw [List.length_cons, fixedDigits, Nat.ofDigits_cons, low, high,
        fixedDigits_ofDigits digits fun other member => small other (List.mem_cons_of_mem _ member)]

theorem getElem?_fixedDigits :
    ∀ {width : Nat} (number : Nat) {k : Nat}, k < width →
      (fixedDigits base width number)[k]? = some (number / base ^ k % base)
  | 0, _, _, within => absurd within (Nat.not_lt_zero _)
  | width + 1, number, 0, _ => by simp [fixedDigits]
  | width + 1, number, k + 1, within => by
      rw [fixedDigits, List.getElem?_cons_succ, getElem?_fixedDigits (number / base) (by omega),
        Nat.div_div_eq_div_mul, Nat.pow_succ']

theorem fixedDigits_zero : ∀ (width : Nat), fixedDigits base width 0 = List.replicate width 0
  | 0 => rfl
  | width + 1 => by simp [fixedDigits, fixedDigits_zero width, List.replicate_succ]

theorem foldl_mul_add (init : Nat) :
    ∀ (digits : List Nat), digits.foldl (fun value digit => value * base + digit) init =
      init * base ^ digits.length + Nat.ofDigits base digits.reverse
  | [] => by simp
  | digit :: digits => by
      rw [List.foldl_cons, foldl_mul_add (init * base + digit) digits,
        Nat.ofDigits_reverse_cons, List.length_cons, Nat.pow_succ]
      ring

end Digits

/-! ## Blocks -/

section Blocks

variable {α : Type} (size : Nat)

def blocks (count : Nat) (input : List α) : List (List α) :=
  (List.range count).map fun i => (input.drop (i * size)).take size

theorem blocks_zero (input : List α) : blocks size 0 input = [] := rfl

theorem blocks_succ (count : Nat) (input : List α) :
    blocks size (count + 1) input = input.take size :: blocks size count (input.drop size) := by
  simp only [blocks, List.range_succ_eq_map, List.map_cons, List.map_map, Function.comp_def,
    Nat.zero_mul, List.drop_zero, List.drop_drop, Nat.succ_mul, Nat.add_comm]

@[simp] theorem length_blocks (count : Nat) (input : List α) :
    (blocks size count input).length = count := by
  simp [blocks]

theorem flatten_blocks :
    ∀ (count : Nat) (input : List α), count * size ≤ input.length →
      (blocks size count input).flatten ++ input.drop (count * size) = input
  | 0, input, _ => by simp [blocks_zero]
  | count + 1, input, enough => by
      have rest : count * size ≤ (input.drop size).length := by
        rw [List.length_drop, Nat.succ_mul] at *
        omega
      rw [blocks_succ, List.flatten_cons, List.append_assoc, Nat.succ_mul, Nat.add_comm,
        ← List.drop_drop, flatten_blocks count (input.drop size) rest, List.take_append_drop]

theorem length_flatten_of_sized {pieces : List (List α)}
    (sized : ∀ piece ∈ pieces, piece.length = size) : pieces.flatten.length = pieces.length * size := by
  rw [List.length_flatten, List.map_congr_left sized, List.map_const', List.sum_replicate_nat]

theorem length_of_mem_blocks {count : Nat} {input : List α} (enough : count * size ≤ input.length)
    {block : List α} (member : block ∈ blocks size count input) : block.length = size := by
  obtain ⟨i, within, rfl⟩ := List.mem_map.mp member
  have below : i * size + size ≤ input.length := by
    have : (i + 1) * size ≤ count * size :=
      Nat.mul_le_mul_right _ (List.mem_range.mp within)
    rw [Nat.succ_mul] at this
    omega
  simp only [List.length_take, List.length_drop]
  omega

theorem blocks_flatten :
    ∀ (pieces : List (List α)) (rest : List α), (∀ piece ∈ pieces, piece.length = size) →
      blocks size pieces.length (pieces.flatten ++ rest) = pieces ∧
        (pieces.flatten ++ rest).drop (pieces.length * size) = rest
  | [], rest, _ => by simp [blocks_zero]
  | piece :: pieces, rest, sized => by
      have own := sized piece List.mem_cons_self
      have others := blocks_flatten pieces rest fun other member =>
        sized other (List.mem_cons_of_mem _ member)
      have front : (piece :: pieces).flatten ++ rest = piece ++ (pieces.flatten ++ rest) := by
        rw [List.flatten_cons, List.append_assoc]
      rw [front, List.length_cons, blocks_succ, List.take_left' own, List.drop_left' own,
        others.1, Nat.succ_mul, Nat.add_comm, ← List.drop_drop, List.drop_left' own, others.2]
      exact ⟨rfl, rfl⟩

theorem mapM_eq_some_map {β : Type} {decode : α → Option β} {decoded : α → β} :
    ∀ (pieces : List α), (∀ piece ∈ pieces, decode piece = some (decoded piece)) →
      pieces.mapM decode = some (pieces.map decoded)
  | [], _ => rfl
  | piece :: pieces, each => by
      rw [List.mapM_cons, each piece List.mem_cons_self,
        mapM_eq_some_map pieces fun other member => each other (List.mem_cons_of_mem _ member)]
      rfl

theorem mapM_cons_eq_some {β : Type} {decode : α → Option β} {piece : α} {pieces : List α}
    {decoded : List β} :
    (piece :: pieces).mapM decode = some decoded ↔
      ∃ result results, decode piece = some result ∧ pieces.mapM decode = some results ∧
        decoded = result :: results := by
  rw [List.mapM_cons]
  cases own : decode piece with
  | none => simp
  | some result =>
      cases others : pieces.mapM decode with
      | none => simp
      | some results =>
          simp only [Option.pure_def, Option.bind_eq_bind, Option.bind_some, Option.some.injEq,
            exists_and_left, exists_eq_left']
          exact eq_comm

theorem map_of_mapM_eq_some {β : Type} {decode : α → Option β} {encode : β → α}
    {holds : β → Prop} :
    ∀ {pieces : List α} {decoded : List β},
      (∀ piece ∈ pieces, ∀ result, decode piece = some result →
        encode result = piece ∧ holds result) →
      pieces.mapM decode = some decoded →
        decoded.map encode = pieces ∧ ∀ result ∈ decoded, holds result
  | [], decoded, _, done => by
      cases done
      exact ⟨rfl, by simp⟩
  | piece :: _, _, inverse, done => by
      obtain ⟨result, results, own, others, rfl⟩ := mapM_cons_eq_some.mp done
      obtain ⟨encoded, holdsOwn⟩ := inverse piece List.mem_cons_self result own
      obtain ⟨encodedOthers, holdsOthers⟩ := map_of_mapM_eq_some
        (fun other member => inverse other (List.mem_cons_of_mem _ member)) others
      exact ⟨by rw [List.map_cons, encoded, encodedOthers],
        List.forall_mem_cons.mpr ⟨holdsOwn, holdsOthers⟩⟩

end Blocks

end FixedWidthDigits
