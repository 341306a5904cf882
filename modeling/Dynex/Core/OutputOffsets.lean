import Dynex.Core.Basic

/-!
# Ring members as relative offsets

A key input names the outputs of its ring by their global indexes among the outputs of its amount,
packed as offsets: the first is absolute, each other is the distance to the one before
(`absolute_output_offsets_to_relative`, `relative_output_offsets_to_absolute` of
`DynexCNFormatUtils.cpp`). `core::check_tx_inputs_keyimages_diff` rejects a zero offset after the
first. The offsets are `uint32_t`, so the running sums wrap: distinct ring members are guaranteed
only while the offsets add up to less than `2 ^ 32`.
-/

set_option autoImplicit false

namespace Dynex

open Crypto

def runningSums (previous : UInt32) : List UInt32 → List UInt32
  | [] => []
  | offset :: rest => (previous + offset) :: runningSums (previous + offset) rest

def relative_output_offsets_to_absolute : List UInt32 → List UInt32
  | [] => []
  | first :: rest => first :: runningSums first rest

def differencesFrom (previous : UInt32) : List UInt32 → List UInt32
  | [] => []
  | value :: rest => (value - previous) :: differencesFrom value rest

/-- `absolute_output_offsets_to_relative(off)`: sorted, then each entry from the last down to the
second less the entry before it, which the loop has not changed yet. -/
def absolute_output_offsets_to_relative (off : List UInt32) : List UInt32 :=
  if off.isEmpty then off
  else
    match off.mergeSort (fun left right => decide (left ≤ right)) with
    | [] => []
    | first :: rest => first :: differencesFrom first rest

/-- The loop of `core::check_tx_inputs_keyimages_diff` over the inputs, with the key images seen
so far; `inDomain` is the test `scalarmultKey(keyImage, L) == I`. -/
def checkKeyInputs (inDomain : KeyImage → Bool) (ki : List KeyImage) :
    List TransactionInput → Bool
  | [] => true
  | .key input :: rest =>
      if input.keyImage ∈ ki then false
      else if input.outputIndexes.isEmpty then false
      else if !inDomain input.keyImage then false
      -- the first index is absolute and may be zero, the offsets after it may not
      else if 0 ∈ input.outputIndexes.tail then false
      else checkKeyInputs inDomain (input.keyImage :: ki) rest
  | _ :: rest => checkKeyInputs inDomain ki rest

def check_tx_inputs_keyimages_diff (inDomain : KeyImage → Bool) (tx : Transaction) : Bool :=
  checkKeyInputs inDomain [] tx.inputs

/-! ## Offsets back to indexes -/

theorem runningSums_differencesFrom (previous : UInt32) (values : List UInt32) :
    runningSums previous (differencesFrom previous values) = values := by
  induction values generalizing previous with
  | nil => rfl
  | cons value rest inductionHypothesis =>
      simp only [differencesFrom, runningSums, add_sub_cancel, inductionHypothesis]

theorem relative_output_offsets_to_absolute_of_relative (values : List UInt32) :
    relative_output_offsets_to_absolute (absolute_output_offsets_to_relative values) =
      values.mergeSort (fun left right => decide (left ≤ right)) := by
  unfold absolute_output_offsets_to_relative
  split_ifs with empty
  · rw [List.isEmpty_iff.mp empty, List.mergeSort_nil]
    rfl
  · split
    · rename_i sortedNil
      rw [sortedNil]
      rfl
    · rename_i first rest sortedCons
      rw [sortedCons, relative_output_offsets_to_absolute, runningSums_differencesFrom]

/-! ## Ring members after the check -/

/-- The running sums after `previous` of nonzero offsets that add up below `2 ^ 32` rise strictly
above `previous`. -/
theorem runningSums_pairwise_lt {previous : UInt32} {offsets : List UInt32}
    (nonzero : 0 ∉ offsets) (fits : previous.toNat + (offsets.map UInt32.toNat).sum < 2 ^ 32) :
    (runningSums previous offsets).Pairwise (· < ·) ∧
      ∀ sum ∈ runningSums previous offsets, previous < sum := by
  induction offsets generalizing previous with
  | nil => exact ⟨List.Pairwise.nil, by simp [runningSums]⟩
  | cons offset rest inductionHypothesis =>
      have positive : offset ≠ 0 := fun zero => nonzero (zero ▸ List.mem_cons_self)
      have offsetPositive : 0 < offset.toNat := by
        rcases Nat.eq_zero_or_pos offset.toNat with zero | positiveOffset
        · exact absurd (UInt32.toNat_inj.mp zero) positive
        · exact positiveOffset
      simp only [List.map_cons, List.sum_cons] at fits
      have sumToNat : (previous + offset).toNat = previous.toNat + offset.toNat := by
        rw [UInt32.toNat_add, Nat.mod_eq_of_lt (by omega)]
      have above : previous < previous + offset := by
        rw [UInt32.lt_iff_toNat_lt, sumToNat]
        omega
      obtain ⟨ordered, later⟩ := @inductionHypothesis (previous + offset)
        (fun zero => nonzero (List.mem_cons_of_mem _ zero)) (by rw [sumToNat]; omega)
      refine ⟨List.Pairwise.cons later ordered, ?_⟩
      intro sum member
      rcases List.mem_cons.mp member with first | inRest
      · exact first ▸ above
      · exact UInt32.lt_trans above (later sum inRest)

theorem checkKeyInputs_key {inDomain : KeyImage → Bool} {ki : List KeyImage}
    {inputs : List TransactionInput} (accepted : checkKeyInputs inDomain ki inputs = true)
    {input : KeyInput} (member : .key input ∈ inputs) :
    input.outputIndexes ≠ [] ∧ 0 ∉ input.outputIndexes.tail := by
  induction inputs generalizing ki with
  | nil => cases member
  | cons head rest inductionHypothesis =>
      rcases List.mem_cons.mp member with same | later
      · subst same
        simp only [checkKeyInputs] at accepted
        split_ifs at accepted with seen empty outside zero
        exact ⟨fun none => empty (by rw [none]; rfl), zero⟩
      · cases head with
        | key current =>
            simp only [checkKeyInputs] at accepted
            split_ifs at accepted
            exact inductionHypothesis accepted later
        | base _ => exact inductionHypothesis accepted later
        | multisignature _ => exact inductionHypothesis accepted later

/-- After the check, the ring members of a key input are distinct as long as its offsets add up
to less than `2 ^ 32`; and unpacking packed indexes gives them back sorted. -/
theorem relative_output_offsets_distinct_of_no_wrap (inDomain : KeyImage → Bool)
    (tx : Transaction) (accepted : check_tx_inputs_keyimages_diff inDomain tx = true)
    {input : KeyInput} (member : .key input ∈ tx.inputs)
    (fits : (input.outputIndexes.map UInt32.toNat).sum < 2 ^ 32) :
    (relative_output_offsets_to_absolute input.outputIndexes).Nodup ∧
      ∀ values : List UInt32,
        relative_output_offsets_to_absolute (absolute_output_offsets_to_relative values) =
          values.mergeSort (fun left right => decide (left ≤ right)) := by
  refine ⟨?_, relative_output_offsets_to_absolute_of_relative⟩
  obtain ⟨nonempty, nonzero⟩ := checkKeyInputs_key accepted member
  obtain ⟨first, rest, indexes⟩ := List.exists_cons_of_ne_nil nonempty
  rw [indexes] at nonzero fits ⊢
  simp only [List.tail_cons, List.map_cons, List.sum_cons] at nonzero fits
  obtain ⟨ordered, above⟩ := runningSums_pairwise_lt nonzero fits
  rw [relative_output_offsets_to_absolute]
  have increasing : (first :: runningSums first rest).Pairwise (· < ·) := List.Pairwise.cons above ordered
  exact increasing.imp fun {left right} below => (UInt32.ne_of_lt below : left ≠ right)

theorem distinct_ring_of_small_offsets :
    check_tx_inputs_keyimages_diff (fun _ => true)
        { version := 1, unlockTime := 0, inputs := [.key ⟨1, [0, 1, 2], ⟨Pod.zero 32⟩⟩],
          outputs := [], extra := [], signatures := [] } = true ∧
      (relative_output_offsets_to_absolute [0, 1, 2]).Nodup := by
  have accepted : check_tx_inputs_keyimages_diff (fun _ => true)
      { version := 1, unlockTime := 0, inputs := [.key ⟨1, [0, 1, 2], ⟨Pod.zero 32⟩⟩],
        outputs := [], extra := [], signatures := [] } = true := by decide
  exact ⟨accepted, (relative_output_offsets_distinct_of_no_wrap _ _ accepted
    List.mem_cons_self (by decide)).1⟩

theorem keyimages_diff_of_wrapping_offsets (inDomain : KeyImage → Bool) (keyImage : KeyImage) :
    check_tx_inputs_keyimages_diff inDomain
        { version := 1, unlockTime := 0, inputs := [.key ⟨1, [0, 1, 4294967295], keyImage⟩],
          outputs := [], extra := [], signatures := [] } = inDomain keyImage ∧
      relative_output_offsets_to_absolute [0, 1, 4294967295] = [0, 1, 0] := by
  refine ⟨?_, by decide⟩
  cases valid : inDomain keyImage <;>
    simp [check_tx_inputs_keyimages_diff, checkKeyInputs, valid]

/-- The zero key image, in a domain that holds every image, with offsets `0, 1, 2 ^ 32 - 1`. -/
theorem wrapping_offsets_repeat_ring_member :
    check_tx_inputs_keyimages_diff (fun _ => true)
        { version := 1, unlockTime := 0, inputs := [.key ⟨1, [0, 1, 4294967295], ⟨Pod.zero 32⟩⟩],
          outputs := [], extra := [], signatures := [] } = true ∧
      relative_output_offsets_to_absolute [0, 1, 4294967295] = [0, 1, 0] :=
  keyimages_diff_of_wrapping_offsets (fun _ => true) ⟨Pod.zero 32⟩

end Dynex
