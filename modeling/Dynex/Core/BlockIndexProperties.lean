import Dynex.Core.BlockIndex

/-!
# The sparse chain finds a close common block

A peer on chain `B` answers a sparse chain of chain `A` with the height of the first block in it
that `B` holds. When `A` and `B` hold the same blocks up to a fork height and none above it, the
samples at or below the fork are exactly those `B` holds, each at its own height. The samples lie
at distances 1, 2, 4, ... below the start, so the first one at or below the fork lies at most as
far below it as the start lies above it.

`doBuildSparseChain` from an alternative block samples the branch by its own distances and then
restarts them at the block the branch leaves from. Its heights are not those of the sparse chain
of the whole chain `A` the branch ends, but the found block is as close to the fork.
-/

set_option autoImplicit false

namespace Dynex.BlockIndex

open Crypto DoublingSchedule

/-! ## Chains that fork -/

/-- Chains `A` and `B` of unique block hashes that hold the same blocks up to height `fork`, and
no common block above it. -/
structure Forked (A B : List Hash) (fork : Nat) : Prop where
  nodup_left : A.Nodup
  nodup_right : B.Nodup
  fork_lt_left : fork < A.length
  fork_lt_right : fork < B.length
  common : A.take (fork + 1) = B.take (fork + 1)
  apart : ∀ block ∈ A.drop (fork + 1), block ∉ B.drop (fork + 1)

section Forked

variable {A B : List Hash} {fork : Nat}

theorem getD_take {blocks : List Hash} {length x : Nat} (below : x < length) :
    (blocks.take length).getD x NULL_HASH = blocks.getD x NULL_HASH := by
  simp [below]

theorem getD_of_take_eq {left right : List Hash} {length x : Nat}
    (same : left.take length = right.take length) (below : x < length) :
    left.getD x NULL_HASH = right.getD x NULL_HASH := by
  rw [← getD_take below, same, getD_take below]

theorem Forked.getD_eq (forked : Forked A B fork) {x : Nat} (atMost : x ≤ fork) :
    A.getD x NULL_HASH = B.getD x NULL_HASH :=
  getD_of_take_eq forked.common (by omega)

theorem Forked.getD_not_mem (forked : Forked A B fork) {x : Nat} (above : fork < x)
    (below : x < A.length) : A.getD x NULL_HASH ∉ B := by
  intro member
  obtain ⟨y, yBelow, found⟩ := List.getElem_of_mem member
  rw [← List.getD_eq_getElem _ NULL_HASH yBelow] at found
  by_cases low : y ≤ fork
  · rw [← forked.getD_eq low] at found
    have same := getD_injective forked.nodup_left (by have := forked.fork_lt_left; omega) below
      found
    omega
  · have inDrop : A.getD x NULL_HASH ∈ A.drop (fork + 1) := by
      rw [List.getD_eq_getElem _ _ below]
      exact List.mem_iff_getElem.mpr ⟨x - (fork + 1), by simp; omega, by simp; congr 1; omega⟩
    apply forked.apart _ inDrop
    rw [← found, List.getD_eq_getElem _ _ yBelow]
    exact List.mem_iff_getElem.mpr ⟨y - (fork + 1), by simp; omega, by simp; congr 1; omega⟩

theorem Forked.findSupplement_heights (forked : Forked A B fork) (heights : List Nat)
    (within : ∀ x ∈ heights, x < A.length) (offset : UInt32) :
    findSupplement B (heights.map (A.getD · NULL_HASH)) offset =
      match heights.find? (fun x => decide (x ≤ fork)) with
      | some k => (true, UInt32.ofNat k)
      | none => (false, offset) := by
  induction heights with
  | nil => rfl
  | cons x rest inductionHypothesis =>
      have later := inductionHypothesis fun y member => within y (List.mem_cons_of_mem _ member)
      by_cases atMost : x ≤ fork
      · have found : getBlockHeight B (A.getD x NULL_HASH) = some (UInt32.ofNat x) := by
          rw [forked.getD_eq atMost]
          exact getBlockHeight_getD forked.nodup_right (by have := forked.fork_lt_right; omega)
        simp only [List.map_cons, findSupplement, found, List.find?_cons, atMost, decide_true]
      · have missing : getBlockHeight B (A.getD x NULL_HASH) = none := by
          rw [getBlockHeight, if_neg (forked.getD_not_mem (by omega) (within x List.mem_cons_self))]
        simp only [List.map_cons, findSupplement, missing, List.find?_cons, atMost,
          decide_false]
        exact later

end Forked

/-! ## The sampled heights -/

theorem getLast?_of_zero_mem {heights : List Nat} (decreasing : heights.Pairwise (· > ·))
    (zero : 0 ∈ heights) : heights.getLast? = some 0 := by
  induction heights with
  | nil => cases zero
  | cons height rest inductionHypothesis =>
      obtain ⟨above, decreasingRest⟩ := List.pairwise_cons.mp decreasing
      rcases List.mem_cons.mp zero with first | later
      · have empty : rest = [] := List.eq_nil_iff_forall_not_mem.mpr fun y member => by
          have := above y member
          omega
        rw [empty, ← first]
        rfl
      · rw [List.getLast?_cons, inductionHypothesis decreasingRest later]
        rfl

section Samples

variable {bound top : Nat}

theorem mem_samples (within : bound ≤ top + 1) {x : Nat}
    (member : x ∈ (powersUpTo bound 0).map (top + 1 - ·)) : top + 1 - bound ≤ x ∧ x ≤ top := by
  obtain ⟨i, power, rfl⟩ := List.mem_map.mp member
  have range := mem_powersUpTo power
  simp only [pow_zero] at range
  omega

theorem pairwise_samples (within : bound ≤ top + 1) :
    ((powersUpTo bound 0).map (top + 1 - ·)).Pairwise (· > ·) := by
  rw [List.pairwise_map]
  refine pairwise_powersUpTo.imp_of_mem fun {smaller larger} _ largerPower less => ?_
  have range := mem_powersUpTo largerPower
  omega

theorem find?_samples (within : bound ≤ top + 1) (fork : Nat) :
    ((powersUpTo bound 0).map (top + 1 - ·)).find? (fun x => decide (x ≤ fork)) =
      ((powersUpTo bound 0).find? (fun i => decide (top + 1 - fork ≤ i))).map (top + 1 - ·) := by
  rw [List.find?_map]
  congr 1
  apply List.find?_congr
  intro i power
  have range := mem_powersUpTo power
  simp only [Function.comp_apply, decide_eq_decide]
  omega

end Samples

theorem sparseHeights_eq_cons (top : Nat) : ∃ rest, sparseHeights top = top :: rest := by
  have first : powersUpTo (top + 1) 0 = 1 :: powersUpTo (top + 1) 1 :=
    powersUpTo_of_le (by norm_num)
  simp only [sparseHeights, first, List.map_cons, Nat.add_sub_cancel]
  split_ifs
  · exact ⟨_, rfl⟩
  · exact ⟨_, rfl⟩

theorem getLast?_sparseHeights (top : Nat) : (sparseHeights top).getLast? = some 0 := by
  simp only [sparseHeights]
  split_ifs with genesis
  · exact genesis
  · exact List.getLast?_concat

theorem pairwise_sparseHeights (top : Nat) : (sparseHeights top).Pairwise (· > ·) := by
  have decreasing := pairwise_samples (le_refl (top + 1))
  simp only [sparseHeights]
  split_ifs with genesis
  · exact decreasing
  · refine List.pairwise_append.mpr ⟨decreasing, List.pairwise_singleton _ _, ?_⟩
    intro x sample y member
    rw [List.mem_singleton.mp member]
    rcases Nat.eq_zero_or_pos x with xZero | xPositive
    · exact absurd (getLast?_of_zero_mem decreasing (xZero ▸ sample)) genesis
    · exact xPositive

/-- The first sampled height at or below a fork at or below `top` lies at most as far below the
fork as `top` lies above it. -/
theorem find?_sparseHeights {top fork : Nat} (forkLe : fork ≤ top) :
    ∃ k, (sparseHeights top).find? (fun x => decide (x ≤ fork)) = some k ∧ k ≤ fork ∧
      fork - k ≤ top - fork := by
  have samples := find?_samples (le_refl (top + 1)) fork
  simp only [sparseHeights]
  cases found : (powersUpTo (top + 1) 0).find? (fun i => decide (top + 1 - fork ≤ i)) with
  | some i =>
      obtain ⟨reached, double⟩ := find?_powersUpTo_lt_double (by simp; omega) found
      rw [found] at samples
      refine ⟨top + 1 - i, ?_, by omega, by omega⟩
      split_ifs
      · exact samples
      · rw [List.find?_append, samples]
        rfl
  | none =>
      obtain ⟨i, power, double⟩ := @exists_mem_powersUpTo_double_gt (top + 1) 0 (by simp)
      have short : ¬ top + 1 - fork ≤ i := by
        simpa using List.find?_eq_none.mp found i power
      rw [found] at samples
      have noZero : ((powersUpTo (top + 1) 0).map (top + 1 - ·)).getLast? ≠ some 0 := by
        intro last
        have zeroFound := List.find?_eq_none.mp samples 0 (List.mem_of_getLast? last)
        simp at zeroFound
      refine ⟨0, ?_, Nat.zero_le _, by omega⟩
      rw [if_neg noZero, List.find?_append, samples]
      rfl

theorem find?_sparseHeights_of_le {top fork : Nat} (topLe : top ≤ fork) :
    (sparseHeights top).find? (fun x => decide (x ≤ fork)) = some top := by
  obtain ⟨rest, heights⟩ := sparseHeights_eq_cons top
  rw [heights, List.find?_cons, decide_eq_true topLe]

/-! ## From an alternative block -/

def branchHeights (p m : Nat) : List Nat :=
  (powersUpTo m 0).map (p + m + 1 - ·) ++ sparseHeights p

theorem le_of_mem_branchHeights {p m x : Nat} (member : x ∈ branchHeights p m) : x ≤ p + m := by
  rcases List.mem_append.mp member with sample | sparse
  · exact (mem_samples (by omega) sample).2
  · have := le_of_mem_sparseHeights sparse
    omega

theorem pairwise_branchHeights (p m : Nat) : (branchHeights p m).Pairwise (· > ·) := by
  refine List.pairwise_append.mpr ⟨pairwise_samples (by omega), pairwise_sparseHeights p, ?_⟩
  intro x sample y sparse
  have above := (mem_samples (by omega) sample).1
  have below := le_of_mem_sparseHeights sparse
  omega

theorem getLast?_branchHeights (p m : Nat) : (branchHeights p m).getLast? = some 0 := by
  rw [branchHeights, List.getLast?_append, getLast?_sparseHeights]
  rfl

theorem find?_branchHeights {p m fork : Nat} (nonempty : 0 < m) (forkLe : fork ≤ p + m) :
    ∃ k, (branchHeights p m).find? (fun x => decide (x ≤ fork)) = some k ∧ k ≤ fork ∧
      fork - k ≤ p + m - fork := by
  have samples := find?_samples (show m ≤ p + m + 1 by omega) fork
  rw [branchHeights, List.find?_append]
  cases found : (powersUpTo m 0).find? (fun i => decide (p + m + 1 - fork ≤ i)) with
  | some i =>
      obtain ⟨reached, double⟩ := find?_powersUpTo_lt_double (by simp; omega) found
      rw [found] at samples
      refine ⟨p + m + 1 - i, ?_, by omega, by omega⟩
      rw [samples]
      rfl
  | none =>
      obtain ⟨i, power, double⟩ := @exists_mem_powersUpTo_double_gt m 0 (by simp; omega)
      have short : ¬ p + m + 1 - fork ≤ i := by
        simpa using List.find?_eq_none.mp found i power
      rw [found] at samples
      rw [samples, Option.map_none, Option.none_or]
      by_cases mainFork : fork ≤ p
      · obtain ⟨k, sparse, atMost, close⟩ := find?_sparseHeights mainFork
        exact ⟨k, sparse, atMost, by omega⟩
      · exact ⟨p, find?_sparseHeights_of_le (by omega), by omega, by omega⟩

/-- The sparse chain of an alternative block, read as heights of the chain the branch ends. -/
theorem doBuildSparseChain_heights {M alt : List Hash} {m_alternative_chains : List (Hash × Hash)}
    {p : Nat} (mainNodup : M.Nodup) (below : p < M.length) (fits : p + 1 < 2 ^ 32)
    (branch : Branch m_alternative_chains (M.getD p NULL_HASH) alt) (distinct : alt.Nodup)
    (nonempty : 0 < alt.length) (offMain : alt.getD (alt.length - 1) NULL_HASH ∉ M) :
    doBuildSparseChain M m_alternative_chains (alt.getD (alt.length - 1) NULL_HASH) =
      .ok ((branchHeights p alt.length).map ((M.take (p + 1) ++ alt).getD · NULL_HASH)) := by
  have prefixLength : (M.take (p + 1)).length = p + 1 := by
    rw [List.length_take]
    omega
  have branchBlocks : (powersUpTo alt.length 0).map (fun i => alt.getD (alt.length - i) NULL_HASH) =
      ((powersUpTo alt.length 0).map (p + alt.length + 1 - ·)).map
        ((M.take (p + 1) ++ alt).getD · NULL_HASH) := by
    rw [List.map_map]
    apply List.map_congr_left
    intro i power
    have range := mem_powersUpTo power
    simp only [pow_zero] at range
    simp only [Function.comp_apply]
    rw [List.getD_append_right _ _ _ _ (by omega), prefixLength]
    congr 1
    omega
  have mainBlocks : (sparseHeights p).map (M.getD · NULL_HASH) =
      (sparseHeights p).map ((M.take (p + 1) ++ alt).getD · NULL_HASH) := by
    apply List.map_congr_left
    intro x sparse
    have atMost := le_of_mem_sparseHeights sparse
    rw [List.getD_append _ _ _ _ (by omega), getD_take (by omega)]
  rw [doBuildSparseChain_branch mainNodup below fits branch distinct nonempty offMain,
    branchHeights, List.map_append, branchBlocks, mainBlocks]

/-! ## The locator -/

/-- The locator of a chain `A` of fewer than `2 ^ 32` blocks, built from its last block at height
`h`, holds its blocks at heights `h`, `h - 1`, `h - 3`, ..., falling to the genesis block. A
chain `B` that holds the same blocks as `A` up to a fork and none above it answers it with a
block both hold, at a height `k` no further below the fork than `h` lies above it. From the
newest block of an alternative branch of `m` blocks off the main-chain block at height `p`, the
locator holds the branch's blocks at `h`, `h - 1`, `h - 3`, ... down to `h + 1 - 2 ^ j ≤ h + 1 - m`
with `h = p + m`, and then the locator of the main-chain block; `B` forked from the chain the
branch ends answers it within the same distance. -/
theorem sparse_chain_finds_close_common_block :
    (∀ (A B : List Hash) (fork : Nat), Forked A B fork → A.length < 2 ^ 32 →
      buildSparseChain A (A.getD (A.length - 1) NULL_HASH) =
          .ok ((sparseHeights (A.length - 1)).map (A.getD · NULL_HASH)) ∧
        (sparseHeights (A.length - 1)).Pairwise (· > ·) ∧
        (sparseHeights (A.length - 1)).head? = some (A.length - 1) ∧
        (sparseHeights (A.length - 1)).getLast? = some 0 ∧
        ∃ k, findSupplement B ((sparseHeights (A.length - 1)).map (A.getD · NULL_HASH)) 0 =
            (true, UInt32.ofNat k) ∧
          B.getD k NULL_HASH = A.getD k NULL_HASH ∧ k ≤ fork ∧
          fork - k ≤ A.length - 1 - fork) ∧
    (∀ (M alt B : List Hash) (m_alternative_chains : List (Hash × Hash)) (p fork : Nat),
      M.Nodup → p < M.length → Branch m_alternative_chains (M.getD p NULL_HASH) alt →
      0 < alt.length → alt.getD (alt.length - 1) NULL_HASH ∉ M →
      Forked (M.take (p + 1) ++ alt) B fork → p + 1 + alt.length < 2 ^ 32 →
      doBuildSparseChain M m_alternative_chains (alt.getD (alt.length - 1) NULL_HASH) =
          .ok ((branchHeights p alt.length).map ((M.take (p + 1) ++ alt).getD · NULL_HASH)) ∧
        (branchHeights p alt.length).Pairwise (· > ·) ∧
        (branchHeights p alt.length).getLast? = some 0 ∧
        ∃ k, findSupplement B ((branchHeights p alt.length).map
              ((M.take (p + 1) ++ alt).getD · NULL_HASH)) 0 = (true, UInt32.ofNat k) ∧
          B.getD k NULL_HASH = (M.take (p + 1) ++ alt).getD k NULL_HASH ∧ k ≤ fork ∧
          fork - k ≤ p + alt.length - fork) := by
  constructor
  · intro A B fork forked fits
    have forkBelow := forked.fork_lt_left
    obtain ⟨k, found, atMost, close⟩ := find?_sparseHeights (show fork ≤ A.length - 1 by omega)
    obtain ⟨rest, heights⟩ := sparseHeights_eq_cons (A.length - 1)
    have answer := forked.findSupplement_heights (sparseHeights (A.length - 1))
      (fun x member => by have := le_of_mem_sparseHeights member; omega) 0
    rw [found] at answer
    refine ⟨buildSparseChain_getD forked.nodup_left (by omega) (by omega),
      pairwise_sparseHeights _, by rw [heights]; rfl, getLast?_sparseHeights _,
      k, answer, (forked.getD_eq atMost).symm, atMost, close⟩
  · intro M alt B m_alternative_chains p fork mainNodup below branch nonempty offMain forked fits
    have forkBelow := forked.fork_lt_left
    have prefixLength : (M.take (p + 1) ++ alt).length = p + 1 + alt.length := by
      rw [List.length_append, List.length_take]
      omega
    rw [prefixLength] at forkBelow
    obtain ⟨k, found, atMost, close⟩ := find?_branchHeights nonempty (show fork ≤ p + alt.length by omega)
    have answer := forked.findSupplement_heights (branchHeights p alt.length)
      (fun x member => by have := le_of_mem_branchHeights member; omega) 0
    rw [found] at answer
    refine ⟨doBuildSparseChain_heights mainNodup below (by omega) branch
        forked.nodup_left.of_append_right nonempty offMain,
      pairwise_branchHeights _ _, getLast?_branchHeights _ _,
      k, answer, (forked.getD_eq atMost).symm, atMost, close⟩

def blockHash (n : UInt8) : Hash := ⟨Pod.ofByte n⟩

theorem locator_of_one_block_branch :
    (∃ k, findSupplement [blockHash 0] ((sparseHeights 0).map ([blockHash 0].getD · NULL_HASH)) 0 =
        (true, UInt32.ofNat k)) ∧
      ∃ k, findSupplement [blockHash 0] ((branchHeights 0 1).map
        (([blockHash 0].take (0 + 1) ++ [blockHash 1]).getD · NULL_HASH)) 0 =
          (true, UInt32.ofNat k) := by
  have oneBlock : Forked [blockHash 0] [blockHash 0] 0 :=
    ⟨by decide, by decide, by decide, by decide, rfl, by decide⟩
  have branch : Branch [(blockHash 1, blockHash 0)] ([blockHash 0].getD 0 NULL_HASH) [blockHash 1] :=
    ⟨fun _ => by decide, fun j tooFar => absurd tooFar (by simp), by decide⟩
  have branchForked : Forked ([blockHash 0].take (0 + 1) ++ [blockHash 1]) [blockHash 0] 0 :=
    ⟨by decide, by decide, by decide, by decide, rfl, by decide⟩
  obtain ⟨_, _, _, _, mainFound⟩ :=
    sparse_chain_finds_close_common_block.1 [blockHash 0] [blockHash 0] 0 oneBlock (by decide)
  obtain ⟨_, _, _, branchFound⟩ :=
    sparse_chain_finds_close_common_block.2 [blockHash 0] [blockHash 1] [blockHash 0]
      [(blockHash 1, blockHash 0)] 0 0 (by decide) (by decide) branch (by decide) (by decide)
      branchForked (by decide)
  exact ⟨mainFound.imp fun _ found => found.1, branchFound.imp fun _ found => found.1⟩

/-- From an alternative block the samples restart at the ancestor: with four main-chain blocks
and a branch of one block off the last, the branch block's locator holds the blocks at heights
4, 3, 2 and 0 of the chain it ends, where that chain's own locator holds heights 4, 3, 1 and 0. -/
theorem branch_sparse_chain_restarts_at_ancestor :
    doBuildSparseChain [blockHash 0, blockHash 1, blockHash 2, blockHash 3]
        [(blockHash 4, blockHash 3)] (blockHash 4) =
      .ok [blockHash 4, blockHash 3, blockHash 2, blockHash 0] ∧
    buildSparseChain [blockHash 0, blockHash 1, blockHash 2, blockHash 3, blockHash 4]
        (blockHash 4) =
      .ok [blockHash 4, blockHash 3, blockHash 1, blockHash 0] := by
  decide +kernel

end Dynex.BlockIndex
