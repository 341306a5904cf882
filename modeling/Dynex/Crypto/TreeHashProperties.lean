import Dynex.Crypto.TreeHash

/-!
# Tree hash: the branch and the root agree

The tree over `count` hashes has a level of `2 ^ log2 count` nodes, `firstLevel`, and its root,
`merkleRoot`, is that level's perfect root. `tree_hash` builds its level one power of two lower
when `count` is a power of two. It then pairs every leaf, and that level is the one above: the
roots agree (`tree_hash_eq_merkleRoot`). `tree_branch` collects the siblings of the first hash
on `firstLevel`, and `tree_hash_from_branch` folds them back to the root. Among lists of one
length the root determines the hashes, unless the pairing collides on the pairs the two trees
hash (`tree_hash_injOn`).

The counts' arithmetic comes first: the smearing gives the highest bit, and both shift searches
find its position, for every count of 64 bits.
-/

set_option autoImplicit false

namespace Dynex.Crypto

open MerkleTree

/-! ## Counts -/

theorem log2_eq_of_bounds {count depth : Nat} (low : 2 ^ depth ≤ count)
    (high : count < 2 ^ (depth + 1)) : count.log2 = depth := by
  have positive : count ≠ 0 := by
    have := Nat.two_pow_pos depth
    omega
  apply Nat.le_antisymm
  · exact Nat.lt_succ_iff.mp ((Nat.log2_lt positive).mpr high)
  · exact (Nat.le_log2 positive).mpr low

theorem log2_shiftRight {count i : Nat} (high : 2 ^ i ≤ count) :
    (count >>> i).log2 + i = count.log2 := by
  rw [Nat.shiftRight_eq_div_pow]
  have shifted : count / 2 ^ i ≠ 0 :=
    Nat.pos_iff_ne_zero.mp (Nat.div_pos_iff.mpr ⟨Nat.two_pow_pos i, high⟩)
  have low := Nat.log2_self_le shifted
  have top := @Nat.lt_log2_self (count / 2 ^ i)
  symm
  apply log2_eq_of_bounds
  · rw [Nat.pow_add]
    exact (Nat.le_div_iff_mul_le (Nat.two_pow_pos i)).mp low
  · rw [Nat.add_right_comm, Nat.pow_add]
    exact (Nat.div_lt_iff_lt_mul (Nat.two_pow_pos i)).mp top

def halvingShifts : Nat → List Nat
  | 0 => []
  | k + 1 => 2 ^ k :: halvingShifts k

theorem searchShifts_eq : searchShifts = halvingShifts 6 := rfl

theorem two_pow_two_pow_succ (k : Nat) : 2 ^ 2 ^ (k + 1) = 2 ^ (2 ^ k + 2 ^ k) := by
  rw [Nat.pow_succ, Nat.mul_two]

theorem treeDepthLoop_halvingShifts :
    ∀ (k count depth : Nat), 0 < count → count < 2 ^ 2 ^ k →
      treeDepthLoop (halvingShifts k) count depth = depth + count.log2
  | 0, count, depth, _, small => by
      have one : count.log2 = 0 := log2_eq_of_bounds (by omega) (by simpa using small)
      rw [one]
      rfl
  | k + 1, count, depth, positive, small => by
      rw [halvingShifts, treeDepthLoop, two_pow_two_pow_succ, Nat.pow_add] at *
      by_cases high : count >>> 2 ^ k > 0
      · have reaches : 2 ^ 2 ^ k ≤ count := by
          rw [Nat.shiftRight_eq_div_pow] at high
          exact (Nat.div_pos_iff.mp high).2
        have shifted : count >>> 2 ^ k < 2 ^ 2 ^ k := by
          rw [Nat.shiftRight_eq_div_pow, Nat.div_lt_iff_lt_mul (Nat.two_pow_pos _)]
          exact small
        rw [if_pos high, treeDepthLoop_halvingShifts k _ _ high shifted, ← log2_shiftRight reaches]
        omega
      · have below : count < 2 ^ 2 ^ k := by
          rw [Nat.shiftRight_eq_div_pow, gt_iff_lt, Nat.div_pos_iff] at high
          exact Nat.lt_of_not_le fun reaches => high ⟨Nat.two_pow_pos _, reaches⟩
        rw [if_neg high, treeDepthLoop_halvingShifts k _ _ positive below]

theorem tree_depth_eq {count : Nat} (positive : 0 < count) (fits : count < 2 ^ 64) :
    tree_depth count = some count.log2 := by
  rw [tree_depth, if_neg (by omega), searchShifts_eq,
    treeDepthLoop_halvingShifts 6 count 0 positive fits, Nat.zero_add]

theorem treeBranchSearch_halvingShifts :
    ∀ (k count depth : Nat), 2 ^ depth ≤ count → count < 2 ^ (depth + 2 ^ k) →
      treeBranchSearch count (halvingShifts k) (2 ^ depth) depth = (2 ^ count.log2, count.log2)
  | 0, count, depth, low, high => by
      rw [log2_eq_of_bounds low (by simpa using high)]
      rfl
  | k + 1, count, depth, low, high => by
      rw [halvingShifts, treeBranchSearch, Nat.shiftLeft_eq, ← Nat.pow_add]
      rw [Nat.pow_succ, Nat.mul_two, ← Nat.add_assoc] at high
      by_cases up : 2 ^ (depth + 2 ^ k) ≤ count
      · rw [if_pos up]
        exact treeBranchSearch_halvingShifts k count (depth + 2 ^ k) up high
      · rw [if_neg up]
        exact treeBranchSearch_halvingShifts k count depth low (Nat.lt_of_not_le up)

theorem treeBranchSearch_eq {count : Nat} (positive : 0 < count) (fits : count < 2 ^ 64) :
    treeBranchSearch count searchShifts 1 0 = (2 ^ count.log2, count.log2) :=
  treeBranchSearch_halvingShifts 6 count 0 positive fits

def doublingShifts (k : Nat) : List Nat := (List.range k).map (2 ^ ·)

theorem smearShifts_eq : smearShifts = doublingShifts 6 := rfl

theorem testBit_smear :
    ∀ (k value j : Nat),
      ((doublingShifts k).foldl (fun cnt i => cnt ||| cnt >>> i) value).testBit j = true ↔
        ∃ t < 2 ^ k, value.testBit (j + t) = true
  | 0, value, j => by simp [doublingShifts]
  | k + 1, value, j => by
      rw [doublingShifts, List.range_succ, List.map_append, List.foldl_append, ← doublingShifts]
      simp only [List.map_cons, List.map_nil, List.foldl_cons, List.foldl_nil, Nat.testBit_or,
        Nat.testBit_shiftRight, Bool.or_eq_true, testBit_smear k, Nat.pow_succ]
      constructor
      · rintro (⟨t, below, set⟩ | ⟨t, below, set⟩)
        · exact ⟨t, by omega, set⟩
        · exact ⟨2 ^ k + t, by omega, by rwa [show j + (2 ^ k + t) = 2 ^ k + j + t by omega]⟩
      · rintro ⟨t, below, set⟩
        by_cases low : t < 2 ^ k
        · exact Or.inl ⟨t, low, set⟩
        · refine Or.inr ⟨t - 2 ^ k, by omega, ?_⟩
          rwa [show 2 ^ k + j + (t - 2 ^ k) = j + t by omega]

theorem smear_eq {value : Nat} (positive : 0 < value) (small : value < 2 ^ 64) :
    smearShifts.foldl (fun cnt i => cnt ||| cnt >>> i) value = 2 ^ (value.log2 + 1) - 1 := by
  have top : value.log2 < 64 := (Nat.log2_lt (by omega)).mpr small
  apply Nat.eq_of_testBit_eq
  intro j
  rw [Nat.testBit_two_pow_sub_one, smearShifts_eq]
  apply Bool.eq_iff_iff.mpr
  rw [testBit_smear, decide_eq_true_iff]
  constructor
  · rintro ⟨t, _, set⟩
    have reached : j + t ≤ value.log2 := by
      refine Nat.le_of_not_lt fun above => ?_
      have clear := Nat.testBit_lt_two_pow
        (Nat.lt_of_lt_of_le Nat.lt_log2_self (Nat.pow_le_pow_right (by decide) above))
      rw [clear] at set
      cases set
    omega
  · intro below
    refine ⟨value.log2 - j, show value.log2 - j < 64 by omega, ?_⟩
    rw [show j + (value.log2 - j) = value.log2 by omega]
    exact Nat.testBit_log2 (by omega)

theorem keepHighest_eq {top : Nat} (small : top < 64) :
    (2 ^ (top + 1) - 1) &&& complement ((2 ^ (top + 1) - 1) >>> 1) = 2 ^ top := by
  apply Nat.eq_of_testBit_eq
  intro j
  simp only [complement, Nat.testBit_and, Nat.testBit_xor, Nat.testBit_shiftRight,
    Nat.testBit_two_pow_sub_one, Nat.testBit_two_pow]
  by_cases below : j < top <;> by_cases reached : top = j <;> by_cases word : j < 64 <;>
    simp [reached, word] <;> omega

theorem highestBit_eq {value : Nat} (positive : 0 < value) (small : value < 2 ^ 64) :
    highestBit value = 2 ^ value.log2 := by
  simp only [highestBit]
  rw [smear_eq positive small]
  exact keepHighest_eq ((Nat.log2_lt (by omega)).mpr small)

theorem half_two_pow (n : Nat) : 2 ^ (n + 1) >>> 1 = 2 ^ n := by
  rw [Nat.shiftRight_eq_div_pow, Nat.pow_one, Nat.pow_succ, Nat.mul_div_cancel _ (by decide)]

/-! ## Levels -/

section Levels

variable {α : Type} (hashPair : α → α → α)

def firstLevel (cnt : Nat) (hashes : List α) : List α :=
  hashes.take (2 * cnt - hashes.length) ++
    pairUp hashPair (hashes.drop (2 * cnt - hashes.length))

def merkleRoot (hashes : List α) : Option α :=
  perfectRoot hashPair hashes.length.log2 (firstLevel hashPair (2 ^ hashes.length.log2) hashes)

variable {hashPair}

theorem length_firstLevel {cnt : Nat} {hashes : List α} (low : cnt ≤ hashes.length)
    (high : hashes.length ≤ 2 * cnt) : (firstLevel hashPair cnt hashes).length = cnt := by
  simp only [firstLevel, List.length_append, List.length_take, length_pairUp, List.length_drop]
  omega

theorem log2_bounds {count : Nat} (positive : 0 < count) :
    2 ^ count.log2 ≤ count ∧ count < 2 * 2 ^ count.log2 := by
  have high := @Nat.lt_log2_self count
  rw [Nat.pow_succ] at high
  exact ⟨Nat.log2_self_le (by omega), by omega⟩

theorem length_firstLevel_log2 {hashes : List α} (nonempty : hashes ≠ []) :
    (firstLevel hashPair (2 ^ hashes.length.log2) hashes).length = 2 ^ hashes.length.log2 := by
  obtain ⟨low, high⟩ := log2_bounds (List.length_pos_of_ne_nil nonempty)
  exact length_firstLevel low (by omega)

theorem firstLevel_double {cnt : Nat} {hashes : List α} (double : hashes.length = 2 * cnt) :
    firstLevel hashPair (2 * cnt) hashes = hashes ∧
      firstLevel hashPair cnt hashes = pairUp hashPair hashes := by
  have all : 2 * (2 * cnt) - hashes.length = hashes.length := by omega
  have none : 2 * cnt - hashes.length = 0 := by omega
  constructor
  · rw [firstLevel, all, List.take_length, List.drop_length, pairUp_nil, List.append_nil]
  · rw [firstLevel, none, List.take_zero, List.drop_zero, List.nil_append]

theorem merkleRoot_eq {hashes : List α} {m : Nat} (low : 2 ^ m < hashes.length)
    (high : hashes.length ≤ 2 ^ (m + 1)) :
    merkleRoot hashPair hashes = perfectRoot hashPair m (firstLevel hashPair (2 ^ m) hashes) := by
  by_cases top : hashes.length = 2 ^ (m + 1)
  · obtain ⟨leaves, paired⟩ := @firstLevel_double _ hashPair (2 ^ m) hashes
      (by rw [top, Nat.pow_succ, Nat.mul_comm])
    have level : firstLevel hashPair (2 ^ (m + 1)) hashes = hashes := by
      rw [Nat.pow_succ, Nat.mul_comm]
      exact leaves
    rw [merkleRoot, top, Nat.log2_two_pow, level, perfectRoot, paired]
  · rw [merkleRoot, log2_eq_of_bounds (Nat.le_of_lt low) (by omega)]

/-! ## The loops -/

theorem hashPairsLoop_eq (hashes : List α) :
    ∀ (rounds i : Nat), i + 2 * rounds ≤ hashes.length →
      hashPairsLoop hashPair hashes rounds i =
        some (pairUp hashPair ((hashes.drop i).take (2 * rounds)), i + 2 * rounds)
  | 0, i, _ => by simp [hashPairsLoop]
  | rounds + 1, i, within => by
      have first : i < hashes.length := by omega
      have second : i + 1 < hashes.length := by omega
      rw [hashPairsLoop, List.getElem?_eq_getElem first, List.getElem?_eq_getElem second,
        hashPairsLoop_eq hashes rounds (i + 2) (by omega), List.drop_eq_getElem_cons first,
        List.drop_eq_getElem_cons second, Nat.mul_succ, List.take_succ_cons, List.take_succ_cons,
        pairUp_cons_cons]
      simp only [Option.bind_eq_bind, Option.bind_some, Option.pure_def]
      rw [Nat.add_assoc i 1 1]
      congr 2
      omega

theorem halveLoop_eq :
    ∀ (m fuel : Nat) (ints : List α), m ≤ fuel →
      halveLoop hashPair fuel (2 ^ (m + 1)) ints = (pairUp hashPair)^[m] ints
  | 0, 0, _, _ => rfl
  | 0, fuel + 1, ints, _ => by
      rw [halveLoop, if_neg (by decide)]
      rfl
  | m + 1, 0, _, within => absurd within (by omega)
  | m + 1, fuel + 1, ints, within => by
      have more : 2 ^ (m + 1 + 1) > 2 := by
        have := Nat.two_pow_pos m
        rw [Nat.pow_succ, Nat.pow_succ]
        omega
      rw [halveLoop, if_pos more, half_two_pow, halveLoop_eq m fuel _ (by omega),
        Function.iterate_succ_apply]

theorem branchLoop_eq :
    ∀ (depth : Nat) (ints : List α), ints.length + 1 = 2 ^ depth →
      branchLoop hashPair depth (2 ^ depth) ints = some (leftmostBranch hashPair depth ints)
  | 0, _, _ => rfl
  | depth + 1, [], sized => by
      have : 2 ≤ 2 ^ (depth + 1) := Nat.le_self_pow (Nat.succ_ne_zero depth) 2
      simp only [List.length_nil] at sized
      omega
  | depth + 1, sibling :: rest, sized => by
      have upperSized : (pairUp hashPair rest).length + 1 = 2 ^ depth := by
        rw [length_pairUp]
        rw [List.length_cons, Nat.pow_succ] at sized
        omega
      rw [branchLoop, if_neg (by rw [Nat.one_shiftLeft]; exact not_not.mpr rfl)]
      simp only [List.getElem?_cons_zero, Option.bind_eq_bind, Option.bind_some, half_two_pow,
        List.drop_succ_cons, List.drop_zero, branchLoop_eq depth _ upperSized, Option.pure_def]
      rfl

theorem fromBranchLoop_none (branch : List α) (leaf : α) :
    ∀ (k : Nat) (buffer : α × α), k ≤ branch.length →
      ∃ last, fromBranchLoop hashPair branch none leaf k false buffer = some last ∧
        hashPair last.1 last.2 = foldBranch hashPair (hashPair buffer.1 buffer.2) (branch.take k)
  | 0, buffer, _ => ⟨buffer, rfl, rfl⟩
  | k + 1, buffer, within => by
      have present : k < branch.length := by omega
      obtain ⟨last, loop, value⟩ := fromBranchLoop_none branch leaf k
        (hashPair buffer.1 buffer.2, branch[k]) (by omega)
      refine ⟨last, ?_, ?_⟩
      · simpa [fromBranchLoop, pathBit, List.getElem?_eq_getElem present] using loop
      · rw [value, List.take_add_one, List.getElem?_eq_getElem present, Option.toList_some,
          foldBranch_append]
        rfl

theorem tree_hash_from_branch_none (branch : List α) (leaf : α) :
    tree_hash_from_branch hashPair branch branch.length leaf none =
      some (foldBranch hashPair leaf branch) := by
  rcases Nat.eq_zero_or_pos branch.length with empty | positive
  · rw [List.length_eq_zero_iff.mp empty]
    rfl
  obtain ⟨k, sized⟩ : ∃ k, branch.length = k + 1 := ⟨branch.length - 1, by omega⟩
  have present : k < branch.length := by omega
  obtain ⟨last, loop, value⟩ := @fromBranchLoop_none _ hashPair branch leaf k (leaf, branch[k])
    (by omega)
  have whole : branch.take k ++ [branch[k]] = branch := by
    have all : branch.take (k + 1) = branch := List.take_of_length_le (by omega)
    rwa [List.take_add_one, List.getElem?_eq_getElem present, Option.toList_some] at all
  rw [tree_hash_from_branch, if_neg (by omega), sized, fromBranchLoop]
  simp only [if_true, List.getElem?_eq_getElem present, Option.bind_eq_bind, Option.bind_some,
    pathBit, Bool.false_eq_true, if_false, loop, Option.pure_def, value]
  have folded : foldBranch hashPair leaf (branch.take k ++ [branch[k]]) =
      foldBranch hashPair (hashPair leaf branch[k]) (branch.take k) :=
    foldBranch_append leaf _ _
  rw [whole] at folded
  rw [folded]

/-! ## The root and the branch -/

/-- `tree_hash` is the root of the tree: from three hashes on, its level of `cnt` nodes, the
highest power of two below the count, is paired down to two nodes. -/
theorem tree_hash_eq_merkleRoot (hashes : List α) (nonempty : hashes ≠ [])
    (fits : hashes.length < 2 ^ 64) : tree_hash hashPair hashes = merkleRoot hashPair hashes := by
  have positive := List.length_pos_of_ne_nil nonempty
  by_cases one : hashes.length = 1
  · obtain ⟨leaf, rfl⟩ := List.length_eq_one_iff.mp one
    have bottom : Nat.log2 1 = 0 := log2_eq_of_bounds (by decide) (by decide)
    simp [tree_hash, merkleRoot, bottom, firstLevel, perfectRoot]
  by_cases two : hashes.length = 2
  · obtain ⟨left, right, rfl⟩ := List.length_eq_two.mp two
    have pair : Nat.log2 2 = 1 := log2_eq_of_bounds (by decide) (by decide)
    simp [tree_hash, merkleRoot, pair, firstLevel, perfectRoot]
  obtain ⟨lower, lowerIs⟩ : ∃ lower, (hashes.length - 1).log2 = lower + 1 := by
    have := (Nat.le_log2 (by omega)).mpr (show 2 ^ 1 ≤ hashes.length - 1 by omega)
    exact ⟨(hashes.length - 1).log2 - 1, by omega⟩
  have low : 2 ^ (lower + 1) ≤ hashes.length - 1 := lowerIs ▸ Nat.log2_self_le (by omega)
  have high : hashes.length - 1 < 2 ^ (lower + 1 + 1) := lowerIs ▸ Nat.lt_log2_self
  have cnt : highestBit (hashes.length - 1) = 2 ^ (lower + 1) :=
    lowerIs ▸ highestBit_eq (by omega) (by omega)
  have deep : lower + 1 < 64 := by
    have bound := (@Nat.log2_lt (hashes.length - 1) 64 (by omega)).mpr (by omega)
    rwa [lowerIs] at bound
  rw [Nat.pow_succ 2 (lower + 1)] at high
  have pairs : hashPairsLoop hashPair hashes (2 ^ (lower + 1) - (2 * 2 ^ (lower + 1) - hashes.length))
      (2 * 2 ^ (lower + 1) - hashes.length) =
        some (pairUp hashPair (hashes.drop (2 * 2 ^ (lower + 1) - hashes.length)), hashes.length) := by
    rw [hashPairsLoop_eq hashes _ _ (by omega), List.take_of_length_le (by simp; omega)]
    congr 2
    omega
  have level := @length_firstLevel _ hashPair (2 ^ (lower + 1)) hashes (by omega) (by omega)
  have topLength :
      ((pairUp hashPair)^[lower] (firstLevel hashPair (2 ^ (lower + 1)) hashes)).length = 2 := by
    rw [length_iterate_pairUp, level, Nat.pow_succ, Nat.mul_div_cancel_left _ (Nat.two_pow_pos lower)]
  obtain ⟨left, right, top⟩ := List.length_eq_two.mp topLength
  rw [@merkleRoot_eq _ hashPair hashes (lower + 1) (by omega)
      (by rw [Nat.pow_succ 2 (lower + 1)]; omega),
    perfectRoot_succ_eq lower _ top]
  simp only [tree_hash, if_neg one, if_neg two, if_neg (Nat.pos_iff_ne_zero.mp positive), cnt, pairs,
    Option.bind_eq_bind, Option.bind_some, ne_eq, not_true_eq_false, if_false]
  rw [show hashes.take (2 * 2 ^ (lower + 1) - hashes.length) ++
      pairUp hashPair (hashes.drop (2 * 2 ^ (lower + 1) - hashes.length)) =
        firstLevel hashPair (2 ^ (lower + 1)) hashes from rfl,
    halveLoop_eq lower 64 _ (by omega), top]
  rfl

/-- `tree_branch` passes its asserts and returns the branch of the first hash on the tree's
level of `2 ^ log2 count` nodes. -/
theorem tree_branch_eq (hashes : List α) (nonempty : hashes ≠ []) (fits : hashes.length < 2 ^ 64) :
    ∃ leaf others, hashes[0]? = some leaf ∧
      firstLevel hashPair (2 ^ hashes.length.log2) hashes = leaf :: others ∧
      tree_branch hashPair hashes = some (leftmostBranch hashPair hashes.length.log2 others) := by
  have positive := List.length_pos_of_ne_nil nonempty
  obtain ⟨low, high⟩ := log2_bounds positive
  obtain ⟨leaf, rest, rfl⟩ := List.exists_cons_of_ne_nil nonempty
  obtain ⟨carried, carriedIs⟩ : ∃ carried,
      2 * 2 ^ (leaf :: rest).length.log2 - (leaf :: rest).length = carried + 1 :=
    ⟨2 * 2 ^ (leaf :: rest).length.log2 - (leaf :: rest).length - 1, by omega⟩
  have level : firstLevel hashPair (2 ^ (leaf :: rest).length.log2) (leaf :: rest) =
      leaf :: (rest.take carried ++
        pairUp hashPair ((leaf :: rest).drop (2 * 2 ^ (leaf :: rest).length.log2 -
          (leaf :: rest).length))) := by
    rw [firstLevel, carriedIs, List.take_succ_cons, List.cons_append]
  refine ⟨leaf, _, rfl, level, ?_⟩
  have sized := @length_firstLevel _ hashPair _ (leaf :: rest) low (by omega)
  rw [level, List.length_cons] at sized
  have pairs : hashPairsLoop hashPair (leaf :: rest)
      (2 ^ (leaf :: rest).length.log2 - 1 -
        (2 * 2 ^ (leaf :: rest).length.log2 - (leaf :: rest).length - 1))
      (2 * 2 ^ (leaf :: rest).length.log2 - (leaf :: rest).length) =
        some (pairUp hashPair ((leaf :: rest).drop (2 * 2 ^ (leaf :: rest).length.log2 -
          (leaf :: rest).length)), (leaf :: rest).length) := by
    rw [hashPairsLoop_eq (leaf :: rest) _ _ (by omega),
      List.take_of_length_le (by rw [List.length_drop]; omega)]
    congr 2
    omega
  simp only [tree_branch, if_neg (Nat.pos_iff_ne_zero.mp positive), treeBranchSearch_eq positive fits,
    tree_depth_eq positive fits, Nat.one_shiftLeft, ne_eq, not_true_eq_false, or_self, if_false,
    pairs, Option.bind_eq_bind, Option.bind_some, List.drop_succ_cons, List.drop_zero]
  rw [show 2 * 2 ^ (leaf :: rest).length.log2 - (leaf :: rest).length - 1 = carried by omega]
  exact branchLoop_eq _ _ sized

/-! ## A pairing without collisions on the pairs it hashes -/

variable (hashPair) in
def merklePairs (hashes : List α) : List (α × α) :=
  pairsOf (hashes.drop (2 * 2 ^ hashes.length.log2 - hashes.length)) ++
    perfectPairs hashPair hashes.length.log2 (firstLevel hashPair (2 ^ hashes.length.log2) hashes)

theorem firstLevel_injOn {cnt : Nat} {first second : List α} (sized : first.length = second.length)
    (high : first.length ≤ 2 * cnt)
    (injective : PairInjOn hashPair (pairsOf (first.drop (2 * cnt - first.length)))
      (pairsOf (second.drop (2 * cnt - second.length))))
    (same : firstLevel hashPair cnt first = firstLevel hashPair cnt second) : first = second := by
  unfold firstLevel at same
  rw [sized] at same injective
  have copiedSized : (first.take (2 * cnt - second.length)).length =
      (second.take (2 * cnt - second.length)).length := by
    simp only [List.length_take, sized]
  obtain ⟨copied, paired⟩ := List.append_inj same copiedSized
  have dropped := pairUp_injOn (by simp only [List.length_drop, sized])
    (by simp only [List.length_drop]; omega) injective paired
  calc first = first.take (2 * cnt - second.length) ++ first.drop (2 * cnt - second.length) :=
        (List.take_append_drop _ first).symm
    _ = second.take (2 * cnt - second.length) ++ second.drop (2 * cnt - second.length) := by
        rw [copied, dropped]
    _ = second := List.take_append_drop _ second

theorem merkleRoot_injOn {first second : List α} (sized : first.length = second.length)
    (nonempty : first ≠ [])
    (injective : PairInjOn hashPair (merklePairs hashPair first) (merklePairs hashPair second))
    (same : merkleRoot hashPair first = merkleRoot hashPair second) : first = second := by
  obtain ⟨low, high⟩ := log2_bounds (List.length_pos_of_ne_nil nonempty)
  have secondPairs : merklePairs hashPair second =
      pairsOf (second.drop (2 * 2 ^ first.length.log2 - second.length)) ++
        perfectPairs hashPair first.length.log2
          (firstLevel hashPair (2 ^ first.length.log2) second) := by
    rw [merklePairs, sized]
  rw [merklePairs, secondPairs] at injective
  unfold merkleRoot at same
  rw [← sized] at same
  have firstSized := @length_firstLevel_log2 _ hashPair _ nonempty
  have secondSized : (firstLevel hashPair (2 ^ first.length.log2) second).length =
      2 ^ first.length.log2 :=
    length_firstLevel (by omega) (by omega)
  have levels := perfectRoot_injOn _ firstSized secondSized
    (injective.mono (List.subset_append_right _ _) (List.subset_append_right _ _)) same
  exact firstLevel_injOn sized (Nat.le_of_lt high)
    (injective.mono (List.subset_append_left _ _) (List.subset_append_left _ _)) levels

theorem tree_hash_injOn {first second : List α} (sized : first.length = second.length)
    (nonempty : first ≠ []) (fits : first.length < 2 ^ 64)
    (injective : PairInjOn hashPair (merklePairs hashPair first) (merklePairs hashPair second))
    (same : tree_hash hashPair first = tree_hash hashPair second) : first = second := by
  have secondNonempty : second ≠ [] := by
    intro empty
    rw [empty, List.length_nil] at sized
    exact nonempty (List.eq_nil_of_length_eq_zero sized)
  rw [tree_hash_eq_merkleRoot first nonempty fits,
    tree_hash_eq_merkleRoot second secondNonempty (sized ▸ fits)] at same
  exact merkleRoot_injOn sized nonempty injective same

theorem tree_hash_isSome (hashes : List α) (nonempty : hashes ≠ []) (fits : hashes.length < 2 ^ 64) :
    (tree_hash hashPair hashes).isSome := by
  rw [tree_hash_eq_merkleRoot hashes nonempty fits, merkleRoot]
  exact perfectRoot_isSome _ _ (length_firstLevel_log2 nonempty)

end Levels

/-- Folding the branch of the first hash from it, over `tree_depth` levels, gives `tree_hash`'s
root, and `tree_depth` is the position of the count's highest bit: for every count of a
`size_t`, and whatever the hash, no assert of `tree_hash` or `tree_branch` fails. -/
theorem tree_branch_root_agrees {α : Type} (hashPair : α → α → α) (hashes : List α)
    (nonempty : hashes ≠ []) (fits : hashes.length < 2 ^ 64) :
    tree_depth hashes.length = some hashes.length.log2 ∧
      ∃ branch root leaf, tree_branch hashPair hashes = some branch ∧
        tree_hash hashPair hashes = some root ∧ hashes[0]? = some leaf ∧
        tree_hash_from_branch hashPair branch hashes.length.log2 leaf none = some root := by
  have positive := List.length_pos_of_ne_nil nonempty
  obtain ⟨leaf, others, first, level, branch⟩ := tree_branch_eq hashes nonempty fits
  have sized := @length_firstLevel_log2 _ hashPair _ nonempty
  rw [level, List.length_cons] at sized
  have fold := @tree_hash_from_branch_none _ hashPair
    (leftmostBranch hashPair hashes.length.log2 others) leaf
  rw [length_leftmostBranch _ _ sized] at fold
  have root : tree_hash hashPair hashes =
      some (foldBranch hashPair leaf (leftmostBranch hashPair hashes.length.log2 others)) := by
    rw [tree_hash_eq_merkleRoot hashes nonempty fits, merkleRoot, level,
      perfectRoot_eq_foldBranch _ _ _ sized]
  exact ⟨tree_depth_eq positive fits, _, _, leaf, branch, root, first, fold⟩

theorem five_leaf_branch_agrees :
    [1, 2, 3, 4, 5] ≠ ([] : List Nat) ∧ [1, 2, 3, 4, 5].length < 2 ^ 64 ∧
      tree_depth [1, 2, 3, 4, 5].length = some [1, 2, 3, 4, 5].length.log2 ∧
      ∃ branch root leaf,
        tree_branch (fun a b : Nat => 3 * a + b + 1) [1, 2, 3, 4, 5] = some branch ∧
        tree_hash (fun a b : Nat => 3 * a + b + 1) [1, 2, 3, 4, 5] = some root ∧
        [1, 2, 3, 4, 5][0]? = some leaf ∧
        tree_hash_from_branch (fun a b : Nat => 3 * a + b + 1) branch
          [1, 2, 3, 4, 5].length.log2 leaf none = some root :=
  ⟨by decide, by decide,
    tree_branch_root_agrees (fun a b : Nat => 3 * a + b + 1) [1, 2, 3, 4, 5] (by decide) (by decide)⟩

end Dynex.Crypto
