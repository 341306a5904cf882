import Dynex.Crypto.Types
import Dynex.Lib.DoublingSchedule

/-!
# The block index and the sparse chain

`BlockIndex` (`DynexCNCore/BlockIndex.h`, `BlockIndex.cpp`) keeps the main chain's block hashes
in order, with a hashed index over them; `push` refuses a hash already present, so the hashes
are unique. A node describes its chain to a peer by a sparse chain (`buildSparseChain`): the
hashes at distances 1, 2, 4, ... below the end of the chain, and the genesis hash. The peer
answers from the first of them it holds (`findSupplement`). `Blockchain::doBuildSparseChain`
(`Blockchain.cpp`) may start from an alternative block: it samples the alternative branch the
same way and appends the sparse chain of the main-chain block the branch leaves from.
-/

set_option autoImplicit false

namespace Dynex.BlockIndex

open Crypto DoublingSchedule

def getBlockHeight (m_container : List Hash) (h : Hash) : Option UInt32 :=
  if h ∈ m_container then some (UInt32.ofNat (m_container.idxOf h)) else none

/-- `BlockIndex::findSupplement(ids, offset)`: `offset` is set to the height of the first of
`ids` the index holds, and left as it was when there is none. -/
def findSupplement (m_container : List Hash) : List Hash → UInt32 → Bool × UInt32
  | [], offset => (false, offset)
  | id :: ids, offset =>
      match getBlockHeight m_container id with
      | some height => (true, height)
      | none => findSupplement m_container ids offset

/-- `BlockIndex::buildSparseChain(startBlockId)`. The loop's counter `i` runs over the powers of
two up to `sparseChainEnd`; `back()` of an empty result is undefined behaviour, reported as an
error. -/
def buildSparseChain (m_container : List Hash) (startBlockId : Hash) : Except String (List Hash) :=
  let startBlockHeight := (getBlockHeight m_container startBlockId).getD 0
  let sparseChainEnd := (startBlockHeight + 1).toNat
  let result := (powersUpTo sparseChainEnd 0).map fun i =>
    m_container.getD (sparseChainEnd - i) NULL_HASH
  match result.getLast? with
  | none => throw "buildSparseChain: back() of an empty vector"
  | some back =>
      if back != m_container.getD 0 NULL_HASH then pure (result ++ [m_container.getD 0 NULL_HASH])
      else pure result

/-! ## The sparse chain of a main-chain block -/

def sparseHeights (top : Nat) : List Nat :=
  let samples := (powersUpTo (top + 1) 0).map (top + 1 - ·)
  if samples.getLast? = some 0 then samples else samples ++ [0]

variable {A : List Hash}

theorem getBlockHeight_getD (nodup : A.Nodup) {x : Nat} (below : x < A.length) :
    getBlockHeight A (A.getD x NULL_HASH) = some (UInt32.ofNat x) := by
  rw [List.getD_eq_getElem _ _ below, getBlockHeight, if_pos (List.getElem_mem below),
    nodup.idxOf_getElem]

theorem getD_injective (nodup : A.Nodup) {x y : Nat} (xBelow : x < A.length)
    (yBelow : y < A.length) (same : A.getD x NULL_HASH = A.getD y NULL_HASH) : x = y := by
  rw [List.getD_eq_getElem _ _ xBelow, List.getD_eq_getElem _ _ yBelow] at same
  exact (nodup.getElem_inj_iff).mp same

theorem le_of_mem_sparseHeights {top x : Nat} (member : x ∈ sparseHeights top) : x ≤ top := by
  have samples : ∀ y ∈ (powersUpTo (top + 1) 0).map (top + 1 - ·), y ≤ top := by
    intro y sample
    obtain ⟨i, power, rfl⟩ := List.mem_map.mp sample
    have positive : 1 ≤ i := by simpa using (mem_powersUpTo power).1
    omega
  simp only [sparseHeights] at member
  split_ifs at member
  · exact samples x member
  · rcases List.mem_append.mp member with sample | genesis
    · exact samples x sample
    · rw [List.mem_singleton.mp genesis]
      exact Nat.zero_le _

/-- The sparse chain of the block at height `top` holds the blocks at `sparseHeights top`. -/
theorem buildSparseChain_getD (nodup : A.Nodup) {top : Nat} (below : top < A.length)
    (fits : top + 1 < 2 ^ 32) :
    buildSparseChain A (A.getD top NULL_HASH) = .ok ((sparseHeights top).map (A.getD · NULL_HASH)) := by
  have sparseChainEnd :
      ((getBlockHeight A (A.getD top NULL_HASH)).getD 0 + 1).toNat = top + 1 := by
    rw [getBlockHeight_getD nodup below, Option.getD_some, UInt32.toNat_add, UInt32.toNat_ofNat']
    have small : top % 2 ^ 32 = top := Nat.mod_eq_of_lt (by omega)
    rw [small]
    exact Nat.mod_eq_of_lt fits
  have sampled : ((powersUpTo (top + 1) 0).map fun i => A.getD (top + 1 - i) NULL_HASH) =
      ((powersUpTo (top + 1) 0).map (top + 1 - ·)).map (A.getD · NULL_HASH) := by
    rw [List.map_map]
    rfl
  have nonempty : (powersUpTo (top + 1) 0).map (top + 1 - ·) ≠ [] := by
    rw [powersUpTo_of_le (by norm_num)]
    exact List.cons_ne_nil _ _
  have atMost : ∀ y ∈ (powersUpTo (top + 1) 0).map (top + 1 - ·), y ≤ top := fun y sample =>
    le_of_mem_sparseHeights (by simp only [sparseHeights]; split_ifs <;> simp [sample])
  simp only [buildSparseChain, sparseChainEnd]
  rw [sampled]
  dsimp only [sparseHeights]
  generalize (powersUpTo (top + 1) 0).map (top + 1 - ·) = samples at nonempty atMost ⊢
  rw [List.getLast?_map]
  cases last : samples.getLast? with
  | none => exact absurd (List.getLast?_eq_none_iff.mp last) nonempty
  | some height =>
      dsimp only [Option.map_some]
      by_cases genesis : height = 0
      · subst genesis
        rw [bne_self_eq_false, if_neg Bool.false_ne_true, if_pos rfl]
        rfl
      · have bounded := atMost height (List.mem_of_getLast? last)
        have other : A.getD height NULL_HASH ≠ A.getD 0 NULL_HASH := fun same =>
          genesis (getD_injective nodup (by omega) (by omega) same)
        rw [if_pos (bne_iff_ne.mpr other), if_neg (by simpa using genesis), List.map_append]
        rfl

end Dynex.BlockIndex

namespace Dynex

open Crypto DoublingSchedule BlockIndex

/-- The walk of `Blockchain::doBuildSparseChain` through `m_alternative_chains`, given as each
alternative block's hash with its `previousBlockHash`: the blocks passed, from the start back,
and the first previous hash that is no alternative block. A walk of more steps than the map has
entries repeats a block, and the loop of the source never ends; the model then gives `none`. -/
def alternativeChainWalk (m_alternative_chains : List (Hash × Hash)) :
    Nat → Hash → Option (List Hash × Hash)
  | fuel, id =>
      match m_alternative_chains.lookup id with
      | none => some ([], id)
      | some previousBlockHash =>
          match fuel with
          | 0 => none
          | fuel + 1 =>
              (alternativeChainWalk m_alternative_chains fuel previousBlockHash).map
                fun (alternativeChain, blockchainAncestor) =>
                  (id :: alternativeChain, blockchainAncestor)

/-- `Blockchain::doBuildSparseChain(startBlockId)` over `m_blockIndex` and the alternative
blocks. -/
def doBuildSparseChain (m_blockIndex : List Hash) (m_alternative_chains : List (Hash × Hash))
    (startBlockId : Hash) : Except String (List Hash) :=
  if startBlockId ∈ m_blockIndex then buildSparseChain m_blockIndex startBlockId
  else
    match alternativeChainWalk m_alternative_chains m_alternative_chains.length startBlockId with
    | none => throw "doBuildSparseChain: the walk through m_alternative_chains does not end"
    | some (alternativeChain, blockchainAncestor) => do
        let sparseChain := (powersUpTo alternativeChain.length 0).map fun i =>
          alternativeChain.getD (i - 1) NULL_HASH
        let sparseMainChain ← buildSparseChain m_blockIndex blockchainAncestor
        pure (sparseChain ++ sparseMainChain)

def findBlockchainSupplement (m_blockIndex : List Hash) (qblock_ids : List Hash) : UInt32 :=
  (findSupplement m_blockIndex qblock_ids 0).2

/-! ## The sparse chain of an alternative block -/

/-- `m_alternative_chains` holds the branch `alt`, oldest block first, off the main-chain block
`blockchainAncestor`: the first block's previous hash is the ancestor, each other block's is the
block before it, and the ancestor is no alternative block. -/
structure Branch (m_alternative_chains : List (Hash × Hash)) (blockchainAncestor : Hash)
    (alt : List Hash) : Prop where
  first : 0 < alt.length →
    m_alternative_chains.lookup (alt.getD 0 NULL_HASH) = some blockchainAncestor
  next : ∀ j, j + 1 < alt.length →
    m_alternative_chains.lookup (alt.getD (j + 1) NULL_HASH) = some (alt.getD j NULL_HASH)
  ancestor : m_alternative_chains.lookup blockchainAncestor = none

theorem take_succ_reverse {l : List Hash} {j : Nat} (below : j < l.length) :
    (l.take (j + 1)).reverse = l.getD j NULL_HASH :: (l.take j).reverse := by
  rw [List.take_add_one, List.getElem?_eq_getElem below, List.getD_eq_getElem _ _ below]
  simp

theorem mem_keys_of_lookup {entries : List (Hash × Hash)} {key value : Hash}
    (found : entries.lookup key = some value) : key ∈ entries.map Prod.fst := by
  obtain ⟨front, back, split, _⟩ := List.lookup_eq_some_iff.mp found
  rw [split]
  simp

section Branch

variable {m_alternative_chains : List (Hash × Hash)} {blockchainAncestor : Hash} {alt : List Hash}

theorem alternativeChainWalk_branch (branch : Branch m_alternative_chains blockchainAncestor alt)
    {j : Nat} (below : j < alt.length) {fuel : Nat} (enough : j < fuel) :
    alternativeChainWalk m_alternative_chains fuel (alt.getD j NULL_HASH) =
      some ((alt.take (j + 1)).reverse, blockchainAncestor) := by
  obtain ⟨rest, rfl⟩ : ∃ rest, fuel = rest + 1 := ⟨fuel - 1, by omega⟩
  induction j generalizing rest with
  | zero =>
      rw [alternativeChainWalk, branch.first below]
      dsimp only
      rw [alternativeChainWalk, branch.ancestor, take_succ_reverse below]
      rfl
  | succ j inductionHypothesis =>
      rw [alternativeChainWalk, branch.next j below]
      dsimp only
      obtain ⟨rest, rfl⟩ : ∃ smaller, rest = smaller + 1 := ⟨rest - 1, by omega⟩
      rw [inductionHypothesis (by omega) rest (by omega), take_succ_reverse below]
      rfl

theorem length_le_of_branch (branch : Branch m_alternative_chains blockchainAncestor alt)
    (distinct : alt.Nodup) : alt.length ≤ m_alternative_chains.length := by
  have keys : alt ⊆ m_alternative_chains.map Prod.fst := by
    intro block member
    obtain ⟨j, below, rfl⟩ := List.getElem_of_mem member
    rw [← List.getD_eq_getElem _ NULL_HASH below]
    cases j with
    | zero => exact mem_keys_of_lookup (branch.first below)
    | succ j => exact mem_keys_of_lookup (branch.next j below)
  simpa using distinct.length_le_of_subset keys

/-- From the newest block of a branch, `doBuildSparseChain` samples the branch at distances
1, 2, 4, ... below its end and appends the sparse chain of the ancestor. -/
theorem doBuildSparseChain_branch {M : List Hash} {p : Nat} (mainNodup : M.Nodup)
    (below : p < M.length) (fits : p + 1 < 2 ^ 32)
    (branch : Branch m_alternative_chains (M.getD p NULL_HASH) alt) (distinct : alt.Nodup)
    (nonempty : 0 < alt.length) (offMain : alt.getD (alt.length - 1) NULL_HASH ∉ M) :
    doBuildSparseChain M m_alternative_chains (alt.getD (alt.length - 1) NULL_HASH) =
      .ok ((powersUpTo alt.length 0).map (fun i => alt.getD (alt.length - i) NULL_HASH) ++
        (sparseHeights p).map (M.getD · NULL_HASH)) := by
  have enough := length_le_of_branch branch distinct
  have walk := alternativeChainWalk_branch branch (by omega : alt.length - 1 < alt.length)
    (by omega : alt.length - 1 < m_alternative_chains.length)
  rw [Nat.sub_add_cancel nonempty, List.take_length] at walk
  rw [doBuildSparseChain, if_neg offMain, walk]
  dsimp only
  rw [buildSparseChain_getD mainNodup below fits, List.length_reverse]
  have reversed : (powersUpTo alt.length 0).map (fun i => alt.reverse.getD (i - 1) NULL_HASH) =
      (powersUpTo alt.length 0).map (fun i => alt.getD (alt.length - i) NULL_HASH) := by
    apply List.map_congr_left
    intro i power
    obtain ⟨positive, atMost⟩ := mem_powersUpTo power
    rw [List.getD_reverse (i - 1) (by simp at positive; omega)]
    congr 1
    simp at positive
    omega
  rw [reversed]
  rfl

end Branch

end Dynex
