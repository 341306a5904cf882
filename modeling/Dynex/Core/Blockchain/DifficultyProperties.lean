import Dynex.Core.Blockchain.MainChainProperties
import Dynex.Core.DifficultyRetarget

/-!
# Alternative-chain windows against main-chain windows

A block on an alternative chain is checked against windows that `handle_alternative_block`
assembles from the alternative chain and the main chain below it. For the difficulty, the window
is exactly the one the main chain would read were the alternative chain spliced onto it
(`get_next_difficulty_for_alternative_chain_eq`), but the height and the version passed on are the
main chain's: they agree with the spliced chain's when the alternative chain ends where the main
chain does, and the mainnet overrides by height tell them apart otherwise.

For the timestamps, the vector holds every timestamp of the alternative chain, however long, and
the completion from the main chain stops before the genesis block. The median it is checked
against depends only on the multiset of timestamps (`medianValue_eq_of_perm`).
-/

set_option autoImplicit false

namespace Dynex

open Crypto Blockchain

variable (currency : Currency)

/-! ## Difficulty -/

def difficultyWindow (count : Nat) (blocks : List BlockEntry) : List BlockEntry :=
  let offset := blocks.length - min blocks.length count
  blocks.drop (if offset = 0 then 1 else offset)

theorem getDifficultyForNextBlock_eq (blocks : List BlockEntry) :
    getDifficultyForNextBlock currency blocks =
      currency.nextDifficulty blocks.length (currency.getBlockMajorVersionForHeight blocks.length)
        ((difficultyWindow (currency.difficultyBlocksCountByBlockVersion
          (currency.getBlockMajorVersionForHeight blocks.length)) blocks).map (·.bl.timestamp))
        ((difficultyWindow (currency.difficultyBlocksCountByBlockVersion
          (currency.getBlockMajorVersionForHeight blocks.length)) blocks).map
          (·.cumulative_difficulty)) :=
  rfl

/-- The alternative path reads the window of the main chain cut at the alternative chain's first
height and followed by the alternative chain, with the height and version of the main chain. -/
theorem get_next_difficulty_for_alternative_chain_eq {blocks alt_chain : List BlockEntry}
    {front : BlockEntry} {rest : List BlockEntry} (bei : BlockEntry)
    (attached : alt_chain = front :: rest) (positive : 0 < front.height)
    (below : front.height ≤ blocks.length) :
    get_next_difficulty_for_alternative_chain currency blocks alt_chain bei =
      currency.nextDifficulty blocks.length (currency.getBlockMajorVersionForHeight blocks.length)
        ((difficultyWindow (currency.difficultyBlocksCountByBlockVersion
          (currency.getBlockMajorVersionForHeight blocks.length))
          (blocks.take front.height ++ alt_chain)).map (·.bl.timestamp))
        ((difficultyWindow (currency.difficultyBlocksCountByBlockVersion
          (currency.getBlockMajorVersionForHeight blocks.length))
          (blocks.take front.height ++ alt_chain)).map (·.cumulative_difficulty)) := by
  unfold get_next_difficulty_for_alternative_chain difficultyWindow
  dsimp only
  generalize currency.difficultyBlocksCountByBlockVersion
    (currency.getBlockMajorVersionForHeight blocks.length) = count
  have spliced : (blocks.take front.height ++ alt_chain).length = front.height + alt_chain.length := by
    simp
    omega
  have nonempty : 0 < alt_chain.length := by simp [attached]
  have first : alt_chain.head? = some front := by simp [attached]
  simp only [first, spliced]
  split
  · rename_i short
    have start : (if front.height - min (count - min count alt_chain.length) front.height = 0 then 1
        else front.height - min (count - min count alt_chain.length) front.height) =
        (if front.height + alt_chain.length - min (front.height + alt_chain.length) count = 0 then 1
          else front.height + alt_chain.length - min (front.height + alt_chain.length) count) := by
      split_ifs <;> omega
    rw [start, List.drop_append_of_le_length (by simp; split_ifs <;> omega), List.drop_take]
    rw [if_neg]
    simp only [List.length_take, List.length_drop]
    split_ifs <;> omega
  · rename_i long
    have start : front.height + alt_chain.length - min (front.height + alt_chain.length) count =
        front.height + (alt_chain.length - count) := by
      omega
    have takeLength : (blocks.take front.height).length = front.height := by
      simp
      omega
    have outside : (blocks.take front.height).drop (front.height + (alt_chain.length - count)) = [] :=
      List.drop_eq_nil_of_le (by omega)
    rw [if_neg (by omega), start, List.drop_append, takeLength, outside, List.nil_append,
      Nat.add_sub_cancel_left]

def windowEntry (height : Nat) (timestamp : UInt64) (extra : List UInt8) : BlockEntry :=
  ⟨sampleBlock height.toUInt32 timestamp NULL_HASH extra [], height, 0, 5000, 0, []⟩

/-- When the alternative chain ends where the main chain does, its next block is given the
difficulty the main chain would give it after the switch. -/
theorem get_next_difficulty_for_alternative_chain_of_same_height {blocks alt_chain : List BlockEntry}
    {front : BlockEntry} {rest : List BlockEntry} (bei : BlockEntry)
    (attached : alt_chain = front :: rest) (positive : 0 < front.height)
    (sameHeight : front.height + alt_chain.length = blocks.length) :
    get_next_difficulty_for_alternative_chain currency blocks alt_chain bei =
      getDifficultyForNextBlock currency (blocks.take front.height ++ alt_chain) := by
  have spliced : (blocks.take front.height ++ alt_chain).length = blocks.length := by
    simp
    omega
  rw [get_next_difficulty_for_alternative_chain_eq currency bei attached positive (by omega),
    getDifficultyForNextBlock_eq, spliced]

theorem alternative_difficulty_at_main_height :
    get_next_difficulty_for_alternative_chain Currency.mainnet
        (List.replicate 3 (windowEntry 0 1000 [])) [windowEntry 1 1000 [0], windowEntry 2 1000 [0]]
        (windowEntry 3 1000 [0]) =
      getDifficultyForNextBlock Currency.mainnet
        ((List.replicate 3 (windowEntry 0 1000 [])).take 1 ++
          [windowEntry 1 1000 [0], windowEntry 2 1000 [0]]) :=
  get_next_difficulty_for_alternative_chain_of_same_height Currency.mainnet (windowEntry 3 1000 [0]) rfl
    (by decide) (by decide)

def risingEntry (height : Nat) : BlockEntry :=
  ⟨sampleBlock height.toUInt32 (120 * height).toUInt64 NULL_HASH [] [], height, 0,
    (1000 + 1000 * height).toUInt64, 0, []⟩

def risingMainChain : List BlockEntry := (List.range' 0 58494).map risingEntry

theorem risingWindow (start count : Nat) :
    ((List.range' start count).map risingEntry).map (·.bl.timestamp) =
        (List.range' start count).map (fun height => (120 * height).toUInt64) ∧
      ((List.range' start count).map risingEntry).map (·.cumulative_difficulty) =
        (List.range' start count).map (fun height => (1000 + 1000 * height).toUInt64) := by
  constructor <;> rw [List.map_map] <;> rfl

theorem difficultyFromWindow_rising (start count : Nat) (covered : 720 ≤ count)
    (fits : start + count < 10 ^ 12) (later laterDifficulties : List UInt64) :
    Currency.mainnet.difficultyFromWindow
        ((List.range' start count).map (fun height => (120 * height).toUInt64) ++ later)
        ((List.range' start count).map (fun height => (1000 + 1000 * height).toUInt64) ++
          laterDifficulties) = .computed 1000 :=
  Currency.mainnet.difficultyFromWindow_of_evenly_spaced_prefix (by decide) (by decide)
    (show Currency.mainnet.m_difficultyTarget.toNat = 120 from rfl) (by decide)
    (by decide) covered (by omega) (by omega) (by decide) later laterDifficulties

theorem mainnet_version_of_lt {height : Nat} (low : height < 999999990) :
    Currency.mainnet.getBlockMajorVersionForHeight height = BLOCK_MAJOR_VERSION_1 := by
  have belowV4 : ¬height > Currency.mainnet.m_upgradeHeightV4 := by
    change ¬height > 999999991
    omega
  have belowV3 : ¬height > Currency.mainnet.m_upgradeHeightV3 := by
    change ¬height > 999999991
    omega
  have belowV2 : ¬height > Currency.mainnet.m_upgradeHeightV2 := by
    change ¬height > 999999990
    omega
  rw [Currency.getBlockMajorVersionForHeight, if_neg belowV4, if_neg belowV3, if_neg belowV2]

theorem mainnet_difficultyBlocksCount :
    Currency.mainnet.difficultyBlocksCountByBlockVersion BLOCK_MAJOR_VERSION_1 = 735 := by
  decide

theorem mainnet_nextDifficulty_v1 (height : Nat) (timestamps difficulties : List UInt64) :
    Currency.mainnet.nextDifficulty height BLOCK_MAJOR_VERSION_1 timestamps difficulties =
      Currency.mainnet.nextDifficultyDefault height timestamps difficulties := by
  rw [Currency.nextDifficulty, if_neg (by decide)]

theorem mainnet_nextDifficulty_of_lt {height : Nat} (low : height < 999999990)
    (timestamps difficulties : List UInt64) :
    Currency.mainnet.nextDifficulty height (Currency.mainnet.getBlockMajorVersionForHeight height)
        timestamps difficulties =
      Currency.mainnet.nextDifficultyDefault height timestamps difficulties := by
  rw [mainnet_version_of_lt low, mainnet_nextDifficulty_v1]

theorem mainnet_nextDifficultyDefault_of_computed {height : Nat} {timestamps difficulties : List UInt64}
    {value : UInt64} (computed : Currency.mainnet.difficultyFromWindow timestamps difficulties = .computed value) :
    Currency.mainnet.nextDifficultyDefault height timestamps difficulties =
      Currency.mainnetDifficultyOverride height value := by
  rw [Currency.nextDifficultyDefault, computed]
  rfl

theorem mainnet_getDifficultyForNextBlock {blocks : List BlockEntry} (low : blocks.length < 999999990) :
    getDifficultyForNextBlock Currency.mainnet blocks =
      Currency.mainnet.nextDifficultyDefault blocks.length
        ((difficultyWindow 735 blocks).map (·.bl.timestamp))
        ((difficultyWindow 735 blocks).map (·.cumulative_difficulty)) := by
  rw [getDifficultyForNextBlock_eq, mainnet_nextDifficulty_of_lt low, mainnet_version_of_lt low,
    mainnet_difficultyBlocksCount]

theorem mainnet_get_next_difficulty_for_alternative_chain {blocks alt_chain : List BlockEntry}
    {front : BlockEntry} {rest : List BlockEntry} (bei : BlockEntry)
    (attached : alt_chain = front :: rest) (positive : 0 < front.height)
    (below : front.height ≤ blocks.length) (low : blocks.length < 999999990) :
    get_next_difficulty_for_alternative_chain Currency.mainnet blocks alt_chain bei =
      Currency.mainnet.nextDifficultyDefault blocks.length
        ((difficultyWindow 735 (blocks.take front.height ++ alt_chain)).map (·.bl.timestamp))
        ((difficultyWindow 735 (blocks.take front.height ++ alt_chain)).map
          (·.cumulative_difficulty)) := by
  rw [get_next_difficulty_for_alternative_chain_eq Currency.mainnet bei attached positive below,
    mainnet_nextDifficulty_of_lt low, mainnet_version_of_lt low, mainnet_difficultyBlocksCount]

theorem take_risingMainChain {count : Nat} (covered : count ≤ 58494) :
    risingMainChain.take count = (List.range' 0 count).map risingEntry := by
  rw [risingMainChain, ← List.map_take, take_range' covered]

def overrideAltEntry : BlockEntry :=
  ⟨sampleBlock 58492 (120 * 58492) NULL_HASH [0] [], 58492, 0, 1000 * 58492 + 14, 0, []⟩

theorem risingMainChain_getLast? : risingMainChain.getLast? = some (risingEntry 58493) := by
  rw [risingMainChain, ← @List.range'_append 0 58493 1 1, List.map_append, List.getLast?_append]
  rfl

theorem splicedWindow :
    difficultyWindow 735 (risingMainChain.take 58492 ++ [overrideAltEntry]) =
      (List.range' 57758 734).map risingEntry ++ [overrideAltEntry] := by
  rw [difficultyWindow, take_risingMainChain (by decide)]
  have length : ((List.range' 0 58492).map risingEntry ++ [overrideAltEntry]).length = 58493 := by simp
  simp only [length]
  rw [if_neg (by decide), show 58493 - min 58493 735 = 57758 by decide,
    List.drop_append_of_le_length (by simp), ← List.map_drop, List.drop_range']

/-- On mainnet, a main chain of blocks mined on time, whose tip got the difficulty the node
computes, and a block beside its second-to-last one that the alternative path gave the fixed
difficulty 14 of height 58494, the main chain's length, so that it does not outweigh the main
chain. For the block after it, the alternative path again gives 14, while the spliced main chain
computes 1000 from the same window at height 58493. -/
theorem alternative_difficulty_at_override_height :
    getDifficultyForNextBlock Currency.mainnet (risingMainChain.take 58493) = 1000 ∧
      get_next_difficulty_for_alternative_chain Currency.mainnet risingMainChain []
          { overrideAltEntry with cumulative_difficulty := 0 } = 14 ∧
      risingMainChain[58491]? = some (risingEntry 58491) ∧
      overrideAltEntry.cumulative_difficulty = (risingEntry 58491).cumulative_difficulty + 14 ∧
      risingMainChain.getLast? = some (risingEntry 58493) ∧
      overrideAltEntry.cumulative_difficulty < (risingEntry 58493).cumulative_difficulty ∧
      get_next_difficulty_for_alternative_chain Currency.mainnet risingMainChain [overrideAltEntry]
          ⟨sampleBlock 58493 (120 * 58493) NULL_HASH [0] [], 58493, 0, 0, 0, []⟩ = 14 ∧
      getDifficultyForNextBlock Currency.mainnet (risingMainChain.take 58492 ++ [overrideAltEntry]) =
        1000 := by
  have tip : getDifficultyForNextBlock Currency.mainnet (risingMainChain.take 58493) = 1000 := by
    have window : difficultyWindow 735 (risingMainChain.take 58493) =
        (List.range' 57758 735).map risingEntry := by
      rw [difficultyWindow, take_risingMainChain (by decide), List.length_map, List.length_range',
        if_neg (by decide), show 58493 - min 58493 735 = 57758 by decide, ← List.map_drop,
        List.drop_range']
    have computed := difficultyFromWindow_rising 57758 735 (by decide)
      (by decide) [] []
    rw [List.append_nil, List.append_nil] at computed
    have length : (risingMainChain.take 58493).length = 58493 := by simp [risingMainChain]
    rw [mainnet_getDifficultyForNextBlock (by rw [length]; decide), length, window,
      (risingWindow 57758 735).1, (risingWindow 57758 735).2,
      mainnet_nextDifficultyDefault_of_computed computed]
    decide
  have mainLength : risingMainChain.length = 58494 := by simp [risingMainChain]
  have arrival : get_next_difficulty_for_alternative_chain Currency.mainnet risingMainChain []
      { overrideAltEntry with cumulative_difficulty := 0 } = 14 := by
    have window : (risingMainChain.drop 57757).take 735 = (List.range' 57757 735).map risingEntry := by
      rw [risingMainChain, ← List.map_drop, List.drop_range', ← List.map_take,
        take_range' (by decide)]
    have computed := difficultyFromWindow_rising 57757 735 (by decide)
      (by decide) [] []
    rw [List.append_nil, List.append_nil] at computed
    unfold get_next_difficulty_for_alternative_chain
    have altHeight : overrideAltEntry.height = 58492 := rfl
    simp only [mainLength, mainnet_version_of_lt (show 58494 < 999999990 by decide), mainnet_difficultyBlocksCount, List.length_nil, List.head?_nil,
      altHeight, List.append_nil]
    rw [if_pos (show 0 < 735 by decide), show 58492 - min (735 - min 735 0) 58492 = 57757 by decide,
      if_neg (show ¬57757 = 0 by decide), show 58492 - 57757 = 735 by decide, window,
      List.length_map, List.length_range', if_neg (show ¬¬0 + 735 ≤ 735 by decide),
      mainnet_nextDifficulty_v1, (risingWindow 57757 735).1, (risingWindow 57757 735).2,
      Currency.nextDifficultyDefault, computed]
    decide
  have splicedDifficulty : Currency.mainnet.difficultyFromWindow
      ((difficultyWindow 735 (risingMainChain.take 58492 ++ [overrideAltEntry])).map (·.bl.timestamp))
      ((difficultyWindow 735 (risingMainChain.take 58492 ++ [overrideAltEntry])).map
        (·.cumulative_difficulty)) = .computed 1000 := by
    rw [splicedWindow, List.map_append, List.map_append, (risingWindow 57758 734).1,
      (risingWindow 57758 734).2]
    exact difficultyFromWindow_rising _ _ (by decide) (by decide) _ _
  have splicedLength : (risingMainChain.take 58492 ++ [overrideAltEntry]).length = 58493 := by
    rw [List.length_append, List.length_take, mainLength]
    rfl
  have alternative : get_next_difficulty_for_alternative_chain Currency.mainnet risingMainChain
      [overrideAltEntry] ⟨sampleBlock 58493 (120 * 58493) NULL_HASH [0] [], 58493, 0, 0, 0, []⟩ = 14 := by
    rw [mainnet_get_next_difficulty_for_alternative_chain _ rfl (by decide)
      (by rw [mainLength]; decide) (by rw [mainLength]; decide), mainLength,
      show overrideAltEntry.height = 58492 from rfl,
      mainnet_nextDifficultyDefault_of_computed splicedDifficulty]
    decide
  have spliced : getDifficultyForNextBlock Currency.mainnet
      (risingMainChain.take 58492 ++ [overrideAltEntry]) = 1000 := by
    rw [mainnet_getDifficultyForNextBlock (by rw [splicedLength]; decide), splicedLength,
      mainnet_nextDifficultyDefault_of_computed splicedDifficulty]
    decide
  have parent : risingMainChain[58491]? = some (risingEntry 58491) := by
    rw [risingMainChain, List.getElem?_map, List.getElem?_range' (by decide)]
    rfl
  exact ⟨tip, arrival, parent, by decide, risingMainChain_getLast?, by decide, alternative, spliced⟩

/-! ## Timestamps -/

theorem medianValue_eq_sorted (values : List UInt64) :
    medianValue values =
      let sorted := values.mergeSort (fun left right => decide (left ≤ right))
      if sorted.isEmpty then 0
      else if sorted.length = 1 then sorted.getD 0 0
      else if sorted.length % 2 = 1 then sorted.getD (sorted.length / 2) 0
      else (sorted.getD (sorted.length / 2 - 1) 0 + sorted.getD (sorted.length / 2) 0) / 2 := by
  match values with
  | [] => simp [medianValue]
  | [value] => simp [medianValue]
  | first :: second :: rest =>
      simp only [medianValue, List.length_mergeSort, List.isEmpty_cons, Bool.false_eq_true, if_false]
      have notEmpty : (first :: second :: rest).mergeSort (fun left right => decide (left ≤ right)) ≠ [] := by
        intro empty
        have := congrArg List.length empty
        simp at this
      simp [List.isEmpty_iff, notEmpty]

theorem medianValue_of_pairwise {values : List UInt64} (ordered : values.Pairwise (· ≤ ·)) :
    medianValue values =
      if values.isEmpty then 0
      else if values.length = 1 then values.getD 0 0
      else if values.length % 2 = 1 then values.getD (values.length / 2) 0
      else (values.getD (values.length / 2 - 1) 0 + values.getD (values.length / 2) 0) / 2 := by
  rw [medianValue_eq_sorted, List.mergeSort_of_pairwise (ordered.imp fun below => by simpa using below)]

theorem medianValue_eq_of_perm {values others : List UInt64} (perm : values.Perm others) :
    medianValue values = medianValue others := by
  have ordered : ∀ list : List UInt64,
      (list.mergeSort (fun left right => decide (left ≤ right))).Pairwise
        (fun left right => decide (left ≤ right)) := fun list =>
    List.pairwise_mergeSort (fun _ _ _ first second => by simp at *; exact UInt64.le_trans first second)
      (fun left right => by simpa using UInt64.le_total left right) list
  have sortedEq : values.mergeSort (fun left right => decide (left ≤ right)) =
      others.mergeSort (fun left right => decide (left ≤ right)) :=
    List.Perm.eq_of_pairwise (fun _ _ _ _ below above => UInt64.le_antisymm (by simpa using below)
      (by simpa using above)) (ordered values) (ordered others)
      ((List.mergeSort_perm _ _).trans (perm.trans (List.mergeSort_perm _ _).symm))
  rw [medianValue_eq_sorted, medianValue_eq_sorted, sortedEq]

theorem alternativeTimestamps_of_long {blocks alt_chain : List BlockEntry} {mainPrevHeight : Nat}
    {b : Block} (long : currency.timestampCheckWindow b.majorVersion ≤ alt_chain.length) :
    alternativeTimestamps currency blocks alt_chain mainPrevHeight b =
      alt_chain.reverse.map (·.bl.timestamp) := by
  simp [alternativeTimestamps, complete_timestamps_vector, long]

theorem getD_le_of_forall_le {values : List UInt64} {bound : UInt64}
    (below : ∀ value ∈ values, value ≤ bound) (index : Nat) : values.getD index 0 ≤ bound := by
  rw [List.getD_eq_getElem?_getD]
  cases found : values[index]? with
  | none => exact UInt64.zero_le
  | some value => exact below value (List.mem_of_getElem? found)

theorem medianValue_le {values : List UInt64} {bound : UInt64} (small : bound.toNat < 2 ^ 63)
    (below : ∀ value ∈ values, value ≤ bound) : medianValue values ≤ bound := by
  have sortedBelow : ∀ value ∈ values.mergeSort (fun left right => decide (left ≤ right)),
      value ≤ bound := fun value mem => below value ((List.mem_mergeSort).mp mem)
  unfold medianValue
  split
  · exact UInt64.zero_le
  split
  · exact getD_le_of_forall_le below 0
  dsimp only
  split
  · exact getD_le_of_forall_le sortedBelow _
  have lower := UInt64.le_iff_toNat_le.mp (getD_le_of_forall_le sortedBelow (values.length / 2 - 1))
  have upper := UInt64.le_iff_toNat_le.mp (getD_le_of_forall_le sortedBelow (values.length / 2))
  rw [UInt64.le_iff_toNat_le, UInt64.toNat_div, UInt64.toNat_add]
  simp only [UInt64.toNat_ofNat, Nat.reducePow, Nat.reduceMod]
  omega

theorem check_block_timestamp_of_le {timestamps : List UInt64} {b : Block}
    (small : b.timestamp.toNat < 2 ^ 63) (below : ∀ value ∈ timestamps, value ≤ b.timestamp) :
    check_block_timestamp currency timestamps b = true := by
  unfold check_block_timestamp
  split
  · rfl
  · simpa using medianValue_le small below

theorem mem_completeTimestampsLoop {blocks : List BlockEntry} {stop_offset : Nat} {value : UInt64} :
    ∀ {start_top_height : Nat}, value ∈ completeTimestampsLoop blocks stop_offset start_top_height →
      ∃ height ≤ start_top_height, value = timestampAt blocks height
  | 0, mem => ⟨0, le_rfl, by simpa [completeTimestampsLoop] using mem⟩
  | start_top_height + 1, mem => by
      rw [completeTimestampsLoop, List.mem_cons] at mem
      rcases mem with top | below
      · exact ⟨start_top_height + 1, le_rfl, top⟩
      split at below
      · simp at below
      obtain ⟨height, lower, read⟩ := mem_completeTimestampsLoop below
      exact ⟨height, by omega, read⟩

theorem mem_complete_timestamps_vector {blocks : List BlockEntry} {blockMajorVersion : UInt8}
    {start_top_height : Nat} {timestamps : List UInt64} {value : UInt64}
    (mem : value ∈ (complete_timestamps_vector currency blocks blockMajorVersion start_top_height
      timestamps).getD timestamps) :
    value ∈ timestamps ∨ ∃ height ≤ start_top_height, value = timestampAt blocks height := by
  unfold complete_timestamps_vector at mem
  dsimp only at mem
  split at mem
  · rw [Option.getD_some] at mem
    exact Or.inl mem
  split at mem
  · rw [Option.getD_none] at mem
    exact Or.inl mem
  rw [Option.getD_some, List.mem_append] at mem
  exact mem.imp id mem_completeTimestampsLoop

theorem mem_alternativeTimestamps {blocks alt_chain : List BlockEntry} {mainPrevHeight : Nat}
    {b : Block} {value : UInt64}
    (mem : value ∈ alternativeTimestamps currency blocks alt_chain mainPrevHeight b) :
    value ∈ alt_chain.map (·.bl.timestamp) ∨
      ∃ height ≤ (alt_chain.head?.map (·.height - 1)).getD mainPrevHeight,
        value = timestampAt blocks height := by
  unfold alternativeTimestamps at mem
  cases head : alt_chain.head? with
  | none =>
      simp only [head] at mem
      simpa using mem_complete_timestamps_vector currency mem
  | some front =>
      simp only [head] at mem
      simpa using mem_complete_timestamps_vector currency mem

def timestampAltEntry (height : Nat) : BlockEntry :=
  ⟨sampleBlock height.toUInt32 (120 * height).toUInt64 NULL_HASH [0] [], height, 0,
    (1000 + 1 * height).toUInt64, 0, []⟩

def timestampMainChain : List BlockEntry := (List.range' 0 63).map risingEntry

def timestampAltChain : List BlockEntry := (List.range' 1 62).map timestampAltEntry

def timestampBlock : Block := sampleBlock 63 3780 NULL_HASH [0] []

theorem timestampAltChain_take {count : Nat} (covered : count ≤ 62) :
    timestampAltChain.take count = (List.range' 1 count).map timestampAltEntry := by
  rw [timestampAltChain, ← List.map_take, take_range' covered]

theorem timestampMainChain_length : timestampMainChain.length = 63 := by
  simp [timestampMainChain]

theorem timestampAltWindow (count : Nat) :
    ((List.range' 1 count).map timestampAltEntry).map (·.bl.timestamp) =
        (List.range' 1 count).map (fun height => (120 * height).toUInt64) ∧
      ((List.range' 1 count).map timestampAltEntry).map (·.cumulative_difficulty) =
        (List.range' 1 count).map (fun height => (1000 + 1 * height).toUInt64) := by
  constructor <;> rw [List.map_map] <;> rfl

theorem timestampAltWindow_difficulty {count : Nat} (short : count ≤ 62) :
    Currency.mainnet.nextDifficultyDefault 63
        (((List.range' 1 count).map timestampAltEntry).map (·.bl.timestamp))
        (((List.range' 1 count).map timestampAltEntry).map (·.cumulative_difficulty)) = 1 := by
  rw [(timestampAltWindow count).1, (timestampAltWindow count).2, Currency.nextDifficultyDefault]
  by_cases long : 2 ≤ count
  · rw [Currency.mainnet.difficultyFromWindow_of_evenly_spaced (by decide) (by decide)
      (show Currency.mainnet.m_difficultyTarget.toNat = 120 from rfl) (by decide) (by decide) long
      (by change count ≤ 720; omega) (by omega) (by omega) (by decide)]
    decide
  · have tooShort : Currency.mainnet.difficultyFromWindow
        ((List.range' 1 count).map (fun height => (120 * height).toUInt64))
        ((List.range' 1 count).map (fun height => (1000 + 1 * height).toUInt64)) = .tooShort := by
      unfold Currency.difficultyFromWindow
      rw [if_pos (by simp; omega)]
    rw [tooShort]

theorem timestampAltChain_difficulty {height : Nat} (inside : height ∈ List.range' 1 62) :
    get_next_difficulty_for_alternative_chain Currency.mainnet timestampMainChain
      (timestampAltChain.take (height - 1)) (timestampAltEntry height) = 1 := by
  have bounds := List.mem_range'_1.mp inside
  rw [timestampAltChain_take (by omega)]
  cases previous : height - 1 with
  | zero =>
      have first : height = 1 := by omega
      subst first
      decide
  | succ count =>
      have window : difficultyWindow 735 (timestampMainChain.take 1 ++
          (List.range' 1 (count + 1)).map timestampAltEntry) =
            (List.range' 1 (count + 1)).map timestampAltEntry := by
        have length : (timestampMainChain.take 1 ++
            (List.range' 1 (count + 1)).map timestampAltEntry).length = count + 2 := by
          simp [timestampMainChain]
          omega
        rw [difficultyWindow, length, show count + 2 - min (count + 2) 735 = 0 by omega, if_pos rfl]
        rfl
      have attached : (List.range' 1 (count + 1)).map timestampAltEntry =
          timestampAltEntry 1 :: (List.range' 2 count).map timestampAltEntry := by
        rw [List.range'_succ, List.map_cons]
      rw [mainnet_get_next_difficulty_for_alternative_chain (timestampAltEntry height) attached
        (by decide) (by rw [timestampMainChain_length]; decide)
        (by rw [timestampMainChain_length]; decide), timestampMainChain_length,
        show (timestampAltEntry 1).height = 1 from rfl, window]
      exact timestampAltWindow_difficulty (by omega)

theorem timestampAltChain_accepted {height : Nat} (inside : height ∈ List.range' 1 62) :
    check_block_timestamp Currency.mainnet
      (alternativeTimestamps Currency.mainnet timestampMainChain (timestampAltChain.take (height - 1)) 0
        (timestampAltEntry height).bl) (timestampAltEntry height).bl = true := by
  have bounds := List.mem_range'_1.mp inside
  have timestampIs : (timestampAltEntry height).bl.timestamp = (120 * height).toUInt64 := rfl
  have fits : ((120 * height).toUInt64).toNat = 120 * height := toNat_toUInt64_of_lt (by omega)
  apply check_block_timestamp_of_le Currency.mainnet (by rw [timestampIs, fits]; omega)
  intro value mem
  rw [timestampAltChain_take (by omega)] at mem
  rcases mem_alternativeTimestamps Currency.mainnet mem with alternative | ⟨main, below, read⟩
  · rw [(timestampAltWindow (height - 1)).1, List.mem_map] at alternative
    obtain ⟨earlier, member, rfl⟩ := alternative
    have earlierBounds := List.mem_range'_1.mp member
    rw [timestampIs, UInt64.le_iff_toNat_le, fits, toNat_toUInt64_of_lt (by omega)]
    omega
  · have start : (((List.range' 1 (height - 1)).map timestampAltEntry).head?.map
        (·.height - 1)).getD 0 = 0 := by
      cases height - 1 <;> rfl
    have genesis : timestampAt timestampMainChain 0 = 0 := by decide
    rw [start, Nat.le_zero] at below
    rw [read, below, genesis]
    exact UInt64.zero_le

theorem spacedTimestamps_sorted (start count : Nat) (fits : start + count < 10 ^ 12) :
    ((List.range' start count).map fun height => (120 * height).toUInt64).Pairwise (· ≤ ·) :=
  pairwise_map_range'_toUInt64 (fun height => 120 * height) start count
    (fun below => Nat.mul_lt_mul_of_pos_left below (by decide)) (fun _ _ => by omega) (· ≤ ·)
    (fun below => UInt64.le_iff_toNat_le.mpr below.le)

theorem timestampAltChain_median :
    medianValue (alternativeTimestamps Currency.mainnet timestampMainChain timestampAltChain 0
      timestampBlock) = 3780 := by
  rw [alternativeTimestamps_of_long Currency.mainnet (by decide), List.map_reverse,
    medianValue_eq_of_perm (List.reverse_perm _), timestampAltChain, (timestampAltWindow 62).1,
    medianValue_of_pairwise (spacedTimestamps_sorted 1 62 (by decide))]
  decide

theorem splicedTimestamps :
    mainTimestamps Currency.mainnet (timestampMainChain.take 1 ++ timestampAltChain) timestampBlock =
      (List.range' 3 60).map (fun height => (120 * height).toUInt64) := by
  decide

theorem splicedTimestamps_median :
    medianValue (mainTimestamps Currency.mainnet (timestampMainChain.take 1 ++ timestampAltChain)
      timestampBlock) = 3900 := by
  rw [splicedTimestamps, medianValue_of_pairwise (spacedTimestamps_sorted 3 60 (by decide))]
  decide

/-- On a mainnet node below its last checkpoint, an alternative chain of 62 blocks mined on time
from height 1 grows block by block: each block gets difficulty 1 and passes the timestamp check,
and the main chain stays the heavier. The next block, at time 3780, is accepted by the alternative
path, which takes the median of all 62 timestamps, and refused by the main path on the spliced
chain, which takes the median of the last 60. -/
theorem alternative_timestamp_check_reads_whole_chain :
    (∀ height ∈ List.range' 1 62,
      get_next_difficulty_for_alternative_chain Currency.mainnet timestampMainChain
          (timestampAltChain.take (height - 1)) (timestampAltEntry height) = 1 ∧
        check_block_timestamp Currency.mainnet
          (alternativeTimestamps Currency.mainnet timestampMainChain
            (timestampAltChain.take (height - 1)) 0 (timestampAltEntry height).bl)
          (timestampAltEntry height).bl = true ∧
        (timestampAltEntry height).cumulative_difficulty < (risingEntry 62).cumulative_difficulty) ∧
      timestampMainChain.getLast? = some (risingEntry 62) ∧
      medianValue (alternativeTimestamps Currency.mainnet timestampMainChain timestampAltChain 0
        timestampBlock) = 3780 ∧
      check_block_timestamp Currency.mainnet
        (alternativeTimestamps Currency.mainnet timestampMainChain timestampAltChain 0 timestampBlock)
        timestampBlock = true ∧
      medianValue (mainTimestamps Currency.mainnet (timestampMainChain.take 1 ++ timestampAltChain)
        timestampBlock) = 3900 ∧
      check_block_timestamp_main Currency.mainnet 7440 (timestampMainChain.take 1 ++ timestampAltChain)
        timestampBlock = false := by
  have lighter : ∀ height ∈ List.range' 1 62,
      (timestampAltEntry height).cumulative_difficulty < (risingEntry 62).cumulative_difficulty := by
    intro height inside
    have bounds := List.mem_range'_1.mp inside
    rw [UInt64.lt_iff_toNat_lt]
    change (1000 + 1 * height).toUInt64.toNat < (1000 + 1000 * 62).toUInt64.toNat
    rw [toNat_toUInt64_of_lt (by omega), toNat_toUInt64_of_lt (by omega)]
    omega
  have tip : timestampMainChain.getLast? = some (risingEntry 62) := by
    rw [timestampMainChain, ← @List.range'_append 0 62 1 1, List.map_append, List.getLast?_append]
    rfl
  have alternativeWindow : (alternativeTimestamps Currency.mainnet timestampMainChain
      timestampAltChain 0 timestampBlock).length = 62 := by
    rw [alternativeTimestamps_of_long Currency.mainnet (by decide)]
    simp [timestampAltChain]
  have mainWindow : (mainTimestamps Currency.mainnet (timestampMainChain.take 1 ++ timestampAltChain)
      timestampBlock).length = 60 := by
    rw [splicedTimestamps]
    simp
  refine ⟨fun height inside => ⟨timestampAltChain_difficulty inside,
    timestampAltChain_accepted inside, lighter height inside⟩, tip, timestampAltChain_median, ?_,
    splicedTimestamps_median, ?_⟩
  · rw [check_block_timestamp, alternativeWindow, timestampAltChain_median]
    decide
  · rw [check_block_timestamp_main, check_block_timestamp, mainWindow, splicedTimestamps_median]
    decide

end Dynex
