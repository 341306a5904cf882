import Dynex.Core.Basic

/-!
# The currency parameters and the rules computed from them

The members of `class Currency` that the chain rules read, with the values `CurrencyBuilder`
sets from `DynexCNConfig.h` in `Currency.mainnet`, and the rules computed from them: the block
size limit, the window sizes, `Common::medianValue` and `Currency::nextDifficulty`.

Arithmetic follows the source's widths: difficulties and timestamps are `uint64_t`, and the
128-bit product of `mul128` is a `Nat` split into its two halves.
-/

set_option autoImplicit false

namespace Dynex

/-- The members of `class Currency` read by the chain rules modelled here. -/
structure Currency where
  m_minedMoneyUnlockWindow : Nat
  m_minedMoneyUnlockWindow_v1 : Nat
  m_timestampCheckWindow : Nat
  m_timestampCheckWindow_v1 : Nat
  m_blockFutureTimeLimit : UInt64
  m_blockFutureTimeLimit_v1 : UInt64
  m_difficultyTarget : UInt64
  m_difficultyWindow : Nat
  m_difficultyLag : Nat
  m_difficultyCut : Nat
  m_maxBlockSizeInitial : Nat
  m_maxBlockSizeGrowthSpeedNumerator : Nat
  m_maxBlockSizeGrowthSpeedDenominator : Nat
  m_upgradeHeightV2 : Nat
  m_upgradeHeightV3 : Nat
  m_upgradeHeightV4 : Nat
  m_testnet : Bool

def EXPECTED_NUMBER_OF_BLOCKS_PER_DAY : Nat := 24 * 60 * 60 / 120
def DIFFICULTY_WINDOW_V4 : Nat := 200
def UPGRADE_HEIGHT_V4 : Nat := 999999991
def UPGRADE_HEIGHT_V4_FIX_1 : Nat := 999999992

namespace Currency

/-- The values `CurrencyBuilder::CurrencyBuilder` sets from `DynexCNConfig.h`. -/
def mainnet : Currency where
  m_minedMoneyUnlockWindow := 60
  m_minedMoneyUnlockWindow_v1 := EXPECTED_NUMBER_OF_BLOCKS_PER_DAY
  m_timestampCheckWindow := 60
  m_timestampCheckWindow_v1 := 11
  m_blockFutureTimeLimit := 60 * 60 * 2
  m_blockFutureTimeLimit_v1 := 120 * 3
  m_difficultyTarget := 120
  m_difficultyWindow := EXPECTED_NUMBER_OF_BLOCKS_PER_DAY
  m_difficultyLag := 15
  m_difficultyCut := 60
  m_maxBlockSizeInitial := 20 * 1024
  m_maxBlockSizeGrowthSpeedNumerator := 100 * 1024
  m_maxBlockSizeGrowthSpeedDenominator := 365 * 24 * 60 * 60 / 120
  m_upgradeHeightV2 := 999999990
  m_upgradeHeightV3 := 999999991
  m_upgradeHeightV4 := UPGRADE_HEIGHT_V4
  m_testnet := false

def testnet : Currency :=
  { mainnet with m_upgradeHeightV2 := 1, m_upgradeHeightV3 := 2, m_upgradeHeightV4 := 5, m_testnet := true }

variable (currency : Currency)

def timestampCheckWindow (blockMajorVersion : UInt8) : Nat :=
  if blockMajorVersion ≥ BLOCK_MAJOR_VERSION_4 then currency.m_timestampCheckWindow_v1
  else currency.m_timestampCheckWindow

def blockFutureTimeLimit (blockMajorVersion : UInt8) : UInt64 :=
  if blockMajorVersion ≥ BLOCK_MAJOR_VERSION_4 then currency.m_blockFutureTimeLimit_v1
  else currency.m_blockFutureTimeLimit

def difficultyBlocksCount : Nat := currency.m_difficultyWindow + currency.m_difficultyLag

def difficultyBlocksCountByBlockVersion (blockMajorVersion : UInt8) : Nat :=
  if blockMajorVersion = BLOCK_MAJOR_VERSION_4 then DIFFICULTY_WINDOW_V4
  else currency.difficultyBlocksCount

def maxBlockCumulativeSize (height : Nat) : Nat :=
  currency.m_maxBlockSizeInitial +
    height * currency.m_maxBlockSizeGrowthSpeedNumerator / currency.m_maxBlockSizeGrowthSpeedDenominator

/-- `Blockchain::getBlockMajorVersionForHeight` when every upgrade height is set in the currency,
so that each `UpgradeDetector::upgradeHeight` returns it. -/
def getBlockMajorVersionForHeight (height : Nat) : UInt8 :=
  if height > currency.m_upgradeHeightV4 then BLOCK_MAJOR_VERSION_4
  else if height > currency.m_upgradeHeightV3 then BLOCK_MAJOR_VERSION_3
  else if height > currency.m_upgradeHeightV2 then BLOCK_MAJOR_VERSION_2
  else BLOCK_MAJOR_VERSION_1

end Currency

def mul128 (multiplier multiplicand : UInt64) : UInt64 × UInt64 :=
  let product := multiplier.toNat * multiplicand.toNat
  (UInt64.ofNat product, UInt64.ofNat (product / 2 ^ 64))

/-- `Common::medianValue`: the middle of the sorted values, or the wrapping mean of the two
middle ones. -/
def medianValue (values : List UInt64) : UInt64 :=
  if values.isEmpty then 0
  else if values.length = 1 then values.getD 0 0
  else
    let n := values.length / 2
    let sorted := values.mergeSort (fun left right => decide (left ≤ right))
    if values.length % 2 = 1 then sorted.getD n 0
    else (sorted.getD (n - 1) 0 + sorted.getD n 0) / 2

namespace Currency

variable (currency : Currency)

/-- How the computation `nextDifficultyDefault` and `nextDifficultyV4` share ends: a window of
at most one block (which returns 1), the overflow exit (which returns 0), or a value. -/
inductive WindowDifficulty where
  | tooShort
  | overflow
  | computed (value : UInt64)
  deriving DecidableEq, Repr

/-- The window cut to its oldest `m_difficultyWindow` entries, the timestamps sorted and their
outliers cut, and the work over the time span rounded up. -/
def difficultyFromWindow (timestamps cumulativeDifficulties : List UInt64) : WindowDifficulty :=
  let timestamps := timestamps.take currency.m_difficultyWindow
  let cumulativeDifficulties := cumulativeDifficulties.take currency.m_difficultyWindow
  let length := timestamps.length
  if length ≤ 1 then .tooShort
  else
    let timestamps := timestamps.mergeSort (fun left right => decide (left ≤ right))
    let kept := currency.m_difficultyWindow - 2 * currency.m_difficultyCut
    let (cutBegin, cutEnd) :=
      if length ≤ kept then (0, length)
      else ((length - kept + 1) / 2, (length - kept + 1) / 2 + kept)
    let timeSpan := timestamps.getD (cutEnd - 1) 0 - timestamps.getD cutBegin 0
    let timeSpan := if timeSpan = 0 then 1 else timeSpan
    let totalWork := cumulativeDifficulties.getD (cutEnd - 1) 0 - cumulativeDifficulties.getD cutBegin 0
    let (low, high) := mul128 totalWork currency.m_difficultyTarget
    if high ≠ 0 ∨ low + timeSpan - 1 < low then .overflow
    else .computed ((low + timeSpan - 1) / timeSpan)

/-- The mainnet overrides of `nextDifficultyDefault`, by block index, applied in the source's
order so that a later window wins. -/
def mainnetDifficultyOverride (blockIndex : Nat) (nextDiffDefault : UInt64) : UInt64 :=
  let nextDiffDefault := if 58494 ≤ blockIndex ∧ blockIndex ≤ 58494 + 725 then 14 else nextDiffDefault
  let nextDiffDefault := if 67589 ≤ blockIndex ∧ blockIndex ≤ 67589 + 725 then 60000000 else nextDiffDefault
  let nextDiffDefault := if 70336 ≤ blockIndex ∧ blockIndex ≤ 70345 then 60000000 else nextDiffDefault
  let nextDiffDefault := if 70346 ≤ blockIndex ∧ blockIndex ≤ 70346 + 50 then 5000000 else nextDiffDefault
  if 70404 ≤ blockIndex ∧ blockIndex ≤ 70404 + 725 then 5000000 else nextDiffDefault

/-- `Currency::nextDifficultyDefault`. -/
def nextDifficultyDefault (blockIndex : Nat) (timestamps cumulativeDifficulties : List UInt64) :
    UInt64 :=
  match currency.difficultyFromWindow timestamps cumulativeDifficulties with
  | .tooShort => 1
  | .overflow => 0
  | .computed nextDiffDefault =>
      if currency.m_testnet then nextDiffDefault / 2
      else mainnetDifficultyOverride blockIndex nextDiffDefault

/-- `Currency::nextDifficultyV4`: a fixed difficulty for `DIFFICULTY_WINDOW_V4` blocks after the
fork, then the common computation with a floor of 100000 on mainnet and the testnet rules. -/
def nextDifficultyV4 (blockIndex : Nat) (timestamps cumulativeDifficulties : List UInt64) : UInt64 :=
  let fork := currency.m_upgradeHeightV4
  if fork ≤ blockIndex ∧ blockIndex ≤ fork + DIFFICULTY_WINDOW_V4 then
    if currency.m_testnet then 14 else 17141714
  else
    match currency.difficultyFromWindow timestamps cumulativeDifficulties with
    | .tooShort => 1
    | .overflow => 0
    | .computed nextDiff =>
        let nextDiff := if !currency.m_testnet && nextDiff < 100000 then 100000 else nextDiff
        if currency.m_testnet ∧ 17292 ≤ blockIndex ∧ blockIndex ≤ 17493 then 14
        else if currency.m_testnet ∧ blockIndex < 17292 then
          if nextDiff / 2 < 14 then 14 else nextDiff / 2
        else nextDiff

/-- `Currency::nextDifficulty`: version 4 and later use `nextDifficultyV4`, the others
`nextDifficultyDefault`. -/
def nextDifficulty (height : Nat) (blockMajorVersion : UInt8)
    (timestamps cumulativeDifficulties : List UInt64) : UInt64 :=
  if blockMajorVersion ≥ BLOCK_MAJOR_VERSION_4 then
    currency.nextDifficultyV4 height timestamps cumulativeDifficulties
  else currency.nextDifficultyDefault height timestamps cumulativeDifficulties

end Currency

end Dynex
