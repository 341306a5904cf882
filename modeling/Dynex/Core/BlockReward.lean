import Dynex.Core.Basic
import Dynex.Common.IntUtil

/-!
# The block reward and its size penalty

`getPenalizedAmount` (`DynexCNCore/DynexCNBasicImpl.cpp`) scales an amount by
`currentBlockSize * (2 * medianSize - currentBlockSize) / medianSize ^ 2` when the block is
larger than the median: a 128-bit product by `mul128`, then two long divisions by the median
with `div128_32`. `Currency::getBlockReward` (`DynexCNCore/Currency.cpp`) applies it to the
base reward and the fee. The source's asserts are left out, as in a release build (`NDEBUG`);
the theorems of the last section prove what they assert.
-/

set_option autoImplicit false

namespace Dynex

open WideArithmetic

def penaltyMultiplicand (medianSize currentBlockSize : UInt64) : UInt64 :=
  let multiplicand := 2 * medianSize - currentBlockSize
  multiplicand * currentBlockSize

/-- `penalizedAmountHi` and `penalizedAmountLo` of `getPenalizedAmount`: the product of the amount
with the multiplicand, divided by the median twice. -/
def penalizedQuotient (amount medianSize currentBlockSize : UInt64) : UInt64 × UInt64 :=
  let (productLo, productHi) := IntUtil.mul128 amount (penaltyMultiplicand medianSize currentBlockSize)
  let (_, penalizedAmountHi, penalizedAmountLo) :=
    IntUtil.div128_32 productHi productLo medianSize.toUInt32
  let (_, penalizedAmountHi, penalizedAmountLo) :=
    IntUtil.div128_32 penalizedAmountHi penalizedAmountLo medianSize.toUInt32
  (penalizedAmountHi, penalizedAmountLo)

/-- `getPenalizedAmount(amount, medianSize, currentBlockSize)`. -/
def getPenalizedAmount (amount medianSize currentBlockSize : UInt64) : UInt64 :=
  if amount = 0 then 0
  else if currentBlockSize ≤ medianSize then amount
  else (penalizedQuotient amount medianSize currentBlockSize).2

def CRYPTONOTE_BLOCK_GRANTED_FULL_REWARD_ZONE_V1 : UInt64 := 20000
def CRYPTONOTE_BLOCK_GRANTED_FULL_REWARD_ZONE_V2 : UInt64 := 100000

/-- The members of `class Currency` that `getBlockReward` reads. -/
structure RewardParameters where
  m_moneySupply : UInt64
  m_emissionSpeedFactor : UInt64
  m_genesisBlockReward : UInt64
  m_blockGrantedFullRewardZone : UInt64
  m_cryptonoteCoinVersion : Nat

namespace RewardParameters

/-- The values `CurrencyBuilder` sets from `DynexCNConfig.h`. -/
def mainnet : RewardParameters where
  m_moneySupply := 110000000000000000
  m_emissionSpeedFactor := 18
  m_genesisBlockReward := 0
  m_blockGrantedFullRewardZone := 20000
  m_cryptonoteCoinVersion := 1

variable (params : RewardParameters)

def blockGrantedFullRewardZoneByBlockVersion (blockMajorVersion : UInt8) : UInt64 :=
  if blockMajorVersion ≥ BLOCK_MAJOR_VERSION_3 then params.m_blockGrantedFullRewardZone
  else if blockMajorVersion = BLOCK_MAJOR_VERSION_2 then CRYPTONOTE_BLOCK_GRANTED_FULL_REWARD_ZONE_V2
  else CRYPTONOTE_BLOCK_GRANTED_FULL_REWARD_ZONE_V1

/-- `baseReward` of `getBlockReward`: the tail emission, or the genesis reward for the first block. -/
def baseReward (alreadyGeneratedCoins : UInt64) : UInt64 :=
  let baseReward := (params.m_moneySupply - alreadyGeneratedCoins) >>> params.m_emissionSpeedFactor
  if alreadyGeneratedCoins = 0 ∧ params.m_genesisBlockReward ≠ 0 then params.m_genesisBlockReward
  else baseReward

/-- `Currency::getBlockReward(blockheight, blockMajorVersion, medianSize, currentBlockSize,
alreadyGeneratedCoins, fee, reward, emissionChange)`: `reward` and `emissionChange` when it
returns true. -/
def getBlockReward (blockMajorVersion : UInt8) (medianSize currentBlockSize : UInt64)
    (alreadyGeneratedCoins fee : UInt64) : Option (UInt64 × Int64) :=
  let baseReward := params.baseReward alreadyGeneratedCoins
  let blockGrantedFullRewardZone := params.blockGrantedFullRewardZoneByBlockVersion blockMajorVersion
  let medianSize := max medianSize blockGrantedFullRewardZone
  if currentBlockSize > 2 * medianSize then none
  else
    let penalizedBaseReward := getPenalizedAmount baseReward medianSize currentBlockSize
    let penalizedFee :=
      if blockMajorVersion ≥ BLOCK_MAJOR_VERSION_2 then getPenalizedAmount fee medianSize currentBlockSize
      else fee
    let penalizedFee :=
      if params.m_cryptonoteCoinVersion = 1 then getPenalizedAmount fee medianSize currentBlockSize
      else penalizedFee
    let emissionChange := (penalizedBaseReward - (fee - penalizedFee)).toInt64
    let reward := penalizedBaseReward + penalizedFee
    some (reward, emissionChange)

end RewardParameters

/-! ## The penalty factor is at most one

`S * (2 * M - S) = M ^ 2 - (S - M) ^ 2`, so the factor the amount is scaled by is at most one,
and below one for a block over the median. -/

theorem penalty_le_sq {median size : Nat} (within : size ≤ 2 * median) :
    size * (2 * median - size) ≤ median * median := by
  zify [within]
  nlinarith [sq_nonneg ((median : ℤ) - size)]

theorem penalty_lt_sq {median size : Nat} (above : median < size) (within : size ≤ 2 * median) :
    size * (2 * median - size) < median * median := by
  zify [within]
  have excess : (0 : ℤ) < size - median := by omega
  nlinarith [mul_pos excess excess]

/-! ## The 64-bit steps compute it exactly -/

section Penalty

variable {medianSize currentBlockSize : UInt64}

theorem toNat_penaltyMultiplicand (median : medianSize.toNat ≤ 2 ^ 32 - 1)
    (within : currentBlockSize.toNat ≤ 2 * medianSize.toNat) :
    (penaltyMultiplicand medianSize currentBlockSize).toNat =
      currentBlockSize.toNat * (2 * medianSize.toNat - currentBlockSize.toNat) := by
  have double : (2 * medianSize).toNat = 2 * medianSize.toNat := by
    rw [UInt64.toNat_mul, show (2 : UInt64).toNat = 2 from rfl, Nat.mod_eq_of_lt (by omega)]
  have difference : (2 * medianSize - currentBlockSize).toNat =
      2 * medianSize.toNat - currentBlockSize.toNat := by
    rw [UInt64.toNat_sub_of_le _ _ (UInt64.le_iff_toNat_le.mpr (by rw [double]; exact within)),
      double]
  have square : medianSize.toNat * medianSize.toNat < 2 ^ 64 :=
    mul_lt_of_halves (by omega) (by omega)
  have fits := penalty_le_sq within
  rw [penaltyMultiplicand, UInt64.toNat_mul, difference, Nat.mul_comm, Nat.mod_eq_of_lt (by omega)]

theorem toNat_toUInt32_median (median : medianSize.toNat ≤ 2 ^ 32 - 1) :
    medianSize.toUInt32.toNat = medianSize.toNat := by
  rw [UInt64.toNat_toUInt32, Nat.mod_eq_of_lt (by omega)]

theorem toUInt32_median_ne_zero (positive : 0 < medianSize.toNat)
    (median : medianSize.toNat ≤ 2 ^ 32 - 1) : medianSize.toUInt32 ≠ 0 := by
  intro zero
  have none := congrArg UInt32.toNat zero
  rw [toNat_toUInt32_median median, UInt32.toNat_zero] at none
  omega

theorem penalizedQuotient_toNat (amount : UInt64) (positive : 0 < medianSize.toNat)
    (median : medianSize.toNat ≤ 2 ^ 32 - 1) :
    (penalizedQuotient amount medianSize currentBlockSize).1.toNat * 2 ^ 64 +
        (penalizedQuotient amount medianSize currentBlockSize).2.toNat =
      amount.toNat * (penaltyMultiplicand medianSize currentBlockSize).toNat /
        (medianSize.toNat * medianSize.toNat) := by
  have divisor := toNat_toUInt32_median median
  have nonzero := toUInt32_median_ne_zero positive median
  obtain ⟨low, high⟩ := IntUtil.mul128_toNat amount (penaltyMultiplicand medianSize currentBlockSize)
  rw [penalizedQuotient]
  generalize IntUtil.mul128 amount (penaltyMultiplicand medianSize currentBlockSize) = product
    at low high ⊢
  obtain ⟨productLo, productHi⟩ := product
  dsimp only at low high ⊢
  obtain ⟨once, -⟩ := IntUtil.div128_32_toNat productHi productLo nonzero
  generalize IntUtil.div128_32 productHi productLo medianSize.toUInt32 = first at once ⊢
  obtain ⟨_, onceHi, onceLo⟩ := first
  dsimp only at once ⊢
  obtain ⟨twice, -⟩ := IntUtil.div128_32_toNat onceHi onceLo nonzero
  generalize IntUtil.div128_32 onceHi onceLo medianSize.toUInt32 = second at twice ⊢
  obtain ⟨_, twiceHi, twiceLo⟩ := second
  dsimp only at twice ⊢
  rw [twice, once, divisor, Nat.div_div_eq_div_mul, high, low, Nat.div_add_mod']

/-- Over the median, a nonzero amount is scaled by the penalty factor, below itself, and the
quotient fits in its low word. -/
theorem penalizedQuotient_exact (amount : UInt64) (nonzero : amount ≠ 0)
    (median : medianSize.toNat ≤ 2 ^ 32 - 1) (above : medianSize < currentBlockSize)
    (within : currentBlockSize.toNat ≤ 2 * medianSize.toNat) :
    (penalizedQuotient amount medianSize currentBlockSize).1 = 0 ∧
      (penalizedQuotient amount medianSize currentBlockSize).2.toNat =
        amount.toNat * (currentBlockSize.toNat * (2 * medianSize.toNat - currentBlockSize.toNat)) /
          (medianSize.toNat * medianSize.toNat) ∧
      (penalizedQuotient amount medianSize currentBlockSize).2.toNat < amount.toNat := by
  have larger := UInt64.lt_iff_toNat_lt.mp above
  have positive : 0 < amount.toNat := by
    rcases Nat.eq_zero_or_pos amount.toNat with zero | positive
    · exact absurd (UInt64.toNat_inj.mp zero) nonzero
    · exact positive
  have words := @penalizedQuotient_toNat medianSize currentBlockSize amount (by omega) median
  rw [toNat_penaltyMultiplicand median within] at words
  have below : amount.toNat * (currentBlockSize.toNat * (2 * medianSize.toNat - currentBlockSize.toNat)) /
      (medianSize.toNat * medianSize.toNat) < amount.toNat := by
    apply Nat.div_lt_of_lt_mul
    rw [Nat.mul_comm (medianSize.toNat * medianSize.toNat)]
    exact Nat.mul_lt_mul_of_pos_left (penalty_lt_sq larger within) positive
  have word := amount.toNat_lt
  generalize penalizedQuotient amount medianSize currentBlockSize = quotient at words ⊢
  obtain ⟨high, low⟩ := quotient
  dsimp only at words ⊢
  have highZero : high.toNat = 0 := by omega
  exact ⟨UInt64.toNat_inj.mp highZero, by omega, by omega⟩

end Penalty

/-! ## Rewards -/

theorem getPenalizedAmount_of_not_penalized {amount medianSize currentBlockSize : UInt64}
    (unpenalized : amount = 0 ∨ currentBlockSize ≤ medianSize) :
    getPenalizedAmount amount medianSize currentBlockSize = amount := by
  rcases unpenalized with zero | small
  · simp [getPenalizedAmount, zero]
  · by_cases zero : amount = 0
    · simp [getPenalizedAmount, zero]
    · simp [getPenalizedAmount, zero, small]

theorem getPenalizedAmount_le (amount : UInt64) {medianSize currentBlockSize : UInt64}
    (median : medianSize.toNat ≤ 2 ^ 32 - 1)
    (within : currentBlockSize.toNat ≤ 2 * medianSize.toNat) :
    (getPenalizedAmount amount medianSize currentBlockSize).toNat ≤ amount.toNat := by
  by_cases penalized : amount ≠ 0 ∧ medianSize < currentBlockSize
  · obtain ⟨nonzero, above⟩ := penalized
    have notSmall : ¬currentBlockSize ≤ medianSize := UInt64.not_le.mpr above
    rw [getPenalizedAmount, if_neg nonzero, if_neg notSmall]
    exact (penalizedQuotient_exact amount nonzero median above within).2.2.le
  · have unpenalized : amount = 0 ∨ currentBlockSize ≤ medianSize := by
      rw [not_and_or, not_not, UInt64.not_lt] at penalized
      exact penalized
    rw [getPenalizedAmount_of_not_penalized unpenalized]

namespace RewardParameters

variable (params : RewardParameters)

/-- A reward that `getBlockReward` grants is the penalized base reward plus the penalized fee,
each at most what it penalizes. -/
theorem getBlockReward_le {blockMajorVersion : UInt8}
    {medianSize currentBlockSize alreadyGeneratedCoins fee reward : UInt64} {emissionChange : Int64}
    (median : (max medianSize (params.blockGrantedFullRewardZoneByBlockVersion blockMajorVersion)).toNat ≤
      2 ^ 32 - 1)
    (granted : params.getBlockReward blockMajorVersion medianSize currentBlockSize
      alreadyGeneratedCoins fee = some (reward, emissionChange)) :
    ∃ penalizedBaseReward penalizedFee : UInt64, reward = penalizedBaseReward + penalizedFee ∧
      penalizedBaseReward.toNat ≤ (params.baseReward alreadyGeneratedCoins).toNat ∧
      penalizedFee.toNat ≤ fee.toNat ∧
      reward.toNat ≤ (params.baseReward alreadyGeneratedCoins).toNat + fee.toNat := by
  rw [getBlockReward] at granted
  generalize max medianSize (params.blockGrantedFullRewardZoneByBlockVersion blockMajorVersion) =
    effective at median granted
  by_cases tooBig : currentBlockSize > 2 * effective
  · rw [if_pos tooBig] at granted
    cases granted
  · rw [if_neg tooBig] at granted
    have within : currentBlockSize.toNat ≤ 2 * effective.toNat := by
      have double : (2 * effective).toNat = 2 * effective.toNat := by
        rw [UInt64.toNat_mul, show (2 : UInt64).toNat = 2 from rfl, Nat.mod_eq_of_lt (by omega)]
      rw [← double, ← UInt64.le_iff_toNat_le]
      exact UInt64.not_lt.mp tooBig
    simp only [Option.some.injEq, Prod.mk.injEq] at granted
    obtain ⟨rewarded, -⟩ := granted
    subst rewarded
    have baseBound := getPenalizedAmount_le (params.baseReward alreadyGeneratedCoins) median within
    have feeBound := getPenalizedAmount_le fee median within
    split_ifs
    all_goals
      refine ⟨_, _, rfl, baseBound, by omega, ?_⟩
      rw [UInt64.toNat_add]
      omega

end RewardParameters

/-- `getPenalizedAmount` keeps an amount of zero and any amount of a block within the median, and
otherwise scales it exactly by `S * (2M - S) / M ^ 2`, strictly down, with the steps that the
source asserts about (no wrap of the multiplicand, a zero high word, a nonzero divisor); so a
reward `getBlockReward` grants is at most the base reward plus the fee. -/
theorem getPenalizedAmount_exact (amount medianSize currentBlockSize : UInt64)
    (median : medianSize.toNat ≤ 2 ^ 32 - 1)
    (within : currentBlockSize.toNat ≤ 2 * medianSize.toNat) :
    (amount = 0 ∨ currentBlockSize ≤ medianSize →
      getPenalizedAmount amount medianSize currentBlockSize = amount) ∧
    (amount ≠ 0 → medianSize < currentBlockSize →
      (getPenalizedAmount amount medianSize currentBlockSize).toNat =
          amount.toNat * currentBlockSize.toNat * (2 * medianSize.toNat - currentBlockSize.toNat) /
            medianSize.toNat ^ 2 ∧
        getPenalizedAmount amount medianSize currentBlockSize < amount ∧
        currentBlockSize.toNat * (2 * medianSize.toNat - currentBlockSize.toNat) ≤ 2 ^ 64 - 1 ∧
        (penaltyMultiplicand medianSize currentBlockSize).toNat =
          currentBlockSize.toNat * (2 * medianSize.toNat - currentBlockSize.toNat) ∧
        (penalizedQuotient amount medianSize currentBlockSize).1 = 0 ∧
        medianSize.toUInt32 ≠ 0) ∧
    (∀ (params : RewardParameters) (blockMajorVersion : UInt8)
        (blockMedianSize blockSize alreadyGeneratedCoins fee reward : UInt64) (emissionChange : Int64),
      (max blockMedianSize (params.blockGrantedFullRewardZoneByBlockVersion blockMajorVersion)).toNat ≤
          2 ^ 32 - 1 →
      params.getBlockReward blockMajorVersion blockMedianSize blockSize alreadyGeneratedCoins fee =
          some (reward, emissionChange) →
      ∃ penalizedBaseReward penalizedFee : UInt64, reward = penalizedBaseReward + penalizedFee ∧
        penalizedBaseReward.toNat ≤ (params.baseReward alreadyGeneratedCoins).toNat ∧
        penalizedFee.toNat ≤ fee.toNat ∧
        reward.toNat ≤ (params.baseReward alreadyGeneratedCoins).toNat + fee.toNat) := by
  refine ⟨getPenalizedAmount_of_not_penalized, ?_,
    fun params _ _ _ _ _ _ _ effective granted => params.getBlockReward_le effective granted⟩
  intro nonzero above
  obtain ⟨highZero, exact, below⟩ := penalizedQuotient_exact amount nonzero median above within
  have penalized : getPenalizedAmount amount medianSize currentBlockSize =
      (penalizedQuotient amount medianSize currentBlockSize).2 := by
    rw [getPenalizedAmount, if_neg nonzero, if_neg (UInt64.not_le.mpr above)]
  have larger := UInt64.lt_iff_toNat_lt.mp above
  have square : medianSize.toNat * medianSize.toNat < 2 ^ 64 :=
    mul_lt_of_halves (by omega) (by omega)
  have fits := penalty_le_sq within
  refine ⟨?_, ?_, by omega, toNat_penaltyMultiplicand median within, highZero,
    toUInt32_median_ne_zero (by omega) median⟩
  · rw [penalized, exact, Nat.mul_assoc, sq]
  · rw [penalized, UInt64.lt_iff_toNat_lt]
    exact below

theorem penalty_of_block_half_over_median :
    (20000 : UInt64).toNat ≤ 2 ^ 32 - 1 ∧ (30000 : UInt64).toNat ≤ 2 * (20000 : UInt64).toNat ∧
      (getPenalizedAmount 1000 20000 30000).toNat = 750 ∧
      (314712525163 : UInt64).toNat ≤
        (RewardParameters.mainnet.baseReward 0).toNat + (1000 : UInt64).toNat := by
  have median : (20000 : UInt64).toNat ≤ 2 ^ 32 - 1 := by decide
  have within : (30000 : UInt64).toNat ≤ 2 * (20000 : UInt64).toNat := by decide
  obtain ⟨-, penalized, granted⟩ := getPenalizedAmount_exact 1000 20000 30000 median within
  obtain ⟨value, -⟩ := penalized (by decide) (by decide)
  obtain ⟨_, _, -, -, -, bound⟩ := granted RewardParameters.mainnet 4 20000 30000 0 1000
    314712525163 314712524163 (by decide) (by decide)
  exact ⟨median, within, value.trans (by decide), bound⟩

end Dynex
