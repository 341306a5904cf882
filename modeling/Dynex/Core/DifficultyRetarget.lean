import Dynex.Core.Difficulty

/-!
# The difficulty retarget in unbounded integers

`Currency::nextDifficultyDefault` and `Currency::nextDifficultyV4` cut the outliers off the
sorted window, then divide the work over the window by its time span, rounded up, in 64 bits.
On a window of at least two entries with growing cumulative difficulties the cut is inside the
window and the work is positive, as the source asserts; the 128-bit product and the overflow test
make the 64-bit result the exact rounded-up quotient, or the overflow exit exactly when that
quotient's numerator does not fit (`difficultyFromWindow_exact`).
-/

set_option autoImplicit false

namespace Dynex

open WideArithmetic

theorem pairwise_mergeSort_le (values : List UInt64) :
    (values.mergeSort (fun left right => decide (left ≤ right))).Pairwise (· ≤ ·) := by
  have transitive : ∀ left middle right : UInt64, decide (left ≤ middle) = true →
      decide (middle ≤ right) = true → decide (left ≤ right) = true := by
    intro left middle right first second
    exact decide_eq_true (UInt64.le_trans (of_decide_eq_true first) (of_decide_eq_true second))
  have total : ∀ left right : UInt64, (decide (left ≤ right) || decide (right ≤ left)) = true := by
    intro left right
    rcases UInt64.le_total left right with below | above
    · simp [below]
    · simp [above]
  exact (List.pairwise_mergeSort transitive total values).imp of_decide_eq_true

theorem Pairwise.getD_rel {α : Type} {relation : α → α → Prop} {values : List α} {fallback : α}
    (ordered : values.Pairwise relation) {first second : Nat} (before : first < second)
    (inside : second < values.length) :
    relation (values.getD first fallback) (values.getD second fallback) := by
  rw [List.getD_eq_getElem _ _ (by omega), List.getD_eq_getElem _ _ inside]
  exact List.pairwise_iff_getElem.mp ordered first second (by omega) inside before

/-! ## Windows of evenly spaced blocks -/

theorem take_range' {start count total : Nat} (covered : count ≤ total) :
    (List.range' start total).take count = List.range' start count := by
  have split := @List.range'_append start count (total - count) 1
  rw [Nat.add_sub_cancel' covered] at split
  rw [← split, List.take_left' List.length_range']

theorem getD_map_range' {α : Type} (f : Nat → α) {start count index : Nat} (inside : index < count)
    (fallback : α) : ((List.range' start count).map f).getD index fallback = f (start + index) := by
  rw [List.getD_eq_getElem _ _ (by simpa using inside), List.getElem_map, List.getElem_range',
    Nat.one_mul]

theorem toNat_toUInt64_of_lt {value : Nat} (fits : value < 2 ^ 64) : value.toUInt64.toNat = value := by
  rw [Nat.toUInt64_eq]
  exact UInt64.toNat_ofNat_of_lt' fits

theorem pairwise_map_range'_toUInt64 (f : Nat → Nat) (start count : Nat)
    (grows : ∀ {lower higher}, lower < higher → f lower < f higher)
    (fits : ∀ height < start + count, f height < 2 ^ 64) (relation : UInt64 → UInt64 → Prop)
    (related : ∀ {lower higher : UInt64}, lower.toNat < higher.toNat → relation lower higher) :
    ((List.range' start count).map fun height => (f height).toUInt64).Pairwise relation := by
  rw [List.pairwise_map]
  refine (List.pairwise_lt_range' (s := start) (n := count)).imp_of_mem ?_
  intro lower higher lowerMember higherMember below
  have lowerInside := (List.mem_range'_1.mp lowerMember).2
  have higherInside := (List.mem_range'_1.mp higherMember).2
  apply related
  rw [toNat_toUInt64_of_lt (fits lower lowerInside), toNat_toUInt64_of_lt (fits higher higherInside)]
  exact grows below

/-! ## The rounded-up quotient in 64 bits -/

theorem add_sub_one_lt_iff (low span : UInt64) (positive : 0 < span.toNat) :
    low + span - 1 < low ↔ 2 ^ 64 ≤ low.toNat + span.toNat - 1 := by
  have := low.toNat_lt
  have := span.toNat_lt
  rw [UInt64.lt_iff_toNat_lt, UInt64.toNat_sub, UInt64.toNat_add, show (1 : UInt64).toNat = 1 from rfl]
  omega

theorem toNat_add_sub_one {low span : UInt64} (positive : 0 < span.toNat)
    (fits : low.toNat + span.toNat - 1 < 2 ^ 64) :
    (low + span - 1).toNat = low.toNat + span.toNat - 1 := by
  have := span.toNat_lt
  rw [UInt64.toNat_sub, UInt64.toNat_add, show (1 : UInt64).toNat = 1 from rfl]
  omega

/-- The overflow test of `nextDifficultyDefault` on the two words of the product, and the
rounded-up division after it: exact in unbounded integers. -/
theorem overflow_test_exact {lo hi span : UInt64} {numerator : Nat}
    (low : lo.toNat = numerator % 2 ^ 64) (high : hi.toNat = numerator / 2 ^ 64)
    (positive : 0 < span.toNat) :
    (if hi ≠ 0 ∨ lo + span - 1 < lo then Currency.WindowDifficulty.overflow
      else .computed ((lo + span - 1) / span)) =
      if 2 ^ 64 ≤ numerator + span.toNat - 1 then .overflow
      else .computed (UInt64.ofNat ((numerator + span.toNat - 1) / span.toNat)) := by
  have spanWord := span.toNat_lt
  by_cases overflow : 2 ^ 64 ≤ numerator + span.toNat - 1
  · rw [if_pos overflow, if_pos]
    by_cases highZero : hi = 0
    · have none : hi.toNat = 0 := by rw [highZero, UInt64.toNat_zero]
      rw [add_sub_one_lt_iff _ _ positive]
      right
      omega
    · exact Or.inl highZero
  · have fits : numerator < 2 ^ 64 := by omega
    have none : hi = 0 := by
      apply UInt64.toNat_inj.mp
      rw [high, Nat.div_eq_of_lt fits, UInt64.toNat_zero]
    rw [if_neg overflow, if_neg]
    · have quotientFits : (numerator + span.toNat - 1) / span.toNat < 2 ^ 64 :=
        lt_of_le_of_lt (Nat.div_le_self _ _) (by omega)
      congr 1
      apply UInt64.toNat_inj.mp
      rw [UInt64.toNat_div, toNat_add_sub_one positive (by omega), UInt64.toNat_ofNat',
        Nat.mod_eq_of_lt quotientFits, low, Nat.mod_eq_of_lt fits]
    · rintro (set | wraps)
      · exact set none
      · rw [add_sub_one_lt_iff _ _ positive] at wraps
        omega

namespace Currency

variable (currency : Currency)

/-- `cutBegin` and `cutEnd` of `nextDifficultyDefault` for a window of `length` entries. -/
def cutWindow (length : Nat) : Nat × Nat :=
  let kept := currency.m_difficultyWindow - 2 * currency.m_difficultyCut
  if length ≤ kept then (0, length)
  else ((length - kept + 1) / 2, (length - kept + 1) / 2 + kept)

theorem cutWindow_bounds (window : 2 ≤ currency.m_difficultyWindow)
    (cut : 2 * currency.m_difficultyCut ≤ currency.m_difficultyWindow - 2) {length : Nat}
    (long : 2 ≤ length) :
    (currency.cutWindow length).1 + 2 ≤ (currency.cutWindow length).2 ∧
      (currency.cutWindow length).2 ≤ length := by
  unfold cutWindow
  dsimp only
  split_ifs with short
  · exact ⟨long, le_rfl⟩
  · dsimp only
    omega

def windowTimeSpan (timestamps : List UInt64) (cutBegin cutEnd : Nat) : Nat :=
  let sorted := timestamps.mergeSort (fun left right => decide (left ≤ right))
  max 1 ((sorted.getD (cutEnd - 1) 0).toNat - (sorted.getD cutBegin 0).toNat)

def windowWork (cumulativeDifficulties : List UInt64) (cutBegin cutEnd : Nat) : Nat :=
  (cumulativeDifficulties.getD (cutEnd - 1) 0).toNat - (cumulativeDifficulties.getD cutBegin 0).toNat

/-- On a window of at least two entries whose cumulative difficulties grow, the cut lies inside
the window and the work across it is positive, and the 64-bit computation takes the overflow exit
exactly when the rounded-up numerator does not fit in a word, and returns the rounded-up quotient
otherwise. -/
theorem difficultyFromWindow_exact (window : 2 ≤ currency.m_difficultyWindow)
    (cut : 2 * currency.m_difficultyCut ≤ currency.m_difficultyWindow - 2)
    (timestamps cumulativeDifficulties : List UInt64)
    (sameLength : (timestamps.take currency.m_difficultyWindow).length =
      (cumulativeDifficulties.take currency.m_difficultyWindow).length)
    (increasing : (cumulativeDifficulties.take currency.m_difficultyWindow).Pairwise (· < ·))
    (long : 2 ≤ (timestamps.take currency.m_difficultyWindow).length) {cutBegin cutEnd : Nat}
    (cutIs : currency.cutWindow (timestamps.take currency.m_difficultyWindow).length =
      (cutBegin, cutEnd)) :
    cutBegin + 2 ≤ cutEnd ∧ cutEnd ≤ (timestamps.take currency.m_difficultyWindow).length ∧
      0 < windowWork (cumulativeDifficulties.take currency.m_difficultyWindow) cutBegin cutEnd ∧
      currency.difficultyFromWindow timestamps cumulativeDifficulties =
        if 2 ^ 64 ≤ windowWork (cumulativeDifficulties.take currency.m_difficultyWindow) cutBegin cutEnd *
            currency.m_difficultyTarget.toNat +
              windowTimeSpan (timestamps.take currency.m_difficultyWindow) cutBegin cutEnd - 1 then
          .overflow
        else .computed (UInt64.ofNat
          ((windowWork (cumulativeDifficulties.take currency.m_difficultyWindow) cutBegin cutEnd *
              currency.m_difficultyTarget.toNat +
            windowTimeSpan (timestamps.take currency.m_difficultyWindow) cutBegin cutEnd - 1) /
          windowTimeSpan (timestamps.take currency.m_difficultyWindow) cutBegin cutEnd)) := by
  have bounds := currency.cutWindow_bounds window cut long
  rw [cutIs] at bounds
  obtain ⟨gap, inside⟩ := bounds
  refine ⟨gap, inside, ?_⟩
  unfold difficultyFromWindow windowTimeSpan windowWork
  dsimp only
  rw [if_neg (by omega)]
  generalize cutsIs : (if (timestamps.take currency.m_difficultyWindow).length ≤
      currency.m_difficultyWindow - 2 * currency.m_difficultyCut then _ else _ : Nat × Nat) = cuts
  have same : cuts = (cutBegin, cutEnd) := cutsIs.symm.trans cutIs
  subst same
  dsimp only
  have ordered := pairwise_mergeSort_le (timestamps.take currency.m_difficultyWindow)
  have sortedLength : ((timestamps.take currency.m_difficultyWindow).mergeSort
      (fun left right => decide (left ≤ right))).length =
        (timestamps.take currency.m_difficultyWindow).length :=
    List.length_mergeSort _
  generalize timestamps.take currency.m_difficultyWindow = recent
    at sameLength long inside ordered sortedLength ⊢
  generalize cumulativeDifficulties.take currency.m_difficultyWindow = work at sameLength increasing ⊢
  generalize recent.mergeSort (fun left right => decide (left ≤ right)) = sorted
    at ordered sortedLength ⊢
  have earlier : sorted.getD cutBegin 0 ≤ sorted.getD (cutEnd - 1) 0 :=
    Pairwise.getD_rel ordered (by omega) (by omega)
  have grows : work.getD cutBegin 0 < work.getD (cutEnd - 1) 0 :=
    Pairwise.getD_rel increasing (by omega) (by omega)
  have positiveWork : 0 < (work.getD (cutEnd - 1) 0).toNat - (work.getD cutBegin 0).toNat := by
    have := UInt64.lt_iff_toNat_lt.mp grows
    omega
  refine ⟨positiveWork, ?_⟩
  have spanToNat : (if sorted.getD (cutEnd - 1) 0 - sorted.getD cutBegin 0 = 0 then 1
      else sorted.getD (cutEnd - 1) 0 - sorted.getD cutBegin 0).toNat =
        max 1 ((sorted.getD (cutEnd - 1) 0).toNat - (sorted.getD cutBegin 0).toNat) := by
    have difference := UInt64.toNat_sub_of_le _ _ earlier
    split_ifs with zero
    · rw [zero, UInt64.toNat_zero] at difference
      simp only [UInt64.toNat_one]
      omega
    · have nonzero : (sorted.getD (cutEnd - 1) 0 - sorted.getD cutBegin 0).toNat ≠ 0 :=
        fun none => zero (UInt64.toNat_inj.mp none)
      omega
  have workToNat : (work.getD (cutEnd - 1) 0 - work.getD cutBegin 0).toNat =
      (work.getD (cutEnd - 1) 0).toNat - (work.getD cutBegin 0).toNat :=
    UInt64.toNat_sub_of_le _ _ (UInt64.le_of_lt grows)
  generalize (if sorted.getD (cutEnd - 1) 0 - sorted.getD cutBegin 0 = 0 then 1
      else sorted.getD (cutEnd - 1) 0 - sorted.getD cutBegin 0) = span at spanToNat ⊢
  generalize work.getD (cutEnd - 1) 0 - work.getD cutBegin 0 = workDone at workToNat ⊢
  have positiveSpan : 0 < span.toNat := by
    rw [spanToNat]
    omega
  generalize max 1 ((sorted.getD (cutEnd - 1) 0).toNat - (sorted.getD cutBegin 0).toNat) = timeSpan
    at spanToNat ⊢
  generalize (work.getD (cutEnd - 1) 0).toNat - (work.getD cutBegin 0).toNat = totalWork
    at workToNat positiveWork ⊢
  obtain ⟨low, high⟩ := mul128_wide workDone currency.m_difficultyTarget
  rw [workToNat] at low high
  generalize mul128 workDone currency.m_difficultyTarget = product at low high ⊢
  generalize totalWork * currency.m_difficultyTarget.toNat = numerator at low high ⊢
  obtain ⟨lo, hi⟩ := product
  dsimp only at low high ⊢
  rw [← spanToNat]
  exact overflow_test_exact low high positiveSpan

/-- A window of blocks mined `m_difficultyTarget` seconds apart, each adding `difficulty` to the
cumulative difficulty, has that difficulty. -/
theorem difficultyFromWindow_of_evenly_spaced (window : 2 ≤ currency.m_difficultyWindow)
    (cut : 2 * currency.m_difficultyCut ≤ currency.m_difficultyWindow - 2)
    {spacing difficulty base start count : Nat} (onTime : currency.m_difficultyTarget.toNat = spacing)
    (positiveSpacing : 0 < spacing) (positiveDifficulty : 0 < difficulty)
    (long : 2 ≤ count) (short : count ≤ currency.m_difficultyWindow)
    (timestampsFit : spacing * (start + count) < 2 ^ 64)
    (difficultiesFit : base + difficulty * (start + count) < 2 ^ 64)
    (noOverflow : (difficulty + 1) * spacing * currency.m_difficultyWindow ≤ 2 ^ 64) :
    currency.difficultyFromWindow
        ((List.range' start count).map (fun height => (spacing * height).toUInt64))
        ((List.range' start count).map (fun height => (base + difficulty * height).toUInt64)) =
      .computed difficulty.toUInt64 := by
  have takeWindow : ∀ (f : Nat → UInt64),
      ((List.range' start count).map f).take currency.m_difficultyWindow =
        (List.range' start count).map f := fun f =>
    List.take_of_length_le (by simpa using short)
  have timestampWords : ∀ height < start + count, spacing * height < 2 ^ 64 := fun height below =>
    lt_of_le_of_lt (Nat.mul_le_mul_left spacing below.le) timestampsFit
  have difficultyWords : ∀ height < start + count, base + difficulty * height < 2 ^ 64 :=
    fun height below =>
      lt_of_le_of_lt (Nat.add_le_add_left (Nat.mul_le_mul_left difficulty below.le) base)
        difficultiesFit
  have increasing := pairwise_map_range'_toUInt64 (fun height => base + difficulty * height)
    start count
    (fun below => Nat.add_lt_add_left (Nat.mul_lt_mul_of_pos_left below positiveDifficulty) base)
    difficultyWords (· < ·) (fun below => UInt64.lt_iff_toNat_lt.mpr below)
  have sorted := pairwise_map_range'_toUInt64 (fun height => spacing * height) start count
    (fun below => Nat.mul_lt_mul_of_pos_left below positiveSpacing) timestampWords
    (fun lower higher => decide (lower ≤ higher) = true)
    (fun below => decide_eq_true (UInt64.le_iff_toNat_le.mpr below.le))
  generalize cutIs : currency.cutWindow count = cuts
  obtain ⟨cutBegin, cutEnd⟩ := cuts
  have lengthIs : ((List.range' start count).map
      (fun height => (spacing * height).toUInt64)).length = count := by simp
  obtain ⟨gap, inside, -, computed⟩ := currency.difficultyFromWindow_exact window cut
    ((List.range' start count).map (fun height => (spacing * height).toUInt64))
    ((List.range' start count).map (fun height => (base + difficulty * height).toUInt64))
    (by simp only [takeWindow, List.length_map]) (by rw [takeWindow]; exact increasing)
    (by rw [takeWindow, lengthIs]; exact long)
    (show currency.cutWindow (((List.range' start count).map
        (fun height => (spacing * height).toUInt64)).take currency.m_difficultyWindow).length =
          (cutBegin, cutEnd) by
      rw [takeWindow, lengthIs]
      exact cutIs)
  rw [takeWindow, lengthIs] at inside
  rw [computed, takeWindow, takeWindow]
  have work : windowWork ((List.range' start count).map
      (fun height => (base + difficulty * height).toUInt64)) cutBegin cutEnd =
        difficulty * (cutEnd - 1 - cutBegin) := by
    unfold windowWork
    rw [getD_map_range' _ (by omega), getD_map_range' _ (by omega),
      toNat_toUInt64_of_lt (difficultyWords _ (by omega)),
      toNat_toUInt64_of_lt (difficultyWords _ (by omega)), Nat.add_sub_add_left, ← Nat.mul_sub]
    congr 1
    omega
  have span : windowTimeSpan ((List.range' start count).map
      (fun height => (spacing * height).toUInt64)) cutBegin cutEnd = spacing * (cutEnd - 1 - cutBegin) := by
    unfold windowTimeSpan
    dsimp only
    rw [List.mergeSort_of_pairwise sorted, getD_map_range' _ (by omega), getD_map_range' _ (by omega),
      toNat_toUInt64_of_lt (timestampWords _ (by omega)),
      toNat_toUInt64_of_lt (timestampWords _ (by omega)), ← Nat.mul_sub,
      show start + (cutEnd - 1) - (start + cutBegin) = cutEnd - 1 - cutBegin by omega]
    exact max_eq_right (Nat.mul_pos positiveSpacing (by omega))
  have blocksPositive : 0 < cutEnd - 1 - cutBegin := by omega
  have fits : (difficulty + 1) * (spacing * (cutEnd - 1 - cutBegin)) ≤ 2 ^ 64 :=
    calc (difficulty + 1) * (spacing * (cutEnd - 1 - cutBegin))
        ≤ (difficulty + 1) * (spacing * currency.m_difficultyWindow) :=
          Nat.mul_le_mul_left _ (Nat.mul_le_mul_left _ (by omega))
      _ = (difficulty + 1) * spacing * currency.m_difficultyWindow := by ring
      _ ≤ 2 ^ 64 := noOverflow
  rw [work, span, onTime, show difficulty * (cutEnd - 1 - cutBegin) * spacing =
    difficulty * (spacing * (cutEnd - 1 - cutBegin)) by ring]
  have spanPositive := Nat.mul_pos positiveSpacing blocksPositive
  generalize spacing * (cutEnd - 1 - cutBegin) = timeSpan at fits spanPositive ⊢
  have expand : (difficulty + 1) * timeSpan = difficulty * timeSpan + timeSpan := by ring
  have bounded : difficulty * timeSpan + timeSpan ≤ 2 ^ 64 := expand ▸ fits
  rw [if_neg (by omega), @Nat.div_eq_of_lt_le difficulty timeSpan _ (by omega)
    (by rw [expand]; omega), Nat.toUInt64_eq]

theorem difficultyFromWindow_take (timestamps cumulativeDifficulties : List UInt64) :
    currency.difficultyFromWindow (timestamps.take currency.m_difficultyWindow)
        (cumulativeDifficulties.take currency.m_difficultyWindow) =
      currency.difficultyFromWindow timestamps cumulativeDifficulties := by
  simp only [difficultyFromWindow, List.take_take, Nat.min_self]

theorem difficultyFromWindow_of_evenly_spaced_prefix (window : 2 ≤ currency.m_difficultyWindow)
    (cut : 2 * currency.m_difficultyCut ≤ currency.m_difficultyWindow - 2)
    {spacing difficulty base start count : Nat} (onTime : currency.m_difficultyTarget.toNat = spacing)
    (positiveSpacing : 0 < spacing) (positiveDifficulty : 0 < difficulty)
    (covered : currency.m_difficultyWindow ≤ count)
    (timestampsFit : spacing * (start + count) < 2 ^ 64)
    (difficultiesFit : base + difficulty * (start + count) < 2 ^ 64)
    (noOverflow : (difficulty + 1) * spacing * currency.m_difficultyWindow ≤ 2 ^ 64)
    (later laterDifficulties : List UInt64) :
    currency.difficultyFromWindow
        ((List.range' start count).map (fun height => (spacing * height).toUInt64) ++ later)
        ((List.range' start count).map (fun height => (base + difficulty * height).toUInt64) ++
          laterDifficulties) =
      .computed difficulty.toUInt64 := by
  have takeWindow : ∀ (f : Nat → UInt64) (rest : List UInt64),
      ((List.range' start count).map f ++ rest).take currency.m_difficultyWindow =
        (List.range' start currency.m_difficultyWindow).map f := by
    intro f rest
    rw [List.take_append_of_le_length (by simpa using covered), ← List.map_take, take_range' covered]
  rw [← difficultyFromWindow_take, takeWindow, takeWindow]
  exact currency.difficultyFromWindow_of_evenly_spaced window cut onTime positiveSpacing
    positiveDifficulty window le_rfl
    (lt_of_le_of_lt (Nat.mul_le_mul_left spacing (by omega)) timestampsFit)
    (lt_of_le_of_lt (Nat.add_le_add_left (Nat.mul_le_mul_left difficulty (by omega)) base)
      difficultiesFit) noOverflow

theorem windowTimeSpan_pos (timestamps : List UInt64) (cutBegin cutEnd : Nat) :
    0 < windowTimeSpan timestamps cutBegin cutEnd := by
  unfold windowTimeSpan
  exact lt_of_lt_of_le Nat.one_pos (le_max_left _ _)

theorem ofNat_quotient_ne_zero {numerator timeSpan : Nat} (positive : 0 < numerator)
    (positiveSpan : 0 < timeSpan) (fits : ¬2 ^ 64 ≤ numerator + timeSpan - 1) :
    UInt64.ofNat ((numerator + timeSpan - 1) / timeSpan) ≠ 0 := by
  have quotientPositive : 0 < (numerator + timeSpan - 1) / timeSpan :=
    Nat.div_pos (by omega) positiveSpan
  have quotientFits : (numerator + timeSpan - 1) / timeSpan < 2 ^ 64 :=
    lt_of_le_of_lt (Nat.div_le_self _ _) (by omega)
  intro zero
  have none := congrArg UInt64.toNat zero
  rw [UInt64.toNat_ofNat', Nat.mod_eq_of_lt quotientFits, UInt64.toNat_zero] at none
  omega

theorem mainnetDifficultyOverride_ne_zero (blockIndex : Nat) {value : UInt64} (nonzero : value ≠ 0) :
    mainnetDifficultyOverride blockIndex value ≠ 0 := by
  unfold mainnetDifficultyOverride
  split_ifs <;> simp [nonzero]

theorem nextDifficultyV4_adjusted_ne_zero (blockIndex : Nat) {nextDiff : UInt64}
    (nonzero : nextDiff ≠ 0) :
    (let nextDiff := if !currency.m_testnet && nextDiff < 100000 then 100000 else nextDiff
      if currency.m_testnet ∧ 17292 ≤ blockIndex ∧ blockIndex ≤ 17493 then 14
      else if currency.m_testnet ∧ blockIndex < 17292 then
        if nextDiff / 2 < 14 then 14 else nextDiff / 2
      else nextDiff) ≠ 0 := by
  have floored : (if !currency.m_testnet && nextDiff < 100000 then 100000 else nextDiff) ≠ 0 := by
    split_ifs <;> simp [nonzero]
  generalize (if !currency.m_testnet && nextDiff < 100000 then 100000 else nextDiff) = adjusted
    at floored
  dsimp only
  split_ifs with fixed early halved
  · decide
  · decide
  · intro zero
    rw [zero] at halved
    exact halved (by decide)
  · exact floored

/-- `nextDifficultyDefault`, and `nextDifficultyV4` outside the fixed range after its fork, on a
window of at least two entries whose cumulative difficulties grow: the cut lies inside the window,
the work across it is positive, the 64-bit result before the adjustments is the rounded-up
quotient in unbounded integers, and the difficulty is 0 exactly when that quotient's numerator
does not fit in a word. -/
theorem nextDifficulty_retarget_exact (window : 2 ≤ currency.m_difficultyWindow)
    (cut : 2 * currency.m_difficultyCut ≤ currency.m_difficultyWindow - 2)
    (target : currency.m_difficultyTarget ≠ 0) (blockIndex : Nat)
    (timestamps cumulativeDifficulties : List UInt64)
    (sameLength : (timestamps.take currency.m_difficultyWindow).length =
      (cumulativeDifficulties.take currency.m_difficultyWindow).length)
    (increasing : (cumulativeDifficulties.take currency.m_difficultyWindow).Pairwise (· < ·))
    (long : 2 ≤ (timestamps.take currency.m_difficultyWindow).length) {cutBegin cutEnd : Nat}
    (cutIs : currency.cutWindow (timestamps.take currency.m_difficultyWindow).length =
      (cutBegin, cutEnd)) :
    cutBegin + 2 ≤ cutEnd ∧ cutEnd ≤ (timestamps.take currency.m_difficultyWindow).length ∧
      0 < windowWork (cumulativeDifficulties.take currency.m_difficultyWindow) cutBegin cutEnd ∧
      currency.difficultyFromWindow timestamps cumulativeDifficulties =
        (if 2 ^ 64 ≤ windowWork (cumulativeDifficulties.take currency.m_difficultyWindow) cutBegin cutEnd *
            currency.m_difficultyTarget.toNat +
              windowTimeSpan (timestamps.take currency.m_difficultyWindow) cutBegin cutEnd - 1 then
          .overflow
        else .computed (UInt64.ofNat
          ((windowWork (cumulativeDifficulties.take currency.m_difficultyWindow) cutBegin cutEnd *
              currency.m_difficultyTarget.toNat +
            windowTimeSpan (timestamps.take currency.m_difficultyWindow) cutBegin cutEnd - 1) /
          windowTimeSpan (timestamps.take currency.m_difficultyWindow) cutBegin cutEnd))) ∧
      (currency.m_testnet = false →
        (currency.nextDifficultyDefault blockIndex timestamps cumulativeDifficulties = 0 ↔
          2 ^ 64 ≤ windowWork (cumulativeDifficulties.take currency.m_difficultyWindow) cutBegin cutEnd *
            currency.m_difficultyTarget.toNat +
              windowTimeSpan (timestamps.take currency.m_difficultyWindow) cutBegin cutEnd - 1)) ∧
      (¬(currency.m_upgradeHeightV4 ≤ blockIndex ∧
          blockIndex ≤ currency.m_upgradeHeightV4 + DIFFICULTY_WINDOW_V4) →
        (currency.nextDifficultyV4 blockIndex timestamps cumulativeDifficulties = 0 ↔
          2 ^ 64 ≤ windowWork (cumulativeDifficulties.take currency.m_difficultyWindow) cutBegin cutEnd *
            currency.m_difficultyTarget.toNat +
              windowTimeSpan (timestamps.take currency.m_difficultyWindow) cutBegin cutEnd - 1)) := by
  obtain ⟨gap, inside, positiveWork, computed⟩ := currency.difficultyFromWindow_exact window cut
    timestamps cumulativeDifficulties sameLength increasing long cutIs
  refine ⟨gap, inside, positiveWork, computed, ?_, ?_⟩
  all_goals
    have positiveSpan := windowTimeSpan_pos (timestamps.take currency.m_difficultyWindow) cutBegin cutEnd
    have positiveTarget : 0 < currency.m_difficultyTarget.toNat := by
      rcases Nat.eq_zero_or_pos currency.m_difficultyTarget.toNat with zero | positive
      · exact absurd (UInt64.toNat_inj.mp zero) target
      · exact positive
    have positiveNumerator := Nat.mul_pos positiveWork positiveTarget
    generalize windowWork (cumulativeDifficulties.take currency.m_difficultyWindow) cutBegin cutEnd *
      currency.m_difficultyTarget.toNat = numerator at positiveNumerator computed ⊢
    generalize windowTimeSpan (timestamps.take currency.m_difficultyWindow) cutBegin cutEnd = timeSpan
      at positiveSpan computed ⊢
  · intro mainnet
    by_cases overflow : 2 ^ 64 ≤ numerator + timeSpan - 1
    · rw [if_pos overflow] at computed
      simp only [nextDifficultyDefault, computed, overflow]
    · rw [if_neg overflow] at computed
      simp only [nextDifficultyDefault, computed, mainnet, Bool.false_eq_true, if_false, overflow,
        iff_false]
      exact mainnetDifficultyOverride_ne_zero _
        (ofNat_quotient_ne_zero positiveNumerator positiveSpan overflow)
  · intro outside
    unfold nextDifficultyV4
    rw [if_neg outside]
    by_cases overflow : 2 ^ 64 ≤ numerator + timeSpan - 1
    · rw [if_pos overflow] at computed
      simp only [computed, overflow]
    · rw [if_neg overflow] at computed
      simp only [computed, overflow, iff_false]
      exact currency.nextDifficultyV4_adjusted_ne_zero blockIndex
        (ofNat_quotient_ne_zero positiveNumerator positiveSpan overflow)

end Currency

theorem mainnet_difficultyTarget_ne_zero : Currency.mainnet.m_difficultyTarget ≠ 0 := by decide

theorem testnet_difficultyTarget_ne_zero : Currency.testnet.m_difficultyTarget ≠ 0 := by decide

theorem retarget_of_three_blocks :
    Currency.mainnet.nextDifficultyDefault 100 [100, 220, 340] [1000, 2000, 3000] ≠ 0 ∧
      Currency.testnet.difficultyFromWindow [100, 220, 340] [1000, 2000, 3000] = .computed 1000 := by
  obtain ⟨-, -, -, -, default, -⟩ := Currency.mainnet.nextDifficulty_retarget_exact (by decide)
    (by decide) mainnet_difficultyTarget_ne_zero 100 [100, 220, 340] [1000, 2000, 3000] (by decide)
    (by decide) (by decide) (show Currency.mainnet.cutWindow _ = (0, 3) by decide)
  obtain ⟨-, -, -, computed, -⟩ := Currency.testnet.nextDifficulty_retarget_exact (by decide)
    (by decide) testnet_difficultyTarget_ne_zero 100 [100, 220, 340] [1000, 2000, 3000] (by decide)
    (by decide) (by decide) (show Currency.testnet.cutWindow _ = (0, 3) by decide)
  have span : ∀ currency : Currency, currency.m_difficultyWindow = 720 →
      Currency.windowTimeSpan (([100, 220, 340] : List UInt64).take currency.m_difficultyWindow) 0 3 =
        240 := by
    intro currency window
    rw [window, Currency.windowTimeSpan, List.mergeSort_of_pairwise (by decide)]
    decide
  have work : ∀ currency : Currency, currency.m_difficultyWindow = 720 →
      Currency.windowWork (([1000, 2000, 3000] : List UInt64).take currency.m_difficultyWindow) 0 3 =
        2000 := by
    intro currency window
    rw [window]
    decide
  constructor
  · rw [Ne, default rfl, span _ rfl, work _ rfl]
    decide
  · rw [computed, span _ rfl, work _ rfl]
    decide

end Dynex
