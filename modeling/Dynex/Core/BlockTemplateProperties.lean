import Dynex.Core.BlockTemplate
import Dynex.Core.TransactionPoolProperties

/-!
# Block templates never double-spend

Over every pool whose transactions have distinct ids (the fee index's container is unique on the
id), `fill_block_template` lists distinct pooled transactions that spend apart, each from the
validation cache or passing `is_transaction_ready_to_go` at its stored check information, with
`total_size` and `fee` their sums in the source's 64-bit arithmetic and `total_size` within the
larger of the two size limits.

The argument is a loop invariant over the fee index (`Filled`): the template's key images and
outputs are those of the transactions listed so far, which `canAdd` keeps apart, and the cache and
check information of the transactions not yet visited are as at the start, because each round
writes only its own transaction's. Only that the fee index is a permutation of the pool is used,
not its order.
-/

set_option autoImplicit false

namespace Dynex

open Crypto

namespace BlockTemplate

open TxMemoryPool (keyImages multisignatureOutputs mem_keyImages mem_multisignatureOutputs)

theorem foldl_insertInput (inputs : List TransactionInput) (template : BlockTemplate) :
    inputs.foldl insertInput template =
      ⟨template.m_keyImages ∪ (keyImages inputs).toFinset,
        template.m_usedOutputs ∪ (multisignatureOutputs inputs).toFinset, template.m_txHashes⟩ := by
  induction inputs generalizing template with
  | nil => simp [keyImages, multisignatureOutputs]
  | cons input rest ih =>
      rw [List.foldl_cons, ih]
      cases input with
      | key input =>
          simp [insertInput, TxMemoryPool.keyImages_cons_key,
            TxMemoryPool.multisignatureOutputs_cons_key, Finset.insert_union, Finset.union_insert]
      | multisignature input =>
          simp [insertInput, TxMemoryPool.keyImages_cons_multisignature,
            TxMemoryPool.multisignatureOutputs_cons_multisignature, Finset.insert_union,
            Finset.union_insert]
      | base input => rfl

theorem canAdd_eq_true_iff {template : BlockTemplate} {tx : Transaction} :
    template.canAdd tx = true ↔
      (∀ keyImage ∈ keyImages tx.inputs, keyImage ∉ template.m_keyImages) ∧
        ∀ output ∈ multisignatureOutputs tx.inputs, output ∉ template.m_usedOutputs := by
  simp only [canAdd, List.all_eq_true]
  constructor
  · intro free
    refine ⟨fun keyImage member => ?_, fun output member => ?_⟩
    · obtain ⟨input, inputMember, rfl⟩ := mem_keyImages.mp member
      simpa using free _ inputMember
    · obtain ⟨input, inputMember, rfl⟩ := mem_multisignatureOutputs.mp member
      simpa using free _ inputMember
  · rintro ⟨keysFree, outputsFree⟩ input member
    cases input with
    | key input => simpa using keysFree _ (mem_keyImages.mpr ⟨input, member, rfl⟩)
    | multisignature input =>
        simpa using outputsFree _ (mem_multisignatureOutputs.mpr ⟨input, member, rfl⟩)
    | base _ => rfl

theorem addTransaction_cases (template : BlockTemplate) (txid : Hash) (tx : Transaction) :
    template.addTransaction txid tx = (false, template) ∨
      (template.canAdd tx = true ∧
        template.addTransaction txid tx =
          (true, ⟨template.m_keyImages ∪ (keyImages tx.inputs).toFinset,
            template.m_usedOutputs ∪ (multisignatureOutputs tx.inputs).toFinset,
            template.m_txHashes ++ [txid]⟩)) := by
  cases free : template.canAdd tx with
  | false => exact .inl (by simp [addTransaction, free])
  | true => exact .inr ⟨rfl, by simp [addTransaction, free, foldl_insertInput]⟩

end BlockTemplate

namespace TxMemoryPool

open BlockTemplate (addTransaction_cases canAdd_eq_true_iff)

/-! ## One round -/

theorem readiness_ready {env : TemplateEnvironment} {validated : Finset Hash}
    {info : TransactionCheckInfo} {txd : TransactionDetails}
    (ready : (readiness env validated info txd).1 = true) :
    txd.id ∈ validated ∨ (is_transaction_ready_to_go env txd.tx info).1 = true := by
  by_cases cached : txd.id ∈ validated
  · exact .inl cached
  · simpa [readiness, cached] using ready

theorem mem_readiness_cache {env : TemplateEnvironment} {validated : Finset Hash}
    {info : TransactionCheckInfo} {txd : TransactionDetails} {id : Hash} (other : id ≠ txd.id) :
    id ∈ (readiness env validated info txd).2.1 ↔ id ∈ validated := by
  by_cases cached : txd.id ∈ validated
  · simp [readiness, cached]
  · by_cases passed : (is_transaction_ready_to_go env txd.tx info).1 = true <;>
      simp [readiness, cached, other, passed]

theorem toNat_le_max_of_not_lt {median_size max_total_size total : UInt64} {fee : UInt64}
    (fits : ¬(if fee = 0 then median_size else max_total_size) < total) :
    total.toNat ≤ max median_size.toNat max_total_size.toNat := by
  rw [UInt64.not_lt, UInt64.le_iff_toNat_le] at fits
  split at fits <;> omega

section Fill

variable (env : TemplateEnvironment) (median_size max_total_size : UInt64)
  (validated : Finset Hash) (checkInfo : Hash → TransactionCheckInfo)

/-- The loop invariant of `fill_block_template` after the transactions `visited` of the fee index,
with `listed` those it put into the template: the template spends exactly what they spend and
they spend apart, each was ready, the totals are their sums within the limit, and the cache and
check information of every transaction not yet visited are as at the start. -/
structure Filled (visited : List TransactionDetails) (state : FillState)
    (listed : List TransactionDetails) : Prop where
  sublist : listed.Sublist visited
  hashes : state.blockTemplate.m_txHashes = listed.map (·.id)
  spentKeyImages : state.blockTemplate.m_keyImages =
    (listed.flatMap fun details => keyImages details.tx.inputs).toFinset
  usedOutputs : state.blockTemplate.m_usedOutputs =
    (listed.flatMap fun details => multisignatureOutputs details.tx.inputs).toFinset
  apart : listed.Pairwise SpendApart
  ready : ∀ details ∈ listed, details.id ∈ validated ∨
    (is_transaction_ready_to_go env details.tx (checkInfo details.id)).1 = true
  totalSize : state.total_size = (listed.map fun details => details.blobSize.toUInt64).sum
  feeSum : state.fee = (listed.map (·.fee)).sum
  bounded : state.total_size.toNat ≤ max median_size.toNat max_total_size.toNat
  untouched : ∀ id ∉ visited.map (·.id),
    state.checkInfo id = checkInfo id ∧ (id ∈ state.m_validated_transactions ↔ id ∈ validated)

theorem filled_start :
    Filled env median_size max_total_size validated checkInfo []
      { total_size := 0, fee := 0, blockTemplate := BlockTemplate.empty,
        m_validated_transactions := validated, checkInfo := checkInfo } [] := by
  refine ⟨List.Sublist.slnil, rfl, rfl, rfl, List.Pairwise.nil, ?_, rfl, rfl, ?_, ?_⟩
  · intro details member
    nomatch member
  · simp
  · intro id _
    exact ⟨rfl, Iff.rfl⟩

variable {env median_size max_total_size validated checkInfo}

theorem Filled.recheck {visited : List TransactionDetails} {state state' : FillState}
    {listed : List TransactionDetails}
    (filled : Filled env median_size max_total_size validated checkInfo visited state listed)
    (txd : TransactionDetails) (template : state'.blockTemplate = state.blockTemplate)
    (total : state'.total_size = state.total_size) (fee : state'.fee = state.fee)
    (cache : ∀ id ≠ txd.id, state'.checkInfo id = state.checkInfo id ∧
      (id ∈ state'.m_validated_transactions ↔ id ∈ state.m_validated_transactions)) :
    Filled env median_size max_total_size validated checkInfo (visited ++ [txd]) state' listed := by
  refine ⟨filled.sublist.trans (List.sublist_append_left _ _), ?_, ?_, ?_, filled.apart,
    filled.ready, ?_, ?_, ?_, ?_⟩
  · rw [template, filled.hashes]
  · rw [template, filled.spentKeyImages]
  · rw [template, filled.usedOutputs]
  · rw [total, filled.totalSize]
  · rw [fee, filled.feeSum]
  · rw [total]
    exact filled.bounded
  · intro id unvisited
    simp only [List.map_append, List.map_cons, List.map_nil, List.mem_append,
      List.mem_singleton, not_or] at unvisited
    obtain ⟨info, cached⟩ := cache id unvisited.2
    obtain ⟨info', cached'⟩ := filled.untouched id unvisited.1
    exact ⟨info.trans info', cached.trans cached'⟩

/-- A round that puts `txd` into the template: it was ready, fits, and spends nothing the listed
transactions spend. -/
theorem Filled.add {visited : List TransactionDetails} {state state' : FillState}
    {listed : List TransactionDetails}
    (filled : Filled env median_size max_total_size validated checkInfo visited state listed)
    {txd : TransactionDetails}
    (free : state.blockTemplate.canAdd txd.tx = true)
    (ready : txd.id ∈ validated ∨
      (is_transaction_ready_to_go env txd.tx (checkInfo txd.id)).1 = true)
    (fits : (state.total_size + txd.blobSize.toUInt64).toNat ≤
      max median_size.toNat max_total_size.toNat)
    (template : state'.blockTemplate =
      ⟨state.blockTemplate.m_keyImages ∪ (keyImages txd.tx.inputs).toFinset,
        state.blockTemplate.m_usedOutputs ∪ (multisignatureOutputs txd.tx.inputs).toFinset,
        state.blockTemplate.m_txHashes ++ [txd.id]⟩)
    (total : state'.total_size = state.total_size + txd.blobSize.toUInt64)
    (fee : state'.fee = state.fee + txd.fee)
    (cache : ∀ id ≠ txd.id, state'.checkInfo id = state.checkInfo id ∧
      (id ∈ state'.m_validated_transactions ↔ id ∈ state.m_validated_transactions)) :
    Filled env median_size max_total_size validated checkInfo (visited ++ [txd]) state'
      (listed ++ [txd]) := by
  obtain ⟨keysFree, outputsFree⟩ := canAdd_eq_true_iff.mp free
  refine ⟨filled.sublist.append_right [txd], ?_, ?_, ?_, ?_, ?_, ?_, ?_, ?_, ?_⟩
  · rw [template]
    simp [filled.hashes]
  · rw [template]
    simp [filled.spentKeyImages, List.toFinset_append]
  · rw [template]
    simp [filled.usedOutputs, List.toFinset_append]
  · refine List.pairwise_append.mpr ⟨filled.apart, List.pairwise_singleton _ _, ?_⟩
    intro earlier earlierMember added addedMember
    rw [List.mem_singleton] at addedMember
    subst addedMember
    refine ⟨fun keyImage spentEarlier spentNow => keysFree keyImage spentNow ?_,
      fun output spentEarlier spentNow => outputsFree output spentNow ?_⟩
    · rw [filled.spentKeyImages, List.mem_toFinset, List.mem_flatMap]
      exact ⟨earlier, earlierMember, spentEarlier⟩
    · rw [filled.usedOutputs, List.mem_toFinset, List.mem_flatMap]
      exact ⟨earlier, earlierMember, spentEarlier⟩
  · intro details member
    rw [List.mem_append, List.mem_singleton] at member
    rcases member with listedBefore | rfl
    · exact filled.ready details listedBefore
    · exact ready
  · rw [total, filled.totalSize]
    simp
  · rw [fee, filled.feeSum]
    simp
  · rw [total]
    exact fits
  · intro id unvisited
    simp only [List.map_append, List.map_cons, List.map_nil, List.mem_append,
      List.mem_singleton, not_or] at unvisited
    obtain ⟨info, cached⟩ := cache id unvisited.2
    obtain ⟨info', cached'⟩ := filled.untouched id unvisited.1
    exact ⟨info.trans info', cached.trans cached'⟩

/-- One round of the loop keeps the invariant, for a transaction not visited before. -/
theorem fillRound_filled {visited : List TransactionDetails} {state : FillState}
    {listed : List TransactionDetails}
    (filled : Filled env median_size max_total_size validated checkInfo visited state listed)
    (txd : TransactionDetails) (fresh : txd.id ∉ visited.map (·.id)) :
    ∃ listed', Filled env median_size max_total_size validated checkInfo (visited ++ [txd])
      (fillRound env median_size max_total_size state txd) listed' := by
  have skipped := filled.recheck txd rfl rfl rfl fun _ _ => ⟨rfl, Iff.rfl⟩
  simp only [fillRound]
  by_cases oversized : (if txd.fee = 0 then median_size else max_total_size) <
      state.total_size + txd.blobSize.toUInt64
  · rw [if_pos oversized]
    exact ⟨listed, skipped⟩
  rw [if_neg oversized]
  by_cases lowFee : (!env.check_tx_fee txd.tx txd.blobSize) = true
  · rw [if_pos lowFee]
    exact ⟨listed, skipped⟩
  rw [if_neg lowFee]
  have cache : ∀ id ≠ txd.id,
      Function.update state.checkInfo txd.id
          (readiness env state.m_validated_transactions (state.checkInfo txd.id) txd).2.2 id =
        state.checkInfo id ∧
      (id ∈ (readiness env state.m_validated_transactions (state.checkInfo txd.id) txd).2.1 ↔
        id ∈ state.m_validated_transactions) :=
    fun id other => ⟨Function.update_of_ne other _ _, mem_readiness_cache other⟩
  cases ready : (readiness env state.m_validated_transactions (state.checkInfo txd.id) txd).1 with
  | false =>
      simp only [Bool.not_false, if_true]
      exact ⟨listed, filled.recheck txd rfl rfl rfl cache⟩
  | true =>
      simp only [Bool.not_true, Bool.false_eq_true, if_false]
      obtain refused | ⟨free, added⟩ := state.blockTemplate.addTransaction_cases txd.id txd.tx
      · rw [refused]
        exact ⟨listed, filled.recheck txd rfl rfl rfl cache⟩
      · rw [added]
        obtain ⟨info, cached⟩ := filled.untouched txd.id fresh
        have wasReady := readiness_ready ready
        rw [info, cached] at wasReady
        exact ⟨listed ++ [txd], filled.add free wasReady (toNat_le_max_of_not_lt oversized)
          rfl rfl rfl cache⟩

theorem foldl_fillRound_filled (rest : List TransactionDetails) :
    ∀ {visited : List TransactionDetails} {state : FillState} {listed : List TransactionDetails},
      Filled env median_size max_total_size validated checkInfo visited state listed →
      ((visited ++ rest).map (·.id)).Nodup →
      ∃ listed', Filled env median_size max_total_size validated checkInfo (visited ++ rest)
        (rest.foldl (fillRound env median_size max_total_size) state) listed' := by
  induction rest with
  | nil =>
      intro visited state listed filled _
      exact ⟨listed, by simpa using filled⟩
  | cons txd rest ih =>
      intro visited state listed filled unique
      have fresh : txd.id ∉ visited.map (·.id) := by
        rw [List.map_append, List.nodup_append] at unique
        exact fun visitedBefore => unique.2.2 _ visitedBefore _ List.mem_cons_self rfl
      obtain ⟨listed', next⟩ := fillRound_filled filled txd fresh
      obtain ⟨listed'', final⟩ := ih next (by simpa using unique)
      exact ⟨listed'', by simpa using final⟩

end Fill

/-! ## The template -/

theorem feeIndex_perm (pool : TxMemoryPool) : (feeIndex pool).Perm pool.m_transactions :=
  List.mergeSort_perm _ _

theorem fill_block_template_filled (env : TemplateEnvironment) (pool : TxMemoryPool)
    (validated : Finset Hash) (checkInfo : Hash → TransactionCheckInfo)
    (median_size maxCumulativeSize : UInt64) (unique : (pool.m_transactions.map (·.id)).Nodup) :
    ∃ listed, Filled env median_size (maxTotalSize env median_size maxCumulativeSize) validated
      checkInfo (feeIndex pool)
      (fill_block_template env pool validated checkInfo median_size maxCumulativeSize) listed := by
  have indexUnique : ((feeIndex pool).map (·.id)).Nodup :=
    ((feeIndex_perm pool).map _).nodup_iff.mpr unique
  obtain ⟨listed, filled⟩ := foldl_fillRound_filled (feeIndex pool)
    (filled_start env median_size (maxTotalSize env median_size maxCumulativeSize) validated
      checkInfo) indexUnique
  exact ⟨listed, filled⟩

theorem maxTotalSize_toNat (env : TemplateEnvironment) (median_size maxCumulativeSize : UInt64)
    (noOverflow : 125 * median_size.toNat < 2 ^ 64)
    (reserved : env.minerTxBlobReservedSize.toNat ≤
      min (125 * median_size.toNat / 100) maxCumulativeSize.toNat) :
    (maxTotalSize env median_size maxCumulativeSize).toNat =
      min (125 * median_size.toNat / 100) maxCumulativeSize.toNat -
        env.minerTxBlobReservedSize.toNat := by
  have capped : (min ((125 * median_size) / 100) maxCumulativeSize).toNat =
      min (125 * median_size.toNat / 100) maxCumulativeSize.toNat := by
    have product : (125 * median_size).toNat = 125 * median_size.toNat := by
      rw [UInt64.toNat_mul]
      exact Nat.mod_eq_of_lt noOverflow
    rw [UInt64.toNat_min, UInt64.toNat_div, product]
    rfl
  have covers : env.minerTxBlobReservedSize ≤ min ((125 * median_size) / 100) maxCumulativeSize := by
    rw [UInt64.le_iff_toNat_le, capped]
    exact reserved
  rw [maxTotalSize, UInt64.toNat_sub_of_le _ _ covers, capped]

def acceptingTemplateEnvironment : TemplateEnvironment :=
  ⟨fun _ info => (true, info), fun _ => false, fun _ _ => true, 600⟩

/-- `fill_block_template` over any pool with distinct ids: the template lists distinct pooled
transactions that share no key image and no multisignature output, each in the validation cache or
passing `is_transaction_ready_to_go` at its stored check information; `total_size` and `fee` are
their sums in 64-bit arithmetic, and `total_size` is within the larger of the two limits, where
`max_total_size` is the source's `size_t` value, the natural-number one when nothing wraps. -/
theorem fill_block_template_never_double_spends (env : TemplateEnvironment) (pool : TxMemoryPool)
    (validated : Finset Hash) (checkInfo : Hash → TransactionCheckInfo)
    (median_size maxCumulativeSize : UInt64) (unique : (pool.m_transactions.map (·.id)).Nodup) :
    let filled := fill_block_template env pool validated checkInfo median_size maxCumulativeSize
    let max_total_size := maxTotalSize env median_size maxCumulativeSize
    ∃ listed : List TransactionDetails,
      filled.blockTemplate.getTransactions = listed.map (·.id) ∧
      (listed.map (·.id)).Nodup ∧ (∀ details ∈ listed, details ∈ pool.m_transactions) ∧
      listed.Pairwise SpendApart ∧
      (∀ details ∈ listed, details.id ∈ validated ∨
        (is_transaction_ready_to_go env details.tx (checkInfo details.id)).1 = true) ∧
      filled.total_size = (listed.map fun details => details.blobSize.toUInt64).sum ∧
      filled.fee = (listed.map (·.fee)).sum ∧
      filled.total_size.toNat ≤ max median_size.toNat max_total_size.toNat ∧
      (125 * median_size.toNat < 2 ^ 64 →
        env.minerTxBlobReservedSize.toNat ≤
          min (125 * median_size.toNat / 100) maxCumulativeSize.toNat →
        max_total_size.toNat = min (125 * median_size.toNat / 100) maxCumulativeSize.toNat -
          env.minerTxBlobReservedSize.toNat) := by
  intro filled max_total_size
  obtain ⟨listed, invariant⟩ := fill_block_template_filled env pool validated checkInfo median_size
    maxCumulativeSize unique
  have indexUnique : ((feeIndex pool).map (·.id)).Nodup :=
    ((feeIndex_perm pool).map _).nodup_iff.mpr unique
  refine ⟨listed, invariant.hashes, (invariant.sublist.map _).nodup indexUnique,
    fun details member => (feeIndex_perm pool).subset (invariant.sublist.subset member),
    invariant.apart, invariant.ready, invariant.totalSize, invariant.feeSum, invariant.bounded,
    maxTotalSize_toNat env median_size maxCumulativeSize⟩

/-- Two pooled transactions spending one key image, under different ids. -/
def doubleSpendPool : TxMemoryPool :=
  { empty false with
    m_transactions := [⟨NULL_HASH, oneKeyInputTransaction, 100, 10, false, 0⟩,
      ⟨⟨Pod.ofByte 1⟩, oneKeyInputTransaction, 100, 10, false, 1⟩] }

theorem double_spend_pool_template_spends_apart :
    let env := acceptingTemplateEnvironment
    let checkInfo : Hash → TransactionCheckInfo := fun _ => ⟨⟨0, NULL_HASH⟩, ⟨0, NULL_HASH⟩⟩
    let filled := fill_block_template env doubleSpendPool ∅ checkInfo 20000 40000
    let max_total_size := maxTotalSize env 20000 40000
    (doubleSpendPool.m_transactions.map (·.id)).Nodup ∧
    ∃ listed : List TransactionDetails,
      filled.blockTemplate.getTransactions = listed.map (·.id) ∧
      (listed.map (·.id)).Nodup ∧ (∀ details ∈ listed, details ∈ doubleSpendPool.m_transactions) ∧
      listed.Pairwise SpendApart ∧
      (∀ details ∈ listed, details.id ∈ (∅ : Finset Hash) ∨
        (is_transaction_ready_to_go env details.tx (checkInfo details.id)).1 = true) ∧
      filled.total_size = (listed.map fun details => details.blobSize.toUInt64).sum ∧
      filled.fee = (listed.map (·.fee)).sum ∧
      filled.total_size.toNat ≤ max (20000 : UInt64).toNat max_total_size.toNat ∧
      (125 * (20000 : UInt64).toNat < 2 ^ 64 →
        env.minerTxBlobReservedSize.toNat ≤
          min (125 * (20000 : UInt64).toNat / 100) (40000 : UInt64).toNat →
        max_total_size.toNat = min (125 * (20000 : UInt64).toNat / 100) (40000 : UInt64).toNat -
          env.minerTxBlobReservedSize.toNat) :=
  ⟨by decide, fill_block_template_never_double_spends _ _ _ _ _ _ (by decide)⟩

end TxMemoryPool

end Dynex
