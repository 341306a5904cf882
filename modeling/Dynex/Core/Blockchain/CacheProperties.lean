import Dynex.Core.Blockchain.BlockList
import Dynex.Core.Blockchain.Cache

/-!
# Rebuilt indices against incremental ones

`rebuildCache` reads the stored blocks and nothing else, so two states with the same blocks
rebuild to the same indices (`rebuildCache_of_sameBlocks`). A refused `pushBlock` keeps the
blocks, so a restart that rebuilds forgets whatever the refused push left in the indices
(`rebuildCache_after_refused_push`); and the key images `pushBlock` records with the height the
block entry holds before it is set are rebuilt with the block's index.
-/

set_option autoImplicit false

namespace Dynex

open Crypto

namespace Blockchain

variable {env : Environment}

theorem rebuildCache_of_sameBlocks {chain next : Blockchain} (same : SameBlocks chain next) :
    rebuildCache env next = rebuildCache env chain := by
  simp only [rebuildCache, same.blocks]

/-- After a push that `pushBlock` refused, the indices a restart rebuilds are those of the state
before the push, whatever the push left in the live ones. -/
theorem rebuildCache_after_refused_push {chain next : Blockchain} {blockData : Block}
    {transactions : List Transaction}
    (refused : pushBlock env chain blockData transactions = .ok (false, next)) :
    rebuildCache env next = rebuildCache env chain := by
  rcases pushBlock_blocks refused with ⟨-, same⟩ | ⟨added, -⟩
  · exact rebuildCache_of_sameBlocks same
  · cases added

set_option maxRecDepth 100000 in
theorem refused_oversized_block_rebuilds_genesis_indices :
    pushBlock sampleEnvironment afterGenesis oversizedBlock [] = .ok (false, afterOversized) ∧
      rebuildCache sampleEnvironment afterOversized = rebuildCache sampleEnvironment afterGenesis :=
  have refused : pushBlock sampleEnvironment afterGenesis oversizedBlock [] =
      .ok (false, afterOversized) := rfl
  ⟨refused, rebuildCache_after_refused_push refused⟩

def rebuiltCache (chain : Blockchain) : Blockchain :=
  (rebuildCache sampleEnvironment chain).toOption.getD Blockchain.empty

set_option maxRecDepth 100000 in
/-- Rebuilding the indices of the state after the refused oversized block drops its miner
transaction from `m_transactionMap`; rebuilding those of the state after a block spending `R`
records `R` with the block's index 1, where the live index holds the uninitialised height. -/
theorem rebuilt_cache_differs_from_live_indices :
    pushBlock sampleEnvironment Blockchain.empty genesisBlock [] = .ok (true, afterGenesis) ∧
      pushBlock sampleEnvironment afterGenesis oversizedBlock [] = .ok (false, afterOversized) ∧
      rebuildCache sampleEnvironment afterOversized = .ok (rebuiltCache afterOversized) ∧
      afterOversized.m_transactionMap (sampleEnvironment.getObjectHash oversizedBlock.baseTransaction) =
        some ⟨1, 0⟩ ∧
      (rebuiltCache afterOversized).m_transactionMap
        (sampleEnvironment.getObjectHash oversizedBlock.baseTransaction) = none ∧
      pushBlock sampleEnvironment afterGenesis spendingBlock [firstSpend] = .ok (true, afterSpend) ∧
      rebuildCache sampleEnvironment afterSpend = .ok (rebuiltCache afterSpend) ∧
      afterSpend.spentKeyImages R = some 0 ∧ (rebuiltCache afterSpend).spentKeyImages R = some 1 := by
  have stale : afterOversized.m_transactionMap
      (sampleEnvironment.getObjectHash oversizedBlock.baseTransaction) = some ⟨1, 0⟩ := by
    decide +kernel
  have dropped : (rebuiltCache afterOversized).m_transactionMap
      (sampleEnvironment.getObjectHash oversizedBlock.baseTransaction) = none := by
    decide +kernel
  have recorded : afterSpend.spentKeyImages R = some 0 := by decide +kernel
  have rebuilt : (rebuiltCache afterSpend).spentKeyImages R = some 1 := by decide +kernel
  exact ⟨rfl, rfl, rfl, stale, dropped, rfl, rfl, recorded, rebuilt⟩

end Blockchain

end Dynex
