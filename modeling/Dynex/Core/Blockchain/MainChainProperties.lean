import Dynex.Core.Blockchain.TransactionsProperties
import Dynex.Core.Blockchain.MainChain

/-!
# What a rejected block leaves behind

`pushBlock` pushes the miner transaction before it checks the block's transactions and size.
Every exit after that push undoes it with `popTransactions`, except the exit of
`checkCumulativeBlockSize`: a block whose miner transaction alone is over the size limit is
rejected with its miner transaction still in `m_transactionMap` and its outputs still in the
output lists (`pushBlock_oversized_keeps_miner_transaction`).
-/

set_option autoImplicit false

namespace Dynex

open Crypto

namespace Blockchain

theorem pushBlock_of_passesBlockChecks {env : Environment} {chain : Blockchain} {blockData : Block}
    (checks : passesBlockChecks env chain blockData = true) (transactions : List Transaction) :
    pushBlock env chain blockData transactions =
      (do
        let (_, pushedChain, minerEntry) ←
          pushTransaction chain env.indeterminateHeight ⟨blockData.baseTransaction, []⟩
            (env.getObjectHash blockData.baseTransaction) ⟨chain.m_blocks.length, 0⟩
        let pushed ← pushBlockTransactions env
          (env.checkpoints.is_in_checkpoint_zone chain.m_blocks.length)
          (env.getObjectHash blockData.baseTransaction) chain.m_blocks.length pushedChain
          ⟨blockData, env.indeterminateHeight, 0, 0, 0, [minerEntry]⟩ 0
          (getObjectBinarySize blockData.baseTransaction) 0 transactions blockData.transactionHashes
        match pushed with
        | .rejected chain => pure (false, chain)
        | .pushed pushedChain block cumulative_block_size fee_summary =>
            finishBlock env pushedChain blockData (env.getObjectHash blockData.baseTransaction)
              (env.checkpoints.is_in_checkpoint_zone chain.m_blocks.length)
              (getDifficultyForNextBlock env.currency chain.m_blocks) block cumulative_block_size
              fee_summary) := by
  unfold pushBlock
  exact if_neg (by simp [checks])

@[simp] theorem recordTransaction_m_transactionMap (chain : Blockchain) (height : Nat)
    (transaction : Transaction) (transactionHash : Hash) (transactionIndex : TransactionIndex) :
    (recordTransaction chain height transaction transactionHash transactionIndex).1.m_transactionMap =
      Function.update chain.m_transactionMap transactionHash (some transactionIndex) := by
  simp [recordTransaction]

@[simp] theorem recordTransaction_m_blocks (chain : Blockchain) (height : Nat)
    (transaction : Transaction) (transactionHash : Hash) (transactionIndex : TransactionIndex) :
    (recordTransaction chain height transaction transactionHash transactionIndex).1.m_blocks =
      chain.m_blocks := by
  simp [recordTransaction]

theorem pushBlock_oversized {env : Environment} {chain : Blockchain} {blockData : Block}
    (checks : passesBlockChecks env chain blockData = true)
    (fresh : FreshTransaction chain blockData.baseTransaction (env.getObjectHash blockData.baseTransaction))
    (oversized : env.currency.maxBlockCumulativeSize chain.m_blocks.length <
      getObjectBinarySize blockData.baseTransaction) :
    pushBlock env chain blockData [] =
      .ok (false, (recordTransaction chain env.indeterminateHeight blockData.baseTransaction
        (env.getObjectHash blockData.baseTransaction) ⟨chain.m_blocks.length, 0⟩).1) := by
  rw [pushBlock_of_passesBlockChecks checks, pushTransaction_of_fresh fresh]
  simp only [except_ok_bind, pushBlockTransactions, pure, Except.pure, finishBlock,
    recordTransaction_m_blocks, oversized, if_true]

/-- A block with no transactions whose miner transaction is over the size limit is rejected, and
its miner transaction stays recorded at the height the block did not get. -/
theorem pushBlock_oversized_keeps_miner_transaction {env : Environment} {chain : Blockchain}
    {blockData : Block} (checks : passesBlockChecks env chain blockData = true)
    (fresh : FreshTransaction chain blockData.baseTransaction (env.getObjectHash blockData.baseTransaction))
    (oversized : env.currency.maxBlockCumulativeSize chain.m_blocks.length <
      getObjectBinarySize blockData.baseTransaction) :
    ∃ next, pushBlock env chain blockData [] = .ok (false, next) ∧ next.m_blocks = chain.m_blocks ∧
      chain.m_transactionMap (env.getObjectHash blockData.baseTransaction) = none ∧
      next.m_transactionMap (env.getObjectHash blockData.baseTransaction) =
        some ⟨chain.m_blocks.length, 0⟩ :=
  ⟨_, pushBlock_oversized checks fresh oversized, by simp, fresh.hash_absent, by simp⟩

/-! ## Runs from the genesis block

An environment whose external checks accept every block and transaction (a miner that finds the
proof of work, senders that sign), on the mainnet currency, with stand-in hashes that tell the
blocks and transactions below apart. -/

def sampleHash (first second : UInt8) : Hash :=
  ⟨⟨[first, second] ++ List.replicate 30 0, by simp⟩⟩

def sampleKeyImage : KeyImage := ⟨Pod.ofByte 7⟩

def largeTransaction : Transaction :=
  ⟨⟨CURRENT_TRANSACTION_VERSION, 202, [.key ⟨1, [0], sampleKeyImage⟩], [⟨1, .key ⟨⟨Pod.zero 32⟩⟩⟩],
    List.replicate 20481 0⟩, [[⟨Pod.zero 64⟩]]⟩

def sampleEnvironment : Environment where
  currency := Currency.mainnet
  checkpoints := ⟨[], List.Pairwise.nil⟩
  get_block_hash b := sampleHash b.timestamp.toUInt8 0
  getObjectHash tx := sampleHash tx.unlockTime.toUInt8 tx.extra.length.toUInt8
  get_adjusted_time := 1000000000
  checkProofOfWork _ _ := true
  check_tx_input _ _ _ := true
  checkMultisignatureSpend _ _ _ _ := true
  check_non_privacy _ := true
  validate_miner_transaction _ _ _ _ _ _ := some (0, 0)
  m_lastKnownBlockHeight := 0
  AuthBlock _ _ := true
  indeterminateHeight := 0
  take_tx hash := if hash = sampleHash 202 1 then some largeTransaction else none
  poisson_check _ _ := true

def sampleCoinbase (height : UInt32) (extra : List UInt8) : Transaction :=
  ⟨⟨CURRENT_TRANSACTION_VERSION, height.toUInt64 + 60, [.base ⟨height⟩],
    [⟨1, .key ⟨⟨Pod.zero 32⟩⟩⟩], extra⟩, []⟩

def sampleParentBlock : ParentBlock :=
  ⟨BLOCK_MAJOR_VERSION_1, 0, NULL_HASH, 0, [], ⟨⟨CURRENT_TRANSACTION_VERSION, 0, [], [], []⟩, []⟩, []⟩

/-- A version 1 block at `height` on `previousBlockHash`. -/
def sampleBlock (height : UInt32) (timestamp : UInt64) (previousBlockHash : Hash)
    (extra : List UInt8) (transactionHashes : List Hash) : Block :=
  { majorVersion := BLOCK_MAJOR_VERSION_1, minorVersion := 0, nonce := 0, timestamp := timestamp,
    previousBlockHash := previousBlockHash, parentBlock := sampleParentBlock,
    baseTransaction := sampleCoinbase height extra, transactionHashes := transactionHashes }

/-- The indices after a call that returned, the empty state otherwise. -/
def stateAfter (result : Except String (Bool × Blockchain)) : Blockchain :=
  match result with
  | .ok (_, chain) => chain
  | .error _ => Blockchain.empty

def genesisBlock : Block := sampleBlock 0 1 NULL_HASH [] []

def afterGenesis : Blockchain := stateAfter (pushBlock sampleEnvironment Blockchain.empty genesisBlock [])

def oversizedBlock : Block :=
  sampleBlock 1 2 (sampleEnvironment.get_block_hash genesisBlock) (List.replicate 20481 0) []

theorem oversized_block_after_genesis_keeps_miner_transaction :
    passesBlockChecks sampleEnvironment afterGenesis oversizedBlock = true ∧
      sampleEnvironment.currency.maxBlockCumulativeSize afterGenesis.m_blocks.length <
        getObjectBinarySize oversizedBlock.baseTransaction ∧
      ∃ next, pushBlock sampleEnvironment afterGenesis oversizedBlock [] = .ok (false, next) ∧
        next.m_blocks = afterGenesis.m_blocks ∧
        afterGenesis.m_transactionMap (sampleEnvironment.getObjectHash oversizedBlock.baseTransaction) = none ∧
        next.m_transactionMap (sampleEnvironment.getObjectHash oversizedBlock.baseTransaction) =
          some ⟨afterGenesis.m_blocks.length, 0⟩ := by
  have checks : passesBlockChecks sampleEnvironment afterGenesis oversizedBlock = true := by
    decide +kernel
  have oversized : sampleEnvironment.currency.maxBlockCumulativeSize afterGenesis.m_blocks.length <
      getObjectBinarySize oversizedBlock.baseTransaction := by
    decide +kernel
  have fresh : FreshTransaction afterGenesis oversizedBlock.baseTransaction
      (sampleEnvironment.getObjectHash oversizedBlock.baseTransaction) :=
    ⟨by decide +kernel, by decide, by decide, (fun _ member => nomatch member),
      (fun _ member => nomatch member), by decide⟩
  exact ⟨checks, oversized, pushBlock_oversized_keeps_miner_transaction checks fresh oversized⟩

def afterOversized : Blockchain := stateAfter (pushBlock sampleEnvironment afterGenesis oversizedBlock [])

def MapsStoredTransactions (chain : Blockchain) : Prop :=
  ∀ hash index, chain.m_transactionMap hash = some index →
    ∃ block ∈ chain.m_blocks[index.block]?, index.transaction < block.transactions.length

set_option maxRecDepth 100000 in
/-- After the genesis block and the rejection of the oversized block, `m_transactionMap` holds the
rejected miner transaction at height 1, where no block is stored. -/
theorem oversized_block_breaks_transaction_map :
    pushBlock sampleEnvironment Blockchain.empty genesisBlock [] = .ok (true, afterGenesis) ∧
      pushBlock sampleEnvironment afterGenesis oversizedBlock [] = .ok (false, afterOversized) ∧
      afterOversized.m_blocks.length = 1 ∧
      afterOversized.m_transactionMap (sampleEnvironment.getObjectHash oversizedBlock.baseTransaction) =
        some ⟨1, 0⟩ ∧
      ¬ MapsStoredTransactions afterOversized := by
  have stale : afterOversized.m_transactionMap
      (sampleEnvironment.getObjectHash oversizedBlock.baseTransaction) = some ⟨1, 0⟩ := by
    decide +kernel
  have stored : afterOversized.m_blocks.length = 1 := by decide +kernel
  have beyond : afterOversized.m_blocks[1]? = none := List.getElem?_eq_none (by rw [stored])
  refine ⟨rfl, rfl, stored, stale, fun sound => ?_⟩
  obtain ⟨block, found, _⟩ := sound _ _ stale
  change block ∈ afterOversized.m_blocks[1]? at found
  rw [beyond] at found
  cases found

/-! ## A key image spent twice -/

def spendR (unlockTime : UInt64) (outputIndex : UInt32) : Transaction :=
  ⟨⟨CURRENT_TRANSACTION_VERSION, unlockTime, [.key ⟨1, [outputIndex], R⟩],
    [⟨1, .key ⟨⟨Pod.zero 32⟩⟩⟩], []⟩, [[⟨Pod.zero 64⟩]]⟩

def firstSpend : Transaction := spendR 200 0
def secondSpend : Transaction := spendR 201 1

def spentR : Blockchain :=
  { Blockchain.empty with spentKeyImages := Function.update Blockchain.empty.spentKeyImages R (some 0) }

def spendingBlock : Block :=
  sampleBlock 1 3 (sampleEnvironment.get_block_hash genesisBlock) []
    [sampleEnvironment.getObjectHash firstSpend]

def respendingBlock : Block :=
  sampleBlock 2 4 (sampleEnvironment.get_block_hash spendingBlock) []
    [sampleEnvironment.getObjectHash secondSpend]

def afterSpend : Blockchain :=
  stateAfter (pushBlock sampleEnvironment afterGenesis spendingBlock [firstSpend])

def afterRespend : Blockchain :=
  stateAfter (pushBlock sampleEnvironment afterSpend respendingBlock [secondSpend])

def afterRespendRemoved : Blockchain :=
  (removeLastBlock sampleEnvironment afterRespend).toOption.getD Blockchain.empty

end Blockchain

end Dynex
