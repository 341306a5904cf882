import Dynex.Core.Blockchain.Transactions
import Dynex.Core.Blockchain.Difficulty
import Dynex.Core.Checkpoints
import Dynex.Core.DynexCNSerialization
import Dynex.Core.TransactionExtra

/-!
# Adding and removing main-chain blocks

`Blockchain::pushBlock(blockData, transactions, bvc)` and the operations built on it and on
`removeLastBlock`. A block passes the checks that change nothing, then its miner transaction is
pushed, then each transaction is checked and pushed in turn; a rejected transaction, a miner
transaction that `validate_miner_transaction` refuses and an unauthorised block pop what was
pushed. The check of the cumulative block size returns `false` without popping: the model keeps
that exit as the source has it.

What the model does not compute is a field of `Environment`: hashes, proof of work, signatures,
the wall clock, the reward rule, the memory pool. The results of `pushTransaction`, ignored by the
source, are ignored here too.
-/

set_option autoImplicit false

namespace Dynex

open Crypto

/-- The parts of the node the chain operations read besides the indices. `indeterminateHeight`
is the value the uninitialised `BlockEntry::height` holds while `pushBlock` pushes transactions;
`take_tx` is the memory pool, taken to hold the transactions each block names; `poisson_check` is
the future-time and Poisson test `switch_to_alternative_blockchain` makes of a long alternative
chain, in floating point. -/
structure Environment where
  currency : Currency
  checkpoints : Checkpoints
  get_block_hash : Block → Hash
  getObjectHash : Transaction → Hash
  get_adjusted_time : UInt64
  checkProofOfWork : Block → UInt64 → Bool
  check_tx_input : Blockchain → KeyInput → List Signature → Bool
  checkMultisignatureSpend : Blockchain → MultisignatureOutputUsage → MultisignatureInput →
    List Signature → Bool
  check_non_privacy : Transaction → Bool
  validate_miner_transaction : Blockchain → Block → Nat → Nat → UInt64 → UInt64 → Option (UInt64 × Int64)
  m_lastKnownBlockHeight : Nat
  AuthBlock : Nat → UInt32 → Bool
  indeterminateHeight : Nat
  take_tx : Hash → Option Transaction
  poisson_check : Blockchain → List Blockchain.BlockEntry → Bool

namespace Blockchain

variable (env : Environment)

/-! ## Checks that change nothing -/

/-- `get_block_height`: the index of the single `BaseInput` of the miner transaction, else 0. -/
def get_block_height (b : Block) : Nat :=
  match b.baseTransaction.inputs with
  | [.base input] => input.blockIndex.toNat
  | _ => 0

def checkBlockVersion (b : Block) : Bool :=
  b.majorVersion == env.currency.getBlockMajorVersionForHeight (get_block_height b) &&
    !(b.majorVersion == BLOCK_MAJOR_VERSION_2 && b.parentBlock.majorVersion > BLOCK_MAJOR_VERSION_1)

/-- `checkParentBlockSize`: the parent block of a merge-mined block serialises to at most 2 KiB. -/
def checkParentBlockSize (b : Block) : Bool :=
  if isMergeMined b.majorVersion then
    match toBinaryArray writeParentBlockSerializer b with
    | none => false
    | some bytes => !(bytes.length > 2 * 1024)
  else true

/-- `getObjectBinarySize(object)`: the size of the encoding, `SIZE_MAX` when it cannot be written. -/
def getObjectBinarySize (transaction : Transaction) : Nat :=
  match toBinaryArray writeTransaction transaction with
  | none => 2 ^ 64 - 1
  | some bytes => bytes.length

def check_outs_overflow (outputs : List TransactionOutput) : Bool :=
  (outputs.foldl (fun (state : Bool × UInt64) output =>
    (state.1 && !(state.2 > output.amount + state.2), state.2 + output.amount)) (true, 0)).1

def minerUnlockTime (height : Nat) : Nat :=
  height + if height < UPGRADE_HEIGHT_V4_FIX_1 ∧ height > UPGRADE_HEIGHT_V4
    then env.currency.m_minedMoneyUnlockWindow_v1 else env.currency.m_minedMoneyUnlockWindow

def prevalidate_miner_transaction (b : Block) (height : Nat) : Bool :=
  match b.baseTransaction.inputs with
  | [.base input] =>
      b.baseTransaction.signatures.isEmpty && input.blockIndex.toNat == height &&
        b.baseTransaction.unlockTime.toNat == minerUnlockTime env height &&
        check_outs_overflow b.baseTransaction.outputs
  | _ => false

def checkIfSpent (chain : Blockchain) (keyImage : KeyImage) : Bool :=
  chain.check_tx_inputs_keyimages_domain keyImage && (chain.spentKeyImages keyImage).isSome

/-- `validateInput`: the output exists and is unused; what the source checks after that (the
unlock time of the output's transaction, the signature count and the signatures) is
`checkMultisignatureSpend`. -/
def validateInput (chain : Blockchain) (input : MultisignatureInput) (signatures : List Signature) :
    Bool :=
  match (chain.m_multisignatureOutputs input.amount)[input.outputIndex.toNat]? with
  | none => false
  | some outputIndex => !outputIndex.isUsed && env.checkMultisignatureSpend chain outputIndex input signatures

/-- `checkTransactionInputs(tx)`: each input is a key input with outputs, an unspent key image and
a valid ring signature, or a valid multisignature input. -/
def checkTransactionInputs (chain : Blockchain) (tx : Transaction) : Bool :=
  tx.inputs.zipIdx.all fun (txin, inputIndex) =>
    let signatures := tx.signatures.getD inputIndex []
    match txin with
    | .key in_to_key =>
        !in_to_key.outputIndexes.isEmpty && !checkIfSpent chain in_to_key.keyImage &&
          env.check_tx_input chain in_to_key signatures
    | .multisignature input => validateInput env chain input signatures
    | .base _ => false

def getTailId (chain : Blockchain) : Hash :=
  if chain.m_blocks.isEmpty then NULL_HASH else chain.m_blockIndex.getLastD NULL_HASH

/-- The checks `pushBlock` makes before it changes anything, in the source's order: the block is
new, of the right version, with a small parent block and no merge-mining tag from version 4 on,
on the tail, on time, at a nonzero difficulty, at the checkpoint or with enough work, and with a
well-formed miner transaction. -/
def passesBlockChecks (chain : Blockchain) (blockData : Block) : Bool :=
  let blockHash := env.get_block_hash blockData
  let height := chain.getCurrentBlockchainHeight
  let currentDifficulty := getDifficultyForNextBlock env.currency chain.m_blocks
  !(blockHash ∈ chain.m_blockIndex) &&
    checkBlockVersion env blockData &&
    checkParentBlockSize blockData &&
    !((getMergeMiningTagFromExtra blockData.baseTransaction.extra).isSome &&
      blockData.majorVersion ≥ BLOCK_MAJOR_VERSION_4) &&
    blockData.previousBlockHash == getTailId chain &&
    check_block_timestamp_main env.currency env.get_adjusted_time chain.m_blocks blockData &&
    currentDifficulty != 0 &&
    (if env.checkpoints.is_in_checkpoint_zone height then (env.checkpoints.check_block height blockHash).1
      else env.checkProofOfWork blockData currentDifficulty) &&
    prevalidate_miner_transaction env blockData height

/-! ## `pushBlock` -/

/-- How the transactions loop of `pushBlock` ends: a rejected transaction, after
`popTransactions`, or every transaction pushed, with the block entry, the cumulative size and
the fee sum. -/
inductive TransactionsPushed where
  | rejected (chain : Blockchain)
  | pushed (chain : Blockchain) (block : BlockEntry) (cumulative_block_size : Nat) (fee_summary : UInt64)

/-- The transactions loop of `pushBlock`. `position` is `transactionIndex.transaction` of the
last transaction pushed; the hash of each transaction is read from `blockData.transactionHashes`,
past whose end the source reads out of bounds. -/
def pushBlockTransactions (in_checkpoint_zone : Bool) (minerTransactionHash : Hash) (height : Nat) :
    Blockchain → BlockEntry → Nat → Nat → UInt64 → List Transaction → List Hash →
      Except String TransactionsPushed
  | chain, block, _, cumulative_block_size, fee_summary, [], _ =>
      pure (.pushed chain block cumulative_block_size fee_summary)
  | _, _, _, _, _, _ :: _, [] => throw "blockData.transactionHashes: index out of range"
  | chain, block, position, cumulative_block_size, fee_summary, transaction :: rest, tx_id :: hashes =>
      let blob_size := ((toBinaryArray writeTransaction transaction).getD []).length
      let fee := getInputAmount transaction - getOutputAmount transaction
      if !checkTransactionInputs env chain transaction then do
        let chain ← popTransactions chain block minerTransactionHash
        pure (.rejected chain)
      else if !in_checkpoint_zone && !env.check_non_privacy transaction then do
        let chain ← popTransactions chain block minerTransactionHash
        pure (.rejected chain)
      else do
        let (_, chain, entry) ←
          pushTransaction chain env.indeterminateHeight ⟨transaction, []⟩ tx_id ⟨height, position + 1⟩
        pushBlockTransactions in_checkpoint_zone minerTransactionHash height chain
          { block with transactions := block.transactions ++ [entry] } (position + 1)
          (cumulative_block_size + blob_size) (fee_summary + fee) rest hashes

/-- `pushBlock(BlockEntry&)`: the entry is stored and its hash indexed. -/
def pushBlockEntry (chain : Blockchain) (block : BlockEntry) : Blockchain :=
  { chain with
    m_blocks := chain.m_blocks ++ [block]
    m_blockIndex := blockIndexPush chain.m_blockIndex (env.get_block_hash block.bl) }

/-- `m_blocks.empty() ? 0 : m_blocks.back().already_generated_coins`. -/
def lastAlreadyGeneratedCoins (chain : Blockchain) : UInt64 :=
  match chain.m_blocks.getLast? with
  | none => 0
  | some last => last.already_generated_coins

/-- The cumulative difficulty of the last block, which `pushBlock` adds to the new block's when
there is one. -/
def lastCumulativeDifficulty (chain : Blockchain) : UInt64 :=
  match chain.m_blocks.getLast? with
  | none => 0
  | some last => last.cumulative_difficulty

/-- What `pushBlock` does after the transactions loop has pushed every transaction: the size
check (whose exit does not pop), the miner transaction check and the authorisation check (whose
exits do), and the stored entry. -/
def finishBlock (chain : Blockchain) (blockData : Block) (minerTransactionHash : Hash)
    (in_checkpoint_zone : Bool) (currentDifficulty : UInt64) (block : BlockEntry)
    (cumulative_block_size : Nat) (fee_summary : UInt64) : Except String (Bool × Blockchain) :=
  let height := chain.m_blocks.length
  if cumulative_block_size > env.currency.maxBlockCumulativeSize height then
    pure (false, chain)
  else
    let already_generated_coins := lastAlreadyGeneratedCoins chain
    match env.validate_miner_transaction chain blockData height cumulative_block_size
        already_generated_coins fee_summary with
    | none => do
        let chain ← popTransactions chain block minerTransactionHash
        pure (false, chain)
    | some (_, emissionChange) =>
        let block_diff : Int := (env.m_lastKnownBlockHeight : Int) - height
        if !in_checkpoint_zone && (block_diff ≤ 100 || block_diff.tmod 100 == 0) &&
            !env.AuthBlock height blockData.nonce then do
          let chain ← popTransactions chain block minerTransactionHash
          pure (false, chain)
        else
          let previousDifficulty := lastCumulativeDifficulty chain
          pure (true, pushBlockEntry env chain
            { block with
              height := height
              block_cumulative_size := cumulative_block_size
              cumulative_difficulty := currentDifficulty + previousDifficulty
              already_generated_coins := already_generated_coins + emissionChange.toUInt64 })

/-- `Blockchain::pushBlock(blockData, transactions, bvc)`: whether the block was added, and the
indices after the call. -/
def pushBlock (chain : Blockchain) (blockData : Block) (transactions : List Transaction) :
    Except String (Bool × Blockchain) :=
  if !passesBlockChecks env chain blockData then pure (false, chain)
  else do
    let height := chain.m_blocks.length
    let currentDifficulty := getDifficultyForNextBlock env.currency chain.m_blocks
    let in_checkpoint_zone := env.checkpoints.is_in_checkpoint_zone height
    let minerTransactionHash := env.getObjectHash blockData.baseTransaction
    let (_, pushedChain, minerEntry) ←
      pushTransaction chain env.indeterminateHeight ⟨blockData.baseTransaction, []⟩
        minerTransactionHash ⟨height, 0⟩
    -- every member of the entry but the block and the miner transaction is still unset here
    let block : BlockEntry := ⟨blockData, env.indeterminateHeight, 0, 0, 0, [minerEntry]⟩
    let pushed ← pushBlockTransactions env in_checkpoint_zone minerTransactionHash height pushedChain
      block 0 (getObjectBinarySize blockData.baseTransaction) 0 transactions blockData.transactionHashes
    match pushed with
    | .rejected chain => pure (false, chain)
    | .pushed pushedChain block cumulative_block_size fee_summary =>
        finishBlock env pushedChain blockData minerTransactionHash in_checkpoint_zone currentDifficulty
          block cumulative_block_size fee_summary

def loadTransactions (blockData : Block) : Option (List Transaction) :=
  blockData.transactionHashes.mapM env.take_tx

/-- `Blockchain::pushBlock(blockData, bvc)`: the block with its transactions from the pool. -/
def pushBlockFromPool (chain : Blockchain) (blockData : Block) : Except String (Bool × Blockchain) :=
  match loadTransactions env blockData with
  | none => pure (false, chain)
  | some transactions => pushBlock env chain blockData transactions

/-! ## Removing blocks -/

/-- `Blockchain::removeLastBlock()`: the last block's transactions are popped under their hashes,
then the block and its hash. `getBlockIdByHeight(height)` asserts that the block's height is
indexed, and `m_blockIndex.pop()` that the index is not empty. -/
def removeLastBlock (chain : Blockchain) : Except String Blockchain :=
  match chain.m_blocks.getLast? with
  | none => pure chain
  | some last => do
      let chain ← popTransactions chain last (env.getObjectHash last.bl.baseTransaction)
      if last.height ≥ chain.m_blockIndex.length then
        throw "getBlockIdByHeight: height past m_blockIndex"
      else
        pure { chain with
          m_blocks := chain.m_blocks.dropLast
          m_blockIndex := chain.m_blockIndex.dropLast }

def popBlock (chain : Blockchain) : Except String Blockchain :=
  removeLastBlock env chain

/-- The loop of `rollbackBlockchainTo(height)`. Each round removes one block, so the number of
blocks bounds the rounds. -/
def rollbackBlockchainToLoop (height : Nat) : Nat → Blockchain → Except String Blockchain
  | 0, chain => pure chain
  | fuel + 1, chain =>
      if height + 1 < chain.m_blocks.length then do
        let chain ← removeLastBlock env chain
        rollbackBlockchainToLoop height fuel chain
      else pure chain

def rollbackBlockchainTo (chain : Blockchain) (height : Nat) : Except String Blockchain :=
  rollbackBlockchainToLoop env height chain.m_blocks.length chain

end Blockchain

end Dynex
