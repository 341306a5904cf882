import Dynex.Core.Blockchain.MainChain
import Dynex.Core.BlockIndex

/-!
# Alternative blocks and reorganisations

`Blockchain::handle_alternative_block(b, id, bvc, sendNewAlternativeBlockMessage)` and
`Blockchain::switch_to_alternative_blockchain(alt_chain, discard_disconnected_chain)`. A block
that does not extend the main chain's tail is checked, attached to the alternative chain it
extends or to the main-chain block it names, and stored in `m_alternative_chains`; when it is at a
checkpoint or its chain outweighs the main chain, the main chain is switched to its chain. The
switch pops the main chain above the split height and pushes the alternative blocks with their
transactions from the pool; when one of them is not added, the pushed ones are popped and the
popped ones pushed again (`rollback_blockchain_switching`). After a switch that does not discard
them, the popped blocks go back through `handle_alternative_block`, which can switch again: the
two functions call each other, and the model follows `fuel` nested calls.

The orphan index, the messages sent, and `m_is_in_checkpoint_zone`, which no code sets to `true`,
are not modelled. The floating-point Poisson test, with its future-time limit, is
`Environment.poisson_check`; the memory pool is `Environment.take_tx`.
-/

set_option autoImplicit false

namespace Dynex

open Crypto

def POISSON_CHECK_TRIGGER : Nat := 10

namespace Blockchain

variable (env : Environment)

/-- The first loop of `rollback_blockchain_switching`: `popBlock()` while the `size_t` counter,
started at the last index and decremented each round, is at least `rollback_height`. At 0 with
`rollback_height = 0` the counter wraps and the loop never ends. -/
def popBlocksDownTo (rollback_height : Nat) : Nat → Blockchain → Except String Blockchain
  | 0, chain =>
      if 0 < rollback_height then pure chain
      else throw "rollback_blockchain_switching: size_t counter wraps below 0"
  | i + 1, chain =>
      if i + 1 < rollback_height then pure chain
      else do
        let chain ← popBlock env chain
        popBlocksDownTo rollback_height i chain

/-- The second loop of `rollback_blockchain_switching`: the saved blocks pushed again in order,
stopping with `false` at the first that is not added. -/
def pushOriginalChain : Blockchain → List Block → Except String (Bool × Blockchain)
  | chain, [] => pure (true, chain)
  | chain, bl :: rest => do
      let (r, chain) ← pushBlockFromPool env chain bl
      if !r then pure (false, chain)
      else pushOriginalChain chain rest

/-- `Blockchain::rollback_blockchain_switching(original_chain, rollback_height)`: the blocks from
`rollback_height` up are popped and `original_chain` is pushed again. On an empty chain the first
counter, `m_blocks.size() - 1`, wraps. -/
def rollback_blockchain_switching (chain : Blockchain) (original_chain : List Block)
    (rollback_height : Nat) : Except String (Bool × Blockchain) := do
  let chain ←
    if chain.m_blocks.isEmpty then throw "rollback_blockchain_switching: m_blocks.size() - 1 wraps"
    else popBlocksDownTo env rollback_height (chain.m_blocks.length - 1) chain
  pushOriginalChain env chain original_chain

/-- The disconnect loop of `switch_to_alternative_blockchain`: from index `i` down to
`split_height`, block `i` is read, popped, and put in front of the blocks disconnected so far. -/
def disconnectBlocks (split_height : Nat) :
    Nat → Blockchain → List Block → Except String (Blockchain × List Block)
  | 0, chain, disconnected_chain =>
      if 0 < split_height then pure (chain, disconnected_chain)
      else throw "switch_to_alternative_blockchain: size_t counter wraps below 0"
  | i + 1, chain, disconnected_chain =>
      if i + 1 < split_height then pure (chain, disconnected_chain)
      else
        match chain.m_blocks[i + 1]? with
        | none => throw "m_blocks[i]: index out of range"
        | some entry => do
            let chain ← popBlock env chain
            disconnectBlocks split_height i chain (entry.bl :: disconnected_chain)

def eraseAlternatives (chain : Blockchain) (keys : List Hash) : Blockchain :=
  { chain with m_alternative_chains := chain.m_alternative_chains.filter fun entry => entry.1 ∉ keys }

/-- The connect loop of `switch_to_alternative_blockchain`: each block of the alternative chain is
pushed with its transactions from the pool. At the first that is not added, the switch is rolled
back to `split_height`, whatever the rollback returns, that block and the ones after it are erased
from `m_alternative_chains`, and the result is `false`. -/
def connectAlternativeChain (disconnected_chain : List Block) (split_height : Nat) :
    Blockchain → List (Hash × BlockEntry) → Except String (Bool × Blockchain)
  | chain, [] => pure (true, chain)
  | chain, ch_ent :: rest => do
      let (r, chain) ← pushBlockFromPool env chain ch_ent.2.bl
      if !r then do
        let (_, chain) ← rollback_blockchain_switching env chain disconnected_chain split_height
        pure (false, eraseAlternatives chain (ch_ent.1 :: rest.map (·.1)))
      else connectAlternativeChain disconnected_chain split_height chain rest

def mainChainTxHashes (chain : Blockchain) (split_height : Nat) : List Hash :=
  ((chain.m_blocks.drop split_height).reverse.map (·.bl.transactionHashes)).flatten

def altChainTxHashes (alt_chain : List (Hash × BlockEntry)) : List Hash :=
  (alt_chain.map (·.2.bl.transactionHashes)).flatten

/-- The loop of `switch_to_alternative_blockchain` that pushes the old chain as an alternative
chain: each popped block goes through `handle`, and the first it refuses ends the loop. -/
def reinsertDisconnected (handle : Blockchain → Block → Except String (Bool × Blockchain)) :
    Blockchain → List Block → Except String Blockchain
  | chain, [] => pure chain
  | chain, old_ch_ent :: rest => do
      let (r, chain) ← handle chain old_ch_ent
      if !r then pure chain else reinsertDisconnected handle chain rest

/-! ## The checks of an alternative block -/

/-- `transactionByIndex(index)`: `m_blocks[index.block].transactions[index.transaction]`. -/
def transactionByIndex (chain : Blockchain) (index : TransactionIndex) :
    Except String TransactionEntry :=
  match chain.m_blocks[index.block]?.bind fun block => block.transactions[index.transaction]? with
  | none => throw "transactionByIndex: index out of range"
  | some entry => pure entry

/-- `getBlockchainTransactions(txs_ids, txs, missed_txs)`: the transactions `m_transactionMap`
finds, and the ids it does not. -/
def getBlockchainTransactions (chain : Blockchain) :
    List Hash → Except String (List Transaction × List Hash)
  | [] => pure ([], [])
  | tx_id :: rest =>
      match chain.m_transactionMap tx_id with
      | none => do
          let (txs, missed_txs) ← getBlockchainTransactions chain rest
          pure (txs, tx_id :: missed_txs)
      | some index => do
          let entry ← transactionByIndex chain index
          let (txs, missed_txs) ← getBlockchainTransactions chain rest
          pure (entry.tx :: txs, missed_txs)

/-- `getBlockCumulativeSize(block, cumulativeSize)`: the sizes of the miner transaction and of the
named transactions that the main chain or the pool holds, summed in `size_t`, and whether every
named transaction was found, that is whether the size is exact. -/
def getBlockCumulativeSize (chain : Blockchain) (block : Block) : Except String (Bool × Nat) := do
  let (chainTxs, poolTxIds) ← getBlockchainTransactions chain block.transactionHashes
  let poolTxs := poolTxIds.filterMap env.take_tx
  let missedTxs := poolTxIds.filter fun tx_id => (env.take_tx tx_id).isNone
  pure (missedTxs.isEmpty,
    (getObjectBinarySize block.baseTransaction +
      ((chainTxs ++ poolTxs).map getObjectBinarySize).sum) % 2 ^ 64)

def checkCumulativeBlockSize (cumulativeBlockSize height : Nat) : Bool :=
  !(cumulativeBlockSize > env.currency.maxBlockCumulativeSize height)

/-- The `while` loop of `handle_alternative_block` that builds `alt_chain` from the entry of
`hash`, along `previousBlockHash` through `m_alternative_chains`, oldest block first. The ids are
distinct, so a walk through more entries than `rounds`, the size of the map, meets one again and
never ends; the model reports that as an error. -/
def buildAltChain (alternatives : List (Hash × BlockEntry)) :
    Nat → Hash → Except String (List (Hash × BlockEntry))
  | 0, hash =>
      match alternatives.lookup hash with
      | none => pure []
      | some _ => throw "handle_alternative_block: the walk through m_alternative_chains does not end"
  | rounds + 1, hash =>
      match alternatives.lookup hash with
      | none => pure []
      | some entry => do
          let older ← buildAltChain alternatives rounds entry.bl.previousBlockHash
          pure (older ++ [(hash, entry)])

/-- The height `handle_alternative_block` gives a block whose parent is the last block of
`alt_chain`, or the main-chain block at `mainPrevHeight` when `alt_chain` is empty; `none` where
it returns `false` because the alternative chain starts past the main chain or does not connect to
it. At a front height 0 the index `height - 1` wraps in `size_t`. -/
def alternativeBlockHeight (chain : Blockchain) (alt_chain : List (Hash × BlockEntry))
    (mainPrev : Option UInt32) : Except String (Option Nat) :=
  match alt_chain.head?, alt_chain.getLast? with
  | some front, some last =>
      if ¬ chain.m_blocks.length > front.2.height then pure none
      else if front.2.height = 0 then throw "m_blocks[height - 1]: index out of range"
      else
        match chain.m_blocks[front.2.height - 1]? with
        | none => throw "m_blocks[height - 1]: index out of range"
        | some parent =>
            if env.get_block_hash parent.bl != front.2.bl.previousBlockHash then pure none
            else pure (some (last.2.height + 1))
  | _, _ =>
      match mainPrev with
      | none => pure none
      | some mainPrevHeight => pure (some (mainPrevHeight.toNat + 1))

/-- The cumulative difficulty of the new block's parent: the last block of `alt_chain`, or
`m_blocks[mainPrevHeight]`. -/
def parentCumulativeDifficulty (chain : Blockchain) (alt_chain : List (Hash × BlockEntry))
    (mainPrevHeight : Nat) : Except String UInt64 :=
  match alt_chain.getLast? with
  | some last => pure last.2.cumulative_difficulty
  | none =>
      match chain.m_blocks[mainPrevHeight]? with
      | none => throw "m_blocks[mainPrevHeight]: index out of range"
      | some parent => pure parent.cumulative_difficulty

/-- What `handle_alternative_block` decides before it changes anything. -/
inductive AlternativeVerdict where
  /-- A check failed: `false`. -/
  | refused
  /-- Neither chain holds the parent: the block is marked orphaned, and `true` returned. -/
  | orphaned
  /-- The block is stored as `bei` under its id at the end of `alt_chain`; `is_a_checkpoint` tells
  whether its height is a checkpoint. -/
  | stored (alt_chain : List (Hash × BlockEntry)) (bei : BlockEntry) (is_a_checkpoint : Bool)

/-- The checks of `handle_alternative_block`, in the source's order, up to the insertion into
`m_alternative_chains`. -/
def checkAlternativeBlock (chain : Blockchain) (b : Block) (id : Hash) :
    Except String AlternativeVerdict :=
  let block_height := get_block_height b
  if block_height = 0 then pure .refused
  else if !env.checkpoints.is_alternative_block_allowed chain.getCurrentBlockchainHeight
      block_height then pure .refused
  else if !checkBlockVersion env b then pure .refused
  else if !checkParentBlockSize b then pure .refused
  else do
    let (_, cumulativeSize) ← getBlockCumulativeSize env chain b
    let mainPrev := BlockIndex.getBlockHeight chain.m_blockIndex b.previousBlockHash
    if !checkCumulativeBlockSize env cumulativeSize block_height then pure .refused
    else if (chain.m_alternative_chains.lookup b.previousBlockHash).isNone && mainPrev.isNone then
      pure .orphaned
    else do
      let alt_chain ← buildAltChain chain.m_alternative_chains chain.m_alternative_chains.length
        b.previousBlockHash
      match ← alternativeBlockHeight env chain alt_chain mainPrev with
      | none => pure .refused
      | some height =>
          let timestamps := alternativeTimestamps env.currency chain.m_blocks (alt_chain.map (·.2))
            (mainPrev.getD 0).toNat b
          let (passed, is_a_checkpoint) := env.checkpoints.check_block height id
          let bei : BlockEntry := ⟨b, height, 0, 0, 0, []⟩
          let current_diff := get_next_difficulty_for_alternative_chain env.currency chain.m_blocks
            (alt_chain.map (·.2)) bei
          if !check_block_timestamp env.currency timestamps b then pure .refused
          else if !passed then pure .refused
          else if (getMergeMiningTagFromExtra b.baseTransaction.extra).isSome &&
              b.majorVersion ≥ BLOCK_MAJOR_VERSION_4 then pure .refused
          else if current_diff = 0 then pure .refused
          else if !env.checkProofOfWork b current_diff then pure .refused
          else if !prevalidate_miner_transaction env b height then pure .refused
          else do
            let parentDifficulty ← parentCumulativeDifficulty chain alt_chain (mainPrev.getD 0).toNat
            if (chain.m_alternative_chains.lookup id).isSome then pure .refused
            else pure (.stored alt_chain
              { bei with cumulative_difficulty := parentDifficulty + current_diff } is_a_checkpoint)

/-! ## Handling an alternative block and switching to its chain -/

mutual

/-- `Blockchain::handle_alternative_block(b, id, bvc, sendNewAlternativeBlockMessage)`: `false`
where the block is refused, `true` where it is stored as an alternative block or marked orphaned,
and the result of the switch where it is at a checkpoint or its chain outweighs the main chain. -/
def handle_alternative_block : Nat → Blockchain → Block → Hash → Except String (Bool × Blockchain)
  | 0, _, _, _ => throw "handle_alternative_block: nested deeper than the model follows"
  | fuel + 1, chain, b, id => do
      match ← checkAlternativeBlock env chain b id with
      | .refused => pure (false, chain)
      | .orphaned => pure (true, chain)
      | .stored alt_chain bei is_a_checkpoint =>
          let chain := { chain with m_alternative_chains := chain.m_alternative_chains ++ [(id, bei)] }
          if is_a_checkpoint then
            switch_to_alternative_blockchain fuel chain (alt_chain ++ [(id, bei)]) true
          else
            match chain.m_blocks.getLast? with
            | none => throw "m_blocks.back() of an empty vector"
            | some back =>
                if back.cumulative_difficulty < bei.cumulative_difficulty then
                  switch_to_alternative_blockchain fuel chain (alt_chain ++ [(id, bei)]) false
                else pure (true, chain)

/-- `Blockchain::switch_to_alternative_blockchain(alt_chain, discard_disconnected_chain)`. The
split height is the height the first alternative block was given. The loops over the main chain
count down in `size_t` to `split_height`, so a split height of 0 wraps the counter in the first of
them. Unless `discard_disconnected_chain` is set, the popped blocks go back through
`handle_alternative_block` before the alternative blocks leave `m_alternative_chains`. -/
def switch_to_alternative_blockchain :
    Nat → Blockchain → List (Hash × BlockEntry) → Bool → Except String (Bool × Blockchain)
  | 0, _, _, _ => throw "switch_to_alternative_blockchain: nested deeper than the model follows"
  | fuel + 1, chain, alt_chain, discard_disconnected_chain =>
      match alt_chain with
      | [] => pure (false, chain)
      | front :: _ =>
          let split_height := front.2.height
          if ¬ chain.m_blocks.length > split_height then pure (false, chain)
          else if alt_chain.length ≥ POISSON_CHECK_TRIGGER &&
              !env.poisson_check chain (alt_chain.map (·.2)) then pure (false, chain)
          else if split_height = 0 then
            throw "switch_to_alternative_blockchain: size_t counter wraps below 0"
          else if (mainChainTxHashes chain split_height).any
              (fun tx_hash => !decide (tx_hash ∈ altChainTxHashes alt_chain)) then
            pure (false, chain)
          else do
            let (chain, disconnected_chain) ←
              disconnectBlocks env split_height (chain.m_blocks.length - 1) chain []
            let (connected, chain) ←
              connectAlternativeChain env disconnected_chain split_height chain alt_chain
            if !connected then pure (false, chain)
            else do
              let chain ← if discard_disconnected_chain then pure chain
                else reinsertDisconnected (fun chain old_ch_ent => handle_alternative_block fuel chain
                  old_ch_ent (env.get_block_hash old_ch_ent)) chain disconnected_chain
              pure (true, eraseAlternatives chain (alt_chain.map (·.1)))

end

end Blockchain

end Dynex
