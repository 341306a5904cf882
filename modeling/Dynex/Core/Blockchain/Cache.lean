import Dynex.Core.Blockchain.MainChain

/-!
# Rebuilding the indices from the stored blocks

`Blockchain::rebuildCache()`, which `Blockchain::init` runs when the cache file is missing, stale
or unreadable: every index is cleared and filled again from `m_blocks` alone. A block's hash is
read from the next block's `previousBlockHash` (the last block's is computed), a transaction's
from the block's `transactionHashes` (the miner transaction's is computed), key images are
recorded with the block's index, and each transaction's inputs are processed before its outputs.

The explorer indices that `rebuildCache` also fills (`m_timestampIndex`,
`m_generatedTransactionsIndex`, `m_paymentIdIndex`, `m_addressindex`) are not modelled.
-/

set_option autoImplicit false

namespace Dynex

open Crypto

namespace Blockchain

variable (env : Environment)

/-- `m_transactionMap.insert`: a hash already held keeps its index. -/
def insertTransaction (map : Hash → Option TransactionIndex) (transactionHash : Hash)
    (transactionIndex : TransactionIndex) : Hash → Option TransactionIndex :=
  match map transactionHash with
  | some _ => map
  | none => Function.update map transactionHash (some transactionIndex)

/-- One round of the inputs loop of `rebuildCache`, in block `b`: a key image is inserted with
the block's index (a key image already held is kept), a spent multisignature output is marked
used. -/
def rebuildInput (b : Nat) (chain : Blockchain) : TransactionInput → Except String Blockchain
  | .key input =>
      pure { chain with spentKeyImages := (insertKeyImage chain.spentKeyImages b input.keyImage).2 }
  | .multisignature input => do
      let outputs ← setUsed chain.m_multisignatureOutputs input.amount input.outputIndex.toNat true
      pure { chain with m_multisignatureOutputs := outputs }
  | .base _ => pure chain

def rebuildInputs (b : Nat) (chain : Blockchain) : List TransactionInput → Except String Blockchain
  | [] => pure chain
  | input :: rest => do
      let chain ← rebuildInput b chain input
      rebuildInputs b chain rest

/-- One round of the transactions loop of `rebuildCache`: entry `t` of block `b`. The entries
after the miner transaction take their hashes from `transactionHashes`, read out of bounds when
it is short; the output counter is a `uint16_t`. -/
def rebuildTransaction (b : Nat) (block : BlockEntry) (chain : Blockchain)
    (entry : TransactionEntry × Nat) : Except String Blockchain := do
  let (transaction, t) := entry
  let transactionHash ←
    if t = 0 then pure (env.getObjectHash transaction.tx)
    else
      match block.bl.transactionHashes[t - 1]? with
      | none => throw "block.bl.transactionHashes[t - 1]: index out of range"
      | some transactionHash => pure transactionHash
  let transactionIndex : TransactionIndex := ⟨b, t⟩
  let chain := { chain with
    m_transactionMap := insertTransaction chain.m_transactionMap transactionHash transactionIndex }
  let chain ← rebuildInputs b chain transaction.tx.inputs
  if 2 ^ 16 ≤ transaction.tx.outputs.length then
    throw "rebuildCache: uint16_t output counter never reaches outputs.size()"
  pure (pushOutputs chain transactionIndex transaction.tx.outputs).1

/-- One round of the blocks loop of `rebuildCache`: block `b` of `blocks`. -/
def rebuildBlock (blocks : List BlockEntry) (chain : Blockchain) (entry : BlockEntry × Nat) :
    Except String Blockchain := do
  let (block, b) := entry
  let blockHash := match blocks[b + 1]? with
    | some bei => bei.bl.previousBlockHash
    | none => env.get_block_hash block.bl
  let chain := { chain with m_blockIndex := blockIndexPush chain.m_blockIndex blockHash }
  if 2 ^ 16 ≤ block.transactions.length then
    throw "rebuildCache: uint16_t transaction counter never reaches transactions.size()"
  block.transactions.zipIdx.foldlM (rebuildTransaction env b block) chain

def rebuildCache (chain : Blockchain) : Except String Blockchain :=
  chain.m_blocks.zipIdx.foldlM (rebuildBlock env chain.m_blocks)
    { Blockchain.empty with m_blocks := chain.m_blocks }

end Blockchain

end Dynex
