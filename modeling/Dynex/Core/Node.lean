import Dynex.Core.TransactionPool
import Dynex.Core.Blockchain.MainChain

/-!
# The node: the blockchain with its memory pool

`core` owns the blockchain and the memory pool, and the blockchain holds the pool as `m_tx_pool`.
Transactions move between the two in both directions: `pushBlock(block, bvc)` takes the
transactions a block names out of the pool and puts them back when the block is refused, and
`popBlock` returns a popped block's transactions to the pool as kept by a block. The chain
operations themselves are those of `Blockchain`; this module joins them with the pool's.

The pool reads the chain through its validator, so its environment is a function of the chain as
it stands at the call. `handle_incoming_tx` hashes the blob it parses; the transaction encoding
being canonical, that is `getObjectHash` of the transaction, and the blob's size its binary size.
Alternative blocks are not joined here: `addNewBlock` is modelled on its branch for a block on the
tail.
-/

set_option autoImplicit false

namespace Dynex

open Crypto

/-- What the node reads besides its state: the chain's environment, the pool's view of the chain,
and the checks `handleIncomingTransaction` makes before `add_new_tx` (`check_tx_syntax`, outside
the checkpoint zone the size, fee, mixin, unmixable and non-privacy checks, then
`check_tx_semantic`). -/
structure NodeEnvironment where
  chain : Environment
  pool : Blockchain → PoolEnvironment
  checkIncomingTransaction : Blockchain → Transaction → Nat → Bool → Bool

def Blockchain.haveTransaction (chain : Blockchain) (id : Hash) : Bool :=
  (chain.m_transactionMap id).isSome

/-- The state `core` and its `Blockchain` share. -/
structure Node where
  m_blockchain : Blockchain
  m_mempool : TxMemoryPool

namespace Node

variable (env : NodeEnvironment)

/-- `m_tx_pool.add_tx(tx, tvc, keeped_by_block)`, the overload that hashes the transaction. -/
def add_tx (chain : Blockchain) (pool : TxMemoryPool) (tx : Transaction) (keeped_by_block : Bool)
    (now : UInt64) : Bool × TxMemoryPool :=
  TxMemoryPool.add_tx (env.pool chain) pool tx (env.chain.getObjectHash tx)
    (Blockchain.getObjectBinarySize tx) keeped_by_block now

/-- `core::add_new_tx`: a transaction the chain or the pool already has is reported added. -/
def add_new_tx (node : Node) (tx : Transaction) (tx_hash : Hash) (blob_size : Nat)
    (keeped_by_block : Bool) (now : UInt64) : Bool × Node :=
  if node.m_blockchain.haveTransaction tx_hash then (true, node)
  else if node.m_mempool.have_tx tx_hash then (true, node)
  else
    let (added, pool) := TxMemoryPool.add_tx (env.pool node.m_blockchain) node.m_mempool tx tx_hash
      blob_size keeped_by_block now
    (added, { node with m_mempool := pool })

/-- `core::handle_incoming_tx` for the blob of `tx`. -/
def handle_incoming_tx (node : Node) (tx : Transaction) (keeped_by_block : Bool) (now : UInt64) :
    Bool × Node :=
  let tx_hash := env.chain.getObjectHash tx
  let blobSize := Blockchain.getObjectBinarySize tx
  if !env.checkIncomingTransaction node.m_blockchain tx blobSize keeped_by_block then (false, node)
  else add_new_tx env node tx tx_hash blobSize keeped_by_block now

/-- The inner loop of `loadTransactions`: the transactions taken so far go back to the pool, the
last taken first, and one the pool refuses makes the call throw. -/
def returnTransactions (chain : Blockchain) (now : UInt64) (pool : TxMemoryPool) :
    List Transaction → Except String TxMemoryPool
  | [] => pure pool
  | tx :: rest =>
      match add_tx env chain pool tx true now with
      | (true, pool) => returnTransactions chain now pool rest
      | (false, _) => throw "Blockchain::loadTransactions, failed to add transaction to pool"

/-- The loop of `Blockchain::loadTransactions` over the hashes from the `i`-th on, with the
transactions taken before it. -/
def loadTransactionsLoop (chain : Blockchain) (now : UInt64) (pool : TxMemoryPool)
    (transactions : List Transaction) : List Hash → Except String (Option (List Transaction) × TxMemoryPool)
  | [] => pure (some transactions, pool)
  | hash :: rest =>
      match TxMemoryPool.take_tx (env.pool chain) pool hash with
      | (some (tx, _), pool) => loadTransactionsLoop chain now pool (transactions ++ [tx]) rest
      | (none, pool) =>
          match returnTransactions env chain now pool transactions.reverse with
          | .error message => .error message
          | .ok pool => pure (none, pool)

def loadTransactions (chain : Blockchain) (now : UInt64) (pool : TxMemoryPool) (block : Block) :
    Except String (Option (List Transaction) × TxMemoryPool) :=
  loadTransactionsLoop env chain now pool [] block.transactionHashes

def saveTransactions (chain : Blockchain) (now : UInt64) (pool : TxMemoryPool)
    (transactions : List Transaction) : TxMemoryPool :=
  transactions.reverse.foldl (fun pool tx => (add_tx env chain pool tx true now).2) pool

/-- `Blockchain::pushBlock(blockData, bvc)` at time `now`. -/
def pushBlock (node : Node) (blockData : Block) (now : UInt64) : Except String (Bool × Node) := do
  let (loaded, pool) ← loadTransactions env node.m_blockchain now node.m_mempool blockData
  match loaded with
  | none => pure (false, ⟨node.m_blockchain, pool⟩)
  | some transactions =>
      let (added, chain) ← Blockchain.pushBlock env.chain node.m_blockchain blockData transactions
      if added then pure (true, ⟨chain, pool⟩)
      else pure (false, ⟨chain, saveTransactions env chain now pool transactions⟩)

/-- `Blockchain::popBlock()` at time `now`: the last block's transactions but the miner's go back
to the pool, then the block is removed. -/
def popBlock (node : Node) (now : UInt64) : Except String Node :=
  match node.m_blockchain.m_blocks.getLast? with
  | none => pure node
  | some last => do
      let pool := saveTransactions env node.m_blockchain now node.m_mempool
        ((last.transactions.drop 1).map (·.tx))
      let chain ← Blockchain.removeLastBlock env.chain node.m_blockchain
      pure ⟨chain, pool⟩

def removeExpiredTransactions (node : Node) (now : UInt64) : Node :=
  { node with
    m_mempool := TxMemoryPool.removeExpiredTransactions (env.pool node.m_blockchain) node.m_mempool now }

/-- One call that changes the node: an incoming transaction, a block on the tail through
`addNewBlock`, `popBlock`, or the pool's expiry. Each call has its own time. -/
inductive Step : Node → Node → Prop
  | handle_incoming_tx {node : Node} (tx : Transaction) (keeped_by_block : Bool) (now : UInt64) :
      Step node (handle_incoming_tx env node tx keeped_by_block now).2
  | addNewBlock {node next : Node} {blockData : Block} {now : UInt64} {added : Bool} :
      env.chain.get_block_hash blockData ∉ node.m_blockchain.m_blockIndex →
      blockData.previousBlockHash = node.m_blockchain.getTailId →
      pushBlock env node blockData now = .ok (added, next) → Step node next
  | popBlock {node next : Node} {now : UInt64} : popBlock env node now = .ok next → Step node next
  | removeExpiredTransactions {node : Node} (now : UInt64) :
      Step node (removeExpiredTransactions env node now)

end Node

end Dynex
