import Dynex.Core.BlockchainIndices

/-!
# The memory pool

`tx_memory_pool` from `TransactionPool.cpp`: the pooled transactions with the two indices that
`add_tx` consults against double spends, `m_spent_key_images` (the ids of the pooled transactions
spending each key image) and `m_spentOutputs` (the multisignature outputs spent by pooled
transactions not kept by a block), and the recently deleted ids and explorer indices it keeps
beside them.

`add_tx` inserts the transaction before it registers the inputs, and `removeTransaction` goes on
whether or not `removeTransactionInputs` succeeded; the model keeps both orders. The validator,
the clock and the currency's pool parameters are a `PoolEnvironment`; the reading of the clock a
call makes is an argument of the call.
-/

set_option autoImplicit false

namespace Dynex

open Crypto

/-- The parts of the node the pool reads: the blockchain as `m_validator`, the currency's pool
lifetimes and the address format of the explorer index. -/
structure PoolEnvironment where
  checkTransactionInputs : Transaction → Bool
  checkTransactionSize : Nat → Bool
  mempoolTxLiveTime : UInt64
  mempoolTxFromAltBlockLiveTime : UInt64
  numberOfPeriodsToForgetTxDeletedFromPool : UInt64
  getAccountAddressAsStr : AccountPublicAddress → String

/-- `tx_memory_pool::TransactionDetails`, without the block information only
`fill_block_template` reads. -/
structure TransactionDetails where
  id : Hash
  tx : Transaction
  blobSize : Nat
  fee : UInt64
  keptByBlock : Bool
  receiveTime : UInt64
  deriving DecidableEq, Repr

/-- The members of `tx_memory_pool` the pool operations read and write. The container is
`hashed_unique` on the id, so the list's order is its (unspecified) iteration order. -/
structure TxMemoryPool where
  m_transactions : List TransactionDetails
  m_spent_key_images : KeyImage → Option (Finset Hash)
  m_spentOutputs : Finset (UInt64 × UInt64)
  m_recentlyDeletedTransactions : Hash → Option UInt64
  m_paymentIdIndex : PaymentIdIndex
  m_addressindex : AddressIndex
  m_timestampIndex : TimestampTransactionsIndex

namespace TxMemoryPool

/-- The pool at start-up, with the explorer indices enabled or not. -/
def empty (blockchainIndexesEnabled : Bool) : TxMemoryPool where
  m_transactions := []
  m_spent_key_images := fun _ => none
  m_spentOutputs := ∅
  m_recentlyDeletedTransactions := fun _ => none
  m_paymentIdIndex := ⟨blockchainIndexesEnabled, fun _ => []⟩
  m_addressindex := ⟨blockchainIndexesEnabled, fun _ => []⟩
  m_timestampIndex := ⟨blockchainIndexesEnabled, fun _ => []⟩

/-- `check_inputs_types_supported`: only key and multisignature inputs. -/
def check_inputs_types_supported (tx : Transaction) : Bool :=
  tx.inputs.all fun
    | .base _ => false
    | _ => true

def globalOutput (input : MultisignatureInput) : UInt64 × UInt64 :=
  (input.amount, input.outputIndex.toUInt64)

def have_tx (pool : TxMemoryPool) (id : Hash) : Bool :=
  pool.m_transactions.any (·.id == id)

/-- `haveSpentInputs`: a key image the pool has an entry for, or a multisignature output it
records as spent. -/
def haveSpentInputs (pool : TxMemoryPool) (tx : Transaction) : Bool :=
  tx.inputs.any fun
    | .key input => (pool.m_spent_key_images input.keyImage).isSome
    | .multisignature input => decide (globalOutput input ∈ pool.m_spentOutputs)
    | .base _ => false

/-! ## Registering and releasing inputs -/

/-- One round of `addTransactionInputs`. `m_spent_key_images[keyImage]` creates an empty entry
before the checks; a transaction not kept by a block may only spend a key image no pooled
transaction spends. -/
def addTransactionInput (id : Hash) (keptByBlock : Bool) (pool : TxMemoryPool) :
    TransactionInput → Bool × TxMemoryPool
  | .key input =>
      let kei_image_set := (pool.m_spent_key_images input.keyImage).getD ∅
      let pool := { pool with
        m_spent_key_images := Function.update pool.m_spent_key_images input.keyImage
          (some kei_image_set) }
      if !(keptByBlock || kei_image_set.card == 0) then (false, pool)
      else if id ∈ kei_image_set then (false, pool)
      else (true, { pool with
        m_spent_key_images := Function.update pool.m_spent_key_images input.keyImage
          (some (insert id kei_image_set)) })
  | .multisignature input =>
      if !keptByBlock then
        (true, { pool with m_spentOutputs := insert (globalOutput input) pool.m_spentOutputs })
      else (true, pool)
  | .base _ => (true, pool)

/-- `addTransactionInputs`: the inputs in order, stopping at the first that fails. -/
def addTransactionInputs (id : Hash) (keptByBlock : Bool) (pool : TxMemoryPool) :
    List TransactionInput → Bool × TxMemoryPool
  | [] => (true, pool)
  | input :: rest =>
      match addTransactionInput id keptByBlock pool input with
      | (false, pool) => (false, pool)
      | (true, pool) => addTransactionInputs id keptByBlock pool rest

/-- One round of `removeTransactionInputs`: the id leaves the set of its key image, which is
erased once empty; a multisignature output is released when the transaction was not kept by a
block. -/
def removeTransactionInput (id : Hash) (keptByBlock : Bool) (pool : TxMemoryPool) :
    TransactionInput → Bool × TxMemoryPool
  | .key input =>
      match pool.m_spent_key_images input.keyImage with
      | none => (false, pool)
      | some key_image_set =>
          if key_image_set = ∅ then (false, pool)
          else if id ∉ key_image_set then (false, pool)
          else
            let key_image_set := key_image_set.erase id
            (true, { pool with
              m_spent_key_images := Function.update pool.m_spent_key_images input.keyImage
                (if key_image_set = ∅ then none else some key_image_set) })
  | .multisignature input =>
      if !keptByBlock then
        (true, { pool with m_spentOutputs := pool.m_spentOutputs.erase (globalOutput input) })
      else (true, pool)
  | .base _ => (true, pool)

def removeTransactionInputs (id : Hash) (keptByBlock : Bool) (pool : TxMemoryPool) :
    List TransactionInput → Bool × TxMemoryPool
  | [] => (true, pool)
  | input :: rest =>
      match removeTransactionInput id keptByBlock pool input with
      | (false, pool) => (false, pool)
      | (true, pool) => removeTransactionInputs id keptByBlock pool rest

/-! ## The operations -/

variable (env : PoolEnvironment)

/-- `removeTransaction(i)`: the inputs are released, whatever that returns, then the explorer
entries, then the transaction. -/
def removeTransaction (pool : TxMemoryPool) (details : TransactionDetails) : TxMemoryPool :=
  let pool := (removeTransactionInputs details.id details.keptByBlock pool details.tx.inputs).2
  { pool with
    m_paymentIdIndex := (pool.m_paymentIdIndex.remove details.tx details.id).2
    m_addressindex :=
      (AddressIndex.remove env.getAccountAddressAsStr pool.m_addressindex details.tx details.id).2
    m_timestampIndex := (pool.m_timestampIndex.remove details.receiveTime details.id).2
    m_transactions := pool.m_transactions.filter (·.id != details.id) }

/-- `tx_memory_pool::add_tx(tx, id, blobSize, tvc, keptByBlock)`, at time `now`. A transaction
kept by a block skips the double-spend, input and size checks; a recently deleted one not kept
by a block is reported added without being added. -/
def add_tx (pool : TxMemoryPool) (tx : Transaction) (id : Hash) (blobSize : Nat)
    (keptByBlock : Bool) (now : UInt64) : Bool × TxMemoryPool :=
  if !check_inputs_types_supported tx then (false, pool)
  else
    let inputs_amount := getInputAmount tx
    let outputs_amount := getOutputAmount tx
    if outputs_amount > inputs_amount then (false, pool)
    else if !keptByBlock && pool.haveSpentInputs tx then (false, pool)
    else if !env.checkTransactionInputs tx && !keptByBlock then (false, pool)
    else if !keptByBlock && !env.checkTransactionSize blobSize then (false, pool)
    else if !keptByBlock && (pool.m_recentlyDeletedTransactions id).isSome then (true, pool)
    else if pool.m_transactions.any (·.id == id) then (false, pool)
    else
      let txd : TransactionDetails :=
        ⟨id, tx, blobSize, inputs_amount - outputs_amount, keptByBlock, now⟩
      let pool := { pool with
        m_transactions := pool.m_transactions ++ [txd]
        m_paymentIdIndex := (pool.m_paymentIdIndex.add tx id).2
        m_addressindex :=
          (AddressIndex.add env.getAccountAddressAsStr pool.m_addressindex tx id).2
        m_timestampIndex := (pool.m_timestampIndex.add now id).2 }
      addTransactionInputs id keptByBlock pool tx.inputs

/-- `tx_memory_pool::take_tx(id, ...)`: the transaction, its blob size and its fee, taken out. -/
def take_tx (pool : TxMemoryPool) (id : Hash) :
    Option (Transaction × Nat × UInt64) × TxMemoryPool :=
  match pool.m_transactions.find? (·.id == id) with
  | none => (none, pool)
  | some txd => (some (txd.tx, txd.blobSize, txd.fee), removeTransaction env pool txd)

/-- The loop of `removeExpiredTransactions` over the pooled transactions: one older than its
lifetime, in `uint64_t` arithmetic, is remembered as deleted at `now` and removed. -/
def removeExpiredLoop (now : UInt64) (pool : TxMemoryPool) : List TransactionDetails → TxMemoryPool
  | [] => pool
  | txd :: rest =>
      let txAge := now - txd.receiveTime
      if txAge > (if txd.keptByBlock then env.mempoolTxFromAltBlockLiveTime
          else env.mempoolTxLiveTime) then
        let recentlyDeleted := match pool.m_recentlyDeletedTransactions txd.id with
          | some deletedAt => some deletedAt
          | none => some now
        let pool := { pool with
          m_recentlyDeletedTransactions :=
            Function.update pool.m_recentlyDeletedTransactions txd.id recentlyDeleted }
        removeExpiredLoop now (removeTransaction env pool txd) rest
      else removeExpiredLoop now pool rest

/-- `removeExpiredTransactions()` at time `now`: deletions older than the forgetting period are
forgotten, then the expired transactions are removed. -/
def removeExpiredTransactions (pool : TxMemoryPool) (now : UInt64) : TxMemoryPool :=
  let forget := env.numberOfPeriodsToForgetTxDeletedFromPool * env.mempoolTxLiveTime
  let pool := { pool with
    m_recentlyDeletedTransactions := fun id =>
      match pool.m_recentlyDeletedTransactions id with
      | some deletedAt => if now - deletedAt > forget then none else some deletedAt
      | none => none }
  removeExpiredLoop env now pool pool.m_transactions

end TxMemoryPool

end Dynex
