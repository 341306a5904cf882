import Dynex.Core.TransactionPool
import Dynex.Common.IntUtil

/-!
# Filling a block template from the pool

`tx_memory_pool::fill_block_template` walks the pool in the order of its fee index and puts each
transaction into a `BlockTemplate` that fits the size limit of its kind (the median block size for
a free transaction, a quarter more than the median less the coinbase reservation for a paying one),
pays enough fee, passes the input checks or is in the validation cache, and spends no key image or
multisignature output a transaction already in the template spends.

The sizes are `size_t` and the fee `uint64_t`, so the model computes them in `UInt64`, wrapping
where the source does; in particular `max_total_size` wraps when the reservation exceeds the
limit it is taken from. The validator and the fee check are a `TemplateEnvironment`; the
validation cache (a file-level set of ids in `TransactionPool.cpp`) and the check information the
fee index keeps for each transaction are arguments, returned updated.
-/

set_option autoImplicit false

namespace Dynex

open Crypto

/-- `BlockInfo`: a block by its height and id. -/
structure BlockInfo where
  height : UInt32
  id : Hash
  deriving DecidableEq, Repr

/-- `tx_memory_pool::TransactionCheckInfo`: the newest block the inputs used and the block at
which they last failed, which `checkTransactionInputs` reads and updates to skip repeated work. -/
structure TransactionCheckInfo where
  maxUsedBlock : BlockInfo
  lastFailedBlock : BlockInfo
  deriving DecidableEq, Repr

/-- The parts of the node `fill_block_template` reads: the validator's input checks, the fee check
at the current height, and the currency's `minerTxBlobReservedSize`. -/
structure TemplateEnvironment where
  checkTransactionInputs : Transaction → TransactionCheckInfo → Bool × TransactionCheckInfo
  haveSpentKeyImages : Transaction → Bool
  check_tx_fee : Transaction → Nat → Bool
  minerTxBlobReservedSize : UInt64

/-- `BlockTemplate` of `TransactionPool.cpp`: the key images and multisignature outputs the
transactions put in so far spend, and their ids in order. -/
structure BlockTemplate where
  m_keyImages : Finset KeyImage
  m_usedOutputs : Finset (UInt64 × UInt64)
  m_txHashes : List Hash

namespace BlockTemplate

open TxMemoryPool (globalOutput)

def empty : BlockTemplate := ⟨∅, ∅, []⟩

/-- `canAdd(tx)`: no key image and no multisignature output of the transaction is spent by the
template already. -/
def canAdd (template : BlockTemplate) (tx : Transaction) : Bool :=
  tx.inputs.all fun
    | .key input => input.keyImage ∉ template.m_keyImages
    | .multisignature input => globalOutput input ∉ template.m_usedOutputs
    | .base _ => true

/-- One round of the insertion loop of `addTransaction`. The source asserts that each insertion
is new; the assertion is compiled out of release builds, so the model only inserts. -/
def insertInput (template : BlockTemplate) : TransactionInput → BlockTemplate
  | .key input => { template with m_keyImages := insert input.keyImage template.m_keyImages }
  | .multisignature input =>
      { template with m_usedOutputs := insert (globalOutput input) template.m_usedOutputs }
  | .base _ => template

/-- `addTransaction(txid, tx)`: whether the transaction went in, and the template after. -/
def addTransaction (template : BlockTemplate) (txid : Hash) (tx : Transaction) :
    Bool × BlockTemplate :=
  if !template.canAdd tx then (false, template)
  else
    let inserted := tx.inputs.foldl insertInput template
    (true, { inserted with m_txHashes := template.m_txHashes ++ [txid] })

def getTransactions (template : BlockTemplate) : List Hash := template.m_txHashes

end BlockTemplate

namespace TxMemoryPool

/-- `TransactionPriorityComparator`, "lhs > rhs": the higher fee per byte first, compared as
`lhs.fee * rhs.blobSize > rhs.fee * lhs.blobSize` on 128-bit products, then the smaller, then the
older. -/
def TransactionPriorityComparator (lhs rhs : TransactionDetails) : Bool :=
  let lhsProduct := IntUtil.mul128 lhs.fee rhs.blobSize.toUInt64
  let rhsProduct := IntUtil.mul128 rhs.fee lhs.blobSize.toUInt64
  let lhs_lo := lhsProduct.1
  let lhs_hi := lhsProduct.2
  let rhs_lo := rhsProduct.1
  let rhs_hi := rhsProduct.2
  -- prefer more profitable transactions
  decide (lhs_hi > rhs_hi) ||
  (lhs_hi == rhs_hi && decide (lhs_lo > rhs_lo)) ||
  -- prefer smaller
  (lhs_hi == rhs_hi && lhs_lo == rhs_lo && decide (lhs.blobSize < rhs.blobSize)) ||
  -- prefer older
  (lhs_hi == rhs_hi && lhs_lo == rhs_lo && lhs.blobSize == rhs.blobSize &&
    decide (lhs.receiveTime < rhs.receiveTime))

def feeIndex (pool : TxMemoryPool) : List TransactionDetails :=
  pool.m_transactions.mergeSort fun lhs rhs => !TransactionPriorityComparator rhs lhs

/-- `is_transaction_ready_to_go(tx, txd)`: the inputs pass the validator's checks (which update
the check information) and spend no key image the blockchain has seen spent. -/
def is_transaction_ready_to_go (env : TemplateEnvironment) (tx : Transaction)
    (txd : TransactionCheckInfo) : Bool × TransactionCheckInfo :=
  let checked := env.checkTransactionInputs tx txd
  if !checked.1 then (false, checked.2)
  else if env.haveSpentKeyImages tx then (false, checked.2)
  else (true, checked.2)

/-- What `fill_block_template` carries from one transaction of the fee index to the next. -/
structure FillState where
  total_size : UInt64
  fee : UInt64
  blockTemplate : BlockTemplate
  m_validated_transactions : Finset Hash
  checkInfo : Hash → TransactionCheckInfo

/-- `ready` for a transaction that passed the size and fee checks: from the validation cache, or
from `is_transaction_ready_to_go`, which adds the id to the cache when it passes. Returns `ready`,
the cache and the transaction's check information after. -/
def readiness (env : TemplateEnvironment) (validated : Finset Hash) (checkInfo : TransactionCheckInfo)
    (txd : TransactionDetails) : Bool × Finset Hash × TransactionCheckInfo :=
  if txd.id ∈ validated then (true, validated, checkInfo)
  else
    let checked := is_transaction_ready_to_go env txd.tx checkInfo
    (checked.1, if checked.1 then insert txd.id validated else validated, checked.2)

/-- The body of the loop of `fill_block_template` for one transaction `txd`. -/
def fillRound (env : TemplateEnvironment) (median_size max_total_size : UInt64) (state : FillState)
    (txd : TransactionDetails) : FillState :=
  let blockSizeLimit := if txd.fee = 0 then median_size else max_total_size
  if blockSizeLimit < state.total_size + txd.blobSize.toUInt64 then state
  else if !env.check_tx_fee txd.tx txd.blobSize then state
  else
    let checked := readiness env state.m_validated_transactions (state.checkInfo txd.id) txd
    -- the check information is written back to the fee index entry whether or not it is ready
    let updated := { state with
      m_validated_transactions := checked.2.1
      checkInfo := Function.update state.checkInfo txd.id checked.2.2 }
    if !checked.1 then updated
    else
      let added := updated.blockTemplate.addTransaction txd.id txd.tx
      if added.1 then
        { updated with
          blockTemplate := added.2
          total_size := updated.total_size + txd.blobSize.toUInt64
          fee := updated.fee + txd.fee }
      else { updated with blockTemplate := added.2 }

def maxTotalSize (env : TemplateEnvironment) (median_size maxCumulativeSize : UInt64) : UInt64 :=
  min ((125 * median_size) / 100) maxCumulativeSize - env.minerTxBlobReservedSize

/-- `fill_block_template(bl, median_size, maxCumulativeSize, already_generated_coins, total_size,
fee)` over the fee index: `bl.transactionHashes` is the template's `getTransactions()`, and
`total_size` and `fee` are the state's. The function always returns `true`. -/
def fill_block_template (env : TemplateEnvironment) (pool : TxMemoryPool) (validated : Finset Hash)
    (checkInfo : Hash → TransactionCheckInfo) (median_size maxCumulativeSize : UInt64) : FillState :=
  let max_total_size := maxTotalSize env median_size maxCumulativeSize
  (feeIndex pool).foldl (fillRound env median_size max_total_size)
    { total_size := 0, fee := 0, blockTemplate := BlockTemplate.empty,
      m_validated_transactions := validated, checkInfo := checkInfo }

end TxMemoryPool

end Dynex
