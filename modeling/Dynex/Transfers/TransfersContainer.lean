import Dynex.Transfers.TransfersConsumer

/-!
# The transfers of a wallet address

`TransfersContainer` of `Transfers/TransfersContainer.cpp`: the transactions that pay or spend
one address, and the outputs they pay it, each unconfirmed, available or spent. A
`boost::multi_index_container` is the list of its elements in the order of its hashed indexes;
`equal_range(key)` is the elements with the key, in that order, and an element's place in the
list is its iterator. The indexes of the unconfirmed and the available transfers are not unique,
so `emplace` there always appends; the spent transfers' index on `SpentOutputDescriptor` and the
transactions' index on the hash are unique, so `emplace` there does nothing where the key is
taken.

A method runs in `EStateM String TransfersContainer`: a throw keeps what the method changed
before it, as a C++ exception does, and `std::invalid_argument` and `std::runtime_error` are both
their message. The mutex and the logger are left out; `detach` has its own module. Of an output the
container copies the keys (`transactionPublicKey`, `outputKey`, `requiredSignatures`) but reads
none, so they are left out too; of the transaction it reads what `TransactionReader` holds.
-/

set_option autoImplicit false

namespace Dynex

open Crypto

namespace TransactionTypes

/-- `TransactionTypes::OutputType` of `ITransaction.h`. -/
inductive OutputType where
  | Invalid
  | Key
  | Multisignature
  deriving DecidableEq, Repr

end TransactionTypes

open TransactionTypes

def WALLET_LEGACY_UNCONFIRMED_TRANSACTION_HEIGHT : UInt32 := 0xFFFFFFFF

def UNCONFIRMED_TRANSACTION_GLOBAL_OUTPUT_INDEX : UInt32 := 0xFFFFFFFF

/-- What the container reads of an `ITransactionReader`. -/
structure TransactionReader where
  transactionHash : Hash
  transactionPublicKey : PublicKey
  unlockTime : UInt64
  inputs : List TransactionInput
  inputTotalAmount : UInt64
  outputTotalAmount : UInt64
  extra : List UInt8
  /-- What `getPaymentId` finds in the extra. -/
  paymentId : Option Hash
  deriving DecidableEq, Repr

/-- `TransactionInformation` of `ITransfersContainer.h`. -/
structure TransactionInformation where
  transactionHash : Hash
  publicKey : PublicKey
  blockHeight : UInt32
  timestamp : UInt64
  unlockTime : UInt64
  totalAmountIn : UInt64
  totalAmountOut : UInt64
  extra : List UInt8
  paymentId : Hash
  deriving DecidableEq, Repr

/-- `TransactionOutputInformationIn`: an output paid to the address, with its key image. -/
structure TransactionOutputInformationIn where
  type : OutputType
  amount : UInt64
  globalOutputIndex : UInt32
  outputInTransaction : UInt32
  transactionHash : Hash
  keyImage : KeyImage
  deriving DecidableEq, Repr

/-- `TransactionOutputInformationEx`: a transfer of the container. -/
structure TransactionOutputInformationEx extends TransactionOutputInformationIn where
  unlockTime : UInt64
  blockHeight : UInt32
  transactionIndex : UInt32
  visible : Bool
  deriving DecidableEq, Repr

/-- `SpentTransactionOutput`: a transfer with the input that spent it. -/
structure SpentTransactionOutput extends TransactionOutputInformationEx where
  spendingBlock : TransactionBlockInfo
  spendingTransactionHash : Hash
  inputInTransaction : UInt32
  deriving DecidableEq, Repr

/-- `SpentOutputDescriptor`: what an input names of the output it spends. -/
inductive SpentOutputDescriptor where
  | key (keyImage : KeyImage)
  | multisignature (amount : UInt64) (globalOutputIndex : UInt32)
  deriving DecidableEq, Repr

/-- `SpentOutputDescriptor(transactionInfo)`. An output of type `Invalid` has none: its
descriptor equals no other. -/
def TransactionOutputInformationIn.descriptor (info : TransactionOutputInformationIn) :
    Option SpentOutputDescriptor :=
  match info.type with
  | .Key => some (.key info.keyImage)
  | .Multisignature => some (.multisignature info.amount info.globalOutputIndex)
  | .Invalid => none

def TransactionOutputInformationIn.hasDescriptor (descriptor : SpentOutputDescriptor)
    (info : TransactionOutputInformationIn) : Bool :=
  info.descriptor == some descriptor

def TransactionOutputInformationEx.withVisible (transfer : TransactionOutputInformationEx)
    (visible : Bool) : TransactionOutputInformationEx :=
  { transfer with visible }

def SpentTransactionOutput.withVisible (transfer : SpentTransactionOutput) (visible : Bool) :
    SpentTransactionOutput :=
  { transfer with visible }

def lessTIterator (a b : TransactionOutputInformationEx) : Bool :=
  a.blockHeight < b.blockHeight ||
    (a.blockHeight == b.blockHeight && a.transactionIndex < b.transactionIndex)

/-- The container's members. -/
structure TransfersContainer where
  m_transactions : List TransactionInformation
  m_unconfirmedTransfers : List TransactionOutputInformationEx
  m_availableTransfers : List TransactionOutputInformationEx
  m_spentTransfers : List SpentTransactionOutput
  m_currentHeight : UInt32
  deriving DecidableEq, Repr

namespace TransfersContainer

abbrev Method (α : Type) := EStateM String TransfersContainer α

def empty : TransfersContainer :=
  { m_transactions := [], m_unconfirmedTransfers := [], m_availableTransfers := [],
    m_spentTransfers := [], m_currentHeight := 0 }

/-! ## Ranges of an index -/

section Ranges

variable {α : Type}

def iteratorList (inRange : α → Bool) (collection : List α) : List (α × Nat) :=
  collection.zipIdx.filter fun it => inRange it.1

def rangeFirst (inRange : α → Bool) (collection : List α) : Option (α × Nat) :=
  (iteratorList inRange collection).head?

def updateVisibility (setVisible : α → Bool → α) (inRange : α → Bool) (visible : Bool)
    (collection : List α) : List α :=
  collection.map fun element => if inRange element then setVisible element visible else element

end Ranges

/-- `minElement()`: `std::min_element` by `lessTIterator`, which moves to a later iterator only
where it is strictly earlier, so it keeps the first of the earliest. -/
def minElement : List (TransactionOutputInformationEx × Nat) →
    Option (TransactionOutputInformationEx × Nat)
  | [] => none
  | first :: rest =>
      some (rest.foldl (fun smallest it => if lessTIterator it.1 smallest.1 then it else smallest)
        first)

def findFirstByAmount (amount : UInt64) (iterators : List (TransactionOutputInformationEx × Nat)) :
    Option (TransactionOutputInformationEx × Nat) :=
  (iterators.mergeSort fun a b => !lessTIterator b.1 a.1).find? fun it => it.1.amount == amount

/-! ## Visibility -/

/-- The earliest transfer of the range made visible: `minElement()`, then `replace` of it with
`visible = true`. -/
def showEarliest (inRange : TransactionOutputInformationEx → Bool)
    (available : List TransactionOutputInformationEx) : List TransactionOutputInformationEx :=
  match minElement (iteratorList inRange available) with
  | some (earliest, position) => available.set position (earliest.withVisible true)
  | none => available

/-- `updateTransfersVisibility(keyImage)`: of the transfers of a key image, only the spent one is
visible where there is one; otherwise only the earliest available one; otherwise the unconfirmed
one, where it is the only one. -/
def updateTransfersVisibility (keyImage : KeyImage) (c : TransfersContainer) : TransfersContainer :=
  let descriptor := SpentOutputDescriptor.key keyImage
  let inRange := fun transfer : TransactionOutputInformationEx => transfer.hasDescriptor descriptor
  let spentInRange := fun transfer : SpentTransactionOutput => transfer.hasDescriptor descriptor
  let unconfirmedCount := c.m_unconfirmedTransfers.countP inRange
  let availableCount := c.m_availableTransfers.countP inRange
  let spentCount := c.m_spentTransfers.countP spentInRange
  if 0 < spentCount then
    { c with
      m_unconfirmedTransfers :=
        updateVisibility TransactionOutputInformationEx.withVisible inRange false
          c.m_unconfirmedTransfers
      m_availableTransfers :=
        updateVisibility TransactionOutputInformationEx.withVisible inRange false
          c.m_availableTransfers
      m_spentTransfers :=
        updateVisibility SpentTransactionOutput.withVisible spentInRange true c.m_spentTransfers }
  else if 0 < availableCount then
    { c with
      m_unconfirmedTransfers :=
        updateVisibility TransactionOutputInformationEx.withVisible inRange false
          c.m_unconfirmedTransfers
      m_availableTransfers :=
        showEarliest inRange
          (updateVisibility TransactionOutputInformationEx.withVisible inRange false
            c.m_availableTransfers) }
  else
    { c with
      m_unconfirmedTransfers :=
        updateVisibility TransactionOutputInformationEx.withVisible inRange (unconfirmedCount == 1)
          c.m_unconfirmedTransfers }

/-! ## Adding a transaction -/

/-- The record the private `addTransaction(block, tx)` makes of the transaction. -/
def transactionInformation (block : TransactionBlockInfo) (tx : TransactionReader) :
    TransactionInformation :=
  { transactionHash := tx.transactionHash, publicKey := tx.transactionPublicKey,
    blockHeight := block.height, timestamp := block.timestamp, unlockTime := tx.unlockTime,
    totalAmountIn := tx.inputTotalAmount, totalAmountOut := tx.outputTotalAmount,
    extra := tx.extra, paymentId := tx.paymentId.getD NULL_HASH }

/-- The private `addTransaction(block, tx)`: `emplace` into the index on the hash, which does
nothing where the hash is taken. -/
def insertTransaction (block : TransactionBlockInfo) (tx : TransactionReader)
    (c : TransfersContainer) : TransfersContainer :=
  if c.m_transactions.any (·.transactionHash == tx.transactionHash) then c
  else { c with m_transactions := c.m_transactions ++ [transactionInformation block tx] }

/-- The `spentOutput` of `copyToSpent`: the output with the input that spends it. -/
def spentOutput (block : TransactionBlockInfo) (tx : TransactionReader) (inputIndex : Nat)
    (output : TransactionOutputInformationEx) : SpentTransactionOutput :=
  { output with spendingBlock := block, spendingTransactionHash := tx.transactionHash,
                inputInTransaction := UInt32.ofNat inputIndex }

/-- `copyToSpent(block, tx, inputIndex, output)`: `emplace` into the unique index on the
descriptor, which does nothing where an output of the descriptor is spent already. -/
def copyToSpent (block : TransactionBlockInfo) (tx : TransactionReader) (inputIndex : Nat)
    (output : TransactionOutputInformationEx) (c : TransfersContainer) : TransfersContainer :=
  let spent := spentOutput block tx inputIndex output
  if spent.descriptor.any fun descriptor => c.m_spentTransfers.any (·.hasDescriptor descriptor)
  then c
  else { c with m_spentTransfers := c.m_spentTransfers ++ [spent] }

/-- The `info` of `addTransactionOutputs`: the transfer it makes of an output. -/
def outputInformation (block : TransactionBlockInfo) (tx : TransactionReader)
    (transfer : TransactionOutputInformationIn) : TransactionOutputInformationEx :=
  { transfer with transactionHash := tx.transactionHash, unlockTime := tx.unlockTime,
                  blockHeight := block.height, transactionIndex := block.transactionIndex,
                  visible := true }

/-- One round of the loop of `addTransactionOutputs`. -/
def addTransactionOutput (block : TransactionBlockInfo) (tx : TransactionReader)
    (transfer : TransactionOutputInformationIn) : Method Unit := do
  let transactionIsUnconfimed := block.height == WALLET_LEGACY_UNCONFIRMED_TRANSACTION_HEIGHT
  let transferIsUnconfirmed :=
    transfer.globalOutputIndex == UNCONFIRMED_TRANSACTION_GLOBAL_OUTPUT_INDEX
  if transactionIsUnconfimed != transferIsUnconfirmed then
    throw "Failed to add transaction output: globalOutputIndex is invalid"
  let info := outputInformation block tx transfer
  let c ← get
  if transferIsUnconfirmed then
    set { c with m_unconfirmedTransfers := c.m_unconfirmedTransfers ++ [info] }
  else
    if info.type == .Key then
      -- the same output of the same transaction, among the transfers of its key image
      let descriptor := SpentOutputDescriptor.key transfer.keyImage
      let sameOutput := fun other : TransactionOutputInformationEx =>
        other.transactionHash == info.transactionHash &&
          other.outputInTransaction == info.outputInTransaction
      if c.m_availableTransfers.any (fun other => other.hasDescriptor descriptor && sameOutput other) ||
          c.m_spentTransfers.any fun other =>
            other.hasDescriptor descriptor && sameOutput other.toTransactionOutputInformationEx then
        throw "Failed to add transaction output: key output already exists"
    else if info.type == .Multisignature then
      let descriptor := SpentOutputDescriptor.multisignature transfer.amount transfer.globalOutputIndex
      if c.m_availableTransfers.any (·.hasDescriptor descriptor) ||
          c.m_spentTransfers.any (·.hasDescriptor descriptor) then
        throw "Failed to add transaction output: multisignature output already exists"
    set { c with m_availableTransfers := c.m_availableTransfers ++ [info] }
  if info.type == .Key then
    modify (updateTransfersVisibility info.keyImage)

/-- `addTransactionOutputs(block, tx, transfers)`, the flag `outputsAdded` carried. -/
def addTransactionOutputs (block : TransactionBlockInfo) (tx : TransactionReader)
    (outputsAdded : Bool) : List TransactionOutputInformationIn → Method Bool
  | [] => pure outputsAdded
  | transfer :: transfers => do
      addTransactionOutput block tx transfer
      addTransactionOutputs block tx true transfers

/-- The round of the loop of `addTransactionInputs` for input `i`: whether it spends a transfer. -/
def addTransactionInput (block : TransactionBlockInfo) (tx : TransactionReader) (i : Nat) :
    TransactionInput → Method Bool
  | .key input => do
      let c ← get
      let descriptor := SpentOutputDescriptor.key input.keyImage
      let inRange := fun transfer : TransactionOutputInformationEx => transfer.hasDescriptor descriptor
      if c.m_spentTransfers.any (·.hasDescriptor descriptor) then
        throw "Failed add key input: key image already spent"
      let availableCount := c.m_availableTransfers.countP inRange
      let unconfirmedCount := c.m_unconfirmedTransfers.countP inRange
      if availableCount == 0 then
        if 0 < unconfirmedCount then
          throw "Failed to add key input: spend output of unconfirmed transaction"
        else
          -- the input spends no transfer of this container
          return false
      match findFirstByAmount input.amount (iteratorList inRange c.m_availableTransfers) with
      | none => throw "Failed to add key input: invalid amount"
      | some (spendingTransfer, position) =>
          modify (copyToSpent block tx i spendingTransfer)
          modify fun c => { c with m_availableTransfers := c.m_availableTransfers.eraseIdx position }
          modify (updateTransfersVisibility input.keyImage)
          pure true
  | .multisignature input => do
      let c ← get
      let descriptor := SpentOutputDescriptor.multisignature input.amount input.outputIndex
      match rangeFirst (·.hasDescriptor descriptor) c.m_availableTransfers with
      | some (availableOutput, position) =>
          modify (copyToSpent block tx i availableOutput)
          modify fun c => { c with m_availableTransfers := c.m_availableTransfers.eraseIdx position }
          pure true
      | none => pure false
  | .base _ => pure false

/-- The loop of `addTransactionInputs` from input `i` on, the flag `inputsAdded` carried. -/
def addTransactionInputsFrom (block : TransactionBlockInfo) (tx : TransactionReader) :
    Nat → Bool → List TransactionInput → Method Bool
  | _, inputsAdded, [] => pure inputsAdded
  | i, inputsAdded, input :: inputs => do
      let spent ← addTransactionInput block tx i input
      addTransactionInputsFrom block tx (i + 1) (inputsAdded || spent) inputs

def addTransactionInputs (block : TransactionBlockInfo) (tx : TransactionReader) : Method Bool :=
  addTransactionInputsFrom block tx 0 false tx.inputs

/-! ## Deleting the transfers of a transaction -/

/-- The loops `for (it = range.first; it != range.second;)` of `deleteTransactionTransfers`, whose
body erases `it`: while the range has an element, `round` erases the first and does the rest of
the body. The range only shrinks, so its size at the start bounds the rounds. -/
def eraseRange (round : TransfersContainer → Option TransfersContainer) :
    Nat → TransfersContainer → TransfersContainer
  | 0, c => c
  | rounds + 1, c =>
      match round c with
      | none => c
      | some c' => eraseRange round rounds c'

/-- A round of the first loop: the first transfer the transaction spent, back among the
available ones. -/
def restoreSpent (transactionHash : Hash) (c : TransfersContainer) : Option TransfersContainer :=
  (rangeFirst (·.spendingTransactionHash == transactionHash) c.m_spentTransfers).map
    fun (spent, position) =>
      let c := { c with
        m_availableTransfers := c.m_availableTransfers ++ [spent.toTransactionOutputInformationEx]
        m_spentTransfers := c.m_spentTransfers.eraseIdx position }
      if spent.type == .Key then updateTransfersVisibility spent.keyImage c else c

/-- A round of the second and third loops, over the transfers `transfers` reads and
`setTransfers` writes: the first transfer of the transaction erased. -/
def eraseTransfer (transfers : TransfersContainer → List TransactionOutputInformationEx)
    (setTransfers : TransfersContainer → List TransactionOutputInformationEx → TransfersContainer)
    (transactionHash : Hash) (c : TransfersContainer) : Option TransfersContainer :=
  (rangeFirst (·.transactionHash == transactionHash) (transfers c)).map fun (transfer, position) =>
    let c := setTransfers c ((transfers c).eraseIdx position)
    if transfer.type == .Key then updateTransfersVisibility transfer.keyImage c else c

/-- `deleteTransactionTransfers(transactionHash)`: the outputs the transaction spent are
available again, and the outputs it paid are gone. -/
def deleteTransactionTransfers (transactionHash : Hash) (c : TransfersContainer) :
    TransfersContainer :=
  let c := eraseRange (restoreSpent transactionHash) c.m_spentTransfers.length c
  let c := eraseRange
    (eraseTransfer (·.m_unconfirmedTransfers) (fun c transfers =>
      { c with m_unconfirmedTransfers := transfers }) transactionHash)
    c.m_unconfirmedTransfers.length c
  eraseRange
    (eraseTransfer (·.m_availableTransfers) (fun c transfers =>
      { c with m_availableTransfers := transfers }) transactionHash)
    c.m_availableTransfers.length c

/-- The `try` block of `addTransaction(block, tx, transfers)`. -/
def tryAddTransaction (block : TransactionBlockInfo) (tx : TransactionReader)
    (transfers : List TransactionOutputInformationIn) : Method Bool := do
  let c ← get
  if block.height < c.m_currentHeight then
    throw "Failed to add transaction: block index < m_currentHeight"
  if c.m_transactions.any (·.transactionHash == tx.transactionHash) then
    throw "Transaction is already added"
  let outputsAdded ← addTransactionOutputs block tx false transfers
  let inputsAdded ← addTransactionInputs block tx
  let added := outputsAdded || inputsAdded
  if added then
    modify (insertTransaction block tx)
  if block.height != WALLET_LEGACY_UNCONFIRMED_TRANSACTION_HEIGHT then
    modify fun c => { c with m_currentHeight := block.height }
  pure added

/-- `addTransaction(block, tx, transfers)`. Where the `try` block throws, the `catch` deletes the
transfers of the transaction unless the transaction is recorded, and throws again. -/
def addTransaction (block : TransactionBlockInfo) (tx : TransactionReader)
    (transfers : List TransactionOutputInformationIn) : Method Bool := do
  try
    tryAddTransaction block tx transfers
  catch message =>
    if !(← get).m_transactions.any (·.transactionHash == tx.transactionHash) then
      modify (deleteTransactionTransfers tx.transactionHash)
    throw message

/-! ## Confirming and deleting a transaction -/

/-- The first loop of `markTransactionConfirmed`: while the transaction has an unconfirmed
transfer, the first one moves to the available transfers, at the block and with its global
index. Each round erases one, so their number at the start bounds the rounds. -/
def confirmTransfers (block : TransactionBlockInfo) (transactionHash : Hash)
    (globalIndices : List UInt32) : Nat → Method Unit
  | 0 => pure ()
  | rounds + 1 => do
      let c ← get
      match rangeFirst (·.transactionHash == transactionHash) c.m_unconfirmedTransfers with
      | none => pure ()
      | some (transfer, position) =>
          match globalIndices[transfer.outputInTransaction.toNat]? with
          | none => throw "Failed to confirm transaction: not enough elements in globalIndices"
          | some globalOutputIndex =>
              let transfer := { transfer with
                blockHeight := block.height, transactionIndex := block.transactionIndex,
                globalOutputIndex }
              if transfer.type == .Multisignature then
                let descriptor :=
                  SpentOutputDescriptor.multisignature transfer.amount transfer.globalOutputIndex
                if c.m_availableTransfers.any (·.hasDescriptor descriptor) ||
                    c.m_spentTransfers.any (·.hasDescriptor descriptor) then
                  throw "Failed to confirm transaction: multisignature output already exists"
              set { c with
                m_availableTransfers := c.m_availableTransfers ++ [transfer]
                m_unconfirmedTransfers := c.m_unconfirmedTransfers.eraseIdx position }
              if transfer.type == .Key then
                modify (updateTransfersVisibility transfer.keyImage)
              confirmTransfers block transactionHash globalIndices rounds

/-- `markTransactionConfirmed(block, transactionHash, globalIndices)`. The transaction's record
takes the block's height before its transfers move. -/
def markTransactionConfirmed (block : TransactionBlockInfo) (transactionHash : Hash)
    (globalIndices : List UInt32) : Method Bool := do
  if block.height == WALLET_LEGACY_UNCONFIRMED_TRANSACTION_HEIGHT then
    throw "Failed to confirm transaction: block height is unconfirmed"
  let c ← get
  match rangeFirst (·.transactionHash == transactionHash) c.m_transactions with
  | none => pure false
  | some (txInfo, position) =>
      if txInfo.blockHeight != WALLET_LEGACY_UNCONFIRMED_TRANSACTION_HEIGHT then
        return false
      set { c with
        m_transactions :=
          c.m_transactions.set position
            { txInfo with blockHeight := block.height, timestamp := block.timestamp } }
      confirmTransfers block transactionHash globalIndices c.m_unconfirmedTransfers.length
      -- the second loop: the outputs the transaction spends are spent at the block
      modify fun c => { c with
        m_spentTransfers := c.m_spentTransfers.map fun transfer =>
          if transfer.spendingTransactionHash == transactionHash then
            { transfer with spendingBlock := block }
          else transfer }
      pure true

/-- `deleteUnconfirmedTransaction(transactionHash)`. -/
def deleteUnconfirmedTransaction (transactionHash : Hash) : Method Bool := do
  let c ← get
  match rangeFirst (·.transactionHash == transactionHash) c.m_transactions with
  | none => pure false
  | some (txInfo, position) =>
      if txInfo.blockHeight != WALLET_LEGACY_UNCONFIRMED_TRANSACTION_HEIGHT then
        pure false
      else
        let c := deleteTransactionTransfers txInfo.transactionHash c
        set { c with m_transactions := c.m_transactions.eraseIdx position }
        pure true

/-- `advanceHeight(height)`. -/
def advanceHeight (height : UInt32) : Method Bool := do
  let c ← get
  if c.m_currentHeight ≤ height then
    set { c with m_currentHeight := height }
    pure true
  else
    pure false

end TransfersContainer

end Dynex
