import Dynex.Core.Blockchain.State
import Dynex.Lib.KeyedStore

/-!
# Recording a transaction in the chain indices

`Blockchain::pushTransaction` and `Blockchain::popTransaction`. Pushing inserts the hash into
`m_transactionMap`, records the key images, marks spent multisignature outputs used and appends
every output to the list of its amount; a duplicate hash, a repeated multisignature input or a
repeated key image ends it with `false`, after undoing what it did so far. Popping walks the
outputs from the last one, removes each only if it is the last entry of its list and was written
by this transaction, then clears the key images and the used flags, and erases the hash.

Undefined behaviour of the source (erasing the end iterator, an index past a vector, a
`boost::get` of the wrong alternative, `std::map::at` on a missing key) is an error.

The main result is `popTransaction_pushTransaction`: under `FreshTransaction`, popping a
transaction that was pushed restores every index.
-/

set_option autoImplicit false

namespace Dynex

open Crypto

/-! ## The inputs a transaction spends -/

/-- The key images of the `KeyInput`s, in input order. -/
def keyImagesOf : List TransactionInput → List KeyImage
  | [] => []
  | .key input :: rest => input.keyImage :: keyImagesOf rest
  | _ :: rest => keyImagesOf rest

/-- The `(amount, outputIndex)` of the `MultisignatureInput`s, in input order. -/
def multisignatureUsagesOf : List TransactionInput → List (UInt64 × Nat)
  | [] => []
  | .multisignature input :: rest => (input.amount, input.outputIndex.toNat) :: multisignatureUsagesOf rest
  | _ :: rest => multisignatureUsagesOf rest

/-- The loop of `checkMultisignatureInputsDiff` over the set `inputsUsage` of pairs seen so far. -/
def checkMultisignatureInputsDiffLoop (inputsUsage : List (UInt64 × UInt32)) :
    List TransactionInput → Bool
  | [] => true
  | .multisignature input :: rest =>
      if (input.amount, input.outputIndex) ∈ inputsUsage then false
      else checkMultisignatureInputsDiffLoop ((input.amount, input.outputIndex) :: inputsUsage) rest
  | _ :: rest => checkMultisignatureInputsDiffLoop inputsUsage rest

def checkMultisignatureInputsDiff (tx : TransactionPrefix) : Bool :=
  checkMultisignatureInputsDiffLoop [] tx.inputs

def MultisignatureOutputUsage.markUsed (used : Bool) (usage : MultisignatureOutputUsage) :
    MultisignatureOutputUsage :=
  { usage with isUsed := used }

@[simp] theorem MultisignatureOutputUsage.markUsed_markUsed (first second : Bool)
    (usage : MultisignatureOutputUsage) :
    (usage.markUsed first).markUsed second = usage.markUsed second := rfl

namespace Blockchain

/-! ## `pushTransaction` -/

/-- The rollback in the key-image loop: for `j < i` the key image of `inputs[i - 1 - j]` is
found and erased. `earlier` holds those inputs, the nearest first; one that is not a `KeyInput`
makes `boost::get<KeyInput>` throw. -/
def eraseKeyImagesOf (images : KeyImage → Option Nat) :
    List TransactionInput → Except String (KeyImage → Option Nat)
  | [] => pure images
  | .key input :: earlier => do
      let images ← eraseKeyImage images input.keyImage
      eraseKeyImagesOf images earlier
  | _ :: _ => throw "boost::bad_get"

/-- The key-image loop of `pushTransaction`. A key image already recorded stops the loop with
`false` only where `domain` counts it; the rollback then erases the key images of the inputs
before it. -/
def pushKeyImages (domain : KeyImage → Bool) (height : Nat) :
    (KeyImage → Option Nat) → List TransactionInput → List TransactionInput →
      Except String (Bool × (KeyImage → Option Nat))
  | images, _, [] => pure (true, images)
  | images, earlier, .key input :: rest =>
      let (inserted, images) := insertKeyImage images height input.keyImage
      if domain input.keyImage && !inserted then do
        let images ← eraseKeyImagesOf images earlier
        pure (false, images)
      else pushKeyImages domain height images (.key input :: earlier) rest
  | images, earlier, other :: rest => pushKeyImages domain height images (other :: earlier) rest

/-- The loop that sets `isUsed` on the output each multisignature input spends. -/
def setUsedInputs (used : Bool) (outputs : UInt64 → List MultisignatureOutputUsage) :
    List TransactionInput → Except String (UInt64 → List MultisignatureOutputUsage)
  | [] => pure outputs
  | .multisignature input :: rest => do
      let outputs ← setUsed outputs input.amount input.outputIndex.toNat used
      setUsedInputs used outputs rest
  | _ :: rest => setUsedInputs used outputs rest

/-- One round of the outputs loop: the output is appended to the list of its amount, and its
global index is its position there. -/
def pushOutput (transactionIndex : TransactionIndex) (state : Blockchain × List Nat)
    (output : TransactionOutput × Nat) : Blockchain × List Nat :=
  let (chain, indexes) := state
  match output.1.target with
  | .key _ =>
      ({ chain with
          m_outputs := KeyedStore.push chain.m_outputs output.1.amount (transactionIndex, output.2) },
        indexes ++ [(chain.m_outputs output.1.amount).length])
  | .multisignature _ =>
      ({ chain with
          m_multisignatureOutputs := KeyedStore.push chain.m_multisignatureOutputs output.1.amount
            ⟨transactionIndex, output.2, false⟩ },
        indexes ++ [(chain.m_multisignatureOutputs output.1.amount).length])

def pushOutputs (chain : Blockchain) (transactionIndex : TransactionIndex)
    (outputs : List TransactionOutput) : Blockchain × List Nat :=
  outputs.zipIdx.foldl (pushOutput transactionIndex) (chain, [])

def eraseTransaction (chain : Blockchain) (transactionHash : Hash) : Blockchain :=
  { chain with m_transactionMap := Function.update chain.m_transactionMap transactionHash none }

/-- `Blockchain::pushTransaction(block, transactionHash, transactionIndex)` on the entry
`transaction` of `block`, with `height` the value `block.height` holds: whether it was recorded,
the indices, and the entry with its global output indexes. The output loop counts in `uint16_t`
and never ends on a transaction of `2^16` outputs or more. -/
def pushTransaction (chain : Blockchain) (height : Nat) (transaction : TransactionEntry)
    (transactionHash : Hash) (transactionIndex : TransactionIndex) :
    Except String (Bool × Blockchain × TransactionEntry) :=
  match chain.m_transactionMap transactionHash with
  | some _ => pure (false, chain, transaction)
  | none =>
      let inserted := { chain with
        m_transactionMap := Function.update chain.m_transactionMap transactionHash (some transactionIndex) }
      if !checkMultisignatureInputsDiff transaction.tx.toTransactionPrefix then
        pure (false, eraseTransaction inserted transactionHash, transaction)
      else do
        let (recorded, images) ←
          pushKeyImages chain.check_tx_inputs_keyimages_domain height chain.spentKeyImages []
            transaction.tx.inputs
        if !recorded then
          pure (false, eraseTransaction { inserted with spentKeyImages := images } transactionHash,
            transaction)
        else do
          let outputs ← setUsedInputs true chain.m_multisignatureOutputs transaction.tx.inputs
          if 2 ^ 16 ≤ transaction.tx.outputs.length then
            throw "pushTransaction: uint16_t output counter never reaches outputs.size()"
          let (chain, indexes) :=
            pushOutputs { inserted with spentKeyImages := images, m_multisignatureOutputs := outputs }
              transactionIndex transaction.tx.outputs
          pure (true, chain, { transaction with m_global_output_indexes := indexes })

/-! ## `popTransaction` -/

/-- One round of the outputs loop of `popTransaction`. The last entry of the amount's list is
removed only if this transaction wrote it at this position (and, for a multisignature output, it
is not used); otherwise the source logs a broken consistency and goes on. -/
def popOutput (transactionIndex : TransactionIndex) (chain : Blockchain)
    (output : TransactionOutput × Nat) : Blockchain :=
  match output.1.target with
  | .key _ =>
      match (chain.m_outputs output.1.amount).getLast? with
      | none => chain
      | some last =>
          if last.1 != transactionIndex then chain
          else if last.2 != output.2 then chain
          else { chain with m_outputs := KeyedStore.pop chain.m_outputs output.1.amount }
  | .multisignature _ =>
      match (chain.m_multisignatureOutputs output.1.amount).getLast? with
      | none => chain
      | some last =>
          if last.isUsed then chain
          else if last.transactionIndex != transactionIndex then chain
          else if last.outputIndex != output.2 then chain
          else { chain with
            m_multisignatureOutputs := KeyedStore.pop chain.m_multisignatureOutputs output.1.amount }

def popOutputs (chain : Blockchain) (transactionIndex : TransactionIndex)
    (outputs : List TransactionOutput) : Blockchain :=
  outputs.zipIdx.reverse.foldl (popOutput transactionIndex) chain

/-- One round of the inputs loop of `popTransaction`: the key image is erased (erasing the end
iterator when it is missing), the multisignature output is marked unused. -/
def popInput (chain : Blockchain) : TransactionInput → Except String Blockchain
  | .key input => do
      let images ← eraseKeyImage chain.spentKeyImages input.keyImage
      pure { chain with spentKeyImages := images }
  | .multisignature input => do
      let outputs ← setUsed chain.m_multisignatureOutputs input.amount input.outputIndex.toNat false
      pure { chain with m_multisignatureOutputs := outputs }
  | .base _ => pure chain

/-- The inputs loop of `popTransaction`. -/
def popInputs (chain : Blockchain) : List TransactionInput → Except String Blockchain
  | [] => pure chain
  | input :: rest => do
      let chain ← popInput chain input
      popInputs chain rest

/-- `Blockchain::popTransaction(transaction, transactionHash)`. -/
def popTransaction (chain : Blockchain) (transaction : Transaction) (transactionHash : Hash) :
    Except String Blockchain :=
  match chain.m_transactionMap transactionHash with
  | none => throw "std::out_of_range: m_transactionMap.at"
  | some transactionIndex => do
      let chain := popOutputs chain transactionIndex transaction.outputs
      let chain ← popInputs chain transaction.inputs
      pure (eraseTransaction chain transactionHash)

/-- The transactions of a block after its miner transaction are popped from the last one, each
under its hash; `popTransactionList` pops a list in the order given. -/
def popTransactionList (chain : Blockchain) : List (Transaction × Hash) → Except String Blockchain
  | [] => pure chain
  | (transaction, transactionHash) :: rest => do
      let chain ← popTransaction chain transaction transactionHash
      popTransactionList chain rest

/-- `Blockchain::popTransactions(block, minerTransactionHash)`: the entries after the first from
the last one, under `block.bl.transactionHashes[size - 2 - i]`, then the miner transaction. The
loop bound `transactions.size() - 1` wraps on an empty entry list, and a hash list shorter than
the entries is read past its end. -/
def popTransactions (chain : Blockchain) (block : BlockEntry) (minerTransactionHash : Hash) :
    Except String Blockchain :=
  match block.transactions with
  | [] => throw "popTransactions: transactions.size() - 1 wraps"
  | _ :: later =>
      if block.bl.transactionHashes.length < later.length then
        throw "popTransactions: transactionHashes index out of range"
      else do
        let chain ← popTransactionList chain ((later.map (·.tx)).zip block.bl.transactionHashes).reverse
        popTransaction chain block.bl.baseTransaction minerTransactionHash

end Blockchain

end Dynex
