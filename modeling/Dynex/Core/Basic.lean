import Dynex.Crypto.Types

/-!
# Transactions and blocks

The value types of `DynexCN.h`: inputs and outputs as the three and two alternatives of
their `boost::variant`s, and blocks with the parent-block section of the merge-mined
versions. Field widths are the source's.
-/

set_option autoImplicit false

namespace Dynex

open Crypto

structure BaseInput where
  blockIndex : UInt32
  deriving DecidableEq, Repr

structure KeyInput where
  amount : UInt64
  outputIndexes : List UInt32
  keyImage : KeyImage
  deriving DecidableEq, Repr

structure MultisignatureInput where
  amount : UInt64
  signatureCount : UInt8
  outputIndex : UInt32
  deriving DecidableEq, Repr

/-- `TransactionInput`, the variant `<BaseInput, KeyInput, MultisignatureInput>`. -/
inductive TransactionInput where
  | base (input : BaseInput)
  | key (input : KeyInput)
  | multisignature (input : MultisignatureInput)
  deriving DecidableEq, Repr

structure KeyOutput where
  key : PublicKey
  deriving DecidableEq, Repr

structure MultisignatureOutput where
  keys : List PublicKey
  requiredSignatureCount : UInt8
  deriving DecidableEq, Repr

/-- `TransactionOutputTarget`, the variant `<KeyOutput, MultisignatureOutput>`. -/
inductive TransactionOutputTarget where
  | key (output : KeyOutput)
  | multisignature (output : MultisignatureOutput)
  deriving DecidableEq, Repr

structure TransactionOutput where
  amount : UInt64
  target : TransactionOutputTarget
  deriving DecidableEq, Repr

structure TransactionPrefix where
  version : UInt8
  unlockTime : UInt64
  inputs : List TransactionInput
  outputs : List TransactionOutput
  extra : List UInt8
  deriving DecidableEq, Repr

structure Transaction extends TransactionPrefix where
  signatures : List (List Signature)
  deriving DecidableEq, Repr

structure ParentBlock where
  majorVersion : UInt8
  minorVersion : UInt8
  previousBlockHash : Hash
  transactionCount : UInt16
  baseTransactionBranch : List Hash
  baseTransaction : Transaction
  blockchainBranch : List Hash
  deriving DecidableEq, Repr

structure BlockHeader where
  majorVersion : UInt8
  minorVersion : UInt8
  nonce : UInt32
  timestamp : UInt64
  previousBlockHash : Hash
  deriving DecidableEq, Repr

structure Block extends BlockHeader where
  parentBlock : ParentBlock
  baseTransaction : Transaction
  transactionHashes : List Hash
  deriving DecidableEq, Repr

def BLOCK_MAJOR_VERSION_1 : UInt8 := 1
def BLOCK_MAJOR_VERSION_2 : UInt8 := 2
def BLOCK_MAJOR_VERSION_3 : UInt8 := 3
def BLOCK_MAJOR_VERSION_4 : UInt8 := 4

def CURRENT_TRANSACTION_VERSION : UInt8 := 1

/-- `getSignaturesCount`: how many signatures an input carries. -/
def getSignaturesCount : TransactionInput → Nat
  | .base _ => 0
  | .key input => input.outputIndexes.length
  | .multisignature input => input.signatureCount.toNat

/-- The amount an input spends, zero for the coinbase input (`getTransactionInputAmount`). -/
def getTransactionInputAmount : TransactionInput → UInt64
  | .base _ => 0
  | .key input => input.amount
  | .multisignature input => input.amount

def getInputAmount (transaction : Transaction) : UInt64 :=
  transaction.inputs.foldl (fun sum input => sum + getTransactionInputAmount input) 0

def getOutputAmount (transaction : Transaction) : UInt64 :=
  transaction.outputs.foldl (fun sum output => sum + output.amount) 0

end Dynex
