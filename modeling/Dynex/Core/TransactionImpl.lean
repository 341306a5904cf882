import Dynex.Core.DynexCNSerialization
import Dynex.Core.NonPrivacy
import Dynex.Core.OutputOffsets

/-!
# Transactions under construction

`TransactionImpl` of `DynexCNCore/Transaction.cpp`, the `ITransaction` a wallet builds a
transaction through. Besides the transaction it keeps two caches: the transaction's hash, which
`getTransactionHash` fills and `invalidateHash` clears, and the parsed extra (`TransactionExtra`
of `TransactionApiExtra.h`), which the readers of the public key and of the payment id consult.

A method is a computation in `EStateM String TransactionImpl`: it returns, or throws a
`std::runtime_error` with its message, and either way the object keeps what the method changed
before it threw. The crypto the methods call is uninterpreted (`TransactionCrypto`).
-/

set_option autoImplicit false

namespace Dynex

open Codec Crypto

structure KeyPair where
  publicKey : PublicKey
  secretKey : SecretKey
  deriving DecidableEq, Repr

structure AccountKeys where
  address : AccountPublicAddress
  spendSecretKey : SecretKey
  viewSecretKey : SecretKey
  deriving DecidableEq, Repr

def NULL_PUBLIC_KEY : PublicKey := ⟨Pod.zero 32⟩

namespace TransactionTypes

inductive InputType where
  | Invalid
  | Key
  | Multisignature
  | Generating
  deriving DecidableEq, Repr

structure GlobalOutput where
  targetKey : PublicKey
  outputIndex : UInt32
  deriving DecidableEq, Repr

structure OutputKeyInfo where
  transactionPublicKey : PublicKey
  transactionIndex : Nat
  outputInTransaction : Nat
  deriving DecidableEq, Repr

structure InputKeyInfo where
  amount : UInt64
  outputs : List GlobalOutput
  realOutput : OutputKeyInfo
  deriving DecidableEq, Repr

end TransactionTypes

open TransactionTypes

def getTransactionInputType : TransactionInput → InputType
  | .key _ => .Key
  | .multisignature _ => .Multisignature
  | .base _ => .Generating

/-! ## The parsed extra -/

/-- `TransactionExtra` of `TransactionApiExtra.h`: the fields of a parsed extra. -/
structure TransactionExtra where
  fields : List TransactionExtraField
  deriving DecidableEq, Repr

/-- The index of a field's alternative in the variant, what `find(typeid(T))` compares. -/
def TransactionExtraField.which : TransactionExtraField → Nat
  | .padding _ => 0
  | .publicKey _ => 1
  | .nonce _ => 2
  | .mergeTag _ => 3
  | .fromAddress _ => 4
  | .toAddress _ => 5
  | .amount _ => 6
  | .txkey _ => 7

def TransactionExtraField.publicKey? : TransactionExtraField → Option PublicKey
  | .publicKey key => some key
  | _ => none

/-- The fields of `set(value)`: the first field of the value's type replaced by the value, or the
value appended when there is none. -/
def setField (value : TransactionExtraField) :
    List TransactionExtraField → List TransactionExtraField
  | [] => [value]
  | field :: fields =>
      if field.which = value.which then value :: fields else field :: setField value fields

namespace TransactionExtra

def parse (extra : List UInt8) : Bool × TransactionExtra :=
  let parsed := parseTransactionExtra extra
  (parsed.1, ⟨parsed.2⟩)

def set (extra : TransactionExtra) (value : TransactionExtraField) : TransactionExtra :=
  ⟨setField value extra.fields⟩

def getPublicKey (extra : TransactionExtra) : Option PublicKey :=
  extra.fields.findSome? TransactionExtraField.publicKey?

def getNonce (extra : TransactionExtra) : Option (List UInt8) :=
  extra.fields.findSome? TransactionExtraField.nonce?

def serialize (extra : TransactionExtra) : List UInt8 :=
  (writeTransactionExtra [] extra.fields).2

end TransactionExtra

def setPaymentIdToTransactionExtraNonce (payment_id : Hash) : List UInt8 :=
  TX_EXTRA_NONCE_PAYMENT_ID :: payment_id.pod.bytes

/-! ## The object and its methods -/

/-- The functions of the crypto library the methods call, uninterpreted, and the bytes an
uninitialised `SecretKey` holds. -/
structure TransactionCrypto where
  cn_fast_hash : List UInt8 → Hash
  generate_key_derivation : PublicKey → SecretKey → KeyDerivation
  derive_public_key : KeyDerivation → Nat → PublicKey → PublicKey
  derive_secret_key : KeyDerivation → Nat → SecretKey → SecretKey
  generate_key_image_helper : AccountKeys → PublicKey → Nat → KeyPair × KeyImage
  generate_ring_signature :
    Hash → KeyImage → List PublicKey → SecretKey → Nat → List Signature
  generate_signature : Hash → PublicKey → SecretKey → Signature
  uninitializedSecretKey : SecretKey

structure TransactionImpl where
  transaction : Transaction
  secretKey : Option SecretKey
  transactionHash : Option Hash
  extra : TransactionExtra

variable (crypto : TransactionCrypto)

/-- `getObjectHash(object)`: `cn_fast_hash` of the object's bytes, or `NULL_HASH` when its
serializer throws. -/
def getObjectHash {T : Type} (write : T → Written) (object : T) : Hash :=
  match toBinaryArray write object with
  | some binaryArray => crypto.cn_fast_hash binaryArray
  | none => NULL_HASH

/-- The anonymous `derivePublicKey(to, txKey, outputIndex, ephemeralKey)` of `Transaction.cpp`,
with `to` as `destination`. -/
def derivePublicKey (destination : AccountPublicAddress) (txKey : SecretKey)
    (outputIndex : Nat) : PublicKey :=
  crypto.derive_public_key (crypto.generate_key_derivation destination.viewPublicKey txKey)
    outputIndex destination.spendPublicKey

namespace TransactionImpl

abbrev Method (α : Type) := EStateM String TransactionImpl α

/-- `TransactionImpl()`, given the key pair `generateKeyPair()` made: an empty transaction whose
extra holds the public key. -/
def create (txKeys : KeyPair) : TransactionImpl :=
  let extra := TransactionExtra.set ⟨[]⟩ (.publicKey txKeys.publicKey)
  { transaction :=
      { version := CURRENT_TRANSACTION_VERSION, unlockTime := 0, inputs := [], outputs := [],
        extra := extra.serialize, signatures := [] }
    secretKey := some txKeys.secretKey
    transactionHash := none
    extra }

def emptyTransaction : Transaction :=
  { version := 0, unlockTime := 0, inputs := [], outputs := [], extra := [], signatures := [] }

/-- `TransactionImpl(ba)`: the transaction read from the blob, which must be read whole; the
blob's hash is kept as the transaction's. -/
def ofBinaryArray (ba : List UInt8) : Except String TransactionImpl :=
  match fromBinaryArray readTransaction emptyTransaction ba with
  | none => .error "Invalid transaction data"
  | some transaction =>
      .ok { transaction, secretKey := none, transactionHash := some (crypto.cn_fast_hash ba),
            extra := (TransactionExtra.parse transaction.extra).2 }

def ofTransaction (tx : Transaction) : TransactionImpl :=
  { transaction := tx, secretKey := none, transactionHash := none,
    extra := (TransactionExtra.parse tx.extra).2 }

def checkIfSigning : Method Unit := do
  if !(← get).transaction.signatures.isEmpty then
    throw "Cannot perform requested operation, since it will invalidate transaction signatures"

def invalidateHash : Method Unit :=
  modify fun impl => { impl with transactionHash := none }

def modifyTransaction (change : Transaction → Transaction) : Method Unit :=
  modify fun impl => { impl with transaction := change impl.transaction }

def getTransactionHash : Method Hash := do
  let impl ← get
  match impl.transactionHash with
  | some hash => pure hash
  | none =>
      let hash := getObjectHash crypto writeTransaction impl.transaction
      set { impl with transactionHash := some hash }
      pure hash

def getTransactionPrefixHash (impl : TransactionImpl) : Hash :=
  getObjectHash crypto writeTransactionPrefix impl.transaction.toTransactionPrefix

def getTransactionPublicKey (impl : TransactionImpl) : PublicKey :=
  impl.extra.getPublicKey.getD NULL_PUBLIC_KEY

def getExtraNonce (impl : TransactionImpl) : Option (List UInt8) :=
  impl.extra.getNonce

def getPaymentId (impl : TransactionImpl) : Option Hash :=
  impl.getExtraNonce.bind getPaymentIdFromTransactionExtraNonce

def getExtra (impl : TransactionImpl) : List UInt8 :=
  impl.transaction.extra

def txSecretKey : Method SecretKey := do
  match (← get).secretKey with
  | some key => pure key
  | none => throw "Operation requires transaction secret key"

def setUnlockTime (unlockTime : UInt64) : Method Unit := do
  checkIfSigning
  modifyTransaction fun transaction => { transaction with unlockTime }
  invalidateHash

/-! ### Inputs and outputs -/

/-- `addInput(input)` for a key input or a multisignature input: the input appended, its index
returned. -/
def addInput (input : TransactionInput) : Method Nat := do
  checkIfSigning
  modifyTransaction fun transaction => { transaction with inputs := transaction.inputs ++ [input] }
  invalidateHash
  pure ((← get).transaction.inputs.length - 1)

def addKeyInput (input : KeyInput) : Method Nat :=
  addInput (.key input)

def addMultisignatureInput (input : MultisignatureInput) : Method Nat :=
  addInput (.multisignature input)

/-- `addInput(senderKeys, info, ephKeys)`: a key input spending the real output, with the key
image `generate_key_image_helper` makes and the ring's output indexes made relative; the
ephemeral keys are returned with the index. -/
def addInputFromKeys (senderKeys : AccountKeys) (info : InputKeyInfo) :
    Method (Nat × KeyPair) := do
  checkIfSigning
  let generated := crypto.generate_key_image_helper senderKeys info.realOutput.transactionPublicKey
    info.realOutput.outputInTransaction
  let input : KeyInput :=
    { amount := info.amount, keyImage := generated.2,
      outputIndexes :=
        absolute_output_offsets_to_relative (info.outputs.map fun output => output.outputIndex) }
  let index ← addKeyInput input
  pure (index, generated.1)

/-- The output appended, the hash invalidated. -/
def pushOutput (output : TransactionOutput) : Method Unit := do
  modifyTransaction fun transaction =>
    { transaction with outputs := transaction.outputs ++ [output] }
  invalidateHash

/-- `addOutput(amount, to)`: a key output to the key derived for the destination at the
output's index. -/
def addOutputToAddress (amount : UInt64) (destination : AccountPublicAddress) : Method Nat := do
  checkIfSigning
  let txKey ← txSecretKey
  let key := derivePublicKey crypto destination txKey (← get).transaction.outputs.length
  pushOutput ⟨amount, .key ⟨key⟩⟩
  pure ((← get).transaction.outputs.length - 1)

/-- `addOutput(amount, to, requiredSignatures)`: a multisignature output to the keys derived for
each address at the output's index. -/
def addOutputToAddresses (amount : UInt64) (destinations : List AccountPublicAddress)
    (requiredSignatures : UInt32) : Method Nat := do
  checkIfSigning
  let txKey ← txSecretKey
  let outputIndex := (← get).transaction.outputs.length
  let keys := destinations.map fun address => derivePublicKey crypto address txKey outputIndex
  pushOutput ⟨amount, .multisignature ⟨keys, requiredSignatures.toUInt8⟩⟩
  pure outputIndex

/-- `addOutput(amount, out)` for a key output or a multisignature output: the output as given. -/
def addOutput (amount : UInt64) (target : TransactionOutputTarget) : Method Nat := do
  checkIfSigning
  let outputIndex := (← get).transaction.outputs.length
  pushOutput ⟨amount, target⟩
  pure outputIndex

def addKeyOutput (amount : UInt64) (out : KeyOutput) : Method Nat :=
  addOutput amount (.key out)

def addMultisignatureOutput (amount : UInt64) (out : MultisignatureOutput) : Method Nat :=
  addOutput amount (.multisignature out)

/-! ### Signatures -/

/-- `getInputChecked(transaction, index, type)`. -/
def getInputChecked (index : Nat) (type : InputType) : Method TransactionInput := do
  match (← get).transaction.inputs[index]? with
  | none => throw "Transaction input index out of range"
  | some input =>
      if getTransactionInputType input ≠ type then throw "Unexpected transaction input type"
      else pure input

/-- The signature lists grown to one per input when there are fewer: the `resize` that
`getSignatures` makes if needed. -/
def growSignatures (transaction : Transaction) : Transaction :=
  if transaction.signatures.length < transaction.inputs.length then
    { transaction with signatures := resize [] transaction.signatures transaction.inputs.length }
  else transaction

/-- `getSignatures(input)`, with what the caller then does to the list it returns: the signature
lists are first grown to one per input, and an index past them throws. -/
def getSignatures (input : Nat) (change : List Signature → List Signature) : Method Unit := do
  modifyTransaction growSignatures
  if input ≥ (← get).transaction.signatures.length then throw "Invalid input index"
  modifyTransaction fun transaction =>
    { transaction with signatures := transaction.signatures.modify input change }

def signInputKey (index : Nat) (info : InputKeyInfo) (ephKeys : KeyPair) : Method Unit := do
  match ← getInputChecked index .Key with
  | .key input =>
      let prefixHash := getTransactionPrefixHash crypto (← get)
      let keys := info.outputs.map fun output => output.targetKey
      let signatures := crypto.generate_ring_signature prefixHash input.keyImage keys
        ephKeys.secretKey info.realOutput.transactionIndex
      getSignatures index fun _ => signatures
      invalidateHash
  | _ => throw "boost::bad_get"

def addSignature (index : Nat) (signature : Signature) : Method Unit := do
  getSignatures index fun signatures => signatures ++ [signature]
  invalidateHash

/-- `signInputMultisignature(index, sourceTransactionKey, outputIndex, accountKeys)`: signed with
the ephemeral keys of the output the account received. -/
def signInputMultisignatureFromKeys (index : Nat) (sourceTransactionKey : PublicKey)
    (outputIndex : Nat) (accountKeys : AccountKeys) : Method Unit := do
  let derivation := crypto.generate_key_derivation sourceTransactionKey accountKeys.viewSecretKey
  let ephemeralPublicKey :=
    crypto.derive_public_key derivation outputIndex accountKeys.address.spendPublicKey
  let ephemeralSecretKey :=
    crypto.derive_secret_key derivation outputIndex accountKeys.spendSecretKey
  let txPrefixHash := getTransactionPrefixHash crypto (← get)
  addSignature index (crypto.generate_signature txPrefixHash ephemeralPublicKey ephemeralSecretKey)

/-- `signInputMultisignature(index, ephemeralKeys)`. -/
def signInputMultisignature (index : Nat) (ephemeralKeys : KeyPair) : Method Unit := do
  let txPrefixHash := getTransactionPrefixHash crypto (← get)
  addSignature index
    (crypto.generate_signature txPrefixHash ephemeralKeys.publicKey ephemeralKeys.secretKey)

/-! ### The extra -/

/-- `setExtraNonce(nonce)`: the nonce set in the parsed extra, and the transaction's extra
written again from the parsed fields. -/
def setExtraNonce (nonce : List UInt8) : Method Unit := do
  checkIfSigning
  modify fun impl =>
    let extra := impl.extra.set (.nonce nonce)
    { impl with extra, transaction := { impl.transaction with extra := extra.serialize } }
  invalidateHash

def setPaymentId (hash : Hash) : Method Unit := do
  checkIfSigning
  setExtraNonce (setPaymentIdToTransactionExtraNonce hash)

/-- `appendExtra(extraData)`: the bytes appended to the transaction's extra, then a tx-key field
of the secret key, or of what the uninitialised `tx_key` holds when there is none. -/
def appendExtra (extraData : List UInt8) : Method Unit := do
  checkIfSigning
  modifyTransaction fun transaction => { transaction with extra := transaction.extra ++ extraData }
  let tx_key := (← get).secretKey.getD crypto.uninitializedSecretKey
  modifyTransaction fun transaction =>
    { transaction with extra := addTxkeyToExtra transaction.extra tx_key }

/-! ## Calls in sequence -/

/-- The object after a call, whether the call returned or threw. -/
def afterCall {α : Type} (method : Method α) (impl : TransactionImpl) : TransactionImpl :=
  match method.run impl with
  | .ok _ after => after
  | .error _ after => after

end TransactionImpl

/-- A call of a method of `ITransaction` that may change the object. -/
inductive TransactionCall where
  | addKeyInput (input : KeyInput)
  | addMultisignatureInput (input : MultisignatureInput)
  | addInputFromKeys (senderKeys : AccountKeys) (info : InputKeyInfo)
  | addOutputToAddress (amount : UInt64) (destination : AccountPublicAddress)
  | addOutputToAddresses (amount : UInt64) (destinations : List AccountPublicAddress)
      (requiredSignatures : UInt32)
  | addKeyOutput (amount : UInt64) (out : KeyOutput)
  | addMultisignatureOutput (amount : UInt64) (out : MultisignatureOutput)
  | setUnlockTime (unlockTime : UInt64)
  | setPaymentId (hash : Hash)
  | setExtraNonce (nonce : List UInt8)
  | appendExtra (extraData : List UInt8)
  | signInputKey (index : Nat) (info : InputKeyInfo) (ephKeys : KeyPair)
  | signInputMultisignatureFromKeys (index : Nat) (sourceTransactionKey : PublicKey)
      (outputIndex : Nat) (accountKeys : AccountKeys)
  | signInputMultisignature (index : Nat) (ephemeralKeys : KeyPair)
  | getTransactionHash

namespace TransactionCall

open TransactionImpl

/-- The object after the call. -/
def apply : TransactionCall → TransactionImpl → TransactionImpl
  | .addKeyInput input => afterCall (TransactionImpl.addKeyInput input)
  | .addMultisignatureInput input => afterCall (TransactionImpl.addMultisignatureInput input)
  | .addInputFromKeys senderKeys info =>
      afterCall (TransactionImpl.addInputFromKeys crypto senderKeys info)
  | .addOutputToAddress amount destination =>
      afterCall (TransactionImpl.addOutputToAddress crypto amount destination)
  | .addOutputToAddresses amount destinations requiredSignatures =>
      afterCall (TransactionImpl.addOutputToAddresses crypto amount destinations requiredSignatures)
  | .addKeyOutput amount out => afterCall (TransactionImpl.addKeyOutput amount out)
  | .addMultisignatureOutput amount out =>
      afterCall (TransactionImpl.addMultisignatureOutput amount out)
  | .setUnlockTime unlockTime => afterCall (TransactionImpl.setUnlockTime unlockTime)
  | .setPaymentId hash => afterCall (TransactionImpl.setPaymentId hash)
  | .setExtraNonce nonce => afterCall (TransactionImpl.setExtraNonce nonce)
  | .appendExtra extraData => afterCall (TransactionImpl.appendExtra crypto extraData)
  | .signInputKey index info ephKeys =>
      afterCall (TransactionImpl.signInputKey crypto index info ephKeys)
  | .signInputMultisignatureFromKeys index sourceTransactionKey outputIndex accountKeys =>
      afterCall (TransactionImpl.signInputMultisignatureFromKeys crypto index sourceTransactionKey
        outputIndex accountKeys)
  | .signInputMultisignature index ephemeralKeys =>
      afterCall (TransactionImpl.signInputMultisignature crypto index ephemeralKeys)
  | .getTransactionHash => afterCall (TransactionImpl.getTransactionHash crypto)

def applyAll (calls : List TransactionCall) (impl : TransactionImpl) : TransactionImpl :=
  calls.foldl (fun impl call => call.apply crypto impl) impl

end TransactionCall

end Dynex
