import Dynex.Core.Basic
import Dynex.Core.TransactionExtra

/-!
# Binary serialization of transactions and blocks

The `serialize` overloads of `DynexCNSerialization.cpp` over the binary serializers, as one
reader and one writer per type. A reader deserialises into an object it is given, as the source
does: the signatures of a coinbase transaction, the timestamp and nonce of a merge-mined header
until the parent block is read, and the parent block of a block that has none on the wire keep
the values the object held. A writer fails where the output serializer throws.
-/

set_option autoImplicit false

namespace Dynex

open Codec Common Crypto

/-- `tree_depth` of `crypto/tree-hash.c`: the binary logarithm of `count`, found by halving the
shift from 32. -/
def treeDepthLoop : List Nat → Nat → Nat → Nat
  | [], _, depth => depth
  | shift :: later, count, depth =>
      if count >>> shift > 0 then treeDepthLoop later (count >>> shift) (depth + shift)
      else treeDepthLoop later count depth

def tree_depth (count : Nat) : Nat := treeDepthLoop [32, 16, 8, 4, 2, 1] count 0

def resize {α : Type} (default : α) (values : List α) (size : Nat) : List α :=
  values.take size ++ List.replicate (size - values.length) default

@[simp] theorem length_resize {α : Type} (default : α) (values : List α) (size : Nat) :
    (resize default values size).length = size := by
  simp only [resize, List.length_append, List.length_take, List.length_replicate]
  omega

/-! ## Inputs and outputs -/

def readBaseInput : Reader BaseInput := BaseInput.mk <$> uint32.read

def writeBaseInput (input : BaseInput) : Written := pure (uint32.write input.blockIndex)

/-- `serialize(KeyInput&)`; the output indexes go through `serializeVarintVector`. -/
def readKeyInput : Reader KeyInput := do
  let amount ← uint64.read
  let outputIndexes ← readContainer uint32.read
  let keyImage ← readKeyImage
  pure ⟨amount, outputIndexes, keyImage⟩

def writeKeyInput (input : KeyInput) : Written := do
  let outputIndexes ← writeContainer (fun index => pure (uint32.write index)) input.outputIndexes
  pure (uint64.write input.amount ++ outputIndexes ++ input.keyImage.pod.bytes)

def readMultisignatureInput : Reader MultisignatureInput := do
  let amount ← uint64.read
  let signatureCount ← uint8.read
  let outputIndex ← uint32.read
  pure ⟨amount, signatureCount, outputIndex⟩

def writeMultisignatureInput (input : MultisignatureInput) : Written :=
  pure (uint64.write input.amount ++ uint8.write input.signatureCount ++ uint32.write input.outputIndex)

/-- `serialize(TransactionInput&)` on input: a raw tag byte, then the alternative it names
(`getVariantValue`). -/
def readTransactionInput : Reader TransactionInput := do
  let tag ← readByte
  if tag = 0xff then .base <$> readBaseInput
  else if tag = 0x2 then .key <$> readKeyInput
  else if tag = 0x3 then .multisignature <$> readMultisignatureInput
  else Reader.fail "Unknown variant tag"

/-- `serialize(TransactionInput&)` on output: the tag of `BinaryVariantTagGetter`, then the
alternative. -/
def writeTransactionInput : TransactionInput → Written
  | .base input => do
      let body ← writeBaseInput input
      pure (0xff :: body)
  | .key input => do
      let body ← writeKeyInput input
      pure (0x2 :: body)
  | .multisignature input => do
      let body ← writeMultisignatureInput input
      pure (0x3 :: body)

def readKeyOutput : Reader KeyOutput := KeyOutput.mk <$> readPublicKey

def writeKeyOutput (output : KeyOutput) : Written := pure output.key.pod.bytes

def readMultisignatureOutput : Reader MultisignatureOutput := do
  let keys ← readContainer readPublicKey
  let requiredSignatureCount ← uint8.read
  pure ⟨keys, requiredSignatureCount⟩

def writeMultisignatureOutput (output : MultisignatureOutput) : Written := do
  let keys ← writeContainer (fun key => pure key.pod.bytes) output.keys
  pure (keys ++ uint8.write output.requiredSignatureCount)

def readTransactionOutputTarget : Reader TransactionOutputTarget := do
  let tag ← readByte
  if tag = 0x2 then .key <$> readKeyOutput
  else if tag = 0x3 then .multisignature <$> readMultisignatureOutput
  else Reader.fail "Unknown variant tag"

def writeTransactionOutputTarget : TransactionOutputTarget → Written
  | .key output => do
      let body ← writeKeyOutput output
      pure (0x2 :: body)
  | .multisignature output => do
      let body ← writeMultisignatureOutput output
      pure (0x3 :: body)

def readTransactionOutput : Reader TransactionOutput := do
  let amount ← uint64.read
  let target ← readTransactionOutputTarget
  pure ⟨amount, target⟩

def writeTransactionOutput (output : TransactionOutput) : Written := do
  let target ← writeTransactionOutputTarget output.target
  pure (uint64.write output.amount ++ target)

/-! ## Transactions -/

/-- `serialize(TransactionPrefix&)` on input; the extra blob goes through `serializeAsBinary`. -/
def readTransactionPrefix : Reader TransactionPrefix := do
  let version ← uint8.read
  if CURRENT_TRANSACTION_VERSION < version then Reader.fail "Wrong transaction version"
  let unlockTime ← uint64.read
  let inputs ← readContainer readTransactionInput
  let outputs ← readContainer readTransactionOutput
  let extra ← readString
  pure ⟨version, unlockTime, inputs, outputs, extra⟩

def writeTransactionPrefix (transaction : TransactionPrefix) : Written := do
  if CURRENT_TRANSACTION_VERSION < transaction.version then throw "Wrong transaction version"
  let inputs ← writeContainer writeTransactionInput transaction.inputs
  let outputs ← writeContainer writeTransactionOutput transaction.outputs
  pure (uint8.write transaction.version ++ uint64.write transaction.unlockTime ++ inputs ++ outputs ++
    writeString transaction.extra)

def isBaseInput : TransactionInput → Bool
  | .base _ => true
  | _ => false

def isCoinbaseInputs : List TransactionInput → Bool
  | [input] => isBaseInput input
  | _ => false

def noSignaturesRequired (inputs : List TransactionInput) : Bool :=
  inputs.all fun input => getSignaturesCount input == 0

/-- The signatures of each input in turn, `getSignaturesCount` of them each. -/
def readSignatureLists : List TransactionInput → Reader (List (List Signature))
  | [] => pure []
  | input :: later => do
      let signatures ← readMany readSignature (getSignaturesCount input)
      let rest ← readSignatureLists later
      pure (signatures :: rest)

def writeSignatureLists : List TransactionInput → List (List Signature) → Written
  | input :: later, signatures :: rest =>
      if getSignaturesCount input != signatures.length then
        throw "Serialization error: unexpected signatures size"
      else do
        let tail ← writeSignatureLists later rest
        pure (signatures.flatMap (fun signature => signature.pod.bytes) ++ tail)
  | _, _ => pure []

/-- `serialize(Transaction&)` on input, into `object`: the signature vector is resized to the
inputs unless the transaction is a coinbase; an empty vector means no signatures are expected,
and then no input may require one. -/
def readTransaction (object : Transaction) : Reader Transaction := do
  let transaction ← readTransactionPrefix
  let inputs := transaction.inputs
  let signatures :=
    if isCoinbaseInputs inputs then object.signatures else resize [] object.signatures inputs.length
  if signatures.isEmpty then
    if noSignaturesRequired inputs then pure { transaction with signatures }
    else Reader.fail "Serialization error: signatures are not expected"
  else if inputs.length != signatures.length then
    Reader.fail "Serialization error: unexpected signatures size"
  else do
    let signatures ← readSignatureLists inputs
    pure { transaction with signatures }

/-- `serialize(Transaction&)` on output. -/
def writeTransaction (transaction : Transaction) : Written := do
  let head ← writeTransactionPrefix transaction.toTransactionPrefix
  if transaction.signatures.isEmpty then
    if noSignaturesRequired transaction.inputs then pure head
    else throw "Serialization error: signatures are not expected"
  else if transaction.inputs.length != transaction.signatures.length then
    throw "Serialization error: unexpected signatures size"
  else do
    let signatures ← writeSignatureLists transaction.inputs transaction.signatures
    pure (head ++ signatures)

/-! ## Blocks -/

def nonceBytes (nonce : UInt32) : List UInt8 :=
  [nonce.toNat.toUInt8, (nonce.toNat / 2 ^ 8).toUInt8, (nonce.toNat / 2 ^ 16).toUInt8,
    (nonce.toNat / 2 ^ 24).toUInt8]

def readNonce : Reader UInt32 := do
  let bytes ← read 4
  pure (bytes.foldr (fun (byte : UInt8) (value : Nat) => byte.toNat + 2 ^ 8 * value) 0).toUInt32

/-- `serializeBlockHeader` on input, into the header the object held. Versions 2 and 3 carry
their timestamp and nonce in the parent block. -/
def readBlockHeader (object : BlockHeader) : Reader BlockHeader := do
  let majorVersion ← uint8.read
  if majorVersion > BLOCK_MAJOR_VERSION_4 then Reader.fail "Wrong major version"
  let minorVersion ← uint8.read
  if majorVersion = BLOCK_MAJOR_VERSION_2 ∨ majorVersion = BLOCK_MAJOR_VERSION_3 then do
    let previousBlockHash ← readHash
    pure { object with majorVersion, minorVersion, previousBlockHash }
  else if majorVersion = BLOCK_MAJOR_VERSION_1 ∨ majorVersion ≥ BLOCK_MAJOR_VERSION_4 then do
    let timestamp ← uint64.read
    let previousBlockHash ← readHash
    let nonce ← readNonce
    pure ⟨majorVersion, minorVersion, nonce, timestamp, previousBlockHash⟩
  else Reader.fail "Wrong major version"

def writeBlockHeader (header : BlockHeader) : Written := do
  if header.majorVersion > BLOCK_MAJOR_VERSION_4 then throw "Wrong major version"
  let versions := uint8.write header.majorVersion ++ uint8.write header.minorVersion
  if header.majorVersion = BLOCK_MAJOR_VERSION_2 ∨ header.majorVersion = BLOCK_MAJOR_VERSION_3 then
    pure (versions ++ header.previousBlockHash.pod.bytes)
  else if header.majorVersion = BLOCK_MAJOR_VERSION_1 ∨ header.majorVersion ≥ BLOCK_MAJOR_VERSION_4 then
    pure (versions ++ uint64.write header.timestamp ++ header.previousBlockHash.pod.bytes ++
      nonceBytes header.nonce)
  else throw "Wrong major version"

/-- `serialize(ParentBlockSerializer&)` on input, neither hashing nor header only: the parent
block, and the block's own timestamp and nonce. `numberOfTransactions` is read as 64 bits and
truncated to the parent's 16-bit `transactionCount`. -/
def readParentBlockSerializer (object : Block) : Reader Block := do
  let majorVersion ← uint8.read
  let minorVersion ← uint8.read
  let timestamp ← uint64.read
  let previousBlockHash ← readHash
  let nonce ← readNonce
  let txNum ← uint64.read
  let transactionCount := txNum.toUInt16
  if transactionCount < 1 then Reader.fail "Wrong transactions number"
  let baseTransactionBranch ← readMany readHash (tree_depth transactionCount.toNat)
  let baseTransaction ← readTransaction object.parentBlock.baseTransaction
  match getMergeMiningTagFromExtra baseTransaction.extra with
  | none => Reader.fail "Can't get extra merge tag"
  | some mmTag =>
      if mmTag.depth > 8 * 32 then Reader.fail "Wrong merge tag depth"
      let blockchainBranch ← readMany readHash mmTag.depth
      pure { object with
        timestamp := timestamp
        nonce := nonce
        parentBlock := ⟨majorVersion, minorVersion, previousBlockHash, transactionCount,
          baseTransactionBranch, baseTransaction, blockchainBranch⟩ }

/-- `serialize(ParentBlockSerializer&)` on output, with `txNum` written as
`numberOfTransactions`; the source writes the parent's `transactionCount`
(`writeParentBlockSerializer`). As on input, the count is then set to `uint16_t(txNum)`. -/
def writeParentBlockSerializerWith (txNum : UInt64) (block : Block) : Written := do
  let parent := block.parentBlock
  let transactionCount := txNum.toUInt16
  if transactionCount < 1 then throw "Wrong transactions number"
  if parent.baseTransactionBranch.length != tree_depth transactionCount.toNat then
    throw "Wrong coinbase transaction branch size"
  let baseTransaction ← writeTransaction parent.baseTransaction
  match getMergeMiningTagFromExtra parent.baseTransaction.extra with
  | none => throw "Can't get extra merge tag"
  | some mmTag =>
      if mmTag.depth > 8 * 32 then throw "Wrong merge tag depth"
      if mmTag.depth != parent.blockchainBranch.length then
        throw "Blockchain branch size must be equal to merge tag depth"
      pure (uint8.write parent.majorVersion ++ uint8.write parent.minorVersion ++
        uint64.write block.timestamp ++ parent.previousBlockHash.pod.bytes ++ nonceBytes block.nonce ++
        uint64.write txNum ++ parent.baseTransactionBranch.flatMap (fun hash => hash.pod.bytes) ++
        baseTransaction ++ parent.blockchainBranch.flatMap (fun hash => hash.pod.bytes))

def writeParentBlockSerializer (block : Block) : Written :=
  writeParentBlockSerializerWith block.parentBlock.transactionCount.toUInt64 block

def isMergeMined (majorVersion : UInt8) : Bool :=
  majorVersion = BLOCK_MAJOR_VERSION_2 ∨ majorVersion = BLOCK_MAJOR_VERSION_3

/-- `serialize(Block&)` on input, into `object`. -/
def readBlock (object : Block) : Reader Block := do
  let header ← readBlockHeader object.toBlockHeader
  let block ← if isMergeMined header.majorVersion then
      readParentBlockSerializer { object with toBlockHeader := header }
    else pure { object with toBlockHeader := header }
  let baseTransaction ← readTransaction object.baseTransaction
  let transactionHashes ← readContainer readHash
  pure { block with baseTransaction, transactionHashes }

/-- `serialize(Block&)` on output, writing `txNum` as the parent's `numberOfTransactions`. -/
def writeBlockWith (txNum : UInt64) (block : Block) : Written := do
  let header ← writeBlockHeader block.toBlockHeader
  let parent ← if isMergeMined block.majorVersion then writeParentBlockSerializerWith txNum block
    else pure []
  let baseTransaction ← writeTransaction block.baseTransaction
  let transactionHashes ← writeContainer (fun hash => pure hash.pod.bytes) block.transactionHashes
  pure (header ++ parent ++ baseTransaction ++ transactionHashes)

def writeBlock (block : Block) : Written :=
  writeBlockWith block.parentBlock.transactionCount.toUInt64 block

/-! ## Whole blobs -/

/-- `toBinaryArray`: the bytes of a value, `none` when its serializer throws. -/
def toBinaryArray {T : Type} (write : T → Written) (object : T) : Option (List UInt8) :=
  match write object with
  | .ok bytes => some bytes
  | .error _ => none

/-- `fromBinaryArray`: the value deserialised into `object`, when no exception was thrown and the
whole blob was read (`stream.endOfStream()`). -/
def fromBinaryArray {T : Type} (read : T → Reader T) (object : T) (binaryArray : List UInt8) :
    Option T :=
  match read object binaryArray with
  | .ok (value, rest) => if rest.isEmpty then some value else none
  | .error _ => none

end Dynex
