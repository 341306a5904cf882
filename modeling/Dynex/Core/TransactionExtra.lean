import Dynex.Serialization.BinarySerializer

/-!
# The extra field of a transaction

`parseTransactionExtra` reads tagged fields from the `extra` blob until the blob ends. A field it
cannot read ends the parse with `false` but keeps the fields read before it, which is what
`getMergeMiningTagFromExtra` then searches: it ignores the result flag.
-/

set_option autoImplicit false

namespace Dynex

open Codec Common Crypto

structure AccountPublicAddress where
  spendPublicKey : PublicKey
  viewPublicKey : PublicKey
  deriving DecidableEq, Repr

structure TransactionExtraMergeTag where
  depth : Nat
  merkleRoot : Hash
  deriving DecidableEq, Repr

/-- `TransactionExtraField`, the variant of the eight field structures. -/
inductive TransactionExtraField where
  | padding (size : Nat)
  | publicKey (publicKey : PublicKey)
  | nonce (nonce : List UInt8)
  | mergeTag (tag : TransactionExtraMergeTag)
  | fromAddress (address : AccountPublicAddress)
  | toAddress (address : AccountPublicAddress)
  | amount (amount : List UInt8)
  | txkey (txKey : SecretKey)
  deriving DecidableEq, Repr

def TX_EXTRA_PADDING_MAX_COUNT : Nat := 255

def TX_EXTRA_TAG_PADDING : UInt8 := 0x00
def TX_EXTRA_TAG_PUBKEY : UInt8 := 0x01
def TX_EXTRA_NONCE : UInt8 := 0x02
def TX_EXTRA_MERGE_MINING_TAG : UInt8 := 0x03
def TX_EXTRA_FROM_ADDRESS : UInt8 := 0x04
def TX_EXTRA_TO_ADDRESS : UInt8 := 0x05
def TX_EXTRA_AMOUNT : UInt8 := 0x06
def TX_EXTRA_TXKEY : UInt8 := 0x07

/-- `doSerialize(TransactionExtraMergeTag&)` on input: the depth as a 64-bit varint, then the
merkle root. -/
def readMergeTagBody : Reader TransactionExtraMergeTag := do
  let depth ← readVarint 64
  let merkleRoot ← readHash
  pure ⟨depth, merkleRoot⟩

/-- `serialize(TransactionExtraMergeTag&)` on input: a string, whose bytes `doSerialize` reads
from a stream of their own. Bytes of the string after the merkle root are not looked at. -/
def readMergeTag : Reader TransactionExtraMergeTag := fun input =>
  match readString input with
  | .error message => .error message
  | .ok (field, rest) =>
      match readMergeTagBody field with
      | .error message => .error message
      | .ok (tag, _) => .ok (tag, rest)

/-- The padding loop: zero bytes up to the end of the blob, the tag byte included in `size`.
The loop stops at the end of the blob or past `TX_EXTRA_PADDING_MAX_COUNT` bytes; the second
way fails, as does a non-zero byte. -/
def readPaddingLoop : Nat → Reader Nat
  | size, [] =>
      if size > TX_EXTRA_PADDING_MAX_COUNT then .error "padding too long" else .ok (size, [])
  | size, byte :: rest =>
      if size ≤ TX_EXTRA_PADDING_MAX_COUNT then
        if byte ≠ 0 then .error "padding byte is not zero" else readPaddingLoop (size + 1) rest
      else .error "padding too long"

/-- The nonce field: a one-byte size that must not run past the end of the blob, then the bytes. -/
def readExtraNonce : Reader (List UInt8) := do
  let size ← readByte
  fun input =>
    if size.toNat > input.length then .error "nonce runs past the extra"
    else read size.toNat input

/-- The body of one field after its tag byte, the cases of the `switch` in
`parseTransactionExtra`. A tag the switch does not list reads nothing and adds no field. An
error stands for the parser's `return false`, whether the source returns it or throws. -/
def readExtraField (tag : UInt8) : Reader (Option TransactionExtraField) :=
  if tag = TX_EXTRA_TAG_PADDING then (some ∘ .padding) <$> readPaddingLoop 1
  else if tag = TX_EXTRA_TAG_PUBKEY then (some ∘ .publicKey) <$> readPublicKey
  else if tag = TX_EXTRA_NONCE then (some ∘ .nonce) <$> readExtraNonce
  else if tag = TX_EXTRA_MERGE_MINING_TAG then (some ∘ .mergeTag) <$> readMergeTag
  else if tag = TX_EXTRA_FROM_ADDRESS then do
    let spend ← readPublicKey
    let view ← readPublicKey
    pure (some (.fromAddress ⟨spend, view⟩))
  else if tag = TX_EXTRA_TO_ADDRESS then do
    let spend ← readPublicKey
    let view ← readPublicKey
    pure (some (.toAddress ⟨spend, view⟩))
  else if tag = TX_EXTRA_AMOUNT then (some ∘ .amount) <$> read 8
  else if tag = TX_EXTRA_TXKEY then (some ∘ .txkey ∘ SecretKey.mk) <$> readPod 32
  else pure none

/-- The `while (!iss.endOfStream())` loop, with the fields read so far. Every round reads the
tag byte, so `fuel` at the length of the blob never runs out first. -/
def parseTransactionExtraLoop :
    Nat → List TransactionExtraField → List UInt8 → Bool × List TransactionExtraField
  | _, fields, [] => (true, fields)
  | 0, fields, _ :: _ => (false, fields)
  | fuel + 1, fields, tag :: rest =>
      match readExtraField tag rest with
      | .error _ => (false, fields)
      | .ok (none, later) => parseTransactionExtraLoop fuel fields later
      | .ok (some field, later) => parseTransactionExtraLoop fuel (fields ++ [field]) later

def parseTransactionExtra (extra : List UInt8) : Bool × List TransactionExtraField :=
  if extra.isEmpty then (true, []) else parseTransactionExtraLoop extra.length [] extra

def findTransactionExtraFieldByType {T : Type} (select : TransactionExtraField → Option T)
    (fields : List TransactionExtraField) : Option T :=
  fields.findSome? select

def TransactionExtraField.mergeTag? : TransactionExtraField → Option TransactionExtraMergeTag
  | .mergeTag tag => some tag
  | _ => none

def getMergeMiningTagFromExtra (extra : List UInt8) : Option TransactionExtraMergeTag :=
  findTransactionExtraFieldByType TransactionExtraField.mergeTag? (parseTransactionExtra extra).2

def TransactionExtraField.nonce? : TransactionExtraField → Option (List UInt8)
  | .nonce bytes => some bytes
  | _ => none

/-- The address a `FromAddress` or a `ToAddress` field carries. -/
def TransactionExtraField.address? : TransactionExtraField → Option AccountPublicAddress
  | .fromAddress address => some address
  | .toAddress address => some address
  | _ => none

def TX_EXTRA_NONCE_PAYMENT_ID : UInt8 := 0x00

def TX_EXTRA_NONCE_MAX_COUNT : Nat := 255

/-! ## Writing the extra

Each `add...ToExtra` appends one field to `tx_extra`; the ones that can refuse a field return
`none` for their `false`, and leave `tx_extra` as it was. -/

def addTransactionPublicKeyToExtra (tx_extra : List UInt8) (tx_pub_key : PublicKey) :
    List UInt8 :=
  tx_extra ++ TX_EXTRA_TAG_PUBKEY :: tx_pub_key.pod.bytes

def addAddressToExtra (tag : UInt8) (tx_extra : List UInt8) (address : AccountPublicAddress) :
    List UInt8 :=
  tx_extra ++ tag :: (address.spendPublicKey.pod.bytes ++ address.viewPublicKey.pod.bytes)

def addFromAddressToExtra (tx_extra : List UInt8) (address : AccountPublicAddress) : List UInt8 :=
  addAddressToExtra TX_EXTRA_FROM_ADDRESS tx_extra address

def addToAddressToExtra (tx_extra : List UInt8) (address : AccountPublicAddress) : List UInt8 :=
  addAddressToExtra TX_EXTRA_TO_ADDRESS tx_extra address

def addTxkeyToExtra (tx_extra : List UInt8) (tx_key : SecretKey) : List UInt8 :=
  tx_extra ++ TX_EXTRA_TXKEY :: tx_key.pod.bytes

def addAmountToExtra (tx_extra amount : List UInt8) : Option (List UInt8) :=
  if amount.length ≠ 8 then none else some (tx_extra ++ TX_EXTRA_AMOUNT :: amount)

def addExtraNonceToTransactionExtra (tx_extra extra_nonce : List UInt8) : Option (List UInt8) :=
  if extra_nonce.length > TX_EXTRA_NONCE_MAX_COUNT then none
  else some (tx_extra ++ TX_EXTRA_NONCE :: extra_nonce.length.toUInt8 :: extra_nonce)

def writeMergeTag (mm_tag : TransactionExtraMergeTag) : List UInt8 :=
  writeString (writeVarint mm_tag.depth.toUInt64 ++ mm_tag.merkleRoot.pod.bytes)

def appendMergeMiningTagToExtra (tx_extra : List UInt8) (mm_tag : TransactionExtraMergeTag) :
    List UInt8 :=
  tx_extra ++ TX_EXTRA_MERGE_MINING_TAG :: writeMergeTag mm_tag

/-- `ExtraSerializerVisitor` on one field: `extra` with the field appended, or `none` for the
`false` it returns. A padding of `size` is `size` zero bytes, the first of them its tag. -/
def ExtraSerializerVisitor (extra : List UInt8) : TransactionExtraField → Option (List UInt8)
  | .padding size =>
      if size > TX_EXTRA_PADDING_MAX_COUNT then none else some (extra ++ List.replicate size 0)
  | .publicKey publicKey => some (addTransactionPublicKeyToExtra extra publicKey)
  | .nonce nonce => addExtraNonceToTransactionExtra extra nonce
  | .mergeTag tag => some (appendMergeMiningTagToExtra extra tag)
  | .fromAddress address => some (addFromAddressToExtra extra address)
  | .toAddress address => some (addToAddressToExtra extra address)
  | .amount amount => addAmountToExtra extra amount
  | .txkey txKey => some (addTxkeyToExtra extra txKey)

/-- `writeTransactionExtra(tx_extra, tx_extra_fields)`: whether every field was written, and the
extra; a refused field stops it with the fields before it written. -/
def writeTransactionExtra (tx_extra : List UInt8) :
    List TransactionExtraField → Bool × List UInt8
  | [] => (true, tx_extra)
  | field :: fields =>
      match ExtraSerializerVisitor tx_extra field with
      | none => (false, tx_extra)
      | some extended => writeTransactionExtra extended fields

/-- `getPaymentIdFromTransactionExtraNonce`: a nonce of 33 bytes whose first byte is
`TX_EXTRA_NONCE_PAYMENT_ID` carries the payment id in the other 32. -/
def getPaymentIdFromTransactionExtraNonce (extra_nonce : List UInt8) : Option Hash :=
  match extra_nonce with
  | first :: payment_id =>
      if sized : payment_id.length = 32 then
        if TX_EXTRA_NONCE_PAYMENT_ID ≠ first then none else some ⟨⟨payment_id, sized⟩⟩
      else none
  | [] => none

end Dynex
