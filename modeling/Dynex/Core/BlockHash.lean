import Dynex.Core.DynexCNSerialization
import Dynex.Crypto.TreeHash
import Dynex.Common.Varint

/-!
# Block ids

`get_block_hash` of `DynexCNCore/DynexCNFormatUtils.cpp`. The id of a block is the hash of its
hashing blob: the serialised header, the root of the tree over the coinbase's hash and the other
transactions' hashes, and the number of transactions as a varint; blocks of major versions 2 and
3 append the parent block serialised for hashing, with the parent's own tree root in it.

`cn_fast_hash` is a parameter, any function of a byte string. `getObjectHash` hashes an object's
bytes and gives `NULL_HASH` where its serializer throws; the functions that return a `Hash`
rather than a flag give `NULL_HASH` where the flag is false.
-/

set_option autoImplicit false

namespace Dynex.FormatUtils

open Codec Common

section BlockHash

variable (cn_fast_hash : List UInt8 → Crypto.Hash)

/-- `getObjectHash(object, hash)`: the hash of the object's bytes, `NULL_HASH` where
`toBinaryArray` fails. -/
def getObjectHash {T : Type} (write : T → Written) (object : T) : Crypto.Hash :=
  match toBinaryArray write object with
  | some ba => cn_fast_hash ba
  | none => Crypto.NULL_HASH

def hashPair (left right : Crypto.Hash) : Crypto.Hash :=
  cn_fast_hash (left.pod.bytes ++ right.pod.bytes)

def get_tx_tree_hash (b : Block) : Crypto.Hash :=
  let txs_ids := getObjectHash cn_fast_hash writeTransaction b.baseTransaction :: b.transactionHashes
  (Crypto.tree_hash (hashPair cn_fast_hash) txs_ids).getD Crypto.NULL_HASH

/-- `get_block_hashing_blob(b, ba)`. -/
def get_block_hashing_blob (b : Block) : Option (List UInt8) := do
  let ba ← toBinaryArray writeBlockHeader b.toBlockHeader
  let treeRootHash := get_tx_tree_hash cn_fast_hash b
  pure (ba ++ treeRootHash.pod.bytes ++ Tools.write_varint (b.transactionHashes.length + 1))

/-- `serialize(ParentBlockSerializer&)` on output with `m_hashingSerialization` and without
`m_headerOnly`: after the nonce the parent's tree root, folded from the hash of its coinbase
along `baseTransactionBranch`, then what the serializer writes without hashing. -/
def writeParentBlockSerializerHashing (block : Block) : Written := do
  let parent := block.parentBlock
  let minerTxHash ← match toBinaryArray writeTransaction parent.baseTransaction with
    | some ba => pure (cn_fast_hash ba)
    | none => throw "Get transaction hash error"
  -- the depth is the branch's size, so the branch is never read past its end
  let merkleRoot := (Crypto.tree_hash_from_branch (hashPair cn_fast_hash)
    parent.baseTransactionBranch parent.baseTransactionBranch.length minerTxHash none).getD minerTxHash
  let transactionCount := parent.transactionCount
  if transactionCount < 1 then throw "Wrong transactions number"
  if parent.baseTransactionBranch.length != tree_depth transactionCount.toNat then
    throw "Wrong coinbase transaction branch size"
  let baseTransaction ← writeTransaction parent.baseTransaction
  match getMergeMiningTagFromExtra parent.baseTransaction.extra with
  | none => throw "Can't get extra merge tag"
  | some mmTag =>
      if mmTag.depth > 8 * 32 then throw "Wrong merge tag depth"
      if mmTag.depth != parent.blockchainBranch.length then
        throw "Blockchain branch size must be equal to merge tag depth"
      pure (uint8.write parent.majorVersion ++ uint8.write parent.minorVersion ++
        uint64.write block.timestamp ++ parent.previousBlockHash.pod.bytes ++ nonceBytes block.nonce ++
        merkleRoot.pod.bytes ++ uint64.write transactionCount.toUInt64 ++
        parent.baseTransactionBranch.flatMap (fun hash => hash.pod.bytes) ++ baseTransaction ++
        parent.blockchainBranch.flatMap (fun hash => hash.pod.bytes))

/-- `get_block_hash(b, res)`: the id, or `none` where it returns `false`. The blob is hashed
through `getObjectHash` of a `BinaryArray`, which serialises it as a string. -/
def get_block_hash (b : Block) : Option Crypto.Hash := do
  let ba ← get_block_hashing_blob cn_fast_hash b
  let ba ← if isMergeMined b.majorVersion then do
      let parent_blob ← toBinaryArray (writeParentBlockSerializerHashing cn_fast_hash) b
      pure (ba ++ parent_blob)
    else pure ba
  pure (cn_fast_hash (writeString ba))

def getBlockHash (b : Block) : Crypto.Hash := (get_block_hash cn_fast_hash b).getD Crypto.NULL_HASH

end BlockHash

end Dynex.FormatUtils
