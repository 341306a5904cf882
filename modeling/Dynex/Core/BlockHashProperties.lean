import Dynex.Core.BlockHash
import Dynex.Core.BlockSerializationProperties
import Dynex.Crypto.TreeHashProperties

/-!
# What a block id commits to

The id hashes bytes, so it commits to a block only as far as the serializer writes it. A coinbase
transaction's one base input takes no signature, and the writer writes the signatures of each
input, so a coinbase whose signature vector holds one empty list writes the bytes of the same
coinbase with an empty vector. Two blocks that differ only there have one id, for every hash
function (`block_id_ignores_coinbase_signatures`); the reader never builds such a coinbase.

A block the node can hold (`Block.Held`) is in the reader's normal form and has a blob. Two such
blocks with one id agree in the header, the coinbase, the transactions' hashes and the parent
block, unless `cn_fast_hash` collides on the byte strings the two ids hash (`hashedBlobs`,
`block_id_commits_to_held_block`): the bytes the id hashes read back field by field, and the tree
over the transactions' hashes determines its leaves where no pair it hashes collides
(`Crypto.tree_hash_injOn`).
-/

set_option autoImplicit false

namespace Dynex

def Block.withSignedCoinbase (b : Block) : Block :=
  { b with baseTransaction := { b.baseTransaction with signatures := [[]] } }

/-- A block the node can hold: in the reader's normal form, serialisable, and with a number of
transactions, the coinbase included, that a `size_t` holds. -/
structure Block.Held (block : Block) : Prop where
  normal : block.Normal
  written : ∃ blob, writeBlock block = .ok blob
  counted : block.transactionHashes.length + 1 < 2 ^ 64

open Codec in
theorem Block.Held.coinbase_written {block : Block} (held : block.Held) :
    ∃ blob, writeTransaction block.baseTransaction = .ok blob := by
  obtain ⟨blob, written⟩ := held.written
  unfold writeBlock writeBlockWith at written
  obtain ⟨_, _, written⟩ := written_bind_ok.mp written
  dsimp only at written
  split at written <;>
  · obtain ⟨_, _, written⟩ := written_bind_ok.mp written
    obtain ⟨coinbase, coinbaseWritten, _⟩ := written_bind_ok.mp written
    exact ⟨coinbase, coinbaseWritten⟩

end Dynex

namespace Dynex.FormatUtils

open Codec Common MerkleTree

theorem isCoinbaseInputs_iff {inputs : List TransactionInput} :
    isCoinbaseInputs inputs = true ↔ ∃ input, inputs = [.base input] := by
  constructor
  · intro coinbase
    unfold isCoinbaseInputs at coinbase
    split at coinbase
    · next input =>
        cases input with
        | base input => exact ⟨input, rfl⟩
        | key _ | multisignature _ => cases coinbase
    · cases coinbase
  · rintro ⟨input, rfl⟩
    rfl

theorem writeTransaction_coinbase_signatures {transaction : Transaction}
    (coinbase : isCoinbaseInputs transaction.inputs = true) (unsigned : transaction.signatures = []) :
    writeTransaction { transaction with signatures := [[]] } = writeTransaction transaction := by
  obtain ⟨input, single⟩ := isCoinbaseInputs_iff.mp coinbase
  unfold writeTransaction
  dsimp only
  cases written : writeTransactionPrefix transaction.toTransactionPrefix with
  | error message => rfl
  | ok head =>
      simp [single, unsigned, noSignaturesRequired, writeSignatureLists,
        getSignaturesCount]

theorem writeString_inj {first second : List UInt8} (same : writeString first = writeString second) :
    first = second :=
  (ReadsBack.append_inj (readVarint_writeVarint first.length.toUInt64 (UInt64.toNat_lt _))
    (readVarint_writeVarint second.length.toUInt64 (UInt64.toNat_lt _)) same).2

theorem write_varint_readsBack {value : Nat} (fits : value < 2 ^ 64) :
    ReadsBack (readVarint 64) (Tools.write_varint value) value := by
  have back := readVarint_writeVarint value.toUInt64 (by rw [Tools.toUInt64_toNat fits]; exact fits)
  have same : Tools.write_varint value = writeVarint value.toUInt64 := by
    rw [Tools.write_varint, writeVarint, Tools.toUInt64_toNat fits]
  rw [Tools.toUInt64_toNat fits] at back
  rw [same]
  exact back

theorem hash_bytes_append_inj {a b c d : Crypto.Hash}
    (same : a.pod.bytes ++ b.pod.bytes = c.pod.bytes ++ d.pod.bytes) : a = c ∧ b = d := by
  obtain ⟨left, right⟩ := ReadsBack.append_inj (readHash_readsBack a) (readHash_readsBack c) same
  exact ⟨left, (ReadsBack.append_inj (readHash_readsBack b) (readHash_readsBack d)
    (by rw [List.append_nil, List.append_nil]; exact right)).1⟩

theorem writeBlockHeader_inj {first second : BlockHeader} {firstBytes secondBytes rest rest' : List UInt8}
    (firstWritten : writeBlockHeader first = .ok firstBytes)
    (secondWritten : writeBlockHeader second = .ok secondBytes)
    (same : firstBytes ++ rest = secondBytes ++ rest') :
    first.majorVersion = second.majorVersion ∧ first.minorVersion = second.minorVersion ∧
      first.previousBlockHash = second.previousBlockHash ∧
      (isMergeMined first.majorVersion = false →
        first.timestamp = second.timestamp ∧ first.nonce = second.nonce) ∧ rest = rest' := by
  obtain ⟨values, rests⟩ := ReadsBack.append_inj (readBlockHeader_readsBack first firstWritten)
    (readBlockHeader_readsBack first secondWritten) same
  have kept : ∀ header : BlockHeader,
      let read := if isMergeMined header.majorVersion then
        { first with
          majorVersion := header.majorVersion
          minorVersion := header.minorVersion
          previousBlockHash := header.previousBlockHash }
      else header
      read.majorVersion = header.majorVersion ∧ read.minorVersion = header.minorVersion ∧
        read.previousBlockHash = header.previousBlockHash := by
    intro header
    split <;> exact ⟨rfl, rfl, rfl⟩
  obtain ⟨firstMajor, firstMinor, firstPrevious⟩ := kept first
  obtain ⟨secondMajor, secondMinor, secondPrevious⟩ := kept second
  rw [values] at firstMajor firstMinor firstPrevious
  have major := firstMajor.symm.trans secondMajor
  refine ⟨major, firstMinor.symm.trans secondMinor, firstPrevious.symm.trans secondPrevious,
    fun plain => ?_, rests⟩
  rw [if_neg (by simp [plain]), if_neg (by simp [← major, plain])] at values
  exact ⟨congrArg BlockHeader.timestamp values, congrArg BlockHeader.nonce values⟩

/-- The head of the parent block as both of its serialisations write it: the parent's versions,
the block's timestamp, the parent's previous hash and the block's nonce. -/
def parentHead (block : Block) : List UInt8 :=
  uint8.write block.parentBlock.majorVersion ++ uint8.write block.parentBlock.minorVersion ++
    uint64.write block.timestamp ++ block.parentBlock.previousBlockHash.pod.bytes ++
    nonceBytes block.nonce

theorem parentHead_inj {first second : Block} {rest rest' : List UInt8}
    (same : parentHead first ++ rest = parentHead second ++ rest') :
    parentHead first = parentHead second ∧ first.timestamp = second.timestamp ∧
      first.nonce = second.nonce ∧ rest = rest' := by
  simp only [parentHead, List.append_assoc] at same
  obtain ⟨major, same⟩ := ReadsBack.append_inj (uint8.readsBack _) (uint8.readsBack _) same
  obtain ⟨minor, same⟩ := ReadsBack.append_inj (uint8.readsBack _) (uint8.readsBack _) same
  obtain ⟨timestamp, same⟩ := ReadsBack.append_inj (uint64.readsBack _) (uint64.readsBack _) same
  obtain ⟨previous, same⟩ := ReadsBack.append_inj (readHash_readsBack _) (readHash_readsBack _) same
  obtain ⟨nonce, rests⟩ := ReadsBack.append_inj (readNonce_readsBack _) (readNonce_readsBack _) same
  have heads : parentHead first = parentHead second := by
    rw [parentHead, parentHead, major, minor, timestamp, previous, nonce]
  exact ⟨heads, timestamp, nonce, rests⟩

theorem blockHeader_eq_of_fields {first second : BlockHeader}
    (major : first.majorVersion = second.majorVersion) (minor : first.minorVersion = second.minorVersion)
    (nonce : first.nonce = second.nonce) (timestamp : first.timestamp = second.timestamp)
    (previous : first.previousBlockHash = second.previousBlockHash) : first = second := by
  cases first
  cases second
  simp only at major minor nonce timestamp previous
  subst major minor nonce timestamp previous
  rfl

def emptyCoinbase : Transaction :=
  { version := 1, unlockTime := 10, inputs := [.base ⟨0⟩], outputs := [], extra := [],
    signatures := [] }

/-- A version-1 block whose only transaction is `emptyCoinbase`. -/
def emptyCoinbaseBlock : Block :=
  { majorVersion := BLOCK_MAJOR_VERSION_1, minorVersion := 0, nonce := 0, timestamp := 0,
    previousBlockHash := Crypto.NULL_HASH,
    parentBlock := ⟨0, 0, Crypto.NULL_HASH, 0, [], emptyCoinbase, []⟩,
    baseTransaction := emptyCoinbase, transactionHashes := [] }

def firstBytesHash (bytes : List UInt8) : Crypto.Hash :=
  ⟨⟨(bytes ++ List.replicate 32 0).take 32, by simp⟩⟩

section Ids

variable (cn_fast_hash : List UInt8 → Crypto.Hash)

theorem get_tx_tree_hash_withSignedCoinbase {b : Block}
    (coinbase : isCoinbaseInputs b.baseTransaction.inputs = true)
    (unsigned : b.baseTransaction.signatures = []) :
    get_tx_tree_hash cn_fast_hash b.withSignedCoinbase = get_tx_tree_hash cn_fast_hash b := by
  have leaf : getObjectHash cn_fast_hash writeTransaction b.withSignedCoinbase.baseTransaction =
      getObjectHash cn_fast_hash writeTransaction b.baseTransaction := by
    unfold getObjectHash toBinaryArray
    rw [Block.withSignedCoinbase, writeTransaction_coinbase_signatures coinbase unsigned]
  unfold get_tx_tree_hash
  rw [leaf]
  rfl

theorem block_id_ignores_coinbase_signatures (b : Block)
    (coinbase : isCoinbaseInputs b.baseTransaction.inputs = true)
    (unsigned : b.baseTransaction.signatures = []) :
    b.withSignedCoinbase.baseTransaction ≠ b.baseTransaction ∧
      get_block_hash cn_fast_hash b.withSignedCoinbase = get_block_hash cn_fast_hash b ∧
      getBlockHash cn_fast_hash b.withSignedCoinbase = getBlockHash cn_fast_hash b := by
  have different : b.withSignedCoinbase.baseTransaction ≠ b.baseTransaction := by
    intro same
    have signatures := congrArg Transaction.signatures same
    rw [unsigned] at signatures
    cases signatures
  have blob : get_block_hashing_blob cn_fast_hash b.withSignedCoinbase =
      get_block_hashing_blob cn_fast_hash b := by
    unfold get_block_hashing_blob
    rw [get_tx_tree_hash_withSignedCoinbase cn_fast_hash coinbase unsigned]
    rfl
  have ids : get_block_hash cn_fast_hash b.withSignedCoinbase = get_block_hash cn_fast_hash b := by
    unfold get_block_hash
    rw [blob]
    rfl
  exact ⟨different, ids, by rw [getBlockHash, ids, getBlockHash]⟩

/-- The block of `emptyCoinbase` has an id, and the same block with one empty signature list on
its coinbase has that id too. -/
theorem empty_coinbase_blocks_share_an_id :
    isCoinbaseInputs emptyCoinbaseBlock.baseTransaction.inputs = true ∧
      emptyCoinbaseBlock.baseTransaction.signatures = [] ∧
      (get_block_hash firstBytesHash emptyCoinbaseBlock).isSome = true ∧
      (emptyCoinbaseBlock.withSignedCoinbase.baseTransaction ≠ emptyCoinbaseBlock.baseTransaction ∧
        get_block_hash firstBytesHash emptyCoinbaseBlock.withSignedCoinbase =
          get_block_hash firstBytesHash emptyCoinbaseBlock ∧
        getBlockHash firstBytesHash emptyCoinbaseBlock.withSignedCoinbase =
          getBlockHash firstBytesHash emptyCoinbaseBlock) :=
  ⟨rfl, rfl, rfl, block_id_ignores_coinbase_signatures firstBytesHash emptyCoinbaseBlock rfl rfl⟩

def txLeaves (b : Block) : List Crypto.Hash :=
  getObjectHash cn_fast_hash writeTransaction b.baseTransaction :: b.transactionHashes

/-- The bytes `get_block_hash` hashes: the hashing blob, and for versions 2 and 3 the parent block
serialised for hashing after it. -/
def blockIdBlob (b : Block) : Option (List UInt8) := do
  let ba ← get_block_hashing_blob cn_fast_hash b
  if isMergeMined b.majorVersion then do
    let parent_blob ← toBinaryArray (writeParentBlockSerializerHashing cn_fast_hash) b
    pure (ba ++ parent_blob)
  else pure ba

/-- The byte strings `cn_fast_hash` reads to give a block its id, but for those of the parent
block's own tree: the bytes `get_block_hash` hashes, the coinbase's bytes, and the 64 bytes of
each pair of the transactions' tree. -/
def hashedBlobs (b : Block) : List (List UInt8) :=
  (blockIdBlob cn_fast_hash b).toList.map writeString ++
    (toBinaryArray writeTransaction b.baseTransaction).toList ++
    (Crypto.merklePairs (hashPair cn_fast_hash) (txLeaves cn_fast_hash b)).map fun pair =>
      pair.1.pod.bytes ++ pair.2.pod.bytes

theorem get_block_hash_eq (b : Block) :
    get_block_hash cn_fast_hash b =
      (blockIdBlob cn_fast_hash b).map fun ba => cn_fast_hash (writeString ba) := by
  unfold get_block_hash blockIdBlob
  cases get_block_hashing_blob cn_fast_hash b with
  | none => rfl
  | some ba =>
      cases isMergeMined b.majorVersion with
      | false => rfl
      | true =>
          cases toBinaryArray (writeParentBlockSerializerHashing cn_fast_hash) b <;> rfl

theorem blockIdBlob_eq {b : Block} {ba : List UInt8} (blob : blockIdBlob cn_fast_hash b = some ba) :
    ∃ headerBytes parentBytes, writeBlockHeader b.toBlockHeader = .ok headerBytes ∧
      ba = headerBytes ++ ((get_tx_tree_hash cn_fast_hash b).pod.bytes ++
        (Tools.write_varint (b.transactionHashes.length + 1) ++ parentBytes)) ∧
      (if isMergeMined b.majorVersion then
        writeParentBlockSerializerHashing cn_fast_hash b = .ok parentBytes
      else parentBytes = []) := by
  unfold blockIdBlob get_block_hashing_blob at blob
  cases header : toBinaryArray writeBlockHeader b.toBlockHeader with
  | none => simp [header] at blob
  | some headerBytes =>
      cases merged : isMergeMined b.majorVersion with
      | false =>
          simp only [header, merged] at blob
          refine ⟨headerBytes, [], write_of_toBinaryArray header, ?_, rfl⟩
          simp only [Option.bind_eq_bind, Option.bind_some, Option.pure_def, Bool.false_eq_true,
            if_false, Option.some.injEq] at blob
          rw [← blob]
          simp
      | true =>
          cases parent : toBinaryArray (writeParentBlockSerializerHashing cn_fast_hash) b with
          | none => simp [header, merged, parent] at blob
          | some parentBytes =>
              simp only [header, merged, parent] at blob
              refine ⟨headerBytes, parentBytes, write_of_toBinaryArray header, ?_,
                write_of_toBinaryArray parent⟩
              simp only [Option.bind_eq_bind, Option.bind_some, Option.pure_def, if_true,
                Option.some.injEq] at blob
              rw [← blob]
              simp

/-- The parent block serialised for hashing is the parent block as `serialize(Block&)` writes it,
with the root of the parent's tree after its head. -/
theorem writeParentBlockSerializerHashing_eq {block : Block} {bytes : List UInt8}
    (written : writeParentBlockSerializerHashing cn_fast_hash block = .ok bytes) :
    ∃ (merkleRoot : Crypto.Hash) (tail : List UInt8),
      bytes = parentHead block ++ (merkleRoot.pod.bytes ++ tail) ∧
        writeParentBlockSerializer block = .ok (parentHead block ++ tail) := by
  unfold writeParentBlockSerializerHashing at written
  cases minerTx : toBinaryArray writeTransaction block.parentBlock.baseTransaction with
  | none => simp [minerTx, throw, throwThe, MonadExceptOf.throw] at written
  | some minerTxBytes =>
  simp only [minerTx] at written
  by_cases noTransactions : block.parentBlock.transactionCount < 1
  · simp [noTransactions, throw, throwThe, MonadExceptOf.throw] at written
  by_cases wrongBranch : (block.parentBlock.baseTransactionBranch.length !=
      tree_depth block.parentBlock.transactionCount.toNat) = true
  · simp [noTransactions, wrongBranch, throw, throwThe, MonadExceptOf.throw] at written
  simp only [noTransactions, wrongBranch, if_false, Bool.false_eq_true] at written
  rw [pure_bind] at written
  obtain ⟨baseBytes, baseWritten, written⟩ := written_bind_ok.mp written
  cases tagged : getMergeMiningTagFromExtra block.parentBlock.baseTransaction.extra with
  | none => simp [tagged, throw, throwThe, MonadExceptOf.throw] at written
  | some mmTag =>
  by_cases tooDeep : mmTag.depth > 8 * 32
  · simp [tagged, tooDeep, throw, throwThe, MonadExceptOf.throw] at written
  by_cases wrongChain : (mmTag.depth != block.parentBlock.blockchainBranch.length) = true
  · simp [tagged, tooDeep, wrongChain, throw, throwThe, MonadExceptOf.throw] at written
  simp only [tagged, tooDeep, wrongChain, if_false, Bool.false_eq_true, written_pure,
    Except.ok.injEq] at written
  refine ⟨(Crypto.tree_hash_from_branch (hashPair cn_fast_hash) block.parentBlock.baseTransactionBranch
      block.parentBlock.baseTransactionBranch.length (cn_fast_hash minerTxBytes) none).getD
      (cn_fast_hash minerTxBytes), uint64.write block.parentBlock.transactionCount.toUInt64 ++
    block.parentBlock.baseTransactionBranch.flatMap (fun hash => hash.pod.bytes) ++ baseBytes ++
    block.parentBlock.blockchainBranch.flatMap (fun hash => hash.pod.bytes), ?_, ?_⟩
  · rw [← written, parentHead]
    simp only [List.append_assoc]
  · simp only [writeParentBlockSerializer, writeParentBlockSerializerWith, UInt16.toUInt16_toUInt64,
      noTransactions, wrongBranch, if_false, Bool.false_eq_true, baseWritten, tagged, tooDeep,
      wrongChain, written_pure, parentHead, List.append_assoc]
    rfl

theorem parent_inj {first second : Block} {bytes : List UInt8} (firstNormal : first.Normal)
    (secondNormal : second.Normal) (firstMerged : isMergeMined first.majorVersion = true)
    (secondMerged : isMergeMined second.majorVersion = true)
    (firstWritten : writeParentBlockSerializerHashing cn_fast_hash first = .ok bytes)
    (secondWritten : writeParentBlockSerializerHashing cn_fast_hash second = .ok bytes) :
    first.timestamp = second.timestamp ∧ first.nonce = second.nonce ∧
      first.parentBlock = second.parentBlock := by
  obtain ⟨firstRoot, firstTail, firstBytes, firstPlain⟩ :=
    writeParentBlockSerializerHashing_eq cn_fast_hash firstWritten
  obtain ⟨secondRoot, secondTail, secondBytes, secondPlain⟩ :=
    writeParentBlockSerializerHashing_eq cn_fast_hash secondWritten
  obtain ⟨heads, -, -, rests⟩ := parentHead_inj (firstBytes.symm.trans secondBytes)
  obtain ⟨-, tails⟩ := ReadsBack.append_inj (readHash_readsBack firstRoot)
    (readHash_readsBack secondRoot) rests
  rw [heads, tails] at firstPlain
  have firstBack := @readParentBlockSerializer_readsBack
    { first with parentBlock.baseTransaction.signatures := [] } first _ rfl
    (firstNormal.parent_fits firstMerged) (firstNormal.parent_signatures firstMerged) firstPlain
  have secondBack := @readParentBlockSerializer_readsBack
    { first with parentBlock.baseTransaction.signatures := [] } second _ rfl
    (secondNormal.parent_fits secondMerged) (secondNormal.parent_signatures secondMerged) secondPlain
  have values := (@ReadsBack.append_inj _ _ _ _ [] [] _ _ firstBack secondBack rfl).1
  simp only [Block.mk.injEq, BlockHeader.mk.injEq] at values
  obtain ⟨⟨-, -, nonce, timestamp, -⟩, parent, -, -⟩ := values
  exact ⟨timestamp, nonce, parent⟩

theorem txLeaves_tree_hash {b : Block} (counted : b.transactionHashes.length + 1 < 2 ^ 64) :
    Crypto.tree_hash (hashPair cn_fast_hash) (txLeaves cn_fast_hash b) =
      some (get_tx_tree_hash cn_fast_hash b) := by
  have fits : (txLeaves cn_fast_hash b).length < 2 ^ 64 := by simpa [txLeaves] using counted
  obtain ⟨root, tree⟩ : ∃ root,
      Crypto.tree_hash (hashPair cn_fast_hash) (txLeaves cn_fast_hash b) = some root :=
    Option.isSome_iff_exists.mp
      (@Crypto.tree_hash_isSome _ (hashPair cn_fast_hash) _ (List.cons_ne_nil _ _) fits)
  rw [tree, get_tx_tree_hash, ← txLeaves, tree, Option.getD_some]

/-- With no collision among the pairs the two trees hash, two held blocks whose transactions'
trees have one root and one size have the same leaves. -/
theorem txLeaves_inj {first second : Block} (counted : first.transactionHashes.length + 1 < 2 ^ 64)
    (sized : first.transactionHashes.length = second.transactionHashes.length)
    (noCollision : Set.InjOn cn_fast_hash
      {bytes | bytes ∈ hashedBlobs cn_fast_hash first ∨ bytes ∈ hashedBlobs cn_fast_hash second})
    (same : get_tx_tree_hash cn_fast_hash first = get_tx_tree_hash cn_fast_hash second) :
    txLeaves cn_fast_hash first = txLeaves cn_fast_hash second := by
  have leavesSized : (txLeaves cn_fast_hash first).length = (txLeaves cn_fast_hash second).length := by
    simp [txLeaves, sized]
  have fits : (txLeaves cn_fast_hash first).length < 2 ^ 64 := by simpa [txLeaves] using counted
  have pairs : PairInjOn (hashPair cn_fast_hash)
      (Crypto.merklePairs (hashPair cn_fast_hash) (txLeaves cn_fast_hash first))
      (Crypto.merklePairs (hashPair cn_fast_hash) (txLeaves cn_fast_hash second)) := by
    intro x xIn y yIn hashed
    have xBlob : x.1.pod.bytes ++ x.2.pod.bytes ∈ hashedBlobs cn_fast_hash first :=
      List.mem_append_right _ (List.mem_map_of_mem xIn)
    have yBlob : y.1.pod.bytes ++ y.2.pod.bytes ∈ hashedBlobs cn_fast_hash second :=
      List.mem_append_right _ (List.mem_map_of_mem yIn)
    obtain ⟨left, right⟩ := hash_bytes_append_inj (noCollision (Or.inl xBlob) (Or.inr yBlob) hashed)
    exact Prod.ext left right
  exact Crypto.tree_hash_injOn leavesSized (List.cons_ne_nil _ _) fits pairs
    (by rw [txLeaves_tree_hash cn_fast_hash counted, txLeaves_tree_hash cn_fast_hash (by omega), same])

theorem coinbase_inj {first second : Block} (firstHeld : first.Held) (secondHeld : second.Held)
    (noCollision : Set.InjOn cn_fast_hash
      {bytes | bytes ∈ hashedBlobs cn_fast_hash first ∨ bytes ∈ hashedBlobs cn_fast_hash second})
    (same : getObjectHash cn_fast_hash writeTransaction first.baseTransaction =
      getObjectHash cn_fast_hash writeTransaction second.baseTransaction) :
    first.baseTransaction = second.baseTransaction := by
  obtain ⟨firstBytes, firstWritten⟩ := firstHeld.coinbase_written
  obtain ⟨secondBytes, secondWritten⟩ := secondHeld.coinbase_written
  have firstArray := toBinaryArray_of_ok firstWritten
  have secondArray := toBinaryArray_of_ok secondWritten
  have hashed : cn_fast_hash firstBytes = cn_fast_hash secondBytes := by
    simpa only [getObjectHash, firstArray, secondArray] using same
  have firstIn : firstBytes ∈ hashedBlobs cn_fast_hash first :=
    List.mem_append_left _ (List.mem_append_right _ (by simp [firstArray]))
  have secondIn : secondBytes ∈ hashedBlobs cn_fast_hash second :=
    List.mem_append_left _ (List.mem_append_right _ (by simp [secondArray]))
  have bytes := noCollision (Or.inl firstIn) (Or.inr secondIn) hashed
  subst bytes
  have firstBack := @readTransaction_readsBack { first.baseTransaction with signatures := [] }
    first.baseTransaction _ rfl firstHeld.normal.base_fits firstHeld.normal.base_signatures
    firstWritten
  have secondBack := @readTransaction_readsBack { first.baseTransaction with signatures := [] }
    second.baseTransaction _ rfl secondHeld.normal.base_fits secondHeld.normal.base_signatures
    secondWritten
  exact (@ReadsBack.append_inj _ _ _ _ [] [] _ _ firstBack secondBack rfl).1

/-- Two blocks the node can hold that have one id agree in every field the id is taken over, the
parent block where the version carries one, unless `cn_fast_hash` collides on the byte strings
the two ids hash. -/
theorem block_id_commits_to_held_block {first second : Block} {id : Crypto.Hash}
    (firstHeld : first.Held) (secondHeld : second.Held)
    (firstId : get_block_hash cn_fast_hash first = some id)
    (secondId : get_block_hash cn_fast_hash second = some id)
    (noCollision : Set.InjOn cn_fast_hash
      {bytes | bytes ∈ hashedBlobs cn_fast_hash first ∨ bytes ∈ hashedBlobs cn_fast_hash second}) :
    first.toBlockHeader = second.toBlockHeader ∧ first.baseTransaction = second.baseTransaction ∧
      first.transactionHashes = second.transactionHashes ∧
      (isMergeMined first.majorVersion = true → first.parentBlock = second.parentBlock) := by
  rw [get_block_hash_eq, Option.map_eq_some_iff] at firstId secondId
  obtain ⟨firstBlob, firstBlobIs, firstHashed⟩ := firstId
  obtain ⟨secondBlob, secondBlobIs, secondHashed⟩ := secondId
  have blobs : firstBlob = secondBlob := by
    apply writeString_inj
    refine noCollision (Or.inl ?_) (Or.inr ?_) (firstHashed.trans secondHashed.symm)
    · simp [hashedBlobs, firstBlobIs]
    · simp [hashedBlobs, secondBlobIs]
  subst blobs
  obtain ⟨firstHeader, firstParent, firstHeaderWritten, firstSplit, firstParentIs⟩ :=
    blockIdBlob_eq cn_fast_hash firstBlobIs
  obtain ⟨secondHeader, secondParent, secondHeaderWritten, secondSplit, secondParentIs⟩ :=
    blockIdBlob_eq cn_fast_hash secondBlobIs
  obtain ⟨major, minor, previous, plain, rests⟩ :=
    writeBlockHeader_inj firstHeaderWritten secondHeaderWritten (firstSplit.symm.trans secondSplit)
  obtain ⟨roots, rests⟩ := ReadsBack.append_inj (readHash_readsBack _) (readHash_readsBack _) rests
  obtain ⟨counts, parents⟩ := ReadsBack.append_inj (write_varint_readsBack firstHeld.counted)
    (write_varint_readsBack secondHeld.counted) rests
  have leaves := txLeaves_inj cn_fast_hash firstHeld.counted (by omega) noCollision roots
  rw [txLeaves, txLeaves, List.cons.injEq] at leaves
  have coinbase := coinbase_inj cn_fast_hash firstHeld secondHeld noCollision leaves.1
  have versioned : first.timestamp = second.timestamp ∧ first.nonce = second.nonce ∧
      (isMergeMined first.majorVersion = true → first.parentBlock = second.parentBlock) := by
    cases merged : isMergeMined first.majorVersion with
    | false =>
        obtain ⟨timestamp, nonce⟩ := plain merged
        exact ⟨timestamp, nonce, fun mergedNow => absurd mergedNow (by simp)⟩
    | true =>
        have secondMerged : isMergeMined second.majorVersion = true := major ▸ merged
        rw [if_pos merged] at firstParentIs
        rw [if_pos secondMerged, ← parents] at secondParentIs
        obtain ⟨timestamp, nonce, parent⟩ := parent_inj cn_fast_hash firstHeld.normal
          secondHeld.normal merged secondMerged firstParentIs secondParentIs
        exact ⟨timestamp, nonce, fun _ => parent⟩
  obtain ⟨timestamp, nonce, parent⟩ := versioned
  exact ⟨blockHeader_eq_of_fields major minor nonce timestamp previous, coinbase, leaves.2, parent⟩

theorem empty_coinbase_block_id_commits :
    emptyCoinbaseBlock.Held ∧
      get_block_hash firstBytesHash emptyCoinbaseBlock =
        some (getBlockHash firstBytesHash emptyCoinbaseBlock) ∧
      Set.InjOn firstBytesHash {bytes | bytes ∈ hashedBlobs firstBytesHash emptyCoinbaseBlock ∨
        bytes ∈ hashedBlobs firstBytesHash emptyCoinbaseBlock} ∧
      (emptyCoinbaseBlock.toBlockHeader = emptyCoinbaseBlock.toBlockHeader ∧
        emptyCoinbaseBlock.baseTransaction = emptyCoinbaseBlock.baseTransaction ∧
        emptyCoinbaseBlock.transactionHashes = emptyCoinbaseBlock.transactionHashes ∧
        (isMergeMined emptyCoinbaseBlock.majorVersion = true →
          emptyCoinbaseBlock.parentBlock = emptyCoinbaseBlock.parentBlock)) := by
  have fits : emptyCoinbaseBlock.baseTransaction.Fits :=
    ⟨by decide, by decide, by decide, by simp [emptyCoinbaseBlock, emptyCoinbase, TransactionInput.Fits],
      by simp [emptyCoinbaseBlock, emptyCoinbase]⟩
  have held : emptyCoinbaseBlock.Held :=
    ⟨⟨fits, by
      rw [SignaturesNormal, if_pos (show isCoinbaseInputs emptyCoinbaseBlock.baseTransaction.inputs = true
        from rfl)]
      rfl, by decide, fun merged => absurd merged (by decide),
      fun merged => absurd merged (by decide)⟩, ⟨_, rfl⟩, by decide⟩
  have idIs : get_block_hash firstBytesHash emptyCoinbaseBlock =
      some (getBlockHash firstBytesHash emptyCoinbaseBlock) := rfl
  have distinct : ∀ x ∈ hashedBlobs firstBytesHash emptyCoinbaseBlock,
      ∀ y ∈ hashedBlobs firstBytesHash emptyCoinbaseBlock, firstBytesHash x = firstBytesHash y → x = y := by
    decide
  have noCollision : Set.InjOn firstBytesHash {bytes | bytes ∈ hashedBlobs firstBytesHash emptyCoinbaseBlock ∨
      bytes ∈ hashedBlobs firstBytesHash emptyCoinbaseBlock} :=
    fun x xIn y yIn same => distinct x (or_self_iff.mp xIn) y (or_self_iff.mp yIn) same
  exact ⟨held, idIs, noCollision,
    block_id_commits_to_held_block firstBytesHash held held idIs idIs noCollision⟩

end Ids

end Dynex.FormatUtils
