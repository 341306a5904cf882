import Dynex.Core.TransactionSerializationProperties

/-!
# Block serialization reads back and is canonical up to the parent's transaction count

A blob `readBlock` accepts is the writing of the block it returns, except that a merge-mined
block's `numberOfTransactions` may have been written wider than the 16 bits it is truncated to.
A written block is read back when its transactions are in the shape the reader produces; the
parent block of a version without one is the object's.
-/

set_option autoImplicit false

namespace Dynex

open Codec Common Crypto

/-! ## The nonce -/

theorem readNonce_readsBack (nonce : UInt32) : ReadsBack readNonce (nonceBytes nonce) nonce := by
  intro rest
  have bound := UInt32.toNat_lt nonce
  have bytesRead : Common.read 4 (nonceBytes nonce ++ rest) = .ok (nonceBytes nonce, rest) :=
    takeBytes_append "Failed to read from IInputStream" (nonceBytes nonce) rest
  rw [readNonce, Reader.bind_apply_of_ok bytesRead, Reader.pure_apply, Except.ok.injEq,
    Prod.mk.injEq]
  refine ⟨UInt32.toNat_inj.mp ?_, rfl⟩
  simp only [nonceBytes, List.foldr_cons, List.foldr_nil, UInt8.toNat_ofNat', UInt32.toNat_ofNat']
  omega

theorem readNonce_canonical {input rest : List UInt8} {nonce : UInt32}
    (accepted : readNonce input = .ok (nonce, rest)) : input = nonceBytes nonce ++ rest := by
  simp only [readNonce, Reader.bind_apply_ok, Reader.pure_apply, Except.ok.injEq,
    Prod.mk.injEq] at accepted
  obtain ⟨bytes, middle, bytesRead, rfl, rfl⟩ := accepted
  obtain ⟨counted, rfl⟩ := takeBytes_ok bytesRead
  match bytes, counted with
  | [first, second, third, fourth], _ =>
      have bounds := And.intro (UInt8.toNat_lt first) (And.intro (UInt8.toNat_lt second)
        (And.intro (UInt8.toNat_lt third) (UInt8.toNat_lt fourth)))
      simp only [nonceBytes, List.foldr_cons, List.foldr_nil, UInt32.toNat_ofNat', List.cons_append,
        List.nil_append, List.cons.injEq, and_true]
      refine ⟨?_, ?_, ?_, ?_⟩ <;> apply UInt8.toNat_inj.mp <;> simp only [UInt8.toNat_ofNat'] <;> omega

/-! ## The header -/

theorem readBlockHeader_canonical (object : BlockHeader) :
    Canonical (readBlockHeader object) writeBlockHeader := by
  intro input header rest accepted
  simp only [readBlockHeader, Reader.bind_apply_ok] at accepted
  obtain ⟨major, afterMajor, majorRead, accepted⟩ := accepted
  by_cases tooNew : major > BLOCK_MAJOR_VERSION_4
  · simp [tooNew, Reader.bind_apply_ok] at accepted
  rw [if_neg tooNew, Reader.bind_apply_ok] at accepted
  obtain ⟨minor, afterMinor, minorRead, accepted⟩ := accepted
  split_ifs at accepted with mergeMined plain
  · simp only [Reader.bind_apply_ok, Reader.pure_apply, Except.ok.injEq, Prod.mk.injEq] at accepted
    obtain ⟨previous, afterPrevious, previousRead, rfl, rfl⟩ := accepted
    refine ⟨uint8.write major ++ uint8.write minor ++ previous.pod.bytes,
      by simp [writeBlockHeader, tooNew, mergeMined, written_pure], ?_⟩
    rw [uint8.canonical majorRead, uint8.canonical minorRead, readHash_canonical previousRead]
    simp
  · simp only [Reader.bind_apply_ok, Reader.pure_apply, Except.ok.injEq, Prod.mk.injEq] at accepted
    obtain ⟨timestamp, afterTimestamp, timestampRead, previous, afterPrevious, previousRead, nonce,
      afterNonce, nonceRead, rfl, rfl⟩ := accepted
    refine ⟨uint8.write major ++ uint8.write minor ++ uint64.write timestamp ++ previous.pod.bytes ++
      nonceBytes nonce, by simp [writeBlockHeader, tooNew, mergeMined, plain, written_pure], ?_⟩
    rw [uint8.canonical majorRead, uint8.canonical minorRead, uint64.canonical timestampRead,
      readHash_canonical previousRead, readNonce_canonical nonceRead]
    simp
  · cases accepted

theorem isMergeMined_iff (majorVersion : UInt8) :
    isMergeMined majorVersion = true ↔
      majorVersion = BLOCK_MAJOR_VERSION_2 ∨ majorVersion = BLOCK_MAJOR_VERSION_3 := by
  simp [isMergeMined]

/-- A written header reads back; a merge-mined one keeps the object's timestamp and nonce. -/
theorem readBlockHeader_readsBack (object : BlockHeader) {header : BlockHeader}
    {encoding : List UInt8} (written : writeBlockHeader header = .ok encoding) :
    ReadsBack (readBlockHeader object) encoding
      (if isMergeMined header.majorVersion then
        { object with
          majorVersion := header.majorVersion
          minorVersion := header.minorVersion
          previousBlockHash := header.previousBlockHash }
      else header) := by
  simp only [writeBlockHeader] at written
  by_cases tooNew : header.majorVersion > BLOCK_MAJOR_VERSION_4
  · simp [tooNew, throw, throwThe, MonadExceptOf.throw] at written
  rw [if_neg tooNew] at written
  split_ifs at written with mergeMined plain
  · simp only [written_pure, Except.ok.injEq] at written
    subst written
    intro rest
    simp only [readBlockHeader, List.append_assoc]
    rw [Reader.bind_apply_of_ok (uint8.readsBack _ _), if_neg tooNew,
      Reader.bind_apply_of_ok (uint8.readsBack _ _), if_pos mergeMined,
      Reader.bind_apply_of_ok (readHash_readsBack _ rest), (isMergeMined_iff _).mpr mergeMined]
    rfl
  · simp only [written_pure, Except.ok.injEq] at written
    subst written
    have notMerged : isMergeMined header.majorVersion = false := by
      rw [Bool.eq_false_iff, ne_eq, isMergeMined_iff]
      exact mergeMined
    intro rest
    simp only [readBlockHeader, List.append_assoc]
    rw [Reader.bind_apply_of_ok (uint8.readsBack _ _), if_neg tooNew,
      Reader.bind_apply_of_ok (uint8.readsBack _ _), if_neg mergeMined, if_pos plain,
      Reader.bind_apply_of_ok (uint64.readsBack _ _), Reader.bind_apply_of_ok (readHash_readsBack _ _),
      Reader.bind_apply_of_ok (readNonce_readsBack _ rest), notMerged]
    rfl

/-! ## The parent block -/

/-- An accepted parent block is the writing of what it returns, with `numberOfTransactions` as
wide as it was read; of the object only the timestamp, the nonce and the parent block change. -/
theorem readParentBlockSerializer_canonical {object block : Block} {input rest : List UInt8}
    (accepted : readParentBlockSerializer object input = .ok (block, rest)) :
    block = { object with
      timestamp := block.timestamp
      nonce := block.nonce
      parentBlock := block.parentBlock } ∧
    ∃ txNum : UInt64, txNum.toUInt16 = block.parentBlock.transactionCount ∧
      ∃ encoding, writeParentBlockSerializerWith txNum block = .ok encoding ∧
        input = encoding ++ rest := by
  simp only [readParentBlockSerializer, Reader.bind_apply_ok] at accepted
  obtain ⟨major, afterMajor, majorRead, minor, afterMinor, minorRead, timestamp, afterTimestamp,
    timestampRead, previous, afterPrevious, previousRead, nonce, afterNonce, nonceRead, txNum,
    afterCount, countRead, accepted⟩ := accepted
  by_cases noTransactions : txNum.toUInt16 < 1
  · simp [noTransactions, Reader.bind_apply_ok] at accepted
  rw [if_neg noTransactions, Reader.bind_apply_ok] at accepted
  obtain ⟨branch, afterBranch, branchRead, accepted⟩ := accepted
  rw [Reader.bind_apply_ok] at accepted
  obtain ⟨base, afterBase, baseRead, accepted⟩ := accepted
  cases tagged : getMergeMiningTagFromExtra base.extra with
  | none => simp [tagged] at accepted
  | some mmTag =>
      simp only [tagged] at accepted
      by_cases tooDeep : mmTag.depth > 8 * 32
      · simp [tooDeep, Reader.bind_apply_ok] at accepted
      simp only [if_neg tooDeep, Reader.bind_apply_ok, Reader.pure_apply, Except.ok.injEq,
        Prod.mk.injEq] at accepted
      obtain ⟨chain, afterChain, chainRead, rfl, rfl⟩ := accepted
      obtain ⟨branchCount, branchBytes, branchWritten, rfl⟩ :=
        Canonical.readMany (Canonical.of_bytes readHash_canonical) _ branchRead
      obtain ⟨baseBytes, baseWritten, rfl⟩ := readTransaction_canonical _ baseRead
      obtain ⟨chainCount, chainBytes, chainWritten, rfl⟩ :=
        Canonical.readMany (Canonical.of_bytes readHash_canonical) _ chainRead
      simp only [writeMany_pure, Except.ok.injEq] at branchWritten chainWritten
      subst branchWritten chainWritten
      refine ⟨rfl, txNum, rfl, uint8.write major ++ uint8.write minor ++ uint64.write timestamp ++
        previous.pod.bytes ++ nonceBytes nonce ++ uint64.write txNum ++
        branch.flatMap (fun hash => hash.pod.bytes) ++ baseBytes ++
        chain.flatMap (fun hash => hash.pod.bytes), ?_, ?_⟩
      · simp [writeParentBlockSerializerWith, noTransactions, branchCount, baseWritten, tagged,
          tooDeep, chainCount, written_pure]
      · rw [uint8.canonical majorRead, uint8.canonical minorRead, uint64.canonical timestampRead,
          readHash_canonical previousRead, readNonce_canonical nonceRead, uint64.canonical countRead]
        simp

theorem readHashes_readsBack (hashes : List Hash) :
    ReadsBack (readMany readHash hashes.length) (hashes.flatMap fun hash => hash.pod.bytes) hashes :=
  ReadsBack.readMany hashes (ReadsBack.of_bytes readHash_readsBack hashes) _ (writeMany_pure _ hashes)

/-- A written parent block reads back into the object, with the block's timestamp and nonce. -/
theorem readParentBlockSerializer_readsBack {object block : Block} {encoding : List UInt8}
    (fresh : object.parentBlock.baseTransaction.signatures = [])
    (fits : block.parentBlock.baseTransaction.Fits)
    (normal : SignaturesNormal block.parentBlock.baseTransaction)
    (written : writeParentBlockSerializer block = .ok encoding) :
    ReadsBack (readParentBlockSerializer object) encoding
      { object with
        timestamp := block.timestamp
        nonce := block.nonce
        parentBlock := block.parentBlock } := by
  simp only [writeParentBlockSerializer, writeParentBlockSerializerWith,
    UInt16.toUInt16_toUInt64] at written
  by_cases noTransactions : block.parentBlock.transactionCount < 1
  · simp [noTransactions, throw, throwThe, MonadExceptOf.throw] at written
  by_cases wrongBranch : (block.parentBlock.baseTransactionBranch.length !=
      tree_depth block.parentBlock.transactionCount.toNat) = true
  · simp [noTransactions, wrongBranch, throw, throwThe, MonadExceptOf.throw] at written
  have branchSize : block.parentBlock.baseTransactionBranch.length =
      tree_depth block.parentBlock.transactionCount.toNat := by simpa using wrongBranch
  simp only [noTransactions, wrongBranch, if_false, Bool.false_eq_true, written_bind_ok] at written
  obtain ⟨baseBytes, baseWritten, written⟩ := written
  cases tagged : getMergeMiningTagFromExtra block.parentBlock.baseTransaction.extra with
  | none => simp [tagged, throw, throwThe, MonadExceptOf.throw] at written
  | some mmTag =>
      by_cases tooDeep : mmTag.depth > 8 * 32
      · simp [tagged, tooDeep, throw, throwThe, MonadExceptOf.throw] at written
      by_cases wrongChain : (mmTag.depth != block.parentBlock.blockchainBranch.length) = true
      · simp [tagged, tooDeep, wrongChain, throw, throwThe, MonadExceptOf.throw] at written
      have chainSize : mmTag.depth = block.parentBlock.blockchainBranch.length := by
        simpa using wrongChain
      simp only [tagged, tooDeep, wrongChain, if_false, Bool.false_eq_true, written_pure,
        Except.ok.injEq] at written
      subst written
      intro rest
      simp only [readParentBlockSerializer, List.append_assoc]
      rw [Reader.bind_apply_of_ok (uint8.readsBack _ _), Reader.bind_apply_of_ok (uint8.readsBack _ _),
        Reader.bind_apply_of_ok (uint64.readsBack _ _), Reader.bind_apply_of_ok (readHash_readsBack _ _),
        Reader.bind_apply_of_ok (readNonce_readsBack _ _), Reader.bind_apply_of_ok (uint64.readsBack _ _),
        UInt16.toUInt16_toUInt64, if_neg noTransactions, ← branchSize,
        Reader.bind_apply_of_ok (readHashes_readsBack _ _),
        Reader.bind_apply_of_ok (readTransaction_readsBack fresh fits normal baseWritten _), tagged]
      simp only [if_neg tooDeep]
      rw [chainSize, Reader.bind_apply_of_ok (readHashes_readsBack _ rest)]
      rfl

/-! ## Blocks -/

theorem writeBlockHeader_of_mergeMined {header other : BlockHeader}
    (mergeMined : isMergeMined header.majorVersion = true)
    (major : other.majorVersion = header.majorVersion) (minor : other.minorVersion = header.minorVersion)
    (previous : other.previousBlockHash = header.previousBlockHash) :
    writeBlockHeader other = writeBlockHeader header := by
  have versions := (isMergeMined_iff _).mp mergeMined
  simp [writeBlockHeader, major, minor, previous, versions]

/-- An accepted block is the writing of what it returns, with the parent's
`numberOfTransactions` as wide as it was read. -/
theorem readBlock_canonical {object block : Block} {input rest : List UInt8}
    (accepted : readBlock object input = .ok (block, rest)) :
    ∃ txNum : UInt64, txNum.toUInt16 = block.parentBlock.transactionCount ∧
      ∃ encoding, writeBlockWith txNum block = .ok encoding ∧ input = encoding ++ rest := by
  simp only [readBlock, Reader.bind_apply_ok] at accepted
  obtain ⟨header, afterHeader, headerRead, accepted⟩ := accepted
  obtain ⟨headerBytes, headerWritten, rfl⟩ := readBlockHeader_canonical _ headerRead
  by_cases mergeMined : isMergeMined header.majorVersion = true
  · rw [if_pos mergeMined] at accepted
    simp only [Reader.bind_apply_ok, Reader.pure_apply, Except.ok.injEq, Prod.mk.injEq] at accepted
    obtain ⟨withParent, afterParent, parentRead, base, afterBase, baseRead, hashes, afterHashes,
      hashesRead, rfl, rfl⟩ := accepted
    obtain ⟨shape, txNum, counted, parentBytes, parentWritten, rfl⟩ :=
      readParentBlockSerializer_canonical parentRead
    obtain ⟨baseBytes, baseWritten, rfl⟩ := readTransaction_canonical _ baseRead
    obtain ⟨hashBytes, hashesWritten, rfl⟩ :=
      readContainer_canonical (Canonical.of_bytes readHash_canonical) hashesRead
    have sameMajor : withParent.majorVersion = header.majorVersion := by rw [shape]
    have sameMinor : withParent.minorVersion = header.minorVersion := by rw [shape]
    have samePrevious : withParent.previousBlockHash = header.previousBlockHash := by rw [shape]
    have parentWritten : writeParentBlockSerializerWith txNum
        { withParent with baseTransaction := base, transactionHashes := hashes } = .ok parentBytes :=
      parentWritten
    simp only [written_pure] at hashesWritten
    refine ⟨txNum, counted, headerBytes ++ parentBytes ++ baseBytes ++ hashBytes, ?_, by simp⟩
    simp only [writeBlockWith, writeBlockHeader_of_mergeMined mergeMined sameMajor sameMinor
      samePrevious, headerWritten, written_ok_bind, sameMajor, mergeMined, if_true, parentWritten,
      baseWritten, written_pure, hashesWritten]
  · rw [if_neg mergeMined] at accepted
    simp only [Reader.bind_apply_ok, Reader.pure_apply, Except.ok.injEq, Prod.mk.injEq] at accepted
    obtain ⟨withHeader, afterParent, ⟨rfl, rfl⟩, base, afterBase, baseRead, hashes, afterHashes,
      hashesRead, rfl, rfl⟩ := accepted
    obtain ⟨baseBytes, baseWritten, rfl⟩ := readTransaction_canonical _ baseRead
    obtain ⟨hashBytes, hashesWritten, rfl⟩ :=
      readContainer_canonical (Canonical.of_bytes readHash_canonical) hashesRead
    simp only [written_pure] at hashesWritten
    refine ⟨object.parentBlock.transactionCount.toUInt64, UInt16.toUInt16_toUInt64 _,
      headerBytes ++ baseBytes ++ hashBytes, ?_, by simp⟩
    simp only [writeBlockWith, headerWritten, written_ok_bind, mergeMined, if_false,
      Bool.false_eq_true, baseWritten, written_pure, hashesWritten, List.append_nil]

/-- The containers of a block fit a `std::vector`, and its transactions carry their signatures in
the shape the reader produces; the parent block counts only where the version carries one. -/
structure Block.Normal (block : Block) : Prop where
  base_fits : block.baseTransaction.Fits
  base_signatures : SignaturesNormal block.baseTransaction
  hashes_fit : block.transactionHashes.length < 2 ^ 64
  parent_fits : isMergeMined block.majorVersion = true → block.parentBlock.baseTransaction.Fits
  parent_signatures :
    isMergeMined block.majorVersion = true → SignaturesNormal block.parentBlock.baseTransaction

/-- A written block reads back into an object without signatures; a version without a parent
block keeps the object's. -/
theorem readBlock_readsBack {object block : Block} {encoding : List UInt8}
    (freshBase : object.baseTransaction.signatures = [])
    (freshParent : object.parentBlock.baseTransaction.signatures = [])
    (normal : block.Normal) (written : writeBlock block = .ok encoding) :
    ReadsBack (readBlock object) encoding
      (if isMergeMined block.majorVersion then block
        else { block with parentBlock := object.parentBlock }) := by
  simp only [writeBlock, writeBlockWith, written_bind_ok] at written
  obtain ⟨headerBytes, headerWritten, written⟩ := written
  have headerBack := readBlockHeader_readsBack object.toBlockHeader headerWritten
  by_cases mergeMined : isMergeMined block.majorVersion = true
  · rw [if_pos mergeMined] at written
    simp only [written_bind_ok] at written
    obtain ⟨parentBytes, parentWritten, baseBytes, baseWritten, hashBytes, hashesWritten, joined⟩ :=
      written
    cases joined
    have parentBack := @readParentBlockSerializer_readsBack { object with
        toBlockHeader := { object.toBlockHeader with
          majorVersion := block.majorVersion
          minorVersion := block.minorVersion
          previousBlockHash := block.previousBlockHash } } block _
      freshParent (normal.parent_fits mergeMined) (normal.parent_signatures mergeMined) parentWritten
    have baseBack := readTransaction_readsBack freshBase normal.base_fits normal.base_signatures
      baseWritten
    have hashesBack := readContainer_readsBack (ReadsBack.of_bytes readHash_readsBack _)
      normal.hashes_fit hashesWritten
    rw [if_pos mergeMined] at headerBack
    intro rest
    simp only [readBlock, List.append_assoc]
    dsimp only at parentBack
    rw [Reader.bind_apply_of_ok (headerBack _), if_pos mergeMined,
      Reader.bind_apply_of_ok (parentBack _), Reader.bind_apply_of_ok (baseBack _),
      Reader.bind_apply_of_ok (hashesBack rest), if_pos mergeMined]
    rfl
  · rw [if_neg mergeMined] at written
    simp only [written_bind_ok] at written
    obtain ⟨parentBytes, noParent, baseBytes, baseWritten, hashBytes, hashesWritten, joined⟩ := written
    cases noParent
    cases joined
    have baseBack := readTransaction_readsBack freshBase normal.base_fits normal.base_signatures
      baseWritten
    have hashesBack := readContainer_readsBack (ReadsBack.of_bytes readHash_readsBack _)
      normal.hashes_fit hashesWritten
    rw [if_neg mergeMined] at headerBack
    intro rest
    simp only [readBlock, List.append_assoc, List.nil_append]
    rw [Reader.bind_apply_of_ok (headerBack _), if_neg mergeMined,
      Reader.bind_apply_of_ok (Reader.pure_apply _ _), Reader.bind_apply_of_ok (baseBack _),
      Reader.bind_apply_of_ok (hashesBack rest), if_neg mergeMined]
    rfl

/-! ## Blobs of blocks -/

theorem writeBlockWith_of_not_mergeMined {block : Block}
    (plain : isMergeMined block.majorVersion = false) (txNum : UInt64) :
    writeBlockWith txNum block = writeBlock block := by
  simp [writeBlock, writeBlockWith, plain]

theorem txNum_eq_of_lt {txNum : UInt64} {count : UInt16} (narrow : txNum.toNat < 2 ^ 16)
    (counted : txNum.toUInt16 = count) : txNum = count.toUInt64 := by
  apply UInt64.toNat_inj.mp
  rw [UInt16.toNat_toUInt64, ← counted, UInt64.toNat_toUInt16, Nat.mod_eq_of_lt narrow]

theorem fromBinaryArray_readBlock_canonical {object block : Block} {bytes : List UInt8}
    (decoded : fromBinaryArray readBlock object bytes = some block) :
    toBinaryArray writeBlock block = some bytes ∨
      isMergeMined block.majorVersion = true ∧ ∃ txNum : UInt64, 2 ^ 16 ≤ txNum.toNat ∧
        txNum.toUInt16 = block.parentBlock.transactionCount ∧ writeBlockWith txNum block = .ok bytes := by
  obtain ⟨txNum, counted, encoding, written, whole⟩ :=
    readBlock_canonical (read_of_fromBinaryArray decoded)
  rw [List.append_nil] at whole
  subst whole
  by_cases mergeMined : isMergeMined block.majorVersion = true
  · by_cases narrow : txNum.toNat < 2 ^ 16
    · left
      rw [txNum_eq_of_lt narrow counted] at written
      exact toBinaryArray_of_ok written
    · exact .inr ⟨mergeMined, txNum, Nat.le_of_not_lt narrow, counted, written⟩
  · left
    rw [writeBlockWith_of_not_mergeMined (Bool.eq_false_iff.mpr mergeMined)] at written
    exact toBinaryArray_of_ok written

/-- Every accepted transaction blob is the writer's bytes of what it decodes to, and so is every
accepted block blob, except a merge-mined block whose parent count was written wider than 16
bits. A transaction or block in the reader's normal form decodes back from its bytes, into an
object without signatures. -/
theorem binary_encoding_canonical_round_trip :
    (∀ (object transaction : Transaction) (bytes : List UInt8),
        fromBinaryArray readTransaction object bytes = some transaction →
          toBinaryArray writeTransaction transaction = some bytes) ∧
    (∀ (object block : Block) (bytes : List UInt8),
        fromBinaryArray readBlock object bytes = some block →
          toBinaryArray writeBlock block = some bytes ∨
            isMergeMined block.majorVersion = true ∧ ∃ txNum : UInt64, 2 ^ 16 ≤ txNum.toNat ∧
              txNum.toUInt16 = block.parentBlock.transactionCount ∧
              writeBlockWith txNum block = .ok bytes) ∧
    (∀ (object transaction : Transaction) (bytes : List UInt8),
        object.signatures = [] → transaction.Fits → SignaturesNormal transaction →
        toBinaryArray writeTransaction transaction = some bytes →
          fromBinaryArray readTransaction object bytes = some transaction) ∧
    (∀ (object block : Block) (bytes : List UInt8),
        object.baseTransaction.signatures = [] → object.parentBlock.baseTransaction.signatures = [] →
        block.Normal → toBinaryArray writeBlock block = some bytes →
          fromBinaryArray readBlock object bytes =
            some (if isMergeMined block.majorVersion then block
              else { block with parentBlock := object.parentBlock })) := by
  refine ⟨?_, ?_, ?_, ?_⟩
  · intro object transaction bytes decoded
    exact toBinaryArray_of_fromBinaryArray (readTransaction_canonical object) decoded
  · intro object block bytes decoded
    exact fromBinaryArray_readBlock_canonical decoded
  · intro object transaction bytes fresh fits normal encoded
    exact fromBinaryArray_of_readsBack
      (readTransaction_readsBack fresh fits normal (write_of_toBinaryArray encoded))
  · intro object block bytes freshBase freshParent normal encoded
    exact fromBinaryArray_of_readsBack
      (readBlock_readsBack freshBase freshParent normal (write_of_toBinaryArray encoded))

def zeroSignatureTransaction : Transaction :=
  ⟨⟨CURRENT_TRANSACTION_VERSION, 0, [.multisignature ⟨5, 0, 0⟩], [], []⟩, []⟩

def zeroSignatureBlob : List UInt8 := [1, 0, 1, 3, 5, 0, 0, 0, 0]

def mergeTagExtra : List UInt8 := [TX_EXTRA_MERGE_MINING_TAG, 33, 0] ++ List.replicate 32 0

/-- The smallest merge-mined block: one parent transaction, a parent coinbase whose extra holds
the merge tag, an empty coinbase and no transactions. -/
def wideCountBlock : Block where
  toBlockHeader := ⟨BLOCK_MAJOR_VERSION_2, 0, 0, 0, NULL_HASH⟩
  parentBlock := ⟨0, 0, NULL_HASH, 1, [], ⟨⟨1, 0, [], [], mergeTagExtra⟩, []⟩, []⟩
  baseTransaction := ⟨⟨1, 0, [], [], []⟩, []⟩
  transactionHashes := []

def wideCountBlob : List UInt8 :=
  [2, 0] ++ List.replicate 32 0 ++ [0, 0, 0] ++ List.replicate 32 0 ++ [0, 0, 0, 0] ++
    [0x81, 0x80, 0x04] ++ [1, 0, 0, 0, 35] ++ mergeTagExtra ++ [1, 0, 0, 0, 0] ++ [0]

/-- A transaction whose one input takes no signature, written with no signature list, decodes
back with one empty list; a block whose parent count is written wider than 16 bits is accepted,
and written back as other bytes. -/
theorem zero_signatures_and_wide_count_break_round_trip :
    toBinaryArray writeTransaction zeroSignatureTransaction = some zeroSignatureBlob ∧
      fromBinaryArray readTransaction zeroSignatureTransaction zeroSignatureBlob =
        some { zeroSignatureTransaction with signatures := [[]] } ∧
    fromBinaryArray readBlock wideCountBlock wideCountBlob = some wideCountBlock ∧
      toBinaryArray writeBlock wideCountBlock ≠ some wideCountBlob := by
  refine ⟨by decide +kernel, by decide +kernel, by decide +kernel, by decide +kernel⟩

end Dynex
