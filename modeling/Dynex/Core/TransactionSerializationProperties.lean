import Dynex.Core.DynexCNSerialization

/-!
# Transaction serialization reads back and is canonical

Every blob `readTransaction` accepts is the writing of the transaction it returns, whatever
object it deserialised into. In the other direction a written transaction is read back exactly
when its signatures have the shape the reader produces: none for a coinbase, one list per input
of the length `getSignaturesCount` requires otherwise.
-/

set_option autoImplicit false

namespace Dynex

open Codec Common Crypto

/-! ## Inputs and outputs are canonical -/

theorem readBaseInput_canonical : Canonical readBaseInput writeBaseInput := by
  intro input value rest accepted
  obtain ⟨blockIndex, indexRead, rfl⟩ := Reader.map_apply_ok.mp accepted
  exact ⟨_, rfl, uint32.canonical indexRead⟩

theorem readKeyInput_canonical : Canonical readKeyInput writeKeyInput := by
  intro input value rest accepted
  simp only [readKeyInput, Reader.bind_apply_ok, Reader.pure_apply, Except.ok.injEq,
    Prod.mk.injEq] at accepted
  obtain ⟨amount, afterAmount, amountRead, outputIndexes, afterIndexes, indexesRead, keyImage,
    afterImage, imageRead, rfl, rfl⟩ := accepted
  obtain ⟨indexBytes, indexesWritten, rfl⟩ :=
    readContainer_canonical (Canonical.of_bytes uint32.canonical) indexesRead
  refine ⟨uint64.write amount ++ indexBytes ++ keyImage.pod.bytes,
    by simp only [writeKeyInput]; rw [indexesWritten]; rfl, ?_⟩
  rw [uint64.canonical amountRead, readKeyImage_canonical imageRead]
  simp

theorem readMultisignatureInput_canonical :
    Canonical readMultisignatureInput writeMultisignatureInput := by
  intro input value rest accepted
  simp only [readMultisignatureInput, Reader.bind_apply_ok, Reader.pure_apply, Except.ok.injEq,
    Prod.mk.injEq] at accepted
  obtain ⟨amount, afterAmount, amountRead, signatureCount, afterCount, countRead, outputIndex,
    afterIndex, indexRead, rfl, rfl⟩ := accepted
  refine ⟨_, rfl, ?_⟩
  rw [uint64.canonical amountRead, uint8.canonical countRead, uint32.canonical indexRead]
  simp

theorem tagged_canonical {α β : Type} {body : Reader α} {write : α → Written} (tag : UInt8)
    (wrap : α → β) (each : Canonical body write) {input rest : List UInt8} {value : β}
    (accepted : (wrap <$> body) input = .ok (value, rest)) :
    ∃ inner encoding, value = wrap inner ∧ write inner = .ok encoding ∧
      tag :: input = (tag :: encoding) ++ rest := by
  obtain ⟨inner, bodyRead, rfl⟩ := Reader.map_apply_ok.mp accepted
  obtain ⟨encoding, written, rfl⟩ := each bodyRead
  exact ⟨inner, encoding, rfl, written, rfl⟩

theorem readTransactionInput_canonical : Canonical readTransactionInput writeTransactionInput := by
  intro input value rest accepted
  simp only [readTransactionInput, Reader.bind_apply_ok] at accepted
  obtain ⟨tag, afterTag, tagRead, bodyRead⟩ := accepted
  rw [takeByte_ok tagRead]
  split_ifs at bodyRead with base key multisignature
  · obtain ⟨inner, encoding, rfl, written, joined⟩ :=
      tagged_canonical tag _ readBaseInput_canonical bodyRead
    exact ⟨_, by simp [writeTransactionInput, written, base], joined⟩
  · obtain ⟨inner, encoding, rfl, written, joined⟩ :=
      tagged_canonical tag _ readKeyInput_canonical bodyRead
    exact ⟨_, by simp [writeTransactionInput, written, key], joined⟩
  · obtain ⟨inner, encoding, rfl, written, joined⟩ :=
      tagged_canonical tag _ readMultisignatureInput_canonical bodyRead
    exact ⟨_, by simp [writeTransactionInput, written, multisignature], joined⟩
  · cases bodyRead

theorem readKeyOutput_canonical : Canonical readKeyOutput writeKeyOutput := by
  intro input value rest accepted
  obtain ⟨key, keyRead, rfl⟩ := Reader.map_apply_ok.mp accepted
  exact ⟨_, rfl, readPublicKey_canonical keyRead⟩

theorem readMultisignatureOutput_canonical :
    Canonical readMultisignatureOutput writeMultisignatureOutput := by
  intro input value rest accepted
  simp only [readMultisignatureOutput, Reader.bind_apply_ok, Reader.pure_apply, Except.ok.injEq,
    Prod.mk.injEq] at accepted
  obtain ⟨keys, afterKeys, keysRead, required, afterRequired, requiredRead, rfl, rfl⟩ := accepted
  obtain ⟨keyBytes, keysWritten, rfl⟩ :=
    readContainer_canonical (Canonical.of_bytes readPublicKey_canonical) keysRead
  refine ⟨keyBytes ++ uint8.write required, by simp only [writeMultisignatureOutput]; rw [keysWritten]; rfl, ?_⟩
  rw [uint8.canonical requiredRead]
  simp

theorem readTransactionOutputTarget_canonical :
    Canonical readTransactionOutputTarget writeTransactionOutputTarget := by
  intro input value rest accepted
  simp only [readTransactionOutputTarget, Reader.bind_apply_ok] at accepted
  obtain ⟨tag, afterTag, tagRead, bodyRead⟩ := accepted
  rw [takeByte_ok tagRead]
  split_ifs at bodyRead with key multisignature
  · obtain ⟨inner, encoding, rfl, written, joined⟩ :=
      tagged_canonical tag _ readKeyOutput_canonical bodyRead
    exact ⟨_, by simp [writeTransactionOutputTarget, written, key], joined⟩
  · obtain ⟨inner, encoding, rfl, written, joined⟩ :=
      tagged_canonical tag _ readMultisignatureOutput_canonical bodyRead
    exact ⟨_, by simp [writeTransactionOutputTarget, written, multisignature], joined⟩
  · cases bodyRead

theorem readTransactionOutput_canonical : Canonical readTransactionOutput writeTransactionOutput := by
  intro input value rest accepted
  simp only [readTransactionOutput, Reader.bind_apply_ok, Reader.pure_apply, Except.ok.injEq,
    Prod.mk.injEq] at accepted
  obtain ⟨amount, afterAmount, amountRead, target, afterTarget, targetRead, rfl, rfl⟩ := accepted
  obtain ⟨targetBytes, targetWritten, rfl⟩ := readTransactionOutputTarget_canonical targetRead
  refine ⟨uint64.write amount ++ targetBytes, by simp [writeTransactionOutput, targetWritten], ?_⟩
  rw [uint64.canonical amountRead]
  simp

theorem readTransactionPrefix_canonical :
    Canonical readTransactionPrefix writeTransactionPrefix := by
  intro input value rest accepted
  simp only [readTransactionPrefix, Reader.bind_apply_ok] at accepted
  obtain ⟨version, afterVersion, versionRead, accepted⟩ := accepted
  split_ifs at accepted with wrongVersion
  · simp [Reader.bind_apply_ok] at accepted
  simp only [Reader.bind_apply_ok, Reader.pure_apply, Except.ok.injEq, Prod.mk.injEq] at accepted
  obtain ⟨unlockTime, afterUnlock, unlockRead, inputs, afterInputs, inputsRead, outputs,
    afterOutputs, outputsRead, extra, afterExtra, extraRead, rfl, rfl⟩ := accepted
  obtain ⟨inputBytes, inputsWritten, rfl⟩ :=
    readContainer_canonical readTransactionInput_canonical inputsRead
  obtain ⟨outputBytes, outputsWritten, rfl⟩ :=
    readContainer_canonical readTransactionOutput_canonical outputsRead
  refine ⟨uint8.write version ++ uint64.write unlockTime ++ inputBytes ++ outputBytes ++
    writeString extra, by simp [writeTransactionPrefix, wrongVersion, inputsWritten, outputsWritten], ?_⟩
  rw [uint8.canonical versionRead, uint64.canonical unlockRead, readString_canonical extraRead]
  simp

/-! ## Signatures -/

def SignaturesFit (inputs : List TransactionInput) (signatures : List (List Signature)) : Prop :=
  List.Forall₂ (fun input signatures => signatures.length = getSignaturesCount input) inputs signatures

theorem readSignatureLists_canonical :
    ∀ (inputs : List TransactionInput) {input rest : List UInt8} {signatures : List (List Signature)},
      readSignatureLists inputs input = .ok (signatures, rest) →
        SignaturesFit inputs signatures ∧
          ∃ encoding, writeSignatureLists inputs signatures = .ok encoding ∧ input = encoding ++ rest
  | [], input, rest, signatures, accepted => by
      simp only [readSignatureLists, Reader.pure_apply, Except.ok.injEq, Prod.mk.injEq] at accepted
      obtain ⟨rfl, rfl⟩ := accepted
      exact ⟨.nil, [], rfl, rfl⟩
  | first :: later, input, rest, signatures, accepted => by
      simp only [readSignatureLists, Reader.bind_apply_ok, Reader.pure_apply, Except.ok.injEq,
        Prod.mk.injEq] at accepted
      obtain ⟨own, afterOwn, ownRead, others, afterOthers, othersRead, rfl, rfl⟩ := accepted
      obtain ⟨counted, ownBytes, ownWritten, rfl⟩ :=
        Canonical.readMany (Canonical.of_bytes readSignature_canonical) _ ownRead
      obtain ⟨shaped, otherBytes, othersWritten, rfl⟩ := readSignatureLists_canonical later othersRead
      simp only [writeMany_pure, Except.ok.injEq] at ownWritten
      subst ownWritten
      refine ⟨.cons counted shaped, own.flatMap (fun signature => signature.pod.bytes) ++ otherBytes,
        ?_, by simp⟩
      simp [writeSignatureLists, counted, othersWritten]

theorem readTransaction_canonical (object : Transaction) :
    Canonical (readTransaction object) writeTransaction := by
  intro input value rest accepted
  simp only [readTransaction, Reader.bind_apply_ok] at accepted
  obtain ⟨transaction, afterPrefix, prefixRead, accepted⟩ := accepted
  obtain ⟨head, headWritten, rfl⟩ := readTransactionPrefix_canonical prefixRead
  generalize (if isCoinbaseInputs transaction.inputs then object.signatures
    else resize [] object.signatures transaction.inputs.length) = held at accepted
  split_ifs at accepted with noneHeld required mismatch
  · simp only [Reader.pure_apply, Except.ok.injEq, Prod.mk.injEq] at accepted
    obtain ⟨rfl, rfl⟩ := accepted
    exact ⟨head, by simp [writeTransaction, headWritten, noneHeld, required], rfl⟩
  · cases accepted
  · cases accepted
  · simp only [Reader.bind_apply_ok, Reader.pure_apply, Except.ok.injEq, Prod.mk.injEq] at accepted
    obtain ⟨signatures, afterSignatures, signaturesRead, rfl, rfl⟩ := accepted
    obtain ⟨shaped, signatureBytes, signaturesWritten, rfl⟩ :=
      readSignatureLists_canonical _ signaturesRead
    have sameLength : transaction.inputs.length = signatures.length := shaped.length_eq
    have heldLength : transaction.inputs.length = held.length := by simpa using mismatch
    have heldNonempty : 0 < held.length := List.length_pos_iff.mpr (by simpa using noneHeld)
    have expected : signatures.isEmpty = false := by
      cases signatures with
      | nil => simp only [List.length_nil] at sameLength; omega
      | cons first later => rfl
    refine ⟨head ++ signatureBytes, ?_, by simp⟩
    simp [writeTransaction, headWritten, expected, sameLength, signaturesWritten]

/-! ## Written transactions read back -/

def TransactionInput.Fits : TransactionInput → Prop
  | .key input => input.outputIndexes.length < 2 ^ 64
  | _ => True

def TransactionOutput.Fits (output : TransactionOutput) : Prop :=
  match output.target with
  | .key _ => True
  | .multisignature target => target.keys.length < 2 ^ 64

structure TransactionPrefix.Fits (transaction : TransactionPrefix) : Prop where
  inputs : transaction.inputs.length < 2 ^ 64
  outputs : transaction.outputs.length < 2 ^ 64
  extra : transaction.extra.length < 2 ^ 64
  each_input : ∀ input ∈ transaction.inputs, input.Fits
  each_output : ∀ output ∈ transaction.outputs, output.Fits

theorem readBaseInput_readsBack (input : BaseInput) :
    ReadsBack readBaseInput (uint32.write input.blockIndex) input :=
  ReadsBack.map BaseInput.mk (uint32.readsBack input.blockIndex)

theorem readKeyInput_readsBack {input : KeyInput} {encoding : List UInt8}
    (fits : input.outputIndexes.length < 2 ^ 64) (written : writeKeyInput input = .ok encoding) :
    ReadsBack readKeyInput encoding input := by
  simp only [writeKeyInput, written_bind_ok, pure, Except.pure, Except.ok.injEq] at written
  obtain ⟨indexBytes, indexesWritten, rfl⟩ := written
  have indexes := readContainer_readsBack (ReadsBack.of_bytes uint32.readsBack _) fits indexesWritten
  rw [List.append_assoc, ← List.append_nil input.keyImage.pod.bytes]
  exact ReadsBack.bind (uint64.readsBack input.amount)
    (ReadsBack.bind indexes (ReadsBack.bind (readKeyImage_readsBack input.keyImage) (ReadsBack.pure _)))

theorem readMultisignatureInput_readsBack (input : MultisignatureInput) :
    ReadsBack readMultisignatureInput
      (uint64.write input.amount ++ uint8.write input.signatureCount ++ uint32.write input.outputIndex)
      input := by
  rw [List.append_assoc, ← List.append_nil (uint32.write input.outputIndex)]
  exact ReadsBack.bind (uint64.readsBack input.amount)
    (ReadsBack.bind (uint8.readsBack input.signatureCount)
      (ReadsBack.bind (uint32.readsBack input.outputIndex) (ReadsBack.pure _)))

theorem tagged_readsBack {α β : Type} {body : Reader α} {next : UInt8 → Reader β} {tag : UInt8}
    {wrap : α → β} {encoding : List UInt8} {value : α} (selected : next tag = wrap <$> body)
    (back : ReadsBack body encoding value) :
    ReadsBack (readByte >>= next) (tag :: encoding) (wrap value) := by
  intro rest
  rw [List.cons_append, Reader.bind_apply_of_ok (readByte_cons tag (encoding ++ rest)), selected]
  exact ReadsBack.map wrap back rest

theorem readTransactionInput_readsBack {input : TransactionInput} {encoding : List UInt8}
    (fits : input.Fits) (written : writeTransactionInput input = .ok encoding) :
    ReadsBack readTransactionInput encoding input := by
  cases input with
  | base input =>
      simp only [writeTransactionInput, writeBaseInput, written_ok_bind, pure, Except.pure,
        Except.ok.injEq] at written
      subst written
      exact tagged_readsBack rfl (readBaseInput_readsBack input)
  | key input =>
      simp only [writeTransactionInput, written_bind_ok, pure, Except.pure, Except.ok.injEq] at written
      obtain ⟨body, bodyWritten, rfl⟩ := written
      exact tagged_readsBack rfl (readKeyInput_readsBack fits bodyWritten)
  | multisignature input =>
      simp only [writeTransactionInput, writeMultisignatureInput, written_ok_bind, pure, Except.pure,
        Except.ok.injEq] at written
      subst written
      exact tagged_readsBack rfl (readMultisignatureInput_readsBack input)

theorem readMultisignatureOutput_readsBack {output : MultisignatureOutput} {encoding : List UInt8}
    (fits : output.keys.length < 2 ^ 64) (written : writeMultisignatureOutput output = .ok encoding) :
    ReadsBack readMultisignatureOutput encoding output := by
  simp only [writeMultisignatureOutput, written_bind_ok, pure, Except.pure, Except.ok.injEq] at written
  obtain ⟨keyBytes, keysWritten, rfl⟩ := written
  have keys := readContainer_readsBack (ReadsBack.of_bytes readPublicKey_readsBack _) fits keysWritten
  rw [← List.append_nil (uint8.write output.requiredSignatureCount)]
  exact ReadsBack.bind keys (ReadsBack.bind (uint8.readsBack _) (ReadsBack.pure _))

theorem readTransactionOutput_readsBack {output : TransactionOutput} {encoding : List UInt8}
    (fits : output.Fits) (written : writeTransactionOutput output = .ok encoding) :
    ReadsBack readTransactionOutput encoding output := by
  simp only [writeTransactionOutput, written_bind_ok, pure, Except.pure, Except.ok.injEq] at written
  obtain ⟨targetBytes, targetWritten, rfl⟩ := written
  obtain ⟨amount, target⟩ := output
  have back : ReadsBack readTransactionOutputTarget targetBytes target := by
    cases target with
    | key target =>
        simp only [writeTransactionOutputTarget, writeKeyOutput, written_ok_bind, pure, Except.pure,
          Except.ok.injEq] at targetWritten
        subst targetWritten
        exact tagged_readsBack rfl (ReadsBack.map KeyOutput.mk (readPublicKey_readsBack target.key))
    | multisignature target =>
        simp only [writeTransactionOutputTarget, written_bind_ok, pure, Except.pure,
          Except.ok.injEq] at targetWritten
        obtain ⟨body, bodyWritten, rfl⟩ := targetWritten
        exact tagged_readsBack rfl (readMultisignatureOutput_readsBack fits bodyWritten)
  rw [← List.append_nil targetBytes]
  exact ReadsBack.bind (uint64.readsBack amount) (ReadsBack.bind back (ReadsBack.pure _))

theorem readTransactionPrefix_readsBack {transaction : TransactionPrefix} {encoding : List UInt8}
    (fits : transaction.Fits) (written : writeTransactionPrefix transaction = .ok encoding) :
    ReadsBack readTransactionPrefix encoding transaction := by
  simp only [writeTransactionPrefix] at written
  split_ifs at written with wrongVersion
  · simp [throw, throwThe, MonadExceptOf.throw] at written
  simp only [written_bind_ok, pure, Except.pure, Except.ok.injEq] at written
  obtain ⟨inputBytes, inputsWritten, outputBytes, outputsWritten, rfl⟩ := written
  have inputs := readContainer_readsBack
    (fun input member _ written => readTransactionInput_readsBack (fits.each_input input member) written)
    fits.inputs inputsWritten
  have outputs := readContainer_readsBack
    (fun output member _ written => readTransactionOutput_readsBack (fits.each_output output member) written)
    fits.outputs outputsWritten
  intro rest
  simp only [readTransactionPrefix, List.append_assoc]
  rw [Reader.bind_apply_of_ok (uint8.readsBack _ _), if_neg wrongVersion,
    Reader.bind_apply_of_ok (uint64.readsBack _ _), Reader.bind_apply_of_ok (inputs _),
    Reader.bind_apply_of_ok (outputs _), Reader.bind_apply_of_ok (readString_readsBack fits.extra _)]
  rfl

theorem writeSignatureLists_of_fit {inputs : List TransactionInput}
    {signatures : List (List Signature)} (fit : SignaturesFit inputs signatures) :
    writeSignatureLists inputs signatures =
      .ok (signatures.flatMap fun own => own.flatMap fun signature => signature.pod.bytes) := by
  unfold SignaturesFit at fit
  induction fit with
  | nil => rfl
  | cons counted _ inductionHypothesis =>
      simp [writeSignatureLists, counted, inductionHypothesis]

theorem readSignatureLists_readsBack {inputs : List TransactionInput}
    {signatures : List (List Signature)} (fit : SignaturesFit inputs signatures) :
    ReadsBack (readSignatureLists inputs)
      (signatures.flatMap fun own => own.flatMap fun signature => signature.pod.bytes) signatures := by
  unfold SignaturesFit at fit
  induction fit with
  | nil => exact ReadsBack.pure []
  | @cons input own later others counted _ inductionHypothesis =>
      have ownBack := ReadsBack.readMany own (ReadsBack.of_bytes readSignature_readsBack own) _
        (writeMany_pure _ own)
      rw [counted] at ownBack
      rw [List.flatMap_cons, ← List.append_nil (List.flatMap _ others)]
      exact ReadsBack.bind ownBack (ReadsBack.bind inductionHypothesis (ReadsBack.pure _))

def SignaturesNormal (transaction : Transaction) : Prop :=
  if isCoinbaseInputs transaction.inputs then transaction.signatures = []
  else SignaturesFit transaction.inputs transaction.signatures

theorem noSignaturesRequired_of_coinbase {inputs : List TransactionInput}
    (coinbase : isCoinbaseInputs inputs = true) : noSignaturesRequired inputs = true := by
  match inputs, coinbase with
  | [.base _], _ => rfl
  | [.key _], coinbase => simp [isCoinbaseInputs, isBaseInput] at coinbase
  | [.multisignature _], coinbase => simp [isCoinbaseInputs, isBaseInput] at coinbase

theorem readTransaction_readsBack {object transaction : Transaction} {encoding : List UInt8}
    (fresh : object.signatures = []) (fits : transaction.Fits) (normal : SignaturesNormal transaction)
    (written : writeTransaction transaction = .ok encoding) :
    ReadsBack (readTransaction object) encoding transaction := by
  simp only [writeTransaction, written_bind_ok] at written
  obtain ⟨head, headWritten, signaturesWritten⟩ := written
  have headBack := readTransactionPrefix_readsBack fits headWritten
  unfold SignaturesNormal at normal
  by_cases coinbase : isCoinbaseInputs transaction.inputs = true
  · rw [if_pos coinbase] at normal
    have required := noSignaturesRequired_of_coinbase coinbase
    simp only [normal, List.isEmpty_nil, required, if_true, pure, Except.pure,
      Except.ok.injEq] at signaturesWritten
    subst signaturesWritten
    intro rest
    simp only [readTransaction]
    rw [Reader.bind_apply_of_ok (headBack rest)]
    simp only [coinbase, if_true, fresh, List.isEmpty_nil, required, Reader.pure_apply]
    rw [← normal]
  rw [if_neg coinbase] at normal
  cases inputsEq : transaction.inputs with
  | nil =>
      rw [inputsEq] at normal
      have noSignatures : transaction.signatures = [] := List.forall₂_nil_left_iff.mp normal
      simp only [noSignatures, inputsEq, List.isEmpty_nil, noSignaturesRequired, List.all_nil,
        if_true, pure, Except.pure, Except.ok.injEq] at signaturesWritten
      subst signaturesWritten
      intro rest
      simp only [readTransaction]
      rw [Reader.bind_apply_of_ok (headBack rest)]
      simp only [inputsEq, isCoinbaseInputs, resize, List.take_zero, List.length_nil, Nat.zero_sub,
        List.replicate_zero, List.append_nil, List.isEmpty_nil, noSignaturesRequired, List.all_nil,
        if_true, Bool.false_eq_true, if_false, Reader.pure_apply]
      rw [← noSignatures]
  | cons first later =>
      have sameLength : transaction.inputs.length = transaction.signatures.length := normal.length_eq
      have someInputs : transaction.inputs.length ≠ 0 := by simp [inputsEq]
      have signed : transaction.signatures.isEmpty = false := by
        rw [Bool.eq_false_iff, ne_eq, List.isEmpty_iff, ← List.length_eq_zero_iff]
        omega
      have resized : (resize [] object.signatures transaction.inputs.length).isEmpty = false := by
        rw [Bool.eq_false_iff, ne_eq, List.isEmpty_iff, ← List.length_eq_zero_iff, length_resize]
        exact someInputs
      simp only [signed, sameLength, bne_self_eq_false, writeSignatureLists_of_fit normal,
        Bool.false_eq_true, if_false, written_ok_bind, pure, Except.pure,
        Except.ok.injEq] at signaturesWritten
      subst signaturesWritten
      intro rest
      simp only [readTransaction, List.append_assoc]
      rw [Reader.bind_apply_of_ok (headBack _)]
      simp only [coinbase, resized, length_resize, bne_self_eq_false, Bool.false_eq_true, if_false]
      rw [Reader.bind_apply_of_ok (readSignatureLists_readsBack normal rest)]
      rfl

/-! ## Whole blobs -/

section Blobs

variable {T : Type} {read : T → Reader T} {write : T → Written} {object value : T}
  {bytes : List UInt8}

theorem toBinaryArray_of_ok (written : write value = .ok bytes) :
    toBinaryArray write value = some bytes := by
  simp [toBinaryArray, written]

theorem fromBinaryArray_of_readsBack (back : ReadsBack (read object) bytes value) :
    fromBinaryArray read object bytes = some value := by
  have whole := back []
  rw [List.append_nil] at whole
  simp [fromBinaryArray, whole]

theorem write_of_toBinaryArray (encoded : toBinaryArray write value = some bytes) :
    write value = .ok bytes := by
  unfold toBinaryArray at encoded
  split at encoded
  · rename_i written
    cases encoded
    exact written
  · cases encoded

theorem read_of_fromBinaryArray (decoded : fromBinaryArray read object bytes = some value) :
    read object bytes = .ok (value, []) := by
  unfold fromBinaryArray at decoded
  split at decoded
  · rename_i rest accepted
    cases rest with
    | nil => cases decoded; exact accepted
    | cons _ _ => cases decoded
  · cases decoded

theorem toBinaryArray_of_fromBinaryArray (canonical : Canonical (read object) write)
    (decoded : fromBinaryArray read object bytes = some value) :
    toBinaryArray write value = some bytes := by
  obtain ⟨encoding, written, whole⟩ := canonical (read_of_fromBinaryArray decoded)
  rw [whole, List.append_nil]
  exact toBinaryArray_of_ok written

end Blobs

end Dynex
