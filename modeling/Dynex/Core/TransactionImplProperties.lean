import Dynex.Core.TransactionImpl
import Dynex.Core.TransactionExtraProperties
import Dynex.Core.TransactionSerializationProperties

/-!
# The caches of a transaction under construction

A `TransactionImpl` is coherent when its caches agree with its transaction: a cached hash is
`getObjectHash` of the transaction, and the parsed extra is the parse of the transaction's extra.
Every method invalidates the hash after it changes the transaction, and the methods that change
the extra write it again from the parsed fields. `appendExtra` does neither: it appends bytes and
a tx-key field to the extra and leaves both caches as they were.

Every call keeps the object coherent where it is made on the terms of `KeepsCaches`: any call
but the three that change the extra; a nonce the writer takes, set where the parsed extra has a
nonce to replace or does not end in a padding; `appendExtra` nowhere. A run of such calls keeps
it coherent from any coherent object (`applyAll_sound`).
-/

set_option autoImplicit false

namespace Dynex

open Codec Crypto TransactionTypes TransactionImpl

variable (crypto : TransactionCrypto)

/-! ## Running methods -/

section Running

variable {α β : Type}

theorem afterCall_bind_of_ok {method : Method α} {impl after : TransactionImpl} {value : α}
    (ran : method.run impl = .ok value after) (next : α → Method β) :
    afterCall (method >>= next) impl = afterCall (next value) after := by
  rw [afterCall, EStateM.run_bind, ran]
  rfl

theorem afterCall_bind_of_error {method : Method α} {impl after : TransactionImpl}
    {message : String} (ran : method.run impl = .error message after) (next : α → Method β) :
    afterCall (method >>= next) impl = after := by
  rw [afterCall, EStateM.run_bind, ran]

theorem afterCall_bind_pure (method : Method α) (result : α → β) (impl : TransactionImpl) :
    afterCall (method >>= fun value => pure (result value)) impl = afterCall method impl := by
  unfold afterCall
  rw [EStateM.run_bind]
  cases method.run impl <;> rfl

theorem afterCall_get_bind (next : TransactionImpl → Method α) (impl : TransactionImpl) :
    afterCall (get >>= next) impl = afterCall (next impl) impl := rfl

end Running

def signingMessage : String :=
  "Cannot perform requested operation, since it will invalidate transaction signatures"

theorem run_checkIfSigning (impl : TransactionImpl) :
    checkIfSigning.run impl =
      if impl.transaction.signatures.isEmpty then .ok () impl else .error signingMessage impl := by
  unfold checkIfSigning
  simp only [EStateM.run_bind, EStateM.run_get]
  cases impl.transaction.signatures.isEmpty <;> rfl

theorem afterCall_checkIfSigning_bind {α : Type} (next : Unit → Method α)
    (impl : TransactionImpl) :
    afterCall (checkIfSigning >>= next) impl =
      if impl.transaction.signatures.isEmpty then afterCall (next ()) impl else impl := by
  have checked := run_checkIfSigning impl
  cases signed : impl.transaction.signatures.isEmpty with
  | true =>
      rw [signed, if_pos rfl] at checked
      rw [if_pos rfl, afterCall_bind_of_ok checked]
  | false =>
      rw [signed, if_neg Bool.false_ne_true] at checked
      rw [if_neg Bool.false_ne_true, afterCall_bind_of_error checked]

/-! ## What each method does to the object -/

theorem afterCall_setUnlockTime (unlockTime : UInt64) (impl : TransactionImpl) :
    afterCall (setUnlockTime unlockTime) impl =
      if impl.transaction.signatures.isEmpty then
        { impl with transaction := { impl.transaction with unlockTime }, transactionHash := none }
      else impl := by
  rw [setUnlockTime, afterCall_checkIfSigning_bind]
  rfl

theorem afterCall_addInput (input : TransactionInput) (impl : TransactionImpl) :
    afterCall (addInput input) impl =
      if impl.transaction.signatures.isEmpty then
        { impl with
          transaction := { impl.transaction with inputs := impl.transaction.inputs ++ [input] },
          transactionHash := none }
      else impl := by
  rw [addInput, afterCall_checkIfSigning_bind]
  rfl

theorem afterCall_addInputFromKeys (senderKeys : AccountKeys) (info : InputKeyInfo)
    (impl : TransactionImpl) :
    afterCall (addInputFromKeys crypto senderKeys info) impl =
      afterCall (addKeyInput
        { amount := info.amount,
          keyImage := (crypto.generate_key_image_helper senderKeys
            info.realOutput.transactionPublicKey info.realOutput.outputInTransaction).2,
          outputIndexes := absolute_output_offsets_to_relative
            (info.outputs.map fun output => output.outputIndex) }) impl := by
  rw [addInputFromKeys, afterCall_checkIfSigning_bind]
  split
  · exact afterCall_bind_pure _ _ impl
  · rw [addKeyInput, afterCall_addInput, if_neg ‹_›]

theorem afterCall_addOutput (amount : UInt64) (target : TransactionOutputTarget)
    (impl : TransactionImpl) :
    afterCall (addOutput amount target) impl =
      if impl.transaction.signatures.isEmpty then
        { impl with
          transaction :=
            { impl.transaction with outputs := impl.transaction.outputs ++ [⟨amount, target⟩] },
          transactionHash := none }
      else impl := by
  rw [addOutput, afterCall_checkIfSigning_bind]
  rfl

theorem afterCall_addOutputToAddress (amount : UInt64) (destination : AccountPublicAddress)
    (impl : TransactionImpl) :
    afterCall (addOutputToAddress crypto amount destination) impl =
      match impl.secretKey with
      | some txKey =>
          afterCall (addOutput amount
            (.key ⟨derivePublicKey crypto destination txKey
              impl.transaction.outputs.length⟩)) impl
      | none => impl := by
  obtain ⟨transaction, _ | txKey, transactionHash, extra⟩ := impl
  · rw [addOutputToAddress, afterCall_checkIfSigning_bind]
    split <;> rfl
  · dsimp only
    rw [addOutputToAddress, afterCall_checkIfSigning_bind, afterCall_addOutput]
    by_cases unsigned : transaction.signatures.isEmpty
    · rw [if_pos unsigned, if_pos unsigned]
      rfl
    · rw [if_neg unsigned, if_neg unsigned]

theorem afterCall_addOutputToAddresses (amount : UInt64)
    (destinations : List AccountPublicAddress) (requiredSignatures : UInt32)
    (impl : TransactionImpl) :
    afterCall (addOutputToAddresses crypto amount destinations requiredSignatures) impl =
      match impl.secretKey with
      | some txKey =>
          afterCall (addOutput amount
            (.multisignature
              ⟨destinations.map fun address =>
                derivePublicKey crypto address txKey impl.transaction.outputs.length,
               requiredSignatures.toUInt8⟩)) impl
      | none => impl := by
  obtain ⟨transaction, _ | txKey, transactionHash, extra⟩ := impl
  · rw [addOutputToAddresses, afterCall_checkIfSigning_bind]
    split <;> rfl
  · dsimp only
    rw [addOutputToAddresses, afterCall_checkIfSigning_bind, afterCall_addOutput]
    by_cases unsigned : transaction.signatures.isEmpty
    · rw [if_pos unsigned, if_pos unsigned]
      rfl
    · rw [if_neg unsigned, if_neg unsigned]

theorem afterCall_setExtraNonce (nonce : List UInt8) (impl : TransactionImpl) :
    afterCall (setExtraNonce nonce) impl =
      if impl.transaction.signatures.isEmpty then
        { impl with
          extra := impl.extra.set (.nonce nonce),
          transaction :=
            { impl.transaction with extra := (impl.extra.set (.nonce nonce)).serialize },
          transactionHash := none }
      else impl := by
  rw [setExtraNonce, afterCall_checkIfSigning_bind]
  rfl

theorem afterCall_setPaymentId (hash : Hash) (impl : TransactionImpl) :
    afterCall (setPaymentId hash) impl =
      afterCall (setExtraNonce (setPaymentIdToTransactionExtraNonce hash)) impl := by
  rw [setPaymentId, afterCall_checkIfSigning_bind, afterCall_setExtraNonce]
  split <;> rfl

theorem afterCall_appendExtra (extraData : List UInt8) (impl : TransactionImpl) :
    afterCall (appendExtra crypto extraData) impl =
      if impl.transaction.signatures.isEmpty then
        { impl with
          transaction :=
            { impl.transaction with
              extra := addTxkeyToExtra (impl.transaction.extra ++ extraData)
                (impl.secretKey.getD crypto.uninitializedSecretKey) } }
      else impl := by
  rw [appendExtra, afterCall_checkIfSigning_bind]
  rfl

theorem afterCall_getTransactionHash (impl : TransactionImpl) :
    afterCall (getTransactionHash crypto) impl =
      match impl.transactionHash with
      | some _ => impl
      | none =>
          { impl with
            transactionHash := some (getObjectHash crypto writeTransaction impl.transaction) } := by
  obtain ⟨transaction, secretKey, _ | hash, extra⟩ := impl <;> rfl

/-! ### Signatures -/

theorem run_getSignatures (input : Nat) (change : List Signature → List Signature)
    (impl : TransactionImpl) :
    (getSignatures input change).run impl =
      if input < (growSignatures impl.transaction).signatures.length then
        .ok () { impl with
          transaction := { growSignatures impl.transaction with
            signatures := (growSignatures impl.transaction).signatures.modify input change } }
      else
        .error "Invalid input index"
          { impl with transaction := growSignatures impl.transaction } := by
  by_cases fits : input < (growSignatures impl.transaction).signatures.length
  · simp only [if_pos fits, getSignatures, modifyTransaction, EStateM.run_bind,
      EStateM.run_modify, EStateM.run_get]
    rw [if_neg (Nat.not_le.mpr fits)]
    rfl
  · simp only [if_neg fits, getSignatures, modifyTransaction, EStateM.run_bind,
      EStateM.run_modify, EStateM.run_get]
    rw [if_pos (Nat.not_lt.mp fits)]
    rfl

theorem afterCall_getSignatures_invalidateHash (input : Nat)
    (change : List Signature → List Signature) (impl : TransactionImpl) :
    afterCall (getSignatures input change >>= fun _ => invalidateHash) impl =
      if input < (growSignatures impl.transaction).signatures.length then
        { impl with
          transaction := { growSignatures impl.transaction with
            signatures := (growSignatures impl.transaction).signatures.modify input change },
          transactionHash := none }
      else { impl with transaction := growSignatures impl.transaction } := by
  have signed := run_getSignatures input change impl
  by_cases fits : input < (growSignatures impl.transaction).signatures.length
  · rw [if_pos fits] at signed
    rw [if_pos fits, afterCall_bind_of_ok signed]
    rfl
  · rw [if_neg fits] at signed
    rw [if_neg fits, afterCall_bind_of_error signed]

theorem run_getInputChecked (index : Nat) (type : InputType) (impl : TransactionImpl) :
    (∃ input, (getInputChecked index type).run impl = .ok input impl) ∨
      ∃ message, (getInputChecked index type).run impl = .error message impl := by
  unfold getInputChecked
  rw [EStateM.run_bind, EStateM.run_get]
  dsimp only
  split
  · exact Or.inr ⟨_, rfl⟩
  · split
    · exact Or.inr ⟨_, rfl⟩
    · exact Or.inl ⟨_, rfl⟩

theorem afterCall_signInputKey (index : Nat) (info : InputKeyInfo) (ephKeys : KeyPair)
    (impl : TransactionImpl) :
    afterCall (signInputKey crypto index info ephKeys) impl = impl ∨
      ∃ change, afterCall (signInputKey crypto index info ephKeys) impl =
        afterCall (getSignatures index change >>= fun _ => invalidateHash) impl := by
  rcases run_getInputChecked index .Key impl with ⟨input, checked⟩ | ⟨message, checked⟩
  · rw [signInputKey, afterCall_bind_of_ok checked]
    cases input with
    | key input =>
        rw [afterCall_get_bind]
        exact Or.inr ⟨_, rfl⟩
    | base _ => exact Or.inl rfl
    | multisignature _ => exact Or.inl rfl
  · rw [signInputKey, afterCall_bind_of_error checked]
    exact Or.inl rfl

theorem afterCall_signInputMultisignatureFromKeys (index : Nat) (sourceTransactionKey : PublicKey)
    (outputIndex : Nat) (accountKeys : AccountKeys) (impl : TransactionImpl) :
    ∃ signature,
      afterCall (signInputMultisignatureFromKeys crypto index sourceTransactionKey outputIndex
        accountKeys) impl = afterCall (addSignature index signature) impl :=
  ⟨_, afterCall_get_bind _ impl⟩

theorem afterCall_signInputMultisignature (index : Nat) (ephemeralKeys : KeyPair)
    (impl : TransactionImpl) :
    ∃ signature, afterCall (signInputMultisignature crypto index ephemeralKeys) impl =
      afterCall (addSignature index signature) impl :=
  ⟨_, afterCall_get_bind _ impl⟩

/-! ## Growing the signature lists leaves the transaction's bytes alone -/

def SignaturesShaped (transaction : Transaction) : Prop :=
  transaction.signatures = [] ∨ transaction.inputs.length ≤ transaction.signatures.length

theorem noSignaturesRequired_cons (input : TransactionInput) (later : List TransactionInput) :
    noSignaturesRequired (input :: later) =
      ((getSignaturesCount input == 0) && noSignaturesRequired later) := rfl

theorem writeSignatureLists_replicate_nil :
    ∀ inputs : List TransactionInput,
      writeSignatureLists inputs (List.replicate inputs.length []) =
        if noSignaturesRequired inputs then .ok []
        else .error "Serialization error: unexpected signatures size"
  | [] => rfl
  | input :: later => by
      rw [List.length_cons, List.replicate_succ, writeSignatureLists, noSignaturesRequired_cons]
      cases counted : getSignaturesCount input == 0
      · have needed : (getSignaturesCount input != ([] : List Signature).length) = true := by
          rw [List.length_nil, bne, counted]
          rfl
        rw [if_pos needed, Bool.false_and, if_neg Bool.false_ne_true]
        rfl
      · have unneeded : (getSignaturesCount input != ([] : List Signature).length) = false := by
          rw [List.length_nil, bne, counted]
          rfl
        rw [if_neg (by rw [unneeded]; exact Bool.false_ne_true),
          writeSignatureLists_replicate_nil later, Bool.true_and]
        cases noSignaturesRequired later <;> rfl

@[simp] theorem growSignatures_toTransactionPrefix (transaction : Transaction) :
    (growSignatures transaction).toTransactionPrefix = transaction.toTransactionPrefix := by
  unfold growSignatures
  split <;> rfl

theorem growSignatures_inputs (transaction : Transaction) :
    (growSignatures transaction).inputs = transaction.inputs :=
  congrArg TransactionPrefix.inputs (growSignatures_toTransactionPrefix transaction)

theorem inputs_le_growSignatures (transaction : Transaction) :
    transaction.inputs.length ≤ (growSignatures transaction).signatures.length := by
  unfold growSignatures
  split
  · rw [length_resize]
  · omega

/-- On a shaped transaction `getSignatures` grows only an empty list of signature lists, which
writes as the empty lists it grows into. -/
theorem toBinaryArray_growSignatures {transaction : Transaction}
    (shaped : SignaturesShaped transaction) :
    toBinaryArray writeTransaction (growSignatures transaction) =
      toBinaryArray writeTransaction transaction := by
  unfold growSignatures
  split
  · rename_i short
    obtain ⟨⟨version, unlockTime, inputs, outputs, extra⟩, signatures⟩ := transaction
    have unsigned : signatures = [] := shaped.resolve_right (Nat.not_le.mpr short)
    subst unsigned
    have nonempty : (List.replicate inputs.length ([] : List Signature)).isEmpty = false := by
      dsimp only at short
      cases inputs with
      | nil => cases short
      | cons _ _ => rfl
    have grown : resize [] ([] : List (List Signature)) inputs.length =
        List.replicate inputs.length [] := by
      simp [resize]
    dsimp only
    rw [grown]
    unfold toBinaryArray writeTransaction
    dsimp only
    cases writeTransactionPrefix ⟨version, unlockTime, inputs, outputs, extra⟩ with
    | error message => rfl
    | ok head =>
        rw [nonempty, List.length_replicate, bne_self_eq_false, writeSignatureLists_replicate_nil]
        cases noSignaturesRequired inputs
        · rfl
        · show some (head ++ []) = some head
          rw [List.append_nil]
  · rfl
/-! ## Setting a field in the parsed extra -/

theorem setField_ne_nil (value : TransactionExtraField) :
    ∀ fields : List TransactionExtraField, setField value fields ≠ []
  | [] => List.cons_ne_nil _ _
  | field :: fields => by
      rw [setField]
      split <;> exact List.cons_ne_nil _ _

theorem setField_writable {value : TransactionExtraField} (writable : value.Writable) :
    ∀ {fields : List TransactionExtraField}, (∀ field ∈ fields, field.Writable) →
      ∀ field ∈ setField value fields, field.Writable
  | [], _ => by
      intro field member
      rw [setField, List.mem_singleton] at member
      rw [member]
      exact writable
  | field :: fields, all => by
      have later : ∀ other ∈ fields, other.Writable :=
        fun other member => all other (List.mem_cons_of_mem _ member)
      rw [setField]
      split
      · intro other member
        rcases List.mem_cons.mp member with rfl | old
        · exact writable
        · exact later other old
      · intro other member
        rcases List.mem_cons.mp member with rfl | set
        · exact all other List.mem_cons_self
        · exact setField_writable writable later other set

/-- Where `set` puts a field other than a padding in the place of a field of its type, or after
a last field that is not a padding, a padding stays last. -/
theorem setField_paddingLast {value : TransactionExtraField}
    (notPadding : value.isPadding = false) :
    ∀ {fields : List TransactionExtraField},
      (∀ field ∈ fields.dropLast, field.isPadding = false) →
      ((∃ field ∈ fields, field.which = value.which) ∨
        ∀ field ∈ fields.getLast?, field.isPadding = false) →
      ∀ field ∈ (setField value fields).dropLast, field.isPadding = false
  | [], _, _ => by
      intro field member
      cases member
  | [field], _, settable => by
      rw [setField]
      split
      · intro other member
        cases member
      · rename_i different
        have last : field.isPadding = false := by
          rcases settable with ⟨other, member, same⟩ | last
          · rw [List.mem_singleton.mp member] at same
            exact absurd same different
          · exact last field rfl
        intro other member
        have placed : (field :: setField value []).dropLast = [field] := rfl
        rw [placed, List.mem_singleton] at member
        rw [member]
        exact last
  | field :: next :: rest, earlier, settable => by
      have earlierRest : ∀ other ∈ (next :: rest).dropLast, other.isPadding = false := by
        intro other member
        exact earlier other (by rw [List.dropLast_cons_cons]; exact List.mem_cons_of_mem _ member)
      have fieldEarly : field.isPadding = false :=
        earlier field (by rw [List.dropLast_cons_cons]; exact List.mem_cons_self)
      rw [setField]
      split
      · intro other member
        rw [List.dropLast_cons_cons] at member
        rcases List.mem_cons.mp member with rfl | later
        · exact notPadding
        · exact earlierRest other later
      · rename_i different
        intro other member
        rw [List.dropLast_cons_of_ne_nil (setField_ne_nil value _)] at member
        rcases List.mem_cons.mp member with rfl | later
        · exact fieldEarly
        · refine setField_paddingLast notPadding earlierRest ?_ other later
          rcases settable with ⟨other, member, same⟩ | last
          · rcases List.mem_cons.mp member with rfl | inRest
            · exact absurd same different
            · exact Or.inl ⟨other, inRest, same⟩
          · rw [List.getLast?_cons_cons] at last
            exact Or.inr last

theorem eq_nonce_of_nonce? {field : TransactionExtraField} {bytes : List UInt8}
    (isNonce : field.nonce? = some bytes) : field = .nonce bytes := by
  cases field <;> simp_all [TransactionExtraField.nonce?]

def TransactionExtra.NonceSettable (extra : TransactionExtra) : Prop :=
  extra.getNonce.isSome ∨ ∀ field ∈ extra.fields.getLast?, field.isPadding = false

theorem TransactionExtra.NonceSettable.placed {extra : TransactionExtra}
    (settable : extra.NonceSettable) (nonce : List UInt8) :
    (∃ field ∈ extra.fields, field.which = (TransactionExtraField.nonce nonce).which) ∨
      ∀ field ∈ extra.fields.getLast?, field.isPadding = false := by
  rcases settable with held | last
  · obtain ⟨bytes, found⟩ := Option.isSome_iff_exists.mp held
    obtain ⟨field, member, isNonce⟩ := List.exists_of_findSome?_eq_some found
    rw [eq_nonce_of_nonce? isNonce] at member
    exact Or.inl ⟨_, member, rfl⟩
  · exact Or.inr last

theorem setPaymentIdToTransactionExtraNonce_fits (hash : Hash) :
    (setPaymentIdToTransactionExtraNonce hash).length ≤ TX_EXTRA_NONCE_MAX_COUNT := by
  rw [setPaymentIdToTransactionExtraNonce, List.length_cons, hash.pod.length_eq]
  decide

/-! ## Coherent caches -/

namespace TransactionImpl

/-- The caches agree with the transaction: a cached hash is the transaction's hash, and the
parsed extra is what `parseTransactionExtra` reads from the transaction's extra. -/
structure Coherent (impl : TransactionImpl) : Prop where
  hash : ∀ hash, impl.transactionHash = some hash →
    hash = getObjectHash crypto writeTransaction impl.transaction
  extra : impl.extra.fields = (parseTransactionExtra impl.transaction.extra).2

/-- What the calls keep: coherent caches, and signature lists the serializer could have read. -/
structure Sound (impl : TransactionImpl) : Prop where
  coherent : Coherent crypto impl
  shaped : SignaturesShaped impl.transaction

end TransactionImpl

variable {crypto}

namespace TransactionImpl.Sound

variable {impl : TransactionImpl}

theorem invalidated (sound : Sound crypto impl) {transaction : Transaction}
    (sameExtra : transaction.extra = impl.transaction.extra)
    (shaped : SignaturesShaped transaction) :
    Sound crypto { impl with transaction, transactionHash := none } where
  coherent :=
    { hash := fun _ cached => by cases cached
      extra := by
        show impl.extra.fields = (parseTransactionExtra transaction.extra).2
        rw [sameExtra]
        exact sound.coherent.extra }
  shaped := shaped

theorem growSignatures_shaped (transaction : Transaction) :
    SignaturesShaped (growSignatures transaction) := by
  right
  rw [growSignatures_inputs]
  exact inputs_le_growSignatures transaction

theorem grown (sound : Sound crypto impl) :
    Sound crypto { impl with transaction := growSignatures impl.transaction } where
  coherent :=
    { hash := fun hash cached => by
        rw [sound.coherent.hash hash cached]
        unfold getObjectHash
        rw [toBinaryArray_growSignatures sound.shaped]
      extra := by
        show impl.extra.fields = (parseTransactionExtra (growSignatures impl.transaction).extra).2
        rw [growSignatures_toTransactionPrefix]
        exact sound.coherent.extra }
  shaped := growSignatures_shaped impl.transaction

theorem getSignatures_invalidateHash (sound : Sound crypto impl) (input : Nat)
    (change : List Signature → List Signature) :
    Sound crypto (afterCall (getSignatures input change >>= fun _ => invalidateHash) impl) := by
  rw [afterCall_getSignatures_invalidateHash]
  split
  · refine sound.grown.invalidated rfl (Or.inr ?_)
    show (growSignatures impl.transaction).inputs.length ≤
      ((growSignatures impl.transaction).signatures.modify input change).length
    rw [List.length_modify, growSignatures_inputs]
    exact inputs_le_growSignatures impl.transaction
  · exact sound.grown

theorem setUnlockTime (sound : Sound crypto impl) (unlockTime : UInt64) :
    Sound crypto (afterCall (TransactionImpl.setUnlockTime unlockTime) impl) := by
  rw [afterCall_setUnlockTime]
  split
  · exact sound.invalidated rfl sound.shaped
  · exact sound

theorem addInput (sound : Sound crypto impl) (input : TransactionInput) :
    Sound crypto (afterCall (TransactionImpl.addInput input) impl) := by
  rw [afterCall_addInput]
  split
  · exact sound.invalidated rfl (Or.inl (List.isEmpty_iff.mp ‹_›))
  · exact sound

theorem addOutput (sound : Sound crypto impl) (amount : UInt64)
    (target : TransactionOutputTarget) :
    Sound crypto (afterCall (TransactionImpl.addOutput amount target) impl) := by
  rw [afterCall_addOutput]
  split
  · exact sound.invalidated rfl sound.shaped
  · exact sound

theorem setExtraNonce (sound : Sound crypto impl) {nonce : List UInt8}
    (fits : nonce.length ≤ TX_EXTRA_NONCE_MAX_COUNT) (settable : impl.extra.NonceSettable) :
    Sound crypto (afterCall (TransactionImpl.setExtraNonce nonce) impl) := by
  rw [afterCall_setExtraNonce]
  split
  · have parsed : WritableFields impl.extra.fields := by
      rw [sound.coherent.extra]
      exact parseTransactionExtra_writable _
    have set : WritableFields (setField (.nonce nonce) impl.extra.fields) :=
      ⟨@setField_writable (.nonce nonce) fits _ parsed.1,
        setField_paddingLast rfl parsed.2 (settable.placed nonce)⟩
    refine ⟨⟨fun _ cached => (by cases cached), ?_⟩, sound.shaped⟩
    show setField (.nonce nonce) impl.extra.fields =
      (parseTransactionExtra
        (writeTransactionExtra [] (setField (.nonce nonce) impl.extra.fields)).2).2
    rw [parseTransactionExtra_serialize set]
  · exact sound

theorem getTransactionHash (sound : Sound crypto impl) :
    Sound crypto (afterCall (TransactionImpl.getTransactionHash crypto) impl) := by
  rw [afterCall_getTransactionHash]
  split
  · exact sound
  · exact
      ⟨⟨fun _ cached => (Option.some.inj cached).symm, sound.coherent.extra⟩, sound.shaped⟩

end TransactionImpl.Sound

/-! ## Runs of calls -/

/-- Where a call keeps the caches coherent: a nonce the writer takes, set where it leaves a
padding last; `appendExtra` nowhere; any other call anywhere. -/
def TransactionCall.KeepsCaches (impl : TransactionImpl) : TransactionCall → Prop
  | .setExtraNonce nonce => nonce.length ≤ TX_EXTRA_NONCE_MAX_COUNT ∧ impl.extra.NonceSettable
  | .setPaymentId _ => impl.extra.NonceSettable
  | .appendExtra _ => False
  | _ => True

/-- Each call of a run made where it keeps the caches coherent. -/
def TransactionCall.AllKeepCaches (crypto : TransactionCrypto) :
    List TransactionCall → TransactionImpl → Prop
  | [], _ => True
  | call :: calls, impl =>
      call.KeepsCaches impl ∧ AllKeepCaches crypto calls (call.apply crypto impl)

namespace TransactionImpl.Sound

variable {impl : TransactionImpl}

/-- The step: a call made where it keeps the caches keeps the object sound. -/
theorem apply (sound : Sound crypto impl) {call : TransactionCall}
    (keeps : call.KeepsCaches impl) : Sound crypto (call.apply crypto impl) := by
  cases call with
  | addKeyInput input => exact sound.addInput _
  | addMultisignatureInput input => exact sound.addInput _
  | addInputFromKeys senderKeys info =>
      rw [TransactionCall.apply, afterCall_addInputFromKeys]
      exact sound.addInput _
  | addOutputToAddress amount destination =>
      rw [TransactionCall.apply, afterCall_addOutputToAddress]
      split
      · exact sound.addOutput _ _
      · exact sound
  | addOutputToAddresses amount destinations requiredSignatures =>
      rw [TransactionCall.apply, afterCall_addOutputToAddresses]
      split
      · exact sound.addOutput _ _
      · exact sound
  | addKeyOutput amount out => exact sound.addOutput _ _
  | addMultisignatureOutput amount out => exact sound.addOutput _ _
  | setUnlockTime unlockTime => exact sound.setUnlockTime _
  | setPaymentId hash =>
      rw [TransactionCall.apply, afterCall_setPaymentId]
      exact sound.setExtraNonce (setPaymentIdToTransactionExtraNonce_fits hash) keeps
  | setExtraNonce nonce => exact sound.setExtraNonce keeps.1 keeps.2
  | appendExtra extraData => exact keeps.elim
  | signInputKey index info ephKeys =>
      rw [TransactionCall.apply]
      rcases afterCall_signInputKey crypto index info ephKeys impl with same | ⟨change, signed⟩
      · rw [same]
        exact sound
      · rw [signed]
        exact sound.getSignatures_invalidateHash _ _
  | signInputMultisignatureFromKeys index sourceTransactionKey outputIndex accountKeys =>
      rw [TransactionCall.apply]
      obtain ⟨signature, signed⟩ := afterCall_signInputMultisignatureFromKeys crypto index
        sourceTransactionKey outputIndex accountKeys impl
      rw [signed]
      exact sound.getSignatures_invalidateHash _ _
  | signInputMultisignature index ephemeralKeys =>
      rw [TransactionCall.apply]
      obtain ⟨signature, signed⟩ :=
        afterCall_signInputMultisignature crypto index ephemeralKeys impl
      rw [signed]
      exact sound.getSignatures_invalidateHash _ _
  | getTransactionHash => exact sound.getTransactionHash

end TransactionImpl.Sound

theorem applyAll_sound :
    ∀ (calls : List TransactionCall) {impl : TransactionImpl}, Sound crypto impl →
      TransactionCall.AllKeepCaches crypto calls impl →
        Sound crypto (TransactionCall.applyAll crypto calls impl)
  | [], _, sound, _ => sound
  | _ :: calls, _, sound, ⟨keeps, later⟩ => applyAll_sound calls (sound.apply keeps) later

/-! ## Where a transaction under construction starts -/

theorem shaped_of_writeTransaction {transaction : Transaction} {bytes : List UInt8}
    (written : writeTransaction transaction = .ok bytes) : SignaturesShaped transaction := by
  by_cases unsigned : transaction.signatures.isEmpty
  · exact Or.inl (List.isEmpty_iff.mp unsigned)
  · right
    unfold writeTransaction at written
    cases head : writeTransactionPrefix transaction.toTransactionPrefix with
    | error message =>
        rw [head] at written
        cases written
    | ok head =>
        rw [head] at written
        by_cases differ : (transaction.inputs.length != transaction.signatures.length) = true
        · simp [unsigned, differ] at written
        · simp only [bne_iff_ne, ne_eq, Decidable.not_not] at differ
          omega

theorem sound_create (txKeys : KeyPair) : Sound crypto (create txKeys) where
  coherent :=
    { hash := fun _ cached => by cases cached
      extra := by
        have writable : WritableFields [TransactionExtraField.publicKey txKeys.publicKey] :=
          ⟨fun field member => by rw [List.mem_singleton.mp member]; trivial,
           fun _ member => by cases member⟩
        show [TransactionExtraField.publicKey txKeys.publicKey] =
          (parseTransactionExtra
            (writeTransactionExtra [] [TransactionExtraField.publicKey txKeys.publicKey]).2).2
        rw [parseTransactionExtra_serialize writable] }
  shaped := Or.inl rfl

theorem sound_ofBinaryArray {ba : List UInt8} {impl : TransactionImpl}
    (made : ofBinaryArray crypto ba = .ok impl) : Sound crypto impl := by
  unfold ofBinaryArray at made
  split at made
  · cases made
  · rename_i transaction decoded
    cases made
    have encoded :=
      toBinaryArray_of_fromBinaryArray (readTransaction_canonical emptyTransaction) decoded
    refine ⟨⟨fun hash cached => ?_, rfl⟩,
      shaped_of_writeTransaction (write_of_toBinaryArray encoded)⟩
    rw [← Option.some.inj cached]
    unfold getObjectHash
    rw [encoded]

theorem sound_ofTransaction {tx : Transaction} (shaped : SignaturesShaped tx) :
    Sound crypto (ofTransaction tx) :=
  ⟨⟨fun _ cached => (by cases cached), rfl⟩, shaped⟩

/-! ## The caches over whole runs, and `appendExtra` -/

variable (crypto)

/-- From every constructor, the caches stay coherent over every run of calls each made where it
keeps them; `appendExtra` changes the extra's bytes and leaves the cached hash and the parsed
extra as they were. -/
theorem transaction_caches_coherent_except_appendExtra :
    (∀ (txKeys : KeyPair) (calls : List TransactionCall),
      TransactionCall.AllKeepCaches crypto calls (create txKeys) →
        Coherent crypto (TransactionCall.applyAll crypto calls (create txKeys))) ∧
    (∀ (ba : List UInt8) (impl : TransactionImpl) (calls : List TransactionCall),
      ofBinaryArray crypto ba = .ok impl → TransactionCall.AllKeepCaches crypto calls impl →
        Coherent crypto (TransactionCall.applyAll crypto calls impl)) ∧
    (∀ (tx : Transaction) (calls : List TransactionCall), SignaturesShaped tx →
      TransactionCall.AllKeepCaches crypto calls (ofTransaction tx) →
        Coherent crypto (TransactionCall.applyAll crypto calls (ofTransaction tx))) ∧
    (∀ (impl : TransactionImpl) (extraData : List UInt8), impl.transaction.signatures = [] →
      (afterCall (appendExtra crypto extraData) impl).transactionHash = impl.transactionHash ∧
        (afterCall (appendExtra crypto extraData) impl).extra = impl.extra ∧
        (afterCall (appendExtra crypto extraData) impl).transaction.extra =
          addTxkeyToExtra (impl.transaction.extra ++ extraData)
            (impl.secretKey.getD crypto.uninitializedSecretKey)) := by
  refine ⟨fun txKeys calls keeps => ?_, fun ba impl calls made keeps => ?_,
    fun tx calls shaped keeps => ?_, fun impl extraData unsigned => ?_⟩
  · exact (applyAll_sound calls (sound_create txKeys) keeps).coherent
  · exact (applyAll_sound calls (sound_ofBinaryArray made) keeps).coherent
  · exact (applyAll_sound calls (sound_ofTransaction shaped) keeps).coherent
  · rw [afterCall_appendExtra, if_pos (List.isEmpty_iff.mpr unsigned)]
    exact ⟨rfl, rfl, rfl⟩

/-- A transaction created, its hash read, then `appendExtra` of no bytes: the cached hash is
still that of the transaction before the call, and the parsed extra lacks the tx-key field the
call wrote. A `setPaymentId` after it writes the extra again from the parsed fields, and the
tx-key field is gone. -/
theorem appendExtra_stale_caches :
    let created := create ⟨NULL_PUBLIC_KEY, ⟨Pod.zero 32⟩⟩
    let appended := TransactionCall.applyAll crypto [.getTransactionHash, .appendExtra []] created
    appended.transactionHash = some (getObjectHash crypto writeTransaction created.transaction) ∧
      appended.transaction ≠ created.transaction ∧
      appended.extra.fields ≠ (parseTransactionExtra appended.transaction.extra).2 ∧
      (parseTransactionExtra
        (TransactionCall.applyAll crypto [.setPaymentId NULL_HASH] appended).transaction.extra).2 =
        [.publicKey NULL_PUBLIC_KEY, .nonce (setPaymentIdToTransactionExtraNonce NULL_HASH)] := by
  intro created appended
  have fields : appended.extra.fields = [.publicKey NULL_PUBLIC_KEY] := rfl
  have bytes : appended.transaction.extra =
      (writeTransactionExtra [] [.publicKey NULL_PUBLIC_KEY, .txkey ⟨Pod.zero 32⟩]).2 := rfl
  have paid :
      (TransactionCall.applyAll crypto [.setPaymentId NULL_HASH] appended).transaction.extra =
        (writeTransactionExtra []
          [.publicKey NULL_PUBLIC_KEY, .nonce (setPaymentIdToTransactionExtraNonce NULL_HASH)]).2 :=
    rfl
  have keyAndTxkey : WritableFields [.publicKey NULL_PUBLIC_KEY, .txkey ⟨Pod.zero 32⟩] :=
    ⟨by simp [TransactionExtraField.Writable], by simp [TransactionExtraField.isPadding]⟩
  have keyAndNonce :
      WritableFields
        [.publicKey NULL_PUBLIC_KEY, .nonce (setPaymentIdToTransactionExtraNonce NULL_HASH)] :=
    ⟨by simp [TransactionExtraField.Writable, setPaymentIdToTransactionExtraNonce_fits],
     by simp [TransactionExtraField.isPadding]⟩
  refine ⟨rfl, fun same => ?_, ?_, ?_⟩
  · have longer : appended.transaction.extra.length = created.transaction.extra.length := by
      rw [same]
    rw [bytes] at longer
    exact absurd longer (by decide)
  · rw [fields, bytes, parseTransactionExtra_serialize keyAndTxkey]
    decide
  · rw [paid, parseTransactionExtra_serialize keyAndNonce]

/-- A crypto library whose every key, key image, signature and hash is zero. -/
def zeroTransactionCrypto : TransactionCrypto :=
  { cn_fast_hash := fun _ => NULL_HASH
    generate_key_derivation := fun _ _ => ⟨Pod.zero 32⟩
    derive_public_key := fun _ _ _ => ⟨Pod.zero 32⟩
    derive_secret_key := fun _ _ _ => ⟨Pod.zero 32⟩
    generate_key_image_helper := fun _ _ _ => (⟨⟨Pod.zero 32⟩, ⟨Pod.zero 32⟩⟩, ⟨Pod.zero 32⟩)
    generate_ring_signature := fun _ _ _ _ _ => []
    generate_signature := fun _ _ _ => ⟨Pod.zero 64⟩
    uninitializedSecretKey := ⟨Pod.zero 32⟩ }

/-- Over the zero crypto: after the hash is read, `appendExtra` of no bytes keeps the cached hash
and the parsed fields stale, and a `setPaymentId` after it drops the tx-key field. -/
theorem appendExtra_leaves_caches_stale :
    let created := create ⟨NULL_PUBLIC_KEY, ⟨Pod.zero 32⟩⟩
    let appended :=
      TransactionCall.applyAll zeroTransactionCrypto [.getTransactionHash, .appendExtra []] created
    appended.transactionHash =
        some (getObjectHash zeroTransactionCrypto writeTransaction created.transaction) ∧
      appended.transaction ≠ created.transaction ∧
      appended.extra.fields ≠ (parseTransactionExtra appended.transaction.extra).2 ∧
      (parseTransactionExtra (TransactionCall.applyAll zeroTransactionCrypto
          [.setPaymentId NULL_HASH] appended).transaction.extra).2 =
        [.publicKey NULL_PUBLIC_KEY, .nonce (setPaymentIdToTransactionExtraNonce NULL_HASH)] :=
  appendExtra_stale_caches zeroTransactionCrypto

end Dynex
