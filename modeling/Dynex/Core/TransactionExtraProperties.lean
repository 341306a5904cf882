import Dynex.Core.TransactionExtra

/-!
# The extra field: written fields parse back

`writeTransactionExtra` appends each field's tag and body. A field the writer accepts has a body
that its reader in `parseTransactionExtra` reads back, whatever follows. The exception is the
padding, which has no length: it reads to the end of the extra, so it parses back only as the
last field (`transaction_extra_round_trip`). Every field reader reads only bytes of its input,
and returns an error where the input is too short.
-/

set_option autoImplicit false

namespace Dynex

open Codec Common Crypto

/-- What the writer and the parser need of a field: a padding of one to
`TX_EXTRA_PADDING_MAX_COUNT` bytes, a nonce of at most `TX_EXTRA_NONCE_MAX_COUNT` bytes, an amount
of eight bytes, and a merge tag whose depth is a 64-bit value. -/
def TransactionExtraField.Writable : TransactionExtraField → Prop
  | .padding size => 1 ≤ size ∧ size ≤ TX_EXTRA_PADDING_MAX_COUNT
  | .nonce bytes => bytes.length ≤ TX_EXTRA_NONCE_MAX_COUNT
  | .mergeTag tag => tag.depth < 2 ^ 64
  | .amount bytes => bytes.length = 8
  | _ => True

def TransactionExtraField.isPadding : TransactionExtraField → Bool
  | .padding _ => true
  | _ => false

def fieldBytes (field : TransactionExtraField) : List UInt8 :=
  (ExtraSerializerVisitor [] field).getD []

/-! ## Writing -/

theorem ExtraSerializerVisitor_of_writable (extra : List UInt8) {field : TransactionExtraField}
    (writable : field.Writable) :
    ExtraSerializerVisitor extra field = some (extra ++ fieldBytes field) := by
  cases field with
  | padding size =>
      have fits : ¬size > TX_EXTRA_PADDING_MAX_COUNT := Nat.not_lt.mpr writable.2
      simp [fieldBytes, ExtraSerializerVisitor, fits]
  | nonce bytes =>
      have fits : ¬bytes.length > TX_EXTRA_NONCE_MAX_COUNT := Nat.not_lt.mpr writable
      simp [fieldBytes, ExtraSerializerVisitor, addExtraNonceToTransactionExtra, fits]
  | amount bytes =>
      have sized : bytes.length = 8 := writable
      simp [fieldBytes, ExtraSerializerVisitor, addAmountToExtra, sized]
  | publicKey _ | mergeTag _ | fromAddress _ | toAddress _ | txkey _ =>
      simp [fieldBytes, ExtraSerializerVisitor, addTransactionPublicKeyToExtra,
        appendMergeMiningTagToExtra, addFromAddressToExtra, addToAddressToExtra,
        addAddressToExtra, addTxkeyToExtra]

theorem writeTransactionExtra_of_writable :
    ∀ (fields : List TransactionExtraField) (extra : List UInt8),
      (∀ field ∈ fields, field.Writable) →
        writeTransactionExtra extra fields = (true, extra ++ fields.flatMap fieldBytes)
  | [], extra, _ => by simp [writeTransactionExtra]
  | field :: fields, extra, writable => by
      rw [writeTransactionExtra,
        ExtraSerializerVisitor_of_writable extra (writable field List.mem_cons_self)]
      simp only
      rw [writeTransactionExtra_of_writable fields _
        fun other member => writable other (List.mem_cons_of_mem _ member),
        List.flatMap_cons, List.append_assoc]

/-! ## Reading back -/

theorem readExtraNonce_readsBack {nonce : List UInt8}
    (fits : nonce.length ≤ TX_EXTRA_NONCE_MAX_COUNT) :
    ReadsBack readExtraNonce (nonce.length.toUInt8 :: nonce) nonce := by
  intro rest
  have size : nonce.length.toUInt8.toNat = nonce.length :=
    toUInt8_toNat_of_lt (Nat.lt_of_le_of_lt fits (by decide))
  have within : ¬nonce.length.toUInt8.toNat > (nonce ++ rest).length := by
    rw [size, List.length_append]
    omega
  rw [List.cons_append]
  refine (Reader.bind_apply_of_ok (readByte_cons _ _) _).trans ?_
  show (if _ then _ else _) = _
  rw [if_neg within, size]
  exact takeBytes_append _ nonce rest

theorem length_writeVarintLoop_le :
    ∀ (fuel value : Nat), (writeVarintLoop fuel value).length ≤ fuel + 1
  | 0, _ => by simp [writeVarintLoop]
  | fuel + 1, value => by
      have later := length_writeVarintLoop_le fuel (value >>> 7)
      rw [writeVarintLoop]
      split <;> simp only [List.length_cons, List.length_nil] <;> omega

theorem readMergeTag_readsBack {tag : TransactionExtraMergeTag} (fits : tag.depth < 2 ^ 64) :
    ReadsBack readMergeTag (writeMergeTag tag) tag := by
  intro rest
  have depth := @readVarint_writeVarint 64 tag.depth.toUInt64
    (by rw [UInt64.toNat_ofNat_of_lt' fits]; exact fits)
  rw [UInt64.toNat_ofNat_of_lt' fits] at depth
  have body : ReadsBack readMergeTagBody
      (writeVarint tag.depth.toUInt64 ++ (tag.merkleRoot.pod.bytes ++ [])) tag :=
    ReadsBack.bind depth (ReadsBack.bind (readHash_readsBack tag.merkleRoot) (ReadsBack.pure tag))
  rw [List.append_nil] at body
  have length : (writeVarint tag.depth.toUInt64 ++ tag.merkleRoot.pod.bytes).length < 2 ^ 64 := by
    have short := length_writeVarintLoop_le 10 tag.depth.toUInt64.toNat
    rw [List.length_append, tag.merkleRoot.pod.length_eq, writeVarint]
    omega
  rw [readMergeTag, writeMergeTag, readString_readsBack length rest]
  simp only
  rw [← List.append_nil (writeVarint _ ++ _), body []]

theorem readAddress_readsBack (mk : AccountPublicAddress → TransactionExtraField)
    (address : AccountPublicAddress) :
    ReadsBack (do
        let spend ← readPublicKey
        let view ← readPublicKey
        pure (some (mk ⟨spend, view⟩)))
      (address.spendPublicKey.pod.bytes ++ address.viewPublicKey.pod.bytes)
      (some (mk address)) := by
  have both : ReadsBack (do
        let spend ← readPublicKey
        let view ← readPublicKey
        pure (some (mk ⟨spend, view⟩)))
      (address.spendPublicKey.pod.bytes ++ (address.viewPublicKey.pod.bytes ++ []))
      (some (mk address)) :=
    ReadsBack.bind (readPublicKey_readsBack address.spendPublicKey)
    (ReadsBack.bind (readPublicKey_readsBack address.viewPublicKey)
      (ReadsBack.pure (some (mk address))))
  rwa [List.append_nil] at both

/-- A field other than padding is its tag and a body that the field's reader reads back. -/
theorem fieldBytes_readsBack {field : TransactionExtraField} (writable : field.Writable)
    (notPadding : field.isPadding = false) :
    ∃ tag body, fieldBytes field = tag :: body ∧
      ReadsBack (readExtraField tag) body (some field) := by
  cases field with
  | padding size => cases notPadding
  | publicKey key =>
      exact ⟨TX_EXTRA_TAG_PUBKEY, key.pod.bytes, rfl,
        ReadsBack.map _ (readPublicKey_readsBack key)⟩
  | nonce bytes =>
      have fits : ¬bytes.length > TX_EXTRA_NONCE_MAX_COUNT := Nat.not_lt.mpr writable
      exact ⟨TX_EXTRA_NONCE, bytes.length.toUInt8 :: bytes,
        by simp [fieldBytes, ExtraSerializerVisitor, addExtraNonceToTransactionExtra, fits],
        ReadsBack.map _ (readExtraNonce_readsBack writable)⟩
  | mergeTag tag =>
      exact ⟨TX_EXTRA_MERGE_MINING_TAG, writeMergeTag tag, rfl,
        ReadsBack.map _ (readMergeTag_readsBack writable)⟩
  | fromAddress address =>
      exact ⟨TX_EXTRA_FROM_ADDRESS, _, rfl, readAddress_readsBack _ address⟩
  | toAddress address =>
      exact ⟨TX_EXTRA_TO_ADDRESS, _, rfl, readAddress_readsBack _ address⟩
  | amount bytes =>
      have sized : bytes.length = 8 := writable
      have read := ReadsBack.map (some ∘ TransactionExtraField.amount)
        (ReadsBack.takeBytes "Failed to read from IInputStream" bytes)
      rw [sized] at read
      exact ⟨TX_EXTRA_AMOUNT, bytes,
        by simp [fieldBytes, ExtraSerializerVisitor, addAmountToExtra, sized],
        read⟩
  | txkey key =>
      exact ⟨TX_EXTRA_TXKEY, key.pod.bytes, rfl, ReadsBack.map _ (readPod_readsBack key.pod)⟩

theorem readPaddingLoop_zeros :
    ∀ (zeros size : Nat), size + zeros ≤ TX_EXTRA_PADDING_MAX_COUNT →
      readPaddingLoop size (List.replicate zeros 0) = .ok (size + zeros, [])
  | 0, size, fits => by
      rw [List.replicate_zero, readPaddingLoop, if_neg (by omega)]
      rfl
  | zeros + 1, size, fits => by
      rw [List.replicate_succ, readPaddingLoop, if_pos (by omega), if_neg (by decide),
        readPaddingLoop_zeros zeros (size + 1) (by omega), Nat.add_right_comm, Nat.add_assoc]

theorem fieldBytes_padding {size : Nat} (writable : (TransactionExtraField.padding size).Writable) :
    fieldBytes (.padding size) = TX_EXTRA_TAG_PADDING :: List.replicate (size - 1) 0 ∧
      readExtraField TX_EXTRA_TAG_PADDING (List.replicate (size - 1) 0) =
        .ok (some (.padding size), []) := by
  obtain ⟨low, high⟩ := writable
  have fits : ¬size > TX_EXTRA_PADDING_MAX_COUNT := Nat.not_lt.mpr high
  constructor
  · rw [fieldBytes, ExtraSerializerVisitor, if_neg fits, Option.getD_some, List.nil_append]
    conv_lhs => rw [← Nat.sub_add_cancel low, List.replicate_succ]
    rfl
  · show ((some ∘ TransactionExtraField.padding) <$> readPaddingLoop 1) _ = _
    rw [Reader.map_apply_ok]
    exact ⟨size, by rw [readPaddingLoop_zeros _ 1 (by omega), Nat.add_sub_cancel' low], rfl⟩

theorem isPadding_eq_true {field : TransactionExtraField} :
    field.isPadding = true ↔ ∃ size, field = .padding size := by
  cases field <;> simp [TransactionExtraField.isPadding]

/-! ## The parse loop on written fields -/

theorem parseTransactionExtraLoop_nil (fuel : Nat) (parsed : List TransactionExtraField) :
    parseTransactionExtraLoop fuel parsed [] = (true, parsed) := by
  cases fuel <;> rfl

theorem parseTransactionExtraLoop_read {fuel : Nat} {parsed : List TransactionExtraField}
    {tag : UInt8} {input later : List UInt8} {field : TransactionExtraField}
    (read : readExtraField tag input = .ok (some field, later)) :
    parseTransactionExtraLoop (fuel + 1) parsed (tag :: input) =
      parseTransactionExtraLoop fuel (parsed ++ [field]) later := by
  rw [parseTransactionExtraLoop, read]

theorem parseTransactionExtra_eq_loop (extra : List UInt8) :
    parseTransactionExtra extra = parseTransactionExtraLoop extra.length [] extra := by
  unfold parseTransactionExtra
  split
  · rename_i empty
    rw [List.isEmpty_iff.mp empty]
    rfl
  · rfl

/-- The loop parses the bytes of writable fields back into the fields when a padding, which
reads to the end of the extra, comes only last. -/
theorem parseTransactionExtraLoop_fieldBytes :
    ∀ (fields : List TransactionExtraField) (fuel : Nat) (parsed : List TransactionExtraField),
      (∀ field ∈ fields, field.Writable) →
      (∀ field ∈ fields.dropLast, field.isPadding = false) →
      (fields.flatMap fieldBytes).length ≤ fuel →
      parseTransactionExtraLoop fuel parsed (fields.flatMap fieldBytes) = (true, parsed ++ fields)
  | [], fuel, parsed, _, _, _ => by
      rw [List.flatMap_nil, parseTransactionExtraLoop_nil, List.append_nil]
  | field :: rest, fuel, parsed, writable, paddingLast, enough => by
      have fieldWritable := writable field List.mem_cons_self
      rw [List.flatMap_cons] at enough ⊢
      cases padded : field.isPadding
      · have restWritable : ∀ later ∈ rest, later.Writable :=
          fun later member => writable later (List.mem_cons_of_mem _ member)
        have restPaddingLast : ∀ later ∈ rest.dropLast, later.isPadding = false := by
          intro later member
          cases rest with
          | nil => cases member
          | cons next others =>
              exact paddingLast later
                (by rw [List.dropLast_cons_cons]; exact List.mem_cons_of_mem _ member)
        obtain ⟨tag, body, bytes, readBack⟩ := fieldBytes_readsBack fieldWritable padded
        rw [bytes, List.cons_append] at enough ⊢
        rw [List.length_cons, List.length_append] at enough
        obtain ⟨fuel, rfl⟩ : ∃ lower, fuel = lower + 1 := ⟨fuel - 1, by omega⟩
        rw [parseTransactionExtraLoop_read (readBack _),
          parseTransactionExtraLoop_fieldBytes rest fuel _ restWritable restPaddingLast (by omega),
          List.append_assoc, List.singleton_append]
      · obtain ⟨size, rfl⟩ := isPadding_eq_true.mp padded
        obtain rfl : rest = [] := by
          cases rest with
          | nil => rfl
          | cons next others =>
              have notPadding :=
                paddingLast _ (by rw [List.dropLast_cons_cons]; exact List.mem_cons_self)
              rw [padded] at notPadding
              cases notPadding
        obtain ⟨bytes, read⟩ := fieldBytes_padding fieldWritable
        rw [List.flatMap_nil, List.append_nil, bytes] at enough ⊢
        rw [List.length_cons] at enough
        obtain ⟨fuel, rfl⟩ : ∃ lower, fuel = lower + 1 := ⟨fuel - 1, by omega⟩
        rw [parseTransactionExtraLoop_read read, parseTransactionExtraLoop_nil]

theorem parseTransactionExtra_writeTransactionExtra {fields : List TransactionExtraField}
    (writable : ∀ field ∈ fields, field.Writable)
    (paddingLast : ∀ field ∈ fields.dropLast, field.isPadding = false) :
    writeTransactionExtra [] fields = (true, fields.flatMap fieldBytes) ∧
      parseTransactionExtra (fields.flatMap fieldBytes) = (true, fields) := by
  constructor
  · rw [writeTransactionExtra_of_writable fields [] writable, List.nil_append]
  · rw [parseTransactionExtra_eq_loop,
      parseTransactionExtraLoop_fieldBytes fields _ [] writable paddingLast (Nat.le_refl _),
      List.nil_append]

/-! ## Every field reader stays within its input -/

theorem readPaddingLoop_within (size : Nat) : ReadsWithin (readPaddingLoop size) := by
  intro input count rest read
  induction input generalizing size with
  | nil =>
      rw [readPaddingLoop] at read
      split at read
      · cases read
      · cases read
        exact List.suffix_refl []
  | cons byte input later =>
      rw [readPaddingLoop] at read
      split_ifs at read
      exact (later (size + 1) read).trans (List.suffix_cons byte input)

theorem readPod_within (size : Nat) : ReadsWithin (readPod size) := by
  intro input pod rest read
  rw [readPod_canonical read]
  exact List.suffix_append _ rest

theorem readExtraNonce_within : ReadsWithin readExtraNonce := by
  refine ReadsWithin.bind (ReadsWithin.takeByte _) fun size => ?_
  intro input bytes rest read
  dsimp only at read
  split at read
  · cases read
  · exact ReadsWithin.takeBytes _ _ read

theorem readMergeTag_within : ReadsWithin readMergeTag := by
  intro input tag rest read
  unfold readMergeTag at read
  cases stringRead : readString input with
  | error message =>
      rw [stringRead] at read
      cases read
  | ok pair =>
      obtain ⟨field, later⟩ := pair
      simp only [stringRead] at read
      split at read
      · cases read
      · cases read
        rw [readString_canonical stringRead]
        exact List.suffix_append _ _

theorem readExtraField_within (tag : UInt8) : ReadsWithin (readExtraField tag) := by
  have keyWithin : ReadsWithin readPublicKey := ReadsWithin.map PublicKey.mk (readPod_within 32)
  have addressWithin (mk : AccountPublicAddress → TransactionExtraField) :
      ReadsWithin (do
        let spend ← readPublicKey
        let view ← readPublicKey
        pure (some (mk ⟨spend, view⟩))) :=
    ReadsWithin.bind keyWithin fun _ => ReadsWithin.bind keyWithin fun _ => ReadsWithin.pure _
  intro input field rest read
  unfold readExtraField at read
  split_ifs at read
  · exact ReadsWithin.map _ (readPaddingLoop_within 1) read
  · exact ReadsWithin.map _ keyWithin read
  · exact ReadsWithin.map _ readExtraNonce_within read
  · exact ReadsWithin.map _ readMergeTag_within read
  · exact addressWithin _ read
  · exact addressWithin _ read
  · exact ReadsWithin.map _ (ReadsWithin.takeBytes _ 8) read
  · exact ReadsWithin.map _ (readPod_within 32) read
  · exact ReadsWithin.pure _ read

/-! ## The loop's fuel -/

theorem parseTransactionExtraLoop_succ_fuel :
    ∀ (fuel : Nat) (parsed : List TransactionExtraField) (input : List UInt8),
      input.length ≤ fuel →
        parseTransactionExtraLoop (fuel + 1) parsed input =
          parseTransactionExtraLoop fuel parsed input
  | _, parsed, [], _ => by rw [parseTransactionExtraLoop_nil, parseTransactionExtraLoop_nil]
  | 0, _, _ :: _, short => by simp at short
  | fuel + 1, parsed, tag :: rest, short => by
      rw [parseTransactionExtraLoop, parseTransactionExtraLoop]
      cases read : readExtraField tag rest with
      | error message => rfl
      | ok pair =>
          obtain ⟨value, later⟩ := pair
          have within : later.length ≤ fuel :=
            Nat.le_trans (readExtraField_within tag read).length_le (by simpa using short)
          cases value with
          | none => exact parseTransactionExtraLoop_succ_fuel fuel parsed later within
          | some field => exact parseTransactionExtraLoop_succ_fuel fuel _ later within

theorem parseTransactionExtraLoop_enough_fuel {fuel : Nat} {parsed : List TransactionExtraField}
    {input : List UInt8} (enough : input.length ≤ fuel) :
    parseTransactionExtraLoop fuel parsed input =
      parseTransactionExtraLoop input.length parsed input := by
  induction fuel, enough using Nat.le_induction with
  | base => rfl
  | succ fuel enough same => rw [parseTransactionExtraLoop_succ_fuel fuel parsed input enough, same]

/-- Written fields parse back: writable fields, a padding only last, are written and parsed into
themselves. Every field reader reads only bytes after its tag, so a parse stops with `false` where
a read would run past the end, and never for want of fuel. -/
theorem transaction_extra_round_trip :
    (∀ fields : List TransactionExtraField, (∀ field ∈ fields, field.Writable) →
      (∀ field ∈ fields.dropLast, field.isPadding = false) →
        ∃ extra, writeTransactionExtra [] fields = (true, extra) ∧
          parseTransactionExtra extra = (true, fields)) ∧
    (∀ tag, ReadsWithin (readExtraField tag)) ∧
    (∀ (extra : List UInt8) (fuel : Nat), extra.length ≤ fuel →
      parseTransactionExtraLoop fuel [] extra = parseTransactionExtra extra) := by
  refine ⟨fun fields writable paddingLast => ?_, readExtraField_within,
    fun extra fuel enough => ?_⟩
  · exact ⟨_, parseTransactionExtra_writeTransactionExtra writable paddingLast⟩
  · rw [parseTransactionExtra_eq_loop, parseTransactionExtraLoop_enough_fuel enough]

/-! ## What the parser reads is what the writer takes -/

def WritableFields (fields : List TransactionExtraField) : Prop :=
  (∀ field ∈ fields, field.Writable) ∧ ∀ field ∈ fields.dropLast, field.isPadding = false

theorem readPaddingLoop_ok :
    ∀ (input : List UInt8) (size count : Nat) (rest : List UInt8),
      readPaddingLoop size input = .ok (count, rest) →
        size ≤ count ∧ count ≤ TX_EXTRA_PADDING_MAX_COUNT ∧ rest = []
  | [], size, count, rest, loopRead => by
      rw [readPaddingLoop] at loopRead
      split at loopRead
      · cases loopRead
      · cases loopRead
        exact ⟨Nat.le_refl _, by omega, rfl⟩
  | byte :: input, size, count, rest, loopRead => by
      rw [readPaddingLoop] at loopRead
      split_ifs at loopRead
      obtain ⟨grown, fits, ended⟩ := readPaddingLoop_ok input (size + 1) count rest loopRead
      exact ⟨by omega, fits, ended⟩

theorem readExtraNonce_ok {input nonce rest : List UInt8}
    (read : readExtraNonce input = .ok (nonce, rest)) :
    nonce.length ≤ TX_EXTRA_NONCE_MAX_COUNT := by
  obtain ⟨size, middle, -, bytesRead⟩ := Reader.bind_apply_ok.mp read
  split at bytesRead
  · cases bytesRead
  · rw [(takeBytes_ok bytesRead).1]
    exact Nat.le_of_lt_succ size.toNat_lt

theorem readMergeTag_ok {input rest : List UInt8} {tag : TransactionExtraMergeTag}
    (read : readMergeTag input = .ok (tag, rest)) : tag.depth < 2 ^ 64 := by
  unfold readMergeTag at read
  split at read
  · cases read
  · split at read
    · cases read
    · rename_i bodyRead
      cases read
      obtain ⟨depth, afterDepth, depthRead, rootRead⟩ := Reader.bind_apply_ok.mp bodyRead
      obtain ⟨root, afterRoot, -, finished⟩ := Reader.bind_apply_ok.mp rootRead
      simp only [Reader.pure_apply, Except.ok.injEq, Prod.mk.injEq] at finished
      rw [← finished.1]
      exact (readVarint_canonical (Nat.le_refl 64) depthRead).1

/-- A field the parser reads is one the writer takes, and a padding takes the rest of the
extra. -/
theorem readExtraField_writable {tag : UInt8} {input rest : List UInt8}
    {field : TransactionExtraField} (read : readExtraField tag input = .ok (some field, rest)) :
    field.Writable ∧ (field.isPadding = true → rest = []) := by
  have notPadding {other : TransactionExtraField} (kind : other.isPadding = false) :
      other.isPadding = true → rest = [] := by
    rw [kind]
    exact Bool.false_ne_true.elim
  unfold readExtraField at read
  split_ifs at read
  · obtain ⟨size, loopRead, built⟩ := Reader.map_apply_ok.mp read
    obtain rfl := Option.some.inj built
    obtain ⟨low, high, ended⟩ := readPaddingLoop_ok input 1 size rest loopRead
    exact ⟨⟨low, high⟩, fun _ => ended⟩
  · obtain ⟨key, -, built⟩ := Reader.map_apply_ok.mp read
    obtain rfl := Option.some.inj built
    exact ⟨trivial, notPadding rfl⟩
  · obtain ⟨nonce, nonceRead, built⟩ := Reader.map_apply_ok.mp read
    obtain rfl := Option.some.inj built
    exact ⟨readExtraNonce_ok nonceRead, notPadding rfl⟩
  · obtain ⟨tag, tagRead, built⟩ := Reader.map_apply_ok.mp read
    obtain rfl := Option.some.inj built
    exact ⟨readMergeTag_ok tagRead, notPadding rfl⟩
  iterate 2
    · obtain ⟨spend, afterSpend, -, viewRead⟩ := Reader.bind_apply_ok.mp read
      obtain ⟨view, afterView, -, finished⟩ := Reader.bind_apply_ok.mp viewRead
      simp only [Reader.pure_apply, Except.ok.injEq, Prod.mk.injEq, Option.some.injEq] at finished
      obtain ⟨rfl, rfl⟩ := finished
      exact ⟨trivial, notPadding rfl⟩
  · obtain ⟨amount, amountRead, built⟩ := Reader.map_apply_ok.mp read
    obtain rfl := Option.some.inj built
    exact ⟨(takeBytes_ok amountRead).1, notPadding rfl⟩
  · obtain ⟨key, -, built⟩ := Reader.map_apply_ok.mp read
    obtain rfl := Option.some.inj built
    exact ⟨trivial, notPadding rfl⟩
  · simp [Reader.pure_apply] at read

/-- The loop keeps its fields writable with a padding only last: a padding reads to the end of the
extra, so no field is read after one. -/
theorem parseTransactionExtraLoop_writable :
    ∀ (fuel : Nat) (parsed : List TransactionExtraField) (input : List UInt8),
      WritableFields parsed → (input ≠ [] → ∀ field ∈ parsed, field.isPadding = false) →
        WritableFields (parseTransactionExtraLoop fuel parsed input).2
  | _, parsed, [], writable, _ => by
      rw [parseTransactionExtraLoop_nil]
      exact writable
  | 0, _, _ :: _, writable, _ => writable
  | fuel + 1, parsed, tag :: rest, writable, unpadded => by
      have before := unpadded (List.cons_ne_nil tag rest)
      rw [parseTransactionExtraLoop]
      cases read : readExtraField tag rest with
      | error message => exact writable
      | ok pair =>
          obtain ⟨value, later⟩ := pair
          cases value with
          | none =>
              exact parseTransactionExtraLoop_writable fuel parsed later writable fun _ => before
          | some field =>
              obtain ⟨fieldWritable, paddingEnds⟩ := readExtraField_writable read
              refine parseTransactionExtraLoop_writable fuel _ later ⟨?_, ?_⟩ ?_
              · intro other member
                rcases List.mem_append.mp member with old | new
                · exact writable.1 other old
                · rw [List.mem_singleton.mp new]
                  exact fieldWritable
              · rw [List.dropLast_concat]
                exact before
              · intro more other member
                rcases List.mem_append.mp member with old | new
                · exact before other old
                · rw [List.mem_singleton.mp new]
                  cases padded : field.isPadding
                  · rfl
                  · exact absurd (paddingEnds padded) more

theorem parseTransactionExtra_writable (extra : List UInt8) :
    WritableFields (parseTransactionExtra extra).2 := by
  rw [parseTransactionExtra_eq_loop]
  exact parseTransactionExtraLoop_writable _ [] extra ⟨by simp, by simp⟩ (by simp)

theorem parseTransactionExtra_serialize {fields : List TransactionExtraField}
    (writable : WritableFields fields) :
    parseTransactionExtra (writeTransactionExtra [] fields).2 = (true, fields) := by
  obtain ⟨written, parsed⟩ := parseTransactionExtra_writeTransactionExtra writable.1 writable.2
  rw [written]
  exact parsed

end Dynex
