import Dynex.Serialization.KVBinaryInputStreamSerializer

/-!
# What parsing the key-value binary format costs

Three facts about `parseBinary` on an arbitrary byte string. Every call of the four loaders but
`loadValue` reads a byte before it calls the next, so the recursion is at most about twice as
deep as the input is long and `parseBinary` always returns or throws
(`parseBinary_never_exhausted`). The depth is still not bounded by any constant: nested arrays
cost one byte a level (`parseBinaryWith_nestedInput`). And `readString` reserves the length it
has read before it looks for the bytes, so a string header of nine bytes reserves up to
`2 ^ 62 - 1` bytes on an input that ends right after it (`parseBinary_declaredStringInput`).
-/

set_option autoImplicit false

namespace Dynex.KVBinaryInputStreamSerializer

open Codec Common Loader

def readFailure : String := "Failed to read from IInputStream"

/-! ## The readers -/

@[simp] theorem readByte_cons (byte : UInt8) (rest : List UInt8) (reserved : Nat) :
    readByte ⟨byte :: rest, reserved⟩ = .ok byte ⟨rest, reserved⟩ := rfl

theorem readPod_append (bytes rest : List UInt8) (reserved : Nat) :
    readPod bytes.length ⟨bytes ++ rest, reserved⟩ = .ok bytes ⟨rest, reserved⟩ := by
  simp [readPod, Loader.ofReader, Common.read]

theorem readPod_short {size : Nat} {input : List UInt8} (short : input.length < size)
    (reserved : Nat) : readPod size ⟨input, reserved⟩ = .error readFailure ⟨input, reserved⟩ := by
  have notEnough : ¬ size ≤ input.length := Nat.not_le.mpr short
  simp [readPod, Loader.ofReader, Common.read, takeBytes, notEnough, readFailure]

theorem readVarintLoop_leValue : ∀ (bytes : List UInt8) (i value : Nat), value < 2 ^ (8 * i) →
    ∀ (rest : List UInt8) (reserved : Nat),
      readVarintLoop i bytes.length value ⟨bytes ++ rest, reserved⟩ =
        .ok (value + leValue bytes * 2 ^ (8 * i)) ⟨rest, reserved⟩
  | [], i, value, _, rest, reserved => by simp [readVarintLoop, leValue]
  | byte :: bytes, i, value, small, rest, reserved => by
      have shifted : value ||| byte.toNat <<< (i * 8) = value + byte.toNat * 2 ^ (8 * i) := by
        rw [Nat.mul_comm i 8]
        exact low_or_shifted small byte.toNat
      have stillSmall : value + byte.toNat * 2 ^ (8 * i) < 2 ^ (8 * (i + 1)) := by
        have digit := byte.toNat_lt
        calc value + byte.toNat * 2 ^ (8 * i) < 2 ^ (8 * i) + byte.toNat * 2 ^ (8 * i) := by omega
          _ = (byte.toNat + 1) * 2 ^ (8 * i) := by ring
          _ ≤ 2 ^ 8 * 2 ^ (8 * i) := Nat.mul_le_mul_right _ digit
          _ = 2 ^ (8 * (i + 1)) := by rw [← Nat.pow_add]; ring_nf
      have later := readVarintLoop_leValue bytes (i + 1) _ stillSmall rest reserved
      have power : 2 ^ (8 * (i + 1)) = 256 * 2 ^ (8 * i) := by
        rw [Nat.mul_add, Nat.pow_add]
        ring
      rw [List.length_cons, List.cons_append, readVarintLoop, bind_of_ok (readByte_cons _ _ _),
        shifted, later, leValue, power]
      congr 1
      ring

theorem size_mask_of_word (word : Nat) :
    word.toUInt8 &&& PORTABLE_RAW_SIZE_MARK_MASK = (word % 4).toUInt8 := by
  apply UInt8.toNat_inj.mp
  have low : word % 256 &&& 2 ^ 2 - 1 = word % 256 % 2 ^ 2 := Nat.and_two_pow_sub_one_eq_mod _ 2
  simp only [UInt8.toNat_and, PORTABLE_RAW_SIZE_MARK_MASK, Nat.toUInt8_eq, UInt8.toNat_ofNat']
  rw [show (UInt8.toNat 3) = 2 ^ 2 - 1 from rfl, show (2 : Nat) ^ 8 = 256 from rfl, low]
  omega

theorem readVarint_leBytes {word : Nat}
    (fits : word < 256 ^ (bytesLeftOf (word % 4).toUInt8 + 1)) (rest : List UInt8)
    (reserved : Nat) :
    readVarint ⟨leBytes (bytesLeftOf (word % 4).toUInt8 + 1) word ++ rest, reserved⟩ =
      .ok (word / 4) ⟨rest, reserved⟩ := by
  have loop := readVarintLoop_leValue (leBytes (bytesLeftOf (word % 4).toUInt8) (word / 256)) 1
    word.toUInt8.toNat word.toUInt8.toNat_lt rest reserved
  rw [length_leBytes] at loop
  have whole : word.toUInt8.toNat + leValue (leBytes (bytesLeftOf (word % 4).toUInt8) (word / 256)) *
      2 ^ (8 * 1) = word := by
    have assembled := leValue_leBytes (bytesLeftOf (word % 4).toUInt8 + 1) word
    rw [Nat.mod_eq_of_lt fits] at assembled
    simp only [leBytes, leValue] at assembled
    omega
  rw [whole] at loop
  simp only [readVarint, leBytes, List.cons_append]
  rw [bind_of_ok (readByte_cons _ _ _), size_mask_of_word, bind_of_ok loop, Nat.shiftRight_eq_div_pow]
  rfl

theorem readString_declared {size : Nat} (positive : 0 < size) (fits : size < 2 ^ 62)
    (reserved : Nat) :
    readString ⟨leBytes 8 (4 * size + 3), reserved⟩ =
      .error readFailure ⟨[], reserved + size⟩ := by
  have mark : (4 * size + 3) % 4 = 3 := by omega
  have width : bytesLeftOf ((4 * size + 3) % 4).toUInt8 + 1 = 8 := by rw [mark]; rfl
  have length := @readVarint_leBytes (4 * size + 3) (by rw [width]; omega) [] reserved
  rw [width, List.append_nil, show (4 * size + 3) / 4 = size by omega] at length
  simp only [readString]
  rw [bind_of_ok length, bind_of_ok (reserve_apply _ _), if_pos (Nat.pos_iff_ne_zero.mp positive)]
  exact readPod_short positive _

/-! ## Progress: every loader reads at least one byte when it succeeds -/

theorem advances_readByte : Advances readByte := by
  constructor
  intro tape byte after read
  obtain ⟨input, reserved⟩ := tape
  cases input with
  | nil => cases read
  | cons first rest =>
      cases read
      exact Nat.lt_succ_self _

theorem consumes_readPod (size : Nat) : Consumes (readPod size) := by
  constructor
  intro tape bytes after read
  cases taken : Common.read size tape.input with
  | error message => rw [readPod, ofReader_of_error taken] at read; cases read
  | ok result =>
      obtain ⟨value, rest⟩ := result
      rw [readPod, ofReader_of_ok taken] at read
      cases read
      obtain ⟨_, split⟩ := takeBytes_ok taken
      simp [split]

theorem advances_readPod {size : Nat} (positive : 0 < size) : Advances (readPod size) := by
  constructor
  intro tape bytes after read
  cases taken : Common.read size tape.input with
  | error message => rw [readPod, ofReader_of_error taken] at read; cases read
  | ok result =>
      obtain ⟨value, rest⟩ := result
      rw [readPod, ofReader_of_ok taken] at read
      cases read
      obtain ⟨counted, split⟩ := takeBytes_ok taken
      simp only [split, List.length_append]
      omega

theorem consumes_readVarintLoop : ∀ (i bytesLeft value : Nat),
    Consumes (readVarintLoop i bytesLeft value)
  | _, 0, value => consumes_pure value
  | i, bytesLeft + 1, _ =>
      Consumes.bind advances_readByte.consumes fun _ =>
        consumes_readVarintLoop (i + 1) bytesLeft _

theorem advances_readVarint : Advances readVarint :=
  Advances.bind_left advances_readByte fun _ =>
    Consumes.bind (consumes_readVarintLoop _ _ _) fun _ => consumes_pure _

theorem advances_readName (name : List UInt8) : Advances (readName name) := by
  refine Advances.bind_left advances_readByte fun len => ?_
  by_cases empty : len ≠ 0
  · rw [if_pos empty]
    exact Consumes.bind (consumes_reserve _) fun _ => consumes_readPod _
  · rw [if_neg empty]
    exact consumes_pure name

theorem advances_readString : Advances readString := by
  refine Advances.bind_left advances_readVarint fun size => ?_
  refine Consumes.bind (consumes_reserve _) fun _ => ?_
  by_cases empty : size ≠ 0
  · rw [if_pos empty]
    exact consumes_readPod size
  · rw [if_neg empty]
    exact consumes_pure []

theorem advances_readIntegerJson {width : Nat} (positive : 0 < width) (toInteger : Nat → Int64) :
    Advances (readIntegerJson width toInteger) :=
  Advances.bind_left (advances_readPod positive) fun _ => consumes_pure _

/-! ## Failures: the readers only ever throw `readFailure` -/

theorem failsWith_readByte : FailsWith readFailure readByte :=
  failsWith_ofReader fun {input} {other} failed => by
    cases input with
    | nil => cases failed; rfl
    | cons byte rest => cases failed

theorem failsWith_readPod (size : Nat) : FailsWith readFailure (readPod size) :=
  failsWith_ofReader fun {input} {other} failed => by
    simp only [Common.read, takeBytes] at failed
    split at failed
    · cases failed
    · cases failed; rfl

theorem failsWith_readVarintLoop : ∀ (i bytesLeft value : Nat),
    FailsWith readFailure (readVarintLoop i bytesLeft value)
  | _, 0, value => failsWith_pure _ value
  | i, bytesLeft + 1, _ =>
      FailsWith.bind failsWith_readByte fun _ => failsWith_readVarintLoop (i + 1) bytesLeft _

theorem failsWith_readVarint : FailsWith readFailure readVarint :=
  FailsWith.bind failsWith_readByte fun _ =>
    FailsWith.bind (failsWith_readVarintLoop _ _ _) fun _ => failsWith_pure _ _

theorem failsWith_readName (name : List UInt8) : FailsWith readFailure (readName name) := by
  refine FailsWith.bind failsWith_readByte fun len => ?_
  by_cases empty : len ≠ 0
  · rw [if_pos empty]
    exact FailsWith.bind (failsWith_reserve _ _) fun _ => failsWith_readPod _
  · rw [if_neg empty]
    exact failsWith_pure _ name

theorem failsWith_readString : FailsWith readFailure readString := by
  refine FailsWith.bind failsWith_readVarint fun size => ?_
  refine FailsWith.bind (failsWith_reserve _ _) fun _ => ?_
  by_cases empty : size ≠ 0
  · rw [if_pos empty]
    exact failsWith_readPod size
  · rw [if_neg empty]
    exact failsWith_pure _ []

theorem failsWith_readIntegerJson (width : Nat) (toInteger : Nat → Int64) :
    FailsWith readFailure (readIntegerJson width toInteger) :=
  FailsWith.bind (failsWith_readPod width) fun _ => failsWith_pure _ _

/-! ## The loaders -/

theorem readFailure_ne : nestingExhausted ≠ readFailure := by decide

theorem consumes_sectionRound {loadEntry : Loader JsonValue} (entry : Consumes loadEntry)
    (state : List UInt8 × JsonValue) : Consumes (sectionRound loadEntry state) :=
  Consumes.bind (advances_readName _).consumes fun _ =>
    Consumes.bind entry fun _ => Consumes.bind (consumes_ofExcept _) fun _ => consumes_pure _

theorem consumes_arrayRound {loadValue : Loader JsonValue} (value : Consumes loadValue)
    (arr : JsonValue) : Consumes (arrayRound loadValue arr) :=
  Consumes.bind value fun _ => consumes_ofExcept _

/-- What `loadValue` does with budget left, by type: it loads a section, loads an array, throws,
or runs one of the scalar readers, which read at least a byte and only fail on a short
stream. -/
theorem loadValue_succ_cases (fuel : Nat) (type : UInt8) :
    (type = BIN_KV_SERIALIZE_TYPE_OBJECT ∧ loadValue (fuel + 1) type = loadSection fuel) ∨
    (type = BIN_KV_SERIALIZE_TYPE_ARRAY ∧ loadValue (fuel + 1) type = loadArray fuel type) ∨
    loadValue (fuel + 1) type = throw "Unknown data type" ∨
    (Advances (loadValue (fuel + 1) type) ∧ FailsWith readFailure (loadValue (fuel + 1) type)) := by
  have integer : ∀ {width : Nat} (toInteger : Nat → Int64), 0 < width →
      Advances (readIntegerJson width toInteger) ∧ FailsWith readFailure (readIntegerJson width toInteger) :=
    fun toInteger positive =>
      ⟨advances_readIntegerJson positive toInteger, failsWith_readIntegerJson _ toInteger⟩
  have unfolded := loadValue.eq_2 type fuel
  generalize loadValue (fuel + 1) type = loader at unfolded ⊢
  by_cases int64 : type = BIN_KV_SERIALIZE_TYPE_INT64
  · rw [if_pos int64] at unfolded
    subst unfolded
    exact .inr (.inr (.inr (integer _ (by decide))))
  rw [if_neg int64] at unfolded
  by_cases int32 : type = BIN_KV_SERIALIZE_TYPE_INT32
  · rw [if_pos int32] at unfolded
    subst unfolded
    exact .inr (.inr (.inr (integer _ (by decide))))
  rw [if_neg int32] at unfolded
  by_cases int16 : type = BIN_KV_SERIALIZE_TYPE_INT16
  · rw [if_pos int16] at unfolded
    subst unfolded
    exact .inr (.inr (.inr (integer _ (by decide))))
  rw [if_neg int16] at unfolded
  by_cases int8 : type = BIN_KV_SERIALIZE_TYPE_INT8
  · rw [if_pos int8] at unfolded
    subst unfolded
    exact .inr (.inr (.inr (integer _ (by decide))))
  rw [if_neg int8] at unfolded
  by_cases uint64 : type = BIN_KV_SERIALIZE_TYPE_UINT64
  · rw [if_pos uint64] at unfolded
    subst unfolded
    exact .inr (.inr (.inr (integer _ (by decide))))
  rw [if_neg uint64] at unfolded
  by_cases uint32 : type = BIN_KV_SERIALIZE_TYPE_UINT32
  · rw [if_pos uint32] at unfolded
    subst unfolded
    exact .inr (.inr (.inr (integer _ (by decide))))
  rw [if_neg uint32] at unfolded
  by_cases uint16 : type = BIN_KV_SERIALIZE_TYPE_UINT16
  · rw [if_pos uint16] at unfolded
    subst unfolded
    exact .inr (.inr (.inr (integer _ (by decide))))
  rw [if_neg uint16] at unfolded
  by_cases uint8 : type = BIN_KV_SERIALIZE_TYPE_UINT8
  · rw [if_pos uint8] at unfolded
    subst unfolded
    exact .inr (.inr (.inr (integer _ (by decide))))
  rw [if_neg uint8] at unfolded
  by_cases double : type = BIN_KV_SERIALIZE_TYPE_DOUBLE
  · rw [if_pos double] at unfolded
    subst unfolded
    refine .inr (.inr (.inr ⟨?_, ?_⟩))
    · exact Advances.bind_left (advances_readPod (by decide)) fun _ => consumes_pure _
    · exact FailsWith.bind (failsWith_readPod 8) fun _ => failsWith_pure _ _
  rw [if_neg double] at unfolded
  by_cases bool : type = BIN_KV_SERIALIZE_TYPE_BOOL
  · rw [if_pos bool] at unfolded
    subst unfolded
    refine .inr (.inr (.inr ⟨?_, ?_⟩))
    · exact Advances.bind_left advances_readByte fun _ => consumes_pure _
    · exact FailsWith.bind failsWith_readByte fun _ => failsWith_pure _ _
  rw [if_neg bool] at unfolded
  by_cases string : type = BIN_KV_SERIALIZE_TYPE_STRING
  · rw [if_pos string] at unfolded
    subst unfolded
    refine .inr (.inr (.inr ⟨?_, ?_⟩))
    · exact Advances.bind_left advances_readString fun _ => consumes_pure _
    · exact FailsWith.bind failsWith_readString fun _ => failsWith_pure _ _
  rw [if_neg string] at unfolded
  by_cases object : type = BIN_KV_SERIALIZE_TYPE_OBJECT
  · rw [if_pos object] at unfolded
    exact .inl ⟨object, unfolded⟩
  rw [if_neg object] at unfolded
  by_cases array : type = BIN_KV_SERIALIZE_TYPE_ARRAY
  · rw [if_pos array] at unfolded
    exact .inr (.inl ⟨array, unfolded⟩)
  rw [if_neg array] at unfolded
  exact .inr (.inr (.inl unfolded))

/-- Every loader reads at least one byte when it succeeds: a section or an array its count, an
entry its type byte, and a value what its type says. -/
theorem loaders_advance (fuel : Nat) :
    Advances (loadSection fuel) ∧ (∀ type, Advances (loadValue fuel type)) ∧
      Advances (loadEntry fuel) ∧ ∀ type, Advances (loadArray fuel type) := by
  induction fuel with
  | zero =>
      refine ⟨?_, fun type => ?_, ?_, fun type => ?_⟩ <;>
        first
          | (rw [loadSection]; exact advances_throw _)
          | (rw [loadValue]; exact advances_throw _)
          | (rw [loadEntry]; exact advances_throw _)
          | (rw [loadArray]; exact advances_throw _)
  | succ fuel inductionHypothesis =>
      obtain ⟨sectionAdvances, valueAdvances, entryAdvances, arrayAdvances⟩ := inductionHypothesis
      refine ⟨?_, fun type => ?_, ?_, fun type => ?_⟩
      · rw [loadSection]
        refine Advances.bind_left advances_readVarint fun count => ?_
        refine Consumes.bind (Consumes.loop (consumes_sectionRound entryAdvances.consumes) count _)
          fun result => ?_
        obtain ⟨_, sec⟩ := result
        exact consumes_pure sec
      · rcases loadValue_succ_cases fuel type with
          ⟨_, isSection⟩ | ⟨_, isArray⟩ | unknown | ⟨scalar, _⟩
        · rw [isSection]
          exact sectionAdvances
        · rw [isArray]
          exact arrayAdvances type
        · rw [unknown]
          exact advances_throw _
        · exact scalar
      · rw [loadEntry]
        refine Advances.bind_left advances_readByte fun type => ?_
        split
        · exact (arrayAdvances _).consumes
        · exact (valueAdvances type).consumes
      · rw [loadArray]
        refine Advances.bind_left advances_readVarint fun count => ?_
        exact Consumes.loop (consumes_arrayRound (valueAdvances type).consumes) count _

/-- A budget of about twice the length of what is left to read is never spent. -/
theorem loaders_within_budget (fuel : Nat) :
    (∀ tape, 2 * tape.input.length + 1 ≤ fuel →
      ∀ after, loadSection fuel tape ≠ .error nestingExhausted after) ∧
    (∀ type tape, 2 * tape.input.length + 3 ≤ fuel →
      ∀ after, loadValue fuel type tape ≠ .error nestingExhausted after) ∧
    (∀ tape, 2 * tape.input.length + 2 ≤ fuel →
      ∀ after, loadEntry fuel tape ≠ .error nestingExhausted after) ∧
    (∀ type tape, 2 * tape.input.length + 2 ≤ fuel →
      ∀ after, loadArray fuel type tape ≠ .error nestingExhausted after) := by
  induction fuel with
  | zero =>
      refine ⟨fun tape bounded => ?_, fun type tape bounded => ?_, fun tape bounded => ?_,
        fun type tape bounded => ?_⟩ <;> omega
  | succ fuel inductionHypothesis =>
      obtain ⟨sectionWithin, valueWithin, entryWithin, arrayWithin⟩ := inductionHypothesis
      obtain ⟨_, valueAdvances, entryAdvances, _⟩ := loaders_advance fuel
      refine ⟨fun tape bounded => ?_, fun type tape bounded => ?_, fun tape bounded => ?_,
        fun type tape bounded => ?_⟩
      · rw [loadSection]
        refine bind_not_error (failsWith_readVarint.not_error readFailure_ne tape)
          fun count counted countRead => ?_
        have afterCount := advances_readVarint.shortens countRead
        refine bind_not_error ?_ fun result after _ => ?_
        · refine loop_not_error (fun _ current => current.input.length ≤ counted.input.length)
            nestingExhausted (fun {state current} within => ⟨?_, ?_⟩) count (Nat.le_refl _)
          · refine bind_not_error ((failsWith_readName _).not_error readFailure_ne current)
              fun name named nameRead => ?_
            have afterName := (advances_readName _).shortens nameRead
            refine bind_not_error (entryWithin named (by omega)) fun entry entered _ => ?_
            refine bind_not_error ((failsWith_ofExcept JsonValue.insert_error).not_error
              (by decide) entered) fun sec final _ => ?_
            intro after failed
            cases failed
          · intro state' after ran
            exact Nat.le_trans ((consumes_sectionRound entryAdvances.consumes state).keeps ran) within
        · obtain ⟨_, sec⟩ := result
          intro final failed
          cases failed
      · rcases loadValue_succ_cases fuel type with
          ⟨_, isSection⟩ | ⟨_, isArray⟩ | unknown | ⟨_, scalar⟩
        · rw [isSection]
          exact sectionWithin tape (by omega)
        · rw [isArray]
          exact arrayWithin type tape (by omega)
        · rw [unknown]
          exact (failsWith_throw _).not_error (by decide) tape
        · exact scalar.not_error readFailure_ne tape
      · rw [loadEntry]
        refine bind_not_error (failsWith_readByte.not_error readFailure_ne tape)
          fun type typed typeRead => ?_
        have afterType := advances_readByte.shortens typeRead
        split
        · exact arrayWithin _ typed (by omega)
        · exact valueWithin type typed (by omega)
      · rw [loadArray]
        refine bind_not_error (failsWith_readVarint.not_error readFailure_ne tape)
          fun count counted countRead => ?_
        have afterCount := advances_readVarint.shortens countRead
        refine loop_not_error (fun _ current => current.input.length ≤ counted.input.length)
          nestingExhausted (fun {arr current} within => ⟨?_, ?_⟩) count (Nat.le_refl _)
        · refine bind_not_error (valueWithin type current (by omega)) fun element after _ => ?_
          exact (failsWith_ofExcept JsonValue.pushBack_error).not_error (by decide) after
        · intro arr' after ran
          exact Nat.le_trans ((consumes_arrayRound (valueAdvances type).consumes arr).keeps ran) within

/-! ## The whole parse -/

theorem readHeader_portable (rest : List UInt8) (reserved : Nat) :
    readHeader ⟨KVBinaryStorageBlockHeader.portable.toBytes ++ rest, reserved⟩ =
      .ok KVBinaryStorageBlockHeader.portable ⟨rest, reserved⟩ := by
  have header := readPod_append KVBinaryStorageBlockHeader.portable.toBytes rest reserved
  rw [KVBinaryStorageBlockHeader.length_toBytes] at header
  rw [readHeader, bind_of_ok header, KVBinaryStorageBlockHeader.ofBytes_toBytes]
  rfl

theorem parseBinaryWith_portable (fuel : Nat) (rest : List UInt8) (reserved : Nat) :
    parseBinaryWith fuel ⟨KVBinaryStorageBlockHeader.portable.toBytes ++ rest, reserved⟩ =
      loadSection fuel ⟨rest, reserved⟩ := by
  rw [parseBinaryWith, bind_of_ok (readHeader_portable rest reserved)]
  rfl

theorem parseBinary_eq (tape : Tape) :
    parseBinary tape = parseBinaryWith (nestingBudget tape.input.length) tape := rfl

theorem parseBinaryWith_within_budget {fuel : Nat} {tape : Tape}
    (bounded : 2 * tape.input.length + 1 ≤ fuel) :
    ∀ after, parseBinaryWith fuel tape ≠ .error nestingExhausted after := by
  have headerFails : FailsWith readFailure readHeader :=
    FailsWith.bind (failsWith_readPod 9) fun _ => failsWith_pure _ _
  have headerKeeps : Consumes readHeader :=
    Consumes.bind (consumes_readPod 9) fun _ => consumes_pure _
  rw [parseBinaryWith]
  refine bind_not_error (headerFails.not_error readFailure_ne tape) fun hdr read headerRead => ?_
  have afterHeader := headerKeeps.keeps headerRead
  dsimp only
  split
  · exact throw_bind_not_error (by decide) _ read
  split
  · exact throw_bind_not_error (by decide) _ read
  exact (loaders_within_budget fuel).1 read (by omega)

theorem parseBinary_never_exhausted (tape : Tape) :
    ∀ after, parseBinary tape ≠ .error nestingExhausted after := by
  rw [parseBinary_eq]
  exact parseBinaryWith_within_budget (Nat.le_refl _)

theorem loadEntry_value {fuel : Nat} {type : UInt8} (plain : ¬ type &&& BIN_KV_SERIALIZE_FLAG_ARRAY ≠ 0)
    (rest : List UInt8) (reserved : Nat) :
    loadEntry (fuel + 1) ⟨type :: rest, reserved⟩ = loadValue fuel type ⟨rest, reserved⟩ := by
  rw [loadEntry, bind_of_ok (readByte_cons _ _ _), if_neg plain]

theorem loadEntry_array {fuel : Nat} {type : UInt8} (flagged : type &&& BIN_KV_SERIALIZE_FLAG_ARRAY ≠ 0)
    (rest : List UInt8) (reserved : Nat) :
    loadEntry (fuel + 1) ⟨type :: rest, reserved⟩ =
      loadArray fuel (type &&& ~~~BIN_KV_SERIALIZE_FLAG_ARRAY) ⟨rest, reserved⟩ := by
  rw [loadEntry, bind_of_ok (readByte_cons _ _ _), if_pos flagged]

/-- A section whose one entry is named `a`. -/
theorem loadSection_single (fuel : Nat) (rest : List UInt8) (reserved : Nat) :
    loadSection (fuel + 1) ⟨4 :: 1 :: 97 :: rest, reserved⟩ =
      match loadEntry fuel ⟨rest, reserved + 1⟩ with
      | .ok entry after => .ok (.object [([97], entry)]) after
      | .error message after => .error message after := by
  have count : readVarint ⟨4 :: 1 :: 97 :: rest, reserved⟩ = .ok 1 ⟨1 :: 97 :: rest, reserved⟩ := rfl
  have named : readName [] ⟨1 :: 97 :: rest, reserved⟩ = .ok [97] ⟨rest, reserved + 1⟩ := rfl
  rw [loadSection, bind_of_ok count, loop_succ]
  cases entered : loadEntry fuel ⟨rest, reserved + 1⟩ with
  | ok entry after =>
      have round : sectionRound (loadEntry fuel) ([], .object []) ⟨1 :: 97 :: rest, reserved⟩ =
          .ok ([97], .object [([97], entry)]) after := by
        rw [sectionRound, bind_of_ok named, bind_of_ok entered]
        rfl
      have rounds : (sectionRound (loadEntry fuel) ([], .object []) >>=
          Loader.loop (sectionRound (loadEntry fuel)) 0) ⟨1 :: 97 :: rest, reserved⟩ =
            .ok ([97], .object [([97], entry)]) after := by
        rw [bind_of_ok round]
        rfl
      rw [bind_of_ok rounds]
      rfl
  | error message after =>
      have round : sectionRound (loadEntry fuel) ([], .object []) ⟨1 :: 97 :: rest, reserved⟩ =
          .error message after := by
        rw [sectionRound, bind_of_ok named, bind_of_error entered]
      rw [bind_of_error (bind_of_error round _)]

/-! ## The depth of the recursion is not bounded -/

def nestedArrays : Nat → JsonValue
  | 0 => .array []
  | depth + 1 => .array [nestedArrays depth]

def nestedInput (depth : Nat) : List UInt8 :=
  KVBinaryStorageBlockHeader.portable.toBytes ++ [4, 1, 97, 0x8D] ++ List.replicate depth 4 ++ [0]

theorem loadValue_array (fuel : Nat) :
    loadValue (fuel + 1) BIN_KV_SERIALIZE_TYPE_ARRAY = loadArray fuel BIN_KV_SERIALIZE_TYPE_ARRAY := by
  rw [loadValue.eq_2]
  rfl

/-- Each level of nested arrays costs two units of budget and one byte of input. -/
theorem loadArray_nested (depth : Nat) : ∀ (fuel : Nat) (rest : List UInt8) (reserved : Nat),
    (2 * depth + 1 ≤ fuel →
      loadArray fuel BIN_KV_SERIALIZE_TYPE_ARRAY ⟨List.replicate depth 4 ++ 0 :: rest, reserved⟩ =
        .ok (nestedArrays depth) ⟨rest, reserved⟩) ∧
    (fuel ≤ 2 * depth → ∃ after,
      loadArray fuel BIN_KV_SERIALIZE_TYPE_ARRAY ⟨List.replicate depth 4 ++ 0 :: rest, reserved⟩ =
        .error nestingExhausted after) := by
  induction depth with
  | zero =>
      intro fuel rest reserved
      refine ⟨fun enough => ?_, fun spent => ?_⟩
      · obtain ⟨fuel, rfl⟩ : ∃ smaller, fuel = smaller + 1 := ⟨fuel - 1, by omega⟩
        have count : readVarint ⟨0 :: rest, reserved⟩ = .ok 0 ⟨rest, reserved⟩ := rfl
        rw [List.replicate_zero, List.nil_append, loadArray, bind_of_ok count]
        rfl
      · obtain rfl : fuel = 0 := by omega
        exact ⟨⟨List.replicate 0 4 ++ 0 :: rest, reserved⟩, rfl⟩
  | succ depth inductionHypothesis =>
      intro fuel rest reserved
      rw [List.replicate_succ, List.cons_append]
      have count : readVarint ⟨4 :: (List.replicate depth 4 ++ 0 :: rest), reserved⟩ =
          .ok 1 ⟨List.replicate depth 4 ++ 0 :: rest, reserved⟩ := rfl
      match fuel with
      | 0 =>
          exact ⟨fun enough => absurd enough (by omega),
            fun _ => ⟨⟨4 :: (List.replicate depth 4 ++ 0 :: rest), reserved⟩, rfl⟩⟩
      | 1 =>
          refine ⟨fun enough => absurd enough (by omega),
            fun _ => ⟨⟨List.replicate depth 4 ++ 0 :: rest, reserved⟩, ?_⟩⟩
          rw [loadArray, bind_of_ok count, loop_succ]
          rfl
      | fuel + 2 =>
          obtain ⟨loaded, exhausted⟩ := inductionHypothesis fuel rest reserved
          rw [loadArray, bind_of_ok count, loop_succ]
          refine ⟨fun enough => ?_, fun spent => ?_⟩
          · have round : arrayRound (loadValue (fuel + 1) BIN_KV_SERIALIZE_TYPE_ARRAY) (.array [])
                ⟨List.replicate depth 4 ++ 0 :: rest, reserved⟩ =
                  .ok (nestedArrays (depth + 1)) ⟨rest, reserved⟩ := by
              rw [arrayRound, loadValue_array, bind_of_ok (loaded (by omega))]
              rfl
            rw [bind_of_ok round]
            rfl
          · obtain ⟨after, failed⟩ := exhausted (by omega)
            have round : arrayRound (loadValue (fuel + 1) BIN_KV_SERIALIZE_TYPE_ARRAY) (.array [])
                ⟨List.replicate depth 4 ++ 0 :: rest, reserved⟩ = .error nestingExhausted after := by
              rw [arrayRound, loadValue_array, bind_of_error failed]
            exact ⟨after, bind_of_error round _⟩

theorem parseBinaryWith_nestedInput (depth fuel : Nat) :
    (2 * depth + 3 ≤ fuel → parseBinaryWith fuel ⟨nestedInput depth, 0⟩ =
      .ok (.object [([97], nestedArrays depth)]) ⟨[], 1⟩) ∧
    (fuel ≤ 2 * depth + 2 → ∃ after,
      parseBinaryWith fuel ⟨nestedInput depth, 0⟩ = .error nestingExhausted after) := by
  have layout : nestedInput depth = KVBinaryStorageBlockHeader.portable.toBytes ++
      4 :: 1 :: 97 :: 0x8D :: (List.replicate depth 4 ++ [0]) := by
    simp [nestedInput]
  have entry : ∀ fuel reserved, loadEntry (fuel + 1) ⟨0x8D :: (List.replicate depth 4 ++ [0]), reserved⟩ =
      loadArray fuel BIN_KV_SERIALIZE_TYPE_ARRAY ⟨List.replicate depth 4 ++ [0], reserved⟩ :=
    fun _ _ => by
      have arrayType : (0x8D : UInt8) &&& ~~~BIN_KV_SERIALIZE_FLAG_ARRAY = BIN_KV_SERIALIZE_TYPE_ARRAY := by
        decide
      rw [loadEntry_array (by decide), arrayType]
  rw [layout, parseBinaryWith_portable]
  match fuel with
  | 0 =>
      exact ⟨fun enough => absurd enough (by omega), fun _ =>
        ⟨⟨4 :: 1 :: 97 :: 0x8D :: (List.replicate depth 4 ++ [0]), 0⟩, rfl⟩⟩
  | 1 =>
      refine ⟨fun enough => absurd enough (by omega),
        fun _ => ⟨⟨0x8D :: (List.replicate depth 4 ++ [0]), 1⟩, ?_⟩⟩
      rw [loadSection_single]
      rfl
  | fuel + 2 =>
      obtain ⟨loaded, exhausted⟩ := loadArray_nested depth fuel [] 1
      rw [loadSection_single, entry]
      refine ⟨fun enough => ?_, fun spent => ?_⟩
      · rw [loaded (by omega)]
      · obtain ⟨after, failed⟩ := exhausted (by omega)
        exact ⟨after, by rw [failed]⟩

theorem length_nestedInput (depth : Nat) : (nestedInput depth).length = depth + 14 := by
  simp [nestedInput]
  omega

theorem parseBinary_nestedInput (depth : Nat) :
    parseBinary ⟨nestedInput depth, 0⟩ = .ok (.object [([97], nestedArrays depth)]) ⟨[], 1⟩ := by
  rw [parseBinary_eq]
  refine (parseBinaryWith_nestedInput depth _).1 ?_
  simp only [nestingBudget, length_nestedInput]
  omega

/-! ## A declared length is reserved before it is read -/

def declaredStringInput (size : Nat) : List UInt8 :=
  KVBinaryStorageBlockHeader.portable.toBytes ++ [4, 1, 97, BIN_KV_SERIALIZE_TYPE_STRING] ++
    leBytes 8 (4 * size + 3)

theorem length_declaredStringInput (size : Nat) : (declaredStringInput size).length = 21 := by
  simp [declaredStringInput]

theorem loadValue_string (fuel : Nat) :
    loadValue (fuel + 1) BIN_KV_SERIALIZE_TYPE_STRING = (do
      let str ← readString
      pure (.string str)) := by
  rw [loadValue.eq_2]
  rfl

theorem parseBinaryWith_declaredStringInput {size : Nat} (positive : 0 < size)
    (fits : size < 2 ^ 62) {fuel : Nat} (enough : 3 ≤ fuel) :
    parseBinaryWith fuel ⟨declaredStringInput size, 0⟩ = .error readFailure ⟨[], size + 1⟩ := by
  obtain ⟨fuel, rfl⟩ : ∃ smaller, fuel = smaller + 3 := ⟨fuel - 3, by omega⟩
  have layout : declaredStringInput size = KVBinaryStorageBlockHeader.portable.toBytes ++
      4 :: 1 :: 97 :: BIN_KV_SERIALIZE_TYPE_STRING :: leBytes 8 (4 * size + 3) := by
    simp [declaredStringInput]
  have entry : loadEntry (fuel + 2) ⟨BIN_KV_SERIALIZE_TYPE_STRING :: leBytes 8 (4 * size + 3), 1⟩ =
      loadValue (fuel + 1) BIN_KV_SERIALIZE_TYPE_STRING ⟨leBytes 8 (4 * size + 3), 1⟩ :=
    loadEntry_value (by decide) _ _
  rw [layout, parseBinaryWith_portable, loadSection_single, entry, loadValue_string,
    bind_of_error (readString_declared positive fits 1), Nat.add_comm 1 size]

theorem parseBinary_declaredStringInput {size : Nat} (positive : 0 < size) (fits : size < 2 ^ 62) :
    parseBinary ⟨declaredStringInput size, 0⟩ = .error readFailure ⟨[], size + 1⟩ := by
  rw [parseBinary_eq]
  exact parseBinaryWith_declaredStringInput positive fits (by
    simp only [nestingBudget, length_declaredStringInput]
    omega)

/-- Parsing terminates on every input, but neither the memory it reserves nor the depth of its
recursion is bounded as the input is: twenty-one bytes declare any size below `2 ^ 62`, and
`readString` resizes to it before the parse throws; for every limit on the depth some input
parses only past it. -/
theorem parseBinary_resources :
    (∀ tape after, parseBinary tape ≠ .error nestingExhausted after) ∧
    (∀ size, 0 < size → size < 2 ^ 62 →
      (declaredStringInput size).length = 21 ∧
        parseBinary ⟨declaredStringInput size, 0⟩ = .error readFailure ⟨[], size + 1⟩) ∧
    (∀ limit, ∃ input, (∃ value after, parseBinary ⟨input, 0⟩ = .ok value after) ∧
      ∃ after, parseBinaryWith limit ⟨input, 0⟩ = .error nestingExhausted after) := by
  refine ⟨parseBinary_never_exhausted, fun size positive fits => ?_, fun limit => ?_⟩
  · exact ⟨length_declaredStringInput size, parseBinary_declaredStringInput positive fits⟩
  · exact ⟨nestedInput limit, ⟨_, _, parseBinary_nestedInput limit⟩,
      (parseBinaryWith_nestedInput limit limit).2 (by omega)⟩

theorem kilobyte_string_declaration_reserves_kilobyte :
    (0 < 1024 ∧ 1024 < 2 ^ 62) ∧ (declaredStringInput 1024).length = 21 ∧
      parseBinary ⟨declaredStringInput 1024, 0⟩ = .error readFailure ⟨[], 1025⟩ :=
  ⟨⟨by decide, by decide⟩, parseBinary_resources.2.1 1024 (by decide) (by decide)⟩

/-- Twenty-one bytes that reserve a gibibyte, which the allocator grants, before the parse throws,
and a twenty-four-byte input that nests deeper than a budget of ten. -/
theorem short_inputs_exceed_memory_and_depth_bounds :
    (declaredStringInput (2 ^ 30)).length = 21 ∧
      parseBinary ⟨declaredStringInput (2 ^ 30), 0⟩ = .error readFailure ⟨[], 2 ^ 30 + 1⟩ ∧
      (∃ value after, parseBinary ⟨nestedInput 10, 0⟩ = .ok value after) ∧
      ∃ after, parseBinaryWith 10 ⟨nestedInput 10, 0⟩ = .error nestingExhausted after :=
  ⟨length_declaredStringInput _, parseBinary_declaredStringInput (by decide) (by decide),
    ⟨_, _, parseBinary_nestedInput 10⟩, (parseBinaryWith_nestedInput 10 10).2 (by decide)⟩

end Dynex.KVBinaryInputStreamSerializer
