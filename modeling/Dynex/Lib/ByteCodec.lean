import Mathlib

/-!
# Byte readers and the codec laws

A reader consumes a byte list from the front and fails with a message; a writer produces the
bytes of a value or fails. Two laws relate them: the reader returns a value from the writer's
bytes whatever follows them (`ReadsBack`), and every input the reader accepts begins with the
writer's bytes for the value it returned (`Canonical`). Both are proved once for sequencing and
for counted lists, so that a format assembled from fields inherits them field by field.
-/

set_option autoImplicit false

namespace Codec

def Reader (α : Type) := List UInt8 → Except String (α × List UInt8)

abbrev Written := Except String (List UInt8)

variable {α β : Type}

namespace Reader

protected def pure (value : α) : Reader α := fun input => .ok (value, input)

protected def bind (reader : Reader α) (next : α → Reader β) : Reader β := fun input =>
  match reader input with
  | .error message => .error message
  | .ok (value, rest) => next value rest

instance : Monad Reader where
  pure := Reader.pure
  bind := Reader.bind

def fail (message : String) : Reader α := fun _ => .error message

@[simp] theorem pure_apply (value : α) (input : List UInt8) :
    (pure value : Reader α) input = .ok (value, input) := rfl

@[simp] theorem fail_apply (message : String) (input : List UInt8) :
    (fail message : Reader α) input = .error message := rfl

theorem bind_apply (reader : Reader α) (next : α → Reader β) (input : List UInt8) :
    (reader >>= next) input =
      match reader input with
      | .error message => .error message
      | .ok (value, rest) => next value rest := rfl

theorem bind_apply_of_ok {reader : Reader α} {input rest : List UInt8} {value : α}
    (read : reader input = .ok (value, rest)) (next : α → Reader β) :
    (reader >>= next) input = next value rest := by
  rw [bind_apply, read]

theorem bind_apply_of_error {reader : Reader α} {input : List UInt8} {message : String}
    (failed : reader input = .error message) (next : α → Reader β) :
    (reader >>= next) input = .error message := by
  rw [bind_apply, failed]

theorem bind_apply_ok {reader : Reader α} {next : α → Reader β} {input rest : List UInt8}
    {result : β} :
    (reader >>= next) input = .ok (result, rest) ↔
      ∃ value middle, reader input = .ok (value, middle) ∧ next value middle = .ok (result, rest) := by
  rw [bind_apply]
  cases read : reader input with
  | error message => simp
  | ok pair =>
      obtain ⟨value, middle⟩ := pair
      simp

theorem map_apply (f : α → β) (reader : Reader α) (input : List UInt8) :
    (f <$> reader) input = (reader >>= fun value => pure (f value)) input := rfl

theorem map_apply_ok {f : α → β} {reader : Reader α} {input rest : List UInt8} {result : β} :
    (f <$> reader) input = .ok (result, rest) ↔
      ∃ value, reader input = .ok (value, rest) ∧ f value = result := by
  rw [map_apply, bind_apply_ok]
  constructor
  · rintro ⟨value, middle, read, finished⟩
    simp only [pure_apply, Except.ok.injEq, Prod.mk.injEq] at finished
    obtain ⟨rfl, rfl⟩ := finished
    exact ⟨value, read, rfl⟩
  · rintro ⟨value, read, rfl⟩
    exact ⟨value, rest, read, rfl⟩

end Reader

theorem except_bind_ok {ε α β : Type} {first : Except ε α} {next : α → Except ε β}
    {result : β} :
    (first >>= next) = .ok result ↔ ∃ value, first = .ok value ∧ next value = .ok result := by
  cases first with
  | error message => simp [bind, Except.bind]
  | ok value => simp [bind, Except.bind]

theorem written_bind_ok {written : Written} {next : List UInt8 → Written} {bytes : List UInt8} :
    (written >>= next) = .ok bytes ↔ ∃ first, written = .ok first ∧ next first = .ok bytes :=
  except_bind_ok

theorem written_pure (bytes : List UInt8) : (pure bytes : Written) = .ok bytes := rfl

@[simp] theorem written_error_bind {γ : Type} (message : String) (next : γ → Written) :
    ((Except.error message : Except String γ) >>= next) = .error message := rfl

@[simp] theorem written_ok_bind (first : List UInt8) (next : List UInt8 → Written) :
    (Except.ok first >>= next : Written) = next first := rfl

def takeBytes (onShort : String) (count : Nat) : Reader (List UInt8) := fun input =>
  if count ≤ input.length then .ok (input.take count, input.drop count) else .error onShort

def takeByte (onShort : String) : Reader UInt8
  | [] => .error onShort
  | byte :: rest => .ok (byte, rest)

/-- `count` values read one after another. -/
def readMany (reader : Reader α) : Nat → Reader (List α)
  | 0 => pure []
  | count + 1 => do
      let first ← reader
      let later ← readMany reader count
      pure (first :: later)

/-- The bytes of each value in turn; the first failure is the result. -/
def writeMany (write : α → Written) : List α → Written
  | [] => pure []
  | value :: later => do
      let first ← write value
      let rest ← writeMany write later
      pure (first ++ rest)

@[simp] theorem writeMany_pure (bytes : α → List UInt8) (values : List α) :
    writeMany (fun value => pure (bytes value)) values = .ok (values.flatMap bytes) := by
  induction values with
  | nil => rfl
  | cons value later inductionHypothesis =>
      simp only [writeMany, inductionHypothesis, List.flatMap_cons]
      rfl

@[simp] theorem takeBytes_append (onShort : String) (bytes rest : List UInt8) :
    takeBytes onShort bytes.length (bytes ++ rest) = .ok (bytes, rest) := by
  simp [takeBytes]

theorem takeBytes_ok {onShort : String} {count : Nat} {input bytes rest : List UInt8}
    (accepted : takeBytes onShort count input = .ok (bytes, rest)) :
    bytes.length = count ∧ input = bytes ++ rest := by
  simp only [takeBytes] at accepted
  split at accepted
  · rename_i enough
    simp only [Except.ok.injEq, Prod.mk.injEq] at accepted
    obtain ⟨rfl, rfl⟩ := accepted
    exact ⟨by simp [enough], (List.take_append_drop count input).symm⟩
  · cases accepted

@[simp] theorem takeByte_cons (onShort : String) (byte : UInt8) (rest : List UInt8) :
    takeByte onShort (byte :: rest) = .ok (byte, rest) := rfl

theorem takeByte_ok {onShort : String} {input rest : List UInt8} {byte : UInt8}
    (accepted : takeByte onShort input = .ok (byte, rest)) : input = byte :: rest := by
  cases input with
  | nil => cases accepted
  | cons first later =>
      simp only [takeByte, Except.ok.injEq, Prod.mk.injEq] at accepted
      obtain ⟨rfl, rfl⟩ := accepted
      rfl

/-! ## Reading back what was written -/

def ReadsBack (reader : Reader α) (encoding : List UInt8) (value : α) : Prop :=
  ∀ rest, reader (encoding ++ rest) = .ok (value, rest)

theorem ReadsBack.pure (value : α) : ReadsBack (Pure.pure value) [] value := fun _ => rfl

theorem ReadsBack.append_inj {reader : Reader α} {first second rest rest' : List UInt8}
    {value other : α} (firstBack : ReadsBack reader first value)
    (secondBack : ReadsBack reader second other) (same : first ++ rest = second ++ rest') :
    value = other ∧ rest = rest' := by
  have read := firstBack rest
  rw [same, secondBack rest', Except.ok.injEq, Prod.mk.injEq] at read
  exact ⟨read.1.symm, read.2.symm⟩

theorem ReadsBack.bind {reader : Reader α} {next : α → Reader β} {first second : List UInt8}
    {value : α} {result : β} (head : ReadsBack reader first value)
    (tail : ReadsBack (next value) second result) :
    ReadsBack (reader >>= next) (first ++ second) result := by
  intro rest
  rw [List.append_assoc, Reader.bind_apply_of_ok (head (second ++ rest))]
  exact tail rest

theorem ReadsBack.pure_bind {next : α → Reader β} {value : α} {encoding : List UInt8}
    {result : β} (tail : ReadsBack (next value) encoding result) :
    ReadsBack (Pure.pure value >>= next) encoding result :=
  tail

theorem ReadsBack.takeBytes (onShort : String) (bytes : List UInt8) :
    ReadsBack (takeBytes onShort bytes.length) bytes bytes :=
  fun rest => takeBytes_append onShort bytes rest

theorem ReadsBack.readMany {reader : Reader α} {write : α → Written} :
    ∀ (values : List α),
      (∀ value ∈ values, ∀ encoding, write value = .ok encoding → ReadsBack reader encoding value) →
      ∀ encoding, writeMany write values = .ok encoding →
        ReadsBack (readMany reader values.length) encoding values
  | [], _, encoding, written => by
      simp only [writeMany] at written
      cases written
      exact ReadsBack.pure []
  | value :: later, each, encoding, written => by
      simp only [writeMany, written_bind_ok] at written
      obtain ⟨first, firstWritten, rest, restWritten, joined⟩ := written
      cases joined
      intro suffix
      have head := each value List.mem_cons_self first firstWritten (rest ++ suffix)
      have tail := ReadsBack.readMany later (fun other member => each other (List.mem_cons_of_mem _ member))
        rest restWritten suffix
      rw [List.length_cons, Codec.readMany, List.append_assoc, Reader.bind_apply_of_ok head,
        Reader.bind_apply_of_ok tail]
      rfl

theorem ReadsBack.readMany_map {γ : Type} {reader : Reader α} (f : γ → α)
    (bytes : γ → List UInt8) :
    ∀ (sources : List γ), (∀ source ∈ sources, ReadsBack reader (bytes source) (f source)) →
      ReadsBack (Codec.readMany reader sources.length) (sources.flatMap bytes) (sources.map f)
  | [], _ => ReadsBack.pure []
  | source :: later, each => by
      intro rest
      have head := each source List.mem_cons_self
      have tail := ReadsBack.readMany_map f bytes later
        (fun other member => each other (List.mem_cons_of_mem _ member))
      rw [List.length_cons, Codec.readMany, List.flatMap_cons, List.append_assoc,
        Reader.bind_apply_of_ok (head _), Reader.bind_apply_of_ok (tail rest)]
      rfl

theorem ReadsBack.of_bytes {reader : Reader α} {bytes : α → List UInt8}
    (each : ∀ value, ReadsBack reader (bytes value) value) (values : List α) :
    ∀ value ∈ values, ∀ encoding, (Pure.pure (bytes value) : Written) = .ok encoding →
      ReadsBack reader encoding value := by
  intro value _ encoding written
  cases written
  exact each value

theorem ReadsBack.map {reader : Reader α} {encoding : List UInt8} {value : α} (f : α → β)
    (read : ReadsBack reader encoding value) : ReadsBack (f <$> reader) encoding (f value) := by
  intro rest
  rw [Reader.map_apply, Reader.bind_apply_of_ok (read rest)]
  rfl

/-! ## Canonical inputs -/

def Canonical (reader : Reader α) (write : α → Written) : Prop :=
  ∀ {input value rest}, reader input = .ok (value, rest) →
    ∃ encoding, write value = .ok encoding ∧ input = encoding ++ rest

theorem Canonical.of_bytes {reader : Reader α} {bytes : α → List UInt8}
    (exact : ∀ {input value rest}, reader input = .ok (value, rest) → input = bytes value ++ rest) :
    Canonical reader (fun value => Pure.pure (bytes value)) :=
  fun accepted => ⟨_, rfl, exact accepted⟩

theorem Canonical.readMany {reader : Reader α} {write : α → Written}
    (each : Canonical reader write) :
    ∀ (count : Nat) {input : List UInt8} {values : List α} {rest : List UInt8},
      Codec.readMany reader count input = .ok (values, rest) →
        values.length = count ∧ ∃ encoding, writeMany write values = .ok encoding ∧ input = encoding ++ rest
  | 0, input, values, rest, accepted => by
      simp only [Codec.readMany, Reader.pure_apply, Except.ok.injEq, Prod.mk.injEq] at accepted
      obtain ⟨rfl, rfl⟩ := accepted
      exact ⟨rfl, [], rfl, rfl⟩
  | count + 1, input, values, rest, accepted => by
      simp only [Codec.readMany, Reader.bind_apply_ok, Reader.pure_apply, Except.ok.injEq,
        Prod.mk.injEq] at accepted
      obtain ⟨first, middle, firstRead, later, final, laterRead, rfl, rfl⟩ := accepted
      obtain ⟨firstBytes, firstWritten, rfl⟩ := each firstRead
      obtain ⟨counted, laterBytes, laterWritten, rfl⟩ := Canonical.readMany each count laterRead
      refine ⟨by simp [counted], firstBytes ++ laterBytes, ?_, by simp⟩
      simp [writeMany, firstWritten, laterWritten]

/-! ## Reading within the input -/

def ReadsWithin (reader : Reader α) : Prop :=
  ∀ {input value rest}, reader input = .ok (value, rest) → rest <:+ input

theorem ReadsWithin.pure (value : α) : ReadsWithin (Pure.pure value : Reader α) := by
  intro input _ rest read
  simp only [Reader.pure_apply, Except.ok.injEq, Prod.mk.injEq] at read
  obtain ⟨rfl, rfl⟩ := read
  exact List.suffix_refl input

theorem ReadsWithin.fail (message : String) : ReadsWithin (Reader.fail message : Reader α) := by
  intro _ _ _ read
  cases read

theorem ReadsWithin.bind {reader : Reader α} {next : α → Reader β} (first : ReadsWithin reader)
    (later : ∀ value, ReadsWithin (next value)) : ReadsWithin (reader >>= next) := by
  intro input _ rest read
  obtain ⟨value, middle, firstRead, laterRead⟩ := Reader.bind_apply_ok.mp read
  exact (later value laterRead).trans (first firstRead)

theorem ReadsWithin.map {reader : Reader α} (f : α → β) (within : ReadsWithin reader) :
    ReadsWithin (f <$> reader) := by
  intro _ _ _ read
  obtain ⟨value, firstRead, _⟩ := Reader.map_apply_ok.mp read
  exact within firstRead

theorem ReadsWithin.takeBytes (onShort : String) (count : Nat) :
    ReadsWithin (takeBytes onShort count) := by
  intro input _ rest read
  obtain ⟨_, rfl⟩ := takeBytes_ok read
  exact List.suffix_append _ rest

theorem ReadsWithin.takeByte (onShort : String) : ReadsWithin (takeByte onShort) := by
  intro input byte rest read
  rw [takeByte_ok read]
  exact List.suffix_cons byte rest

/-! ## Little-endian numbers

A fixed-width integer as a little-endian machine stores it: its low bytes, least significant
first. -/

def leBytes : Nat → Nat → List UInt8
  | 0, _ => []
  | width + 1, value => value.toUInt8 :: leBytes width (value / 256)

def leValue : List UInt8 → Nat
  | [] => 0
  | byte :: rest => byte.toNat + 256 * leValue rest

@[simp] theorem length_leBytes (width value : Nat) : (leBytes width value).length = width := by
  induction width generalizing value with
  | zero => rfl
  | succ width inductionHypothesis => simp [leBytes, inductionHypothesis]

@[simp] theorem leValue_leBytes (width value : Nat) :
    leValue (leBytes width value) = value % 256 ^ width := by
  induction width generalizing value with
  | zero => simp [leBytes, leValue, Nat.mod_one]
  | succ width inductionHypothesis =>
      have low : value.toUInt8.toNat = value % 256 := by simp
      simp only [leBytes, leValue, inductionHypothesis]
      rw [low, Nat.pow_succ, Nat.mul_comm (256 ^ width) 256, Nat.mod_mul]

theorem leValue_lt (bytes : List UInt8) : leValue bytes < 256 ^ bytes.length := by
  induction bytes with
  | nil => simp [leValue]
  | cons byte rest inductionHypothesis =>
      have low := byte.toNat_lt
      simp only [leValue, List.length_cons, Nat.pow_succ]
      omega

theorem leBytes_leValue (bytes : List UInt8) : leBytes bytes.length (leValue bytes) = bytes := by
  induction bytes with
  | nil => rfl
  | cons byte rest inductionHypothesis =>
      have low : (byte.toNat + 256 * leValue rest).toUInt8 = byte := by
        rw [← UInt8.toNat_inj, Nat.toUInt8_eq, UInt8.toNat_ofNat', Nat.add_mul_mod_self_left,
          Nat.mod_eq_of_lt byte.toNat_lt]
      have high : (byte.toNat + 256 * leValue rest) / 256 = leValue rest := by
        have := byte.toNat_lt
        omega
      rw [List.length_cons, leBytes, leValue, low, high, inductionHypothesis]

theorem leValue_append (front back : List UInt8) :
    leValue (front ++ back) = leValue front + 256 ^ front.length * leValue back := by
  induction front with
  | nil => simp [leValue]
  | cons byte rest inductionHypothesis =>
      simp only [List.cons_append, leValue, inductionHypothesis, List.length_cons, Nat.pow_succ]
      ring

theorem leValue_eq_take_add_drop (bytes : List UInt8) {width : Nat} (long : width ≤ bytes.length) :
    leValue bytes = leValue (bytes.take width) + 256 ^ width * leValue (bytes.drop width) := by
  conv_lhs => rw [← List.take_append_drop width bytes]
  rw [leValue_append, List.length_take_of_le long]

end Codec
