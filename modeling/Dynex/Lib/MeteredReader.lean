import Dynex.Lib.ByteCodec

/-!
# Readers that account for the memory they reserve

A parser that sizes a buffer from a length it has just read, before it reads what the buffer is
for, reserves memory that the input does not pay for. A `Loader` runs over a tape that holds the
bytes still to read and the number of bytes reserved so far, and a failure keeps the tape it
failed on: an exception thrown after a reservation does not undo it. Sequencing, reservation
and counted loops get their rules here, once.
-/

set_option autoImplicit false

namespace Codec

/-- The bytes still to read, and the bytes reserved so far. -/
structure Tape where
  input : List UInt8
  reserved : Nat
  deriving DecidableEq, Repr

abbrev Loader (α : Type) := EStateM String Tape α

namespace Loader

variable {α β σ : Type}

/-- A `Reader` run on the tape's bytes; a failure leaves the tape as it was. -/
def ofReader (reader : Reader α) : Loader α := fun tape =>
  match reader tape.input with
  | .ok (value, rest) => .ok value { tape with input := rest }
  | .error message => .error message tape

def ofExcept : Except String α → Loader α
  | .ok value => pure value
  | .error message => throw message

def reserve (size : Nat) : Loader Unit := fun tape =>
  .ok () { tape with reserved := tape.reserved + size }

def loop (body : σ → Loader σ) : Nat → σ → Loader σ
  | 0, state => pure state
  | count + 1, state => do loop body count (← body state)

@[simp] theorem pure_apply (value : α) (tape : Tape) :
    (pure value : Loader α) tape = .ok value tape := rfl

@[simp] theorem throw_apply (message : String) (tape : Tape) :
    (throw message : Loader α) tape = .error message tape := rfl

theorem bind_of_ok {loader : Loader α} {tape after : Tape} {value : α}
    (loaded : loader tape = .ok value after) (next : α → Loader β) :
    (loader >>= next) tape = next value after := by
  show EStateM.bind loader next tape = next value after
  simp only [EStateM.bind, loaded]

theorem bind_of_error {loader : Loader α} {tape after : Tape} {message : String}
    (failed : loader tape = .error message after) (next : α → Loader β) :
    (loader >>= next) tape = .error message after := by
  show EStateM.bind loader next tape = _
  simp only [EStateM.bind, failed]

theorem bind_ok_iff {loader : Loader α} {next : α → Loader β} {tape after : Tape} {result : β} :
    (loader >>= next) tape = .ok result after ↔
      ∃ value middle, loader tape = .ok value middle ∧ next value middle = .ok result after := by
  constructor
  · intro sequenced
    cases loaded : loader tape with
    | ok value middle => exact ⟨value, middle, rfl, by rwa [bind_of_ok loaded] at sequenced⟩
    | error message failedAt => rw [bind_of_error loaded] at sequenced; cases sequenced
  · rintro ⟨value, middle, loaded, finished⟩
    rw [bind_of_ok loaded, finished]

theorem bind_error_iff {loader : Loader α} {next : α → Loader β} {tape after : Tape}
    {message : String} :
    (loader >>= next) tape = .error message after ↔
      loader tape = .error message after ∨
        ∃ value middle, loader tape = .ok value middle ∧ next value middle = .error message after := by
  constructor
  · intro sequenced
    cases loaded : loader tape with
    | ok value middle => exact .inr ⟨value, middle, rfl, by rwa [bind_of_ok loaded] at sequenced⟩
    | error other failedAt =>
        rw [bind_of_error loaded] at sequenced
        cases sequenced
        exact .inl rfl
  · rintro (failed | ⟨value, middle, loaded, finished⟩)
    · exact bind_of_error failed next
    · rw [bind_of_ok loaded, finished]

theorem ofReader_of_ok {reader : Reader α} {tape : Tape} {value : α} {rest : List UInt8}
    (read : reader tape.input = .ok (value, rest)) :
    ofReader reader tape = .ok value { tape with input := rest } := by
  simp only [ofReader, read]

theorem ofReader_of_error {reader : Reader α} {tape : Tape} {message : String}
    (failed : reader tape.input = .error message) :
    ofReader reader tape = .error message tape := by
  simp only [ofReader, failed]

@[simp] theorem ofExcept_ok (value : α) : ofExcept (.ok value) = (pure value : Loader α) := rfl

@[simp] theorem reserve_apply (size : Nat) (tape : Tape) :
    reserve size tape = .ok () { tape with reserved := tape.reserved + size } := rfl

@[simp] theorem loop_zero (body : σ → Loader σ) (state : σ) : loop body 0 state = pure state := rfl

theorem loop_succ (body : σ → Loader σ) (count : Nat) (state : σ) :
    loop body (count + 1) state = (body state >>= loop body count) := rfl

theorem loop_invariant (invariant : σ → Tape → Prop) {body : σ → Loader σ}
    (round : ∀ {state tape state' after}, invariant state tape →
      body state tape = .ok state' after → invariant state' after) :
    ∀ (count : Nat) {state tape state' after}, invariant state tape →
      loop body count state tape = .ok state' after → invariant state' after
  | 0, state, tape, state', after, holds, looped => by
      simp only [loop_zero, pure_apply, EStateM.Result.ok.injEq] at looped
      obtain ⟨rfl, rfl⟩ := looped
      exact holds
  | count + 1, state, tape, state', after, holds, looped => by
      rw [loop_succ, bind_ok_iff] at looped
      obtain ⟨next, middle, ran, rest⟩ := looped
      exact loop_invariant invariant round count (round holds ran) rest

/-! ## Progress and failures

What a loader leaves to read, and which message it can fail with, follow from its parts. -/

/-- A loader that never lengthens what is left to read. -/
structure Consumes (loader : Loader α) : Prop where
  keeps : ∀ {tape value after}, loader tape = .ok value after →
    after.input.length ≤ tape.input.length

/-- A loader that reads at least one byte whenever it succeeds. -/
structure Advances (loader : Loader α) : Prop where
  shortens : ∀ {tape value after}, loader tape = .ok value after →
    after.input.length < tape.input.length

/-- A loader whose only failure is `message`. -/
structure FailsWith (message : String) (loader : Loader α) : Prop where
  only : ∀ {tape other after}, loader tape = .error other after → other = message

theorem Advances.consumes {loader : Loader α} (advances : Advances loader) : Consumes loader :=
  ⟨fun loaded => Nat.le_of_lt (advances.shortens loaded)⟩

theorem advances_throw (message : String) : Advances (throw message : Loader α) := by
  constructor
  intro tape value after loaded
  cases loaded

theorem consumes_pure (value : α) : Consumes (pure value : Loader α) := by
  constructor
  intro tape result after loaded
  cases loaded
  exact Nat.le_refl _

theorem consumes_reserve (size : Nat) : Consumes (reserve size) := by
  constructor
  intro tape result after loaded
  cases loaded
  exact Nat.le_refl _

theorem consumes_ofExcept (result : Except String α) : Consumes (ofExcept result) := by
  constructor
  intro tape value after loaded
  cases result with
  | error message => cases loaded
  | ok value => cases loaded; exact Nat.le_refl _

theorem Consumes.bind {loader : Loader α} {next : α → Loader β} (first : Consumes loader)
    (second : ∀ value, Consumes (next value)) : Consumes (loader >>= next) := by
  constructor
  intro tape result after loaded
  obtain ⟨value, middle, firstLoaded, secondLoaded⟩ := bind_ok_iff.mp loaded
  exact Nat.le_trans ((second value).keeps secondLoaded) (first.keeps firstLoaded)

theorem Advances.bind_left {loader : Loader α} {next : α → Loader β} (first : Advances loader)
    (second : ∀ value, Consumes (next value)) : Advances (loader >>= next) := by
  constructor
  intro tape result after loaded
  obtain ⟨value, middle, firstLoaded, secondLoaded⟩ := bind_ok_iff.mp loaded
  exact Nat.lt_of_le_of_lt ((second value).keeps secondLoaded) (first.shortens firstLoaded)

theorem Consumes.loop {body : σ → Loader σ} (round : ∀ state, Consumes (body state))
    (count : Nat) (state : σ) : Consumes (loop body count state) := by
  constructor
  intro tape result after looped
  exact loop_invariant (fun _ current => current.input.length ≤ tape.input.length)
    (fun bounded ran => Nat.le_trans ((round _).keeps ran) bounded) count (Nat.le_refl _) looped

theorem failsWith_pure (message : String) (value : α) : FailsWith message (pure value : Loader α) := by
  constructor
  intro tape other after failed
  cases failed

theorem failsWith_reserve (message : String) (size : Nat) : FailsWith message (reserve size) := by
  constructor
  intro tape other after failed
  cases failed

theorem failsWith_throw (message : String) : FailsWith message (throw message : Loader α) := by
  constructor
  intro tape other after failed
  cases failed
  rfl

theorem failsWith_ofReader {message : String} {reader : Reader α}
    (only : ∀ {input other}, reader input = .error other → other = message) :
    FailsWith message (ofReader reader) := by
  constructor
  intro tape other after failed
  cases read : reader tape.input with
  | ok result =>
      obtain ⟨value, rest⟩ := result
      rw [ofReader_of_ok read] at failed
      cases failed
  | error readMessage =>
      rw [ofReader_of_error read] at failed
      cases failed
      exact only read

theorem failsWith_ofExcept {message : String} {result : Except String α}
    (only : ∀ {other}, result = .error other → other = message) :
    FailsWith message (ofExcept result) := by
  constructor
  intro tape other after failed
  cases result with
  | ok value => cases failed
  | error thrown =>
      cases failed
      exact only rfl

theorem FailsWith.not_error {message other : String} {loader : Loader α}
    (fails : FailsWith message loader) (differs : other ≠ message) (tape : Tape) :
    ∀ after, loader tape ≠ .error other after :=
  fun _ failed => differs (fails.only failed)

theorem FailsWith.bind {message : String} {loader : Loader α} {next : α → Loader β}
    (first : FailsWith message loader) (second : ∀ value, FailsWith message (next value)) :
    FailsWith message (loader >>= next) := by
  constructor
  intro tape other after failed
  rcases bind_error_iff.mp failed with firstFailed | ⟨value, middle, _, secondFailed⟩
  · exact first.only firstFailed
  · exact (second value).only secondFailed

theorem bind_not_error {loader : Loader α} {next : α → Loader β} {tape : Tape} {message : String}
    (first : ∀ after, loader tape ≠ .error message after)
    (second : ∀ value middle, loader tape = .ok value middle →
      ∀ after, next value middle ≠ .error message after) :
    ∀ after, (loader >>= next) tape ≠ .error message after := by
  intro after failed
  rcases bind_error_iff.mp failed with firstFailed | ⟨value, middle, loaded, secondFailed⟩
  · exact first after firstFailed
  · exact second value middle loaded after secondFailed

theorem throw_bind_not_error {message other : String} (differs : other ≠ message)
    (next : α → Loader β) (tape : Tape) :
    ∀ after, (throw message >>= next) tape ≠ .error other after :=
  bind_not_error ((failsWith_throw message).not_error differs tape) fun _ _ never => by cases never

theorem loop_not_error (invariant : σ → Tape → Prop) (message : String) {body : σ → Loader σ}
    (round : ∀ {state tape}, invariant state tape →
      (∀ after, body state tape ≠ .error message after) ∧
        ∀ state' after, body state tape = .ok state' after → invariant state' after) :
    ∀ (count : Nat) {state tape}, invariant state tape →
      ∀ after, loop body count state tape ≠ .error message after
  | 0, state, tape, _, after, failed => by cases failed
  | count + 1, state, tape, holds, after, failed => by
      rw [loop_succ] at failed
      refine bind_not_error (round holds).1 (fun next middle ran => ?_) after failed
      exact loop_not_error invariant message round count ((round holds).2 next middle ran)

/-! ## Reading a known prefix

A decoder run on the bytes an encoder wrote, whatever follows them: the rules compose the
prefixes the parts read. The memory reserved is left unspecified. -/

def Reads (loader : Loader α) (bytes : List UInt8) (value : α) : Prop :=
  ∀ (rest : List UInt8) (reserved : Nat), ∃ reserved',
    loader ⟨bytes ++ rest, reserved⟩ = .ok value ⟨rest, reserved'⟩

theorem reads_pure (value : α) : Reads (pure value : Loader α) [] value :=
  fun _ reserved => ⟨reserved, rfl⟩

theorem Reads.bind {loader : Loader α} {next : α → Loader β} {first second : List UInt8}
    {value : α} {result : β} (head : Reads loader first value)
    (tail : Reads (next value) second result) :
    Reads (loader >>= next) (first ++ second) result := by
  intro rest reserved
  obtain ⟨middle, loaded⟩ := head (second ++ rest) reserved
  obtain ⟨after, finished⟩ := tail rest middle
  exact ⟨after, by rw [List.append_assoc, bind_of_ok loaded, finished]⟩

theorem Reads.bind_last {loader : Loader α} {next : α → Loader β} {bytes : List UInt8}
    {value : α} {result : β} (head : Reads loader bytes value)
    (tail : Reads (next value) [] result) : Reads (loader >>= next) bytes result := by
  simpa using head.bind tail

theorem reads_loop_zero (body : σ → Loader σ) (state : σ) : Reads (loop body 0 state) [] state := by
  rw [loop_zero]
  exact reads_pure state

theorem Reads.loop_succ {body : σ → Loader σ} {count : Nat} {state next final : σ}
    {first second : List UInt8} (round : Reads (body state) first next)
    (rounds : Reads (loop body count next) second final) :
    Reads (loop body (count + 1) state) (first ++ second) final := by
  rw [Loader.loop_succ]
  exact round.bind rounds

end Loader

end Codec
