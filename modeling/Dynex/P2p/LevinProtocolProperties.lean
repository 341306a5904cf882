import Dynex.P2p.LevinProtocol

/-!
# Levin messages read back over any chunking

`writeStrict` puts exactly its buffer on the wire however the transport splits the writes, and
`readStrict` returns exactly the next bytes, or fails once the stream ends before them, however the
transport splits the reads. The header reads back field by field (`ofBytes_toBytes`), so
`readCommand` returns every message `sendMessage` or `sendReply` framed, and `false` on a stream
that ends before a frame does. A session is the frames one after another; reading it back is an
induction over the messages, one frame a step.
-/

set_option autoImplicit false

namespace Dynex.LevinProtocol

open bucket_head2 (toBytes ofBytes)

/-! ## The header -/

@[simp] theorem length_toBytes (head : bucket_head2) : head.toBytes.length = sizeof_bucket_head2 := by
  simp [toBytes, sizeof_bucket_head2]

theorem ofBytes_toBytes (head : bucket_head2) : ofBytes head.toBytes = head := by
  simp (disch := simp) only [ofBytes, toBytes, List.drop_append_of_le_length,
    List.take_append_of_le_length, List.drop_eq_nil_of_le, List.take_of_length_le,
    List.nil_append, List.getD_eq_getElem?_getD]
  obtain ⟨signature, cb, need, command, code, flags, version⟩ := head
  cases need <;> simp

theorem toNat_ofNat_of_bounded {length : Nat} (bounded : length ≤ LEVIN_DEFAULT_MAX_PACKET_SIZE.toNat) :
    (UInt64.ofNat length).toNat = length := by
  have limit : LEVIN_DEFAULT_MAX_PACKET_SIZE.toNat = 100000000 := rfl
  have fits : length < UInt64.size := by
    rw [limit] at bounded
    exact Nat.lt_of_le_of_lt bounded (by decide)
  exact UInt64.toNat_ofNat_of_lt fits

theorem not_too_big_of_bounded {length : Nat}
    (bounded : length ≤ LEVIN_DEFAULT_MAX_PACKET_SIZE.toNat) :
    ¬UInt64.ofNat length > LEVIN_DEFAULT_MAX_PACKET_SIZE.toUInt64 := by
  rw [gt_iff_lt, UInt64.lt_iff_toNat_lt, toNat_ofNat_of_bounded bounded]
  simpa using bounded

theorem ofNat_bne_zero_of_bounded {length : Nat}
    (bounded : length ≤ LEVIN_DEFAULT_MAX_PACKET_SIZE.toNat) :
    (UInt64.ofNat length != 0) = decide (length ≠ 0) := by
  by_cases empty : length = 0
  · simp [empty]
  · have nonzero : UInt64.ofNat length ≠ 0 := by
      rw [ne_eq, ← UInt64.toNat_inj, toNat_ofNat_of_bounded bounded, UInt64.toNat_zero]
      exact empty
    simp [nonzero, empty]

theorem request_not_response :
    (LEVIN_PACKET_REQUEST &&& LEVIN_PACKET_RESPONSE == LEVIN_PACKET_RESPONSE) = false := by
  decide

theorem reply_is_response :
    (LEVIN_PACKET_RESPONSE &&& LEVIN_PACKET_RESPONSE == LEVIN_PACKET_RESPONSE) = true := by
  decide

/-! ## Transfers over any chunking -/

section Transfers

variable (split : Split)

theorem writeStrict_loop_wire (data : List UInt8) (offset : Nat) (sender : Sender) :
    (writeStrict.loop split data offset sender).wire = sender.wire ++ data.drop offset := by
  fun_induction writeStrict.loop split data offset sender with
  | case1 offset sender more result ih =>
      rw [ih]
      simp only [result, Sender.write, List.append_assoc, ← List.drop_drop, List.take_append_drop]
  | case2 offset sender done =>
      rw [List.drop_eq_nil_of_le (by omega), List.append_nil]

theorem writeStrict_wire (sender : Sender) (data : List UInt8) :
    (writeStrict split sender data).wire = sender.wire ++ data := by
  rw [writeStrict, writeStrict_loop_wire, List.drop_zero]

theorem read_eq (receiver : Receiver) (size : Nat) :
    ∃ count, count ≤ size ∧ count ≤ receiver.incoming.length ∧
      (0 < size → 0 < receiver.incoming.length → 0 < count) ∧
      receiver.read split size =
        (receiver.incoming.take count,
          { incoming := receiver.incoming.drop count, reads := receiver.reads + 1 }) :=
  ⟨min (min (split receiver.reads + 1) size) receiver.incoming.length, by omega, by omega,
    by omega, rfl⟩

theorem readStrict_loop_of_le {size : Nat} (buffer : List UInt8) (receiver : Receiver)
    (fits : buffer.length ≤ size) (long : size ≤ buffer.length + receiver.incoming.length) :
    ∃ reads, readStrict.loop split size buffer receiver =
      (some (buffer ++ receiver.incoming.take (size - buffer.length)),
        { incoming := receiver.incoming.drop (size - buffer.length), reads := reads }) := by
  fun_induction readStrict.loop split size buffer receiver with
  | case1 buffer receiver more result empty =>
      obtain ⟨count, -, within, positive, read⟩ := read_eq split receiver (size - buffer.length)
      simp only [result, read, List.length_take] at empty
      have := positive (by omega) (by omega)
      omega
  | case2 buffer receiver more result nonempty ih =>
      obtain ⟨count, atMost, within, -, read⟩ := read_eq split receiver (size - buffer.length)
      simp only [result, read] at ih
      obtain ⟨reads, loop⟩ := ih
        (by simp only [List.length_append, List.length_take]; omega)
        (by simp only [List.length_append, List.length_take, List.length_drop]; omega)
      refine ⟨reads, ?_⟩
      have rest : size - buffer.length =
          count + (size - (buffer ++ receiver.incoming.take count).length) := by
        simp only [List.length_append, List.length_take]
        omega
      simp only [result, read]
      rw [loop, rest, List.take_add, List.drop_drop, List.append_assoc]
  | case3 buffer receiver done =>
      have full : size - buffer.length = 0 := by omega
      exact ⟨receiver.reads, by rw [full, List.take_zero, List.drop_zero, List.append_nil]⟩

theorem readStrict_loop_of_lt {size : Nat} (buffer : List UInt8) (receiver : Receiver)
    (short : buffer.length + receiver.incoming.length < size) :
    ∃ reads, readStrict.loop split size buffer receiver = (none, { incoming := [], reads := reads }) := by
  fun_induction readStrict.loop split size buffer receiver with
  | case1 buffer receiver more result empty =>
      obtain ⟨count, -, within, positive, read⟩ := read_eq split receiver (size - buffer.length)
      simp only [result, read, List.length_take] at empty ⊢
      have ended : receiver.incoming.length = 0 := by
        by_contra remaining
        have := positive (by omega) (by omega)
        omega
      exact ⟨receiver.reads + 1, by rw [List.drop_eq_nil_of_le (by omega)]⟩
  | case2 buffer receiver more result nonempty ih =>
      obtain ⟨count, -, within, -, read⟩ := read_eq split receiver (size - buffer.length)
      simp only [result, read] at ih ⊢
      apply ih
      simp only [List.length_append, List.length_take, List.length_drop]
      omega
  | case3 buffer receiver done => omega

theorem readStrict_append (bytes rest : List UInt8) (reads : Nat) :
    ∃ reads', readStrict split bytes.length { incoming := bytes ++ rest, reads := reads } =
      (some bytes, { incoming := rest, reads := reads' }) := by
  obtain ⟨reads', loop⟩ := @readStrict_loop_of_le split bytes.length []
    { incoming := bytes ++ rest, reads := reads } (Nat.zero_le _) (by simp)
  refine ⟨reads', ?_⟩
  simpa [readStrict] using loop

theorem readStrict_of_lt {size : Nat} (receiver : Receiver) (short : receiver.incoming.length < size) :
    ∃ reads, readStrict split size receiver = (none, { incoming := [], reads := reads }) :=
  readStrict_loop_of_lt split [] receiver (by simpa using short)

end Transfers

/-! ## Messages and their frames -/

namespace Message

def head : Message → bucket_head2
  | .request command body needResponse => requestHead command body needResponse
  | .reply command body returnCode => replyHead command body returnCode

def body : Message → List UInt8
  | .request _ body _ => body
  | .reply _ body _ => body

def frame (message : Message) : List UInt8 := message.head.toBytes ++ message.body

/-- What the receiver is to get for a message: its command and body; a request is a notification
when it needs no response and is never a response, and a reply is both. -/
def expected : Message → Command
  | .request command body needResponse =>
      { command := command, buf := body, isNotify := !needResponse, isResponse := false }
  | .reply command body _ =>
      { command := command, buf := body, isNotify := true, isResponse := true }

theorem head_signature (message : Message) : message.head.m_signature = LEVIN_SIGNATURE := by
  cases message <;> rfl

theorem head_cb (message : Message) : message.head.m_cb = UInt64.ofNat message.body.length := by
  cases message <;> rfl

theorem command_of_head (message : Message) (buf : List UInt8) :
    ({ command := message.head.m_command, buf := buf,
       isNotify := !message.head.m_have_to_return_data,
       isResponse := message.head.m_flags &&& LEVIN_PACKET_RESPONSE == LEVIN_PACKET_RESPONSE } :
      Command) = { message.expected with buf := buf } := by
  cases message <;>
    simp only [head, expected, requestHead, replyHead, request_not_response, reply_is_response,
      Bool.not_false]

theorem expected_with_body (message : Message) :
    { message.expected with buf := message.body } = message.expected := by
  cases message <;> rfl

end Message

section Session

variable (split : Split)

theorem send_wire (sender : Sender) (message : Message) :
    (send split sender message).wire = sender.wire ++ message.frame := by
  cases message <;> exact writeStrict_wire split _ _

theorem sendAll_wire (sender : Sender) (messages : List Message) :
    (sendAll split sender messages).wire = sender.wire ++ messages.flatMap Message.frame := by
  induction messages generalizing sender with
  | nil => simp [sendAll]
  | cons message rest ih =>
      rw [sendAll, List.foldl_cons, ← sendAll, ih, send_wire, List.flatMap_cons,
        List.append_assoc]

theorem readCommand_nil (reads : Nat) :
    ∃ reads', readCommand split { incoming := [], reads := reads } =
      .ok (none, { incoming := [], reads := reads' }) := by
  obtain ⟨reads', read⟩ :=
    readStrict_of_lt split { incoming := [], reads := reads } (by decide : 0 < sizeof_bucket_head2)
  exact ⟨reads', by rw [readCommand, read]⟩

theorem readCommand_of_head (message : Message)
    (bounded : message.body.length ≤ LEVIN_DEFAULT_MAX_PACKET_SIZE.toNat) {receiver after : Receiver}
    (read : readStrict split sizeof_bucket_head2 receiver = (some message.head.toBytes, after)) :
    readCommand split receiver =
      match (if message.body.length ≠ 0 then readStrict split message.body.length after
          else (some [], after)) with
      | (none, receiver) => .ok (none, receiver)
      | (some buf, receiver) => .ok (some { message.expected with buf := buf }, receiver) := by
  unfold readCommand
  rw [read]
  simp only [ofBytes_toBytes, message.head_signature, message.head_cb, bne_self_eq_false,
    not_too_big_of_bounded bounded, ofNat_bne_zero_of_bounded bounded,
    toNat_ofNat_of_bounded bounded, Message.command_of_head, Bool.false_eq_true, decide_eq_true_eq,
    ↓reduceIte] <;> rfl

theorem readCommand_frame (message : Message)
    (bounded : message.body.length ≤ LEVIN_DEFAULT_MAX_PACKET_SIZE.toNat) (rest : List UInt8)
    (reads : Nat) :
    ∃ reads', readCommand split { incoming := message.frame ++ rest, reads := reads } =
      .ok (some message.expected, { incoming := rest, reads := reads' }) := by
  obtain ⟨afterHead, head⟩ :=
    readStrict_append split message.head.toBytes (message.body ++ rest) reads
  rw [length_toBytes, ← List.append_assoc] at head
  rw [Message.frame, readCommand_of_head split message bounded head]
  by_cases empty : message.body = []
  · refine ⟨afterHead, ?_⟩
    rw [if_neg (by simp [empty])]
    dsimp only
    rw [← empty, message.expected_with_body, empty, List.nil_append]
  · obtain ⟨afterBody, body⟩ := readStrict_append split message.body rest afterHead
    refine ⟨afterBody, ?_⟩
    rw [if_pos (by simpa using empty), body]
    dsimp only
    rw [message.expected_with_body]

/-- A stream that ends inside a frame, or before one starts, makes `readCommand` return `false`
and leaves nothing to read. -/
theorem readCommand_of_cut (last : Message)
    (bounded : last.body.length ≤ LEVIN_DEFAULT_MAX_PACKET_SIZE.toNat) {cut : List UInt8}
    (inside : cut.IsPrefix last.frame) (short : cut.length < last.frame.length) (reads : Nat) :
    ∃ reads', readCommand split { incoming := cut, reads := reads } =
      .ok (none, { incoming := [], reads := reads' }) := by
  by_cases partHead : cut.length < sizeof_bucket_head2
  · obtain ⟨reads', read⟩ := readStrict_of_lt split { incoming := cut, reads := reads } partHead
    exact ⟨reads', by rw [readCommand, read]⟩
  · have frameLength : last.frame.length = sizeof_bucket_head2 + last.body.length := by
      rw [Message.frame, List.length_append, length_toBytes]
    have taken : cut = last.head.toBytes ++ last.body.take (cut.length - sizeof_bucket_head2) := by
      conv_lhs => rw [List.prefix_iff_eq_take.mp inside]
      rw [Message.frame, List.take_append, length_toBytes,
        List.take_of_length_le (by rw [length_toBytes]; omega)]
    have partShort : (last.body.take (cut.length - sizeof_bucket_head2)).length < last.body.length := by
      rw [List.length_take]
      omega
    generalize last.body.take (cut.length - sizeof_bucket_head2) = part at taken partShort
    obtain ⟨afterHead, head⟩ := readStrict_append split last.head.toBytes part reads
    rw [length_toBytes] at head
    obtain ⟨afterBody, body⟩ :=
      readStrict_of_lt split { incoming := part, reads := afterHead } partShort
    refine ⟨afterBody, ?_⟩
    rw [taken, readCommand_of_head split last bounded head, if_pos (by omega), body]

theorem readCommands_nil (count reads : Nat) :
    readCommands split count { incoming := [], reads := reads } = .ok (List.replicate count none) := by
  induction count generalizing reads with
  | zero => rfl
  | succ count ih =>
      obtain ⟨reads', read⟩ := readCommand_nil split reads
      rw [readCommands, read]
      simp only [ih, List.replicate_succ]

theorem readCommands_frames (messages : List Message)
    (bounded : ∀ message ∈ messages, message.body.length ≤ LEVIN_DEFAULT_MAX_PACKET_SIZE.toNat)
    (last : Message) (lastBounded : last.body.length ≤ LEVIN_DEFAULT_MAX_PACKET_SIZE.toNat)
    {cut : List UInt8} (inside : cut.IsPrefix last.frame) (short : cut.length < last.frame.length)
    (extra reads : Nat) :
    readCommands split (messages.length + 1 + extra)
        { incoming := messages.flatMap Message.frame ++ cut, reads := reads } =
      .ok (messages.map (fun message => some message.expected) ++ List.replicate (extra + 1) none) := by
  induction messages generalizing reads with
  | nil =>
      obtain ⟨reads', read⟩ := readCommand_of_cut split last lastBounded inside short reads
      rw [List.length_nil, Nat.zero_add, Nat.add_comm, readCommands, List.flatMap_nil,
        List.nil_append, read]
      simp only [readCommands_nil, List.map_nil, List.nil_append, List.replicate_succ]
  | cons message rest ih =>
      obtain ⟨reads', read⟩ := readCommand_frame split message
        (bounded message List.mem_cons_self) (rest.flatMap Message.frame ++ cut) reads
      have count : (message :: rest).length + 1 + extra = rest.length + 1 + extra + 1 := by
        rw [List.length_cons]
        omega
      rw [count, readCommands, List.flatMap_cons, List.append_assoc, read]
      simp only [ih (fun other member => bounded other (List.mem_cons_of_mem _ member)),
        List.map_cons, List.cons_append]

end Session

/-- Messages sent with `sendMessage` and `sendReply` on one connection, each body within
`LEVIN_DEFAULT_MAX_PACKET_SIZE`, arrive through successive `readCommand` calls in order with their
command, body and flags, however the transport splits the writes and the reads; once the stream
ends, at a frame boundary or inside one more frame, every further `readCommand` returns `false`. -/
theorem levin_messages_read_back_over_any_chunking (messages : List Message)
    (bounded : ∀ message ∈ messages, message.body.length ≤ LEVIN_DEFAULT_MAX_PACKET_SIZE.toNat)
    (last : Message) (lastBounded : last.body.length ≤ LEVIN_DEFAULT_MAX_PACKET_SIZE.toNat)
    (cut : List UInt8) (inside : cut.IsPrefix last.frame) (short : cut.length < last.frame.length)
    (writeSplit readSplit : Split) (extra : Nat) :
    readCommands readSplit (messages.length + 1 + extra)
        { incoming := (sendAll writeSplit { wire := [], writes := 0 } messages).wire ++ cut,
          reads := 0 } =
      .ok (messages.map (fun message => some message.expected) ++ List.replicate (extra + 1) none) := by
  rw [sendAll_wire, List.nil_append]
  exact readCommands_frames readSplit messages bounded last lastBounded inside short extra 0

/-- A request with a body and a reply without one, written four bytes a call and read one byte a
call, with the stream ending after the reply. -/
theorem request_and_reply_read_back :
    (∀ message ∈ [Message.request 7 [1, 2, 3] true, Message.reply 7 [] 1],
        message.body.length ≤ LEVIN_DEFAULT_MAX_PACKET_SIZE.toNat) ∧
      (Message.request 8 [] false).body.length ≤ LEVIN_DEFAULT_MAX_PACKET_SIZE.toNat ∧
      ([] : List UInt8).IsPrefix (Message.request 8 [] false).frame ∧
      ([] : List UInt8).length < (Message.request 8 [] false).frame.length ∧
      readCommands (fun _ => 0) 3
          { incoming := (sendAll (fun _ => 3) { wire := [], writes := 0 }
              [Message.request 7 [1, 2, 3] true, Message.reply 7 [] 1]).wire ++ [],
            reads := 0 } =
        .ok [some { command := 7, isNotify := false, isResponse := false, buf := [1, 2, 3] },
          some { command := 7, isNotify := true, isResponse := true, buf := [] }, none] :=
  ⟨by decide, by decide, List.nil_prefix, by decide,
    levin_messages_read_back_over_any_chunking [Message.request 7 [1, 2, 3] true, Message.reply 7 [] 1]
      (by decide) (Message.request 8 [] false) (by decide) [] List.nil_prefix (by decide)
      (fun _ => 3) (fun _ => 0) 0⟩

end Dynex.LevinProtocol
