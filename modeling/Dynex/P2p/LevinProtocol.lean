import Dynex.Lib.ByteCodec

/-!
# Levin framing

`LevinProtocol` of `P2p/LevinProtocol.cpp`: a message is a packed 33-byte `bucket_head2` followed
by its body, written with `writeStrict` and read back with `readCommand`, which reads the header
and then `m_cb` bytes with `readStrict`.

The connection is `System::TcpConnection`. A `write` takes at least one and at most the bytes it
is given; a `read` returns at least one and at most the bytes asked for while the stream has any,
and none once the peer has closed it and all are read. How the transport splits a transfer is a
`Split`: the `n`-th call of a connection moves at most `split n + 1` bytes, which covers every way
to cut a stream into nonempty pieces. The header is the memory image of the packed struct,
little-endian as on the node's hosts.
-/

set_option autoImplicit false

namespace Dynex

def LEVIN_SIGNATURE : UInt64 := 0x0101010101012101
def LEVIN_PACKET_REQUEST : UInt32 := 0x00000001
def LEVIN_PACKET_RESPONSE : UInt32 := 0x00000002
def LEVIN_DEFAULT_MAX_PACKET_SIZE : UInt32 := 100000000
def LEVIN_PROTOCOL_VER_1 : UInt32 := 1

/-- `#pragma pack(1) struct bucket_head2`. -/
structure bucket_head2 where
  m_signature : UInt64
  m_cb : UInt64
  m_have_to_return_data : Bool
  m_command : UInt32
  m_return_code : Int32
  m_flags : UInt32
  m_protocol_version : UInt32
  deriving DecidableEq, Repr

def sizeof_bucket_head2 : Nat := 33

namespace bucket_head2

def zero : bucket_head2 :=
  { m_signature := 0, m_cb := 0, m_have_to_return_data := false, m_command := 0,
    m_return_code := 0, m_flags := 0, m_protocol_version := 0 }

/-- The bytes of the struct in memory, fields in order, each least significant byte first. -/
def toBytes (head : bucket_head2) : List UInt8 :=
  Codec.leBytes 8 head.m_signature.toNat ++ Codec.leBytes 8 head.m_cb.toNat ++
    [if head.m_have_to_return_data then 1 else 0] ++ Codec.leBytes 4 head.m_command.toNat ++
    Codec.leBytes 4 head.m_return_code.toUInt32.toNat ++ Codec.leBytes 4 head.m_flags.toNat ++
    Codec.leBytes 4 head.m_protocol_version.toNat

/-- The struct `readStrict` fills from `sizeof(head)` bytes through the `reinterpret_cast`. -/
def ofBytes (bytes : List UInt8) : bucket_head2 :=
  { m_signature := UInt64.ofNat (Codec.leValue (bytes.take 8))
    m_cb := UInt64.ofNat (Codec.leValue ((bytes.drop 8).take 8))
    m_have_to_return_data := bytes.getD 16 0 != 0
    m_command := UInt32.ofNat (Codec.leValue ((bytes.drop 17).take 4))
    m_return_code := (UInt32.ofNat (Codec.leValue ((bytes.drop 21).take 4))).toInt32
    m_flags := UInt32.ofNat (Codec.leValue ((bytes.drop 25).take 4))
    m_protocol_version := UInt32.ofNat (Codec.leValue ((bytes.drop 29).take 4)) }

end bucket_head2

namespace LevinProtocol

/-- `LevinProtocol::Command`. -/
structure Command where
  command : UInt32
  isNotify : Bool
  isResponse : Bool
  buf : List UInt8
  deriving DecidableEq, Repr

abbrev Split := Nat → Nat

/-- The sending end of the connection: the bytes on the wire and the `write` calls made. -/
structure Sender where
  wire : List UInt8
  writes : Nat

/-- The receiving end: the bytes not yet read, after which the peer closes the connection, and
the `read` calls made. -/
structure Receiver where
  incoming : List UInt8
  reads : Nat

def Sender.write (split : Split) (sender : Sender) (data : List UInt8) : Nat × Sender :=
  let count := min (split sender.writes + 1) data.length
  (count, { wire := sender.wire ++ data.take count, writes := sender.writes + 1 })

/-- `m_conn.read(data, size)`: the next bytes of the stream, at least one and at most `size`
while any are left; none once all are read. -/
def Receiver.read (split : Split) (receiver : Receiver) (size : Nat) : List UInt8 × Receiver :=
  let count := min (min (split receiver.reads + 1) size) receiver.incoming.length
  (receiver.incoming.take count,
    { incoming := receiver.incoming.drop count, reads := receiver.reads + 1 })

def writeStrict (split : Split) (sender : Sender) (data : List UInt8) : Sender :=
  loop 0 sender
where
  loop (offset : Nat) (sender : Sender) : Sender :=
    if offset < data.length then
      let result := sender.write split (data.drop offset)
      loop (offset + result.1) result.2
    else sender
  termination_by data.length - offset
  decreasing_by
    simp only [Sender.write, List.length_drop]
    omega

def readStrict (split : Split) (size : Nat) (receiver : Receiver) :
    Option (List UInt8) × Receiver :=
  loop [] receiver
where
  loop (buffer : List UInt8) (receiver : Receiver) : Option (List UInt8) × Receiver :=
    if buffer.length < size then
      let result := receiver.read split (size - buffer.length)
      if result.1.length = 0 then (none, result.2)
      else loop (buffer ++ result.1) result.2
    else (some buffer, receiver)
  termination_by size - buffer.length
  decreasing_by
    rename_i notEmpty
    simp only [result] at notEmpty
    simp only [List.length_append]
    omega

/-- The header `sendMessage(command, out, needResponse)` writes. -/
def requestHead (command : UInt32) (out : List UInt8) (needResponse : Bool) : bucket_head2 :=
  { bucket_head2.zero with
    m_signature := LEVIN_SIGNATURE
    m_cb := UInt64.ofNat out.length
    m_have_to_return_data := needResponse
    m_command := command
    m_protocol_version := LEVIN_PROTOCOL_VER_1
    m_flags := LEVIN_PACKET_REQUEST }

/-- The header `sendReply(command, out, returnCode)` writes. -/
def replyHead (command : UInt32) (out : List UInt8) (returnCode : Int32) : bucket_head2 :=
  { bucket_head2.zero with
    m_signature := LEVIN_SIGNATURE
    m_cb := UInt64.ofNat out.length
    m_have_to_return_data := false
    m_command := command
    m_protocol_version := LEVIN_PROTOCOL_VER_1
    m_flags := LEVIN_PACKET_RESPONSE
    m_return_code := returnCode }

def sendMessage (split : Split) (sender : Sender) (command : UInt32) (out : List UInt8)
    (needResponse : Bool) : Sender :=
  writeStrict split sender ((requestHead command out needResponse).toBytes ++ out)

def sendReply (split : Split) (sender : Sender) (command : UInt32) (out : List UInt8)
    (returnCode : Int32) : Sender :=
  writeStrict split sender ((replyHead command out returnCode).toBytes ++ out)

/-- `readCommand(cmd)`: `none` where it returns `false`, the command where it returns `true`, and
the two `runtime_error`s it throws. -/
def readCommand (split : Split) (receiver : Receiver) :
    Except String (Option Command × Receiver) :=
  match readStrict split sizeof_bucket_head2 receiver with
  | (none, receiver) => .ok (none, receiver)
  | (some bytes, receiver) =>
      let head := bucket_head2.ofBytes bytes
      if head.m_signature != LEVIN_SIGNATURE then .error "Levin signature mismatch"
      else if head.m_cb > LEVIN_DEFAULT_MAX_PACKET_SIZE.toUInt64 then
        .error "Levin packet size is too big"
      else
        let body :=
          if head.m_cb != 0 then readStrict split head.m_cb.toNat receiver else (some [], receiver)
        match body with
        | (none, receiver) => .ok (none, receiver)
        | (some buf, receiver) =>
            .ok (some { command := head.m_command, buf := buf,
                        isNotify := !head.m_have_to_return_data,
                        isResponse := head.m_flags &&& LEVIN_PACKET_RESPONSE == LEVIN_PACKET_RESPONSE },
              receiver)

/-- A message one end sends: a request with `sendMessage` or a reply with `sendReply`. -/
inductive Message where
  | request (command : UInt32) (body : List UInt8) (needResponse : Bool)
  | reply (command : UInt32) (body : List UInt8) (returnCode : Int32)

def send (split : Split) (sender : Sender) : Message → Sender
  | .request command body needResponse => sendMessage split sender command body needResponse
  | .reply command body returnCode => sendReply split sender command body returnCode

def sendAll (split : Split) (sender : Sender) (messages : List Message) : Sender :=
  messages.foldl (send split) sender

/-- `readCommand` called `count` times, the results in order; a throw ends the calls. -/
def readCommands (split : Split) : Nat → Receiver → Except String (List (Option Command))
  | 0, _ => .ok []
  | count + 1, receiver =>
      match readCommand split receiver with
      | .error message => .error message
      | .ok (result, receiver) =>
          match readCommands split count receiver with
          | .error message => .error message
          | .ok rest => .ok (result :: rest)

end LevinProtocol

end Dynex
