import Dynex.Core.Basic

/-!
# Block synchronisation on one connection

The handlers of `DynexCNProtocolHandler` for the two responses that drive synchronisation,
`NOTIFY_RESPONSE_CHAIN_ENTRY` and `NOTIFY_RESPONSE_GET_OBJECTS`, with `request_missing_objects` and
`processObjects`. Each call reads and writes the connection's context and the core, and what it
does towards the outside is kept in order in a log: the state it sets, the notifications it posts to
the peer, the transactions and blocks it hands to the core.

The core is a parameter (`CoreInterface`): its answers and how it changes are not modelled, only
that the handler asks. Heights are the context's `uint32_t`, with its wrap-around.
-/

set_option autoImplicit false

namespace Dynex

open Crypto

/-- `DynexCNConnectionContext::state`. -/
inductive ConnectionState where
  | state_befor_handshake
  | state_synchronizing
  | state_idle
  | state_normal
  | state_sync_required
  | state_pool_sync_required
  | state_shutdown
  deriving DecidableEq, Repr

/-- The members of `DynexCNConnectionContext` the synchronisation reads: the peer's protocol
`version`, the `std::list` of block ids still needed and the `std::unordered_set` of those
requested. -/
structure DynexCNConnectionContext where
  version : UInt8
  m_state : ConnectionState
  m_needed_objects : List Hash
  m_requested_objects : Finset Hash
  m_remote_blockchain_height : UInt32
  m_last_response_height : UInt32

/-- `block_complete_entry`: a block blob and its transaction blobs. -/
structure block_complete_entry where
  block : List UInt8
  txs : List (List UInt8)

structure NOTIFY_RESPONSE_CHAIN_ENTRY_request where
  start_height : UInt32
  total_height : UInt32
  m_block_ids : List Hash

structure NOTIFY_RESPONSE_GET_OBJECTS_request where
  txs : List (List UInt8)
  blocks : List block_complete_entry
  missed_ids : List Hash
  current_blockchain_height : UInt32

/-- `parsed_block_entry`: a parsed block with its transaction blobs. -/
structure parsed_block_entry where
  block : Block
  txs : List (List UInt8)

/-- The three flags of `block_verification_context` that `processObjects` reads. -/
structure block_verification_context where
  m_verification_failed : Bool
  m_marked_as_orphaned : Bool
  m_already_exists : Bool

/-- The notifications the handlers post: `NOTIFY_REQUEST_GET_OBJECTS` (its `txs` are always
empty here), `NOTIFY_REQUEST_CHAIN` and `NOTIFY_REQUEST_TX_POOL`. -/
inductive Notification where
  | requestGetObjects (blocks : List Hash)
  | requestChain (block_ids : List Hash)
  | requestTxPool (txs : List Hash)
  deriving DecidableEq

/-- What a handler does towards the outside, in order. -/
inductive Event where
  | setState (state : ConnectionState)
  | post (notification : Notification)
  | handleIncomingTransaction (blob : List UInt8)
  | handleIncomingBlock (block : Block)
  deriving DecidableEq

/-- What the handler asks of `m_core`, of the block format and of the currency. -/
structure CoreInterface (Core : Type) where
  have_block : Core → Hash → Bool
  get_blockchain_top : Core → Hash
  buildSparseChain : Core → List Hash
  getPoolTransactionHashes : Core → List Hash
  handle_incoming_tx : Core → List UInt8 → Bool × Core
  handle_incoming_block : Core → Block → block_verification_context × Core
  on_synchronized : Core → Core
  fromBinaryArray : List UInt8 → Option Block
  get_block_hash : Block → Hash
  maxBlockBlobSize : Nat

/-- The state one call of a handler threads: the connection's context, the core, the handler's
`m_synchronized` flag and the log so far. -/
structure Call (Core : Type) where
  context : DynexCNConnectionContext
  core : Core
  m_synchronized : Bool
  log : List Event

def BLOCKS_SYNCHRONIZING_DEFAULT_COUNT : Nat := 200

def P2PProtocolVersion_V1 : UInt8 := 1

namespace Call

variable {Core : Type}

def setState (call : Call Core) (state : ConnectionState) : Call Core :=
  { call with context := { call.context with m_state := state }, log := call.log ++ [.setState state] }

def post (call : Call Core) (notification : Notification) : Call Core :=
  { call with log := call.log ++ [.post notification] }

def setIdle (call : Call Core) : Call Core :=
  let call := call.setState .state_idle
  { call with context := { call.context with m_needed_objects := [], m_requested_objects := ∅ } }

end Call

namespace DynexCNProtocolHandler

variable {Core : Type} (iface : CoreInterface Core)

/-- The loop of `request_missing_objects` over `m_needed_objects`: up to
`BLOCKS_SYNCHRONIZING_DEFAULT_COUNT` ids are requested, each visited id leaves the list, and with
`check_having_blocks` an id the core has is dropped unrequested. The request's blocks, the
requested set and the ids left. -/
def requestLoop (core : Core) (check_having_blocks : Bool) (count : Nat) (blocks : List Hash)
    (requested : Finset Hash) : List Hash → List Hash × Finset Hash × List Hash
  | [] => (blocks, requested, [])
  | hash :: rest =>
      if count < BLOCKS_SYNCHRONIZING_DEFAULT_COUNT then
        if !(check_having_blocks && iface.have_block core hash) then
          requestLoop core check_having_blocks (count + 1) (blocks ++ [hash]) (insert hash requested)
            rest
        else requestLoop core check_having_blocks count blocks requested rest
      else (blocks, requested, hash :: rest)

def requestMissingPoolTransactions (call : Call Core) : Call Core :=
  if call.context.version < P2PProtocolVersion_V1 then call
  else call.post (.requestTxPool (iface.getPoolTransactionHashes call.core))

def on_connection_synchronized (call : Call Core) : Call Core :=
  if call.m_synchronized then call
  else { call with m_synchronized := true, core := iface.on_synchronized call.core }

/-- `request_missing_objects(context, check_having_blocks)`: the needed blocks if any, else more
ids while the peer is ahead, else the end of synchronisation when the counters agree. -/
def request_missing_objects (call : Call Core) (check_having_blocks : Bool) : Bool × Call Core :=
  let context := call.context
  if context.m_needed_objects.length ≠ 0 then
    let (blocks, requested, needed) := requestLoop iface call.core check_having_blocks 0 []
      context.m_requested_objects context.m_needed_objects
    let call := { call with
      context := { context with m_needed_objects := needed, m_requested_objects := requested } }
    (true, call.post (.requestGetObjects blocks))
  else if context.m_last_response_height < context.m_remote_blockchain_height - 1 then
    (true, call.post (.requestChain (iface.buildSparseChain call.core)))
  else if !(context.m_last_response_height = context.m_remote_blockchain_height - 1 &&
      context.m_needed_objects.length = 0 && context.m_requested_objects.card = 0) then
    (false, call)
  else
    let call := requestMissingPoolTransactions iface call
    let call := call.setState .state_normal
    (true, on_connection_synchronized iface call)

/-- `handle_response_chain_entry`: an inconsistent height sets `state_shutdown`, and the handler
goes on to queue the unknown ids and request them. -/
def handle_response_chain_entry (call : Call Core) (arg : NOTIFY_RESPONSE_CHAIN_ENTRY_request) :
    Int × Call Core :=
  match arg.m_block_ids with
  | [] => (1, call.setState .state_shutdown)
  | front :: _ =>
      if !iface.have_block call.core front then (1, call.setState .state_shutdown)
      else
        let call := { call with context := { call.context with
          m_remote_blockchain_height := arg.total_height
          m_last_response_height := arg.start_height + arg.m_block_ids.length.toUInt32 - 1 } }
        let call := if call.context.m_last_response_height > call.context.m_remote_blockchain_height
          then call.setState .state_shutdown else call
        let call := { call with context := { call.context with
          m_needed_objects := call.context.m_needed_objects ++
            arg.m_block_ids.filter (fun bl_id => !iface.have_block call.core bl_id) } }
        (1, (request_missing_objects iface call false).2)

/-- The loop of `handle_response_get_objects` over the blocks of the response, with the count of
blocks seen, the hashes and the parsed blocks so far. Each block must parse, have been requested and
carry as many transactions as it names; it then leaves `m_requested_objects`, in place. An error is
a return from the handler. -/
def receiveBlocks (call : Call Core) (count : Nat) (block_hashes : List Hash)
    (parsed_blocks : List parsed_block_entry) :
    List block_complete_entry → Except (Call Core) (Call Core × List Hash × List parsed_block_entry)
  | [] => .ok (call, block_hashes, parsed_blocks)
  | block_entry :: rest =>
      let count := count + 1
      if block_entry.block.length > iface.maxBlockBlobSize then .error (call.setState .state_shutdown)
      else
        match iface.fromBinaryArray block_entry.block with
        | none => .error (call.setState .state_shutdown)
        | some b =>
            let blockHash := iface.get_block_hash b
            -- another connection delivered these blocks first
            if count = 2 && iface.have_block call.core blockHash then .error call.setIdle
            else if blockHash ∉ call.context.m_requested_objects then
              .error (call.setState .state_shutdown)
            else if b.transactionHashes.length ≠ block_entry.txs.length then
              .error (call.setState .state_shutdown)
            else
              let call := { call with context := { call.context with
                m_requested_objects := call.context.m_requested_objects.erase blockHash } }
              receiveBlocks call count (block_hashes ++ [blockHash])
                (parsed_blocks ++ [⟨b, block_entry.txs⟩]) rest

/-- The dismiss loop: the blocks up to the first that is the core's top are dropped. -/
def dismissThroughTop (top : Hash) (block_hashes : List Hash)
    (parsed_blocks : List parsed_block_entry) : List parsed_block_entry :=
  match block_hashes.idxOf? top with
  | some index => parsed_blocks.drop (index + 1)
  | none => parsed_blocks

/-- The transactions of one block, each handed to the core as kept by a block; one that fails
verification shuts the connection down and ends `processObjects`. -/
def processTransactions (call : Call Core) : List (List UInt8) → Except (Call Core) (Call Core)
  | [] => .ok call
  | transactionBinary :: rest =>
      let (m_verification_failed, core) := iface.handle_incoming_tx call.core transactionBinary
      let call := { call with core, log := call.log ++ [.handleIncomingTransaction transactionBinary] }
      if m_verification_failed then .error (call.setState .state_shutdown)
      else processTransactions call rest

/-- `processObjects(context, blocks)`, with `m_stop` read before each block. -/
def processObjects (m_stop : Bool) (call : Call Core) : List parsed_block_entry → Int × Call Core
  | [] => (0, call)
  | block_entry :: rest =>
      if m_stop then (0, call)
      else
        match processTransactions iface call block_entry.txs with
        | .error call => (1, call)
        | .ok call =>
            let (bvc, core) := iface.handle_incoming_block call.core block_entry.block
            let call := { call with core, log := call.log ++ [.handleIncomingBlock block_entry.block] }
            if bvc.m_verification_failed then (1, call.setState .state_shutdown)
            else if bvc.m_marked_as_orphaned then (1, call.setState .state_shutdown)
            else if bvc.m_already_exists then (1, call.setIdle)
            else processObjects m_stop call rest

/-- `handle_response_get_objects`. -/
def handle_response_get_objects (m_stop : Bool) (call : Call Core)
    (arg : NOTIFY_RESPONSE_GET_OBJECTS_request) : Int × Call Core :=
  if call.context.m_last_response_height > arg.current_blockchain_height then
    (1, call.setState .state_shutdown)
  else
    let call := { call with context := { call.context with
      m_remote_blockchain_height := arg.current_blockchain_height } }
    match receiveBlocks iface call 0 [] [] arg.blocks with
    | .error call => (1, call)
    | .ok (call, block_hashes, parsed_blocks) =>
        if call.context.m_requested_objects.card ≠ 0 then (1, call.setState .state_shutdown)
        else
          let parsed_blocks := dismissThroughTop (iface.get_blockchain_top call.core) block_hashes
            parsed_blocks
          match processObjects iface m_stop call parsed_blocks with
          | (0, call) =>
              if !m_stop && call.context.m_state = .state_synchronizing then
                (1, (request_missing_objects iface call true).2)
              else (1, call)
          | (result, call) => (result, call)

/-- The calls one connection goes through from `start`: chain-entry and get-objects responses
with any contents, in any order, while other connections change the core in between. -/
inductive Reaches (start : Call Core) : Call Core → Prop
  | refl : Reaches start start
  | chainEntry {call : Call Core} (core : Core) (arg : NOTIFY_RESPONSE_CHAIN_ENTRY_request) :
      Reaches start call → Reaches start (handle_response_chain_entry iface { call with core } arg).2
  | getObjects {call : Call Core} (core : Core) (m_stop : Bool)
      (arg : NOTIFY_RESPONSE_GET_OBJECTS_request) :
      Reaches start call →
        Reaches start (handle_response_get_objects iface m_stop { call with core } arg).2

end DynexCNProtocolHandler

end Dynex
