import Dynex.Protocol.SyncHandler

/-!
# What synchronisation asks of the peer

Over any sequence of chain-entry and get-objects responses on one connection, with the core
changing in between, `m_requested_objects` holds only ids this node asked the peer for in a
`NOTIFY_REQUEST_GET_OBJECTS` (`requested_objects_were_sent`). Each call is shown to stay `Within`
the call before it: the log only grows, and an id enters the requested set only with a request
posted in the same call. `handle_response_get_objects` hands the core only blocks whose ids were
requested when the response arrived, each once, and only from a response that delivered every
requested id (`get_objects_hands_only_requested`).

`handle_response_chain_entry` is the exception to the rule that a handler stops once it shuts the
connection down: on an inconsistent height it sets `state_shutdown` and goes on to request objects,
and since its heights are `uint32_t` a peer can make the counters wrap and the connection end
synchronised in `state_normal` with `m_last_response_height > m_remote_blockchain_height`.
-/

set_option autoImplicit false

namespace Dynex

open Crypto

def Event.requestedBlocks : Event → List Hash
  | .post (.requestGetObjects blocks) => blocks
  | _ => []

namespace DynexCNProtocolHandler

variable {Core : Type} (iface : CoreInterface Core)

/-! ## Calls that only ask for what they request -/

def Within (call out : Call Core) : Prop :=
  ∃ new, out.log = call.log ++ new ∧ ∀ hash ∈ out.context.m_requested_objects,
    hash ∈ call.context.m_requested_objects ∨ hash ∈ new.flatMap Event.requestedBlocks

theorem Within.refl (call : Call Core) : Within call call :=
  ⟨[], by simp, fun _ member => .inl member⟩

theorem Within.trans {first second third : Call Core} (earlier : Within first second)
    (later : Within second third) : Within first third := by
  obtain ⟨new, grown, requested⟩ := earlier
  obtain ⟨newer, grownAgain, requestedAgain⟩ := later
  refine ⟨new ++ newer, by rw [grownAgain, grown, List.append_assoc], fun hash member => ?_⟩
  rw [List.flatMap_append, List.mem_append]
  rcases requestedAgain hash member with before | asked
  · rcases requested hash before with first | askedEarlier
    · exact .inl first
    · exact .inr (.inl askedEarlier)
  · exact .inr (.inr asked)

theorem within_of_requested_subset {call out : Call Core} (log : out.log = call.log)
    (subset : out.context.m_requested_objects ⊆ call.context.m_requested_objects) :
    Within call out :=
  ⟨[], by rw [log, List.append_nil], fun _ member => .inl (subset member)⟩

theorem within_of_events {call out : Call Core} (new : List Event) (log : out.log = call.log ++ new)
    (requested : out.context.m_requested_objects = call.context.m_requested_objects) :
    Within call out :=
  ⟨new, log, fun _ member => .inl (requested ▸ member)⟩

theorem within_setState (call : Call Core) (state : ConnectionState) :
    Within call (call.setState state) :=
  within_of_events [.setState state] rfl rfl

theorem within_post (call : Call Core) (notification : Notification) :
    Within call (call.post notification) :=
  ⟨[.post notification], rfl, fun _ member => .inl member⟩

theorem within_setIdle (call : Call Core) : Within call call.setIdle :=
  (within_setState call .state_idle).trans
    (within_of_requested_subset rfl (Finset.empty_subset _))

theorem requestLoop_eq (core : Core) (check_having_blocks : Bool) (count : Nat) (blocks : List Hash)
    (requested : Finset Hash) (ids : List Hash) :
    ∃ new, (requestLoop iface core check_having_blocks count blocks requested ids).1 = blocks ++ new ∧
      (requestLoop iface core check_having_blocks count blocks requested ids).2.1 =
        requested ∪ new.toFinset := by
  induction ids generalizing count blocks requested with
  | nil => exact ⟨[], by simp [requestLoop], by simp [requestLoop]⟩
  | cons hash rest inductionHypothesis =>
      unfold requestLoop
      split_ifs
      · obtain ⟨new, asked, added⟩ := inductionHypothesis (count + 1) (blocks ++ [hash])
          (insert hash requested)
        refine ⟨hash :: new, by rw [asked, List.append_assoc, List.singleton_append], ?_⟩
        rw [added, List.toFinset_cons, Finset.insert_union, Finset.union_insert]
      · exact inductionHypothesis count blocks requested
      · exact ⟨[], by simp, by simp⟩

theorem within_requestMissingPoolTransactions (call : Call Core) :
    Within call (requestMissingPoolTransactions iface call) := by
  unfold requestMissingPoolTransactions
  split
  · exact Within.refl call
  · exact within_post call _

theorem within_on_connection_synchronized (call : Call Core) :
    Within call (on_connection_synchronized iface call) := by
  unfold on_connection_synchronized
  split
  · exact Within.refl call
  · exact within_of_requested_subset rfl subset_rfl

theorem within_request_missing_objects (call : Call Core) (check_having_blocks : Bool) :
    Within call (request_missing_objects iface call check_having_blocks).2 := by
  unfold request_missing_objects
  dsimp only
  split_ifs
  · obtain ⟨new, asked, added⟩ := requestLoop_eq iface call.core check_having_blocks 0 []
      call.context.m_requested_objects call.context.m_needed_objects
    rw [List.nil_append] at asked
    refine ⟨[.post (.requestGetObjects new)], ?_, fun hash member => ?_⟩
    · simp only [Call.post, asked]
    change hash ∈ (requestLoop iface call.core check_having_blocks 0 []
      call.context.m_requested_objects call.context.m_needed_objects).2.1 at member
    rw [added, Finset.mem_union, List.mem_toFinset] at member
    simpa [Event.requestedBlocks] using member
  · exact within_post call _
  · exact Within.refl call
  · exact ((within_requestMissingPoolTransactions iface call).trans (within_setState _ _)).trans
      (within_on_connection_synchronized iface _)

theorem within_handle_response_chain_entry (call : Call Core)
    (arg : NOTIFY_RESPONSE_CHAIN_ENTRY_request) :
    Within call (handle_response_chain_entry iface call arg).2 := by
  unfold handle_response_chain_entry
  split
  · exact within_setState call _
  · dsimp only
    split_ifs
    · exact within_setState call _
    · refine Within.trans ?_ (within_request_missing_objects iface _ false)
      exact within_of_events [.setState .state_shutdown] rfl rfl
    · refine Within.trans ?_ (within_request_missing_objects iface _ false)
      exact within_of_events [] (List.append_nil _).symm rfl

def endCall {α : Type} : Except (Call Core) (Call Core × α) → Call Core
  | .error call => call
  | .ok (call, _) => call

/-- The receiving loop only takes ids out of the requested set, whether it finishes or returns. -/
theorem within_receiveBlocks (call : Call Core) (count : Nat) (block_hashes : List Hash)
    (parsed_blocks : List parsed_block_entry) (entries : List block_complete_entry) :
    Within call (endCall (receiveBlocks iface call count block_hashes parsed_blocks entries)) := by
  induction entries generalizing call count block_hashes parsed_blocks with
  | nil => exact Within.refl call
  | cons block_entry rest inductionHypothesis =>
      unfold receiveBlocks
      dsimp only
      by_cases oversized : block_entry.block.length > iface.maxBlockBlobSize
      · rw [if_pos oversized]
        exact within_setState call _
      rw [if_neg oversized]
      cases iface.fromBinaryArray block_entry.block with
      | none => exact within_setState call _
      | some b =>
          dsimp only
          by_cases raced : (decide (count + 1 = 2) && iface.have_block call.core (iface.get_block_hash b))
              = true
          · rw [if_pos raced]
            exact within_setIdle call
          rw [if_neg raced]
          by_cases unrequested : iface.get_block_hash b ∉ call.context.m_requested_objects
          · rw [if_pos unrequested]
            exact within_setState call _
          rw [if_neg unrequested]
          by_cases mismatched : b.transactionHashes.length ≠ block_entry.txs.length
          · rw [if_pos mismatched]
            exact within_setState call _
          rw [if_neg mismatched]
          refine Within.trans ?_ (inductionHypothesis _ _ _ _)
          exact within_of_requested_subset rfl (Finset.erase_subset _ _)

theorem within_processTransactions (call : Call Core) (blobs : List (List UInt8)) :
    Within call (match processTransactions iface call blobs with
      | .error call => call
      | .ok call => call) := by
  induction blobs generalizing call with
  | nil => exact Within.refl call
  | cons transactionBinary rest inductionHypothesis =>
      unfold processTransactions
      dsimp only
      have handed : Within call { call with
          core := (iface.handle_incoming_tx call.core transactionBinary).2
          log := call.log ++ [.handleIncomingTransaction transactionBinary] } :=
        within_of_events [.handleIncomingTransaction transactionBinary] rfl rfl
      by_cases failed : (iface.handle_incoming_tx call.core transactionBinary).1 = true
      · rw [if_pos failed]
        exact handed.trans (within_setState _ _)
      · rw [if_neg failed]
        exact handed.trans (inductionHypothesis _)

theorem within_processObjects (m_stop : Bool) (call : Call Core) (blocks : List parsed_block_entry) :
    Within call (processObjects iface m_stop call blocks).2 := by
  induction blocks generalizing call with
  | nil => exact Within.refl call
  | cons block_entry rest inductionHypothesis =>
      unfold processObjects
      by_cases stopped : m_stop = true
      · rw [if_pos stopped]
        exact Within.refl call
      rw [if_neg stopped]
      have transactions := within_processTransactions iface call block_entry.txs
      revert transactions
      cases processTransactions iface call block_entry.txs with
      | error returned => exact id
      | ok processed =>
          intro transactions
          dsimp only
          have handed : Within call { processed with
              core := (iface.handle_incoming_block processed.core block_entry.block).2
              log := processed.log ++ [.handleIncomingBlock block_entry.block] } :=
            transactions.trans (within_of_events [.handleIncomingBlock block_entry.block] rfl rfl)
          split_ifs
          · exact handed.trans (within_setState _ _)
          · exact handed.trans (within_setState _ _)
          · exact handed.trans (within_setIdle _)
          · exact handed.trans (inductionHypothesis _)

theorem within_handle_response_get_objects (m_stop : Bool) (call : Call Core)
    (arg : NOTIFY_RESPONSE_GET_OBJECTS_request) :
    Within call (handle_response_get_objects iface m_stop call arg).2 := by
  unfold handle_response_get_objects
  split_ifs with behind
  · exact within_setState call _
  have heights : Within call { call with context := { call.context with
      m_remote_blockchain_height := arg.current_blockchain_height } } :=
    within_of_requested_subset rfl subset_rfl
  have received := heights.trans (within_receiveBlocks iface _ 0 [] [] arg.blocks)
  dsimp only
  revert received
  cases receiveBlocks iface _ 0 [] [] arg.blocks with
  | error returned => exact id
  | ok finished =>
      obtain ⟨receivedCall, block_hashes, parsed_blocks⟩ := finished
      intro received
      dsimp only
      split_ifs
      · exact received.trans (within_setState _ _)
      · have processed := received.trans (within_processObjects iface m_stop receivedCall
          (dismissThroughTop (iface.get_blockchain_top receivedCall.core) block_hashes parsed_blocks))
        revert processed
        rcases processObjects iface m_stop receivedCall
          (dismissThroughTop (iface.get_blockchain_top receivedCall.core) block_hashes parsed_blocks)
          with ⟨result, processedCall⟩
        intro processed
        split
        · rename_i _ nextCall same
          cases same
          split_ifs
          · exact processed.trans (within_request_missing_objects iface _ true)
          · exact processed
        · rename_i _ nextResult nextCall _ same
          cases same
          exact processed


/-! ## Runs of the connection -/

theorem within_of_core (call : Call Core) (core : Core) : Within call { call with core } :=
  within_of_requested_subset rfl subset_rfl

theorem Reaches.within {start call : Call Core} (run : Reaches iface start call) :
    Within start call := by
  induction run with
  | refl => exact Within.refl start
  | chainEntry core arg _ earlier =>
      exact (earlier.trans (within_of_core _ core)).trans
        (within_handle_response_chain_entry iface _ arg)
  | getObjects core m_stop arg _ earlier =>
      exact (earlier.trans (within_of_core _ core)).trans
        (within_handle_response_get_objects iface m_stop _ arg)

theorem requested_objects_were_sent {start call : Call Core} (run : Reaches iface start call)
    (nothingRequested : start.context.m_requested_objects = ∅) :
    ∃ new, call.log = start.log ++ new ∧ ∀ hash ∈ call.context.m_requested_objects,
      ∃ blocks, Event.post (.requestGetObjects blocks) ∈ new ∧ hash ∈ blocks := by
  obtain ⟨new, grown, requested⟩ := run.within
  refine ⟨new, grown, fun hash member => ?_⟩
  rcases requested hash member with before | asked
  · rw [nothingRequested] at before
    cases before
  · obtain ⟨event, posted, listed⟩ := List.mem_flatMap.mp asked
    cases event with
    | post notification =>
        cases notification with
        | requestGetObjects blocks => exact ⟨blocks, posted, listed⟩
        | requestChain _ => cases listed
        | requestTxPool _ => cases listed
    | setState _ => cases listed
    | handleIncomingTransaction _ => cases listed
    | handleIncomingBlock _ => cases listed

/-! ## A request after the shutdown -/

theorem requestLoop_cons_ne_nil (core : Core) (requested : Finset Hash) (hash : Hash)
    (rest : List Hash) : (requestLoop iface core false 0 [] requested (hash :: rest)).1 ≠ [] := by
  obtain ⟨new, asked, -⟩ := requestLoop_eq iface core false 1 [hash] (insert hash requested) rest
  have first : requestLoop iface core false 0 [] requested (hash :: rest) =
      requestLoop iface core false 1 [hash] (insert hash requested) rest := by
    simp [requestLoop, BLOCKS_SYNCHRONIZING_DEFAULT_COUNT]
  rw [first, asked]
  simp

/-- A chain entry that starts from a known block but claims more blocks than the peer's height
shuts the connection down, and the handler then still asks the peer for the unknown blocks. -/
theorem chain_entry_requests_after_shutdown (call : Call Core) (start_height total_height : UInt32)
    (front : Hash) (rest : List Hash) (known : iface.have_block call.core front = true)
    (inconsistent : total_height < start_height + (front :: rest).length.toUInt32 - 1)
    (unknown : ∃ id ∈ rest, iface.have_block call.core id = false) :
    ∃ blocks, blocks ≠ [] ∧
      (handle_response_chain_entry iface call ⟨start_height, total_height, front :: rest⟩).2.log =
        call.log ++ [.setState .state_shutdown, .post (.requestGetObjects blocks)] := by
  obtain ⟨id, listed, missing⟩ := unknown
  have queued : call.context.m_needed_objects ++ (front :: rest).filter
      (fun bl_id => !iface.have_block call.core bl_id) ≠ [] := by
    intro empty
    have member : id ∈ (front :: rest).filter (fun bl_id => !iface.have_block call.core bl_id) :=
      List.mem_filter.mpr ⟨List.mem_cons_of_mem _ listed, by simp [missing]⟩
    rw [List.append_eq_nil_iff] at empty
    rw [empty.2] at member
    cases member
  obtain ⟨hash, more, split⟩ := List.exists_cons_of_ne_nil queued
  refine ⟨_, requestLoop_cons_ne_nil iface call.core call.context.m_requested_objects hash more, ?_⟩
  simp only [handle_response_chain_entry, known, Bool.not_true, Bool.false_eq_true, if_false,
    inconsistent, if_true, request_missing_objects]
  rw [if_pos (by simp [Call.setState, split])]
  simp [Call.setState, Call.post, split]

/-- A core that knows one block, the null hash, and has an empty pool. -/
def oneBlockCore : CoreInterface Unit where
  have_block _ hash := decide (hash = NULL_HASH)
  get_blockchain_top _ := NULL_HASH
  buildSparseChain _ := [NULL_HASH]
  getPoolTransactionHashes _ := []
  handle_incoming_tx _ _ := (false, ())
  handle_incoming_block _ _ := (⟨false, false, false⟩, ())
  on_synchronized _ := ()
  fromBinaryArray _ := none
  get_block_hash _ := NULL_HASH
  maxBlockBlobSize := 0

def synchronizingCall : Call Unit :=
  ⟨⟨1, .state_synchronizing, [], ∅, 0, 0⟩, (), false, []⟩

def unknownHash : Hash := ⟨Pod.ofByte 1⟩

theorem inconsistent_chain_entry_requests_after_shutdown :
    oneBlockCore.have_block synchronizingCall.core NULL_HASH = true ∧
      (0 : UInt32) < 5 + [NULL_HASH, unknownHash].length.toUInt32 - 1 ∧
      (∃ id ∈ [unknownHash], oneBlockCore.have_block synchronizingCall.core id = false) ∧
      ∃ blocks, blocks ≠ [] ∧
        (handle_response_chain_entry oneBlockCore synchronizingCall ⟨5, 0, [NULL_HASH, unknownHash]⟩).2.log =
          synchronizingCall.log ++ [.setState .state_shutdown, .post (.requestGetObjects blocks)] :=
  have known : oneBlockCore.have_block synchronizingCall.core NULL_HASH = true := by decide
  have inconsistent : (0 : UInt32) < 5 + [NULL_HASH, unknownHash].length.toUInt32 - 1 := by decide
  have unknown : ∃ id ∈ [unknownHash], oneBlockCore.have_block synchronizingCall.core id = false :=
    ⟨unknownHash, List.mem_singleton_self _, by decide⟩
  ⟨known, inconsistent, unknown, chain_entry_requests_after_shutdown oneBlockCore synchronizingCall 5 0
    NULL_HASH [unknownHash] known inconsistent unknown⟩

/-- With `start_height = 2^32 - 1` and one known id, the last response height wraps to
`2^32 - 1` over a remote height of 0: the handler shuts the connection down, then finds the
counters agreeing (`0 - 1` wraps too), asks for the pool and declares the connection synchronised. -/
theorem wrapped_chain_entry_synchronizes_after_shutdown :
    let after := (handle_response_chain_entry oneBlockCore synchronizingCall
      ⟨0xFFFFFFFF, 0, [NULL_HASH]⟩).2
    Reaches oneBlockCore synchronizingCall after ∧
      after.log = [.setState .state_shutdown, .post (.requestTxPool []), .setState .state_normal] ∧
      after.context.m_state = .state_normal ∧
      after.context.m_remote_blockchain_height < after.context.m_last_response_height := by
  refine ⟨Reaches.chainEntry () ⟨0xFFFFFFFF, 0, [NULL_HASH]⟩ Reaches.refl, ?_, ?_, ?_⟩
  · decide
  · decide
  · decide


/-! ## Which blocks reach the core -/

def Event.handedBlock? : Event → Option Block
  | .handleIncomingBlock block => some block
  | _ => none

def Silent (call out : Call Core) : Prop :=
  ∃ new, out.log = call.log ++ new ∧ new.filterMap Event.handedBlock? = []

theorem Silent.refl (call : Call Core) : Silent call call := ⟨[], by simp, rfl⟩

theorem Silent.trans {first second third : Call Core} (earlier : Silent first second)
    (later : Silent second third) : Silent first third := by
  obtain ⟨new, grown, none⟩ := earlier
  obtain ⟨newer, grownAgain, noneAgain⟩ := later
  exact ⟨new ++ newer, by rw [grownAgain, grown, List.append_assoc],
    by rw [List.filterMap_append, none, noneAgain, List.append_nil]⟩

theorem silent_of_log {call out : Call Core} (log : out.log = call.log) : Silent call out :=
  ⟨[], by rw [log, List.append_nil], rfl⟩

theorem silent_setState (call : Call Core) (state : ConnectionState) :
    Silent call (call.setState state) :=
  ⟨[.setState state], rfl, rfl⟩

theorem silent_post (call : Call Core) (notification : Notification) :
    Silent call (call.post notification) :=
  ⟨[.post notification], rfl, rfl⟩

theorem silent_setIdle (call : Call Core) : Silent call call.setIdle :=
  silent_setState call .state_idle

theorem silent_request_missing_objects (call : Call Core) (check_having_blocks : Bool) :
    Silent call (request_missing_objects iface call check_having_blocks).2 := by
  unfold request_missing_objects requestMissingPoolTransactions on_connection_synchronized
  dsimp only
  split_ifs
  · exact silent_post _ _
  · exact silent_post _ _
  · exact Silent.refl call
  · exact (silent_setState _ _).trans (silent_of_log rfl)
  · exact (silent_setState _ _).trans (silent_of_log rfl)
  · exact ((silent_post _ _).trans (silent_setState _ _)).trans (silent_of_log rfl)
  · exact ((silent_post _ _).trans (silent_setState _ _)).trans (silent_of_log rfl)

theorem silent_receiveBlocks_error {call out : Call Core} {count : Nat} {block_hashes : List Hash}
    {parsed_blocks : List parsed_block_entry} {entries : List block_complete_entry}
    (returned : receiveBlocks iface call count block_hashes parsed_blocks entries = .error out) :
    Silent call out := by
  induction entries generalizing call count block_hashes parsed_blocks with
  | nil => cases returned
  | cons block_entry rest inductionHypothesis =>
      unfold receiveBlocks at returned
      dsimp only at returned
      split_ifs at returned
      · cases returned
        exact silent_setState call _
      · split at returned
        · cases returned
          exact silent_setState call _
        · split_ifs at returned
          · cases returned
            exact silent_setIdle call
          · cases returned
            exact silent_setState call _
          · refine Silent.trans ?_ (inductionHypothesis returned)
            exact silent_of_log rfl
          · cases returned
            exact silent_setState call _

/-- What the receiving loop did when it ran to its end: it logged nothing, and the blocks it took,
in order, were requested, distinct, parsed from the response, and left the requested set. -/
structure Received (call out : Call Core) (entries : List block_complete_entry)
    (newHashes : List Hash) (newParsed : List parsed_block_entry) : Prop where
  log : out.log = call.log
  hashes : newParsed.map (fun entry => iface.get_block_hash entry.block) = newHashes
  requested : ∀ hash ∈ newHashes, hash ∈ call.context.m_requested_objects
  distinct : newHashes.Nodup
  remaining : ∀ hash, hash ∈ out.context.m_requested_objects ↔
    hash ∈ call.context.m_requested_objects ∧ hash ∉ newHashes
  delivered : ∀ hash ∈ newHashes, ∃ entry ∈ entries, ∃ b,
    iface.fromBinaryArray entry.block = some b ∧ iface.get_block_hash b = hash

theorem receiveBlocks_ok {call out : Call Core} {count : Nat} {block_hashes hashes : List Hash}
    {parsed_blocks parsed : List parsed_block_entry} {entries : List block_complete_entry}
    (finished : receiveBlocks iface call count block_hashes parsed_blocks entries =
      .ok (out, hashes, parsed)) :
    ∃ newHashes newParsed, hashes = block_hashes ++ newHashes ∧ parsed = parsed_blocks ++ newParsed ∧
      Received iface call out entries newHashes newParsed := by
  induction entries generalizing call count block_hashes parsed_blocks with
  | nil =>
      cases finished
      exact ⟨[], [], by simp, by simp, ⟨rfl, rfl, nofun, List.nodup_nil, by simp, nofun⟩⟩
  | cons block_entry rest inductionHypothesis =>
      unfold receiveBlocks at finished
      dsimp only at finished
      split_ifs at finished
      split at finished
      · cases finished
      rename_i b parsedBlock
      split_ifs at finished with raced unrequested mismatched
      obtain ⟨newHashes, newParsed, hashesEq, parsedEq, received⟩ := inductionHypothesis finished
      have erased := received.remaining
      simp only [Finset.mem_erase] at erased
      refine ⟨iface.get_block_hash b :: newHashes, ⟨b, block_entry.txs⟩ :: newParsed,
        by simp [hashesEq], by simp [parsedEq], ⟨received.log, by simp [received.hashes], ?_, ?_, ?_, ?_⟩⟩
      · intro hash listed
        rcases List.mem_cons.mp listed with rfl | later
        · simpa using unrequested
        · exact (Finset.mem_erase.mp (received.requested hash later)).2
      · refine List.nodup_cons.mpr ⟨fun listed => ?_, received.distinct⟩
        exact (Finset.mem_erase.mp (received.requested _ listed)).1 rfl
      · intro hash
        rw [erased hash, List.mem_cons]
        tauto
      · intro hash listed
        rcases List.mem_cons.mp listed with rfl | later
        · exact ⟨block_entry, List.mem_cons_self, b, parsedBlock, rfl⟩
        · obtain ⟨entry, member, found⟩ := received.delivered hash later
          exact ⟨entry, List.mem_cons_of_mem _ member, found⟩


theorem silent_processTransactions (call : Call Core) (blobs : List (List UInt8)) :
    Silent call (match processTransactions iface call blobs with
      | .error call => call
      | .ok call => call) := by
  induction blobs generalizing call with
  | nil => exact Silent.refl call
  | cons transactionBinary rest inductionHypothesis =>
      unfold processTransactions
      dsimp only
      have handed : Silent call { call with
          core := (iface.handle_incoming_tx call.core transactionBinary).2
          log := call.log ++ [.handleIncomingTransaction transactionBinary] } :=
        ⟨[.handleIncomingTransaction transactionBinary], rfl, rfl⟩
      by_cases failed : (iface.handle_incoming_tx call.core transactionBinary).1 = true
      · rw [if_pos failed]
        exact handed.trans (silent_setState _ _)
      · rw [if_neg failed]
        exact handed.trans (inductionHypothesis _)

/-- `processObjects` hands the core blocks of its list, in order, each at most once. -/
theorem processObjects_hands (m_stop : Bool) (call : Call Core) (blocks : List parsed_block_entry) :
    ∃ new, (processObjects iface m_stop call blocks).2.log = call.log ++ new ∧
      List.Sublist (new.filterMap Event.handedBlock?) (blocks.map (·.block)) := by
  induction blocks generalizing call with
  | nil => exact ⟨[], by simp [processObjects], List.nil_sublist _⟩
  | cons block_entry rest inductionHypothesis =>
      unfold processObjects
      by_cases stopped : m_stop = true
      · rw [if_pos stopped]
        exact ⟨[], by simp, List.nil_sublist _⟩
      rw [if_neg stopped]
      have transactions := silent_processTransactions iface call block_entry.txs
      revert transactions
      cases processTransactions iface call block_entry.txs with
      | error returned =>
          rintro ⟨new, grown, none⟩
          exact ⟨new, grown, by rw [none]; exact List.nil_sublist _⟩
      | ok processed =>
          rintro ⟨new, grown, none⟩
          dsimp only at grown
          have handed : List.Sublist ((new ++ [Event.handleIncomingBlock block_entry.block]).filterMap
              Event.handedBlock?) ((block_entry :: rest).map (·.block)) := by
            simp [List.filterMap_append, none, Event.handedBlock?]
          dsimp only
          split_ifs
          · exact ⟨new ++ [.handleIncomingBlock block_entry.block, .setState .state_shutdown],
              by simp [Call.setState, grown], by simpa [List.filterMap_append, List.filterMap_cons, List.filterMap_nil, Event.handedBlock?]
                using handed⟩
          · exact ⟨new ++ [.handleIncomingBlock block_entry.block, .setState .state_shutdown],
              by simp [Call.setState, grown], by simpa [List.filterMap_append, List.filterMap_cons, List.filterMap_nil, Event.handedBlock?]
                using handed⟩
          · exact ⟨new ++ [.handleIncomingBlock block_entry.block, .setState .state_idle],
              by simp [Call.setIdle, Call.setState, grown],
              by simpa [List.filterMap_append, List.filterMap_cons, List.filterMap_nil, Event.handedBlock?]
                using handed⟩
          · obtain ⟨later, grownLater, handedLater⟩ := inductionHypothesis { processed with
              core := (iface.handle_incoming_block processed.core block_entry.block).2
              log := processed.log ++ [.handleIncomingBlock block_entry.block] }
            refine ⟨new ++ [.handleIncomingBlock block_entry.block] ++ later, ?_, ?_⟩
            · rw [grownLater]
              simp [grown]
            · simpa [List.filterMap_append, none, Event.handedBlock?] using handedLater

/-- `handle_response_get_objects` hands the core only blocks whose ids were requested when the
response arrived, each at most once, and only from a response that delivered every requested id. -/
theorem get_objects_hands_only_requested (m_stop : Bool) (call : Call Core)
    (arg : NOTIFY_RESPONSE_GET_OBJECTS_request) :
    ∃ new, (handle_response_get_objects iface m_stop call arg).2.log = call.log ++ new ∧
      (∀ block ∈ new.filterMap Event.handedBlock?,
        iface.get_block_hash block ∈ call.context.m_requested_objects) ∧
      ((new.filterMap Event.handedBlock?).map iface.get_block_hash).Nodup ∧
      (new.filterMap Event.handedBlock? ≠ [] → ∀ hash ∈ call.context.m_requested_objects,
        ∃ entry ∈ arg.blocks, ∃ b, iface.fromBinaryArray entry.block = some b ∧
          iface.get_block_hash b = hash) := by
  have ofSilent : ∀ {out : Call Core}, Silent call out →
      ∃ new, out.log = call.log ++ new ∧
        (∀ block ∈ new.filterMap Event.handedBlock?,
          iface.get_block_hash block ∈ call.context.m_requested_objects) ∧
        ((new.filterMap Event.handedBlock?).map iface.get_block_hash).Nodup ∧
        (new.filterMap Event.handedBlock? ≠ [] → ∀ hash ∈ call.context.m_requested_objects,
          ∃ entry ∈ arg.blocks, ∃ b, iface.fromBinaryArray entry.block = some b ∧
            iface.get_block_hash b = hash) := by
    rintro out ⟨new, grown, none⟩
    exact ⟨new, grown, by simp [none], by simp [none], fun handed => absurd none handed⟩
  unfold handle_response_get_objects
  split_ifs with behind
  · exact ofSilent (silent_setState call _)
  dsimp only
  cases received : receiveBlocks iface { call with context := { call.context with
      m_remote_blockchain_height := arg.current_blockchain_height } } 0 [] [] arg.blocks with
  | error returned =>
      refine ofSilent (Silent.trans ?_ (silent_receiveBlocks_error iface received))
      exact silent_of_log rfl
  | ok finished =>
      obtain ⟨receivedCall, block_hashes, parsed_blocks⟩ := finished
      obtain ⟨newHashes, newParsed, hashesEq, parsedEq, receivedAll⟩ := receiveBlocks_ok iface received
      rw [List.nil_append] at hashesEq parsedEq
      subst block_hashes parsed_blocks
      dsimp only
      split_ifs with leftOver
      · exact ofSilent ((silent_of_log receivedAll.log).trans (silent_setState _ _))
      have delivered : ∀ hash ∈ call.context.m_requested_objects, hash ∈ newHashes := by
        intro hash requested
        by_contra missing
        have left := (receivedAll.remaining hash).mpr ⟨requested, missing⟩
        rw [Finset.card_eq_zero.mp (not_not.mp leftOver)] at left
        cases left
      obtain ⟨processedNew, processedLog, handedSub⟩ := processObjects_hands iface m_stop receivedCall
        (dismissThroughTop (iface.get_blockchain_top receivedCall.core) newHashes newParsed)
      have handedHashes : List.Sublist
          ((processedNew.filterMap Event.handedBlock?).map iface.get_block_hash) newHashes := by
        rw [← receivedAll.hashes]
        have dismissedSub : List.Sublist
            (dismissThroughTop (iface.get_blockchain_top receivedCall.core) newHashes newParsed)
            newParsed := by
          unfold dismissThroughTop
          split
          · exact List.drop_sublist _ _
          · exact List.Sublist.refl _
        simpa [List.map_map, Function.comp_def] using
          (handedSub.trans (dismissedSub.map _)).map iface.get_block_hash
      have handedFacts :
          (∀ block ∈ processedNew.filterMap Event.handedBlock?,
            iface.get_block_hash block ∈ call.context.m_requested_objects) ∧
          ((processedNew.filterMap Event.handedBlock?).map iface.get_block_hash).Nodup ∧
          (processedNew.filterMap Event.handedBlock? ≠ [] → ∀ hash ∈ call.context.m_requested_objects,
            ∃ entry ∈ arg.blocks, ∃ b, iface.fromBinaryArray entry.block = some b ∧
              iface.get_block_hash b = hash) :=
        ⟨fun block handed => receivedAll.requested _
            (handedHashes.subset (List.mem_map_of_mem handed)),
          receivedAll.distinct.sublist handedHashes,
          fun _ hash requested => receivedAll.delivered hash (delivered hash requested)⟩
      revert processedLog
      rcases processObjects iface m_stop receivedCall
        (dismissThroughTop (iface.get_blockchain_top receivedCall.core) newHashes newParsed) with
        ⟨result, processedCall⟩
      intro processedLog
      have grown : processedCall.log = call.log ++ processedNew := by
        rw [processedLog, receivedAll.log]
      split
      · rename_i _ nextCall same
        cases same
        split_ifs
        · obtain ⟨requestNew, requestLog, none⟩ :=
            silent_request_missing_objects iface processedCall true
          refine ⟨processedNew ++ requestNew, by rw [requestLog, grown, List.append_assoc], ?_⟩
          simpa [List.filterMap_append, none] using handedFacts
        · exact ⟨processedNew, grown, handedFacts⟩
      · rename_i _ nextResult nextCall _ same
        cases same
        exact ⟨processedNew, grown, handedFacts⟩

end DynexCNProtocolHandler

end Dynex
