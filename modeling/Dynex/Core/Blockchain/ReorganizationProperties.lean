import Dynex.Core.Blockchain.BlockList
import Dynex.Core.Blockchain.Reorganization

/-!
# What a reorganisation does to the main chain

Every loop of `switch_to_alternative_blockchain` is made of `pushBlock`, `removeLastBlock` and
changes to `m_alternative_chains`, and so is `handle_alternative_block`, which calls the switch and
is called by it for the blocks a switch disconnects. By induction on the nesting, whatever either
returns, its state is reached from the old one by such steps
(`handle_alternative_block_reaches`), and the block index keeps listing the blocks' hashes.

A switch that returns `true` has taken the alternative blocks out of `m_alternative_chains`. When it
discards the disconnected blocks, as at a checkpoint, the main chain is the old one cut at the
split height followed by the alternative blocks; otherwise the disconnected blocks go back through
`handle_alternative_block`, whose own switch can change the main chain again before the outer one
returns.

When it returns `false` after an alternative block failed to connect, the old blocks are back but
not necessarily the transaction indices: a block refused at the size check keeps what it pushed,
and the rollback pops only the blocks that were stored.
-/

set_option autoImplicit false

namespace Dynex

open Crypto

namespace Blockchain

variable {env : Environment}

/-! ## The rollback -/

theorem popBlocksDownTo_reaches {rollback_height i : Nat} {chain next : Blockchain}
    (run : popBlocksDownTo env rollback_height i chain = .ok next) : Reaches env chain next := by
  induction i generalizing chain with
  | zero =>
      unfold popBlocksDownTo at run
      split at run
      · cases run
        exact .refl _
      · cases run
  | succ i inductionHypothesis =>
      unfold popBlocksDownTo at run
      split at run
      · cases run
        exact .refl _
      · obtain ⟨middle, popped, later⟩ := except_bind_eq_ok.mp run
        exact .pop popped (inductionHypothesis later)

theorem pushOriginalChain_reaches {original_chain : List Block} {chain : Blockchain}
    {result : Bool × Blockchain} (run : pushOriginalChain env chain original_chain = .ok result) :
    Reaches env chain result.2 := by
  induction original_chain generalizing chain with
  | nil =>
      cases run
      exact .refl _
  | cons bl rest inductionHypothesis =>
      obtain ⟨⟨_, middle⟩, pushed, later⟩ := except_bind_eq_ok.mp run
      have first := Reaches.pushBlockFromPool pushed
      dsimp only at later
      split at later
      · cases later
        exact first
      · exact first.trans (inductionHypothesis later)

theorem rollback_blockchain_switching_reaches {chain : Blockchain} {original_chain : List Block}
    {rollback_height : Nat} {result : Bool × Blockchain}
    (run : rollback_blockchain_switching env chain original_chain rollback_height = .ok result) :
    Reaches env chain result.2 := by
  unfold rollback_blockchain_switching at run
  dsimp only at run
  split at run
  · obtain ⟨_, wrapped, -⟩ := except_bind_eq_ok.mp run
    cases wrapped
  · obtain ⟨popped, popping, pushing⟩ := except_bind_eq_ok.mp run
    exact (popBlocksDownTo_reaches popping).trans (pushOriginalChain_reaches pushing)

/-! ## Disconnecting the old blocks -/

theorem disconnectBlocks_succ {split_height i : Nat} {chain : Blockchain}
    {disconnected_chain : List Block} {result : Blockchain × List Block}
    (run : disconnectBlocks env split_height (i + 1) chain disconnected_chain = .ok result) :
    (i + 1 < split_height ∧ result = (chain, disconnected_chain)) ∨
      (split_height ≤ i + 1 ∧ ∃ entry middle, chain.m_blocks[i + 1]? = some entry ∧
        popBlock env chain = .ok middle ∧
        disconnectBlocks env split_height i middle (entry.bl :: disconnected_chain) = .ok result) := by
  unfold disconnectBlocks at run
  split at run
  · cases run
    exact .inl ⟨‹_›, rfl⟩
  · split at run
    · cases run
    · rename_i entry found
      obtain ⟨middle, popped, later⟩ := except_bind_eq_ok.mp run
      exact .inr ⟨by omega, entry, middle, found, popped, later⟩

theorem disconnectBlocks_reaches {split_height i : Nat} {chain : Blockchain}
    {disconnected_chain : List Block} {result : Blockchain × List Block}
    (run : disconnectBlocks env split_height i chain disconnected_chain = .ok result) :
    Reaches env chain result.1 := by
  induction i generalizing chain disconnected_chain with
  | zero =>
      unfold disconnectBlocks at run
      split at run
      · cases run
        exact .refl _
      · cases run
  | succ i inductionHypothesis =>
      rcases disconnectBlocks_succ run with ⟨-, rfl⟩ | ⟨-, _, _, -, popped, later⟩
      · exact .refl _
      · exact .pop popped (inductionHypothesis later)

/-- Started at the last block, the disconnect loop leaves the blocks below the split height. -/
theorem disconnectBlocks_blocks {split_height i : Nat} {chain : Blockchain}
    {disconnected_chain : List Block} {result : Blockchain × List Block}
    (run : disconnectBlocks env split_height i chain disconnected_chain = .ok result)
    (last : chain.m_blocks.length = i + 1) (positive : 0 < split_height)
    (reached : split_height ≤ i + 1) :
    result.1.m_blocks = chain.m_blocks.take split_height := by
  induction i generalizing chain disconnected_chain with
  | zero =>
      simp only [disconnectBlocks, positive, if_true] at run
      cases run
      exact (List.take_of_length_le (by dsimp only; omega)).symm
  | succ i inductionHypothesis =>
      rcases disconnectBlocks_succ run with ⟨below, rfl⟩ | ⟨lower, _, middle, -, popped, later⟩
      · exact (List.take_of_length_le (by dsimp only; omega)).symm
      · have nonempty : chain.m_blocks ≠ [] := by
          intro empty
          simp [empty] at last
        obtain ⟨dropped, -⟩ := removeLastBlock_blocks nonempty popped
        have middleLast : middle.m_blocks.length = i + 1 := by
          simp [dropped, last]
        rw [inductionHypothesis later middleLast lower, dropped, List.dropLast_eq_take,
          List.take_take, last]
        congr 1
        omega

/-! ## Connecting the alternative blocks -/

@[simp] theorem eraseAlternatives_m_blocks (chain : Blockchain) (keys : List Hash) :
    (eraseAlternatives chain keys).m_blocks = chain.m_blocks := rfl

theorem Reaches.eraseAlternatives (chain : Blockchain) (keys : List Hash) :
    Reaches env chain (Blockchain.eraseAlternatives chain keys) :=
  .alternatives _ (.refl _)

theorem lookup_eraseAlternatives (chain : Blockchain) {keys : List Hash} {key : Hash}
    (erased : key ∈ keys) : (eraseAlternatives chain keys).m_alternative_chains.lookup key = none := by
  unfold eraseAlternatives
  dsimp only
  induction chain.m_alternative_chains with
  | nil => rfl
  | cons entry rest inductionHypothesis =>
      by_cases kept : entry.1 ∈ keys
      · rw [List.filter_cons_of_neg (by simpa using kept)]
        exact inductionHypothesis
      · have other : (key == entry.1) = false := by
          rw [beq_eq_false_iff_ne]
          rintro rfl
          exact kept erased
        rw [List.filter_cons_of_pos (by simpa using kept), List.lookup_cons, other]
        exact inductionHypothesis

theorem connectAlternativeChain_cons {disconnected_chain : List Block} {split_height : Nat}
    {chain : Blockchain} {ch_ent : Hash × BlockEntry} {rest : List (Hash × BlockEntry)}
    {result : Bool × Blockchain}
    (run : connectAlternativeChain env disconnected_chain split_height chain (ch_ent :: rest) =
      .ok result) :
    ∃ added middle, pushBlockFromPool env chain ch_ent.2.bl = .ok (added, middle) ∧
      ((added = false ∧ ∃ rolledBack restored,
          rollback_blockchain_switching env middle disconnected_chain split_height =
            .ok (rolledBack, restored) ∧
          result = (false, eraseAlternatives restored (ch_ent.1 :: rest.map (·.1)))) ∨
        (added = true ∧
          connectAlternativeChain env disconnected_chain split_height middle rest = .ok result)) := by
  obtain ⟨⟨added, middle⟩, pushed, later⟩ := except_bind_eq_ok.mp run
  refine ⟨added, middle, pushed, ?_⟩
  cases added with
  | false =>
      obtain ⟨⟨rolledBack, restored⟩, rolled, ended⟩ := except_bind_eq_ok.mp later
      cases ended
      exact .inl ⟨rfl, rolledBack, restored, rolled, rfl⟩
  | true => exact .inr ⟨rfl, later⟩

theorem connectAlternativeChain_reaches {disconnected_chain : List Block} {split_height : Nat}
    {alt_chain : List (Hash × BlockEntry)} {chain : Blockchain} {result : Bool × Blockchain}
    (run : connectAlternativeChain env disconnected_chain split_height chain alt_chain = .ok result) :
    Reaches env chain result.2 := by
  induction alt_chain generalizing chain with
  | nil =>
      cases run
      exact .refl _
  | cons ch_ent rest inductionHypothesis =>
      obtain ⟨_, _, pushed, ⟨-, _, restored, rolled, rfl⟩ | ⟨-, later⟩⟩ :=
        connectAlternativeChain_cons run
      · exact (Reaches.pushBlockFromPool pushed).trans
          ((rollback_blockchain_switching_reaches rolled).trans (.eraseAlternatives restored _))
      · exact (Reaches.pushBlockFromPool pushed).trans (inductionHypothesis later)

theorem connectAlternativeChain_true {disconnected_chain : List Block} {split_height : Nat}
    {alt_chain : List (Hash × BlockEntry)} {chain next : Blockchain}
    (run : connectAlternativeChain env disconnected_chain split_height chain alt_chain =
      .ok (true, next)) :
    next.m_blocks.map (·.bl) = chain.m_blocks.map (·.bl) ++ alt_chain.map (·.2.bl) := by
  induction alt_chain generalizing chain with
  | nil =>
      cases run
      simp
  | cons ch_ent rest inductionHypothesis =>
      obtain ⟨_, middle, pushed, ⟨-, _, _, -, refused⟩ | ⟨rfl, later⟩⟩ :=
        connectAlternativeChain_cons run
      · cases refused
      · rcases pushBlockFromPool_blocks pushed with ⟨refused, -⟩ | ⟨-, entry, entryBlock, blocks, -⟩
        · cases refused
        · rw [inductionHypothesis later, blocks]
          simp [entryBlock]

theorem reinsertDisconnected_reaches {handle : Blockchain → Block → Except String (Bool × Blockchain)}
    (handleReaches : ∀ {chain : Blockchain} {old : Block} {result : Bool × Blockchain},
      handle chain old = .ok result → Reaches env chain result.2) :
    ∀ {disconnected_chain : List Block} {chain next : Blockchain},
      reinsertDisconnected handle chain disconnected_chain = .ok next → Reaches env chain next
  | [], _, _, run => by
      cases run
      exact .refl _
  | old :: rest, chain, next, run => by
      obtain ⟨⟨r, middle⟩, handled, later⟩ := except_bind_eq_ok.mp run
      have first := handleReaches handled
      dsimp only at later
      split at later
      · cases later
        exact first
      · exact first.trans (reinsertDisconnected_reaches handleReaches later)

/-! ## The switch and the alternative block -/

theorem handle_alternative_block_zero (chain : Blockchain) (b : Block) (id : Hash) :
    handle_alternative_block env 0 chain b id =
      throw "handle_alternative_block: nested deeper than the model follows" := by
  rw [handle_alternative_block]

theorem switch_to_alternative_blockchain_zero (chain : Blockchain)
    (alt_chain : List (Hash × BlockEntry)) (discard_disconnected_chain : Bool) :
    switch_to_alternative_blockchain env 0 chain alt_chain discard_disconnected_chain =
      throw "switch_to_alternative_blockchain: nested deeper than the model follows" := by
  rw [switch_to_alternative_blockchain]

/-- What a call of `handle_alternative_block` that returns can have done: nothing, stored the
block as an alternative block, or stored it and switched to its chain. -/
theorem handle_alternative_block_cases {fuel : Nat} {chain : Blockchain} {b : Block} {id : Hash}
    {result : Bool × Blockchain}
    (run : handle_alternative_block env (fuel + 1) chain b id = .ok result) :
    result.2 = chain ∨ ∃ bei : BlockEntry,
      result = (true, { chain with
        m_alternative_chains := chain.m_alternative_chains ++ [(id, bei)] }) ∨
      ∃ alt_chain discard_disconnected_chain, switch_to_alternative_blockchain env fuel
        { chain with m_alternative_chains := chain.m_alternative_chains ++ [(id, bei)] } alt_chain
        discard_disconnected_chain = .ok result := by
  rw [handle_alternative_block] at run
  obtain ⟨verdict, -, decided⟩ := except_bind_eq_ok.mp run
  cases verdict with
  | refused =>
      cases decided
      exact .inl rfl
  | orphaned =>
      cases decided
      exact .inl rfl
  | stored alt_chain bei is_a_checkpoint =>
      refine .inr ⟨bei, ?_⟩
      dsimp only at decided
      split at decided
      · exact .inr ⟨_, true, decided⟩
      · split at decided
        · cases decided
        · split at decided
          · exact .inr ⟨_, false, decided⟩
          · cases decided
            exact .inl rfl

/-- What a switch that returns can have done: stopped before changing anything, or disconnected
the blocks from a positive split height below the chain's length and run the connect loop; then,
after a connect loop that ended with `true`, handed the disconnected blocks back unless it
discards them, and erased the alternative blocks. -/
theorem switch_to_alternative_blockchain_cases {fuel : Nat} {chain : Blockchain}
    {alt_chain : List (Hash × BlockEntry)} {discard_disconnected_chain : Bool}
    {result : Bool × Blockchain}
    (run : switch_to_alternative_blockchain env (fuel + 1) chain alt_chain discard_disconnected_chain =
      .ok result) :
    result = (false, chain) ∨
      ∃ front rest middle disconnected_chain afterConnect,
        alt_chain = front :: rest ∧ 0 < front.2.height ∧ front.2.height < chain.m_blocks.length ∧
        disconnectBlocks env front.2.height (chain.m_blocks.length - 1) chain [] =
          .ok (middle, disconnected_chain) ∧
        ((connectAlternativeChain env disconnected_chain front.2.height middle alt_chain =
            .ok (false, afterConnect) ∧ result = (false, afterConnect)) ∨
          (connectAlternativeChain env disconnected_chain front.2.height middle alt_chain =
            .ok (true, afterConnect) ∧
            ((discard_disconnected_chain = true ∧
                result = (true, eraseAlternatives afterConnect (alt_chain.map (·.1)))) ∨
              (discard_disconnected_chain = false ∧ ∃ reinserted,
                reinsertDisconnected (fun chain old_ch_ent => handle_alternative_block env fuel chain
                  old_ch_ent (env.get_block_hash old_ch_ent)) afterConnect disconnected_chain =
                  .ok reinserted ∧
                result = (true, eraseAlternatives reinserted (alt_chain.map (·.1))))))) := by
  cases alt_chain with
  | nil =>
      rw [switch_to_alternative_blockchain.eq_2] at run
      cases run
      exact .inl rfl
  | cons front rest =>
      rw [switch_to_alternative_blockchain.eq_3] at run
      dsimp only at run
      split at run
      · cases run
        exact .inl rfl
      · split at run
        · cases run
          exact .inl rfl
        · split at run
          · cases run
          · rename_i positive
            split at run
            · cases run
              exact .inl rfl
            · obtain ⟨⟨middle, disconnected_chain⟩, disconnected, connecting⟩ :=
                except_bind_eq_ok.mp run
              obtain ⟨⟨connected, afterConnect⟩, connectedRun, finishing⟩ :=
                except_bind_eq_ok.mp connecting
              refine .inr ⟨front, rest, middle, disconnected_chain, afterConnect, rfl,
                Nat.pos_of_ne_zero positive, by omega, disconnected, ?_⟩
              cases connected with
              | false =>
                  cases finishing
                  exact .inl ⟨connectedRun, rfl⟩
              | true =>
                  refine .inr ⟨connectedRun, ?_⟩
                  dsimp only at finishing
                  cases discard_disconnected_chain with
                  | true =>
                      cases finishing
                      exact .inl ⟨rfl, rfl⟩
                  | false =>
                      obtain ⟨reinserted, reinsertion, erased⟩ := except_bind_eq_ok.mp finishing
                      cases erased
                      exact .inr ⟨rfl, reinserted, reinsertion, rfl⟩

/-- Whatever `handle_alternative_block` and `switch_to_alternative_blockchain` return, at any
nesting, their state is reached from the old one by pushes, pops and changes to
`m_alternative_chains`. -/
theorem handle_alternative_block_reaches (fuel : Nat) :
    (∀ {chain : Blockchain} {b : Block} {id : Hash} {result : Bool × Blockchain},
      handle_alternative_block env fuel chain b id = .ok result → Reaches env chain result.2) ∧
    (∀ {chain : Blockchain} {alt_chain : List (Hash × BlockEntry)}
      {discard_disconnected_chain : Bool} {result : Bool × Blockchain},
      switch_to_alternative_blockchain env fuel chain alt_chain discard_disconnected_chain =
        .ok result → Reaches env chain result.2) := by
  induction fuel with
  | zero =>
      constructor
      · intro chain b id result run
        rw [handle_alternative_block_zero] at run
        cases run
      · intro chain alt_chain discard_disconnected_chain result run
        rw [switch_to_alternative_blockchain_zero] at run
        cases run
  | succ fuel inductionHypothesis =>
      obtain ⟨handleReaches, switchReaches⟩ := inductionHypothesis
      constructor
      · intro chain b id result run
        rcases handle_alternative_block_cases run with same | ⟨bei, rfl | ⟨_, _, switched⟩⟩
        · rw [same]
          exact .refl chain
        · exact .alternatives _ (.refl _)
        · exact .alternatives _ (switchReaches switched)
      · intro chain alt_chain discard_disconnected_chain result run
        rcases switch_to_alternative_blockchain_cases run with rfl |
          ⟨_, _, _, _, afterConnect, -, -, -, disconnected, ⟨connected, rfl⟩ |
            ⟨connected, ⟨-, rfl⟩ | ⟨-, reinserted, reinsertion, rfl⟩⟩⟩
        · exact .refl chain
        · exact (disconnectBlocks_reaches disconnected).trans (connectAlternativeChain_reaches connected)
        · exact (disconnectBlocks_reaches disconnected).trans
            ((connectAlternativeChain_reaches connected).trans (.eraseAlternatives _ _))
        · exact (disconnectBlocks_reaches disconnected).trans
            ((connectAlternativeChain_reaches connected).trans
              ((reinsertDisconnected_reaches handleReaches reinsertion).trans (.eraseAlternatives _ _)))

/-- At any nesting, `handle_alternative_block` and `switch_to_alternative_blockchain` keep the
block index listing the hashes of the stored blocks. -/
theorem switch_to_alternative_blockchain_indexes_blocks (fuel : Nat) :
    (∀ (chain : Blockchain) (b : Block) (id : Hash) (result : Bool × Blockchain),
      IndexesBlocks env chain → handle_alternative_block env fuel chain b id = .ok result →
        IndexesBlocks env result.2) ∧
    (∀ (chain : Blockchain) (alt_chain : List (Hash × BlockEntry))
      (discard_disconnected_chain : Bool) (result : Bool × Blockchain),
      IndexesBlocks env chain →
        switch_to_alternative_blockchain env fuel chain alt_chain discard_disconnected_chain =
          .ok result → IndexesBlocks env result.2) :=
  ⟨fun _ _ _ _ indexed run => ((handle_alternative_block_reaches fuel).1 run).indexesBlocks indexed,
    fun _ _ _ _ indexed run => ((handle_alternative_block_reaches fuel).2 run).indexesBlocks indexed⟩

/-- A switch that returns `true` has erased the alternative blocks from `m_alternative_chains`;
when it discards the disconnected blocks, it leaves as main chain the old one cut at the split
height, the height of the first alternative block, followed by the alternative blocks in order. -/
theorem switch_to_alternative_blockchain_true_blocks {fuel : Nat} {chain next : Blockchain}
    {front : Hash × BlockEntry} {rest : List (Hash × BlockEntry)} {discard_disconnected_chain : Bool}
    (run : switch_to_alternative_blockchain env fuel chain (front :: rest) discard_disconnected_chain =
      .ok (true, next)) :
    (∀ key ∈ (front :: rest).map (·.1), next.m_alternative_chains.lookup key = none) ∧
      (discard_disconnected_chain = true →
        next.m_blocks.map (·.bl) =
          (chain.m_blocks.take front.2.height).map (·.bl) ++ (front :: rest).map (·.2.bl)) := by
  cases fuel with
  | zero =>
      rw [switch_to_alternative_blockchain_zero] at run
      cases run
  | succ fuel =>
      rcases switch_to_alternative_blockchain_cases run with refused |
        ⟨_, _, middle, _, afterConnect, same, positive, below, disconnected, ⟨-, refused⟩ |
          ⟨connected, ⟨discarding, finished⟩ | ⟨keeping, reinserted, -, finished⟩⟩⟩
      · cases refused
      · cases refused
      · cases same
        cases finished
        refine ⟨fun key erased => lookup_eraseAlternatives _ erased, fun _ => ?_⟩
        have cut := disconnectBlocks_blocks disconnected (by omega) positive (by omega)
        rw [eraseAlternatives_m_blocks, connectAlternativeChain_true connected, cut]
      · cases finished
        refine ⟨fun key erased => lookup_eraseAlternatives _ erased, fun discarding => ?_⟩
        rw [keeping] at discarding
        cases discarding

/-! ## Switches at height 1

A node below its last checkpoint, with the genesis block and `mainBlock` as main chain. Below the
checkpoint zone, `is_alternative_block_allowed` would refuse every alternative block of a chain
shorter than 60 blocks. -/

def zoneCheckpoints : Checkpoints := ⟨[(100, NULL_HASH)], List.pairwise_singleton _ _⟩

def zoneEnvironment : Environment := { sampleEnvironment with checkpoints := zoneCheckpoints }

def emptyPoolEnvironment : Environment := { zoneEnvironment with take_tx := fun _ => none }

def mainBlock : Block := sampleBlock 1 6 (sampleEnvironment.get_block_hash genesisBlock) [] []

def zoneGenesis : Blockchain := stateAfter (pushBlock zoneEnvironment Blockchain.empty genesisBlock [])

def beforeSwitch : Blockchain := stateAfter (pushBlock zoneEnvironment zoneGenesis mainBlock [])

def smallAlternativeEntry : Hash × BlockEntry :=
  let b := sampleBlock 1 5 (sampleEnvironment.get_block_hash genesisBlock) [0] []
  (sampleEnvironment.get_block_hash b, ⟨b, 1, 0, 2, 0, []⟩)

def afterSwitch : Blockchain :=
  stateAfter (switch_to_alternative_blockchain zoneEnvironment 1 beforeSwitch [smallAlternativeEntry] true)

set_option maxRecDepth 100000 in
theorem switch_to_small_alternative_block :
    switch_to_alternative_blockchain zoneEnvironment 1 beforeSwitch [smallAlternativeEntry] true =
        .ok (true, afterSwitch) ∧
      ((∀ key ∈ [smallAlternativeEntry].map (·.1), afterSwitch.m_alternative_chains.lookup key = none) ∧
        (true = true → afterSwitch.m_blocks.map (·.bl) =
          (beforeSwitch.m_blocks.take 1).map (·.bl) ++ [smallAlternativeEntry].map (·.2.bl))) := by
  have run : switch_to_alternative_blockchain zoneEnvironment 1 beforeSwitch [smallAlternativeEntry]
      true = .ok (true, afterSwitch) := rfl
  exact ⟨run, switch_to_alternative_blockchain_true_blocks run⟩

def largeAlternativeBlock : Block :=
  sampleBlock 1 5 (sampleEnvironment.get_block_hash genesisBlock) [0] [sampleHash 202 1]

def secondAlternativeBlock : Block :=
  sampleBlock 2 7 (sampleEnvironment.get_block_hash largeAlternativeBlock) [0] []

def firstAlternativeEntry : Hash × BlockEntry :=
  (sampleEnvironment.get_block_hash largeAlternativeBlock, ⟨largeAlternativeBlock, 1, 0, 2, 0, []⟩)

def secondAlternativeEntry : Hash × BlockEntry :=
  (sampleEnvironment.get_block_hash secondAlternativeBlock, ⟨secondAlternativeBlock, 2, 0, 3, 0, []⟩)

def afterFailedSwitch : Blockchain :=
  stateAfter (handle_alternative_block zoneEnvironment 2
    { beforeSwitch with m_alternative_chains := [firstAlternativeEntry] } secondAlternativeBlock
    secondAlternativeEntry.1)

set_option maxRecDepth 100000 in
theorem failed_switch_indexes_blocks :
    IndexesBlocks zoneEnvironment { beforeSwitch with m_alternative_chains := [firstAlternativeEntry] } ∧
      handle_alternative_block zoneEnvironment 2
          { beforeSwitch with m_alternative_chains := [firstAlternativeEntry] } secondAlternativeBlock
          secondAlternativeEntry.1 = .ok (false, afterFailedSwitch) ∧
      IndexesBlocks zoneEnvironment afterFailedSwitch := by
  have indexed : IndexesBlocks zoneEnvironment
      { beforeSwitch with m_alternative_chains := [firstAlternativeEntry] } := by decide +kernel
  have run : handle_alternative_block zoneEnvironment 2
      { beforeSwitch with m_alternative_chains := [firstAlternativeEntry] } secondAlternativeBlock
      secondAlternativeEntry.1 = .ok (false, afterFailedSwitch) := rfl
  exact ⟨indexed, run, (switch_to_alternative_blockchain_indexes_blocks 2).1 _ _ _ _ indexed run⟩

end Blockchain

end Dynex
