import Dynex.Core.Blockchain.MainChainProperties

/-!
# The block list under pushes and pops

Whatever `pushBlock` does to the transaction indices, it either leaves `m_blocks` and
`m_blockIndex` as they were or appends one entry holding the block and the block's hash
(`pushBlock_blocks`), and `removeLastBlock` drops the last of each (`removeLastBlock_blocks`).
Together they keep the block index equal to the hashes of the stored blocks over any run
(`IndexesBlocks`).
-/

set_option autoImplicit false

namespace Dynex

open Crypto

namespace Blockchain

variable {env : Environment}

theorem passesBlockChecks_hash_not_mem {chain : Blockchain} {blockData : Block}
    (checks : passesBlockChecks env chain blockData = true) :
    env.get_block_hash blockData ∉ chain.m_blockIndex := by
  simp only [passesBlockChecks, Bool.and_eq_true, Bool.not_eq_true', decide_eq_false_iff_not] at checks
  exact checks.1.1.1.1.1.1.1.1

/-- What the transactions loop of `pushBlock` leaves of the block list: the chain's blocks and
index, and, when every transaction was pushed, the block of the entry it started from. -/
def TransactionsPushed.KeepsBlocks (chain : Blockchain) (block : BlockEntry) :
    TransactionsPushed → Prop
  | .rejected next => SameBlocks chain next
  | .pushed next entry _ _ => SameBlocks chain next ∧ entry.bl = block.bl

theorem pushBlockTransactions_keepsBlocks {in_checkpoint_zone : Bool} {minerTransactionHash : Hash}
    {height : Nat} {transactions : List Transaction} :
    ∀ {chain : Blockchain} {block : BlockEntry} {position cumulative_block_size : Nat}
      {fee_summary : UInt64} {hashes : List Hash} {pushed : TransactionsPushed},
      pushBlockTransactions env in_checkpoint_zone minerTransactionHash height chain block position
        cumulative_block_size fee_summary transactions hashes = .ok pushed →
      pushed.KeepsBlocks chain block := by
  induction transactions with
  | nil =>
      intro chain block _ _ _ hashes _ loop
      simp only [pushBlockTransactions] at loop
      cases loop
      exact ⟨.refl chain, rfl⟩
  | cons transaction rest inductionHypothesis =>
      intro chain block _ _ _ hashes pushed loop
      cases hashes with
      | nil => cases loop
      | cons transactionHash hashes =>
          simp only [pushBlockTransactions] at loop
          split at loop
          · obtain ⟨next, popped, rejected⟩ := except_bind_eq_ok.mp loop
            cases rejected
            exact popTransactions_sameBlocks popped
          · split at loop
            · obtain ⟨next, popped, rejected⟩ := except_bind_eq_ok.mp loop
              cases rejected
              exact popTransactions_sameBlocks popped
            · obtain ⟨⟨_, next, _⟩, pushedTransaction, later⟩ := except_bind_eq_ok.mp loop
              have same := pushTransaction_sameBlocks pushedTransaction
              have keeps := inductionHypothesis later
              cases pushed with
              | rejected _ => exact same.trans keeps
              | pushed _ _ _ _ => exact ⟨same.trans keeps.1, keeps.2⟩

theorem finishBlock_blocks {chain next : Blockchain} {blockData : Block} {minerTransactionHash : Hash}
    {in_checkpoint_zone : Bool} {currentDifficulty : UInt64} {block : BlockEntry}
    {cumulative_block_size : Nat} {fee_summary : UInt64} {added : Bool}
    (finished : finishBlock env chain blockData minerTransactionHash in_checkpoint_zone
      currentDifficulty block cumulative_block_size fee_summary = .ok (added, next)) :
    (added = false ∧ SameBlocks chain next) ∨
      (added = true ∧ ∃ entry : BlockEntry, entry.bl = block.bl ∧ next = pushBlockEntry env chain entry) := by
  unfold finishBlock at finished
  dsimp only at finished
  split at finished
  · cases finished
    exact .inl ⟨rfl, .refl chain⟩
  · split at finished
    · obtain ⟨popped, pop, refused⟩ := except_bind_eq_ok.mp finished
      cases refused
      exact .inl ⟨rfl, popTransactions_sameBlocks pop⟩
    · split at finished
      · obtain ⟨popped, pop, refused⟩ := except_bind_eq_ok.mp finished
        cases refused
        exact .inl ⟨rfl, popTransactions_sameBlocks pop⟩
      · cases finished
        refine .inr ⟨rfl, _, ?_, rfl⟩
        rfl

/-- `pushBlock` either keeps the block list or appends the block, with its hash. -/
theorem pushBlock_blocks {chain next : Blockchain} {blockData : Block}
    {transactions : List Transaction} {added : Bool}
    (pushed : pushBlock env chain blockData transactions = .ok (added, next)) :
    (added = false ∧ SameBlocks chain next) ∨
      (added = true ∧ ∃ entry : BlockEntry, entry.bl = blockData ∧
        next.m_blocks = chain.m_blocks ++ [entry] ∧
        next.m_blockIndex = chain.m_blockIndex ++ [env.get_block_hash blockData]) := by
  by_cases checks : passesBlockChecks env chain blockData = true
  · rw [pushBlock_of_passesBlockChecks checks] at pushed
    obtain ⟨⟨_, minerPushed, _⟩, minerPush, rest⟩ := except_bind_eq_ok.mp pushed
    obtain ⟨loopResult, loop, finish⟩ := except_bind_eq_ok.mp rest
    have minerSame := pushTransaction_sameBlocks minerPush
    have keeps := pushBlockTransactions_keepsBlocks loop
    cases loopResult with
    | rejected rejectedChain =>
        cases finish
        exact .inl ⟨rfl, minerSame.trans keeps⟩
    | pushed pushedChain block _ _ =>
        have same := minerSame.trans keeps.1
        rcases finishBlock_blocks finish with ⟨rfl, refused⟩ | ⟨rfl, entry, entryBlock, rfl⟩
        · exact .inl ⟨rfl, same.trans refused⟩
        · have stored : entry.bl = blockData := entryBlock.trans keeps.2
          refine .inr ⟨rfl, entry, stored, by simp [pushBlockEntry, same.blocks], ?_⟩
          have fresh := passesBlockChecks_hash_not_mem checks
          simp [pushBlockEntry, blockIndexPush, same.index, stored, fresh]
  · simp only [pushBlock, Bool.eq_false_iff.mpr checks, Bool.not_false, if_true] at pushed
    cases pushed
    exact .inl ⟨rfl, .refl chain⟩

theorem pushBlockFromPool_blocks {chain next : Blockchain} {blockData : Block} {added : Bool}
    (pushed : pushBlockFromPool env chain blockData = .ok (added, next)) :
    (added = false ∧ SameBlocks chain next) ∨
      (added = true ∧ ∃ entry : BlockEntry, entry.bl = blockData ∧
        next.m_blocks = chain.m_blocks ++ [entry] ∧
        next.m_blockIndex = chain.m_blockIndex ++ [env.get_block_hash blockData]) := by
  unfold pushBlockFromPool at pushed
  split at pushed
  · cases pushed
    exact .inl ⟨rfl, .refl chain⟩
  · exact pushBlock_blocks pushed

theorem removeLastBlock_blocks {chain next : Blockchain} (nonempty : chain.m_blocks ≠ [])
    (removed : removeLastBlock env chain = .ok next) :
    next.m_blocks = chain.m_blocks.dropLast ∧ next.m_blockIndex = chain.m_blockIndex.dropLast := by
  obtain ⟨last, lastIs⟩ := Option.isSome_iff_exists.mp (List.getLast?_isSome.mpr nonempty)
  simp only [removeLastBlock, lastIs] at removed
  obtain ⟨popped, pop, dropped⟩ := except_bind_eq_ok.mp removed
  have same := popTransactions_sameBlocks pop
  split at dropped
  · cases dropped
  · cases dropped
    exact ⟨by rw [same.blocks], by rw [same.index]⟩

theorem removeLastBlock_of_nil {chain : Blockchain} (empty : chain.m_blocks = []) :
    removeLastBlock env chain = .ok chain := by
  unfold removeLastBlock
  rw [empty]
  rfl

/-! ## The block index is the list of the blocks' hashes -/

def IndexesBlocks (env : Environment) (chain : Blockchain) : Prop :=
  chain.m_blockIndex = chain.m_blocks.map (fun block => env.get_block_hash block.bl)

instance (chain : Blockchain) : Decidable (IndexesBlocks env chain) :=
  inferInstanceAs (Decidable (_ = _))

theorem IndexesBlocks.of_sameBlocks {chain next : Blockchain} (indexed : IndexesBlocks env chain)
    (same : SameBlocks chain next) : IndexesBlocks env next := by
  rw [IndexesBlocks, same.blocks, same.index]
  exact indexed

theorem IndexesBlocks.pushBlock {chain next : Blockchain} {blockData : Block}
    {transactions : List Transaction} {added : Bool} (indexed : IndexesBlocks env chain)
    (pushed : Blockchain.pushBlock env chain blockData transactions = .ok (added, next)) :
    IndexesBlocks env next := by
  rcases pushBlock_blocks pushed with ⟨-, same⟩ | ⟨-, entry, entryBlock, blocks, index⟩
  · exact indexed.of_sameBlocks same
  · rw [IndexesBlocks, blocks, index, indexed, entryBlock.symm]
    simp

theorem IndexesBlocks.removeLastBlock {chain next : Blockchain} (indexed : IndexesBlocks env chain)
    (removed : Blockchain.removeLastBlock env chain = .ok next) : IndexesBlocks env next := by
  by_cases empty : chain.m_blocks = []
  · rw [removeLastBlock_of_nil empty, Except.ok.injEq] at removed
    exact removed ▸ indexed
  · obtain ⟨blocks, index⟩ := removeLastBlock_blocks empty removed
    rw [IndexesBlocks, blocks, index, indexed, List.map_dropLast]

/-! ## Runs of pushes and pops -/

/-- `next` is reached from `chain` by blocks pushed, blocks removed and changes to
`m_alternative_chains` alone, in any order: what every loop of a reorganisation is made of. -/
inductive Reaches (env : Environment) : Blockchain → Blockchain → Prop
  | refl (chain : Blockchain) : Reaches env chain chain
  | push {chain middle next : Blockchain} {blockData : Block} {transactions : List Transaction}
      {added : Bool} (pushed : pushBlock env chain blockData transactions = .ok (added, middle))
      (later : Reaches env middle next) : Reaches env chain next
  | pop {chain middle next : Blockchain} (removed : removeLastBlock env chain = .ok middle)
      (later : Reaches env middle next) : Reaches env chain next
  | alternatives {chain next : Blockchain} (m_alternative_chains : List (Hash × BlockEntry))
      (later : Reaches env { chain with m_alternative_chains := m_alternative_chains } next) :
      Reaches env chain next

theorem Reaches.trans {first second third : Blockchain} (firstRun : Reaches env first second)
    (secondRun : Reaches env second third) : Reaches env first third := by
  induction firstRun with
  | refl => exact secondRun
  | push pushed _ inductionHypothesis => exact .push pushed (inductionHypothesis secondRun)
  | pop removed _ inductionHypothesis => exact .pop removed (inductionHypothesis secondRun)
  | alternatives stored _ inductionHypothesis => exact .alternatives stored (inductionHypothesis secondRun)

theorem Reaches.pushBlockFromPool {chain next : Blockchain} {blockData : Block} {added : Bool}
    (pushed : Blockchain.pushBlockFromPool env chain blockData = .ok (added, next)) :
    Reaches env chain next := by
  unfold Blockchain.pushBlockFromPool at pushed
  split at pushed
  · cases pushed
    exact .refl chain
  · exact .push pushed (.refl next)

theorem Reaches.indexesBlocks {chain next : Blockchain} (run : Reaches env chain next)
    (indexed : IndexesBlocks env chain) : IndexesBlocks env next := by
  induction run with
  | refl => exact indexed
  | push pushed _ inductionHypothesis => exact inductionHypothesis (indexed.pushBlock pushed)
  | pop removed _ inductionHypothesis => exact inductionHypothesis (indexed.removeLastBlock removed)
  | alternatives _ _ inductionHypothesis => exact inductionHypothesis indexed

end Blockchain

end Dynex
