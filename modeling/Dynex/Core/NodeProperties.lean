import Dynex.Core.Node
import Dynex.Core.TransactionPoolProperties
import Dynex.Core.Blockchain.ReorganizationProperties

/-!
# Transactions between the pool and the chain

`pushBlock(block, bvc)` takes the transactions a block names out of the pool, and when the chain
refuses the block it puts every one of them back: the pooled ids after a refused call are those
before it. The chain, however, keeps what `Blockchain::pushBlock` left, and that function's size
check returns without popping the transactions it pushed. A transaction can therefore end up in
the pool and in `m_transactionMap` at once, which the run at the end of the module exhibits.

The argument rests on an invariant the node keeps over every run (`Keyed`): the pooled ids are
distinct, each is the hash of its transaction, and every pooled transaction passed the checks
`add_tx` makes even of a transaction kept by a block. Taking a transaction out by its id and adding
it back under its hash then restores the ids.
-/

set_option autoImplicit false

namespace Dynex

open Crypto

namespace TxMemoryPool

/-! ## Which transactions are pooled -/

def Admitted (tx : Transaction) : Prop :=
  check_inputs_types_supported tx = true ∧ ¬ getInputAmount tx < getOutputAmount tx

theorem have_tx_iff {pool : TxMemoryPool} {id : Hash} :
    pool.have_tx id = true ↔ id ∈ pool.m_transactions.map (·.id) := by
  simp [have_tx]

theorem addTransactionInputs_m_transactions (id : Hash) (keptByBlock : Bool) (pool : TxMemoryPool)
    (inputs : List TransactionInput) :
    (addTransactionInputs id keptByBlock pool inputs).2.m_transactions = pool.m_transactions := by
  induction inputs generalizing pool with
  | nil => rfl
  | cons input rest inductionHypothesis =>
      have round : (addTransactionInput id keptByBlock pool input).2.m_transactions =
          pool.m_transactions := by
        cases input <;> simp only [addTransactionInput] <;> split_ifs <;> rfl
      unfold addTransactionInputs
      rcases stepped : addTransactionInput id keptByBlock pool input with ⟨_ | _, next⟩
      all_goals rw [stepped] at round
      · exact round
      · exact (inductionHypothesis next).trans round

theorem removeTransactionInputs_m_transactions (id : Hash) (keptByBlock : Bool)
    (pool : TxMemoryPool) (inputs : List TransactionInput) :
    (removeTransactionInputs id keptByBlock pool inputs).2.m_transactions = pool.m_transactions := by
  induction inputs generalizing pool with
  | nil => rfl
  | cons input rest inductionHypothesis =>
      have round : (removeTransactionInput id keptByBlock pool input).2.m_transactions =
          pool.m_transactions := by
        cases input <;> simp only [removeTransactionInput] <;> split <;> (try split_ifs) <;> rfl
      unfold removeTransactionInputs
      rcases stepped : removeTransactionInput id keptByBlock pool input with ⟨_ | _, next⟩
      all_goals rw [stepped] at round
      · exact round
      · exact (inductionHypothesis next).trans round

theorem removeTransaction_m_transactions (env : PoolEnvironment) (pool : TxMemoryPool)
    (details : TransactionDetails) :
    (removeTransaction env pool details).m_transactions =
      pool.m_transactions.filter (·.id != details.id) := by
  simp only [removeTransaction, removeTransactionInputs_m_transactions]

theorem add_tx_m_transactions (env : PoolEnvironment) (pool : TxMemoryPool) (tx : Transaction)
    (id : Hash) (blobSize : Nat) (keptByBlock : Bool) (now : UInt64) :
    (add_tx env pool tx id blobSize keptByBlock now).2.m_transactions = pool.m_transactions ∨
      Admitted tx ∧ pool.have_tx id = false ∧
        (add_tx env pool tx id blobSize keptByBlock now).2.m_transactions = pool.m_transactions ++
          [⟨id, tx, blobSize, getInputAmount tx - getOutputAmount tx, keptByBlock, now⟩] := by
  unfold add_tx
  dsimp only
  split_ifs with unsupported overspends spent invalid oversized deleted present
  · exact .inl rfl
  · exact .inl rfl
  · exact .inl rfl
  · exact .inl rfl
  · exact .inl rfl
  · exact .inl rfl
  · exact .inl rfl
  · refine .inr ⟨⟨by simpa using unsupported, overspends⟩, by simpa [have_tx] using present, ?_⟩
    rw [addTransactionInputs_m_transactions]

theorem add_tx_of_kept (env : PoolEnvironment) {pool : TxMemoryPool} {tx : Transaction}
    (admitted : Admitted tx) {id : Hash} (absent : pool.have_tx id = false) (blobSize : Nat)
    (now : UInt64) :
    (add_tx env pool tx id blobSize true now).2.m_transactions = pool.m_transactions ++
      [⟨id, tx, blobSize, getInputAmount tx - getOutputAmount tx, true, now⟩] := by
  have notPooled : pool.m_transactions.any (·.id == id) = false := absent
  unfold add_tx
  dsimp only
  rw [if_neg (by simpa using admitted.1), if_neg admitted.2, if_neg (by simp), if_neg (by simp),
    if_neg (by simp), if_neg (by simp), if_neg (by simpa using notPooled),
    addTransactionInputs_m_transactions]

theorem take_tx_cases (env : PoolEnvironment) (pool : TxMemoryPool) (id : Hash) :
    (take_tx env pool id = (none, pool) ∧ pool.have_tx id = false) ∨
      ∃ details ∈ pool.m_transactions, details.id = id ∧
        take_tx env pool id =
          (some (details.tx, details.blobSize, details.fee), removeTransaction env pool details) := by
  unfold take_tx
  split
  · rename_i missing
    refine .inl ⟨rfl, ?_⟩
    simpa [have_tx] using List.find?_eq_none.mp missing
  · rename_i details found
    exact .inr ⟨details, List.mem_of_find?_eq_some found, by simpa using List.find?_some found, rfl⟩

theorem removeExpiredLoop_sublist (env : PoolEnvironment) (now : UInt64) (pool : TxMemoryPool)
    (pending : List TransactionDetails) :
    List.Sublist (removeExpiredLoop env now pool pending).m_transactions pool.m_transactions := by
  induction pending generalizing pool with
  | nil => exact List.Sublist.refl _
  | cons details rest inductionHypothesis =>
      rcases removeExpiredLoop_cons_cases env now pool details rest with
        kept | ⟨recentlyDeleted, removed⟩
      · rw [kept]
        exact inductionHypothesis pool
      · rw [removed]
        refine (inductionHypothesis _).trans ?_
        rw [removeTransaction_m_transactions]
        exact List.filter_sublist

theorem mem_ids_removeTransaction (env : PoolEnvironment) (pool : TxMemoryPool)
    (details : TransactionDetails) (id : Hash) :
    id ∈ (removeTransaction env pool details).m_transactions.map (·.id) ↔
      id ∈ pool.m_transactions.map (·.id) ∧ id ≠ details.id := by
  rw [removeTransaction_m_transactions]
  simp only [List.mem_map, List.mem_filter, bne_iff_ne, ne_eq]
  constructor
  · rintro ⟨other, ⟨member, differs⟩, rfl⟩
    exact ⟨⟨other, member, rfl⟩, differs⟩
  · rintro ⟨⟨other, member, rfl⟩, differs⟩
    exact ⟨other, ⟨member, differs⟩, rfl⟩

/-! ## The pool the node keeps -/

/-- Pooled transactions with distinct ids, each the hash of its transaction, each admitted. -/
structure Keyed (hash : Transaction → Hash) (txs : List TransactionDetails) : Prop where
  ids : (txs.map (·.id)).Nodup
  hashed : ∀ details ∈ txs, details.id = hash details.tx
  admitted : ∀ details ∈ txs, Admitted details.tx

section Keyed

variable {hash : Transaction → Hash}

theorem keyed_nil : Keyed hash [] := ⟨List.nodup_nil, nofun, nofun⟩

theorem Keyed.sublist {txs others : List TransactionDetails} (keyed : Keyed hash txs)
    (sub : List.Sublist others txs) : Keyed hash others :=
  ⟨keyed.ids.sublist (sub.map _), fun details member => keyed.hashed details (sub.subset member),
    fun details member => keyed.admitted details (sub.subset member)⟩

theorem Keyed.add_tx {pool : TxMemoryPool} (keyed : Keyed hash pool.m_transactions)
    (env : PoolEnvironment) (tx : Transaction) (blobSize : Nat) (keptByBlock : Bool) (now : UInt64) :
    Keyed hash (add_tx env pool tx (hash tx) blobSize keptByBlock now).2.m_transactions := by
  rcases add_tx_m_transactions env pool tx (hash tx) blobSize keptByBlock now with
    unchanged | ⟨admitted, absent, appended⟩
  · rw [unchanged]
    exact keyed
  · rw [appended]
    refine ⟨?_, ?_, ?_⟩
    · rw [List.map_append, List.nodup_append]
      refine ⟨keyed.ids, List.nodup_singleton _, ?_⟩
      intro pooled listed added addedMember same
      rw [List.mem_singleton.mp addedMember] at same
      rw [same, ← have_tx_iff, absent] at listed
      cases listed
    · intro details member
      rcases List.mem_append.mp member with pooled | added
      · exact keyed.hashed details pooled
      · rw [List.mem_singleton.mp added]
    · intro details member
      rcases List.mem_append.mp member with pooled | added
      · exact keyed.admitted details pooled
      · rw [List.mem_singleton.mp added]
        exact admitted

theorem Keyed.take_tx {pool : TxMemoryPool} (keyed : Keyed hash pool.m_transactions)
    (env : PoolEnvironment) (id : Hash) : Keyed hash (take_tx env pool id).2.m_transactions := by
  rcases take_tx_cases env pool id with ⟨missing, -⟩ | ⟨details, -, -, taken⟩
  · rw [missing]
    exact keyed
  · rw [taken, removeTransaction_m_transactions]
    exact keyed.sublist List.filter_sublist

theorem Keyed.removeExpiredTransactions {pool : TxMemoryPool}
    (keyed : Keyed hash pool.m_transactions) (env : PoolEnvironment) (now : UInt64) :
    Keyed hash (removeExpiredTransactions env pool now).m_transactions :=
  keyed.sublist (removeExpiredLoop_sublist env now _ _)

end Keyed

end TxMemoryPool

/-! ## Taking a block's transactions and giving them back -/

namespace Node

open TxMemoryPool

variable (env : NodeEnvironment)

theorem keyed_foldl_add_tx {chain : Blockchain} {keptByBlock : Bool} {now : UInt64} :
    ∀ (txs : List Transaction) {pool : TxMemoryPool},
      Keyed env.chain.getObjectHash pool.m_transactions →
        Keyed env.chain.getObjectHash
          (txs.foldl (fun pool tx => (add_tx env chain pool tx keptByBlock now).2) pool).m_transactions
  | [], _, keyed => keyed
  | tx :: rest, _, keyed =>
      keyed_foldl_add_tx rest (keyed.add_tx (env.pool chain) tx _ keptByBlock now)

theorem keyed_saveTransactions {chain : Blockchain} {now : UInt64} {pool : TxMemoryPool}
    (keyed : Keyed env.chain.getObjectHash pool.m_transactions) (txs : List Transaction) :
    Keyed env.chain.getObjectHash (saveTransactions env chain now pool txs).m_transactions :=
  keyed_foldl_add_tx env txs.reverse keyed

/-- Adding back, as kept by a block, admitted transactions with distinct hashes the pool lacks adds
exactly those hashes to the ids. -/
theorem mem_ids_foldl_add_tx {chain : Blockchain} {now : UInt64} (txs : List Transaction)
    {pool : TxMemoryPool} (admitted : ∀ tx ∈ txs, Admitted tx)
    (ids : (txs.map env.chain.getObjectHash).Nodup)
    (apart : ∀ tx ∈ txs, env.chain.getObjectHash tx ∉ pool.m_transactions.map (·.id)) (id : Hash) :
    id ∈ (txs.foldl (fun pool tx => (add_tx env chain pool tx true now).2) pool).m_transactions.map
        (·.id) ↔
      id ∈ pool.m_transactions.map (·.id) ∨ id ∈ txs.map env.chain.getObjectHash := by
  induction txs generalizing pool with
  | nil => simp
  | cons tx rest inductionHypothesis =>
      rw [List.map_cons, List.nodup_cons] at ids
      have absent : pool.have_tx (env.chain.getObjectHash tx) = false := by
        simpa [← have_tx_iff] using apart tx List.mem_cons_self
      have appended := add_tx_of_kept (env.pool chain) (admitted tx List.mem_cons_self) absent
        (Blockchain.getObjectBinarySize tx) now
      have added : ∀ other, other ∈ (add_tx env chain pool tx true now).2.m_transactions.map (·.id) ↔
          other ∈ pool.m_transactions.map (·.id) ∨ other = env.chain.getObjectHash tx := by
        intro other
        simp only [add_tx, appended, List.map_append, List.mem_append, List.map_cons, List.map_nil,
          List.mem_singleton]
      have later := inductionHypothesis
        (fun other listed => admitted other (List.mem_cons_of_mem _ listed)) ids.2
        (fun other listed => by
          rw [added]
          rintro (pooled | same)
          · exact apart other (List.mem_cons_of_mem _ listed) pooled
          · exact ids.1 (same ▸ List.mem_map_of_mem listed))
      rw [List.foldl_cons, later, added, List.map_cons, List.mem_cons]
      tauto

theorem returnTransactions_eq_foldl {chain : Blockchain} {now : UInt64} (txs : List Transaction)
    {pool final : TxMemoryPool} (returned : returnTransactions env chain now pool txs = .ok final) :
    final = txs.foldl (fun pool tx => (add_tx env chain pool tx true now).2) pool := by
  induction txs generalizing pool with
  | nil =>
      cases returned
      rfl
  | cons tx rest inductionHypothesis =>
      unfold returnTransactions at returned
      rcases added : add_tx env chain pool tx true now with ⟨_ | _, next⟩ <;>
        rw [added] at returned
      · cases returned
      · rw [List.foldl_cons, added]
        exact inductionHypothesis returned

/-- Midway through `loadTransactions` from the pool `pool₀`: the pool lacks exactly the ids of the
transactions taken, which are their hashes, distinct and admitted. -/
structure Taken (pool₀ pool : TxMemoryPool) (taken : List Transaction) : Prop where
  keyed : Keyed env.chain.getObjectHash pool.m_transactions
  admitted : ∀ tx ∈ taken, Admitted tx
  ids : (taken.map env.chain.getObjectHash).Nodup
  apart : ∀ tx ∈ taken, env.chain.getObjectHash tx ∉ pool.m_transactions.map (·.id)
  restores : ∀ id, id ∈ pool₀.m_transactions.map (·.id) ↔
    id ∈ pool.m_transactions.map (·.id) ∨ id ∈ taken.map env.chain.getObjectHash

theorem Taken.start {pool : TxMemoryPool} (keyed : Keyed env.chain.getObjectHash pool.m_transactions) :
    Taken env pool pool [] :=
  ⟨keyed, nofun, List.nodup_nil, nofun, fun _ => by simp⟩

theorem Taken.take {pool₀ pool : TxMemoryPool} {taken : List Transaction}
    (state : Taken env pool₀ pool taken) (poolEnv : PoolEnvironment) {details : TransactionDetails}
    (member : details ∈ pool.m_transactions) :
    Taken env pool₀ (removeTransaction poolEnv pool details) (taken ++ [details.tx]) := by
  have hashed := state.keyed.hashed details member
  have removed := mem_ids_removeTransaction poolEnv pool details
  refine ⟨?_, ?_, ?_, ?_, ?_⟩
  · rw [removeTransaction_m_transactions]
    exact state.keyed.sublist List.filter_sublist
  · intro tx listed
    rcases List.mem_append.mp listed with before | added
    · exact state.admitted tx before
    · rw [List.mem_singleton.mp added]
      exact state.keyed.admitted details member
  · rw [List.map_append, List.nodup_append]
    refine ⟨state.ids, List.nodup_singleton _, ?_⟩
    intro earlier listedEarlier _ added same
    obtain ⟨before, listed, rfl⟩ := List.mem_map.mp listedEarlier
    rw [List.map_singleton, List.mem_singleton] at added
    rw [added, ← hashed] at same
    exact state.apart before listed (same ▸ List.mem_map_of_mem member)
  · intro tx listed
    rw [removed]
    rcases List.mem_append.mp listed with before | added
    · exact fun pooled => state.apart tx before pooled.1
    · rw [List.mem_singleton.mp added, ← hashed]
      exact fun pooled => pooled.2 rfl
  · intro id
    rw [state.restores, removed, List.map_append, List.mem_append, List.map_singleton,
      List.mem_singleton, ← hashed]
    by_cases same : id = details.id
    · subst same
      simp [List.mem_map_of_mem member]
    · simp [same]

theorem Taken.returned {pool₀ pool : TxMemoryPool} {taken : List Transaction}
    (state : Taken env pool₀ pool taken) (chain : Blockchain) (now : UInt64) :
    Keyed env.chain.getObjectHash
        (taken.reverse.foldl (fun pool tx => (add_tx env chain pool tx true now).2) pool).m_transactions ∧
      ∀ id, id ∈ (taken.reverse.foldl (fun pool tx => (add_tx env chain pool tx true now).2)
          pool).m_transactions.map (·.id) ↔ id ∈ pool₀.m_transactions.map (·.id) := by
  refine ⟨keyed_foldl_add_tx env _ state.keyed, fun id => ?_⟩
  rw [mem_ids_foldl_add_tx env taken.reverse
    (fun tx listed => state.admitted tx (List.mem_reverse.mp listed))
    (by rw [List.map_reverse, List.nodup_reverse]; exact state.ids)
    (fun tx listed => state.apart tx (List.mem_reverse.mp listed)) id,
    state.restores, List.map_reverse, List.mem_reverse]

/-- `loadTransactions` from a point where `taken` is taken: either a hash is missing and the pool's
ids are back as they were at the start, or every hash is taken. -/
theorem loadTransactionsLoop_spec {chain : Blockchain} {now : UInt64} {pool₀ : TxMemoryPool}
    (hashes : List Hash) {pool : TxMemoryPool} {taken : List Transaction}
    {loaded : Option (List Transaction)} {final : TxMemoryPool} (state : Taken env pool₀ pool taken)
    (ran : loadTransactionsLoop env chain now pool taken hashes = .ok (loaded, final)) :
    (loaded = none ∧ Keyed env.chain.getObjectHash final.m_transactions ∧
        ∀ id, id ∈ final.m_transactions.map (·.id) ↔ id ∈ pool₀.m_transactions.map (·.id)) ∨
      ∃ transactions, loaded = some transactions ∧ Taken env pool₀ final transactions ∧
        transactions.map env.chain.getObjectHash = taken.map env.chain.getObjectHash ++ hashes := by
  induction hashes generalizing pool taken with
  | nil =>
      cases ran
      exact .inr ⟨taken, rfl, state, by simp⟩
  | cons hash rest inductionHypothesis =>
      unfold loadTransactionsLoop at ran
      rcases take_tx_cases (env.pool chain) pool hash with ⟨missing, -⟩ | ⟨details, member, named, took⟩
      · rw [missing] at ran
        dsimp only at ran
        split at ran
        · cases ran
        · rename_i returnedPool returned
          cases ran
          rw [returnTransactions_eq_foldl env _ returned]
          exact .inl ⟨rfl, state.returned env chain now⟩
      · rw [took] at ran
        rcases inductionHypothesis (state.take env (env.pool chain) member) ran with
          missed | ⟨transactions, loadedAll, finalState, hashesTaken⟩
        · exact .inl missed
        · refine .inr ⟨transactions, loadedAll, finalState, ?_⟩
          rw [hashesTaken, List.map_append, List.map_singleton, ← state.keyed.hashed details member,
            named, List.append_assoc, List.singleton_append]

theorem pushBlock_cases {node next : Node}
    (keyed : Keyed env.chain.getObjectHash node.m_mempool.m_transactions) {blockData : Block}
    {now : UInt64} {added : Bool} (pushed : pushBlock env node blockData now = .ok (added, next)) :
    (added = false ∧ next.m_blockchain = node.m_blockchain ∧
        Keyed env.chain.getObjectHash next.m_mempool.m_transactions ∧
        ∀ id, id ∈ next.m_mempool.m_transactions.map (·.id) ↔
          id ∈ node.m_mempool.m_transactions.map (·.id)) ∨
      ∃ transactions pool, transactions.map env.chain.getObjectHash = blockData.transactionHashes ∧
        Taken env node.m_mempool pool transactions ∧
        Blockchain.pushBlock env.chain node.m_blockchain blockData transactions =
          .ok (added, next.m_blockchain) ∧
        next.m_mempool = if added then pool
          else saveTransactions env next.m_blockchain now pool transactions := by
  unfold pushBlock at pushed
  obtain ⟨⟨loaded, pool⟩, loadedAll, rest⟩ := except_bind_eq_ok.mp pushed
  rcases loadTransactionsLoop_spec env blockData.transactionHashes (Taken.start env keyed) loadedAll
    with ⟨rfl, keyedPool, restored⟩ | ⟨transactions, rfl, state, named⟩
  · cases rest
    exact .inl ⟨rfl, rfl, keyedPool, restored⟩
  · obtain ⟨⟨accepted, chain⟩, chainPushed, finished⟩ := except_bind_eq_ok.mp rest
    refine .inr ⟨transactions, pool, by simpa using named, state, ?_⟩
    cases accepted <;> cases finished <;> exact ⟨chainPushed, rfl⟩

theorem pushBlock_keyed {node next : Node}
    (keyed : Keyed env.chain.getObjectHash node.m_mempool.m_transactions) {blockData : Block}
    {now : UInt64} {added : Bool} (pushed : pushBlock env node blockData now = .ok (added, next)) :
    Keyed env.chain.getObjectHash next.m_mempool.m_transactions := by
  rcases pushBlock_cases env keyed pushed with
    ⟨-, -, keyedNext, -⟩ | ⟨transactions, pool, -, state, -, pooled⟩
  · exact keyedNext
  · rw [pooled]
    split
    · exact state.keyed
    · exact keyed_saveTransactions env state.keyed transactions

theorem pushBlock_refused {node next : Node}
    (keyed : Keyed env.chain.getObjectHash node.m_mempool.m_transactions) {blockData : Block}
    {now : UInt64} (refused : pushBlock env node blockData now = .ok (false, next)) :
    (∀ id, next.m_mempool.have_tx id = node.m_mempool.have_tx id) ∧
      (next.m_blockchain = node.m_blockchain ∨
        ∃ transactions, transactions.map env.chain.getObjectHash = blockData.transactionHashes ∧
          (∀ hash ∈ blockData.transactionHashes, node.m_mempool.have_tx hash = true) ∧
          Blockchain.pushBlock env.chain node.m_blockchain blockData transactions =
            .ok (false, next.m_blockchain)) := by
  rcases pushBlock_cases env keyed refused with
    ⟨-, unchanged, -, restored⟩ | ⟨transactions, pool, named, state, chainRefused, pooled⟩
  · refine ⟨fun id => ?_, .inl unchanged⟩
    rw [Bool.eq_iff_iff, have_tx_iff, have_tx_iff]
    exact restored id
  · simp only [Bool.false_eq_true, if_false] at pooled
    refine ⟨fun id => ?_, .inr ⟨transactions, named, fun hash listed => ?_, chainRefused⟩⟩
    · rw [Bool.eq_iff_iff, have_tx_iff, have_tx_iff, pooled]
      exact (state.returned env next.m_blockchain now).2 id
    · rw [have_tx_iff, state.restores]
      exact .inr (named ▸ listed)

/-! ## Runs of the node -/

theorem handle_incoming_tx_keyed {node : Node}
    (keyed : Keyed env.chain.getObjectHash node.m_mempool.m_transactions) (tx : Transaction)
    (keeped_by_block : Bool) (now : UInt64) :
    Keyed env.chain.getObjectHash
      (handle_incoming_tx env node tx keeped_by_block now).2.m_mempool.m_transactions := by
  unfold handle_incoming_tx add_new_tx
  dsimp only
  split_ifs
  · exact keyed
  · exact keyed
  · exact keyed
  · have keyedAdded := keyed.add_tx (env.pool node.m_blockchain) tx
      (Blockchain.getObjectBinarySize tx) keeped_by_block now
    revert keyedAdded
    rcases TxMemoryPool.add_tx (env.pool node.m_blockchain) node.m_mempool tx
      (env.chain.getObjectHash tx) (Blockchain.getObjectBinarySize tx) keeped_by_block now with
      ⟨added, pool⟩
    exact id

theorem popBlock_keyed {node next : Node}
    (keyed : Keyed env.chain.getObjectHash node.m_mempool.m_transactions) {now : UInt64}
    (popped : popBlock env node now = .ok next) :
    Keyed env.chain.getObjectHash next.m_mempool.m_transactions := by
  unfold popBlock at popped
  split at popped
  · cases popped
    exact keyed
  · obtain ⟨chain, -, returned⟩ := except_bind_eq_ok.mp popped
    cases returned
    exact keyed_saveTransactions env keyed _

theorem Step.keyed {node next : Node} (step : Step env node next)
    (keyed : Keyed env.chain.getObjectHash node.m_mempool.m_transactions) :
    Keyed env.chain.getObjectHash next.m_mempool.m_transactions := by
  cases step with
  | handle_incoming_tx tx keeped_by_block now =>
      exact handle_incoming_tx_keyed env keyed tx keeped_by_block now
  | addNewBlock _ _ pushed => exact pushBlock_keyed env keyed pushed
  | popBlock popped => exact popBlock_keyed env keyed popped
  | removeExpiredTransactions now =>
      exact keyed.removeExpiredTransactions (env.pool node.m_blockchain) now

theorem keyed_of_run {start node : Node} (run : Relation.ReflTransGen (Step env) start node)
    (keyed : Keyed env.chain.getObjectHash start.m_mempool.m_transactions) :
    Keyed env.chain.getObjectHash node.m_mempool.m_transactions := by
  induction run with
  | refl => exact keyed
  | tail _ step keyedBefore => exact step.keyed env keyedBefore

def sampleNodeEnvironment : NodeEnvironment :=
  ⟨Blockchain.sampleEnvironment, fun _ => TxMemoryPool.samplePoolEnvironment, fun _ _ _ _ => true⟩

def initialNode : Node := ⟨Blockchain.afterGenesis, TxMemoryPool.empty true⟩

def withLargeTransaction : Node :=
  (handle_incoming_tx sampleNodeEnvironment initialNode Blockchain.largeTransaction false 0).2

def afterRefusedBlock : Node :=
  match pushBlock sampleNodeEnvironment withLargeTransaction Blockchain.largeAlternativeBlock 0 with
  | .ok (_, node) => node
  | .error _ => initialNode

theorem large_transaction_arrives :
    Relation.ReflTransGen (Step sampleNodeEnvironment) initialNode withLargeTransaction :=
  Relation.ReflTransGen.single (Step.handle_incoming_tx Blockchain.largeTransaction false 0)

set_option maxRecDepth 100000 in
theorem large_block_refused :
    pushBlock sampleNodeEnvironment withLargeTransaction Blockchain.largeAlternativeBlock 0 =
      .ok (false, afterRefusedBlock) := rfl

set_option maxRecDepth 100000 in
theorem large_block_on_tail :
    Step sampleNodeEnvironment withLargeTransaction afterRefusedBlock := by
  have fresh : sampleNodeEnvironment.chain.get_block_hash Blockchain.largeAlternativeBlock ∉
      withLargeTransaction.m_blockchain.m_blockIndex := by decide +kernel
  have onTail : Blockchain.largeAlternativeBlock.previousBlockHash =
      withLargeTransaction.m_blockchain.getTailId := by decide +kernel
  exact Step.addNewBlock fresh onTail large_block_refused

end Node

end Dynex
