import Dynex.Core.NodeProperties

/-!
# Taking and expiring pooled transactions

Two ways a transaction leaves `tx_memory_pool`. `take_tx` right after an `add_tx` that pooled a
new transaction hands back the transaction, its blob size and its fee, and leaves the pool's
transactions, its double-spend indices and its recently deleted ids as they were, and its
payment-id and timestamp indices up to the order of equal keys (`take_tx_add_tx`).

`removeExpiredTransactions` removes exactly the transactions older than their lifetime and
remembers each as deleted, so that `add_tx` of one of them, relayed again by a peer, changes
nothing (`removeExpiredTransactions_expires`). The removal loop erases by id from the list it is
not iterating over; its lemma `removeExpiredLoop_spec` needs no invariant, and the pool's
distinct ids turn "no expired transaction of the list has this id" into "not expired".
-/

set_option autoImplicit false

namespace Dynex

open Crypto

namespace TxMemoryPool

variable (env : PoolEnvironment)

/-! ## What releasing the inputs leaves -/

theorem removeTransactionInput_frame (id : Hash) (keptByBlock : Bool) (pool : TxMemoryPool)
    (input : TransactionInput) :
    ∃ spent outputs, (removeTransactionInput id keptByBlock pool input).2 =
      { pool with m_spent_key_images := spent, m_spentOutputs := outputs } := by
  cases input with
  | base _ => exact ⟨_, _, rfl⟩
  | key input =>
      simp only [removeTransactionInput]
      split
      · exact ⟨_, _, rfl⟩
      · split_ifs <;> exact ⟨_, _, rfl⟩
  | multisignature input =>
      simp only [removeTransactionInput]
      split_ifs <;> exact ⟨_, _, rfl⟩

theorem removeTransactionInputs_frame (id : Hash) (keptByBlock : Bool) (pool : TxMemoryPool)
    (inputs : List TransactionInput) :
    ∃ spent outputs, (removeTransactionInputs id keptByBlock pool inputs).2 =
      { pool with m_spent_key_images := spent, m_spentOutputs := outputs } := by
  induction inputs generalizing pool with
  | nil => exact ⟨_, _, rfl⟩
  | cons input rest inductionHypothesis =>
      obtain ⟨spent, outputs, round⟩ := removeTransactionInput_frame id keptByBlock pool input
      unfold removeTransactionInputs
      split
      · rename_i released returned
        rw [returned] at round
        exact ⟨spent, outputs, round⟩
      · rename_i released returned
        rw [returned] at round
        dsimp only at round
        subst round
        obtain ⟨laterSpent, laterOutputs, later⟩ := inductionHypothesis
          { pool with m_spent_key_images := spent, m_spentOutputs := outputs }
        exact ⟨laterSpent, laterOutputs, later⟩

theorem removeTransaction_frame (pool : TxMemoryPool) (details : TransactionDetails) :
    ∃ spent outputs, removeTransaction env pool details = { pool with
      m_spent_key_images := spent
      m_spentOutputs := outputs
      m_paymentIdIndex := (pool.m_paymentIdIndex.remove details.tx details.id).2
      m_addressindex :=
        (AddressIndex.remove env.getAccountAddressAsStr pool.m_addressindex details.tx details.id).2
      m_timestampIndex := (pool.m_timestampIndex.remove details.receiveTime details.id).2
      m_transactions := pool.m_transactions.filter (·.id != details.id) } := by
  obtain ⟨spent, outputs, released⟩ :=
    removeTransactionInputs_frame details.id details.keptByBlock pool details.tx.inputs
  refine ⟨spent, outputs, ?_⟩
  simp only [removeTransaction, released]

@[simp]
theorem removeTransaction_m_recentlyDeletedTransactions (pool : TxMemoryPool)
    (details : TransactionDetails) :
    (removeTransaction env pool details).m_recentlyDeletedTransactions =
      pool.m_recentlyDeletedTransactions := by
  obtain ⟨_, _, removed⟩ := removeTransaction_frame env pool details
  rw [removed]

/-! ## Taking back an added transaction -/

def addedDetails (tx : Transaction) (id : Hash) (blobSize : Nat) (keptByBlock : Bool)
    (now : UInt64) : TransactionDetails :=
  ⟨id, tx, blobSize, getInputAmount tx - getOutputAmount tx, keptByBlock, now⟩

theorem add_tx_of_pooled {pool : TxMemoryPool} (consistent : Consistent pool) {tx : Transaction}
    (distinct : DistinctInputs tx) {id : Hash} {blobSize : Nat} {keptByBlock : Bool}
    {now : UInt64} (fresh : pool.have_tx id = false)
    (pooled : (add_tx env pool tx id blobSize keptByBlock now).2.have_tx id = true) :
    add_tx env pool tx id blobSize keptByBlock now = (true, { inserted env pool tx id blobSize keptByBlock now with
      m_spent_key_images := registerKeyImages pool.m_spent_key_images id (keyImages tx.inputs)
      m_spentOutputs := if keptByBlock then pool.m_spentOutputs
        else pool.m_spentOutputs ∪ (multisignatureOutputs tx.inputs).toFinset }) := by
  rcases add_tx_cases env pool tx id blobSize keptByBlock now with
    ⟨added, unchanged⟩ | ⟨unspent, absent, registering⟩
  · rw [unchanged] at pooled
    rw [fresh] at pooled
    cases pooled
  · simp only [List.all_eq_true, bne_iff_ne, ne_eq] at absent
    rw [registering, addTransactionInputs_inserted env consistent distinct unspent absent]

theorem take_tx_of_find? {pool : TxMemoryPool} {id : Hash} {details : TransactionDetails}
    (found : pool.m_transactions.find? (·.id == id) = some details) :
    take_tx env pool id =
      (some (details.tx, details.blobSize, details.fee), removeTransaction env pool details) := by
  simp only [take_tx, found]

theorem find?_append_of_fresh {txs : List TransactionDetails} {details : TransactionDetails}
    (fresh : ∀ other ∈ txs, other.id ≠ details.id) :
    (txs ++ [details]).find? (·.id == details.id) = some details := by
  rw [List.find?_append, List.find?_eq_none.mpr (by simpa using fresh)]
  simp

theorem filter_append_of_fresh {txs : List TransactionDetails} {details : TransactionDetails}
    (fresh : ∀ other ∈ txs, other.id ≠ details.id) :
    (txs ++ [details]).filter (·.id != details.id) = txs := by
  rw [List.filter_append, List.filter_eq_self.mpr (by simpa using fresh)]
  simp

/-- `take_tx` undoes an `add_tx` that pooled a new transaction: on every reachable pool it hands
back the transaction, its blob size and its fee, and the pool's transactions, double-spend
indices and recently deleted ids are those before the `add_tx`, its payment-id and timestamp
indices the same up to the order of equal keys. -/
theorem take_tx_add_tx {blockchainIndexesEnabled : Bool} {pool : TxMemoryPool}
    (run : Reaches (empty blockchainIndexesEnabled) pool) {tx : Transaction}
    (distinct : DistinctInputs tx) {id : Hash} {blobSize : Nat} {keptByBlock : Bool}
    {now : UInt64} (fresh : pool.have_tx id = false)
    (pooled : (add_tx env pool tx id blobSize keptByBlock now).2.have_tx id = true) :
    let taken := take_tx env (add_tx env pool tx id blobSize keptByBlock now).2 id
    taken.1 = some (tx, blobSize, getInputAmount tx - getOutputAmount tx) ∧
      taken.2.m_transactions = pool.m_transactions ∧
      taken.2.m_spent_key_images = pool.m_spent_key_images ∧
      taken.2.m_spentOutputs = pool.m_spentOutputs ∧
      taken.2.m_recentlyDeletedTransactions = pool.m_recentlyDeletedTransactions ∧
      (∀ paymentId, (taken.2.m_paymentIdIndex.index paymentId).Perm
        (pool.m_paymentIdIndex.index paymentId)) ∧
      ∀ timestamp, (taken.2.m_timestampIndex.index timestamp).Perm
        (pool.m_timestampIndex.index timestamp) := by
  have consistent := run.consistent (consistent_empty blockchainIndexesEnabled)
  have absent : ∀ other ∈ pool.m_transactions, other.id ≠ id := by
    simpa [have_tx] using fresh
  have added := add_tx_of_pooled env consistent distinct fresh pooled
  have afterConsistent := (add_tx_consistent env consistent distinct id blobSize keptByBlock now).1
  dsimp only
  generalize afterEq : (add_tx env pool tx id blobSize keptByBlock now).2 = after at afterConsistent ⊢
  rw [added] at afterEq
  have afterTransactions : after.m_transactions =
      pool.m_transactions ++ [addedDetails tx id blobSize keptByBlock now] := by
    rw [← afterEq]
    rfl
  have found : after.m_transactions.find? (·.id == id) =
      some (addedDetails tx id blobSize keptByBlock now) := by
    rw [afterTransactions]
    exact @find?_append_of_fresh _ (addedDetails tx id blobSize keptByBlock now) absent
  have removed := removeTransaction_consistent env afterConsistent (List.mem_of_find?_eq_some found)
  have remaining : (removeTransaction env after
      (addedDetails tx id blobSize keptByBlock now)).m_transactions = pool.m_transactions := by
    rw [removed.2, afterTransactions]
    exact filter_append_of_fresh absent
  obtain ⟨spent, outputs, frame⟩ :=
    removeTransaction_frame env after (addedDetails tx id blobSize keptByBlock now)
  rw [take_tx_of_find? env found]
  refine ⟨rfl, remaining, ?_, ?_, ?_, ?_, ?_⟩
  · rw [removed.1.spentKeyImages, remaining, consistent.spentKeyImages]
  · rw [removed.1.spentOutputs, remaining, consistent.spentOutputs]
  · rw [frame, ← afterEq]
    rfl
  · intro paymentId
    rw [frame, ← afterEq]
    exact PaymentIdIndex.remove_add_perm pool.m_paymentIdIndex tx id paymentId
  · intro timestamp
    rw [frame, ← afterEq]
    exact HashMultimap.remove_add_perm pool.m_timestampIndex now id timestamp

/-- The empty pool takes the one-key-input transaction and gives it back. -/
theorem one_key_input_taken_back :
    Reaches (empty true) (empty true) ∧ DistinctInputs oneKeyInputTransaction ∧
      (empty true).have_tx NULL_HASH = false ∧
      (add_tx samplePoolEnvironment (empty true) oneKeyInputTransaction NULL_HASH 100 false 0).2.have_tx
        NULL_HASH = true ∧
      let taken := take_tx samplePoolEnvironment
        (add_tx samplePoolEnvironment (empty true) oneKeyInputTransaction NULL_HASH 100 false 0).2
        NULL_HASH
      taken.1 = some (oneKeyInputTransaction, 100,
          getInputAmount oneKeyInputTransaction - getOutputAmount oneKeyInputTransaction) ∧
        taken.2.m_transactions = (empty true).m_transactions ∧
        taken.2.m_spent_key_images = (empty true).m_spent_key_images ∧
        taken.2.m_spentOutputs = (empty true).m_spentOutputs ∧
        taken.2.m_recentlyDeletedTransactions = (empty true).m_recentlyDeletedTransactions ∧
        (∀ paymentId, (taken.2.m_paymentIdIndex.index paymentId).Perm
          ((empty true).m_paymentIdIndex.index paymentId)) ∧
        ∀ timestamp, (taken.2.m_timestampIndex.index timestamp).Perm
          ((empty true).m_timestampIndex.index timestamp) :=
  ⟨Reaches.refl, by decide, by decide, by decide,
    take_tx_add_tx samplePoolEnvironment Reaches.refl (by decide) (by decide) (by decide)⟩

/-! ## Expiring transactions -/

def isExpired (now : UInt64) (details : TransactionDetails) : Bool :=
  now - details.receiveTime >
    (if details.keptByBlock then env.mempoolTxFromAltBlockLiveTime else env.mempoolTxLiveTime)

def rememberDeleted (recentlyDeleted : Hash → Option UInt64) (id : Hash) (now : UInt64) :
    Hash → Option UInt64 :=
  Function.update recentlyDeleted id (some ((recentlyDeleted id).getD now))

theorem removeExpiredLoop_cons (now : UInt64) (pool : TxMemoryPool) (details : TransactionDetails)
    (rest : List TransactionDetails) :
    removeExpiredLoop env now pool (details :: rest) =
      if isExpired env now details then
        removeExpiredLoop env now (removeTransaction env { pool with
          m_recentlyDeletedTransactions :=
            rememberDeleted pool.m_recentlyDeletedTransactions details.id now } details) rest
      else removeExpiredLoop env now pool rest := by
  cases remembered : pool.m_recentlyDeletedTransactions details.id <;>
    simp only [removeExpiredLoop, isExpired, rememberDeleted, remembered, decide_eq_true_eq,
      Option.getD_none, Option.getD_some]

theorem isSome_rememberDeleted (recentlyDeleted : Hash → Option UInt64) (id other : Hash)
    (now : UInt64) :
    (rememberDeleted recentlyDeleted id now other).isSome =
      (other == id || (recentlyDeleted other).isSome) := by
  by_cases same : other = id
  · subst same
    simp [rememberDeleted]
  · simp [rememberDeleted, same]

/-- The removal loop erases the records with the id of an expired transaction of the list it
visits, remembers each such id as deleted, and forgets no deletion. -/
theorem removeExpiredLoop_spec (now : UInt64) (pool : TxMemoryPool)
    (pending : List TransactionDetails) :
    (removeExpiredLoop env now pool pending).m_transactions =
        pool.m_transactions.filter (fun details =>
          (pending.filter (isExpired env now)).all (·.id != details.id)) ∧
      (∀ id, (pool.m_recentlyDeletedTransactions id).isSome →
        ((removeExpiredLoop env now pool pending).m_recentlyDeletedTransactions id).isSome) ∧
      ∀ details ∈ pending, isExpired env now details = true →
        ((removeExpiredLoop env now pool pending).m_recentlyDeletedTransactions details.id).isSome := by
  induction pending generalizing pool with
  | nil => simp [removeExpiredLoop]
  | cons details rest inductionHypothesis =>
      rw [removeExpiredLoop_cons]
      by_cases expired : isExpired env now details = true
      · rw [if_pos expired]
        obtain ⟨transactions, kept, remembered⟩ := inductionHypothesis (removeTransaction env
          { pool with m_recentlyDeletedTransactions :=
            rememberDeleted pool.m_recentlyDeletedTransactions details.id now } details)
        simp only [removeTransaction_m_recentlyDeletedTransactions, isSome_rememberDeleted] at kept
        refine ⟨?_, fun id known => kept id (by simp [known]), ?_⟩
        · rw [transactions, removeTransaction_m_transactions, List.filter_filter]
          refine List.filter_congr fun other _ => ?_
          simp [expired, Bool.and_comm, bne_comm]
        · intro other member otherExpired
          rcases List.mem_cons.mp member with rfl | later
          · exact kept _ (by simp)
          · exact remembered other later otherExpired
      · rw [if_neg expired]
        obtain ⟨transactions, kept, remembered⟩ := inductionHypothesis pool
        refine ⟨?_, kept, ?_⟩
        · rw [transactions]
          simp [expired]
        · intro other member otherExpired
          rcases List.mem_cons.mp member with rfl | later
          · exact absurd otherExpired expired
          · exact remembered other later otherExpired

theorem all_expired_ne_id {txs : List TransactionDetails} (ids : (txs.map (·.id)).Nodup)
    (now : UInt64) {details : TransactionDetails} (member : details ∈ txs) :
    (txs.filter (isExpired env now)).all (·.id != details.id) = !isExpired env now details := by
  cases expired : isExpired env now details with
  | false =>
      simp only [Bool.not_false, List.all_eq_true, List.mem_filter, bne_iff_ne, ne_eq]
      rintro other ⟨otherMember, otherExpired⟩ same
      have identical := List.inj_on_of_nodup_map ids otherMember member same
      subst identical
      rw [expired] at otherExpired
      cases otherExpired
  | true =>
      simp only [Bool.not_true, List.all_eq_false, List.mem_filter, bne_iff_ne, ne_eq,
        Decidable.not_not]
      exact ⟨details, ⟨member, expired⟩, rfl⟩

theorem add_tx_of_recentlyDeleted {pool : TxMemoryPool} {id : Hash}
    (deleted : (pool.m_recentlyDeletedTransactions id).isSome = true) (tx : Transaction)
    (blobSize : Nat) (now : UInt64) :
    (add_tx env pool tx id blobSize false now).2 = pool := by
  have remembered : (!false && (pool.m_recentlyDeletedTransactions id).isSome) = true := by
    simp [deleted]
  unfold add_tx
  dsimp only
  split_ifs <;> rfl

theorem removeExpiredTransactions_eq (pool : TxMemoryPool) (now : UInt64) :
    ∃ forgotten : Hash → Option UInt64, removeExpiredTransactions env pool now =
      removeExpiredLoop env now { pool with m_recentlyDeletedTransactions := forgotten }
        pool.m_transactions :=
  ⟨_, rfl⟩

/-- On every reachable pool, `removeExpiredTransactions` at `now` keeps exactly the transactions
that are not expired, with the double-spend indices of those alone, and an expired transaction
a peer relays again is not pooled: `add_tx` of its id, not kept by a block, changes nothing. -/
theorem removeExpiredTransactions_expires {blockchainIndexesEnabled : Bool} {pool : TxMemoryPool}
    (run : Reaches (empty blockchainIndexesEnabled) pool) (now : UInt64) :
    let result := removeExpiredTransactions env pool now
    result.m_transactions = pool.m_transactions.filter (fun details => !isExpired env now details) ∧
      (∀ keyImage, result.m_spent_key_images keyImage = spentKeyImagesOf
        (pool.m_transactions.filter fun details => !isExpired env now details) keyImage) ∧
      result.m_spentOutputs =
        spentOutputsOf (pool.m_transactions.filter fun details => !isExpired env now details) ∧
      ∀ details ∈ pool.m_transactions, isExpired env now details = true →
        ∀ (later : PoolEnvironment) (tx : Transaction) (blobSize : Nat) (receiveTime : UInt64),
          (add_tx later result tx details.id blobSize false receiveTime).2 = result := by
  have consistent := run.consistent (consistent_empty blockchainIndexesEnabled)
  have resultConsistent := removeExpiredTransactions_consistent env consistent now
  obtain ⟨forgotten, expiry⟩ := removeExpiredTransactions_eq env pool now
  obtain ⟨transactions, -, remembered⟩ := removeExpiredLoop_spec env now
    { pool with m_recentlyDeletedTransactions := forgotten } pool.m_transactions
  have live : (removeExpiredTransactions env pool now).m_transactions =
      pool.m_transactions.filter (fun details => !isExpired env now details) := by
    rw [expiry, transactions]
    exact List.filter_congr fun details member => all_expired_ne_id env consistent.ids now member
  dsimp only
  refine ⟨live, fun keyImage => ?_, ?_, ?_⟩
  · rw [resultConsistent.spentKeyImages, live]
  · rw [resultConsistent.spentOutputs, live]
  · intro details member expired later tx blobSize receiveTime
    rw [expiry]
    exact add_tx_of_recentlyDeleted later (remembered details member expired) tx blobSize receiveTime

/-- The one-key-input transaction, pooled at time 0, has expired a day and a second later. -/
theorem one_key_input_expires :
    let pool := (add_tx samplePoolEnvironment (empty true) oneKeyInputTransaction NULL_HASH 100
      false 0).2
    Reaches (empty true) pool ∧
      let result := removeExpiredTransactions samplePoolEnvironment pool 86401
      result.m_transactions =
          pool.m_transactions.filter (fun details => !isExpired samplePoolEnvironment 86401 details) ∧
        (∀ keyImage, result.m_spent_key_images keyImage = spentKeyImagesOf
          (pool.m_transactions.filter fun details =>
            !isExpired samplePoolEnvironment 86401 details) keyImage) ∧
        result.m_spentOutputs = spentOutputsOf (pool.m_transactions.filter fun details =>
          !isExpired samplePoolEnvironment 86401 details) ∧
        ∀ details ∈ pool.m_transactions, isExpired samplePoolEnvironment 86401 details = true →
          ∀ (later : PoolEnvironment) (tx : Transaction) (blobSize : Nat) (receiveTime : UInt64),
            (add_tx later result tx details.id blobSize false receiveTime).2 = result :=
  have run := Reaches.addTx samplePoolEnvironment NULL_HASH 100 false 0 Reaches.refl (by decide)
  ⟨run, removeExpiredTransactions_expires samplePoolEnvironment run 86401⟩

end TxMemoryPool

end Dynex
