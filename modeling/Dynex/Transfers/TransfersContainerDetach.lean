import Dynex.Transfers.TransfersContainerVisibility

/-!
# Detaching the blocks from a height on

`detach(height)` of `Transfers/TransfersContainer.cpp`, called when the blockchain switches
below `height`: it walks the index of the transactions on the block height from its end, deletes
the transactions at `height` or above, and the transactions in the pool that spend a transfer at
`height` or above, and stops at the first transaction at a block below `height`. It returns the
hashes it deleted, in the order it met them, and sets the height of the container below `height`.

The index on the block height is `ordered_non_unique`: here it is the records sorted by their
height with the stable merge sort, so that records of one height keep the order of the list, and
the walk from its end is that list reversed. The walk erases only the records it has passed, and
`deleteTransactionTransfers` does not touch the records, so the walk over the live index meets
the records of this list, in order. The `assert` on `height` is left to the caller.

`detach_records`: a transaction at a block is deleted exactly where it is at `height` or above,
and the records left are the others. `detach` changes the container as the calls do: the
invariants of `Preserved` hold of every container that the calls and `detach` reach
(`ReachableWithDetach.keysVisible`).
-/

set_option autoImplicit false

namespace Dynex

open Crypto TransactionTypes

namespace TransfersContainer

/-! ## The model -/

/-- Whether the loop of `detach` deletes the record `it`, on the container as the loop has left
it: a transaction in the pool where it spends a transfer at `height` or above, a transaction at a
block where it is at `height` or above. `none` is the `break`: a transaction at a block below
`height`. -/
def detachDecision (height : UInt32) (c : TransfersContainer) (txInfo : TransactionInformation) :
    Option Bool :=
  if txInfo.blockHeight == WALLET_LEGACY_UNCONFIRMED_TRANSACTION_HEIGHT then
    some (c.m_spentTransfers.any fun spent =>
      spent.spendingTransactionHash == txInfo.transactionHash && height ≤ spent.blockHeight)
  else if height ≤ txInfo.blockHeight then some true
  else none

/-- `blockHeightIndex.erase(it)`: the record of the transaction erased, found by its hash, which
the index on the hash keeps unique. -/
def eraseTransaction (transactionHash : Hash) (c : TransfersContainer) : TransfersContainer :=
  match rangeFirst (·.transactionHash == transactionHash) c.m_transactions with
  | some (_, position) => eraseRecord position c
  | none => c

/-- The loop of `detach` over the records from the end of the index on, the hashes it deleted
carried. -/
def detachFrom (height : UInt32) :
    List TransactionInformation → List Hash → TransfersContainer → List Hash × TransfersContainer
  | [], deleted, c => (deleted, c)
  | txInfo :: rest, deleted, c =>
      match detachDecision height c txInfo with
      | none => (deleted, c)
      | some false => detachFrom height rest deleted c
      | some true =>
          detachFrom height rest (deleted ++ [txInfo.transactionHash])
            (eraseTransaction txInfo.transactionHash
              (deleteTransactionTransfers txInfo.transactionHash c))

def byBlockHeight (transactions : List TransactionInformation) : List TransactionInformation :=
  transactions.mergeSort fun a b => a.blockHeight ≤ b.blockHeight

/-- `detach(height)`. -/
def detach (height : UInt32) : Method (List Hash) := do
  let c ← get
  let (deleted, c) := detachFrom height (byBlockHeight c.m_transactions).reverse [] c
  set { c with m_currentHeight := if height == 0 then 0 else height - 1 }
  pure deleted

theorem run_detach (height : UInt32) (c : TransfersContainer) :
    (detach height).run c =
      .ok (detachFrom height (byBlockHeight c.m_transactions).reverse [] c).1
        { (detachFrom height (byBlockHeight c.m_transactions).reverse [] c).2 with
          m_currentHeight := if height == 0 then 0 else height - 1 } :=
  rfl

/-! ## The records `detach` leaves -/

section Records

variable {height : UInt32} {transactionHash : Hash} {c : TransfersContainer}

theorem transactions_deleteTransactionTransfers :
    (deleteTransactionTransfers transactionHash c).m_transactions = c.m_transactions := by
  have kept := transactions_eq_of_hidden (hidden_deleteTransactionTransfers transactionHash c)
  exact kept

/-- Where the hashes are distinct, erasing the record found by a hash erases every record of that
hash. -/
theorem transactions_eraseTransaction
    (hashes : (c.m_transactions.map (·.transactionHash)).Nodup) :
    (eraseTransaction transactionHash c).m_transactions =
      c.m_transactions.filter fun txInfo => !(txInfo.transactionHash == transactionHash) := by
  unfold eraseTransaction
  cases found : rangeFirst (·.transactionHash == transactionHash) c.m_transactions with
  | none =>
      symm
      exact List.filter_eq_self.mpr fun txInfo member => by
        simp [rangeFirst_eq_none found txInfo member]
  | some first =>
      obtain ⟨txInfo, position⟩ := first
      obtain ⟨front, rest⟩ := filter_eraseIdx_rangeFirst found
      have once : (c.m_transactions.filter (·.transactionHash == transactionHash)).length ≤ 1 := by
        have counted := List.nodup_iff_count_le_one.mp hashes transactionHash
        rw [List.count_eq_countP, List.countP_map, List.countP_eq_length_filter] at counted
        simpa [Function.comp_def] using counted
      have none : (c.m_transactions.eraseIdx position).filter
          (·.transactionHash == transactionHash) = [] := by
        rw [front, List.length_cons] at once
        exact List.eq_nil_of_length_eq_zero (by omega)
      rw [← rest]
      symm
      exact List.filter_eq_self.mpr fun txInfo member => by
        have outside := List.filter_eq_nil_iff.mp none txInfo member
        simpa using outside

theorem pooled_of_detachDecision_false {txInfo : TransactionInformation}
    (kept : detachDecision height c txInfo = some false) :
    txInfo.blockHeight = WALLET_LEGACY_UNCONFIRMED_TRANSACTION_HEIGHT := by
  unfold detachDecision at kept
  split at kept
  · rename_i pooled
    simpa using pooled
  · split at kept <;> cases kept

theorem le_of_detachDecision_true {txInfo : TransactionInformation}
    (confirmed : txInfo.blockHeight ≠ WALLET_LEGACY_UNCONFIRMED_TRANSACTION_HEIGHT)
    (deleted : detachDecision height c txInfo = some true) : height ≤ txInfo.blockHeight := by
  unfold detachDecision at deleted
  rw [if_neg (by simpa using confirmed)] at deleted
  split at deleted
  · assumption
  · cases deleted

theorem lt_of_detachDecision_none {txInfo : TransactionInformation}
    (stopped : detachDecision height c txInfo = none) :
    txInfo.blockHeight ≠ WALLET_LEGACY_UNCONFIRMED_TRANSACTION_HEIGHT ∧
      txInfo.blockHeight < height := by
  unfold detachDecision at stopped
  split at stopped
  · cases stopped
  · rename_i confirmed
    split at stopped
    · cases stopped
    · rename_i below
      exact ⟨by simpa using confirmed, UInt32.not_le.mp below⟩

/-- The loop of `detach`, over records sorted from the highest block on, all in the container and
of distinct hashes, deletes the records of the hashes it returns: among them every record at a
block at `height` or above, and no record at a block below. The induction follows the loop; the
records after a `break` are below `height` because the records are sorted. -/
theorem detachFrom_records (records : List TransactionInformation) :
    ∀ (deleted : List Hash) (c : TransfersContainer),
      (c.m_transactions.map (·.transactionHash)).Nodup →
      (∀ txInfo ∈ records, txInfo ∈ c.m_transactions) →
      (records.map (·.transactionHash)).Nodup →
      records.Pairwise (fun a b => b.blockHeight ≤ a.blockHeight) →
      ∃ newly, (detachFrom height records deleted c).1 = deleted ++ newly ∧
        (detachFrom height records deleted c).2.m_transactions =
          c.m_transactions.filter (fun txInfo => txInfo.transactionHash ∉ newly) ∧
        ∀ txInfo ∈ records, txInfo.blockHeight ≠ WALLET_LEGACY_UNCONFIRMED_TRANSACTION_HEIGHT →
          (txInfo.transactionHash ∈ newly ↔ height ≤ txInfo.blockHeight) := by
  induction records with
  | nil =>
      intro deleted c _ _ _ _
      exact ⟨[], by simp [detachFrom], by simp [detachFrom], by simp⟩
  | cons first rest ih =>
      intro deleted c hashes inside distinct sorted
      rw [List.map_cons, List.nodup_cons] at distinct
      obtain ⟨fresh, restDistinct⟩ := distinct
      obtain ⟨below, restSorted⟩ := List.pairwise_cons.mp sorted
      have restInside : ∀ txInfo ∈ rest, txInfo ∈ c.m_transactions :=
        fun txInfo member => inside txInfo (List.mem_cons_of_mem _ member)
      have other : ∀ txInfo ∈ rest, txInfo.transactionHash ≠ first.transactionHash :=
        fun txInfo member same => fresh (same ▸ List.mem_map_of_mem member)
      unfold detachFrom
      cases decision : detachDecision height c first with
      | none =>
          obtain ⟨-, lower⟩ := lt_of_detachDecision_none decision
          refine ⟨[], by simp, by simp, fun txInfo member _ => ?_⟩
          rcases List.mem_cons.mp member with rfl | member
          · simpa using lower
          · have lower' := UInt32.lt_of_le_of_lt (below txInfo member) lower
            simpa using lower'
      | some delete =>
          cases delete with
          | false =>
              obtain ⟨newly, returned, records, decided⟩ :=
                ih deleted c hashes restInside restDistinct restSorted
              refine ⟨newly, returned, records, fun txInfo member confirmed => ?_⟩
              rcases List.mem_cons.mp member with rfl | member
              · exact absurd (pooled_of_detachDecision_false decision) confirmed
              · exact decided txInfo member confirmed
          | true =>
              set c' := eraseTransaction first.transactionHash
                (deleteTransactionTransfers first.transactionHash c) with erased
              have records' : c'.m_transactions = c.m_transactions.filter
                  fun txInfo => !(txInfo.transactionHash == first.transactionHash) := by
                rw [erased, transactions_eraseTransaction (by rwa [transactions_deleteTransactionTransfers]),
                  transactions_deleteTransactionTransfers]
              have hashes' : (c'.m_transactions.map (·.transactionHash)).Nodup := by
                rw [records']
                exact hashes.sublist (List.filter_sublist.map _)
              have inside' : ∀ txInfo ∈ rest, txInfo ∈ c'.m_transactions := fun txInfo member => by
                rw [records']
                exact List.mem_filter.mpr ⟨restInside txInfo member, by simp [other txInfo member]⟩
              obtain ⟨newly, returned, records, decided⟩ :=
                ih (deleted ++ [first.transactionHash]) c' hashes' inside' restDistinct restSorted
              refine ⟨first.transactionHash :: newly, by simp [returned], ?_,
                fun txInfo member confirmed => ?_⟩
              · rw [records, records', List.filter_filter]
                refine List.filter_congr fun txInfo _ => ?_
                by_cases same : txInfo.transactionHash = first.transactionHash <;> simp [same]
              · rcases List.mem_cons.mp member with rfl | member
                · simpa using le_of_detachDecision_true confirmed decision
                · simpa [other txInfo member] using decided txInfo member confirmed

theorem byBlockHeight_reverse (transactions : List TransactionInformation) :
    (byBlockHeight transactions).reverse.Perm transactions ∧
      (byBlockHeight transactions).reverse.Pairwise
        (fun a b => b.blockHeight ≤ a.blockHeight) := by
  refine ⟨(List.reverse_perm _).trans (List.mergeSort_perm _ _), ?_⟩
  rw [List.pairwise_reverse, byBlockHeight]
  have sorted := @List.pairwise_mergeSort _
    (fun a b : TransactionInformation => decide (a.blockHeight ≤ b.blockHeight))
    (fun _ _ _ first second => by simp only [decide_eq_true_eq] at *; exact UInt32.le_trans first second)
    (fun a b => by simpa using UInt32.le_total a.blockHeight b.blockHeight) transactions
  simpa using sorted

/-- Where the hashes of the records are distinct, `detach(height)` deletes the records of the
hashes it returns: every transaction at a block at `height` or above, and none at a block below.
It sets the height of the container below `height`. -/
theorem detach_records {deleted : List Hash} {c' : TransfersContainer}
    (hashes : (c.m_transactions.map (·.transactionHash)).Nodup)
    (ran : (detach height).run c = .ok deleted c') :
    c'.m_transactions = c.m_transactions.filter (fun txInfo => txInfo.transactionHash ∉ deleted) ∧
      (∀ txInfo ∈ c.m_transactions,
        txInfo.blockHeight ≠ WALLET_LEGACY_UNCONFIRMED_TRANSACTION_HEIGHT →
          (txInfo.transactionHash ∈ deleted ↔ height ≤ txInfo.blockHeight)) ∧
      c'.m_currentHeight = if height = 0 then 0 else height - 1 := by
  rw [run_detach] at ran
  cases ran
  obtain ⟨perm, sorted⟩ := byBlockHeight_reverse c.m_transactions
  obtain ⟨newly, returned, records, decided⟩ :=
    @detachFrom_records height _ [] c hashes (fun txInfo member => perm.subset member)
      ((perm.map _).nodup_iff.mpr hashes) sorted
  rw [List.nil_append] at returned
  refine ⟨?_, fun txInfo member confirmed => ?_, by simp⟩
  · rw [returned]
    exact records
  · rw [returned]
    exact decided txInfo (perm.symm.subset member) confirmed

/-- `detach(5)` on the container with the transaction confirmed at height 10. -/
theorem detach_below_confirmed_record :
    (confirmedContainer.m_transactions.map (·.transactionHash)).Nodup ∧
      ∃ deleted c', (detach 5).run confirmedContainer = .ok deleted c' ∧
        (c'.m_transactions =
            confirmedContainer.m_transactions.filter (fun txInfo => txInfo.transactionHash ∉ deleted) ∧
          (∀ txInfo ∈ confirmedContainer.m_transactions,
            txInfo.blockHeight ≠ WALLET_LEGACY_UNCONFIRMED_TRANSACTION_HEIGHT →
              (txInfo.transactionHash ∈ deleted ↔ 5 ≤ txInfo.blockHeight)) ∧
          c'.m_currentHeight = if (5 : UInt32) = 0 then 0 else 5 - 1) :=
  ⟨List.nodup_singleton _, _, _, run_detach 5 confirmedContainer,
    detach_records (List.nodup_singleton _) (run_detach 5 confirmedContainer)⟩

end Records

/-! ## Every container the calls and `detach` reach -/

section Detached

variable {P : TransfersContainer → Prop} (preserved : Preserved P)
include preserved

theorem Preserved.eraseTransaction {transactionHash : Hash} {c : TransfersContainer}
    (holds : P c) : P (eraseTransaction transactionHash c) := by
  unfold TransfersContainer.eraseTransaction
  split
  · exact preserved.eraseRecord holds
  · exact holds

theorem Preserved.detachFrom {height : UInt32} (records : List TransactionInformation) :
    ∀ (deleted : List Hash) (c : TransfersContainer), P c →
      P (TransfersContainer.detachFrom height records deleted c).2 := by
  induction records with
  | nil => exact fun _ _ holds => holds
  | cons first rest ih =>
      intro deleted c holds
      unfold TransfersContainer.detachFrom
      split
      · exact holds
      · exact ih _ _ holds
      · exact ih _ _ (preserved.eraseTransaction (preserved.deleteTransactionTransfers holds))

theorem Preserved.leaves_detach {height : UInt32} {c : TransfersContainer} (holds : P c) :
    P (leaves (detach height) c) := by
  rw [leaves_of_ok (run_detach height c)]
  exact preserved.height (preserved.detachFrom _ _ _ holds)

end Detached

/-- A change of the container by a call, or by `detach`. -/
inductive Update where
  | call (call : Call)
  | detach (height : UInt32)

def Update.leaves : Update → TransfersContainer → TransfersContainer
  | .call request, c => TransfersContainer.leaves request.method c
  | .detach height, c => TransfersContainer.leaves (TransfersContainer.detach height) c

def ReachableWithDetach (c : TransfersContainer) : Prop :=
  Relation.ReflTransGen (fun c c' => ∃ update : Update, update.leaves c = c') empty c

section Detached

variable {c : TransfersContainer}

theorem Reachable.withDetach (reachable : Reachable c) : ReachableWithDetach c :=
  Relation.ReflTransGen.mono (fun _ _ ⟨call, stepped⟩ => ⟨.call call, stepped⟩) _ _ reachable

theorem Preserved.reachableWithDetach {P : TransfersContainer → Prop} (preserved : Preserved P)
    (initial : P empty) (reachable : ReachableWithDetach c) : P c := by
  refine TransitionSystem.holds_of_run (fun holds ⟨update, stepped⟩ => ?_) initial reachable
  rw [← stepped]
  cases update with
  | call request => exact preserved.step holds request
  | detach height => exact preserved.leaves_detach holds

/-- On every container that calls and `detach` reach, the flags of every key image are those
`updateTransfersVisibility` leaves, and the unconfirmed transfers are at the pool's height and
the others at a block's. -/
theorem detached_keys_visible_placed (reachable : ReachableWithDetach c) :
    KeysVisible c ∧ Placed c :=
  ⟨keysVisible_preserved.reachableWithDetach keysVisible_empty reachable,
    placed_preserved.reachableWithDetach ⟨nofun, nofun, nofun⟩ reachable⟩

/-- The container with the pooled transaction, detached from height 5 on. -/
theorem detached_pending_keys_visible_placed :
    ReachableWithDetach (leaves (detach 5) pendingContainer) ∧
      (KeysVisible (leaves (detach 5) pendingContainer) ∧
        Placed (leaves (detach 5) pendingContainer)) :=
  have reachable : ReachableWithDetach (leaves (detach 5) pendingContainer) :=
    reachable_pendingContainer.withDetach.tail ⟨.detach 5, rfl⟩
  ⟨reachable, detached_keys_visible_placed reachable⟩

end Detached

end TransfersContainer

end Dynex
