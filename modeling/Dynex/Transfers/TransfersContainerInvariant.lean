import Dynex.Transfers.TransfersContainerProperties
import Dynex.Lib.TransitionSystem

/-!
# What every reachable transfers container keeps

A container is reached from the empty one by calls of the methods that change it:
`addTransaction`, `markTransactionConfirmed`, `deleteUnconfirmedTransaction` and `advanceHeight`.
A call that throws leaves what it changed before it threw (`leaves`). Every container so reached is
`Consistent` (`Reachable.consistent`):
- the hashes of its transactions are distinct;
- the transaction that paid a transfer is recorded, and at a block where the transfer is
  available or spent;
- the transaction that spent a transfer is recorded;
- a multisignature output is held once at most.

On such a container, a throwing `addTransaction` leaves what the container held, flags apart and
up to the order of the available transfers. A throwing `markTransactionConfirmed` does not: it has
recorded the block's height before its loop over the transfers throws. Where it returns, no
transfer of the transaction is left unconfirmed.
-/

set_option autoImplicit false

namespace Dynex

open Crypto TransactionTypes

namespace TransfersContainer

/-! ## What a call leaves -/

section Leaves

variable {α β : Type}

/-- The container a method leaves on `c`, whether it returns or throws. -/
def leaves (method : Method α) (c : TransfersContainer) : TransfersContainer :=
  match method.run c with
  | .ok _ c' => c'
  | .error _ c' => c'

theorem leaves_of_ok {method : Method α} {c c' : TransfersContainer} {value : α}
    (ran : method.run c = .ok value c') : leaves method c = c' := by
  rw [leaves, ran]

theorem leaves_of_error {method : Method α} {c c' : TransfersContainer} {message : String}
    (threw : method.run c = .error message c') : leaves method c = c' := by
  rw [leaves, threw]

theorem leaves_congr {method method' : Method α} {c c' : TransfersContainer}
    (same : method.run c = method'.run c') : leaves method c = leaves method' c' := by
  rw [leaves, leaves, same]

theorem leaves_of_forall {P : TransfersContainer → Prop} {method : Method α} {c : TransfersContainer}
    (returned : ∀ value c', method.run c = .ok value c' → P c')
    (threw : ∀ message c', method.run c = .error message c' → P c') : P (leaves method c) := by
  cases ran : method.run c with
  | ok value c' => rw [leaves_of_ok ran]; exact returned value c' ran
  | error message c' => rw [leaves_of_error ran]; exact threw message c' ran

end Leaves

/-! ## Consistent containers -/

def Recorded (c : TransfersContainer) (transactionHash : Hash) : Prop :=
  ∃ info ∈ c.m_transactions, info.transactionHash = transactionHash

def RecordedAtBlock (c : TransfersContainer) (transactionHash : Hash) : Prop :=
  ∃ info ∈ c.m_transactions, info.transactionHash = transactionHash ∧
    info.blockHeight ≠ WALLET_LEGACY_UNCONFIRMED_TRANSACTION_HEIGHT

section Records

variable {c d : TransfersContainer} {transactionHash : Hash}

theorem recorded_iff_any :
    Recorded c transactionHash ↔ c.m_transactions.any (·.transactionHash == transactionHash) = true := by
  simp [Recorded]

theorem Recorded.mono (sub : c.m_transactions ⊆ d.m_transactions)
    (recorded : Recorded c transactionHash) : Recorded d transactionHash := by
  obtain ⟨info, member, same⟩ := recorded
  exact ⟨info, sub member, same⟩

theorem RecordedAtBlock.mono (sub : c.m_transactions ⊆ d.m_transactions)
    (atBlock : RecordedAtBlock c transactionHash) : RecordedAtBlock d transactionHash := by
  obtain ⟨info, member, same⟩ := atBlock
  exact ⟨info, sub member, same⟩

theorem RecordedAtBlock.recorded (atBlock : RecordedAtBlock c transactionHash) :
    Recorded c transactionHash := by
  obtain ⟨info, member, same, -⟩ := atBlock
  exact ⟨info, member, same⟩

end Records

/-- What every container the methods reach keeps. -/
structure Consistent (c : TransfersContainer) : Prop where
  hashes : (c.m_transactions.map (·.transactionHash)).Nodup
  unconfirmed : ∀ transfer ∈ c.m_unconfirmedTransfers, Recorded c transfer.transactionHash
  available : ∀ transfer ∈ c.m_availableTransfers, RecordedAtBlock c transfer.transactionHash
  spent : ∀ spent ∈ c.m_spentTransfers,
    RecordedAtBlock c spent.transactionHash ∧ Recorded c spent.spendingTransactionHash
  multisignature : MultisignatureUnique c

theorem consistent_empty : Consistent empty where
  hashes := List.nodup_nil
  unconfirmed := nofun
  available := nofun
  spent := nofun
  multisignature := fun _ _ => by simp [empty]

theorem exists_of_hidden_mem {transfers : List TransactionOutputInformationEx}
    {transfer : TransactionOutputInformationEx}
    (member : transfer.hidden ∈ transfers.map TransactionOutputInformationEx.hidden) :
    ∃ original ∈ transfers, original.transactionHash = transfer.transactionHash := by
  obtain ⟨original, inside, same⟩ := List.mem_map.mp member
  exact ⟨original, inside, by simpa using congrArg (·.transactionHash) same⟩

theorem exists_of_spent_hidden_mem {spentTransfers : List SpentTransactionOutput}
    {spent : SpentTransactionOutput}
    (member : spent.hidden ∈ spentTransfers.map SpentTransactionOutput.hidden) :
    ∃ original ∈ spentTransfers, original.transactionHash = spent.transactionHash ∧
      original.spendingTransactionHash = spent.spendingTransactionHash := by
  obtain ⟨original, inside, same⟩ := List.mem_map.mp member
  refine ⟨original, inside, ?_, ?_⟩
  · simpa using congrArg (·.transactionHash) same
  · simpa using congrArg (·.spendingTransactionHash) same

section Transport

variable {c d : TransfersContainer}

/-- The invariant reads of the transfers their hashes and outputs only: it holds of a container
with the records and the transfers of a consistent one, flags apart and up to the order of the
available transfers. -/
theorem Consistent.of_view (consistent : Consistent c)
    (transactions : d.m_transactions = c.m_transactions)
    (unconfirmed : d.hidden.m_unconfirmedTransfers = c.hidden.m_unconfirmedTransfers)
    (available : d.hidden.m_availableTransfers.Perm c.hidden.m_availableTransfers)
    (spent : d.hidden.m_spentTransfers = c.hidden.m_spentTransfers) : Consistent d := by
  have sub : c.m_transactions ⊆ d.m_transactions := by
    rw [transactions]
    exact List.Subset.refl _
  refine ⟨transactions ▸ consistent.hashes, ?_, ?_, ?_,
    consistent.multisignature.of_perm available spent⟩
  · intro transfer member
    have inside : transfer.hidden ∈ c.hidden.m_unconfirmedTransfers :=
      unconfirmed ▸ List.mem_map_of_mem member
    obtain ⟨original, inside, same⟩ := exists_of_hidden_mem inside
    exact same ▸ (consistent.unconfirmed original inside).mono sub
  · intro transfer member
    have inside : transfer.hidden ∈ c.hidden.m_availableTransfers :=
      available.subset (List.mem_map_of_mem member)
    obtain ⟨original, inside, same⟩ := exists_of_hidden_mem inside
    exact same ▸ (consistent.available original inside).mono sub
  · intro transfer member
    have inside : transfer.hidden ∈ c.hidden.m_spentTransfers :=
      spent ▸ List.mem_map_of_mem member
    obtain ⟨original, inside, paid, spends⟩ := exists_of_spent_hidden_mem inside
    obtain ⟨atBlock, recorded⟩ := consistent.spent original inside
    exact ⟨paid ▸ atBlock.mono sub, spends ▸ recorded.mono sub⟩

theorem Consistent.of_restored (consistent : Consistent c) (restored : Restored c d) :
    Consistent d :=
  consistent.of_view restored.transactions restored.unconfirmed restored.available restored.spent

theorem transactions_eq_of_hidden (same : d.hidden = c.hidden) :
    d.m_transactions = c.m_transactions := by
  have transactions : d.hidden.m_transactions = c.hidden.m_transactions :=
    congrArg TransfersContainer.m_transactions same
  exact transactions

theorem countP_transactionHash_hidden (transactionHash : Hash)
    (transfers : List TransactionOutputInformationEx) :
    (transfers.map TransactionOutputInformationEx.hidden).countP
        (·.transactionHash == transactionHash) =
      transfers.countP (·.transactionHash == transactionHash) := by
  rw [List.countP_map]
  rfl

theorem Consistent.of_hidden (consistent : Consistent c) (same : d.hidden = c.hidden) :
    Consistent d :=
  consistent.of_view (transactions_eq_of_hidden same)
    (congrArg TransfersContainer.m_unconfirmedTransfers same)
    (.of_eq (congrArg TransfersContainer.m_availableTransfers same))
    (congrArg TransfersContainer.m_spentTransfers same)

theorem Consistent.setCurrentHeight (consistent : Consistent c) (height : UInt32) :
    Consistent { c with m_currentHeight := height } :=
  consistent.of_view rfl rfl (.refl _) rfl

theorem Consistent.untouched (consistent : Consistent c) {transactionHash : Hash}
    (unrecorded : c.m_transactions.any (·.transactionHash == transactionHash) = false) :
    Untouched transactionHash c := by
  have absent : ¬ Recorded c transactionHash := by
    rw [recorded_iff_any, unrecorded]
    exact Bool.false_ne_true
  refine ⟨fun transfer member paid => ?_, fun transfer member paid => ?_,
    fun spent member spends => ?_⟩
  · exact absent (paid ▸ consistent.unconfirmed transfer member)
  · exact absent (paid ▸ (consistent.available transfer member).recorded)
  · exact absent (spends ▸ (consistent.spent spent member).2)

end Transport

/-! ## Adding a transaction -/

section Adding

variable {block : TransactionBlockInfo} {transactionHash : Hash} {s c : TransfersContainer}
  {info : TransactionInformation}

theorem Interrupted.atBlock (interrupted : Interrupted block transactionHash s c)
    (consistent : Consistent s) (paid : info.transactionHash = transactionHash)
    (atBlock : info.blockHeight = block.height) :
    ∀ transfer ∈ (restoredTransfers transactionHash c.hidden).m_availableTransfers,
      RecordedAtBlock { c with m_transactions := c.m_transactions ++ [info] }
        transfer.transactionHash := by
  have sub : s.m_transactions ⊆ c.m_transactions ++ [info] := by
    rw [interrupted.transactions]
    exact List.subset_append_left _ _
  intro transfer member
  by_cases ours : transfer.transactionHash = transactionHash
  · have confirmed := interrupted.paidAtBlock transfer member ours
    exact ⟨info, List.mem_append_right _ (List.mem_singleton_self info), paid.trans ours.symm,
      atBlock ▸ confirmed⟩
  · have inside : transfer ∈ s.hidden.m_availableTransfers :=
      interrupted.available.subset (List.mem_filter.mpr ⟨member, by simpa using ours⟩)
    obtain ⟨original, inside, same⟩ := List.mem_map.mp inside
    have hash : original.transactionHash = transfer.transactionHash := by
      rw [← same]
      simp
    exact hash ▸ (consistent.available original inside).mono sub

/-- An interrupted call on a consistent container in which the transaction has no record leaves
a consistent container once the transaction's record, at the call's block, is appended. -/
theorem Interrupted.consistent (interrupted : Interrupted block transactionHash s c)
    (consistent : Consistent s) (unrecorded : ¬ Recorded s transactionHash)
    (paid : info.transactionHash = transactionHash) (atBlock : info.blockHeight = block.height) :
    Consistent { c with m_transactions := c.m_transactions ++ [info] } := by
  have sub : s.m_transactions ⊆ c.m_transactions ++ [info] := by
    rw [interrupted.transactions]
    exact List.subset_append_left _ _
  have recordedNow : Recorded { c with m_transactions := c.m_transactions ++ [info] }
      transactionHash :=
    ⟨info, List.mem_append_right _ (List.mem_singleton_self info), paid⟩
  refine ⟨?_, ?_, ?_, ?_, interrupted.multisignature⟩
  · rw [interrupted.transactions, List.map_append, List.nodup_append]
    refine ⟨consistent.hashes, List.nodup_singleton _, ?_⟩
    intro recordedHash member newHash single same
    obtain ⟨record, inside, rfl⟩ := List.mem_map.mp member
    rw [List.map_singleton, List.mem_singleton] at single
    exact unrecorded ⟨record, inside, by rw [same, single, paid]⟩
  · intro transfer member
    by_cases ours : transfer.transactionHash = transactionHash
    · exact ours ▸ recordedNow
    · have inside : transfer.hidden ∈ s.hidden.m_unconfirmedTransfers :=
        interrupted.unconfirmed ▸
          List.mem_filter.mpr ⟨List.mem_map_of_mem member, by simpa using ours⟩
      obtain ⟨original, inside, same⟩ := exists_of_hidden_mem inside
      exact same ▸ (consistent.unconfirmed original inside).mono sub
  · intro transfer member
    exact interrupted.atBlock consistent paid atBlock transfer.hidden
      (List.mem_append_left _ (List.mem_map_of_mem member))
  · intro spent member
    by_cases spends : spent.spendingTransactionHash = transactionHash
    · have back : spent.toTransactionOutputInformationEx.hidden ∈
          (restoredTransfers transactionHash c.hidden).m_availableTransfers :=
        List.mem_append_right _ (List.mem_map.mpr ⟨spent.hidden,
          List.mem_filter.mpr ⟨List.mem_map_of_mem member, by simpa using spends⟩, by simp⟩)
      exact ⟨interrupted.atBlock consistent paid atBlock
        spent.toTransactionOutputInformationEx.hidden back, spends ▸ recordedNow⟩
    · have inside : spent.hidden ∈ s.hidden.m_spentTransfers :=
        interrupted.spent ▸
          List.mem_filter.mpr ⟨List.mem_map_of_mem member, by simpa using spends⟩
      obtain ⟨original, inside, paidBy, spentBy⟩ := exists_of_spent_hidden_mem inside
      obtain ⟨atBlock', recorded⟩ := consistent.spent original inside
      exact ⟨paidBy ▸ atBlock'.mono sub, spentBy ▸ recorded.mono sub⟩

section Calls

variable {block : TransactionBlockInfo} {tx : TransactionReader}
  {transfers : List TransactionOutputInformationIn} {s : TransfersContainer}

theorem tryAddTransaction_of_addTransaction {added : Bool} {s' : TransfersContainer}
    (ran : (addTransaction block tx transfers).run s = .ok added s') :
    (tryAddTransaction block tx transfers).run s = .ok added s' := by
  unfold addTransaction at ran
  rw [run_tryCatch] at ran
  split at ran
  · rename_i body
    cases ran
    exact body
  · simp only [EStateM.run_bind, EStateM.run_get] at ran
    split at ran
    · rw [run_bind_of_ok (EStateM.run_modify _ _)] at ran
      cases ran
    · cases ran

theorem Consistent.addTransaction_returned (consistent : Consistent s) {added : Bool}
    {s' : TransfersContainer} (ran : (addTransaction block tx transfers).run s = .ok added s') :
    Consistent s' := by
  have body := tryAddTransaction_of_addTransaction ran
  by_cases recorded : s.m_transactions.any (·.transactionHash == tx.transactionHash) = true
  · obtain ⟨_, threw⟩ := @tryAddTransaction_recorded block tx transfers s recorded
    rw [threw] at body
    cases body
  · have unrecorded : s.m_transactions.any (·.transactionHash == tx.transactionHash) = false := by
      simpa using recorded
    obtain ⟨-, c, interrupted, unchanged, rfl⟩ :=
      (tryAddTransaction_interrupted (consistent.untouched unrecorded)
        consistent.multisignature).1 _ _ body
    cases added with
    | false =>
        rw [unchanged rfl]
        exact consistent.setCurrentHeight _
    | true =>
        have appended : insertTransaction block tx c =
            { c with m_transactions := c.m_transactions ++ [transactionInformation block tx] } := by
          rw [insertTransaction, interrupted.transactions, unrecorded]
          rfl
        have absent : ¬ Recorded s tx.transactionHash := by
          rw [recorded_iff_any, unrecorded]
          exact Bool.false_ne_true
        rw [if_pos rfl, appended]
        exact (interrupted.consistent consistent absent rfl rfl).setCurrentHeight _

theorem Consistent.leaves_addTransaction (consistent : Consistent s) :
    Consistent (leaves (addTransaction block tx transfers) s) := by
  refine leaves_of_forall (fun _ _ ran => consistent.addTransaction_returned ran) ?_
  intro message s' threw
  exact consistent.of_restored (addTransaction_threw_restored consistent.untouched
    consistent.multisignature threw)

end Calls

end Adding

/-! ## Confirming a transaction -/

section Confirming

variable (block : TransactionBlockInfo) (transactionHash : Hash) (globalIndices : List UInt32)

/-- A round of the first loop of `markTransactionConfirmed` finds no unconfirmed transfer of the
transaction; or throws before it changes anything; or moves the first one to the available
transfers, with its block and global index, a multisignature one only where no transfer holds
the output. -/
theorem run_confirmTransfers_succ (rounds : Nat) (c : TransfersContainer) :
    ((∀ transfer ∈ c.m_unconfirmedTransfers, transfer.transactionHash ≠ transactionHash) ∧
      (confirmTransfers block transactionHash globalIndices (rounds + 1)).run c = .ok () c) ∨
    (∃ message, (confirmTransfers block transactionHash globalIndices (rounds + 1)).run c =
      .error message c) ∨
    ∃ position transfer confirmed, c.m_unconfirmedTransfers[position]? = some transfer ∧
      transfer.transactionHash = transactionHash ∧ confirmed.transactionHash = transactionHash ∧
      (∃ globalOutputIndex, confirmed = { transfer with
        blockHeight := block.height, transactionIndex := block.transactionIndex,
        globalOutputIndex }) ∧
      (confirmed.type = .Multisignature →
        (c.m_availableTransfers.any
            (·.hasDescriptor (.multisignature confirmed.amount confirmed.globalOutputIndex)) ||
          c.m_spentTransfers.any
            (·.hasDescriptor (.multisignature confirmed.amount confirmed.globalOutputIndex))) =
          false) ∧
      (confirmTransfers block transactionHash globalIndices (rounds + 1)).run c =
        (confirmTransfers block transactionHash globalIndices rounds).run
          (updateKeyVisibility confirmed.toTransactionOutputInformationIn
            { c with
              m_availableTransfers := c.m_availableTransfers ++ [confirmed]
              m_unconfirmedTransfers := c.m_unconfirmedTransfers.eraseIdx position }) := by
  rw [confirmTransfers]
  simp only [EStateM.run_bind, EStateM.run_get]
  cases found : rangeFirst (·.transactionHash == transactionHash) c.m_unconfirmedTransfers with
  | none =>
      refine Or.inl ⟨fun transfer member paid => ?_, rfl⟩
      simpa [paid] using rangeFirst_eq_none found transfer member
  | some first =>
      obtain ⟨transfer, position⟩ := first
      obtain ⟨at_position, inside⟩ := mem_iteratorList (List.mem_of_mem_head? found)
      dsimp only at at_position inside ⊢
      have paid : transfer.transactionHash = transactionHash := by simpa using inside
      cases indexed : globalIndices[transfer.outputInTransaction.toNat]? with
      | none => exact Or.inr (Or.inl ⟨_, rfl⟩)
      | some globalOutputIndex =>
          dsimp only
          by_cases multisignature : transfer.type = .Multisignature
          · simp only [multisignature, beq_self_eq_true, if_true]
            split
            · exact Or.inr (Or.inl ⟨_, rfl⟩)
            · rename_i free
              refine Or.inr (Or.inr ⟨position, transfer, { transfer with
                blockHeight := block.height, transactionIndex := block.transactionIndex,
                globalOutputIndex := globalOutputIndex }, at_position, paid, paid,
                ⟨globalOutputIndex, rfl⟩, fun _ => Bool.eq_false_iff.mpr free, ?_⟩)
              simp [updateKeyVisibility, multisignature]
          · have notMultisignature : (transfer.type == .Multisignature) = false := by
              simpa using multisignature
            simp only [notMultisignature, Bool.false_eq_true, if_false]
            refine Or.inr (Or.inr ⟨position, transfer, { transfer with
              blockHeight := block.height, transactionIndex := block.transactionIndex,
              globalOutputIndex := globalOutputIndex }, at_position, paid, paid,
              ⟨globalOutputIndex, rfl⟩, fun is => absurd is multisignature, ?_⟩)
            by_cases key : transfer.type = .Key <;> simp [updateKeyVisibility, key]

variable {block transactionHash globalIndices}

theorem Consistent.confirm {c : TransfersContainer} (consistent : Consistent c)
    (atBlock : RecordedAtBlock c transactionHash) {position : Nat}
    {confirmed : TransactionOutputInformationEx} (paid : confirmed.transactionHash = transactionHash)
    (free : confirmed.type = .Multisignature →
      (c.m_availableTransfers.any
          (·.hasDescriptor (.multisignature confirmed.amount confirmed.globalOutputIndex)) ||
        c.m_spentTransfers.any
          (·.hasDescriptor (.multisignature confirmed.amount confirmed.globalOutputIndex))) =
        false) :
    Consistent { c with
      m_availableTransfers := c.m_availableTransfers ++ [confirmed]
      m_unconfirmedTransfers := c.m_unconfirmedTransfers.eraseIdx position } where
  hashes := consistent.hashes
  unconfirmed transfer member := consistent.unconfirmed transfer (List.mem_of_mem_eraseIdx member)
  available transfer member := by
    rcases List.mem_append.mp member with old | added
    · exact consistent.available transfer old
    · rw [List.mem_singleton.mp added, paid]
      exact atBlock
  spent := consistent.spent
  multisignature := consistent.multisignature.append free

theorem Consistent.leaves_confirmTransfers (rounds : Nat) :
    ∀ {c : TransfersContainer}, Consistent c → RecordedAtBlock c transactionHash →
      Consistent (leaves (confirmTransfers block transactionHash globalIndices rounds) c) := by
  induction rounds with
  | zero =>
      intro c consistent _
      rw [leaves_of_ok (rfl : (confirmTransfers block transactionHash globalIndices 0).run c =
        .ok () c)]
      exact consistent
  | succ rounds ih =>
      intro c consistent atBlock
      rcases run_confirmTransfers_succ block transactionHash globalIndices rounds c with
        ⟨-, ran⟩ | ⟨message, threw⟩ | ⟨position, transfer, confirmed, -, -, paid, -, free, ran⟩
      · rw [leaves_of_ok ran]
        exact consistent
      · rw [leaves_of_error threw]
        exact consistent
      · have records := transactions_eq_of_hidden (hidden_updateKeyVisibility
          confirmed.toTransactionOutputInformationIn { c with
            m_availableTransfers := c.m_availableTransfers ++ [confirmed]
            m_unconfirmedTransfers := c.m_unconfirmedTransfers.eraseIdx position })
        rw [leaves_congr ran]
        exact ih ((consistent.confirm atBlock paid free).of_hidden (hidden_updateKeyVisibility _ _))
          (atBlock.mono (by rw [records]; exact List.Subset.refl _))

/-- Given as many rounds as the transaction has unconfirmed transfers, the loop, where it
returns, leaves none of them unconfirmed. -/
theorem confirmTransfers_clears (rounds : Nat) :
    ∀ {c c' : TransfersContainer},
      c.m_unconfirmedTransfers.countP (·.transactionHash == transactionHash) ≤ rounds →
      (confirmTransfers block transactionHash globalIndices rounds).run c = .ok () c' →
      ∀ transfer ∈ c'.m_unconfirmedTransfers, transfer.transactionHash ≠ transactionHash := by
  induction rounds with
  | zero =>
      intro c c' none ran
      cases ran
      intro transfer member paid
      have some : 0 < c.m_unconfirmedTransfers.countP (·.transactionHash == transactionHash) :=
        List.countP_pos_iff.mpr ⟨transfer, member, by simpa using paid⟩
      omega
  | succ rounds ih =>
      intro c c' enough ran
      rcases run_confirmTransfers_succ block transactionHash globalIndices rounds c with
        ⟨cleared, returned⟩ | ⟨message, threw⟩ |
          ⟨position, transfer, confirmed, found, paid, -, -, -, moved⟩
      · rw [returned] at ran
        cases ran
        exact cleared
      · rw [threw] at ran
        cases ran
      · rw [moved] at ran
        refine ih ?_ ran
        have fewer := (perm_eraseIdx_of_getElem? found).countP_eq
          (·.transactionHash == transactionHash)
        rw [List.countP_cons, if_pos (by simpa using paid)] at fewer
        have same := congrArg (fun d => d.m_unconfirmedTransfers.countP
          (·.transactionHash == transactionHash)) (hidden_updateKeyVisibility
            confirmed.toTransactionOutputInformationIn { c with
              m_availableTransfers := c.m_availableTransfers ++ [confirmed]
              m_unconfirmedTransfers := c.m_unconfirmedTransfers.eraseIdx position })
        simp only [hidden, countP_transactionHash_hidden] at same
        omega

/-- The container once `markTransactionConfirmed` has given the record at `position` the block's
height and timestamp. -/
def confirmRecord (block : TransactionBlockInfo) (position : Nat) (txInfo : TransactionInformation)
    (c : TransfersContainer) : TransfersContainer :=
  { c with
    m_transactions := c.m_transactions.set position
      { txInfo with blockHeight := block.height, timestamp := block.timestamp } }

/-- The container once the second loop of `markTransactionConfirmed` has given the outputs the
transaction spends its block. -/
def spendAtBlock (block : TransactionBlockInfo) (transactionHash : Hash) (c : TransfersContainer) :
    TransfersContainer :=
  { c with
    m_spentTransfers := c.m_spentTransfers.map fun transfer =>
      if transfer.spendingTransactionHash == transactionHash then
        { transfer with spendingBlock := block }
      else transfer }

variable (block transactionHash globalIndices) in
/-- `markTransactionConfirmed` throws at once for a block in the pool; returns `false` where the
transaction has no record, or one at a block; and otherwise gives its record the block's height,
runs the first loop with as many rounds as there are unconfirmed transfers and, where the loop
returns, gives the outputs the transaction spends its block. -/
theorem run_markTransactionConfirmed (c : TransfersContainer) :
    (block.height = WALLET_LEGACY_UNCONFIRMED_TRANSACTION_HEIGHT ∧ ∃ message,
      (markTransactionConfirmed block transactionHash globalIndices).run c = .error message c) ∨
    (markTransactionConfirmed block transactionHash globalIndices).run c = .ok false c ∨
    ∃ txInfo position, c.m_transactions[position]? = some txInfo ∧
      txInfo.transactionHash = transactionHash ∧
      txInfo.blockHeight = WALLET_LEGACY_UNCONFIRMED_TRANSACTION_HEIGHT ∧
      block.height ≠ WALLET_LEGACY_UNCONFIRMED_TRANSACTION_HEIGHT ∧
      (∀ c', (confirmTransfers block transactionHash globalIndices
          c.m_unconfirmedTransfers.length).run (confirmRecord block position txInfo c) = .ok () c' →
        (markTransactionConfirmed block transactionHash globalIndices).run c =
          .ok true (spendAtBlock block transactionHash c')) ∧
      (∀ message c', (confirmTransfers block transactionHash globalIndices
          c.m_unconfirmedTransfers.length).run (confirmRecord block position txInfo c) =
            .error message c' →
        (markTransactionConfirmed block transactionHash globalIndices).run c = .error message c') := by
  unfold markTransactionConfirmed
  by_cases unconfirmedBlock : block.height = WALLET_LEGACY_UNCONFIRMED_TRANSACTION_HEIGHT
  · refine Or.inl ⟨unconfirmedBlock, "Failed to confirm transaction: block height is unconfirmed", ?_⟩
    simp [unconfirmedBlock]
  · have confirmedBlock : (block.height == WALLET_LEGACY_UNCONFIRMED_TRANSACTION_HEIGHT) = false := by
      simpa using unconfirmedBlock
    simp only [confirmedBlock, Bool.false_eq_true, if_false, EStateM.run_bind, EStateM.run_get]
    refine Or.inr ?_
    cases found : rangeFirst (·.transactionHash == transactionHash) c.m_transactions with
    | none => exact Or.inl rfl
    | some first =>
        obtain ⟨txInfo, position⟩ := first
        obtain ⟨at_position, inside⟩ := mem_iteratorList (List.mem_of_mem_head? found)
        dsimp only at at_position inside ⊢
        by_cases pooled : txInfo.blockHeight = WALLET_LEGACY_UNCONFIRMED_TRANSACTION_HEIGHT
        · refine Or.inr ⟨txInfo, position, at_position, by simpa using inside, pooled,
            unconfirmedBlock, fun c' ran => ?_, fun message c' threw => ?_⟩
          · have ran : (confirmTransfers block transactionHash globalIndices
                c.m_unconfirmedTransfers.length).run { c with
                  m_transactions := c.m_transactions.set position
                    { txInfo with blockHeight := block.height, timestamp := block.timestamp } } =
                .ok () c' := ran
            simp only [pooled, bne_self_eq_false, Bool.false_eq_true, if_false, EStateM.run_bind,
              EStateM.run_set]
            rw [ran]
            rfl
          · have threw : (confirmTransfers block transactionHash globalIndices
                c.m_unconfirmedTransfers.length).run { c with
                  m_transactions := c.m_transactions.set position
                    { txInfo with blockHeight := block.height, timestamp := block.timestamp } } =
                .error message c' := threw
            simp only [pooled, bne_self_eq_false, Bool.false_eq_true, if_false, EStateM.run_bind,
              EStateM.run_set]
            rw [threw]
        · refine Or.inl ?_
          simp [pooled]

theorem mem_set_or {α : Type} {l : List α} {a b r : α} {position : Nat} (member : a ∈ l)
    (found : l[position]? = some b) : a ∈ l.set position r ∨ a = b := by
  obtain ⟨index, at_index⟩ := List.mem_iff_getElem?.mp member
  by_cases same : index = position
  · subst same
    rw [found] at at_index
    exact Or.inr (Option.some.inj at_index).symm
  · refine Or.inl (List.mem_iff_getElem?.mpr ⟨index, ?_⟩)
    rw [List.getElem?_set, if_neg (Ne.symm same)]
    exact at_index

section Records

variable {position : Nat} {txInfo : TransactionInformation} {c : TransfersContainer}

theorem map_transactionHash_confirmRecord (found : c.m_transactions[position]? = some txInfo) :
    (confirmRecord block position txInfo c).m_transactions.map (·.transactionHash) =
      c.m_transactions.map (·.transactionHash) := by
  obtain ⟨bound, at_position⟩ := List.getElem?_eq_some_iff.mp found
  have bound' : position < (c.m_transactions.map (·.transactionHash)).length := by simpa using bound
  have same : txInfo.transactionHash = (c.m_transactions.map (·.transactionHash))[position] := by
    rw [List.getElem_map, at_position]
  simp only [confirmRecord, List.map_set]
  rw [same, List.set_getElem_self]

theorem Recorded.confirmRecord (found : c.m_transactions[position]? = some txInfo)
    (recorded : Recorded c transactionHash) :
    Recorded (TransfersContainer.confirmRecord block position txInfo c) transactionHash := by
  obtain ⟨info, member, paid⟩ := recorded
  obtain ⟨bound, -⟩ := List.getElem?_eq_some_iff.mp found
  rcases mem_set_or member found with kept | rfl
  · exact ⟨info, kept, paid⟩
  · exact ⟨_, List.mem_set bound _, paid⟩

theorem RecordedAtBlock.confirmRecord (found : c.m_transactions[position]? = some txInfo)
    (confirmedBlock : block.height ≠ WALLET_LEGACY_UNCONFIRMED_TRANSACTION_HEIGHT)
    (atBlock : RecordedAtBlock c transactionHash) :
    RecordedAtBlock (TransfersContainer.confirmRecord block position txInfo c) transactionHash := by
  obtain ⟨info, member, paid, confirmed⟩ := atBlock
  obtain ⟨bound, -⟩ := List.getElem?_eq_some_iff.mp found
  rcases mem_set_or member found with kept | rfl
  · exact ⟨info, kept, paid, confirmed⟩
  · exact ⟨_, List.mem_set bound _, paid, confirmedBlock⟩

theorem recordedAtBlock_confirmRecord (found : c.m_transactions[position]? = some txInfo)
    (confirmedBlock : block.height ≠ WALLET_LEGACY_UNCONFIRMED_TRANSACTION_HEIGHT) :
    RecordedAtBlock (confirmRecord block position txInfo c) txInfo.transactionHash := by
  obtain ⟨bound, -⟩ := List.getElem?_eq_some_iff.mp found
  exact ⟨_, List.mem_set bound _, rfl, confirmedBlock⟩

theorem Consistent.confirmRecord (consistent : Consistent c)
    (found : c.m_transactions[position]? = some txInfo)
    (confirmedBlock : block.height ≠ WALLET_LEGACY_UNCONFIRMED_TRANSACTION_HEIGHT) :
    Consistent (TransfersContainer.confirmRecord block position txInfo c) where
  hashes := by
    rw [map_transactionHash_confirmRecord found]
    exact consistent.hashes
  unconfirmed transfer member := (consistent.unconfirmed transfer member).confirmRecord found
  available transfer member :=
    (consistent.available transfer member).confirmRecord found confirmedBlock
  spent transfer member :=
    ⟨(consistent.spent transfer member).1.confirmRecord found confirmedBlock,
      (consistent.spent transfer member).2.confirmRecord found⟩
  multisignature := consistent.multisignature

end Records

theorem Consistent.spendAtBlock {c : TransfersContainer} (consistent : Consistent c) :
    Consistent (TransfersContainer.spendAtBlock block transactionHash c) where
  hashes := consistent.hashes
  unconfirmed := consistent.unconfirmed
  available := consistent.available
  spent := by
    intro spent member
    obtain ⟨original, inside, rfl⟩ := List.mem_map.mp member
    have kept := consistent.spent original inside
    split <;> exact kept
  multisignature := by
    intro amount globalOutputIndex
    have same : (TransfersContainer.spendAtBlock block transactionHash c).m_spentTransfers.countP
          (·.hasDescriptor (.multisignature amount globalOutputIndex)) =
        c.m_spentTransfers.countP (·.hasDescriptor (.multisignature amount globalOutputIndex)) := by
      simp only [TransfersContainer.spendAtBlock, List.countP_map]
      refine List.countP_congr fun spent _ => ?_
      simp only [Function.comp_apply]
      split <;> rfl
    have unique := consistent.multisignature amount globalOutputIndex
    simp only [TransfersContainer.spendAtBlock] at same ⊢
    omega

theorem transactions_leaves_confirmTransfers (rounds : Nat) :
    ∀ c : TransfersContainer,
      (leaves (confirmTransfers block transactionHash globalIndices rounds) c).m_transactions =
        c.m_transactions := by
  induction rounds with
  | zero => intro c; rfl
  | succ rounds ih =>
      intro c
      rcases run_confirmTransfers_succ block transactionHash globalIndices rounds c with
        ⟨-, ran⟩ | ⟨message, threw⟩ | ⟨position, transfer, confirmed, -, -, -, -, -, ran⟩
      · rw [leaves_of_ok ran]
      · rw [leaves_of_error threw]
      · rw [leaves_congr ran, ih, transactions_eq_of_hidden (hidden_updateKeyVisibility _ _)]

theorem Consistent.leaves_markTransactionConfirmed {c : TransfersContainer}
    (consistent : Consistent c) :
    Consistent (leaves (markTransactionConfirmed block transactionHash globalIndices) c) := by
  rcases run_markTransactionConfirmed block transactionHash globalIndices c with
    ⟨-, message, threw⟩ | returned |
      ⟨txInfo, position, found, paid, -, confirmedBlock, returned, threw⟩
  · rw [leaves_of_error threw]
    exact consistent
  · rw [leaves_of_ok returned]
    exact consistent
  · have atBlock : RecordedAtBlock (TransfersContainer.confirmRecord block position txInfo c) transactionHash :=
      paid ▸ recordedAtBlock_confirmRecord found confirmedBlock
    have looped : Consistent (leaves (confirmTransfers block transactionHash globalIndices
        c.m_unconfirmedTransfers.length) (TransfersContainer.confirmRecord block position txInfo c)) :=
      Consistent.leaves_confirmTransfers _ (consistent.confirmRecord found confirmedBlock) atBlock
    cases loop : (confirmTransfers block transactionHash globalIndices
        c.m_unconfirmedTransfers.length).run (TransfersContainer.confirmRecord block position txInfo c) with
    | ok _ c' =>
        rw [leaves_of_ok loop] at looped
        rw [leaves_of_ok (returned c' loop)]
        exact looped.spendAtBlock
    | error message c' =>
        rw [leaves_of_error loop] at looped
        rw [leaves_of_error (threw message c' loop)]
        exact looped

/-- Where `markTransactionConfirmed` returns `true`, the transaction is recorded at a block and
none of its transfers is left unconfirmed. -/
theorem markTransactionConfirmed_returned_confirmed {c c' : TransfersContainer}
    (ran : (markTransactionConfirmed block transactionHash globalIndices).run c = .ok true c') :
    RecordedAtBlock c' transactionHash ∧
      ∀ transfer ∈ c'.m_unconfirmedTransfers, transfer.transactionHash ≠ transactionHash := by
  rcases run_markTransactionConfirmed block transactionHash globalIndices c with
    ⟨-, message, threw⟩ | returned |
      ⟨txInfo, position, found, paid, -, confirmedBlock, returned, threw⟩
  · rw [threw] at ran
    cases ran
  · rw [returned] at ran
    cases ran
  · cases loop : (confirmTransfers block transactionHash globalIndices
        c.m_unconfirmedTransfers.length).run (confirmRecord block position txInfo c) with
    | ok u c'' =>
        cases u
        rw [returned c'' loop] at ran
        cases ran
        have records : (leaves (confirmTransfers block transactionHash globalIndices
            c.m_unconfirmedTransfers.length) (confirmRecord block position txInfo c)).m_transactions =
              (confirmRecord block position txInfo c).m_transactions :=
          transactions_leaves_confirmTransfers _ _
        rw [leaves_of_ok loop] at records
        have enough : (confirmRecord block position txInfo c).m_unconfirmedTransfers.countP
            (·.transactionHash == transactionHash) ≤ c.m_unconfirmedTransfers.length :=
          List.countP_le_length
        have cleared := confirmTransfers_clears _ enough loop
        refine ⟨?_, cleared⟩
        exact (paid ▸ recordedAtBlock_confirmRecord found confirmedBlock).mono
          (by rw [← records]; exact List.Subset.refl _)
    | error message c'' =>
        rw [threw message c'' loop] at ran
        cases ran

end Confirming

/-! ## Deleting a transaction in the pool -/

section Deleting

variable {transactionHash : Hash} {c d : TransfersContainer} {position : Nat}
  {txInfo : TransactionInformation}

def eraseRecord (position : Nat) (c : TransfersContainer) : TransfersContainer :=
  { c with m_transactions := c.m_transactions.eraseIdx position }

theorem hidden_eraseRecord (position : Nat) (c : TransfersContainer) :
    (eraseRecord position c).hidden = eraseRecord position c.hidden :=
  rfl

variable (transactionHash) in
theorem run_deleteUnconfirmedTransaction (c : TransfersContainer) :
    (deleteUnconfirmedTransaction transactionHash).run c = .ok false c ∨
    ∃ txInfo position, c.m_transactions[position]? = some txInfo ∧
      txInfo.transactionHash = transactionHash ∧
      txInfo.blockHeight = WALLET_LEGACY_UNCONFIRMED_TRANSACTION_HEIGHT ∧
      (deleteUnconfirmedTransaction transactionHash).run c =
        .ok true (eraseRecord position (deleteTransactionTransfers transactionHash c)) := by
  unfold deleteUnconfirmedTransaction
  simp only [EStateM.run_bind, EStateM.run_get]
  cases found : rangeFirst (·.transactionHash == transactionHash) c.m_transactions with
  | none => exact Or.inl rfl
  | some first =>
      obtain ⟨txInfo, position⟩ := first
      obtain ⟨at_position, inside⟩ := mem_iteratorList (List.mem_of_mem_head? found)
      dsimp only at at_position inside ⊢
      have paid : txInfo.transactionHash = transactionHash := by simpa using inside
      by_cases pooled : txInfo.blockHeight = WALLET_LEGACY_UNCONFIRMED_TRANSACTION_HEIGHT
      · refine Or.inr ⟨txInfo, position, at_position, paid, pooled, ?_⟩
        simp [pooled, paid, eraseRecord]
      · refine Or.inl ?_
        simp [pooled]

theorem mem_eraseIdx_or {α : Type} {l : List α} {a b : α} (member : a ∈ l)
    (found : l[position]? = some b) : a ∈ l.eraseIdx position ∨ a = b := by
  obtain ⟨index, at_index⟩ := List.mem_iff_getElem?.mp member
  by_cases same : index = position
  · subst same
    rw [found] at at_index
    exact Or.inr (Option.some.inj at_index).symm
  · exact Or.inl (List.mem_eraseIdx_iff_getElem?.mpr ⟨index, same, at_index⟩)

theorem Recorded.eraseIdx (found : c.m_transactions[position]? = some txInfo)
    (erased : d.m_transactions = c.m_transactions.eraseIdx position)
    (other : transactionHash ≠ txInfo.transactionHash) (recorded : Recorded c transactionHash) :
    Recorded d transactionHash := by
  obtain ⟨info, member, paid⟩ := recorded
  rcases mem_eraseIdx_or member found with kept | rfl
  · exact ⟨info, erased ▸ kept, paid⟩
  · exact absurd paid.symm other

theorem RecordedAtBlock.eraseIdx (found : c.m_transactions[position]? = some txInfo)
    (erased : d.m_transactions = c.m_transactions.eraseIdx position)
    (other : transactionHash ≠ txInfo.transactionHash)
    (atBlock : RecordedAtBlock c transactionHash) : RecordedAtBlock d transactionHash := by
  obtain ⟨info, member, paid, confirmed⟩ := atBlock
  rcases mem_eraseIdx_or member found with kept | rfl
  · exact ⟨info, erased ▸ kept, paid, confirmed⟩
  · exact absurd paid.symm other

theorem Consistent.ne_of_atBlock (consistent : Consistent c)
    (found : c.m_transactions[position]? = some txInfo)
    (pooled : txInfo.blockHeight = WALLET_LEGACY_UNCONFIRMED_TRANSACTION_HEIGHT)
    (atBlock : RecordedAtBlock c transactionHash) : transactionHash ≠ txInfo.transactionHash := by
  obtain ⟨info, member, paid, confirmed⟩ := atBlock
  intro same
  have record : info = txInfo := List.inj_on_of_nodup_map consistent.hashes member
    (List.mem_of_getElem? found) (paid.trans same)
  exact confirmed (record ▸ pooled)

theorem MultisignatureUnique.deletedTransfers (unique : MultisignatureUnique c) :
    MultisignatureUnique (deletedTransfers transactionHash c) := by
  intro amount globalOutputIndex
  have spent := List.countP_eq_countP_filter_add c.m_spentTransfers
    (·.hasDescriptor (.multisignature amount globalOutputIndex))
    (·.spendingTransactionHash == transactionHash)
  have dropped : ((restoredTransfers transactionHash c).m_availableTransfers.filter
        fun transfer => !(transfer.transactionHash == transactionHash)).countP
          (·.hasDescriptor (.multisignature amount globalOutputIndex)) ≤
      (restoredTransfers transactionHash c).m_availableTransfers.countP
        (·.hasDescriptor (.multisignature amount globalOutputIndex)) :=
    List.filter_sublist.countP_le
  have before := unique amount globalOutputIndex
  simp only [restoredTransfers, List.countP_append, List.countP_map, Function.comp_def] at dropped
  simp only [TransfersContainer.deletedTransfers, restoredTransfers]
  omega

theorem Consistent.deleted (consistent : Consistent c)
    (found : c.m_transactions[position]? = some txInfo)
    (paid : txInfo.transactionHash = transactionHash)
    (pooled : txInfo.blockHeight = WALLET_LEGACY_UNCONFIRMED_TRANSACTION_HEIGHT) :
    Consistent (eraseRecord position (TransfersContainer.deletedTransfers transactionHash c)) where
  hashes := consistent.hashes.sublist ((List.eraseIdx_sublist _ _).map _)
  unconfirmed transfer member := by
    obtain ⟨inside, other⟩ := List.mem_filter.mp member
    exact (consistent.unconfirmed transfer inside).eraseIdx found rfl (by simpa [paid] using other)
  available transfer member := by
    obtain ⟨inside, other⟩ := List.mem_filter.mp member
    have other : transfer.transactionHash ≠ txInfo.transactionHash := by simpa [paid] using other
    rcases List.mem_append.mp inside with kept | restored
    · exact (consistent.available transfer kept).eraseIdx found rfl other
    · obtain ⟨spent, spentInside, rfl⟩ := List.mem_map.mp restored
      exact (consistent.spent spent (List.mem_of_mem_filter spentInside)).1.eraseIdx found rfl other
  spent spent member := by
    obtain ⟨inside, other⟩ := List.mem_filter.mp member
    obtain ⟨atBlock, recorded⟩ := consistent.spent spent inside
    exact ⟨atBlock.eraseIdx found rfl (consistent.ne_of_atBlock found pooled atBlock),
      recorded.eraseIdx found rfl (by simpa [paid] using other)⟩
  multisignature := consistent.multisignature.deletedTransfers

theorem Consistent.leaves_deleteUnconfirmedTransaction (consistent : Consistent c) :
    Consistent (leaves (deleteUnconfirmedTransaction transactionHash) c) := by
  rcases run_deleteUnconfirmedTransaction transactionHash c with
    returned | ⟨txInfo, position, found, paid, pooled, returned⟩
  · rw [leaves_of_ok returned]
    exact consistent
  · rw [leaves_of_ok returned]
    refine (consistent.deleted found paid pooled).of_hidden ?_
    rw [hidden_eraseRecord, hidden_eraseRecord, hidden_deleteTransactionTransfers]

end Deleting

/-! ## Reachable containers -/

section Reachable

variable {c : TransfersContainer}

theorem run_advanceHeight (height : UInt32) (c : TransfersContainer) :
    (advanceHeight height).run c =
      if c.m_currentHeight ≤ height then .ok true { c with m_currentHeight := height }
      else .ok false c := by
  unfold advanceHeight
  simp only [EStateM.run_bind, EStateM.run_get]
  split <;> rfl

theorem Consistent.leaves_advanceHeight (consistent : Consistent c) (height : UInt32) :
    Consistent (leaves (advanceHeight height) c) := by
  by_cases higher : c.m_currentHeight ≤ height
  · rw [leaves_of_ok ((run_advanceHeight height c).trans (if_pos higher))]
    exact consistent.setCurrentHeight height
  · rw [leaves_of_ok ((run_advanceHeight height c).trans (if_neg higher))]
    exact consistent

/-- A call of a method that changes the container, with its arguments. -/
inductive Call where
  | addTransaction (block : TransactionBlockInfo) (tx : TransactionReader)
      (transfers : List TransactionOutputInformationIn)
  | markTransactionConfirmed (block : TransactionBlockInfo) (transactionHash : Hash)
      (globalIndices : List UInt32)
  | deleteUnconfirmedTransaction (transactionHash : Hash)
  | advanceHeight (height : UInt32)

def Call.method : Call → Method Bool
  | .addTransaction block tx transfers => TransfersContainer.addTransaction block tx transfers
  | .markTransactionConfirmed block transactionHash globalIndices =>
      TransfersContainer.markTransactionConfirmed block transactionHash globalIndices
  | .deleteUnconfirmedTransaction transactionHash =>
      TransfersContainer.deleteUnconfirmedTransaction transactionHash
  | .advanceHeight height => TransfersContainer.advanceHeight height

def Step (c c' : TransfersContainer) : Prop := ∃ call : Call, leaves call.method c = c'

def Reachable (c : TransfersContainer) : Prop := Relation.ReflTransGen Step empty c

theorem Consistent.step (consistent : Consistent c) (call : Call) :
    Consistent (leaves call.method c) := by
  cases call with
  | addTransaction block tx transfers => exact consistent.leaves_addTransaction
  | markTransactionConfirmed block transactionHash globalIndices =>
      exact consistent.leaves_markTransactionConfirmed
  | deleteUnconfirmedTransaction transactionHash =>
      exact consistent.leaves_deleteUnconfirmedTransaction
  | advanceHeight height => exact consistent.leaves_advanceHeight height

theorem Reachable.consistent (reachable : Reachable c) : Consistent c :=
  TransitionSystem.holds_of_run (fun consistent ⟨call, stepped⟩ => stepped ▸ consistent.step call)
    consistent_empty reachable

end Reachable

/-! ## Failed calls -/

section Failures

/-- On a reachable container, a throwing `addTransaction` leaves what the container held, flags
apart and up to the order of the available transfers; and where `markTransactionConfirmed`
returns `true`, the transaction is recorded at a block and none of its transfers is left
unconfirmed. -/
theorem addTransaction_restores_markTransactionConfirmed_completes :
    (∀ (block : TransactionBlockInfo) (tx : TransactionReader)
        (transfers : List TransactionOutputInformationIn) (s s' : TransfersContainer)
        (message : String),
      Reachable s → (addTransaction block tx transfers).run s = .error message s' →
        Restored s s') ∧
    (∀ (block : TransactionBlockInfo) (transactionHash : Hash) (globalIndices : List UInt32)
        (s s' : TransfersContainer),
      (markTransactionConfirmed block transactionHash globalIndices).run s = .ok true s' →
        RecordedAtBlock s' transactionHash ∧
          ∀ transfer ∈ s'.m_unconfirmedTransfers, transfer.transactionHash ≠ transactionHash) := by
  refine ⟨fun block tx transfers s s' message reachable threw => ?_,
    fun block transactionHash globalIndices s s' ran => markTransactionConfirmed_returned_confirmed ran⟩
  have consistent := reachable.consistent
  exact addTransaction_threw_restored consistent.untouched consistent.multisignature threw

def poolTransaction : TransactionReader :=
  { transactionHash := ⟨Pod.ofByte 1⟩, transactionPublicKey := ⟨Pod.ofByte 2⟩, unlockTime := 0,
    inputs := [], inputTotalAmount := 0, outputTotalAmount := 100, extra := [], paymentId := none }

def poolTransfer : TransactionOutputInformationIn :=
  { type := .Key, amount := 100, globalOutputIndex := UNCONFIRMED_TRANSACTION_GLOBAL_OUTPUT_INDEX,
    outputInTransaction := 0, transactionHash := NULL_HASH, keyImage := ⟨Pod.ofByte 3⟩ }

def poolBlock : TransactionBlockInfo := ⟨WALLET_LEGACY_UNCONFIRMED_TRANSACTION_HEIGHT, 0, 0⟩

/-- The container once the transaction is added: the transaction in the pool, its output
unconfirmed. -/
def pendingContainer : TransfersContainer :=
  { m_transactions := [transactionInformation poolBlock poolTransaction],
    m_unconfirmedTransfers := [outputInformation poolBlock poolTransaction poolTransfer],
    m_availableTransfers := [], m_spentTransfers := [], m_currentHeight := 0 }

/-- The container once the transaction is confirmed at height 10, its output at global index 5. -/
def confirmedContainer : TransfersContainer :=
  { m_transactions := [{ transactionInformation poolBlock poolTransaction with blockHeight := 10 }],
    m_unconfirmedTransfers := [],
    m_availableTransfers := [{ outputInformation poolBlock poolTransaction poolTransfer with
      blockHeight := 10, globalOutputIndex := 5 }],
    m_spentTransfers := [], m_currentHeight := 0 }

/-- The output given a global index in the pool: `addTransaction` throws on the empty container
and leaves it empty. Confirming the pooled transaction at height 10 with its global index returns
`true`. -/
theorem indexed_pool_output_restores_empty :
    Restored empty empty ∧
      (RecordedAtBlock confirmedContainer poolTransaction.transactionHash ∧
        ∀ transfer ∈ confirmedContainer.m_unconfirmedTransfers,
          transfer.transactionHash ≠ poolTransaction.transactionHash) :=
  ⟨addTransaction_restores_markTransactionConfirmed_completes.1 poolBlock poolTransaction
      [{ poolTransfer with globalOutputIndex := 5 }] empty empty
      "Failed to add transaction output: globalOutputIndex is invalid" Relation.ReflTransGen.refl rfl,
    addTransaction_restores_markTransactionConfirmed_completes.2 ⟨10, 0, 0⟩
      poolTransaction.transactionHash [5] pendingContainer confirmedContainer rfl⟩

/-- The transaction is added to an empty container, so the container it leaves is reachable.
Confirming the transaction at height 10 with no global index throws. It leaves the record at
height 10 while the output is still unconfirmed. -/
theorem confirmation_throws_after_recording_height :
    Reachable pendingContainer ∧
    (markTransactionConfirmed ⟨10, 0, 0⟩ poolTransaction.transactionHash []).run pendingContainer =
      .error "Failed to confirm transaction: not enough elements in globalIndices"
        { pendingContainer with
          m_transactions := [{ transactionInformation poolBlock poolTransaction with blockHeight := 10 }] } :=
  ⟨Relation.ReflTransGen.single ⟨.addTransaction poolBlock poolTransaction [poolTransfer], rfl⟩, rfl⟩

end Failures

/-! ## Deleting a transaction of the pool again -/

section Undo

variable {block : TransactionBlockInfo} {tx : TransactionReader}
  {transfers : List TransactionOutputInformationIn} {s : TransfersContainer}

theorem Restored.of_hidden {c d : TransfersContainer} (restored : Restored s c)
    (same : d.hidden = c.hidden) : Restored s d where
  transactions := (transactions_eq_of_hidden same).trans restored.transactions
  currentHeight := by
    have height : d.hidden.m_currentHeight = c.hidden.m_currentHeight :=
      congrArg TransfersContainer.m_currentHeight same
    exact height.trans restored.currentHeight
  unconfirmed := (congrArg TransfersContainer.m_unconfirmedTransfers same).trans restored.unconfirmed
  spent := (congrArg TransfersContainer.m_spentTransfers same).trans restored.spent
  available := (List.Perm.of_eq (congrArg TransfersContainer.m_availableTransfers same)).trans
    restored.available

theorem run_deleteUnconfirmedTransaction_of_rangeFirst {transactionHash : Hash}
    {c : TransfersContainer} {txInfo : TransactionInformation} {position : Nat}
    (found : rangeFirst (·.transactionHash == transactionHash) c.m_transactions =
      some (txInfo, position))
    (pooled : txInfo.blockHeight = WALLET_LEGACY_UNCONFIRMED_TRANSACTION_HEIGHT) :
    (deleteUnconfirmedTransaction transactionHash).run c =
      .ok true (eraseRecord position (deleteTransactionTransfers transactionHash c)) := by
  obtain ⟨-, inside⟩ := mem_iteratorList (List.mem_of_mem_head? found)
  have paid : txInfo.transactionHash = transactionHash := by simpa using inside
  unfold deleteUnconfirmedTransaction
  simp [found, pooled, paid, eraseRecord]

theorem run_deleteUnconfirmedTransaction_of_unrecorded {transactionHash : Hash}
    {c : TransfersContainer}
    (unrecorded : c.m_transactions.any (·.transactionHash == transactionHash) = false) :
    (deleteUnconfirmedTransaction transactionHash).run c = .ok false c := by
  have none : rangeFirst (·.transactionHash == transactionHash) c.m_transactions = none := by
    rw [rangeFirst, iteratorList, List.head?_eq_none_iff, List.filter_eq_nil_iff]
    intro it member
    have outside := List.any_eq_false.mp unrecorded it.1
      (List.mem_of_getElem? (List.mem_zipIdx_iff_getElem?.mp member))
    simpa using outside
  unfold deleteUnconfirmedTransaction
  simp [none]

/-- On a reachable container, a transaction of the pool that `addTransaction` took is taken back
by `deleteUnconfirmedTransaction`, which returns what `addTransaction` returned. The container is
then what it was before the two calls, flags apart and up to the order of the available
transfers. -/
theorem pool_transaction_deleted_restores {added : Bool} {s' : TransfersContainer}
    (reachable : Reachable s)
    (pooled : block.height = WALLET_LEGACY_UNCONFIRMED_TRANSACTION_HEIGHT)
    (ran : (addTransaction block tx transfers).run s = .ok added s') :
    ∃ s'', (deleteUnconfirmedTransaction tx.transactionHash).run s' = .ok added s'' ∧
      Restored s s'' := by
  have consistent := reachable.consistent
  have body := tryAddTransaction_of_addTransaction ran
  have unrecorded : s.m_transactions.any (·.transactionHash == tx.transactionHash) = false := by
    cases recorded : s.m_transactions.any (·.transactionHash == tx.transactionHash) with
    | false => rfl
    | true =>
        obtain ⟨_, threw⟩ := @tryAddTransaction_recorded block tx transfers s recorded
        rw [threw] at body
        cases body
  obtain ⟨-, c, interrupted, unchanged, rfl⟩ :=
    (tryAddTransaction_interrupted (consistent.untouched unrecorded)
      consistent.multisignature).1 _ _ body
  have kept : (block.height != WALLET_LEGACY_UNCONFIRMED_TRANSACTION_HEIGHT) = false := by
    simp [pooled]
  rw [kept, if_neg Bool.false_ne_true, ← interrupted.currentHeight]
  cases added with
  | false =>
      rw [unchanged rfl]
      exact ⟨s, run_deleteUnconfirmedTransaction_of_unrecorded unrecorded, .refl s⟩
  | true =>
      have unrecorded' : c.m_transactions.any (·.transactionHash == tx.transactionHash) = false := by
        rw [interrupted.transactions]
        exact unrecorded
      have appended : { insertTransaction block tx c with m_currentHeight := c.m_currentHeight } =
          { c with m_transactions := c.m_transactions ++ [transactionInformation block tx] } := by
        rw [insertTransaction, unrecorded']
        rfl
      have found : rangeFirst (·.transactionHash == tx.transactionHash)
          (c.m_transactions ++ [transactionInformation block tx]) =
            some (transactionInformation block tx, c.m_transactions.length) :=
        rangeFirst_append_singleton (fun info member => by
          simpa using List.any_eq_false.mp unrecorded' info member) (by simp [transactionInformation])
      rw [if_pos rfl, appended]
      refine ⟨_, run_deleteUnconfirmedTransaction_of_rangeFirst found pooled, ?_⟩
      refine interrupted.restored.of_hidden ?_
      rw [hidden_eraseRecord, hidden_deleteTransactionTransfers, hidden_deleteTransactionTransfers]
      simp [eraseRecord, deletedTransfers, restoredTransfers, hidden,
        List.eraseIdx_append_of_length_le (le_refl c.m_transactions.length)]

/-- The pooled transaction added to the empty container and deleted again: the container is empty
once more. -/
theorem pool_transaction_deleted_restores_empty :
    ∃ s'', (deleteUnconfirmedTransaction poolTransaction.transactionHash).run pendingContainer =
      .ok true s'' ∧ Restored empty s'' :=
  pool_transaction_deleted_restores .refl rfl
    (rfl : (addTransaction poolBlock poolTransaction [poolTransfer]).run empty = .ok true pendingContainer)

end Undo

end TransfersContainer

end Dynex
