import Dynex.Transfers.TransfersContainerDetach

/-!
# Repairing a loaded container

`repair()` of `Transfers/TransfersContainer.cpp`, which `load` runs on the container it has read,
to mend one broken "while handling addTransaction() in previous version of the code". Three loops
`for (auto it = begin(); it != end();)` walk the spent, the unconfirmed and the available
transfers. A transfer whose transaction has no record (for a spent transfer, the transaction that
spent it) is taken out with `it = erase(it)`, which leaves the iterator on the next transfer, and
the flags of its key image are updated; a spent one is emplaced among the available ones first.
Any other transfer is passed with `++it`. The asserts and the log lines change nothing and are
left out.

A loop is modelled with the place of its iterator and a number of rounds, the length of its list
when it starts: every round passes a transfer or takes one out, so the list ends within that
many rounds. Flags apart, each loop is a filter, and `repair` leaves what `repaired` says
(`hidden_repair`): after it, every transfer names a transaction with a record. A reachable
container has a record of every transaction its transfers name (`Consistent`), so there `repair`
passes every transfer and changes nothing (`repair_reachable`). Each transfer a loop takes out is
one of the changes `Preserved` lists, so every invariant of the calls outlives `repair`.
-/

set_option autoImplicit false

namespace Dynex

open Crypto

namespace TransfersContainer

def unrecorded (c : TransfersContainer) (transactionHash : Hash) : Bool :=
  c.m_transactions.countP (·.transactionHash == transactionHash) == 0

/-- A loop of `repair` over the list `transfers` reads, its iterator at `position`, for `rounds`
rounds: a transfer `orphan` accepts is taken out by `remove` and the iterator stays
(`it = erase(it)`); any other is passed (`++it`). The loop ends at the end of the list. -/
def repairLoop {α : Type} (transfers : TransfersContainer → List α)
    (orphan : TransfersContainer → α → Bool)
    (remove : Nat → α → TransfersContainer → TransfersContainer) :
    Nat → Nat → TransfersContainer → TransfersContainer
  | 0, _, c => c
  | rounds + 1, position, c =>
      match (transfers c)[position]? with
      | none => c
      | some transfer =>
          if orphan c transfer then
            repairLoop transfers orphan remove rounds position (remove position transfer c)
          else repairLoop transfers orphan remove rounds (position + 1) c

/-- The first loop of `repair`: a spent transfer whose spending transaction has no record is
emplaced among the available transfers and erased from the spent ones, and the flags of its key
image are updated. -/
def repairSpent (c : TransfersContainer) : TransfersContainer :=
  repairLoop (·.m_spentTransfers) (fun c spent => unrecorded c spent.spendingTransactionHash)
    (fun position spent c => updateKeyVisibility spent.toTransactionOutputInformationIn
      { c with
        m_availableTransfers := c.m_availableTransfers ++ [spent.toTransactionOutputInformationEx]
        m_spentTransfers := c.m_spentTransfers.eraseIdx position })
    c.m_spentTransfers.length 0 c

/-- The second loop of `repair`: an unconfirmed transfer whose transaction has no record is
erased, and the flags of its key image are updated. -/
def repairUnconfirmed (c : TransfersContainer) : TransfersContainer :=
  repairLoop (·.m_unconfirmedTransfers) (fun c transfer => unrecorded c transfer.transactionHash)
    (fun position transfer c => updateKeyVisibility transfer.toTransactionOutputInformationIn
      { c with m_unconfirmedTransfers := c.m_unconfirmedTransfers.eraseIdx position })
    c.m_unconfirmedTransfers.length 0 c

/-- The third loop of `repair`, over the available transfers as the second over the unconfirmed
ones. -/
def repairAvailable (c : TransfersContainer) : TransfersContainer :=
  repairLoop (·.m_availableTransfers) (fun c transfer => unrecorded c transfer.transactionHash)
    (fun position transfer c => updateKeyVisibility transfer.toTransactionOutputInformationIn
      { c with m_availableTransfers := c.m_availableTransfers.eraseIdx position })
    c.m_availableTransfers.length 0 c

def repair (c : TransfersContainer) : TransfersContainer :=
  repairAvailable (repairUnconfirmed (repairSpent c))

/-- What `repair` is for, flags apart: the spent transfers whose spending transaction has no
record are available again, after the others; then the unconfirmed and the available transfers
whose transaction has no record are gone. -/
def repaired (c : TransfersContainer) : TransfersContainer :=
  let available := c.m_availableTransfers ++
    (c.m_spentTransfers.filter fun spent => unrecorded c spent.spendingTransactionHash).map
      SpentTransactionOutput.toTransactionOutputInformationEx
  { c with
    m_unconfirmedTransfers :=
      c.m_unconfirmedTransfers.filter fun transfer => !unrecorded c transfer.transactionHash
    m_availableTransfers := available.filter fun transfer => !unrecorded c transfer.transactionHash
    m_spentTransfers :=
      c.m_spentTransfers.filter fun spent => !unrecorded c spent.spendingTransactionHash }

section Records

variable {c : TransfersContainer} {transactionHash : Hash}

theorem unrecorded_eq_false_iff : unrecorded c transactionHash = false ↔ Recorded c transactionHash := by
  simp [unrecorded, Recorded, List.countP_eq_zero]

theorem unrecorded_of_transactions {d : TransfersContainer} (same : d.m_transactions = c.m_transactions) :
    unrecorded d = unrecorded c := by
  unfold unrecorded
  rw [same]

@[simp] theorem unrecorded_hidden : unrecorded c.hidden = unrecorded c := rfl

@[simp] theorem unrecorded_updateKeyVisibility (transfer : TransactionOutputInformationIn) :
    unrecorded (updateKeyVisibility transfer c) = unrecorded c :=
  unrecorded_of_transactions (transactions_eq_of_hidden (hidden_updateKeyVisibility transfer c))

theorem lengths_of_hidden {d : TransfersContainer} (same : d.hidden = c.hidden) :
    d.m_unconfirmedTransfers.length = c.m_unconfirmedTransfers.length ∧
      d.m_availableTransfers.length = c.m_availableTransfers.length ∧
      d.m_spentTransfers.length = c.m_spentTransfers.length := by
  have unconfirmed := congrArg (·.m_unconfirmedTransfers.length) same
  have available := congrArg (·.m_availableTransfers.length) same
  have spent := congrArg (·.m_spentTransfers.length) same
  simp only [hidden, List.length_map] at unconfirmed available spent
  exact ⟨unconfirmed, available, spent⟩

end Records

/-! ## The loops -/

section Loop

variable {α : Type} {transfers : TransfersContainer → List α}
  {orphan : TransfersContainer → α → Bool}
  {remove : Nat → α → TransfersContainer → TransfersContainer}

/-- A loop given rounds enough for the transfers from its iterator on leaves, flags apart, what
`result` gives from the iterator's place, where passing a transfer and taking one out each keep
what `result` gives, flags apart, taking one out shortens the list by one, and `result` changes
nothing at the end of the list. The induction is on the rounds; the measure that bounds them is
the number of transfers from the iterator on. -/
theorem hidden_repairLoop (result : Nat → TransfersContainer → TransfersContainer)
    (done : ∀ {position c}, (transfers c).length ≤ position → c.hidden = (result position c).hidden)
    (pass : ∀ {position c transfer}, (transfers c)[position]? = some transfer →
      orphan c transfer = false → (result (position + 1) c).hidden = (result position c).hidden)
    (takeOut : ∀ {position c transfer}, (transfers c)[position]? = some transfer →
      orphan c transfer = true →
        (result position (remove position transfer c)).hidden = (result position c).hidden ∧
          (transfers (remove position transfer c)).length + 1 = (transfers c).length) :
    ∀ (rounds position : Nat) (c : TransfersContainer), (transfers c).length ≤ position + rounds →
      (repairLoop transfers orphan remove rounds position c).hidden = (result position c).hidden := by
  intro rounds
  induction rounds with
  | zero =>
      intro position c bounded
      exact done bounded
  | succ rounds ih =>
      intro position c bounded
      unfold repairLoop
      cases found : (transfers c)[position]? with
      | none => exact done (List.getElem?_eq_none_iff.mp found)
      | some transfer =>
          dsimp only
          cases orphaned : orphan c transfer with
          | true =>
              obtain ⟨same, shorter⟩ := takeOut found orphaned
              rw [if_pos rfl, ih position (remove position transfer c) (by omega), same]
          | false =>
              rw [if_neg Bool.false_ne_true, ih (position + 1) c (by omega), pass found orphaned]

theorem repairLoop_of_forall {c : TransfersContainer}
    (kept : ∀ transfer ∈ transfers c, orphan c transfer = false) :
    ∀ (rounds position : Nat), repairLoop transfers orphan remove rounds position c = c := by
  intro rounds
  induction rounds with
  | zero => exact fun _ => rfl
  | succ rounds ih =>
      intro position
      unfold repairLoop
      cases found : (transfers c)[position]? with
      | none => rfl
      | some transfer =>
          dsimp only
          rw [kept transfer (List.mem_of_getElem? found), if_neg Bool.false_ne_true]
          exact ih (position + 1)

theorem holds_repairLoop {P : TransfersContainer → Prop}
    (keeps : ∀ {position c transfer}, P c → (transfers c)[position]? = some transfer →
      P (remove position transfer c)) :
    ∀ (rounds position : Nat) (c : TransfersContainer), P c →
      P (repairLoop transfers orphan remove rounds position c) := by
  intro rounds
  induction rounds with
  | zero => exact fun _ _ holds => holds
  | succ rounds ih =>
      intro position c holds
      unfold repairLoop
      cases found : (transfers c)[position]? with
      | none => exact holds
      | some transfer =>
          dsimp only
          split
          · exact ih _ _ (keeps holds found)
          · exact ih _ _ holds

end Loop

/-! ## Each loop is a filter -/

theorem drop_eraseIdx_of_lt {α : Type} {l : List α} {position : Nat} (bound : position < l.length) :
    (l.eraseIdx position).drop position = l.drop (position + 1) := by
  rw [List.eraseIdx_eq_take_drop_succ, List.drop_left' (List.length_take_of_le bound.le)]

section Spent

/-- What the first loop leaves from its iterator at `position` on, flags apart: the spent
transfers before it stay, and of the others those whose spending transaction has no record are
available again, after the available ones. -/
def repairedSpent (position : Nat) (c : TransfersContainer) : TransfersContainer :=
  let rest := c.m_spentTransfers.drop position
  { c with
    m_availableTransfers := c.m_availableTransfers ++
      (rest.filter fun spent => unrecorded c spent.spendingTransactionHash).map
        SpentTransactionOutput.toTransactionOutputInformationEx
    m_spentTransfers := c.m_spentTransfers.take position ++
      rest.filter fun spent => !unrecorded c spent.spendingTransactionHash }

variable {position : Nat} {c : TransfersContainer} {spent : SpentTransactionOutput}

theorem hidden_repairedSpent (position : Nat) (c : TransfersContainer) :
    (repairedSpent position c.hidden).hidden = (repairedSpent position c).hidden := by
  simp only [repairedSpent, unrecorded_hidden]
  simp [hidden, ← List.map_drop, ← List.map_take, List.filter_map, Function.comp_def]

theorem repairedSpent_pass (found : c.m_spentTransfers[position]? = some spent)
    (recorded : unrecorded c spent.spendingTransactionHash = false) :
    repairedSpent (position + 1) c = repairedSpent position c := by
  obtain ⟨bound, rfl⟩ := List.getElem?_eq_some_iff.mp found
  simp only [repairedSpent]
  rw [List.drop_eq_getElem_cons bound, List.take_add_one, List.getElem?_eq_getElem bound]
  simp only [List.filter_cons, recorded, Bool.not_false, Bool.false_eq_true, ↓reduceIte,
    Option.toList_some, List.append_assoc, List.singleton_append]

theorem repairedSpent_takeOut (found : c.m_spentTransfers[position]? = some spent)
    (orphaned : unrecorded c spent.spendingTransactionHash = true) :
    repairedSpent position
        { c with
          m_availableTransfers := c.m_availableTransfers ++ [spent.toTransactionOutputInformationEx]
          m_spentTransfers := c.m_spentTransfers.eraseIdx position } =
      repairedSpent position c := by
  obtain ⟨bound, rfl⟩ := List.getElem?_eq_some_iff.mp found
  have same : unrecorded { c with
      m_availableTransfers := c.m_availableTransfers ++ [c.m_spentTransfers[position].toTransactionOutputInformationEx]
      m_spentTransfers := c.m_spentTransfers.eraseIdx position } = unrecorded c :=
    unrecorded_of_transactions rfl
  simp only [repairedSpent, same]
  rw [drop_eraseIdx_of_lt bound, List.take_eraseIdx_eq_take_of_le _ _ _ le_rfl,
    List.drop_eq_getElem_cons bound]
  simp only [List.filter_cons, orphaned, Bool.not_true, Bool.false_eq_true, ↓reduceIte,
    List.map_cons, List.append_assoc, List.singleton_append]

theorem hidden_repairSpent (c : TransfersContainer) :
    (repairSpent c).hidden = (repairedSpent 0 c).hidden := by
  refine hidden_repairLoop repairedSpent (fun bounded => ?_) (fun found recorded => ?_)
    (fun found orphaned => ⟨?_, ?_⟩) _ _ _ (by omega)
  · simp [repairedSpent, List.drop_of_length_le bounded, List.take_of_length_le bounded]
  · rw [repairedSpent_pass found recorded]
  · rw [← hidden_repairedSpent, hidden_updateKeyVisibility, hidden_repairedSpent,
      repairedSpent_takeOut found orphaned]
  · obtain ⟨bound, -⟩ := List.getElem?_eq_some_iff.mp found
    rw [(lengths_of_hidden (hidden_updateKeyVisibility _ _)).2.2, List.length_eraseIdx_of_lt bound]
    omega

end Spent

section Erase

variable (transfers : TransfersContainer → List TransactionOutputInformationEx)
  (setTransfers : TransfersContainer → List TransactionOutputInformationEx → TransfersContainer)

def repairedTransfers (position : Nat) (c : TransfersContainer) : TransfersContainer :=
  setTransfers c ((transfers c).take position ++
    ((transfers c).drop position).filter fun transfer => !unrecorded c transfer.transactionHash)

/-! The two loops read and write their transfers through a member of the container, as the loops
of `deleteTransactionTransfers` do; the records stay. -/

variable {transfers setTransfers}
  (get_set : ∀ c transferList, transfers (setTransfers c transferList) = transferList)
  (set_set : ∀ c transferList transferList',
    setTransfers (setTransfers c transferList) transferList' = setTransfers c transferList')
  (set_get : ∀ c, setTransfers c (transfers c) = c)
  (hidden_set : ∀ c transferList, (setTransfers c transferList).hidden =
    setTransfers c.hidden (transferList.map TransactionOutputInformationEx.hidden))
  (get_hidden : ∀ c, transfers c.hidden = (transfers c).map TransactionOutputInformationEx.hidden)
  (transactions_set : ∀ c transferList, (setTransfers c transferList).m_transactions = c.m_transactions)

variable {position : Nat} {c : TransfersContainer} {transfer : TransactionOutputInformationEx}

variable (transfers setTransfers) in
include hidden_set get_hidden in
theorem hidden_repairedTransfers (position : Nat) (c : TransfersContainer) :
    (repairedTransfers transfers setTransfers position c.hidden).hidden =
      (repairedTransfers transfers setTransfers position c).hidden := by
  simp only [repairedTransfers, hidden_set, get_hidden, hidden_hidden, unrecorded_hidden,
    ← List.map_take, ← List.map_drop, List.filter_map, List.map_append, List.map_map]
  rfl

include set_get in
theorem repairedTransfers_done (bounded : (transfers c).length ≤ position) :
    c = repairedTransfers transfers setTransfers position c := by
  rw [repairedTransfers, List.drop_of_length_le bounded, List.take_of_length_le bounded,
    List.filter_nil, List.append_nil, set_get]

theorem repairedTransfers_pass (found : (transfers c)[position]? = some transfer)
    (recorded : unrecorded c transfer.transactionHash = false) :
    repairedTransfers transfers setTransfers (position + 1) c =
      repairedTransfers transfers setTransfers position c := by
  obtain ⟨bound, rfl⟩ := List.getElem?_eq_some_iff.mp found
  unfold repairedTransfers
  rw [List.drop_eq_getElem_cons bound, List.take_add_one, List.getElem?_eq_getElem bound]
  simp only [List.filter_cons, recorded, Bool.not_false, ↓reduceIte, Option.toList_some,
    List.append_assoc, List.singleton_append]

include get_set set_set transactions_set in
theorem repairedTransfers_takeOut (found : (transfers c)[position]? = some transfer)
    (orphaned : unrecorded c transfer.transactionHash = true) :
    repairedTransfers transfers setTransfers position
        (setTransfers c ((transfers c).eraseIdx position)) =
      repairedTransfers transfers setTransfers position c := by
  obtain ⟨bound, rfl⟩ := List.getElem?_eq_some_iff.mp found
  have same : unrecorded (setTransfers c ((transfers c).eraseIdx position)) = unrecorded c := by
    unfold unrecorded
    rw [transactions_set]
  unfold repairedTransfers
  rw [get_set, set_set, same, drop_eraseIdx_of_lt bound,
    List.take_eraseIdx_eq_take_of_le _ _ _ le_rfl, List.drop_eq_getElem_cons bound]
  simp only [List.filter_cons, orphaned, Bool.not_true, Bool.false_eq_true, ↓reduceIte]

variable (transfers setTransfers) in
include get_set set_set set_get hidden_set get_hidden transactions_set in
theorem hidden_repairLoop_erase (c : TransfersContainer) :
    (repairLoop transfers (fun c transfer => unrecorded c transfer.transactionHash)
        (fun position transfer c => updateKeyVisibility transfer.toTransactionOutputInformationIn
          (setTransfers c ((transfers c).eraseIdx position)))
        (transfers c).length 0 c).hidden =
      (repairedTransfers transfers setTransfers 0 c).hidden := by
  refine hidden_repairLoop (repairedTransfers transfers setTransfers)
    (fun bounded => by rw [← repairedTransfers_done set_get bounded])
    (fun found recorded => by rw [repairedTransfers_pass found recorded])
    (fun found orphaned => ⟨?_, ?_⟩) _ _ _ (by omega)
  · rw [← hidden_repairedTransfers transfers setTransfers hidden_set get_hidden,
      hidden_updateKeyVisibility, hidden_repairedTransfers transfers setTransfers hidden_set get_hidden,
      repairedTransfers_takeOut get_set set_set transactions_set found orphaned]
  · rename_i position d transfer
    obtain ⟨bound, -⟩ := List.getElem?_eq_some_iff.mp found
    have lengths : ∀ e : TransfersContainer, (transfers e).length = (transfers e.hidden).length :=
      fun e => by rw [get_hidden, List.length_map]
    rw [lengths, hidden_updateKeyVisibility, ← lengths, get_set, List.length_eraseIdx_of_lt bound]
    omega

end Erase

theorem hidden_repair (c : TransfersContainer) : (repair c).hidden = (repaired c).hidden := by
  have spent := hidden_repairSpent c
  have unconfirmed := hidden_repairLoop_erase (·.m_unconfirmedTransfers)
    (fun c transfers => { c with m_unconfirmedTransfers := transfers })
    (fun _ _ => rfl) (fun _ _ _ => rfl) (fun _ => rfl) (fun _ _ => rfl) (fun _ => rfl)
    (fun _ _ => rfl) (repairSpent c)
  have available := hidden_repairLoop_erase (·.m_availableTransfers)
    (fun c transfers => { c with m_availableTransfers := transfers })
    (fun _ _ => rfl) (fun _ _ _ => rfl) (fun _ => rfl) (fun _ _ => rfl) (fun _ => rfl)
    (fun _ _ => rfl) (repairUnconfirmed (repairSpent c))
  have afterSpent := hidden_repairedTransfers (·.m_unconfirmedTransfers)
    (fun c transfers => { c with m_unconfirmedTransfers := transfers })
    (fun _ _ => rfl) (fun _ => rfl) 0
  have afterUnconfirmed := hidden_repairedTransfers (·.m_availableTransfers)
    (fun c transfers => { c with m_availableTransfers := transfers })
    (fun _ _ => rfl) (fun _ => rfl) 0
  unfold repair repairAvailable
  rw [available, ← afterUnconfirmed]
  unfold repairUnconfirmed
  rw [unconfirmed, ← afterSpent, spent, afterSpent, afterUnconfirmed]
  simp [repairedTransfers, repairedSpent, repaired, unrecorded]

/-! ## The transfers `repair` leaves -/

section Repaired

variable {c : TransfersContainer}

/-- Every transfer names a transaction with a record: the one that paid an unconfirmed or an
available transfer, the one that spent a spent transfer. -/
structure RecordsTransfers (c : TransfersContainer) : Prop where
  unconfirmed : ∀ transfer ∈ c.m_unconfirmedTransfers, Recorded c transfer.transactionHash
  available : ∀ transfer ∈ c.m_availableTransfers, Recorded c transfer.transactionHash
  spent : ∀ spent ∈ c.m_spentTransfers, Recorded c spent.spendingTransactionHash

/-- After `repair`, every transfer names a transaction with a record. -/
theorem recordsTransfers_repair (c : TransfersContainer) : RecordsTransfers (repair c) := by
  have same := hidden_repair c
  have transactions : (repair c).m_transactions = (repaired c).m_transactions :=
    transactions_eq_of_hidden same
  have recorded : ∀ {transactionHash}, unrecorded c transactionHash = false →
      Recorded (repair c) transactionHash := fun kept =>
    (unrecorded_eq_false_iff.mp kept).mono (by rw [transactions]; exact List.Subset.refl _)
  refine ⟨fun transfer member => ?_, fun transfer member => ?_, fun spent member => ?_⟩
  · have inside : transfer.hidden ∈ (repaired c).hidden.m_unconfirmedTransfers := by
      rw [← same]
      exact List.mem_map_of_mem member
    obtain ⟨original, inside, hash⟩ := exists_of_hidden_mem inside
    simp only [repaired, List.mem_filter, Bool.not_eq_eq_eq_not, Bool.not_true] at inside
    rw [← hash]
    exact recorded inside.2
  · have inside : transfer.hidden ∈ (repaired c).hidden.m_availableTransfers := by
      rw [← same]
      exact List.mem_map_of_mem member
    obtain ⟨original, inside, hash⟩ := exists_of_hidden_mem inside
    simp only [repaired, List.mem_filter, Bool.not_eq_eq_eq_not, Bool.not_true] at inside
    rw [← hash]
    exact recorded inside.2
  · have inside : spent.hidden ∈ (repaired c).hidden.m_spentTransfers := by
      rw [← same]
      exact List.mem_map_of_mem member
    obtain ⟨original, inside, -, spends⟩ := exists_of_spent_hidden_mem inside
    simp only [repaired, List.mem_filter, Bool.not_eq_eq_eq_not, Bool.not_true] at inside
    rw [← spends]
    exact recorded inside.2

theorem repair_of_recordsTransfers (recorded : RecordsTransfers c) : repair c = c := by
  have spent : repairSpent c = c := by
    unfold repairSpent
    refine repairLoop_of_forall (fun spent member => ?_) _ _
    exact unrecorded_eq_false_iff.mpr (recorded.spent spent member)
  have unconfirmed : repairUnconfirmed c = c := by
    unfold repairUnconfirmed
    refine repairLoop_of_forall (fun transfer member => ?_) _ _
    exact unrecorded_eq_false_iff.mpr (recorded.unconfirmed transfer member)
  have available : repairAvailable c = c := by
    unfold repairAvailable
    refine repairLoop_of_forall (fun transfer member => ?_) _ _
    exact unrecorded_eq_false_iff.mpr (recorded.available transfer member)
  rw [repair, spent, unconfirmed, available]

theorem Consistent.recordsTransfers (consistent : Consistent c) : RecordsTransfers c :=
  ⟨consistent.unconfirmed, fun transfer member => (consistent.available transfer member).recorded,
    fun spent member => (consistent.spent spent member).2⟩

end Repaired

/-! ## What `repair` leaves -/

section Repair

variable {c : TransfersContainer}

theorem Preserved.holds_repair {P : TransfersContainer → Prop} (preserved : Preserved P)
    (holds : P c) : P (repair c) := by
  have spent : P (repairSpent c) := by
    unfold repairSpent
    refine holds_repairLoop (fun held found => ?_) _ _ _ holds
    exact preserved.restore held found
  have unconfirmed : P (repairUnconfirmed (repairSpent c)) := by
    unfold repairUnconfirmed
    refine holds_repairLoop (fun held found => ?_) _ _ _ spent
    exact preserved.eraseUnconfirmed held found
  unfold repair repairAvailable
  refine holds_repairLoop (fun held found => ?_) _ _ _ unconfirmed
  exact preserved.eraseAvailable held found

/-- Flags apart, `repair` takes out exactly the transfers whose transaction has no record, the
spent ones back among the available ones; after it, every transfer names a transaction with a
record. -/
theorem repair_takes_out_orphans (c : TransfersContainer) :
    (repair c).hidden = (repaired c).hidden ∧ RecordsTransfers (repair c) :=
  ⟨hidden_repair c, recordsTransfers_repair c⟩

/-- A second `repair` finds nothing to take out. -/
theorem repair_repair (c : TransfersContainer) : repair (repair c) = repair c :=
  repair_of_recordsTransfers (recordsTransfers_repair c)

/-- On every reachable container every transfer names a transaction with a record, so `repair`
changes nothing. -/
theorem repair_reachable (reachable : Reachable c) : repair c = c :=
  repair_of_recordsTransfers reachable.consistent.recordsTransfers

/-- The container with the pooled transaction. -/
theorem pending_repair : Reachable pendingContainer ∧ repair pendingContainer = pendingContainer :=
  ⟨reachable_pendingContainer, repair_reachable reachable_pendingContainer⟩

/-- Where the flags of every key image are those `updateTransfersVisibility` leaves and every
transfer is placed by its block height, they still are after `repair`. -/
theorem repair_keeps_visible_placed (visible : KeysVisible c) (placed : Placed c) :
    KeysVisible (repair c) ∧ Placed (repair c) :=
  ⟨keysVisible_preserved.holds_repair visible, placed_preserved.holds_repair placed⟩

def orphanedContainer : TransfersContainer := { confirmedContainer with m_transactions := [] }

example : (repair orphanedContainer).m_availableTransfers = [] := by decide

theorem keysVisible_orphanedContainer : KeysVisible orphanedContainer := by
  intro keyImage
  by_cases same : poolTransfer.keyImage = keyImage
  · subst same
    decide
  · have outside : ∀ transfer ∈ orphanedContainer.m_availableTransfers,
        transfer.hasDescriptor (.key keyImage) = false := by
      intro transfer member
      simp only [orphanedContainer, confirmedContainer, List.mem_singleton] at member
      subst member
      exact Bool.eq_false_iff.mpr fun inside => same (hasDescriptor_key_iff.mp inside).2
    refine ⟨?_, fun some => ?_, fun _ some => ?_, fun _ _ => ?_⟩ <;>
      simp_all [keyCounts, orphanedContainer, confirmedContainer]

theorem orphaned_repair_visible_placed :
    KeysVisible orphanedContainer ∧ Placed orphanedContainer ∧
      (KeysVisible (repair orphanedContainer) ∧ Placed (repair orphanedContainer)) := by
  have placed : Placed orphanedContainer := ⟨nofun, fun transfer member => by
    simp only [orphanedContainer, confirmedContainer, List.mem_singleton] at member
    subst member
    decide, nofun⟩
  exact ⟨keysVisible_orphanedContainer, placed,
    repair_keeps_visible_placed keysVisible_orphanedContainer placed⟩

end Repair

end TransfersContainer

end Dynex
