import Dynex.Transfers.TransfersContainer

/-!
# What a failed call leaves in the transfers container

The transfers of a container, apart from their visibility flags, are its `hidden` view. A flag
is all that `updateTransfersVisibility` changes, so every proof about the transfers themselves
runs on that view.

`deleteTransactionTransfers` leaves the spent transfers the transaction did not spend, the
unconfirmed transfers it did not pay, and the available transfers, with those it spent after
them, that it did not pay (`hidden_deleteTransactionTransfers`).
-/

set_option autoImplicit false

namespace Dynex

open Crypto TransactionTypes

/-! ## Ranges -/

namespace TransfersContainer

section Ranges

variable {α : Type}

theorem mem_iteratorList {inRange : α → Bool} {collection : List α} {it : α × Nat}
    (member : it ∈ iteratorList inRange collection) :
    collection[it.2]? = some it.1 ∧ inRange it.1 = true := by
  obtain ⟨zipped, inside⟩ := List.mem_filter.mp member
  exact ⟨List.mem_zipIdx_iff_getElem?.mp zipped, inside⟩

theorem rangeFirst_eq_some {inRange : α → Bool} {collection : List α} {first : α} {position : Nat}
    (found : rangeFirst inRange collection = some (first, position)) :
    collection = collection.take position ++ first :: collection.drop (position + 1) ∧
      (∀ before ∈ collection.take position, inRange before = false) ∧ inRange first = true := by
  rw [rangeFirst, iteratorList, List.head?_filter, List.find?_eq_some_iff_getElem] at found
  obtain ⟨inside, index, bound, at_index, earlier⟩ := found
  rw [List.getElem_zipIdx, Prod.mk.injEq, Nat.zero_add] at at_index
  obtain ⟨rfl, rfl⟩ := at_index
  have bound' : index < collection.length := by simpa using bound
  refine ⟨?_, ?_, inside⟩
  · conv_lhs => rw [← List.take_append_drop index collection, List.drop_eq_getElem_cons bound']
  · intro before member
    obtain ⟨j, j_bound, rfl⟩ := List.getElem_of_mem member
    have j_lt : j < index := by
      rw [List.length_take] at j_bound
      omega
    have outside := earlier j j_lt
    simpa [List.getElem_zipIdx] using outside

theorem rangeFirst_eq_none {inRange : α → Bool} {collection : List α}
    (empty : rangeFirst inRange collection = none) : ∀ element ∈ collection, inRange element = false := by
  rw [rangeFirst, iteratorList, List.head?_filter, List.find?_eq_none] at empty
  intro element member
  obtain ⟨index, found⟩ := List.mem_iff_getElem?.mp member
  simpa using empty (element, index) (List.mem_zipIdx_iff_getElem?.mpr found)

theorem filter_eraseIdx_rangeFirst {inRange : α → Bool} {collection : List α} {first : α}
    {position : Nat} (found : rangeFirst inRange collection = some (first, position)) :
    collection.filter inRange = first :: (collection.eraseIdx position).filter inRange ∧
      (collection.eraseIdx position).filter (fun element => !inRange element) =
        collection.filter fun element => !inRange element := by
  obtain ⟨split, before, inside⟩ := rangeFirst_eq_some found
  have none_before : (collection.take position).filter inRange = [] :=
    List.filter_eq_nil_iff.mpr fun element member => by simp [before element member]
  have all_before : (collection.take position).filter (fun element => !inRange element) =
      collection.take position :=
    List.filter_eq_self.mpr fun element member => by simp [before element member]
  rw [List.eraseIdx_eq_take_drop_succ]
  constructor
  · conv_lhs => rw [split]
    simp [List.filter_append, none_before, inside]
  · conv_rhs => rw [split]
    simp [List.filter_append, all_before, inside]

theorem rangeFirst_append_singleton {inRange : α → Bool} {collection : List α} {last : α}
    (outside : ∀ element ∈ collection, inRange element = false) (inside : inRange last = true) :
    rangeFirst inRange (collection ++ [last]) = some (last, collection.length) := by
  have none_before : collection.zipIdx.filter (fun it => inRange it.1) = [] :=
    List.filter_eq_nil_iff.mpr fun it member => by
      simpa using outside it.1 (List.mem_of_getElem? (List.mem_zipIdx_iff_getElem?.mp member))
  rw [rangeFirst, iteratorList, List.zipIdx_append, List.filter_append, none_before]
  simp [inside]

theorem perm_eraseIdx_of_getElem? {collection : List α} {element : α} {position : Nat}
    (found : collection[position]? = some element) :
    (element :: collection.eraseIdx position).Perm collection := by
  obtain ⟨bound, rfl⟩ := List.getElem?_eq_some_iff.mp found
  exact List.getElem_cons_eraseIdx_perm bound

end Ranges

end TransfersContainer

/-! ## Transfers apart from their flags -/

def TransactionOutputInformationEx.hidden (transfer : TransactionOutputInformationEx) :
    TransactionOutputInformationEx :=
  transfer.withVisible false

def SpentTransactionOutput.hidden (transfer : SpentTransactionOutput) : SpentTransactionOutput :=
  transfer.withVisible false

namespace TransactionOutputInformationEx

variable (transfer : TransactionOutputInformationEx) (visible : Bool)

@[simp] theorem hidden_withVisible : (transfer.withVisible visible).hidden = transfer.hidden := rfl

@[simp] theorem toTransactionOutputInformationIn_withVisible :
    (transfer.withVisible visible).toTransactionOutputInformationIn =
      transfer.toTransactionOutputInformationIn := rfl

@[simp] theorem toTransactionOutputInformationIn_hidden :
    transfer.hidden.toTransactionOutputInformationIn = transfer.toTransactionOutputInformationIn :=
  rfl

@[simp] theorem hidden_hidden : transfer.hidden.hidden = transfer.hidden := rfl

end TransactionOutputInformationEx

namespace SpentTransactionOutput

variable (transfer : SpentTransactionOutput) (visible : Bool)

@[simp] theorem hidden_withVisible : (transfer.withVisible visible).hidden = transfer.hidden := rfl

@[simp] theorem toTransactionOutputInformationEx_withVisible :
    (transfer.withVisible visible).toTransactionOutputInformationEx =
      transfer.toTransactionOutputInformationEx.withVisible visible := rfl

@[simp] theorem toTransactionOutputInformationEx_hidden :
    transfer.hidden.toTransactionOutputInformationEx = transfer.toTransactionOutputInformationEx.hidden :=
  rfl

@[simp] theorem spendingTransactionHash_hidden :
    transfer.hidden.spendingTransactionHash = transfer.spendingTransactionHash := rfl

@[simp] theorem hidden_hidden : transfer.hidden.hidden = transfer.hidden := rfl

end SpentTransactionOutput

namespace TransfersContainer

/-- The container with every flag cleared. -/
def hidden (c : TransfersContainer) : TransfersContainer :=
  { c with
    m_unconfirmedTransfers := c.m_unconfirmedTransfers.map TransactionOutputInformationEx.hidden
    m_availableTransfers := c.m_availableTransfers.map TransactionOutputInformationEx.hidden
    m_spentTransfers := c.m_spentTransfers.map SpentTransactionOutput.hidden }

@[simp] theorem hidden_hidden (c : TransfersContainer) : c.hidden.hidden = c.hidden := by
  simp [hidden, Function.comp_def]

theorem map_updateVisibility {α β : Type} {setVisible : α → Bool → α} {view : α → β}
    (keeps : ∀ element visible, view (setVisible element visible) = view element)
    (inRange : α → Bool) (visible : Bool) (collection : List α) :
    (updateVisibility setVisible inRange visible collection).map view = collection.map view := by
  unfold updateVisibility
  rw [List.map_map]
  refine List.map_congr_left fun element _ => ?_
  by_cases inside : inRange element <;> simp [inside, keeps]

theorem foldl_earlier_mem (rest : List (TransactionOutputInformationEx × Nat)) :
    ∀ first, rest.foldl (fun smallest it => if lessTIterator it.1 smallest.1 then it else smallest)
      first ∈ first :: rest := by
  induction rest with
  | nil => exact fun first => List.mem_cons_self
  | cons it rest ih =>
      intro first
      rw [List.foldl_cons]
      split
      · exact List.mem_cons_of_mem _ (ih it)
      · rcases List.mem_cons.mp (ih first) with same | later
        · rw [same]
          exact List.mem_cons_self
        · exact List.mem_cons_of_mem _ (List.mem_cons_of_mem _ later)

theorem minElement_mem {iterators : List (TransactionOutputInformationEx × Nat)}
    {earliest : TransactionOutputInformationEx × Nat} (found : minElement iterators = some earliest) :
    earliest ∈ iterators := by
  cases iterators with
  | nil => cases found
  | cons first rest =>
      cases found
      exact foldl_earlier_mem rest first

theorem map_hidden_showEarliest (inRange : TransactionOutputInformationEx → Bool)
    (available : List TransactionOutputInformationEx) :
    (showEarliest inRange available).map TransactionOutputInformationEx.hidden =
      available.map TransactionOutputInformationEx.hidden := by
  unfold showEarliest
  cases found : minElement (iteratorList inRange available) with
  | none => rfl
  | some earliest =>
      obtain ⟨earliest, position⟩ := earliest
      obtain ⟨at_position, -⟩ := mem_iteratorList (minElement_mem found)
      obtain ⟨bound, at_position⟩ := List.getElem?_eq_some_iff.mp at_position
      dsimp only at bound at_position ⊢
      have bound' : position < (available.map TransactionOutputInformationEx.hidden).length := by
        simpa using bound
      have same : earliest.hidden = (available.map TransactionOutputInformationEx.hidden)[position] := by
        rw [List.getElem_map, at_position]
      rw [List.map_set, TransactionOutputInformationEx.hidden_withVisible, same,
        List.set_getElem_self]

@[simp] theorem hidden_updateTransfersVisibility (keyImage : KeyImage) (c : TransfersContainer) :
    (updateTransfersVisibility keyImage c).hidden = c.hidden := by
  have keeps : ∀ (transfer : TransactionOutputInformationEx) visible,
      (transfer.withVisible visible).hidden = transfer.hidden := fun _ _ => rfl
  have keepsSpent : ∀ (transfer : SpentTransactionOutput) visible,
      (transfer.withVisible visible).hidden = transfer.hidden := fun _ _ => rfl
  unfold updateTransfersVisibility
  dsimp only
  split
  · simp only [hidden, map_updateVisibility keeps, map_updateVisibility keepsSpent]
  · split
    · simp only [hidden, map_updateVisibility keeps, map_hidden_showEarliest]
    · simp only [hidden, map_updateVisibility keeps]

end TransfersContainer

/-! ## Deleting the transfers of a transaction -/

namespace TransfersContainer

variable (transactionHash : Hash)

/-- What the first loop of `deleteTransactionTransfers` leaves, flags apart: the transfers the
transaction spent are available again, after the others. -/
def restoredTransfers (c : TransfersContainer) : TransfersContainer :=
  { c with
    m_availableTransfers := c.m_availableTransfers ++
      (c.m_spentTransfers.filter (·.spendingTransactionHash == transactionHash)).map
        SpentTransactionOutput.toTransactionOutputInformationEx
    m_spentTransfers :=
      c.m_spentTransfers.filter fun spent => !(spent.spendingTransactionHash == transactionHash) }

/-- What `deleteTransactionTransfers` leaves, flags apart. -/
def deletedTransfers (c : TransfersContainer) : TransfersContainer :=
  let restored := restoredTransfers transactionHash c
  { restored with
    m_unconfirmedTransfers := restored.m_unconfirmedTransfers.filter fun transfer =>
      !(transfer.transactionHash == transactionHash)
    m_availableTransfers := restored.m_availableTransfers.filter fun transfer =>
      !(transfer.transactionHash == transactionHash) }

theorem hidden_eraseRange {round : TransfersContainer → Option TransfersContainer}
    (size : TransfersContainer → Nat) (result : TransfersContainer → TransfersContainer)
    (done : ∀ c, round c = none → c.hidden = (result c).hidden)
    (step : ∀ {c c'}, round c = some c' → (result c').hidden = (result c).hidden ∧ size c' < size c) :
    ∀ (rounds : Nat) (c : TransfersContainer), size c ≤ rounds →
      (eraseRange round rounds c).hidden = (result c).hidden := by
  intro rounds
  induction rounds with
  | zero =>
      intro c bounded
      cases stepped : round c with
      | none => exact done c stepped
      | some c' => exact absurd (step stepped).2 (by omega)
  | succ rounds ih =>
      intro c bounded
      unfold eraseRange
      cases stepped : round c with
      | none => exact done c stepped
      | some c' =>
          obtain ⟨same, smaller⟩ := step stepped
          dsimp only
          rw [ih c' (by omega), same]

theorem hidden_restoredTransfers (c : TransfersContainer) :
    (restoredTransfers transactionHash c.hidden).hidden = (restoredTransfers transactionHash c).hidden := by
  simp [restoredTransfers, hidden, List.filter_map, Function.comp_def]

theorem restoreSpent_eq_none {c : TransfersContainer} (empty : restoreSpent transactionHash c = none) :
    c.hidden = (restoredTransfers transactionHash c).hidden := by
  have none_spent := rangeFirst_eq_none (Option.map_eq_none_iff.mp empty)
  have kept : c.m_spentTransfers.filter (fun spent => !(spent.spendingTransactionHash == transactionHash)) =
      c.m_spentTransfers := List.filter_eq_self.mpr fun spent member => by simp [none_spent spent member]
  have taken : c.m_spentTransfers.filter (·.spendingTransactionHash == transactionHash) = [] :=
    List.filter_eq_nil_iff.mpr fun spent member => by simp [none_spent spent member]
  simp [restoredTransfers, kept, taken]

/-- A round of the first loop moves the first transfer the transaction spent, so what the loop
leaves in the end is the same after the round. -/
theorem restoreSpent_eq_some {c c' : TransfersContainer}
    (restored : restoreSpent transactionHash c = some c') :
    (restoredTransfers transactionHash c').hidden = (restoredTransfers transactionHash c).hidden ∧
      (c'.hidden.m_spentTransfers.countP (·.spendingTransactionHash == transactionHash)) <
        c.hidden.m_spentTransfers.countP (·.spendingTransactionHash == transactionHash) := by
  unfold restoreSpent at restored
  obtain ⟨⟨spent, position⟩, found, moved⟩ := Option.map_eq_some_iff.mp restored
  obtain ⟨front, rest⟩ := filter_eraseIdx_rangeFirst found
  let before : TransfersContainer :=
    { c with
      m_availableTransfers := c.m_availableTransfers ++ [spent.toTransactionOutputInformationEx]
      m_spentTransfers := c.m_spentTransfers.eraseIdx position }
  have flags : c'.hidden = before.hidden := by
    rw [← moved]
    dsimp only
    split <;> simp [before]
  have same : restoredTransfers transactionHash before = restoredTransfers transactionHash c := by
    simp [restoredTransfers, before, front, rest]
  constructor
  · rw [← hidden_restoredTransfers, flags, hidden_restoredTransfers, same]
  · have counted : ∀ spentTransfers : List SpentTransactionOutput,
        (spentTransfers.map SpentTransactionOutput.hidden).countP
            (·.spendingTransactionHash == transactionHash) =
          (spentTransfers.filter (·.spendingTransactionHash == transactionHash)).length := by
      intro spentTransfers
      rw [List.countP_map, List.countP_eq_length_filter]
      rfl
    rw [flags]
    simp only [before, hidden, counted, front, List.length_cons]
    omega


section Erase

variable (transfers : TransfersContainer → List TransactionOutputInformationEx)
  (setTransfers : TransfersContainer → List TransactionOutputInformationEx → TransfersContainer)

def erasedTransfers (c : TransfersContainer) : TransfersContainer :=
  setTransfers c ((transfers c).filter fun transfer => !(transfer.transactionHash == transactionHash))

/-! The two loops read and write their transfers through a member of the container: what is
written is read back, and flags apart the rest of the container stays. -/

variable {transfers setTransfers}
  (get_set : ∀ c transferList, transfers (setTransfers c transferList) = transferList)
  (set_set : ∀ c transferList transferList',
    setTransfers (setTransfers c transferList) transferList' = setTransfers c transferList')
  (set_get : ∀ c, setTransfers c (transfers c) = c)
  (hidden_set : ∀ c transferList, (setTransfers c transferList).hidden =
    setTransfers c.hidden (transferList.map TransactionOutputInformationEx.hidden))
  (get_hidden : ∀ c, transfers c.hidden = (transfers c).map TransactionOutputInformationEx.hidden)

include hidden_set get_hidden in
theorem hidden_erasedTransfers (c : TransfersContainer) :
    (erasedTransfers transactionHash transfers setTransfers c.hidden).hidden =
      (erasedTransfers transactionHash transfers setTransfers c).hidden := by
  simp only [erasedTransfers, hidden_set, get_hidden, hidden_hidden, List.filter_map, List.map_map]
  rfl

include set_get in
theorem eraseTransfer_eq_none {c : TransfersContainer}
    (empty : eraseTransfer transfers setTransfers transactionHash c = none) :
    c.hidden = (erasedTransfers transactionHash transfers setTransfers c).hidden := by
  have none_paid := rangeFirst_eq_none (Option.map_eq_none_iff.mp empty)
  have kept : (transfers c).filter (fun transfer => !(transfer.transactionHash == transactionHash)) =
      transfers c := List.filter_eq_self.mpr fun transfer member => by simp [none_paid transfer member]
  rw [erasedTransfers, kept, set_get]

include get_set set_set hidden_set get_hidden in
/-- A round of the second or the third loop erases the first transfer the transaction paid, so
what the loop leaves in the end is the same after the round. -/
theorem eraseTransfer_eq_some {c c' : TransfersContainer}
    (erased : eraseTransfer transfers setTransfers transactionHash c = some c') :
    (erasedTransfers transactionHash transfers setTransfers c').hidden =
        (erasedTransfers transactionHash transfers setTransfers c).hidden ∧
      (transfers c'.hidden).countP (·.transactionHash == transactionHash) <
        (transfers c.hidden).countP (·.transactionHash == transactionHash) := by
  unfold eraseTransfer at erased
  obtain ⟨⟨transfer, position⟩, found, moved⟩ := Option.map_eq_some_iff.mp erased
  obtain ⟨front, rest⟩ := filter_eraseIdx_rangeFirst found
  let before := setTransfers c ((transfers c).eraseIdx position)
  have flags : c'.hidden = before.hidden := by
    rw [← moved]
    dsimp only
    split <;> simp [before]
  have same : erasedTransfers transactionHash transfers setTransfers before =
      erasedTransfers transactionHash transfers setTransfers c := by
    simp only [erasedTransfers, before, get_set, set_set, rest]
  have counted : ∀ d : TransfersContainer, (transfers d.hidden).countP
      (·.transactionHash == transactionHash) =
        ((transfers d).filter (·.transactionHash == transactionHash)).length := by
    intro d
    rw [get_hidden, List.countP_map, List.countP_eq_length_filter]
    rfl
  constructor
  · rw [← hidden_erasedTransfers transactionHash hidden_set get_hidden, flags,
      hidden_erasedTransfers transactionHash hidden_set get_hidden, same]
  · rw [flags, counted, counted, front, List.length_cons]
    simp only [before, get_set]
    omega

variable (transfers setTransfers) in
include get_set set_set set_get hidden_set get_hidden in
theorem hidden_eraseRange_eraseTransfer {c start : TransfersContainer} (same : c.hidden = start.hidden) :
    (eraseRange (eraseTransfer transfers setTransfers transactionHash) (transfers c).length c).hidden =
      (erasedTransfers transactionHash transfers setTransfers start).hidden := by
  have bounded : (transfers c.hidden).countP (·.transactionHash == transactionHash) ≤
      (transfers c).length := by
    rw [get_hidden, List.countP_map]
    exact List.countP_le_length
  rw [hidden_eraseRange (fun d => (transfers d.hidden).countP (·.transactionHash == transactionHash))
      (erasedTransfers transactionHash transfers setTransfers)
      (fun _ => eraseTransfer_eq_none transactionHash set_get)
      (eraseTransfer_eq_some transactionHash get_set set_set hidden_set get_hidden) _ c bounded,
    ← hidden_erasedTransfers transactionHash hidden_set get_hidden, same,
    hidden_erasedTransfers transactionHash hidden_set get_hidden]

end Erase

theorem hidden_deleteTransactionTransfers (c : TransfersContainer) :
    (deleteTransactionTransfers transactionHash c).hidden =
      (deletedTransfers transactionHash c).hidden := by
  have bounded : c.hidden.m_spentTransfers.countP (·.spendingTransactionHash == transactionHash) ≤
      c.m_spentTransfers.length := by
    simp only [hidden, List.countP_map]
    exact List.countP_le_length
  have restoring := hidden_eraseRange
    (fun d => d.hidden.m_spentTransfers.countP (·.spendingTransactionHash == transactionHash))
    (restoredTransfers transactionHash) (fun _ => restoreSpent_eq_none transactionHash)
    (restoreSpent_eq_some transactionHash) _ c bounded
  have unconfirmed := hidden_eraseRange_eraseTransfer transactionHash
    (·.m_unconfirmedTransfers) (fun c transfers => { c with m_unconfirmedTransfers := transfers })
    (fun _ _ => rfl) (fun _ _ _ => rfl) (fun _ => rfl) (fun _ _ => rfl) (fun _ => rfl) restoring
  exact hidden_eraseRange_eraseTransfer transactionHash
    (·.m_availableTransfers) (fun c transfers => { c with m_availableTransfers := transfers })
    (fun _ _ => rfl) (fun _ _ _ => rfl) (fun _ => rfl) (fun _ _ => rfl) (fun _ => rfl) unconfirmed

end TransfersContainer

/-! ## The rounds of adding a transaction -/

namespace TransfersContainer

section Running

variable {α β : Type}

theorem run_bind_of_ok {method : Method α} {c c' : TransfersContainer} {value : α}
    (ran : method.run c = .ok value c') (next : α → Method β) :
    (method >>= next).run c = (next value).run c' := by
  rw [EStateM.run_bind, ran]

theorem run_bind_of_error {method : Method α} {c c' : TransfersContainer} {message : String}
    (threw : method.run c = .error message c') (next : α → Method β) :
    (method >>= next).run c = .error message c' := by
  rw [EStateM.run_bind, threw]

theorem run_tryCatch (body : Method α) (handler : String → Method α) (c : TransfersContainer) :
    (tryCatch body handler).run c =
      match body.run c with
      | .ok value c' => .ok value c'
      | .error message c' => (handler message).run c' := by
  show EStateM.tryCatch body handler c = _
  unfold EStateM.tryCatch EStateM.run
  cases body c <;> rfl

end Running

def updateKeyVisibility (transfer : TransactionOutputInformationIn) (c : TransfersContainer) :
    TransfersContainer :=
  if transfer.type == .Key then updateTransfersVisibility transfer.keyImage c else c

@[simp] theorem hidden_updateKeyVisibility (transfer : TransactionOutputInformationIn)
    (c : TransfersContainer) : (updateKeyVisibility transfer c).hidden = c.hidden := by
  unfold updateKeyVisibility
  split <;> simp

/-- The round of `addTransactionInputs` that spends the available transfer at `position`. -/
def spendAvailable (block : TransactionBlockInfo) (tx : TransactionReader) (i : Nat)
    (spending : TransactionOutputInformationEx) (position : Nat) (c : TransfersContainer) :
    TransfersContainer :=
  let c := copyToSpent block tx i spending c
  updateKeyVisibility spending.toTransactionOutputInformationIn
    { c with m_availableTransfers := c.m_availableTransfers.eraseIdx position }

section Records

variable (block : TransactionBlockInfo) (tx : TransactionReader) (i : Nat)

@[simp] theorem toTransactionOutputInformationIn_outputInformation
    (transfer : TransactionOutputInformationIn) :
    (outputInformation block tx transfer).toTransactionOutputInformationIn =
      { transfer with transactionHash := tx.transactionHash } := rfl

@[simp] theorem toTransactionOutputInformationEx_spentOutput (output : TransactionOutputInformationEx) :
    (spentOutput block tx i output).toTransactionOutputInformationEx = output := rfl

@[simp] theorem spendingTransactionHash_spentOutput (output : TransactionOutputInformationEx) :
    (spentOutput block tx i output).spendingTransactionHash = tx.transactionHash := rfl

end Records

theorem hasDescriptor_key_iff {keyImage : KeyImage} {info : TransactionOutputInformationIn} :
    info.hasDescriptor (.key keyImage) = true ↔ info.type = .Key ∧ info.keyImage = keyImage := by
  unfold TransactionOutputInformationIn.hasDescriptor TransactionOutputInformationIn.descriptor
  cases info.type <;> simp

theorem hasDescriptor_multisignature_iff {amount : UInt64} {globalOutputIndex : UInt32}
    {info : TransactionOutputInformationIn} :
    info.hasDescriptor (.multisignature amount globalOutputIndex) = true ↔
      info.type = .Multisignature ∧ info.amount = amount ∧
        info.globalOutputIndex = globalOutputIndex := by
  unfold TransactionOutputInformationIn.hasDescriptor TransactionOutputInformationIn.descriptor
  cases info.type <;> simp

theorem findFirstByAmount_mem {amount : UInt64}
    {iterators : List (TransactionOutputInformationEx × Nat)} {it : TransactionOutputInformationEx × Nat}
    (found : findFirstByAmount amount iterators = some it) : it ∈ iterators :=
  List.mem_mergeSort.mp (List.mem_of_find?_eq_some found)

/-- A round of `addTransactionOutputs` throws before it changes anything, or adds the transfer:
unconfirmed where the block is, available otherwise, a multisignature one only where no
transfer holds the output. -/
theorem run_addTransactionOutput (block : TransactionBlockInfo) (tx : TransactionReader)
    (transfer : TransactionOutputInformationIn) (c : TransfersContainer) :
    (∃ message, (addTransactionOutput block tx transfer).run c = .error message c) ∨
    (block.height = WALLET_LEGACY_UNCONFIRMED_TRANSACTION_HEIGHT ∧
      (addTransactionOutput block tx transfer).run c =
        .ok () (updateKeyVisibility transfer
          { c with m_unconfirmedTransfers :=
              c.m_unconfirmedTransfers ++ [outputInformation block tx transfer] })) ∨
    (block.height ≠ WALLET_LEGACY_UNCONFIRMED_TRANSACTION_HEIGHT ∧
      (transfer.type = .Multisignature →
        (c.m_availableTransfers.any
            (·.hasDescriptor (.multisignature transfer.amount transfer.globalOutputIndex)) ||
          c.m_spentTransfers.any
            (·.hasDescriptor (.multisignature transfer.amount transfer.globalOutputIndex))) = false) ∧
      (addTransactionOutput block tx transfer).run c =
        .ok () (updateKeyVisibility transfer
          { c with m_availableTransfers :=
              c.m_availableTransfers ++ [outputInformation block tx transfer] })) := by
  unfold addTransactionOutput updateKeyVisibility
  cases unconfirmedBlock : block.height == WALLET_LEGACY_UNCONFIRMED_TRANSACTION_HEIGHT <;>
    cases unconfirmedTransfer :
      transfer.globalOutputIndex == UNCONFIRMED_TRANSACTION_GLOBAL_OUTPUT_INDEX <;>
    simp only [EStateM.run_bind, EStateM.run_get, bne_self_eq_false, Bool.bne_true,
      Bool.bne_false, Bool.not_false, Bool.false_eq_true, if_false, if_true, EStateM.run_throw,
      toTransactionOutputInformationIn_outputInformation]
  · have confirmed : block.height ≠ WALLET_LEGACY_UNCONFIRMED_TRANSACTION_HEIGHT := by
      simpa using unconfirmedBlock
    by_cases key : transfer.type = .Key
    · simp only [key, beq_self_eq_true, if_true]
      split
      · exact Or.inl ⟨_, rfl⟩
      · exact Or.inr (Or.inr ⟨confirmed, nofun, rfl⟩)
    · have notKey : (transfer.type == .Key) = false := by simpa using key
      simp only [notKey, Bool.false_eq_true, if_false]
      by_cases multisignature : transfer.type = .Multisignature
      · simp only [multisignature, beq_self_eq_true, if_true]
        split
        · exact Or.inl ⟨_, rfl⟩
        · rename_i free
          exact Or.inr (Or.inr ⟨confirmed, fun _ => Bool.eq_false_iff.mpr free, rfl⟩)
      · have notMultisignature : (transfer.type == .Multisignature) = false := by
          simpa using multisignature
        simp only [notMultisignature, Bool.false_eq_true, if_false]
        exact Or.inr (Or.inr ⟨confirmed, fun is => absurd is multisignature, rfl⟩)
  · exact Or.inl ⟨_, rfl⟩
  · exact Or.inl ⟨_, rfl⟩
  · refine Or.inr (Or.inl ⟨by simpa using unconfirmedBlock, ?_⟩)
    by_cases key : transfer.type = .Key
    · simp only [key, beq_self_eq_true, if_true]
      rfl
    · have notKey : (transfer.type == .Key) = false := by simpa using key
      simp only [notKey, Bool.false_eq_true, if_false]
      rfl

/-- A round of `addTransactionInputs` throws before it changes anything, spends nothing, or
spends an available transfer: a key output whose key image is not spent yet, or a
multisignature output. -/
theorem run_addTransactionInput (block : TransactionBlockInfo) (tx : TransactionReader) (i : Nat)
    (input : TransactionInput) (c : TransfersContainer) :
    (∃ message, (addTransactionInput block tx i input).run c = .error message c) ∨
    (addTransactionInput block tx i input).run c = .ok false c ∨
    ∃ spending position, c.m_availableTransfers[position]? = some spending ∧
      (spending.type = .Key ∧
          c.m_spentTransfers.all (fun spent => !spent.hasDescriptor (.key spending.keyImage)) ∨
        spending.type = .Multisignature) ∧
      (addTransactionInput block tx i input).run c =
        .ok true (spendAvailable block tx i spending position c) := by
  cases input with
  | base _ => exact Or.inr (Or.inl rfl)
  | key input =>
      unfold addTransactionInput
      simp only [EStateM.run_bind, EStateM.run_get]
      split
      · exact Or.inl ⟨_, rfl⟩
      · rename_i unspent
        split
        · split
          · exact Or.inl ⟨_, rfl⟩
          · exact Or.inr (Or.inl rfl)
        · cases found : findFirstByAmount input.amount _ with
          | none => exact Or.inl ⟨_, rfl⟩
          | some it =>
              obtain ⟨spending, position⟩ := it
              obtain ⟨at_position, inside⟩ := mem_iteratorList (findFirstByAmount_mem found)
              dsimp only at at_position inside
              obtain ⟨key, same⟩ := hasDescriptor_key_iff.mp inside
              refine Or.inr (Or.inr ⟨spending, position, at_position, Or.inl ⟨key, ?_⟩, ?_⟩)
              · simpa [same] using unspent
              · simp [spendAvailable, updateKeyVisibility, key, same]
  | multisignature input =>
      unfold addTransactionInput
      simp only [EStateM.run_bind, EStateM.run_get]
      cases found : rangeFirst _ c.m_availableTransfers with
      | none => exact Or.inr (Or.inl rfl)
      | some it =>
          obtain ⟨spending, position⟩ := it
          obtain ⟨at_position, inside⟩ := mem_iteratorList (List.mem_of_mem_head? found)
          dsimp only at at_position inside
          obtain ⟨multisignature, -⟩ := hasDescriptor_multisignature_iff.mp inside
          refine Or.inr (Or.inr ⟨spending, position, at_position, Or.inr multisignature, ?_⟩)
          simp [spendAvailable, updateKeyVisibility, multisignature]

end TransfersContainer

/-! ## Multisignature outputs -/

namespace TransfersContainer

/-- A multisignature output is among the available and the spent transfers together once at most:
`addTransactionOutputs` and `markTransactionConfirmed` make one available only where neither holds
it, and spending moves it from one to the other. -/
def MultisignatureUnique (c : TransfersContainer) : Prop :=
  ∀ amount globalOutputIndex,
    c.m_availableTransfers.countP (·.hasDescriptor (.multisignature amount globalOutputIndex)) +
      c.m_spentTransfers.countP (·.hasDescriptor (.multisignature amount globalOutputIndex)) ≤ 1

theorem countP_hidden (descriptor : SpentOutputDescriptor) (transfers : List TransactionOutputInformationEx) :
    (transfers.map TransactionOutputInformationEx.hidden).countP (·.hasDescriptor descriptor) =
      transfers.countP (·.hasDescriptor descriptor) := by
  rw [List.countP_map]
  rfl

theorem countP_spent_hidden (descriptor : SpentOutputDescriptor)
    (spentTransfers : List SpentTransactionOutput) :
    (spentTransfers.map SpentTransactionOutput.hidden).countP (·.hasDescriptor descriptor) =
      spentTransfers.countP (·.hasDescriptor descriptor) := by
  rw [List.countP_map]
  rfl

theorem MultisignatureUnique.of_perm {c d : TransfersContainer}
    (available : d.hidden.m_availableTransfers.Perm c.hidden.m_availableTransfers)
    (spent : d.hidden.m_spentTransfers = c.hidden.m_spentTransfers)
    (unique : MultisignatureUnique c) : MultisignatureUnique d := by
  intro amount globalOutputIndex
  have available := available.countP_eq
    (·.hasDescriptor (.multisignature amount globalOutputIndex))
  have spent := congrArg (List.countP
    (·.hasDescriptor (.multisignature amount globalOutputIndex))) spent
  simp only [hidden, countP_hidden, countP_spent_hidden] at available spent
  rw [available, spent]
  exact unique amount globalOutputIndex

theorem MultisignatureUnique.of_hidden {c d : TransfersContainer} (same : c.hidden = d.hidden)
    (unique : MultisignatureUnique c) : MultisignatureUnique d :=
  unique.of_perm (.of_eq (congrArg (·.m_availableTransfers) same.symm))
    (congrArg (·.m_spentTransfers) same.symm)

theorem MultisignatureUnique.append {c : TransfersContainer} (unique : MultisignatureUnique c)
    {info : TransactionOutputInformationEx}
    (free : info.type = .Multisignature →
      (c.m_availableTransfers.any (·.hasDescriptor (.multisignature info.amount info.globalOutputIndex)) ||
        c.m_spentTransfers.any (·.hasDescriptor (.multisignature info.amount info.globalOutputIndex))) =
          false) :
    MultisignatureUnique { c with m_availableTransfers := c.m_availableTransfers ++ [info] } := by
  intro amount globalOutputIndex
  simp only [List.countP_append, List.countP_singleton]
  split
  · rename_i inside
    obtain ⟨multisignature, rfl, rfl⟩ := hasDescriptor_multisignature_iff.mp inside
    obtain ⟨noneAvailable, noneSpent⟩ := Bool.or_eq_false_iff.mp (free multisignature)
    rw [List.countP_eq_zero.mpr fun transfer member => by
        simpa using List.any_eq_false.mp noneAvailable transfer member,
      List.countP_eq_zero.mpr fun spent member => by
        simpa using List.any_eq_false.mp noneSpent spent member]
  · simpa using unique amount globalOutputIndex

theorem MultisignatureUnique.spend {c : TransfersContainer} (unique : MultisignatureUnique c)
    {spending : TransactionOutputInformationEx} {position : Nat}
    (found : c.m_availableTransfers[position]? = some spending) {spent : SpentTransactionOutput}
    (moved : spent.toTransactionOutputInformationEx = spending) :
    MultisignatureUnique { c with
      m_availableTransfers := c.m_availableTransfers.eraseIdx position
      m_spentTransfers := c.m_spentTransfers ++ [spent] } := by
  subst moved
  intro amount globalOutputIndex
  have before := unique amount globalOutputIndex
  rw [← (perm_eraseIdx_of_getElem? found).countP_eq, List.countP_cons] at before
  simp only [List.countP_append, List.countP_singleton]
  by_cases inside : spent.hasDescriptor (.multisignature amount globalOutputIndex) = true
  · simp only [inside, if_true] at before ⊢
    omega
  · simp only [inside, Bool.false_eq_true, if_false] at before ⊢
    omega

end TransfersContainer

/-! ## A call `addTransaction` before it throws -/

namespace TransfersContainer

section Interrupted

variable (block : TransactionBlockInfo) (transactionHash : Hash)

/-- No transfer of `s` was paid by the transaction, and none spent by it. -/
structure Untouched (s : TransfersContainer) : Prop where
  unconfirmed : ∀ transfer ∈ s.m_unconfirmedTransfers, transfer.transactionHash ≠ transactionHash
  available : ∀ transfer ∈ s.m_availableTransfers, transfer.transactionHash ≠ transactionHash
  spent : ∀ spent ∈ s.m_spentTransfers, spent.spendingTransactionHash ≠ transactionHash

/-- What a call adding the transaction of hash `transactionHash`, at `block`, may have done to the
container `s` it was made on, by the time the container is `c`: flags apart, it has added
transfers the transaction pays, available ones only at a block, and it has moved available
transfers to the spent ones of the transaction; it has changed nothing else. -/
structure Interrupted (s c : TransfersContainer) : Prop where
  transactions : c.m_transactions = s.m_transactions
  currentHeight : c.m_currentHeight = s.m_currentHeight
  unconfirmed : c.hidden.m_unconfirmedTransfers.filter
    (fun transfer => !(transfer.transactionHash == transactionHash)) = s.hidden.m_unconfirmedTransfers
  spent : c.hidden.m_spentTransfers.filter
    (fun spent => !(spent.spendingTransactionHash == transactionHash)) = s.hidden.m_spentTransfers
  available : ((restoredTransfers transactionHash c.hidden).m_availableTransfers.filter
    fun transfer => !(transfer.transactionHash == transactionHash)).Perm s.hidden.m_availableTransfers
  paidAtBlock : ∀ transfer ∈ (restoredTransfers transactionHash c.hidden).m_availableTransfers,
    transfer.transactionHash = transactionHash →
      block.height ≠ WALLET_LEGACY_UNCONFIRMED_TRANSACTION_HEIGHT
  multisignature : MultisignatureUnique c

variable {block transactionHash}

theorem Interrupted.start {s : TransfersContainer} (untouched : Untouched transactionHash s)
    (unique : MultisignatureUnique s) : Interrupted block transactionHash s s := by
  have unconfirmed : s.hidden.m_unconfirmedTransfers.filter
      (fun transfer => !(transfer.transactionHash == transactionHash)) =
        s.hidden.m_unconfirmedTransfers :=
    List.filter_eq_self.mpr fun transfer member => by
      obtain ⟨original, inside, rfl⟩ := List.mem_map.mp member
      simpa using untouched.unconfirmed original inside
  have spent : s.hidden.m_spentTransfers.filter
      (fun spent => !(spent.spendingTransactionHash == transactionHash)) =
        s.hidden.m_spentTransfers :=
    List.filter_eq_self.mpr fun spent member => by
      obtain ⟨original, inside, rfl⟩ := List.mem_map.mp member
      simpa using untouched.spent original inside
  have restored : (restoredTransfers transactionHash s.hidden).m_availableTransfers =
      s.hidden.m_availableTransfers := by
    have none_spent : s.hidden.m_spentTransfers.filter
        (·.spendingTransactionHash == transactionHash) = [] :=
      List.filter_eq_nil_iff.mpr fun spent member => by
        obtain ⟨original, inside, rfl⟩ := List.mem_map.mp member
        simpa using untouched.spent original inside
    simp [restoredTransfers, none_spent]
  have unpaid : ∀ transfer ∈ s.hidden.m_availableTransfers, transfer.transactionHash ≠ transactionHash := by
    intro transfer member
    obtain ⟨original, inside, rfl⟩ := List.mem_map.mp member
    simpa using untouched.available original inside
  refine ⟨rfl, rfl, unconfirmed, spent, ?_, ?_, unique⟩
  · rw [restored, List.filter_eq_self.mpr fun transfer member => by simpa using unpaid transfer member]
  · intro transfer member paid
    rw [restored] at member
    exact absurd paid (unpaid transfer member)

theorem Interrupted.of_hidden {s c d : TransfersContainer}
    (interrupted : Interrupted block transactionHash s c) (same : d.hidden = c.hidden) :
    Interrupted block transactionHash s d where
  transactions := (congrArg TransfersContainer.m_transactions same).trans interrupted.transactions
  currentHeight := (congrArg TransfersContainer.m_currentHeight same).trans interrupted.currentHeight
  unconfirmed := same ▸ interrupted.unconfirmed
  spent := same ▸ interrupted.spent
  available := same ▸ interrupted.available
  paidAtBlock := same ▸ interrupted.paidAtBlock
  multisignature := interrupted.multisignature.of_hidden same.symm

theorem Interrupted.addUnconfirmed {s c : TransfersContainer}
    (interrupted : Interrupted block transactionHash s c) {info : TransactionOutputInformationEx}
    (paid : info.transactionHash = transactionHash) :
    Interrupted block transactionHash s
      { c with m_unconfirmedTransfers := c.m_unconfirmedTransfers ++ [info] } where
  transactions := interrupted.transactions
  currentHeight := interrupted.currentHeight
  unconfirmed := by simpa [hidden, List.filter_append, paid] using interrupted.unconfirmed
  spent := interrupted.spent
  available := interrupted.available
  paidAtBlock := interrupted.paidAtBlock
  multisignature := interrupted.multisignature

theorem Interrupted.addAvailable {s c : TransfersContainer}
    (interrupted : Interrupted block transactionHash s c) {info : TransactionOutputInformationEx}
    (paid : info.transactionHash = transactionHash)
    (confirmed : block.height ≠ WALLET_LEGACY_UNCONFIRMED_TRANSACTION_HEIGHT)
    (free : info.type = .Multisignature →
      (c.m_availableTransfers.any (·.hasDescriptor (.multisignature info.amount info.globalOutputIndex)) ||
        c.m_spentTransfers.any (·.hasDescriptor (.multisignature info.amount info.globalOutputIndex))) =
          false) :
    Interrupted block transactionHash s
      { c with m_availableTransfers := c.m_availableTransfers ++ [info] } where
  transactions := interrupted.transactions
  currentHeight := interrupted.currentHeight
  unconfirmed := interrupted.unconfirmed
  spent := interrupted.spent
  available := by
    simpa [restoredTransfers, hidden, List.filter_append, paid] using interrupted.available
  paidAtBlock := by
    intro transfer member isPaid
    simp only [restoredTransfers, hidden, List.map_append, List.mem_append, List.map_cons,
      List.map_nil, List.mem_singleton] at member
    rcases member with (old | added) | restored
    · exact interrupted.paidAtBlock transfer (List.mem_append_left _ old) isPaid
    · exact confirmed
    · exact interrupted.paidAtBlock transfer (List.mem_append_right _ restored) isPaid
  multisignature := interrupted.multisignature.append free

theorem Interrupted.spend {s c : TransfersContainer}
    (interrupted : Interrupted block transactionHash s c) {spending : TransactionOutputInformationEx}
    {position : Nat} (found : c.m_availableTransfers[position]? = some spending)
    {spent : SpentTransactionOutput} (moved : spent.toTransactionOutputInformationEx = spending)
    (spends : spent.spendingTransactionHash = transactionHash) :
    Interrupted block transactionHash s { c with
      m_availableTransfers := c.m_availableTransfers.eraseIdx position
      m_spentTransfers := c.m_spentTransfers ++ [spent] } := by
  have restored : ((restoredTransfers transactionHash
      { c with
        m_availableTransfers := c.m_availableTransfers.eraseIdx position
        m_spentTransfers := c.m_spentTransfers ++ [spent] }.hidden).m_availableTransfers).Perm
        (restoredTransfers transactionHash c.hidden).m_availableTransfers := by
    have back := ((perm_eraseIdx_of_getElem? found).map TransactionOutputInformationEx.hidden).append_right
      (((c.m_spentTransfers.map SpentTransactionOutput.hidden).filter
        (·.spendingTransactionHash == transactionHash)).map
          SpentTransactionOutput.toTransactionOutputInformationEx)
    simp only [restoredTransfers, hidden, List.map_append, List.map_cons, List.map_nil,
      List.filter_append, List.filter_cons, SpentTransactionOutput.spendingTransactionHash_hidden,
      spends, beq_self_eq_true, if_true, List.filter_nil] at back ⊢
    refine List.Perm.trans ?_ back
    rw [← moved, ← List.append_assoc]
    exact List.perm_append_singleton _ _
  refine ⟨interrupted.transactions, interrupted.currentHeight, interrupted.unconfirmed, ?_,
    (restored.filter _).trans interrupted.available,
    fun transfer member => interrupted.paidAtBlock transfer (restored.subset member),
    interrupted.multisignature.spend found moved⟩
  simpa [hidden, List.filter_append, spends] using interrupted.spent

theorem copyToSpent_of_free {tx : TransactionReader} {i : Nat} {output : TransactionOutputInformationEx}
    {c : TransfersContainer}
    (free : output.descriptor.any (fun descriptor => c.m_spentTransfers.any (·.hasDescriptor descriptor)) =
      false) :
    copyToSpent block tx i output c =
      { c with m_spentTransfers := c.m_spentTransfers ++ [spentOutput block tx i output] } := by
  unfold copyToSpent
  rw [if_neg (by simpa using free)]

/-- What the round spending an available transfer leaves, flags apart: the output spent is free
in the unique index, a key output because the round checked its key image, a multisignature one
because it is available. -/
theorem hidden_spendAvailable {tx : TransactionReader} {i : Nat} {c : TransfersContainer}
    {spending : TransactionOutputInformationEx} {position : Nat}
    (found : c.m_availableTransfers[position]? = some spending)
    (kind : spending.type = .Key ∧
        c.m_spentTransfers.all (fun spent => !spent.hasDescriptor (.key spending.keyImage)) ∨
      spending.type = .Multisignature)
    (unique : MultisignatureUnique c) :
    (spendAvailable block tx i spending position c).hidden =
      { c with
        m_availableTransfers := c.m_availableTransfers.eraseIdx position
        m_spentTransfers := c.m_spentTransfers ++ [spentOutput block tx i spending] }.hidden := by
  have free : spending.descriptor.any
      (fun descriptor => c.m_spentTransfers.any (·.hasDescriptor descriptor)) = false := by
    rcases kind with ⟨key, unspent⟩ | multisignature
    · simpa [TransactionOutputInformationIn.descriptor, key] using unspent
    · have available : 0 < c.m_availableTransfers.countP
          (·.hasDescriptor (.multisignature spending.amount spending.globalOutputIndex)) :=
        List.countP_pos_iff.mpr ⟨spending, List.mem_of_getElem? found,
          hasDescriptor_multisignature_iff.mpr ⟨multisignature, rfl, rfl⟩⟩
      have none_spent := unique spending.amount spending.globalOutputIndex
      have zero : c.m_spentTransfers.countP
          (·.hasDescriptor (.multisignature spending.amount spending.globalOutputIndex)) = 0 := by
        omega
      simpa [TransactionOutputInformationIn.descriptor, multisignature, List.countP_eq_zero] using zero
  unfold spendAvailable
  rw [hidden_updateKeyVisibility, copyToSpent_of_free free]

end Interrupted

section Loops

variable {block : TransactionBlockInfo} {tx : TransactionReader} {s start : TransfersContainer}

/-- A run of the loop of `addTransactionOutputs`, returned or thrown, leaves an interrupted call,
and one that returns that nothing was added leaves the container as the loop found it. -/
theorem addTransactionOutputs_interrupted (transfers : List TransactionOutputInformationIn) :
    ∀ (outputsAdded : Bool) (c : TransfersContainer),
      Interrupted block tx.transactionHash s c → (outputsAdded = false → c = start) →
      (∀ added c', (addTransactionOutputs block tx outputsAdded transfers).run c = .ok added c' →
          Interrupted block tx.transactionHash s c' ∧ (added = false → c' = start)) ∧
      (∀ message c', (addTransactionOutputs block tx outputsAdded transfers).run c =
          .error message c' → Interrupted block tx.transactionHash s c') := by
  induction transfers with
  | nil =>
      intro outputsAdded c interrupted unchanged
      refine ⟨fun added c' ran => ?_, fun message c' ran => ?_⟩
      · cases ran
        exact ⟨interrupted, unchanged⟩
      · cases ran
  | cons transfer transfers ih =>
      intro outputsAdded c interrupted unchanged
      rw [addTransactionOutputs]
      rcases run_addTransactionOutput block tx transfer c with
        ⟨message, threw⟩ | ⟨-, ran⟩ | ⟨confirmed, free, ran⟩
      · rw [run_bind_of_error threw]
        refine ⟨fun added c' ran => (by cases ran), fun message c' ran => ?_⟩
        cases ran
        exact interrupted
      · rw [run_bind_of_ok ran]
        exact ih true _ ((interrupted.addUnconfirmed rfl).of_hidden (hidden_updateKeyVisibility _ _))
          nofun
      · rw [run_bind_of_ok ran]
        exact ih true _
          ((interrupted.addAvailable rfl confirmed free).of_hidden (hidden_updateKeyVisibility _ _))
          nofun

/-- The same for the loop of `addTransactionInputs`. -/
theorem addTransactionInputsFrom_interrupted (inputs : List TransactionInput) :
    ∀ (i : Nat) (inputsAdded : Bool) (c : TransfersContainer),
      Interrupted block tx.transactionHash s c → (inputsAdded = false → c = start) →
      (∀ added c', (addTransactionInputsFrom block tx i inputsAdded inputs).run c = .ok added c' →
          Interrupted block tx.transactionHash s c' ∧ (added = false → c' = start)) ∧
      (∀ message c', (addTransactionInputsFrom block tx i inputsAdded inputs).run c =
          .error message c' → Interrupted block tx.transactionHash s c') := by
  induction inputs with
  | nil =>
      intro i inputsAdded c interrupted unchanged
      refine ⟨fun added c' ran => ?_, fun message c' ran => ?_⟩
      · cases ran
        exact ⟨interrupted, unchanged⟩
      · cases ran
  | cons input inputs ih =>
      intro i inputsAdded c interrupted unchanged
      rw [addTransactionInputsFrom]
      rcases run_addTransactionInput block tx i input c with
        ⟨message, threw⟩ | ran | ⟨spending, position, found, kind, ran⟩
      · rw [run_bind_of_error threw]
        refine ⟨fun added c' ran => (by cases ran), fun message c' ran => ?_⟩
        cases ran
        exact interrupted
      · rw [run_bind_of_ok ran, Bool.or_false]
        exact ih (i + 1) inputsAdded c interrupted unchanged
      · rw [run_bind_of_ok ran]
        have spent := interrupted.spend found (toTransactionOutputInformationEx_spentOutput block tx i spending)
          (spendingTransactionHash_spentOutput block tx i spending)
        exact ih (i + 1) _ _ (spent.of_hidden
          (hidden_spendAvailable found kind interrupted.multisignature)) (by simp)

end Loops

end TransfersContainer

/-! ## What a throwing `addTransaction` leaves -/

namespace TransfersContainer

/-- `c` holds what `s` holds, flags apart and up to the order of the available transfers. -/
structure Restored (s c : TransfersContainer) : Prop where
  transactions : c.m_transactions = s.m_transactions
  currentHeight : c.m_currentHeight = s.m_currentHeight
  unconfirmed : c.hidden.m_unconfirmedTransfers = s.hidden.m_unconfirmedTransfers
  spent : c.hidden.m_spentTransfers = s.hidden.m_spentTransfers
  available : c.hidden.m_availableTransfers.Perm s.hidden.m_availableTransfers

theorem Restored.refl (s : TransfersContainer) : Restored s s :=
  ⟨rfl, rfl, rfl, rfl, .refl _⟩

theorem Interrupted.restored {block : TransactionBlockInfo} {transactionHash : Hash}
    {s c : TransfersContainer} (interrupted : Interrupted block transactionHash s c) :
    Restored s (deleteTransactionTransfers transactionHash c) := by
  have deleted := hidden_deleteTransactionTransfers transactionHash c
  refine ⟨?_, ?_, ?_, ?_, ?_⟩
  · rw [← interrupted.transactions]
    simpa [hidden, deletedTransfers, restoredTransfers] using
      congrArg TransfersContainer.m_transactions deleted
  · rw [← interrupted.currentHeight]
    simpa [hidden, deletedTransfers, restoredTransfers] using
      congrArg TransfersContainer.m_currentHeight deleted
  · rw [← interrupted.unconfirmed, deleted]
    simp [deletedTransfers, restoredTransfers, hidden, List.filter_map, Function.comp_def]
  · rw [← interrupted.spent, deleted]
    simp [deletedTransfers, restoredTransfers, hidden, List.filter_map, Function.comp_def]
  · refine List.Perm.trans (List.Perm.of_eq ?_) interrupted.available
    rw [deleted]
    simp [deletedTransfers, restoredTransfers, hidden, List.filter_map, Function.comp_def]

section Throwing

variable {block : TransactionBlockInfo} {tx : TransactionReader}
  {transfers : List TransactionOutputInformationIn} {s : TransfersContainer}

theorem tryAddTransaction_recorded
    (recorded : s.m_transactions.any (·.transactionHash == tx.transactionHash) = true) :
    ∃ message, (tryAddTransaction block tx transfers).run s = .error message s := by
  unfold tryAddTransaction
  simp only [EStateM.run_bind, EStateM.run_get]
  split <;> exact ⟨_, rfl⟩

/-- A run of the `try` block on a container the transaction has not touched leaves an interrupted
call, whether it returns or throws. Where it returns, the transaction had no record; the block
appends the record, where anything was added, and sets the height. -/
theorem tryAddTransaction_interrupted (untouched : Untouched tx.transactionHash s)
    (unique : MultisignatureUnique s) :
    (∀ added s', (tryAddTransaction block tx transfers).run s = .ok added s' →
      s.m_transactions.any (·.transactionHash == tx.transactionHash) = false ∧
        ∃ c, Interrupted block tx.transactionHash s c ∧ (added = false → c = s) ∧
          s' = { (if added then insertTransaction block tx c else c) with
            m_currentHeight :=
              if block.height != WALLET_LEGACY_UNCONFIRMED_TRANSACTION_HEIGHT then block.height
              else s.m_currentHeight }) ∧
    (∀ message c, (tryAddTransaction block tx transfers).run s = .error message c →
      Interrupted block tx.transactionHash s c) := by
  have start : Interrupted block tx.transactionHash s s := .start untouched unique
  unfold tryAddTransaction
  simp only [EStateM.run_bind, EStateM.run_get]
  split
  · exact ⟨fun _ _ ran => (by cases ran), fun _ _ threw => (by cases threw; exact start)⟩
  · split
    · exact ⟨fun _ _ ran => (by cases ran), fun _ _ threw => (by cases threw; exact start)⟩
    · rename_i unrecorded
      have outputsLoop := addTransactionOutputs_interrupted transfers false s start (fun _ => rfl)
      cases outputs : (addTransactionOutputs block tx false transfers).run s with
      | error message' c' =>
          rw [run_bind_of_error outputs]
          exact ⟨fun _ _ ran => (by cases ran),
            fun _ _ threw => (by cases threw; exact outputsLoop.2 _ _ outputs)⟩
      | ok outputsAdded c' =>
          rw [run_bind_of_ok outputs]
          obtain ⟨afterOutputs, outputsUnchanged⟩ := outputsLoop.1 _ _ outputs
          have inputsLoop :=
            addTransactionInputsFrom_interrupted tx.inputs 0 false c' afterOutputs (fun _ => rfl)
          cases inputs : (addTransactionInputs block tx).run c' with
          | error message' c'' =>
              rw [run_bind_of_error inputs]
              exact ⟨fun _ _ ran => (by cases ran),
                fun _ _ threw => (by cases threw; exact inputsLoop.2 _ _ inputs)⟩
          | ok inputsAdded c'' =>
              rw [run_bind_of_ok inputs]
              obtain ⟨afterInputs, inputsUnchanged⟩ := inputsLoop.1 _ _ inputs
              have unchanged : (outputsAdded || inputsAdded) = false → c'' = s := by
                intro none
                obtain ⟨noOutput, noInput⟩ := Bool.or_eq_false_iff.mp none
                rw [inputsUnchanged noInput, outputsUnchanged noOutput]
              refine ⟨fun added s' ran => ⟨by simpa using unrecorded, c'', afterInputs, ?_⟩,
                fun message c threw => ?_⟩
              · have height := afterInputs.currentHeight
                split at ran
                · rename_i added'
                  rw [run_bind_of_ok (EStateM.run_modify _ _)] at ran
                  split at ran <;> cases ran
                  · rename_i updated
                    exact ⟨unchanged, by simp [added', updated]⟩
                  · rename_i kept
                    refine ⟨unchanged, ?_⟩
                    rw [if_pos added', if_neg kept, ← height]
                    unfold insertTransaction
                    split <;> rfl
                · rename_i notAdded
                  split at ran <;> cases ran
                  · rename_i updated
                    exact ⟨unchanged, by simp [notAdded, updated]⟩
                  · rename_i kept
                    refine ⟨unchanged, ?_⟩
                    rw [if_neg notAdded, if_neg kept, ← height]
              · split at threw
                · rw [run_bind_of_ok (EStateM.run_modify _ _)] at threw
                  split at threw <;> cases threw
                · split at threw <;> cases threw

/-- Where `addTransaction` throws on a container none of whose transfers the transaction paid or
spent unless it is recorded, it leaves what the container held, flags apart and up to the order
of the available transfers. -/
theorem addTransaction_threw_restored
    (untouched : s.m_transactions.any (·.transactionHash == tx.transactionHash) = false →
      Untouched tx.transactionHash s)
    (unique : MultisignatureUnique s) {message : String} {s' : TransfersContainer}
    (threw : (addTransaction block tx transfers).run s = .error message s') : Restored s s' := by
  unfold addTransaction at threw
  rw [run_tryCatch] at threw
  split at threw
  · cases threw
  · rename_i message' c body
    rw [EStateM.run_bind, EStateM.run_get] at threw
    by_cases recorded : s.m_transactions.any (·.transactionHash == tx.transactionHash) = true
    · obtain ⟨_, first⟩ := @tryAddTransaction_recorded block tx transfers s recorded
      rw [first] at body
      cases body
      simp only [recorded, Bool.not_true, Bool.false_eq_true, if_false] at threw
      cases threw
      exact .refl s
    · have interrupted :=
        (tryAddTransaction_interrupted (untouched (by simpa using recorded)) unique).2 _ _ body
      have unrecorded : (c.m_transactions.any (·.transactionHash == tx.transactionHash)) = false := by
        rw [interrupted.transactions]
        simpa using recorded
      simp only [unrecorded, Bool.not_false, if_true, EStateM.run_bind, EStateM.run_modify] at threw
      cases threw
      exact interrupted.restored

end Throwing

end TransfersContainer

end Dynex
