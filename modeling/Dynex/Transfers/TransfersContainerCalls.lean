import Dynex.Transfers.TransfersContainerInvariant

/-!
# What a call of the transfers container changes

Every call that changes a `TransfersContainer` is made of a few changes: a transfer added,
unconfirmed or available; an available transfer spent; a spent one made available again; a
transfer erased; an unconfirmed one confirmed (each followed by the update of the flags of its
key image); and the records and the height set. `Preserved P` says that each change keeps `P`,
under what the code has checked before it makes it. Then every call keeps `P`, whether it returns
or throws (`Preserved.step`), and `P` holds of every reachable container where it holds of the
empty one (`Preserved.reachable`).

One such invariant is `Placed`: a transfer is unconfirmed exactly where its block height is the
pool's.
-/

set_option autoImplicit false

namespace Dynex

open Crypto TransactionTypes

namespace TransfersContainer

/-! ## The changes of a call -/

/-- Each change a call makes keeps `P`. -/
structure Preserved (P : TransfersContainer → Prop) : Prop where
  /-- An output of a transaction in the pool, among the unconfirmed transfers. -/
  addUnconfirmed : ∀ {block : TransactionBlockInfo} {tx : TransactionReader}
      {transfer : TransactionOutputInformationIn} {c : TransfersContainer}, P c →
    block.height = WALLET_LEGACY_UNCONFIRMED_TRANSACTION_HEIGHT →
    P (updateKeyVisibility transfer
      { c with m_unconfirmedTransfers :=
          c.m_unconfirmedTransfers ++ [outputInformation block tx transfer] })
  /-- An output of a transaction at a block, among the available transfers; a multisignature
  one only where no transfer holds it. -/
  addAvailable : ∀ {block : TransactionBlockInfo} {tx : TransactionReader}
      {transfer : TransactionOutputInformationIn} {c : TransfersContainer}, P c →
    block.height ≠ WALLET_LEGACY_UNCONFIRMED_TRANSACTION_HEIGHT →
    (transfer.type = .Multisignature →
      (c.m_availableTransfers.any
          (·.hasDescriptor (.multisignature transfer.amount transfer.globalOutputIndex)) ||
        c.m_spentTransfers.any
          (·.hasDescriptor (.multisignature transfer.amount transfer.globalOutputIndex))) = false) →
    P (updateKeyVisibility transfer
      { c with m_availableTransfers :=
          c.m_availableTransfers ++ [outputInformation block tx transfer] })
  /-- An available transfer spent by an input: a key output whose key image is not spent, or a
  multisignature output. -/
  spend : ∀ {block : TransactionBlockInfo} {tx : TransactionReader} {i : Nat}
      {spending : TransactionOutputInformationEx} {position : Nat} {c : TransfersContainer}, P c →
    c.m_availableTransfers[position]? = some spending →
    (spending.type = .Key ∧
        c.m_spentTransfers.all (fun spent => !spent.hasDescriptor (.key spending.keyImage)) ∨
      spending.type = .Multisignature) →
    P (spendAvailable block tx i spending position c)
  /-- A spent transfer available again. -/
  restore : ∀ {spent : SpentTransactionOutput} {position : Nat} {c : TransfersContainer}, P c →
    c.m_spentTransfers[position]? = some spent →
    P (updateKeyVisibility spent.toTransactionOutputInformationIn
      { c with
        m_availableTransfers := c.m_availableTransfers ++ [spent.toTransactionOutputInformationEx]
        m_spentTransfers := c.m_spentTransfers.eraseIdx position })
  /-- An unconfirmed transfer erased. -/
  eraseUnconfirmed : ∀ {transfer : TransactionOutputInformationEx} {position : Nat}
      {c : TransfersContainer}, P c →
    c.m_unconfirmedTransfers[position]? = some transfer →
    P (updateKeyVisibility transfer.toTransactionOutputInformationIn
      { c with m_unconfirmedTransfers := c.m_unconfirmedTransfers.eraseIdx position })
  /-- An available transfer erased. -/
  eraseAvailable : ∀ {transfer : TransactionOutputInformationEx} {position : Nat}
      {c : TransfersContainer}, P c →
    c.m_availableTransfers[position]? = some transfer →
    P (updateKeyVisibility transfer.toTransactionOutputInformationIn
      { c with m_availableTransfers := c.m_availableTransfers.eraseIdx position })
  /-- An unconfirmed transfer available at a block, with its global index; a multisignature one
  only where no transfer holds its output. -/
  confirm : ∀ {block : TransactionBlockInfo} {position : Nat}
      {transfer confirmed : TransactionOutputInformationEx} {c : TransfersContainer}, P c →
    block.height ≠ WALLET_LEGACY_UNCONFIRMED_TRANSACTION_HEIGHT →
    c.m_unconfirmedTransfers[position]? = some transfer →
    (∃ globalOutputIndex, confirmed = { transfer with
      blockHeight := block.height, transactionIndex := block.transactionIndex,
      globalOutputIndex }) →
    (confirmed.type = .Multisignature →
      (c.m_availableTransfers.any
          (·.hasDescriptor (.multisignature confirmed.amount confirmed.globalOutputIndex)) ||
        c.m_spentTransfers.any
          (·.hasDescriptor (.multisignature confirmed.amount confirmed.globalOutputIndex))) =
        false) →
    P (updateKeyVisibility confirmed.toTransactionOutputInformationIn
      { c with
        m_availableTransfers := c.m_availableTransfers ++ [confirmed]
        m_unconfirmedTransfers := c.m_unconfirmedTransfers.eraseIdx position })
  /-- A record added. -/
  record : ∀ {block : TransactionBlockInfo} {tx : TransactionReader} {c : TransfersContainer},
    P c → P (insertTransaction block tx c)
  /-- A record at a block. -/
  confirmRecord : ∀ {block : TransactionBlockInfo} {position : Nat}
      {txInfo : TransactionInformation} {c : TransfersContainer},
    P c → P (TransfersContainer.confirmRecord block position txInfo c)
  /-- The spending block of the outputs a transaction spends set. -/
  spendAtBlock : ∀ {block : TransactionBlockInfo} {transactionHash : Hash} {c : TransfersContainer},
    P c → P (TransfersContainer.spendAtBlock block transactionHash c)
  /-- A record erased. -/
  eraseRecord : ∀ {position : Nat} {c : TransfersContainer},
    P c → P (TransfersContainer.eraseRecord position c)
  /-- The height set. -/
  height : ∀ {c : TransfersContainer} {height : UInt32}, P c → P { c with m_currentHeight := height }

/-! ## The rounds of the loops -/

section Rounds

variable {transactionHash : Hash} {c c' : TransfersContainer}

theorem getElem?_of_rangeFirst {α : Type} {inRange : α → Bool} {collection : List α} {first : α}
    {position : Nat} (found : rangeFirst inRange collection = some (first, position)) :
    collection[position]? = some first :=
  (mem_iteratorList (List.mem_of_mem_head? found)).1

theorem exists_of_restoreSpent (restored : restoreSpent transactionHash c = some c') :
    ∃ spent position, c.m_spentTransfers[position]? = some spent ∧
      c' = updateKeyVisibility spent.toTransactionOutputInformationIn
        { c with
          m_availableTransfers := c.m_availableTransfers ++ [spent.toTransactionOutputInformationEx]
          m_spentTransfers := c.m_spentTransfers.eraseIdx position } := by
  obtain ⟨⟨spent, position⟩, found, moved⟩ := Option.map_eq_some_iff.mp restored
  exact ⟨spent, position, getElem?_of_rangeFirst found, moved.symm⟩

theorem exists_of_eraseTransfer {transfers : TransfersContainer → List TransactionOutputInformationEx}
    {setTransfers : TransfersContainer → List TransactionOutputInformationEx → TransfersContainer}
    (erased : eraseTransfer transfers setTransfers transactionHash c = some c') :
    ∃ transfer position, (transfers c)[position]? = some transfer ∧
      c' = updateKeyVisibility transfer.toTransactionOutputInformationIn
        (setTransfers c ((transfers c).eraseIdx position)) := by
  obtain ⟨⟨transfer, position⟩, found, moved⟩ := Option.map_eq_some_iff.mp erased
  exact ⟨transfer, position, getElem?_of_rangeFirst found, moved.symm⟩

theorem holds_eraseRange {P : TransfersContainer → Prop}
    {round : TransfersContainer → Option TransfersContainer}
    (keeps : ∀ {c c'}, P c → round c = some c' → P c') :
    ∀ (rounds : Nat) (c : TransfersContainer), P c → P (eraseRange round rounds c) := by
  intro rounds
  induction rounds with
  | zero => exact fun c holds => holds
  | succ rounds ih =>
      intro c holds
      unfold eraseRange
      cases stepped : round c with
      | none => exact holds
      | some c' => exact ih c' (keeps holds stepped)

end Rounds

/-! ## Every call keeps what every change keeps -/

section Calls

variable {P : TransfersContainer → Prop} (preserved : Preserved P)
  {block : TransactionBlockInfo} {tx : TransactionReader}
include preserved

theorem Preserved.leaves_addTransactionOutputs (transfers : List TransactionOutputInformationIn) :
    ∀ (outputsAdded : Bool) (c : TransfersContainer), P c →
      P (leaves (addTransactionOutputs block tx outputsAdded transfers) c) := by
  induction transfers with
  | nil =>
      intro outputsAdded c holds
      rw [leaves_of_ok (rfl : (addTransactionOutputs block tx outputsAdded []).run c = .ok _ c)]
      exact holds
  | cons transfer transfers ih =>
      intro outputsAdded c holds
      rw [addTransactionOutputs]
      rcases run_addTransactionOutput block tx transfer c with
        ⟨message, threw⟩ | ⟨pooled, ran⟩ | ⟨atBlock, free, ran⟩
      · rw [leaves_of_error (run_bind_of_error threw _)]
        exact holds
      · rw [leaves_congr (run_bind_of_ok ran _)]
        exact ih true _ (preserved.addUnconfirmed holds pooled)
      · rw [leaves_congr (run_bind_of_ok ran _)]
        exact ih true _ (preserved.addAvailable holds atBlock free)

theorem Preserved.leaves_addTransactionInputsFrom (inputs : List TransactionInput) :
    ∀ (i : Nat) (inputsAdded : Bool) (c : TransfersContainer), P c →
      P (leaves (addTransactionInputsFrom block tx i inputsAdded inputs) c) := by
  induction inputs with
  | nil =>
      intro i inputsAdded c holds
      rw [leaves_of_ok (rfl : (addTransactionInputsFrom block tx i inputsAdded []).run c = .ok _ c)]
      exact holds
  | cons input inputs ih =>
      intro i inputsAdded c holds
      rw [addTransactionInputsFrom]
      rcases run_addTransactionInput block tx i input c with
        ⟨message, threw⟩ | ran | ⟨spending, position, found, kind, ran⟩
      · rw [leaves_of_error (run_bind_of_error threw _)]
        exact holds
      · rw [leaves_congr (run_bind_of_ok ran _)]
        exact ih _ _ _ holds
      · rw [leaves_congr (run_bind_of_ok ran _)]
        exact ih _ _ _ (preserved.spend holds found kind)

/-- The `try` block of `addTransaction`, returned or thrown. -/
theorem Preserved.leaves_tryAddTransaction {transfers : List TransactionOutputInformationIn}
    {s : TransfersContainer} (holds : P s) :
    P (leaves (tryAddTransaction block tx transfers) s) := by
  unfold leaves
  generalize ran : (tryAddTransaction block tx transfers).run s = result
  unfold tryAddTransaction at ran
  simp only [EStateM.run_bind, EStateM.run_get] at ran
  split at ran
  · subst ran
    exact holds
  · split at ran
    · subst ran
      exact holds
    · have afterOutputs : P (leaves (addTransactionOutputs block tx false transfers) s) :=
        preserved.leaves_addTransactionOutputs transfers false s holds
      cases outputs : (addTransactionOutputs block tx false transfers).run s with
      | error message c =>
          rw [run_bind_of_error outputs] at ran
          subst ran
          rwa [leaves_of_error outputs] at afterOutputs
      | ok outputsAdded c =>
          rw [run_bind_of_ok outputs] at ran
          rw [leaves_of_ok outputs] at afterOutputs
          have afterInputs : P (leaves (addTransactionInputs block tx) c) :=
            preserved.leaves_addTransactionInputsFrom tx.inputs 0 false c afterOutputs
          cases inputs : (addTransactionInputs block tx).run c with
          | error message c' =>
              rw [run_bind_of_error inputs] at ran
              subst ran
              rwa [leaves_of_error inputs] at afterInputs
          | ok inputsAdded c' =>
              rw [run_bind_of_ok inputs] at ran
              rw [leaves_of_ok inputs] at afterInputs
              split at ran
              · rw [run_bind_of_ok (EStateM.run_modify _ _)] at ran
                split at ran
                · rw [run_bind_of_ok (EStateM.run_modify _ _)] at ran
                  subst ran
                  exact preserved.height (preserved.record afterInputs)
                · subst ran
                  exact preserved.record afterInputs
              · split at ran
                · rw [run_bind_of_ok (EStateM.run_modify _ _)] at ran
                  subst ran
                  exact preserved.height afterInputs
                · subst ran
                  exact afterInputs

theorem Preserved.deleteTransactionTransfers {transactionHash : Hash} {c : TransfersContainer}
    (holds : P c) : P (deleteTransactionTransfers transactionHash c) := by
  unfold TransfersContainer.deleteTransactionTransfers
  refine holds_eraseRange (fun held erased => ?_) _ _
    (holds_eraseRange (fun held erased => ?_) _ _
      (holds_eraseRange (fun held restored => ?_) _ _ holds))
  · obtain ⟨transfer, position, found, rfl⟩ := exists_of_eraseTransfer erased
    exact preserved.eraseAvailable held found
  · obtain ⟨transfer, position, found, rfl⟩ := exists_of_eraseTransfer erased
    exact preserved.eraseUnconfirmed held found
  · obtain ⟨spent, position, found, rfl⟩ := exists_of_restoreSpent restored
    exact preserved.restore held found

theorem Preserved.leaves_addTransaction {transfers : List TransactionOutputInformationIn}
    {s : TransfersContainer} (holds : P s) :
    P (leaves (addTransaction block tx transfers) s) := by
  have body : P (leaves (tryAddTransaction block tx transfers) s) :=
    preserved.leaves_tryAddTransaction holds
  refine leaves_of_forall (fun added s' ran => ?_) (fun message s' threw => ?_)
  · rwa [leaves_of_ok (tryAddTransaction_of_addTransaction ran)] at body
  · unfold addTransaction at threw
    rw [run_tryCatch] at threw
    split at threw
    · cases threw
    · rename_i message' c thrown
      rw [leaves_of_error thrown] at body
      simp only [EStateM.run_bind, EStateM.run_get] at threw
      split at threw
      · rw [run_bind_of_ok (EStateM.run_modify _ _)] at threw
        cases threw
        exact preserved.deleteTransactionTransfers body
      · cases threw
        exact body

theorem Preserved.leaves_confirmTransfers {transactionHash : Hash} {globalIndices : List UInt32}
    (atBlock : block.height ≠ WALLET_LEGACY_UNCONFIRMED_TRANSACTION_HEIGHT) (rounds : Nat) :
    ∀ c : TransfersContainer, P c →
      P (leaves (confirmTransfers block transactionHash globalIndices rounds) c) := by
  induction rounds with
  | zero =>
      intro c holds
      rw [leaves_of_ok (rfl : (confirmTransfers block transactionHash globalIndices 0).run c =
        .ok () c)]
      exact holds
  | succ rounds ih =>
      intro c holds
      rcases run_confirmTransfers_succ block transactionHash globalIndices rounds c with
        ⟨-, ran⟩ | ⟨message, threw⟩ | ⟨position, transfer, confirmed, found, -, -, shape, free, ran⟩
      · rw [leaves_of_ok ran]
        exact holds
      · rw [leaves_of_error threw]
        exact holds
      · rw [leaves_congr ran]
        exact ih _ (preserved.confirm holds atBlock found shape free)

theorem Preserved.leaves_markTransactionConfirmed {transactionHash : Hash}
    {globalIndices : List UInt32} {c : TransfersContainer} (holds : P c) :
    P (leaves (markTransactionConfirmed block transactionHash globalIndices) c) := by
  rcases run_markTransactionConfirmed block transactionHash globalIndices c with
    ⟨-, message, threw⟩ | returned | ⟨txInfo, position, -, -, -, atBlock, returned, threw⟩
  · rw [leaves_of_error threw]
    exact holds
  · rw [leaves_of_ok returned]
    exact holds
  · have looped : P (leaves (confirmTransfers block transactionHash globalIndices
        c.m_unconfirmedTransfers.length) (TransfersContainer.confirmRecord block position txInfo c)) :=
      preserved.leaves_confirmTransfers atBlock _ _ (preserved.confirmRecord holds)
    cases loop : (confirmTransfers block transactionHash globalIndices
        c.m_unconfirmedTransfers.length).run (TransfersContainer.confirmRecord block position txInfo c) with
    | ok _ c' =>
        rw [leaves_of_ok loop] at looped
        rw [leaves_of_ok (returned c' loop)]
        exact preserved.spendAtBlock looped
    | error message c' =>
        rw [leaves_of_error loop] at looped
        rw [leaves_of_error (threw message c' loop)]
        exact looped

theorem Preserved.leaves_deleteUnconfirmedTransaction {transactionHash : Hash}
    {c : TransfersContainer} (holds : P c) :
    P (leaves (deleteUnconfirmedTransaction transactionHash) c) := by
  rcases run_deleteUnconfirmedTransaction transactionHash c with
    returned | ⟨txInfo, position, -, -, -, returned⟩
  · rw [leaves_of_ok returned]
    exact holds
  · rw [leaves_of_ok returned]
    exact preserved.eraseRecord (preserved.deleteTransactionTransfers holds)

theorem Preserved.leaves_advanceHeight {height : UInt32} {c : TransfersContainer} (holds : P c) :
    P (leaves (advanceHeight height) c) := by
  by_cases higher : c.m_currentHeight ≤ height
  · rw [leaves_of_ok ((run_advanceHeight height c).trans (if_pos higher))]
    exact preserved.height holds
  · rw [leaves_of_ok ((run_advanceHeight height c).trans (if_neg higher))]
    exact holds

theorem Preserved.step {c : TransfersContainer} (holds : P c) (call : Call) :
    P (leaves call.method c) := by
  cases call with
  | addTransaction block tx transfers => exact preserved.leaves_addTransaction holds
  | markTransactionConfirmed block transactionHash globalIndices =>
      exact preserved.leaves_markTransactionConfirmed holds
  | deleteUnconfirmedTransaction transactionHash =>
      exact preserved.leaves_deleteUnconfirmedTransaction holds
  | advanceHeight height => exact preserved.leaves_advanceHeight holds

theorem Preserved.reachable (initial : P empty) {c : TransfersContainer} (reachable : Reachable c) :
    P c :=
  TransitionSystem.holds_of_run (fun holds ⟨call, stepped⟩ => stepped ▸ preserved.step holds call)
    initial reachable

end Calls

theorem reachable_pendingContainer : Reachable pendingContainer :=
  .single ⟨.addTransaction poolBlock poolTransaction [poolTransfer], rfl⟩

/-! ## Transfers placed by their block height -/

section Placed

variable {c d : TransfersContainer}

/-- A transfer is unconfirmed exactly where its block height is the pool's: the unconfirmed
transfers are at the pool's height, the available and the spent ones at a block's. -/
structure Placed (c : TransfersContainer) : Prop where
  unconfirmed : ∀ transfer ∈ c.m_unconfirmedTransfers,
    transfer.blockHeight = WALLET_LEGACY_UNCONFIRMED_TRANSACTION_HEIGHT
  available : ∀ transfer ∈ c.m_availableTransfers,
    transfer.blockHeight ≠ WALLET_LEGACY_UNCONFIRMED_TRANSACTION_HEIGHT
  spent : ∀ transfer ∈ c.m_spentTransfers,
    transfer.blockHeight ≠ WALLET_LEGACY_UNCONFIRMED_TRANSACTION_HEIGHT

theorem exists_blockHeight_of_hidden {transfers transfers' : List TransactionOutputInformationEx}
    (same : transfers'.map TransactionOutputInformationEx.hidden =
      transfers.map TransactionOutputInformationEx.hidden)
    {transfer : TransactionOutputInformationEx} (member : transfer ∈ transfers') :
    ∃ original ∈ transfers, original.blockHeight = transfer.blockHeight := by
  have inside : transfer.hidden ∈ transfers.map TransactionOutputInformationEx.hidden :=
    same ▸ List.mem_map_of_mem member
  obtain ⟨original, inside, hidden⟩ := List.mem_map.mp inside
  exact ⟨original, inside, congrArg (·.blockHeight) hidden⟩

theorem Placed.of_hidden (placed : Placed c) (same : d.hidden = c.hidden) : Placed d where
  unconfirmed transfer member := by
    obtain ⟨original, inside, height⟩ :=
      exists_blockHeight_of_hidden (congrArg TransfersContainer.m_unconfirmedTransfers same) member
    exact height ▸ placed.unconfirmed original inside
  available transfer member := by
    obtain ⟨original, inside, height⟩ :=
      exists_blockHeight_of_hidden (congrArg TransfersContainer.m_availableTransfers same) member
    exact height ▸ placed.available original inside
  spent transfer member := by
    have spentSame : (d.m_spentTransfers.map (·.toTransactionOutputInformationEx)).map
        TransactionOutputInformationEx.hidden =
          (c.m_spentTransfers.map (·.toTransactionOutputInformationEx)).map
            TransactionOutputInformationEx.hidden := by
      simpa [hidden, Function.comp_def] using
        congrArg (List.map (·.toTransactionOutputInformationEx)) (congrArg TransfersContainer.m_spentTransfers same)
    obtain ⟨original, inside, height⟩ :=
      exists_blockHeight_of_hidden spentSame (List.mem_map_of_mem member)
    obtain ⟨spent, spentInside, rfl⟩ := List.mem_map.mp inside
    exact height ▸ placed.spent spent spentInside

theorem Placed.updateKeyVisibility (placed : Placed c) (transfer : TransactionOutputInformationIn) :
    Placed (updateKeyVisibility transfer c) :=
  placed.of_hidden (hidden_updateKeyVisibility transfer c)

section CopyToSpent

variable {block : TransactionBlockInfo} {tx : TransactionReader} {i : Nat}
  {output : TransactionOutputInformationEx}

@[simp] theorem m_unconfirmedTransfers_copyToSpent :
    (copyToSpent block tx i output c).m_unconfirmedTransfers = c.m_unconfirmedTransfers := by
  unfold copyToSpent
  dsimp only
  split <;> rfl

@[simp] theorem m_availableTransfers_copyToSpent :
    (copyToSpent block tx i output c).m_availableTransfers = c.m_availableTransfers := by
  unfold copyToSpent
  dsimp only
  split <;> rfl

theorem mem_copyToSpent {block : TransactionBlockInfo} {tx : TransactionReader} {i : Nat}
    {output : TransactionOutputInformationEx} {spent : SpentTransactionOutput}
    (member : spent ∈ (copyToSpent block tx i output c).m_spentTransfers) :
    spent ∈ c.m_spentTransfers ∨ spent = spentOutput block tx i output := by
  unfold copyToSpent at member
  dsimp only at member
  split at member
  · exact .inl member
  · simpa using member

end CopyToSpent

/-- Each change puts a transfer where its block height says: an output of the pool among the
unconfirmed transfers, an output at a block or a confirmed transfer among the available ones. -/
theorem placed_preserved : Preserved Placed where
  addUnconfirmed placed pooled := by
    apply Placed.updateKeyVisibility
    exact ⟨List.forall_mem_append.mpr ⟨placed.unconfirmed, List.forall_mem_singleton.mpr pooled⟩,
      placed.available, placed.spent⟩
  addAvailable placed atBlock _ := by
    apply Placed.updateKeyVisibility
    exact ⟨placed.unconfirmed,
      List.forall_mem_append.mpr ⟨placed.available, List.forall_mem_singleton.mpr atBlock⟩,
      placed.spent⟩
  spend placed found _ := by
    unfold spendAvailable
    apply Placed.updateKeyVisibility
    refine ⟨fun transfer member => ?_, fun transfer member => ?_, fun spent member => ?_⟩
    · simp only [m_unconfirmedTransfers_copyToSpent] at member
      exact placed.unconfirmed transfer member
    · simp only [m_availableTransfers_copyToSpent] at member
      exact placed.available transfer (List.mem_of_mem_eraseIdx member)
    rcases mem_copyToSpent member with old | added
    · exact placed.spent spent old
    · rw [added]
      exact placed.available _ (List.mem_of_getElem? found)
  restore placed found := by
    apply Placed.updateKeyVisibility
    have atBlock := placed.spent _ (List.mem_of_getElem? found)
    exact ⟨placed.unconfirmed,
      List.forall_mem_append.mpr ⟨placed.available, List.forall_mem_singleton.mpr atBlock⟩,
      fun spent member => placed.spent spent (List.mem_of_mem_eraseIdx member)⟩
  eraseUnconfirmed placed _ := by
    apply Placed.updateKeyVisibility
    exact ⟨fun transfer member => placed.unconfirmed transfer (List.mem_of_mem_eraseIdx member),
      placed.available, placed.spent⟩
  eraseAvailable placed _ := by
    apply Placed.updateKeyVisibility
    exact ⟨placed.unconfirmed,
      fun transfer member => placed.available transfer (List.mem_of_mem_eraseIdx member),
      placed.spent⟩
  confirm placed atBlock _ shape _ := by
    obtain ⟨globalOutputIndex, rfl⟩ := shape
    apply Placed.updateKeyVisibility
    exact ⟨fun transfer member => placed.unconfirmed transfer (List.mem_of_mem_eraseIdx member),
      List.forall_mem_append.mpr ⟨placed.available, List.forall_mem_singleton.mpr atBlock⟩,
      placed.spent⟩
  record placed := by
    unfold insertTransaction
    split
    · exact placed
    · exact ⟨placed.unconfirmed, placed.available, placed.spent⟩
  confirmRecord placed := ⟨placed.unconfirmed, placed.available, placed.spent⟩
  spendAtBlock placed := by
    refine ⟨placed.unconfirmed, placed.available, fun transfer member => ?_⟩
    obtain ⟨original, inside, rfl⟩ := List.mem_map.mp member
    split
    · exact placed.spent original inside
    · exact placed.spent original inside
  eraseRecord placed := ⟨placed.unconfirmed, placed.available, placed.spent⟩
  height placed := ⟨placed.unconfirmed, placed.available, placed.spent⟩

theorem Reachable.placed (reachable : Reachable c) : Placed c :=
  placed_preserved.reachable ⟨nofun, nofun, nofun⟩ reachable

end Placed

end TransfersContainer

end Dynex
