import Dynex.Core.Blockchain.Transactions

/-!
# Popping a pushed transaction

`popTransaction` undoes `pushTransaction` when the push was fresh: the hash was not in
`m_transactionMap`, the transaction's key images were pairwise distinct and not recorded, and
every multisignature output it spends existed and was unused. Each index is handled by its own
lemma: the output lists by `popOutputs_pushOutputs` (which needs nothing), the key images and the
used flags by `popInputs_recorded`, the hash by `update_update_of_none`.
-/

set_option autoImplicit false

namespace Dynex

open Crypto

namespace Blockchain

/-- What `pushTransaction` finds in a state that it can record `transaction` in, and that
`popTransaction` can restore. -/
structure FreshTransaction (chain : Blockchain) (transaction : Transaction) (transactionHash : Hash) :
    Prop where
  hash_absent : chain.m_transactionMap transactionHash = none
  multisignature_diff : checkMultisignatureInputsDiff transaction.toTransactionPrefix = true
  keyImages_nodup : (keyImagesOf transaction.inputs).Nodup
  keyImages_absent : ∀ keyImage ∈ keyImagesOf transaction.inputs, chain.spentKeyImages keyImage = none
  multisignature_unused : ∀ usage ∈ multisignatureUsagesOf transaction.inputs,
    ∃ entry, (chain.m_multisignatureOutputs usage.1)[usage.2]? = some entry ∧ entry.isUsed = false
  outputs_fit : transaction.outputs.length < 2 ^ 16

/-- The indices, and the global output indexes, after `pushTransaction` has recorded a
transaction whose key images were fresh. -/
def recordTransaction (chain : Blockchain) (height : Nat) (transaction : Transaction)
    (transactionHash : Hash) (transactionIndex : TransactionIndex) : Blockchain × List Nat :=
  pushOutputs
    { chain with
      m_transactionMap := Function.update chain.m_transactionMap transactionHash (some transactionIndex)
      spentKeyImages := KeyedStore.setAll chain.spentKeyImages (keyImagesOf transaction.inputs) (some height)
      m_multisignatureOutputs := KeyedStore.modifyAll chain.m_multisignatureOutputs
        (multisignatureUsagesOf transaction.inputs) (MultisignatureOutputUsage.markUsed true) }
    transactionIndex transaction.outputs

/-! ## Output lists -/

theorem pushOutputs_eq (chain : Blockchain) (transactionIndex : TransactionIndex)
    (outputs : List TransactionOutput) :
    ∃ keyOutputs multisignatureOutputs, (pushOutputs chain transactionIndex outputs).1 =
      { chain with m_outputs := keyOutputs, m_multisignatureOutputs := multisignatureOutputs } := by
  suffices step : ∀ (pairs : List (TransactionOutput × Nat)) (state : Blockchain × List Nat),
      (∃ keyOutputs multisignatureOutputs,
        state.1 = { chain with m_outputs := keyOutputs, m_multisignatureOutputs := multisignatureOutputs }) →
      ∃ keyOutputs multisignatureOutputs, (pairs.foldl (pushOutput transactionIndex) state).1 =
        { chain with m_outputs := keyOutputs, m_multisignatureOutputs := multisignatureOutputs} from
    step _ _ ⟨chain.m_outputs, chain.m_multisignatureOutputs, rfl⟩
  intro pairs
  induction pairs with
  | nil => exact fun state holds => holds
  | cons pair rest inductionHypothesis =>
      rintro ⟨current, indexes⟩ ⟨keyOutputs, multisignatureOutputs, rfl⟩
      apply inductionHypothesis
      cases target : pair.1.target <;> simp [pushOutput, target]

@[simp] theorem pushOutputs_m_transactionMap (chain : Blockchain) (transactionIndex : TransactionIndex)
    (outputs : List TransactionOutput) :
    (pushOutputs chain transactionIndex outputs).1.m_transactionMap = chain.m_transactionMap := by
  obtain ⟨_, _, pushed⟩ := pushOutputs_eq chain transactionIndex outputs
  rw [pushed]

@[simp] theorem pushOutputs_m_blocks (chain : Blockchain) (transactionIndex : TransactionIndex)
    (outputs : List TransactionOutput) :
    (pushOutputs chain transactionIndex outputs).1.m_blocks = chain.m_blocks := by
  obtain ⟨_, _, pushed⟩ := pushOutputs_eq chain transactionIndex outputs
  rw [pushed]

@[simp] theorem pushOutputs_m_blockIndex (chain : Blockchain) (transactionIndex : TransactionIndex)
    (outputs : List TransactionOutput) :
    (pushOutputs chain transactionIndex outputs).1.m_blockIndex = chain.m_blockIndex := by
  obtain ⟨_, _, pushed⟩ := pushOutputs_eq chain transactionIndex outputs
  rw [pushed]

theorem popOutput_pushOutput (transactionIndex : TransactionIndex) (state : Blockchain × List Nat)
    (output : TransactionOutput × Nat) :
    popOutput transactionIndex (pushOutput transactionIndex state output).1 output = state.1 := by
  obtain ⟨chain, indexes⟩ := state
  obtain ⟨⟨amount, target⟩, position⟩ := output
  cases target <;> simp [pushOutput, popOutput]

theorem popOutputs_pushOutputs (chain : Blockchain) (transactionIndex : TransactionIndex)
    (outputs : List TransactionOutput) :
    popOutputs (pushOutputs chain transactionIndex outputs).1 transactionIndex outputs = chain := by
  suffices undo : ∀ (pairs : List (TransactionOutput × Nat)) (state : Blockchain × List Nat),
      pairs.reverse.foldl (popOutput transactionIndex) (pairs.foldl (pushOutput transactionIndex) state).1 =
        state.1 from undo _ (chain, [])
  intro pairs
  induction pairs with
  | nil => exact fun _ => rfl
  | cons pair rest inductionHypothesis =>
      intro state
      simp only [List.reverse_cons, List.foldl_append, List.foldl_cons, List.foldl_nil]
      rw [inductionHypothesis]
      exact popOutput_pushOutput transactionIndex state pair

/-! ## Key images -/

theorem pushKeyImages_of_fresh (domain : KeyImage → Bool) (height : Nat) :
    ∀ (inputs : List TransactionInput) (images : KeyImage → Option Nat) (earlier : List TransactionInput),
      (keyImagesOf inputs).Nodup → (∀ keyImage ∈ keyImagesOf inputs, images keyImage = none) →
        pushKeyImages domain height images earlier inputs =
          .ok (true, KeyedStore.setAll images (keyImagesOf inputs) (some height))
  | [], _, _, _, _ => rfl
  | .key input :: rest, images, earlier, unique, absent => by
      simp only [keyImagesOf, List.nodup_cons, List.mem_cons, forall_eq_or_imp] at unique absent
      simp only [pushKeyImages, insertKeyImage_of_none absent.1, Bool.not_true, Bool.and_false,
        Bool.false_eq_true, if_false, keyImagesOf]
      refine pushKeyImages_of_fresh domain height rest _ _ unique.2 fun keyImage member => ?_
      have other : keyImage ≠ input.keyImage := fun same => unique.1 (same ▸ member)
      rw [Function.update_of_ne other]
      exact absent.2 keyImage member
  | .base input :: rest, images, earlier, unique, absent =>
      pushKeyImages_of_fresh domain height rest images _ unique absent
  | .multisignature input :: rest, images, earlier, unique, absent =>
      pushKeyImages_of_fresh domain height rest images _ unique absent

/-! ## Multisignature flags -/

theorem set_eq_modify_of_getElem? {α : Type} {list : List α} {index : Nat} {entry : α}
    (found : list[index]? = some entry) (change : α → α) :
    list.set index (change entry) = list.modify index change := by
  apply List.ext_getElem?
  intro position
  rw [List.getElem?_set, List.getElem?_modify]
  obtain ⟨inBounds, atIndex⟩ := List.getElem?_eq_some_iff.mp found
  by_cases same : index = position
  · subst same
    simp [inBounds, atIndex]
  · simp [same]

theorem setUsed_of_isSome {outputs : UInt64 → List MultisignatureOutputUsage} {amount : UInt64}
    {outputIndex : Nat} (inRange : ((outputs amount)[outputIndex]?).isSome) (used : Bool) :
    setUsed outputs amount outputIndex used =
      .ok (KeyedStore.modify outputs amount outputIndex (MultisignatureOutputUsage.markUsed used)) := by
  obtain ⟨entry, found⟩ := Option.isSome_iff_exists.mp inRange
  simp only [setUsed, found, KeyedStore.modify]
  rw [← set_eq_modify_of_getElem? found]
  rfl

theorem setUsedInputs_of_isSome (used : Bool) :
    ∀ (inputs : List TransactionInput) (outputs : UInt64 → List MultisignatureOutputUsage),
      (∀ usage ∈ multisignatureUsagesOf inputs, ((outputs usage.1)[usage.2]?).isSome) →
        setUsedInputs used outputs inputs =
          .ok (KeyedStore.modifyAll outputs (multisignatureUsagesOf inputs)
            (MultisignatureOutputUsage.markUsed used))
  | [], _, _ => rfl
  | .multisignature input :: rest, outputs, inRange => by
      simp only [multisignatureUsagesOf, List.mem_cons, forall_eq_or_imp] at inRange
      simp only [setUsedInputs, setUsed_of_isSome inRange.1, multisignatureUsagesOf,
        KeyedStore.modifyAll_cons]
      apply setUsedInputs_of_isSome used rest
      intro usage member
      rw [KeyedStore.isSome_getElem?_modify]
      exact inRange.2 usage member
  | .base input :: rest, outputs, inRange => setUsedInputs_of_isSome used rest outputs inRange
  | .key input :: rest, outputs, inRange => setUsedInputs_of_isSome used rest outputs inRange

theorem markUsed_false_of_unused {usage : MultisignatureOutputUsage} (unused : usage.isUsed = false) :
    usage.markUsed false = usage := by
  cases usage
  simp_all [MultisignatureOutputUsage.markUsed]

/-! ## The inputs loop of `popTransaction` -/

/-- The inputs loop erases the key images that the push recorded and clears the flags of the
outputs the inputs spend. -/
theorem popInputs_recorded (images : KeyImage → Option Nat) (height : Nat) :
    ∀ (inputs : List TransactionInput) (chain : Blockchain),
      (keyImagesOf inputs).Nodup → (∀ keyImage ∈ keyImagesOf inputs, images keyImage = none) →
      chain.spentKeyImages = KeyedStore.setAll images (keyImagesOf inputs) (some height) →
      (∀ usage ∈ multisignatureUsagesOf inputs,
        ((chain.m_multisignatureOutputs usage.1)[usage.2]?).isSome) →
        popInputs chain inputs = .ok { chain with
          spentKeyImages := images
          m_multisignatureOutputs := KeyedStore.modifyAll chain.m_multisignatureOutputs
            (multisignatureUsagesOf inputs) (MultisignatureOutputUsage.markUsed false) }
  | [], chain, _, _, recorded, _ => by
      simp only [keyImagesOf, KeyedStore.setAll_nil] at recorded
      simp only [popInputs, multisignatureUsagesOf, ← recorded]
      rfl
  | .key input :: rest, chain, unique, absent, recorded, inRange => by
      simp only [keyImagesOf, List.nodup_cons, List.mem_cons, forall_eq_or_imp] at unique absent
      have present : chain.spentKeyImages input.keyImage = some height := by
        simp [recorded, KeyedStore.setAll_apply, keyImagesOf]
      have erased : Function.update chain.spentKeyImages input.keyImage none =
          KeyedStore.setAll images (keyImagesOf rest) (some height) := by
        rw [recorded]
        exact KeyedStore.update_setAll_cons (some height) absent.1 unique.1
      simp only [popInputs, popInput, eraseKeyImage_of_some present]
      exact popInputs_recorded images height rest _ unique.2 absent.2 erased inRange
  | .multisignature input :: rest, chain, unique, absent, recorded, inRange => by
      simp only [multisignatureUsagesOf, List.mem_cons, forall_eq_or_imp] at inRange
      simp only [keyImagesOf] at unique absent recorded
      simp only [popInputs, popInput, setUsed_of_isSome inRange.1, except_ok_bind, pure_bind]
      have later := popInputs_recorded images height rest
        { chain with
          m_multisignatureOutputs := KeyedStore.modify chain.m_multisignatureOutputs input.amount
            input.outputIndex.toNat (MultisignatureOutputUsage.markUsed false) }
        unique absent recorded fun usage member => by
          rw [KeyedStore.isSome_getElem?_modify]
          exact inRange.2 usage member
      rw [later]
      rfl
  | .base input :: rest, chain, unique, absent, recorded, inRange =>
      popInputs_recorded images height rest chain unique absent recorded inRange

theorem update_update_of_none {κ α : Type} [DecidableEq κ] {map : κ → Option α} {key : κ}
    (absent : map key = none) (value : Option α) :
    Function.update (Function.update map key value) key none = map := by
  rw [Function.update_idem, ← absent, Function.update_eq_self]

/-! ## Push and pop -/

theorem pushTransaction_of_fresh {chain : Blockchain} {transaction : Transaction}
    {transactionHash : Hash} (fresh : FreshTransaction chain transaction transactionHash)
    (height : Nat) (globalIndexes : List Nat) (transactionIndex : TransactionIndex) :
    pushTransaction chain height ⟨transaction, globalIndexes⟩ transactionHash transactionIndex =
      .ok (true, (recordTransaction chain height transaction transactionHash transactionIndex).1,
        ⟨transaction, (recordTransaction chain height transaction transactionHash transactionIndex).2⟩) := by
  have inRange : ∀ usage ∈ multisignatureUsagesOf transaction.inputs,
      ((chain.m_multisignatureOutputs usage.1)[usage.2]?).isSome := by
    intro usage member
    obtain ⟨entry, found, _⟩ := fresh.multisignature_unused usage member
    simp [found]
  have fits : ¬ 2 ^ 16 ≤ transaction.outputs.length := by
    have := fresh.outputs_fit
    omega
  simp only [pushTransaction, fresh.hash_absent, fresh.multisignature_diff, Bool.not_true,
    Bool.false_eq_true, if_false,
    pushKeyImages_of_fresh _ height _ _ _ fresh.keyImages_nodup fresh.keyImages_absent,
    setUsedInputs_of_isSome true _ _ inRange, fits]
  rfl

/-- Popping a transaction right after a fresh push restores every index. -/
theorem popTransaction_pushTransaction {chain next : Blockchain} {transaction : Transaction}
    {transactionHash : Hash} (fresh : FreshTransaction chain transaction transactionHash)
    {height : Nat} {globalIndexes : List Nat} {transactionIndex : TransactionIndex}
    {entry : TransactionEntry}
    (pushed : pushTransaction chain height ⟨transaction, globalIndexes⟩ transactionHash transactionIndex =
      .ok (true, next, entry)) :
    popTransaction next transaction transactionHash = .ok chain := by
  rw [pushTransaction_of_fresh fresh] at pushed
  simp only [Except.ok.injEq, Prod.mk.injEq, true_and] at pushed
  obtain ⟨rfl, -⟩ := pushed
  have inRange : ∀ usage ∈ multisignatureUsagesOf transaction.inputs,
      ((KeyedStore.modifyAll chain.m_multisignatureOutputs (multisignatureUsagesOf transaction.inputs)
        (MultisignatureOutputUsage.markUsed true) usage.1)[usage.2]?).isSome := by
    intro usage member
    obtain ⟨found, foundAt, _⟩ := fresh.multisignature_unused usage member
    rw [KeyedStore.getElem?_modifyAll (MultisignatureOutputUsage.markUsed_markUsed true true)]
    simp [member, foundAt]
  have restored : KeyedStore.modifyAll
      (KeyedStore.modifyAll chain.m_multisignatureOutputs (multisignatureUsagesOf transaction.inputs)
        (MultisignatureOutputUsage.markUsed true))
      (multisignatureUsagesOf transaction.inputs) (MultisignatureOutputUsage.markUsed false) =
        chain.m_multisignatureOutputs := by
    apply KeyedStore.modifyAll_modifyAll (MultisignatureOutputUsage.markUsed_markUsed true true)
      (MultisignatureOutputUsage.markUsed_markUsed false false)
    intro usage member found foundAt
    obtain ⟨entry, entryAt, unused⟩ := fresh.multisignature_unused usage member
    rw [entryAt, Option.some.injEq] at foundAt
    subst foundAt
    exact markUsed_false_of_unused unused
  simp only [recordTransaction, popTransaction, pushOutputs_m_transactionMap, Function.update_self,
    popOutputs_pushOutputs]
  rw [popInputs_recorded chain.spentKeyImages height transaction.inputs _
    fresh.keyImages_nodup fresh.keyImages_absent rfl inRange]
  simp only [except_ok_bind, restored, eraseTransaction, update_update_of_none fresh.hash_absent]
  rfl

def singleSpend : Transaction :=
  ⟨⟨CURRENT_TRANSACTION_VERSION, 0, [.key ⟨1, [0], ⟨Pod.ofByte 7⟩⟩], [⟨1, .key ⟨⟨Pod.zero 32⟩⟩⟩], []⟩,
    [[⟨Pod.zero 64⟩]]⟩

theorem single_spend_pop_restores_empty_state :
    FreshTransaction Blockchain.empty singleSpend NULL_HASH ∧
      popTransaction (recordTransaction Blockchain.empty 0 singleSpend NULL_HASH ⟨0, 1⟩).1 singleSpend
        NULL_HASH = .ok Blockchain.empty :=
  have fresh : FreshTransaction Blockchain.empty singleSpend NULL_HASH :=
    ⟨rfl, by decide, by decide, fun _ _ => rfl, (fun _ member => nomatch member), by decide⟩
  ⟨fresh, popTransaction_pushTransaction fresh (pushTransaction_of_fresh fresh 0 [] ⟨0, 1⟩)⟩

/-! ## The block list

The operations on transactions change the four transaction indices only: every successful run
keeps the blocks and the block index. -/

theorem popOutput_sameBlocks (transactionIndex : TransactionIndex) (chain : Blockchain)
    (output : TransactionOutput × Nat) : SameBlocks chain (popOutput transactionIndex chain output) := by
  unfold popOutput
  split <;> split <;> (try split) <;> (try split) <;> (try split) <;> exact ⟨rfl, rfl⟩

theorem popOutputs_sameBlocks (chain : Blockchain) (transactionIndex : TransactionIndex)
    (outputs : List TransactionOutput) : SameBlocks chain (popOutputs chain transactionIndex outputs) := by
  unfold popOutputs
  generalize outputs.zipIdx.reverse = pairs
  induction pairs generalizing chain with
  | nil => exact .refl chain
  | cons pair rest inductionHypothesis =>
      exact (popOutput_sameBlocks transactionIndex chain pair).trans (inductionHypothesis _)

theorem popInput_sameBlocks {chain next : Blockchain} {input : TransactionInput}
    (popped : popInput chain input = .ok next) : SameBlocks chain next := by
  cases input with
  | key input =>
      obtain ⟨_, -, restored⟩ := except_bind_eq_ok.mp popped
      cases restored
      exact ⟨rfl, rfl⟩
  | multisignature input =>
      obtain ⟨_, -, restored⟩ := except_bind_eq_ok.mp popped
      cases restored
      exact ⟨rfl, rfl⟩
  | base _ =>
      cases popped
      exact .refl chain

theorem popInputs_sameBlocks {chain next : Blockchain} {inputs : List TransactionInput}
    (popped : popInputs chain inputs = .ok next) : SameBlocks chain next := by
  induction inputs generalizing chain with
  | nil => cases popped; exact .refl _
  | cons input rest inductionHypothesis =>
      obtain ⟨middle, first, later⟩ := except_bind_eq_ok.mp popped
      exact (popInput_sameBlocks first).trans (inductionHypothesis later)

theorem popTransaction_sameBlocks {chain next : Blockchain} {transaction : Transaction}
    {transactionHash : Hash} (popped : popTransaction chain transaction transactionHash = .ok next) :
    SameBlocks chain next := by
  unfold popTransaction at popped
  split at popped
  · cases popped
  · obtain ⟨middle, inputsPopped, erased⟩ := except_bind_eq_ok.mp popped
    cases erased
    exact (popOutputs_sameBlocks _ _ _).trans ((popInputs_sameBlocks inputsPopped).trans ⟨rfl, rfl⟩)

theorem popTransactionList_sameBlocks {chain next : Blockchain}
    {transactions : List (Transaction × Hash)} (popped : popTransactionList chain transactions = .ok next) : SameBlocks chain next := by
  induction transactions generalizing chain with
  | nil => cases popped; exact .refl _
  | cons transaction rest inductionHypothesis =>
      obtain ⟨middle, first, later⟩ := except_bind_eq_ok.mp popped
      exact (popTransaction_sameBlocks first).trans (inductionHypothesis later)

theorem popTransactions_sameBlocks {chain next : Blockchain} {block : BlockEntry}
    {minerTransactionHash : Hash} (popped : popTransactions chain block minerTransactionHash = .ok next) : SameBlocks chain next := by
  unfold popTransactions at popped
  split at popped
  · cases popped
  · split at popped
    · cases popped
    · obtain ⟨middle, later, miner⟩ := except_bind_eq_ok.mp popped
      exact (popTransactionList_sameBlocks later).trans (popTransaction_sameBlocks miner)

theorem pushTransaction_sameBlocks {chain next : Blockchain} {height : Nat}
    {transaction entry : TransactionEntry} {transactionHash : Hash}
    {transactionIndex : TransactionIndex} {recorded : Bool}
    (pushed : pushTransaction chain height transaction transactionHash transactionIndex =
      .ok (recorded, next, entry)) :
    SameBlocks chain next := by
  unfold pushTransaction at pushed
  split at pushed
  · cases pushed; exact .refl chain
  · split at pushed
    · cases pushed; exact ⟨rfl, rfl⟩
    · obtain ⟨⟨_, images⟩, -, pushed⟩ := except_bind_eq_ok.mp pushed
      dsimp only at pushed
      split at pushed
      · cases pushed; exact ⟨rfl, rfl⟩
      · obtain ⟨outputs, -, pushed⟩ := except_bind_eq_ok.mp pushed
        split at pushed
        · cases pushed
        · cases pushed; exact ⟨by simp, by simp⟩

theorem pushTransaction_of_present {chain : Blockchain} {transactionHash : Hash}
    {recorded : TransactionIndex} (present : chain.m_transactionMap transactionHash = some recorded)
    (height : Nat) (transaction : TransactionEntry) (transactionIndex : TransactionIndex) :
    pushTransaction chain height transaction transactionHash transactionIndex =
      .ok (false, chain, transaction) := by
  unfold pushTransaction
  rw [present]
  rfl

end Blockchain

end Dynex
