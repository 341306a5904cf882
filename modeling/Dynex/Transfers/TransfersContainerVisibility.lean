import Dynex.Transfers.TransfersContainerCalls

/-!
# The visible transfers of a key image

Two transactions may pay the address outputs of one key image; only one of them can be spent.
`updateTransfersVisibility` keeps one transfer of a key image visible: the spent one where there
is one, otherwise the earliest available one, otherwise the unconfirmed one where it is the only
one. `balance` and `getOutputs` read the visible transfers only.

`keyCounts` counts the transfers of a key image in each list and how many of them are visible;
`KeyCounts.Canonical` says the counts are those `updateTransfersVisibility` leaves, where the key
image is spent once at most. Every change of a call moves transfers of one key image, or of none,
and then updates the flags of that key image, so on every reachable container the counts of every
key image are canonical (`Reachable.keysVisible`), and at most one of its transfers is visible.
-/

set_option autoImplicit false

namespace Dynex

open Crypto TransactionTypes

@[simp] theorem TransactionOutputInformationEx.visible_withVisible
    (transfer : TransactionOutputInformationEx) (visible : Bool) :
    (transfer.withVisible visible).visible = visible := rfl

@[simp] theorem SpentTransactionOutput.visible_withVisible (transfer : SpentTransactionOutput)
    (visible : Bool) : (transfer.withVisible visible).visible = visible := rfl

@[simp] theorem SpentTransactionOutput.toTransactionOutputInformationIn_withVisible
    (transfer : SpentTransactionOutput) (visible : Bool) :
    (transfer.withVisible visible).toTransactionOutputInformationIn =
      transfer.toTransactionOutputInformationIn := rfl

namespace TransfersContainer

/-! ## Counting in a list -/

section Counting

variable {α : Type} {q : α → Bool} {collection : List α} {position : Nat} {element : α}

theorem countP_set_of_eq {replacement : α} (bound : position < collection.length)
    (same : q replacement = q collection[position]) :
    (collection.set position replacement).countP q = collection.countP q := by
  have unchanged := List.countP_set (p := q) (a := collection[position]) bound
  rw [List.set_getElem_self] at unchanged
  rw [List.countP_set bound, same, ← unchanged]

theorem countP_eraseIdx_of_false (found : collection[position]? = some element)
    (outside : q element = false) :
    (collection.eraseIdx position).countP q = collection.countP q := by
  have moved := (perm_eraseIdx_of_getElem? found).countP_eq q
  rw [List.countP_cons, outside] at moved
  simpa using moved

theorem countP_eraseIdx_le : (collection.eraseIdx position).countP q ≤ collection.countP q :=
  (List.eraseIdx_sublist collection position).countP_le

variable {setVisible : α → Bool → α} {inRange : α → Bool} {visible : Bool}

theorem countP_updateVisibility
    (keeps : ∀ element, inRange element = true → q (setVisible element visible) = q element) :
    (updateVisibility setVisible inRange visible collection).countP q = collection.countP q := by
  unfold updateVisibility
  rw [List.countP_map]
  refine List.countP_congr fun element _ => ?_
  by_cases inside : inRange element <;> simp [inside, keeps]

theorem countP_visible_updateVisibility {isVisible : α → Bool}
    (sets : ∀ element, isVisible (setVisible element visible) = visible)
    (stays : ∀ element, inRange (setVisible element visible) = inRange element) :
    (updateVisibility setVisible inRange visible collection).countP
        (fun element => isVisible element && inRange element) =
      if visible then collection.countP inRange else 0 := by
  unfold updateVisibility
  rw [List.countP_map]
  cases visible with
  | false =>
      refine List.countP_eq_zero.mpr fun element _ => ?_
      by_cases inside : inRange element <;> simp [inside, sets, stays]
  | true =>
      refine List.countP_congr fun element _ => ?_
      by_cases inside : inRange element <;> simp [inside, sets, stays]

theorem flag_of_mem_updateVisibility {isVisible : α → Bool}
    (sets : ∀ element, isVisible (setVisible element visible) = visible)
    (member : element ∈ updateVisibility setVisible inRange visible collection)
    (inside : inRange element = true) : isVisible element = visible := by
  obtain ⟨original, _, rfl⟩ := List.mem_map.mp member
  by_cases originalInside : inRange original
  · simp [originalInside, sets]
  · simp [originalInside] at inside

end Counting

section Earliest

variable {inRange q : TransactionOutputInformationEx → Bool}
  {available : List TransactionOutputInformationEx}

theorem iteratorList_ne_nil {α : Type} {inRange : α → Bool} {collection : List α}
    (some : 0 < collection.countP inRange) : iteratorList inRange collection ≠ [] := by
  obtain ⟨element, member, inside⟩ := List.countP_pos_iff.mp some
  obtain ⟨position, found⟩ := List.mem_iff_getElem?.mp member
  intro empty
  have listed : (element, position) ∈ iteratorList inRange collection :=
    List.mem_filter.mpr ⟨List.mem_zipIdx_iff_getElem?.mpr found, inside⟩
  rw [empty] at listed
  cases listed

theorem countP_showEarliest
    (keeps : ∀ element, inRange element = true → q (element.withVisible true) = q element) :
    (showEarliest inRange available).countP q = available.countP q := by
  unfold showEarliest
  split
  · rename_i earliest position found
    obtain ⟨at_position, inside⟩ := mem_iteratorList (minElement_mem found)
    dsimp only at at_position inside
    obtain ⟨bound, rfl⟩ := List.getElem?_eq_some_iff.mp at_position
    exact countP_set_of_eq bound (keeps _ inside)
  · rfl

theorem countP_visible_showEarliest
    (stays : ∀ element, inRange (element.withVisible true) = inRange element)
    (hidden : ∀ element ∈ available, inRange element = true → element.visible = false)
    (some : 0 < available.countP inRange) :
    (showEarliest inRange available).countP (fun element => element.visible && inRange element) =
      1 := by
  have none_visible : available.countP (fun element => element.visible && inRange element) = 0 :=
    List.countP_eq_zero.mpr fun element member => by
      by_cases inside : inRange element <;> simp [inside, hidden element member]
  unfold showEarliest
  cases found : minElement (iteratorList inRange available) with
  | none =>
      cases listed : iteratorList inRange available with
      | nil => exact absurd listed (iteratorList_ne_nil some)
      | cons first rest =>
          rw [listed] at found
          cases found
  | some it =>
      obtain ⟨earliest, position⟩ := it
      obtain ⟨at_position, inside⟩ := mem_iteratorList (minElement_mem found)
      dsimp only at at_position inside ⊢
      obtain ⟨bound, rfl⟩ := List.getElem?_eq_some_iff.mp at_position
      rw [List.countP_set bound, none_visible]
      simp [inside, stays, hidden _ (List.getElem_mem bound) inside]

end Earliest

/-! ## The counts of a key image -/

/-- The transfers of a key image in each list of a container, and how many of them are
visible. -/
structure KeyCounts where
  unconfirmed : Nat
  available : Nat
  spent : Nat
  visibleUnconfirmed : Nat
  visibleAvailable : Nat
  visibleSpent : Nat
  deriving DecidableEq, Repr

def keyCounts (keyImage : KeyImage) (c : TransfersContainer) : KeyCounts where
  unconfirmed := c.m_unconfirmedTransfers.countP (·.hasDescriptor (.key keyImage))
  available := c.m_availableTransfers.countP (·.hasDescriptor (.key keyImage))
  spent := c.m_spentTransfers.countP (·.hasDescriptor (.key keyImage))
  visibleUnconfirmed := c.m_unconfirmedTransfers.countP fun transfer =>
    transfer.visible && transfer.hasDescriptor (.key keyImage)
  visibleAvailable := c.m_availableTransfers.countP fun transfer =>
    transfer.visible && transfer.hasDescriptor (.key keyImage)
  visibleSpent := c.m_spentTransfers.countP fun transfer =>
    transfer.visible && transfer.hasDescriptor (.key keyImage)

/-- The counts `updateTransfersVisibility` leaves, where the key image is spent once at most: the
spent transfer visible where there is one; otherwise one available transfer; otherwise the
unconfirmed one where it is the only one. -/
structure KeyCounts.Canonical (counts : KeyCounts) : Prop where
  spentOnce : counts.spent ≤ 1
  spent : 0 < counts.spent →
    counts.visibleUnconfirmed = 0 ∧ counts.visibleAvailable = 0 ∧ counts.visibleSpent = 1
  available : counts.spent = 0 → 0 < counts.available →
    counts.visibleUnconfirmed = 0 ∧ counts.visibleAvailable = 1
  unconfirmed : counts.spent = 0 → counts.available = 0 →
    counts.visibleUnconfirmed = if counts.unconfirmed = 1 then 1 else 0

instance (counts : KeyCounts) : Decidable counts.Canonical :=
  decidable_of_iff
    (counts.spent ≤ 1 ∧
      (0 < counts.spent →
        counts.visibleUnconfirmed = 0 ∧ counts.visibleAvailable = 0 ∧ counts.visibleSpent = 1) ∧
      (counts.spent = 0 → 0 < counts.available →
        counts.visibleUnconfirmed = 0 ∧ counts.visibleAvailable = 1) ∧
      (counts.spent = 0 → counts.available = 0 →
        counts.visibleUnconfirmed = if counts.unconfirmed = 1 then 1 else 0))
    ⟨fun ⟨a, b, c, d⟩ => ⟨a, b, c, d⟩, fun ⟨a, b, c, d⟩ => ⟨a, b, c, d⟩⟩

def KeysVisible (c : TransfersContainer) : Prop :=
  ∀ keyImage, (keyCounts keyImage c).Canonical

section Counts

variable {keyImage keyImage' : KeyImage} {c : TransfersContainer}

theorem keyCounts_visible_le :
    (keyCounts keyImage c).visibleUnconfirmed ≤ (keyCounts keyImage c).unconfirmed ∧
      (keyCounts keyImage c).visibleAvailable ≤ (keyCounts keyImage c).available ∧
      (keyCounts keyImage c).visibleSpent ≤ (keyCounts keyImage c).spent := by
  refine ⟨?_, ?_, ?_⟩ <;> exact List.countP_mono_left fun transfer _ => by simp_all

theorem KeyCounts.Canonical.visible_le_one (canonical : (keyCounts keyImage c).Canonical) :
    (keyCounts keyImage c).visibleUnconfirmed + (keyCounts keyImage c).visibleAvailable +
      (keyCounts keyImage c).visibleSpent ≤ 1 := by
  obtain ⟨unconfirmedLe, availableLe, spentLe⟩ := @keyCounts_visible_le keyImage c
  by_cases spent : 0 < (keyCounts keyImage c).spent
  · obtain ⟨none, none', one⟩ := canonical.spent spent
    omega
  · by_cases available : 0 < (keyCounts keyImage c).available
    · obtain ⟨none, one⟩ := canonical.available (by omega) available
      omega
    · have unconfirmed := canonical.unconfirmed (by omega) (by omega)
      split at unconfirmed <;> omega

theorem hasDescriptor_key_of_ne {transfer : TransactionOutputInformationIn}
    (inside : transfer.hasDescriptor (.key keyImage) = true) (other : keyImage ≠ keyImage') :
    transfer.hasDescriptor (.key keyImage') = false := by
  obtain ⟨key, rfl⟩ := hasDescriptor_key_iff.mp inside
  exact Bool.eq_false_iff.mpr fun inside' => other (hasDescriptor_key_iff.mp inside').2

/-- What `updateTransfersVisibility` does to the counts of its key image: the transfers stay, and
the visible ones are the spent one, one available one, or the only unconfirmed one. -/
theorem keyCounts_updateTransfersVisibility :
    keyCounts keyImage (updateTransfersVisibility keyImage c) =
      let counts := keyCounts keyImage c
      if 0 < counts.spent then
        { counts with visibleUnconfirmed := 0, visibleAvailable := 0, visibleSpent := counts.spent }
      else if 0 < counts.available then
        { counts with visibleUnconfirmed := 0, visibleAvailable := 1 }
      else
        { counts with
          visibleUnconfirmed := if counts.unconfirmed = 1 then counts.unconfirmed else 0 } := by
  unfold updateTransfersVisibility
  simp only [keyCounts]
  by_cases spent : 0 < c.m_spentTransfers.countP (·.hasDescriptor (.key keyImage))
  · simp only [spent, ↓reduceIte, KeyCounts.mk.injEq]
    refine ⟨countP_updateVisibility fun _ _ => rfl, countP_updateVisibility fun _ _ => rfl,
      countP_updateVisibility fun _ _ => rfl, ?_, ?_, ?_⟩
    · exact countP_visible_updateVisibility (fun _ => rfl) (fun _ => rfl)
    · exact countP_visible_updateVisibility (fun _ => rfl) (fun _ => rfl)
    · exact countP_visible_updateVisibility (fun _ => rfl) (fun _ => rfl)
  · simp only [spent, ↓reduceIte]
    by_cases available : 0 < c.m_availableTransfers.countP (·.hasDescriptor (.key keyImage))
    · simp only [available, ↓reduceIte, KeyCounts.mk.injEq]
      refine ⟨countP_updateVisibility fun _ _ => rfl, ?_, trivial, ?_, ?_, trivial⟩
      · rw [countP_showEarliest fun _ _ => rfl]
        exact countP_updateVisibility fun _ _ => rfl
      · exact countP_visible_updateVisibility (fun _ => rfl) (fun _ => rfl)
      · refine countP_visible_showEarliest (fun _ => rfl) (fun transfer member inside =>
          flag_of_mem_updateVisibility (fun _ => rfl) member inside) ?_
        · rw [countP_updateVisibility fun _ _ => rfl]
          exact available
    · simp only [available, ↓reduceIte, KeyCounts.mk.injEq]
      refine ⟨countP_updateVisibility fun _ _ => rfl, trivial, trivial, ?_, trivial, trivial⟩
      rw [countP_visible_updateVisibility (fun _ => rfl) (fun _ => rfl)]
      exact if_congr beq_iff_eq rfl rfl

theorem canonical_updateTransfersVisibility (spentOnce : (keyCounts keyImage c).spent ≤ 1) :
    (keyCounts keyImage (updateTransfersVisibility keyImage c)).Canonical := by
  rw [keyCounts_updateTransfersVisibility]
  dsimp only
  split
  · rename_i spent
    refine ⟨spentOnce, fun _ => ⟨rfl, rfl, ?_⟩, fun none => ?_, fun none => ?_⟩ <;>
      dsimp only at * <;> omega
  · rename_i spent
    split
    · rename_i available
      refine ⟨spentOnce, fun some => ?_, fun _ _ => ⟨rfl, rfl⟩, fun _ none => ?_⟩ <;>
        dsimp only at * <;> omega
    · rename_i available
      refine ⟨spentOnce, fun some => ?_, fun _ some => ?_, fun _ _ => ?_⟩ <;> dsimp only at *
      · omega
      · omega
      · split <;> simp_all

/-- `updateTransfersVisibility` changes no count of another key image: the transfers whose flags
it sets are of no other key image. -/
theorem keyCounts_updateTransfersVisibility_of_ne (other : keyImage ≠ keyImage') :
    keyCounts keyImage' (updateTransfersVisibility keyImage c) = keyCounts keyImage' c := by
  have visibleKey : ∀ visible (transfer : TransactionOutputInformationEx),
      transfer.hasDescriptor (.key keyImage) = true →
        ((transfer.withVisible visible).visible &&
            (transfer.withVisible visible).hasDescriptor (.key keyImage')) =
          (transfer.visible && transfer.hasDescriptor (.key keyImage')) := fun _ _ inside => by
    simp [hasDescriptor_key_of_ne inside other]
  have visibleSpentKey : ∀ visible (transfer : SpentTransactionOutput),
      transfer.hasDescriptor (.key keyImage) = true →
        ((transfer.withVisible visible).visible &&
            (transfer.withVisible visible).hasDescriptor (.key keyImage')) =
          (transfer.visible && transfer.hasDescriptor (.key keyImage')) := fun _ _ inside => by
    simp [hasDescriptor_key_of_ne inside other]
  unfold updateTransfersVisibility keyCounts
  dsimp only
  split
  · congr 1
    · exact countP_updateVisibility fun _ _ => rfl
    · exact countP_updateVisibility fun _ _ => rfl
    · exact countP_updateVisibility fun _ _ => rfl
    · exact countP_updateVisibility (visibleKey false)
    · exact countP_updateVisibility (visibleKey false)
    · exact countP_updateVisibility (visibleSpentKey true)
  · split
    · congr 1
      · exact countP_updateVisibility fun _ _ => rfl
      · rw [countP_showEarliest fun _ _ => rfl]
        exact countP_updateVisibility fun _ _ => rfl
      · exact countP_updateVisibility (visibleKey false)
      · rw [countP_showEarliest (visibleKey true)]
        exact countP_updateVisibility (visibleKey false)
    · congr 1
      · exact countP_updateVisibility fun _ _ => rfl
      · exact countP_updateVisibility (visibleKey _)

end Counts

/-! ## Every reachable container -/

section Visible

variable {c d : TransfersContainer}

section Descriptors

variable {block : TransactionBlockInfo} {tx : TransactionReader} {i : Nat}
  {descriptor : SpentOutputDescriptor}

@[simp] theorem hasDescriptor_outputInformation {transfer : TransactionOutputInformationIn} :
    (outputInformation block tx transfer).hasDescriptor descriptor =
      transfer.hasDescriptor descriptor := rfl

@[simp] theorem hasDescriptor_spentOutput {output : TransactionOutputInformationEx} :
    (spentOutput block tx i output).hasDescriptor descriptor = output.hasDescriptor descriptor := rfl

@[simp] theorem visible_spentOutput {output : TransactionOutputInformationEx} :
    (spentOutput block tx i output).visible = output.visible := rfl

theorem countP_copyToSpent_of_false {output : TransactionOutputInformationEx}
    {q : SpentTransactionOutput → Bool} (outside : q (spentOutput block tx i output) = false) :
    (copyToSpent block tx i output c).m_spentTransfers.countP q = c.m_spentTransfers.countP q := by
  unfold copyToSpent
  dsimp only
  split
  · rfl
  · simp [outside]

end Descriptors

theorem KeysVisible.updateKeyVisibility (visible : KeysVisible c)
    {transfer : TransactionOutputInformationIn}
    (others : ∀ keyImage, transfer.hasDescriptor (.key keyImage) = false →
      keyCounts keyImage d = keyCounts keyImage c)
    (spentOnce : ∀ keyImage, transfer.hasDescriptor (.key keyImage) = true →
      (keyCounts keyImage d).spent ≤ 1) :
    KeysVisible (TransfersContainer.updateKeyVisibility transfer d) := by
  intro keyImage
  unfold TransfersContainer.updateKeyVisibility
  by_cases key : transfer.type = .Key
  · rw [if_pos (by simp [key])]
    by_cases same : transfer.keyImage = keyImage
    · subst same
      exact canonical_updateTransfersVisibility (spentOnce _ (hasDescriptor_key_iff.mpr ⟨key, rfl⟩))
    · have outside : transfer.hasDescriptor (.key keyImage) = false :=
        Bool.eq_false_iff.mpr fun inside => same (hasDescriptor_key_iff.mp inside).2
      rw [keyCounts_updateTransfersVisibility_of_ne same, others keyImage outside]
      exact visible keyImage
  · have outside : transfer.hasDescriptor (.key keyImage) = false :=
      Bool.eq_false_iff.mpr fun inside => key (hasDescriptor_key_iff.mp inside).1
    rw [if_neg (by simp [key]), others keyImage outside]
    exact visible keyImage

theorem KeysVisible.updateKeyVisibility_of_spent_le (visible : KeysVisible c)
    {transfer : TransactionOutputInformationIn}
    (others : ∀ keyImage, transfer.hasDescriptor (.key keyImage) = false →
      keyCounts keyImage d = keyCounts keyImage c)
    (spentLe : ∀ keyImage, (keyCounts keyImage d).spent ≤ (keyCounts keyImage c).spent) :
    KeysVisible (TransfersContainer.updateKeyVisibility transfer d) :=
  visible.updateKeyVisibility others fun keyImage _ =>
    le_trans (spentLe keyImage) (visible keyImage).spentOnce

theorem keysVisible_empty : KeysVisible empty := fun _ =>
  ⟨Nat.zero_le 1, fun none => absurd none (Nat.lt_irrefl 0),
    fun _ none => absurd none (Nat.lt_irrefl 0), fun _ _ => rfl⟩

/-- Every change keeps every key image canonical. -/
theorem keysVisible_preserved : Preserved KeysVisible where
  addUnconfirmed visible _ := by
    refine visible.updateKeyVisibility_of_spent_le (fun keyImage outside => ?_) fun _ => le_rfl
    simp [keyCounts, outside, -toTransactionOutputInformationIn_outputInformation]
  addAvailable visible _ _ := by
    refine visible.updateKeyVisibility_of_spent_le (fun keyImage outside => ?_) fun _ => le_rfl
    simp [keyCounts, outside, -toTransactionOutputInformationIn_outputInformation]
  spend {block tx i spending position c} visible found kind := by
    unfold spendAvailable
    apply visible.updateKeyVisibility
    · intro keyImage outside
      simp [keyCounts, countP_eraseIdx_of_false found, countP_copyToSpent_of_false, outside]
    · intro keyImage inside
      obtain ⟨key, rfl⟩ := hasDescriptor_key_iff.mp inside
      rcases kind with ⟨-, unspent⟩ | multisignature
      · have free : spending.descriptor.any
            (fun descriptor => c.m_spentTransfers.any (·.hasDescriptor descriptor)) = false := by
          simpa [TransactionOutputInformationIn.descriptor, key] using unspent
        have none : c.m_spentTransfers.countP (·.hasDescriptor (.key spending.keyImage)) = 0 :=
          List.countP_eq_zero.mpr fun spent member => by
            simpa using List.all_eq_true.mp unspent spent member
        simp [keyCounts, copyToSpent_of_free free, none, inside]
      · rw [key] at multisignature
        cases multisignature
  restore visible found := by
    refine visible.updateKeyVisibility_of_spent_le (fun keyImage outside => ?_)
      fun _ => countP_eraseIdx_le
    simp [keyCounts, countP_eraseIdx_of_false found, outside]
  eraseUnconfirmed visible found := by
    refine visible.updateKeyVisibility_of_spent_le (fun keyImage outside => ?_) fun _ => le_rfl
    simp [keyCounts, countP_eraseIdx_of_false found, outside]
  eraseAvailable visible found := by
    refine visible.updateKeyVisibility_of_spent_le (fun keyImage outside => ?_) fun _ => le_rfl
    simp [keyCounts, countP_eraseIdx_of_false found, outside]
  confirm {block position transfer confirmed c} visible _ found shape _ := by
    obtain ⟨globalOutputIndex, rfl⟩ := shape
    refine visible.updateKeyVisibility_of_spent_le (fun keyImage outside => ?_) fun _ => le_rfl
    have outside' : transfer.hasDescriptor (.key keyImage) = false := by
      rw [← outside]
      exact Bool.eq_iff_iff.mpr (by rw [hasDescriptor_key_iff, hasDescriptor_key_iff])
    simp [keyCounts, countP_eraseIdx_of_false found, outside, outside']
  record visible := by
    unfold insertTransaction
    split
    · exact visible
    · exact visible
  confirmRecord visible := visible
  spendAtBlock {block transactionHash c} visible := by
    intro keyImage
    have same : keyCounts keyImage (TransfersContainer.spendAtBlock block transactionHash c) =
        keyCounts keyImage c := by
      simp only [keyCounts, TransfersContainer.spendAtBlock, List.countP_map]
      congr 1 <;> refine List.countP_congr fun spent _ => ?_ <;> simp only [Function.comp_apply] <;>
        split <;> rfl
    rw [same]
    exact visible keyImage
  eraseRecord visible := visible
  height visible := visible

theorem Reachable.keysVisible (reachable : Reachable c) : KeysVisible c :=
  keysVisible_preserved.reachable keysVisible_empty reachable

/-- On every reachable container, the flags of every key image are those
`updateTransfersVisibility` leaves, and at most one transfer of a key image is visible. -/
theorem key_image_visible_once (reachable : Reachable c) (keyImage : KeyImage) :
    (keyCounts keyImage c).Canonical ∧
      (keyCounts keyImage c).visibleUnconfirmed + (keyCounts keyImage c).visibleAvailable +
        (keyCounts keyImage c).visibleSpent ≤ 1 :=
  ⟨reachable.keysVisible keyImage, (reachable.keysVisible keyImage).visible_le_one⟩

/-- The container with the pooled transaction: its output is the only transfer of its key
image. -/
theorem pending_key_image_visible_once :
    Reachable pendingContainer ∧
      ((keyCounts poolTransfer.keyImage pendingContainer).Canonical ∧
        (keyCounts poolTransfer.keyImage pendingContainer).visibleUnconfirmed +
            (keyCounts poolTransfer.keyImage pendingContainer).visibleAvailable +
          (keyCounts poolTransfer.keyImage pendingContainer).visibleSpent ≤ 1) :=
  ⟨reachable_pendingContainer, key_image_visible_once reachable_pendingContainer poolTransfer.keyImage⟩

end Visible

end TransfersContainer

end Dynex
