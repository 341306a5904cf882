import Dynex.Core.TransactionPool

/-!
# The pool's double-spend indices

Over every run of `add_tx`, `take_tx` and `removeExpiredTransactions` from the empty pool, for
transactions whose key images and multisignature inputs are pairwise distinct (what
`check_tx_semantic` is relied on for), `m_spent_key_images` maps each key image to exactly the
ids of the pooled transactions spending it and `m_spentOutputs` is exactly the set of outputs
spent by pooled transactions not kept by a block (`Consistent`). A failed `add_tx` changes
nothing.

The argument is one characterisation per loop: `addTransactionInputs` registers every key image
and output of a transaction the pool's checks let through (`addTransactionInputs_eq`), and
`removeTransactionInputs` releases those of a pooled transaction (`removeTransactionInputs_eq`).
Each is then matched with the indices computed from the transaction list.
-/

set_option autoImplicit false

namespace Dynex

open Crypto

namespace TxMemoryPool

/-! ## The indices a list of pooled transactions determines -/

/-- The key images of the key inputs, in order. -/
def keyImages (inputs : List TransactionInput) : List KeyImage :=
  inputs.filterMap fun
    | .key input => some input.keyImage
    | _ => none

/-- The outputs the multisignature inputs spend, in order. -/
def multisignatureOutputs (inputs : List TransactionInput) : List (UInt64 × UInt64) :=
  inputs.filterMap fun
    | .multisignature input => some (globalOutput input)
    | _ => none

def DistinctInputs (tx : Transaction) : Prop :=
  (keyImages tx.inputs).Nodup ∧ (multisignatureOutputs tx.inputs).Nodup

def spenders (txs : List TransactionDetails) (keyImage : KeyImage) : Finset Hash :=
  ((txs.filter fun details => keyImage ∈ keyImages details.tx.inputs).map (·.id)).toFinset

def spentKeyImagesOf (txs : List TransactionDetails) (keyImage : KeyImage) : Option (Finset Hash) :=
  if spenders txs keyImage = ∅ then none else some (spenders txs keyImage)

def spentOutputsOf (txs : List TransactionDetails) : Finset (UInt64 × UInt64) :=
  ((txs.filter (!·.keptByBlock)).flatMap fun details =>
    multisignatureOutputs details.tx.inputs).toFinset

theorem mem_spenders {txs : List TransactionDetails} {keyImage : KeyImage} {id : Hash} :
    id ∈ spenders txs keyImage ↔
      ∃ details ∈ txs, keyImage ∈ keyImages details.tx.inputs ∧ details.id = id := by
  simp [spenders, and_assoc]

theorem keyImages_cons_key (input : KeyInput) (rest : List TransactionInput) :
    keyImages (.key input :: rest) = input.keyImage :: keyImages rest := rfl

theorem keyImages_cons_multisignature (input : MultisignatureInput) (rest : List TransactionInput) :
    keyImages (.multisignature input :: rest) = keyImages rest := rfl

theorem multisignatureOutputs_cons_key (input : KeyInput) (rest : List TransactionInput) :
    multisignatureOutputs (.key input :: rest) = multisignatureOutputs rest := rfl

theorem multisignatureOutputs_cons_multisignature (input : MultisignatureInput)
    (rest : List TransactionInput) :
    multisignatureOutputs (.multisignature input :: rest) =
      globalOutput input :: multisignatureOutputs rest := rfl

/-! ## Registering the inputs of an added transaction -/

def registerKeyImages (spent : KeyImage → Option (Finset Hash)) (id : Hash) (keys : List KeyImage) :
    KeyImage → Option (Finset Hash) :=
  fun keyImage => if keyImage ∈ keys then some (insert id ((spent keyImage).getD ∅)) else spent keyImage

theorem registerKeyImages_cons (spent : KeyImage → Option (Finset Hash)) (id : Hash)
    {keyImage : KeyImage} {keys : List KeyImage} (unlisted : keyImage ∉ keys) :
    registerKeyImages spent id (keyImage :: keys) =
      registerKeyImages (Function.update spent keyImage (some (insert id ((spent keyImage).getD ∅))))
        id keys := by
  funext other
  by_cases same : other = keyImage
  · subst same
    simp [registerKeyImages, unlisted]
  · simp [registerKeyImages, same]

/-- Given a transaction whose key images are distinct, not yet spent by it, and (unless it is
kept by a block) not spent at all, `addTransactionInputs` registers every key image and, unless
the transaction is kept by a block, every multisignature output, and reports success. -/
theorem addTransactionInputs_eq {id : Hash} {keptByBlock : Bool} {pool : TxMemoryPool}
    {inputs : List TransactionInput} (distinct : (keyImages inputs).Nodup)
    (fresh : ∀ keyImage ∈ keyImages inputs, id ∉ (pool.m_spent_key_images keyImage).getD ∅)
    (unspent : keptByBlock = true ∨
      ∀ keyImage ∈ keyImages inputs, pool.m_spent_key_images keyImage = none) :
    addTransactionInputs id keptByBlock pool inputs = (true, { pool with
      m_spent_key_images := registerKeyImages pool.m_spent_key_images id (keyImages inputs)
      m_spentOutputs := if keptByBlock then pool.m_spentOutputs
        else pool.m_spentOutputs ∪ (multisignatureOutputs inputs).toFinset }) := by
  induction inputs generalizing pool with
  | nil =>
      have unchanged : registerKeyImages pool.m_spent_key_images id [] = pool.m_spent_key_images := by
        funext keyImage
        simp [registerKeyImages]
      cases keptByBlock <;> simp [addTransactionInputs, keyImages, unchanged, multisignatureOutputs]
  | cons input rest inductionHypothesis =>
      cases input with
      | base input => exact inductionHypothesis distinct fresh unspent
      | key input =>
          rw [keyImages_cons_key, List.nodup_cons] at distinct
          obtain ⟨unlisted, distinctRest⟩ := distinct
          have notYet := fresh input.keyImage List.mem_cons_self
          have passes : (keptByBlock || ((pool.m_spent_key_images input.keyImage).getD ∅).card == 0)
              = true := by
            rcases unspent with kept | absent
            · simp [kept]
            · simp [absent input.keyImage List.mem_cons_self]
          have step : addTransactionInput id keptByBlock pool (.key input) = (true, { pool with
              m_spent_key_images := Function.update pool.m_spent_key_images input.keyImage
                (some (insert id ((pool.m_spent_key_images input.keyImage).getD ∅))) }) := by
            simp only [addTransactionInput, passes, Bool.not_true, Bool.false_eq_true, if_false,
              notYet, Function.update_idem]
          have later := @inductionHypothesis { pool with
              m_spent_key_images := Function.update pool.m_spent_key_images input.keyImage
                (some (insert id ((pool.m_spent_key_images input.keyImage).getD ∅))) }
            distinctRest
            (fun other listed => by
              have differs : other ≠ input.keyImage := fun same => unlisted (same ▸ listed)
              simpa [differs] using fresh other (List.mem_cons_of_mem _ listed))
            (unspent.imp_right fun absent other listed => by
              have differs : other ≠ input.keyImage := fun same => unlisted (same ▸ listed)
              simpa [differs] using absent other (List.mem_cons_of_mem _ listed))
          simp only [addTransactionInputs, step, later, keyImages_cons_key,
            multisignatureOutputs_cons_key, registerKeyImages_cons _ _ unlisted]
      | multisignature input =>
          cases keptByBlock with
          | false =>
              have later := @inductionHypothesis { pool with
                m_spentOutputs := insert (globalOutput input) pool.m_spentOutputs } distinct fresh
                unspent
              simp only [addTransactionInputs, addTransactionInput, Bool.not_false, if_true, later,
                keyImages_cons_multisignature, multisignatureOutputs_cons_multisignature,
                Bool.false_eq_true, if_false, List.toFinset_cons, Finset.insert_union,
                Finset.union_insert]
          | true =>
              have later := @inductionHypothesis pool distinct fresh unspent
              simp only [addTransactionInputs, addTransactionInput, Bool.not_true,
                Bool.false_eq_true, if_false, later, keyImages_cons_multisignature, if_true]

/-! ## Releasing the inputs of a removed transaction -/

def releasedSet (spentBy : Option (Finset Hash)) (id : Hash) : Option (Finset Hash) :=
  if (spentBy.getD ∅).erase id = ∅ then none else some ((spentBy.getD ∅).erase id)

def releaseKeyImages (spent : KeyImage → Option (Finset Hash)) (id : Hash) (keys : List KeyImage) :
    KeyImage → Option (Finset Hash) :=
  fun keyImage => if keyImage ∈ keys then releasedSet (spent keyImage) id else spent keyImage

theorem releaseKeyImages_cons (spent : KeyImage → Option (Finset Hash)) (id : Hash)
    {keyImage : KeyImage} {keys : List KeyImage} (unlisted : keyImage ∉ keys) :
    releaseKeyImages spent id (keyImage :: keys) =
      releaseKeyImages (Function.update spent keyImage (releasedSet (spent keyImage) id)) id keys := by
  funext other
  by_cases same : other = keyImage
  · subst same
    simp [releaseKeyImages, unlisted]
  · simp [releaseKeyImages, same]

/-- Given a transaction whose key images are distinct and each recorded as spent by it,
`removeTransactionInputs` releases every key image and, unless the transaction was kept by a
block, every multisignature output, and reports success. -/
theorem removeTransactionInputs_eq {id : Hash} {keptByBlock : Bool} {pool : TxMemoryPool}
    {inputs : List TransactionInput} (distinct : (keyImages inputs).Nodup)
    (recorded : ∀ keyImage ∈ keyImages inputs,
      ∃ spentBy, pool.m_spent_key_images keyImage = some spentBy ∧ id ∈ spentBy) :
    removeTransactionInputs id keptByBlock pool inputs = (true, { pool with
      m_spent_key_images := releaseKeyImages pool.m_spent_key_images id (keyImages inputs)
      m_spentOutputs := if keptByBlock then pool.m_spentOutputs
        else pool.m_spentOutputs \ (multisignatureOutputs inputs).toFinset }) := by
  induction inputs generalizing pool with
  | nil =>
      have unchanged : releaseKeyImages pool.m_spent_key_images id [] = pool.m_spent_key_images := by
        funext keyImage
        simp [releaseKeyImages]
      cases keptByBlock <;>
        simp [removeTransactionInputs, keyImages, unchanged, multisignatureOutputs]
  | cons input rest inductionHypothesis =>
      cases input with
      | base input => exact inductionHypothesis distinct recorded
      | key input =>
          rw [keyImages_cons_key, List.nodup_cons] at distinct
          obtain ⟨unlisted, distinctRest⟩ := distinct
          obtain ⟨spentBy, found, member⟩ := recorded input.keyImage List.mem_cons_self
          have nonempty : spentBy ≠ ∅ := Finset.ne_empty_of_mem member
          have step : removeTransactionInput id keptByBlock pool (.key input) = (true, { pool with
              m_spent_key_images := Function.update pool.m_spent_key_images input.keyImage
                (releasedSet (pool.m_spent_key_images input.keyImage) id) }) := by
            simp [removeTransactionInput, found, nonempty, member, releasedSet]
          have later := @inductionHypothesis { pool with
              m_spent_key_images := Function.update pool.m_spent_key_images input.keyImage
                (releasedSet (pool.m_spent_key_images input.keyImage) id) }
            distinctRest
            (fun other listed => by
              have differs : other ≠ input.keyImage := fun same => unlisted (same ▸ listed)
              simpa [differs] using recorded other (List.mem_cons_of_mem _ listed))
          simp only [removeTransactionInputs, step, later, keyImages_cons_key,
            multisignatureOutputs_cons_key, releaseKeyImages_cons _ _ unlisted]
      | multisignature input =>
          cases keptByBlock with
          | false =>
              have later := @inductionHypothesis { pool with
                m_spentOutputs := pool.m_spentOutputs.erase (globalOutput input) } distinct recorded
              simp only [removeTransactionInputs, removeTransactionInput, Bool.not_false, if_true,
                later]
              simp only [keyImages_cons_multisignature, multisignatureOutputs_cons_multisignature,
                Bool.false_eq_true, if_false, List.toFinset_cons, Finset.erase_eq, sdiff_sdiff_left,
                Finset.sup_eq_union, Finset.insert_eq]
          | true =>
              have later := @inductionHypothesis pool distinct recorded
              simp only [removeTransactionInputs, removeTransactionInput, Bool.not_true,
                Bool.false_eq_true, if_false, later, keyImages_cons_multisignature, if_true]
/-! ## The indices of a changed list of transactions -/

theorem getD_spentKeyImagesOf (txs : List TransactionDetails) (keyImage : KeyImage) :
    (spentKeyImagesOf txs keyImage).getD ∅ = spenders txs keyImage := by
  unfold spentKeyImagesOf
  split
  · rename_i empty
    simp [empty]
  · rfl

theorem spenders_append (txs : List TransactionDetails) (details : TransactionDetails)
    (keyImage : KeyImage) :
    spenders (txs ++ [details]) keyImage =
      if keyImage ∈ keyImages details.tx.inputs then insert details.id (spenders txs keyImage)
      else spenders txs keyImage := by
  ext id
  by_cases spent : keyImage ∈ keyImages details.tx.inputs
  · simp only [mem_spenders, List.mem_append, List.mem_singleton, spent, if_true,
      Finset.mem_insert]
    constructor
    · rintro ⟨other, (member | rfl), spends, rfl⟩
      · exact .inr ⟨other, member, spends, rfl⟩
      · exact .inl rfl
    · rintro (rfl | ⟨other, member, spends, rfl⟩)
      · exact ⟨details, .inr rfl, spent, rfl⟩
      · exact ⟨other, .inl member, spends, rfl⟩
  · simp only [mem_spenders, List.mem_append, List.mem_singleton, spent, if_false]
    constructor
    · rintro ⟨other, (member | rfl), spends, rfl⟩
      · exact ⟨other, member, spends, rfl⟩
      · exact absurd spends spent
    · rintro ⟨other, member, spends, rfl⟩
      exact ⟨other, .inl member, spends, rfl⟩

theorem spenders_filter (txs : List TransactionDetails) (id : Hash) (keyImage : KeyImage) :
    spenders (txs.filter (·.id != id)) keyImage = (spenders txs keyImage).erase id := by
  ext other
  simp only [mem_spenders, List.mem_filter, Finset.mem_erase, bne_iff_ne, ne_eq]
  constructor
  · rintro ⟨details, ⟨member, kept⟩, spends, rfl⟩
    exact ⟨kept, details, member, spends, rfl⟩
  · rintro ⟨kept, details, member, spends, rfl⟩
    exact ⟨details, ⟨member, kept⟩, spends, rfl⟩

theorem registerKeyImages_spentKeyImagesOf (txs : List TransactionDetails)
    (details : TransactionDetails) :
    registerKeyImages (spentKeyImagesOf txs) details.id (keyImages details.tx.inputs) =
      spentKeyImagesOf (txs ++ [details]) := by
  funext keyImage
  by_cases spent : keyImage ∈ keyImages details.tx.inputs
  · have nonempty : insert details.id (spenders txs keyImage) ≠ ∅ := Finset.insert_ne_empty _ _
    simp only [registerKeyImages, spent, if_true, getD_spentKeyImagesOf]
    simp [spentKeyImagesOf, spenders_append, spent, nonempty]
  · simp [registerKeyImages, spent, spentKeyImagesOf, spenders_append]

theorem releaseKeyImages_spentKeyImagesOf {txs : List TransactionDetails}
    {details : TransactionDetails} (member : details ∈ txs) (ids : (txs.map (·.id)).Nodup) :
    releaseKeyImages (spentKeyImagesOf txs) details.id (keyImages details.tx.inputs) =
      spentKeyImagesOf (txs.filter (·.id != details.id)) := by
  funext keyImage
  by_cases spent : keyImage ∈ keyImages details.tx.inputs
  · simp only [releaseKeyImages, spent, if_true, releasedSet, getD_spentKeyImagesOf]
    simp [spentKeyImagesOf, spenders_filter]
  · have notSpender : details.id ∉ spenders txs keyImage := by
      rw [mem_spenders]
      rintro ⟨other, otherMember, spends, same⟩
      have identical := List.inj_on_of_nodup_map ids otherMember member same
      subst identical
      exact spent spends
    simp [releaseKeyImages, spent, spentKeyImagesOf, spenders_filter,
      Finset.erase_eq_of_notMem notSpender]

theorem spentOutputsOf_append (txs : List TransactionDetails) (details : TransactionDetails) :
    spentOutputsOf (txs ++ [details]) =
      if details.keptByBlock then spentOutputsOf txs
      else spentOutputsOf txs ∪ (multisignatureOutputs details.tx.inputs).toFinset := by
  cases kept : details.keptByBlock <;> simp [spentOutputsOf, List.filter_append, kept]

def SpendApart (first second : TransactionDetails) : Prop :=
  (keyImages first.tx.inputs).Disjoint (keyImages second.tx.inputs) ∧
    (multisignatureOutputs first.tx.inputs).Disjoint (multisignatureOutputs second.tx.inputs)

instance : Std.Symm SpendApart := ⟨fun _ _ apart => ⟨apart.1.symm, apart.2.symm⟩⟩

def Unshared (txs : List TransactionDetails) : Prop :=
  (txs.filter (!·.keptByBlock)).Pairwise SpendApart

theorem Unshared.spendApart {txs : List TransactionDetails} (unshared : Unshared txs)
    {first second : TransactionDetails} (firstMember : first ∈ txs) (secondMember : second ∈ txs)
    (firstUnkept : first.keptByBlock = false) (secondUnkept : second.keptByBlock = false)
    (differs : first.id ≠ second.id) : SpendApart first second :=
  unshared.forall (List.mem_filter.mpr ⟨firstMember, by simp [firstUnkept]⟩)
    (List.mem_filter.mpr ⟨secondMember, by simp [secondUnkept]⟩)
    (fun same => differs (congrArg TransactionDetails.id same))

theorem mem_spentOutputsOf {txs : List TransactionDetails} {output : UInt64 × UInt64} :
    output ∈ spentOutputsOf txs ↔
      ∃ details ∈ txs, details.keptByBlock = false ∧
        output ∈ multisignatureOutputs details.tx.inputs := by
  simp [spentOutputsOf, and_assoc]

/-- Releasing the outputs of a transaction of the list gives the outputs of the list without it,
when no other transaction has its id and no other unkept transaction spends its outputs. -/
theorem spentOutputsOf_filter {txs : List TransactionDetails} {details : TransactionDetails}
    (member : details ∈ txs) (ids : (txs.map (·.id)).Nodup) (unshared : Unshared txs) :
    spentOutputsOf (txs.filter (·.id != details.id)) =
      if details.keptByBlock then spentOutputsOf txs
      else spentOutputsOf txs \ (multisignatureOutputs details.tx.inputs).toFinset := by
  ext output
  cases kept : details.keptByBlock with
  | true =>
      simp only [if_true, mem_spentOutputsOf, List.mem_filter, bne_iff_ne, ne_eq]
      constructor
      · rintro ⟨other, ⟨otherMember, -⟩, unkept, spends⟩
        exact ⟨other, otherMember, unkept, spends⟩
      · rintro ⟨other, otherMember, unkept, spends⟩
        refine ⟨other, ⟨otherMember, fun same => ?_⟩, unkept, spends⟩
        have identical := List.inj_on_of_nodup_map ids otherMember member same
        subst identical
        simp [kept] at unkept
  | false =>
      simp only [Bool.false_eq_true, if_false, Finset.mem_sdiff, mem_spentOutputsOf,
        List.mem_filter, List.mem_toFinset, bne_iff_ne, ne_eq]
      constructor
      · rintro ⟨other, ⟨otherMember, differs⟩, unkept, spends⟩
        refine ⟨⟨other, otherMember, unkept, spends⟩, fun released => ?_⟩
        exact (unshared.spendApart otherMember member unkept kept differs).2 spends released
      · rintro ⟨⟨other, otherMember, unkept, spends⟩, notReleased⟩
        refine ⟨other, ⟨otherMember, fun same => ?_⟩, unkept, spends⟩
        have identical := List.inj_on_of_nodup_map ids otherMember member same
        subst identical
        exact notReleased spends
/-! ## The invariant -/

/-- The pool's double-spend indices are those its transactions determine, and its transactions
have distinct ids and distinct inputs, the unkept ones spending apart. -/
structure Consistent (pool : TxMemoryPool) : Prop where
  ids : (pool.m_transactions.map (·.id)).Nodup
  distinct : ∀ details ∈ pool.m_transactions, DistinctInputs details.tx
  spentKeyImages : pool.m_spent_key_images = spentKeyImagesOf pool.m_transactions
  spentOutputs : pool.m_spentOutputs = spentOutputsOf pool.m_transactions
  unshared : Unshared pool.m_transactions

theorem consistent_empty (blockchainIndexesEnabled : Bool) :
    Consistent (empty blockchainIndexesEnabled) := by
  refine ⟨List.nodup_nil, (fun _ member => nomatch member), ?_, ?_, List.Pairwise.nil⟩
  · funext keyImage
    simp [empty, spentKeyImagesOf, spenders]
  · simp [empty, spentOutputsOf]

theorem mem_keyImages {inputs : List TransactionInput} {keyImage : KeyImage} :
    keyImage ∈ keyImages inputs ↔ ∃ input : KeyInput, .key input ∈ inputs ∧ input.keyImage = keyImage := by
  simp only [keyImages, List.mem_filterMap]
  constructor
  · rintro ⟨input, member, found⟩
    cases input with
    | key input => exact ⟨input, member, Option.some.inj found⟩
    | base _ => cases found
    | multisignature _ => cases found
  · rintro ⟨input, member, rfl⟩
    exact ⟨.key input, member, rfl⟩

theorem mem_multisignatureOutputs {inputs : List TransactionInput} {output : UInt64 × UInt64} :
    output ∈ multisignatureOutputs inputs ↔
      ∃ input : MultisignatureInput, .multisignature input ∈ inputs ∧ globalOutput input = output := by
  simp only [multisignatureOutputs, List.mem_filterMap]
  constructor
  · rintro ⟨input, member, found⟩
    cases input with
    | multisignature input => exact ⟨input, member, Option.some.inj found⟩
    | base _ => cases found
    | key _ => cases found
  · rintro ⟨input, member, rfl⟩
    exact ⟨.multisignature input, member, rfl⟩

theorem unspent_of_haveSpentInputs {pool : TxMemoryPool} {tx : Transaction}
    (unspent : pool.haveSpentInputs tx = false) :
    (∀ keyImage ∈ keyImages tx.inputs, pool.m_spent_key_images keyImage = none) ∧
      ∀ output ∈ multisignatureOutputs tx.inputs, output ∉ pool.m_spentOutputs := by
  rw [haveSpentInputs, List.any_eq_false] at unspent
  constructor
  · intro keyImage spent
    obtain ⟨input, member, rfl⟩ := mem_keyImages.mp spent
    simpa using unspent _ member
  · intro output spent
    obtain ⟨input, member, rfl⟩ := mem_multisignatureOutputs.mp spent
    simpa using unspent _ member

variable (env : PoolEnvironment)

/-- `removeTransaction` of a pooled transaction keeps the pool consistent and removes exactly
that transaction. -/
theorem removeTransaction_consistent {pool : TxMemoryPool} (consistent : Consistent pool)
    {details : TransactionDetails} (member : details ∈ pool.m_transactions) :
    Consistent (removeTransaction env pool details) ∧
      (removeTransaction env pool details).m_transactions =
        pool.m_transactions.filter (·.id != details.id) := by
  have recorded : ∀ keyImage ∈ keyImages details.tx.inputs,
      ∃ spentBy, pool.m_spent_key_images keyImage = some spentBy ∧ details.id ∈ spentBy := by
    intro keyImage spent
    have spender : details.id ∈ spenders pool.m_transactions keyImage :=
      mem_spenders.mpr ⟨details, member, spent, rfl⟩
    refine ⟨spenders pool.m_transactions keyImage, ?_, spender⟩
    rw [consistent.spentKeyImages, spentKeyImagesOf, if_neg (Finset.ne_empty_of_mem spender)]
  have released := @removeTransactionInputs_eq details.id details.keptByBlock pool
    details.tx.inputs (consistent.distinct details member).1 recorded
  have remaining : (removeTransaction env pool details).m_transactions =
      pool.m_transactions.filter (·.id != details.id) := by
    simp only [removeTransaction, released]
  refine ⟨⟨?_, ?_, ?_, ?_, ?_⟩, remaining⟩
  · rw [remaining]
    exact consistent.ids.sublist (List.filter_sublist.map _)
  · intro other otherMember
    rw [remaining] at otherMember
    exact consistent.distinct other (List.mem_of_mem_filter otherMember)
  · simp only [removeTransaction, released, consistent.spentKeyImages]
    exact releaseKeyImages_spentKeyImagesOf member consistent.ids
  · simp only [removeTransaction, released, consistent.spentOutputs]
    rw [spentOutputsOf_filter member consistent.ids consistent.unshared]
  · rw [remaining]
    exact consistent.unshared.sublist (List.filter_sublist.filter _)
/-- The pool once `add_tx` has inserted the transaction and filed it in the explorer indices,
before it registers the inputs. -/
def inserted (pool : TxMemoryPool) (tx : Transaction) (id : Hash) (blobSize : Nat)
    (keptByBlock : Bool) (now : UInt64) : TxMemoryPool :=
  { pool with
    m_transactions := pool.m_transactions ++
      [⟨id, tx, blobSize, getInputAmount tx - getOutputAmount tx, keptByBlock, now⟩]
    m_paymentIdIndex := (pool.m_paymentIdIndex.add tx id).2
    m_addressindex := (AddressIndex.add env.getAccountAddressAsStr pool.m_addressindex tx id).2
    m_timestampIndex := (pool.m_timestampIndex.add now id).2 }

theorem add_tx_cases (pool : TxMemoryPool) (tx : Transaction) (id : Hash) (blobSize : Nat)
    (keptByBlock : Bool) (now : UInt64) :
    (∃ added, add_tx env pool tx id blobSize keptByBlock now = (added, pool)) ∨
      ((keptByBlock = true ∨ pool.haveSpentInputs tx = false) ∧
        pool.m_transactions.all (·.id != id) ∧
        add_tx env pool tx id blobSize keptByBlock now =
          addTransactionInputs id keptByBlock (inserted env pool tx id blobSize keptByBlock now)
            tx.inputs) := by
  unfold add_tx
  dsimp only
  split_ifs with unsupported overspends spent invalid oversized deleted present
  · exact .inl ⟨false, rfl⟩
  · exact .inl ⟨false, rfl⟩
  · exact .inl ⟨false, rfl⟩
  · exact .inl ⟨false, rfl⟩
  · exact .inl ⟨false, rfl⟩
  · exact .inl ⟨true, rfl⟩
  · exact .inl ⟨false, rfl⟩
  · refine .inr ⟨?_, ?_, rfl⟩
    · cases keptByBlock with
      | true => exact .inl rfl
      | false => exact .inr (by simpa using spent)
    · simpa using present

theorem addTransactionInputs_inserted {pool : TxMemoryPool} (consistent : Consistent pool)
    {tx : Transaction} (distinct : DistinctInputs tx) {id : Hash} {blobSize : Nat}
    {keptByBlock : Bool} {now : UInt64}
    (unspent : keptByBlock = true ∨ pool.haveSpentInputs tx = false)
    (fresh : ∀ details ∈ pool.m_transactions, details.id ≠ id) :
    addTransactionInputs id keptByBlock (inserted env pool tx id blobSize keptByBlock now)
        tx.inputs = (true, { inserted env pool tx id blobSize keptByBlock now with
      m_spent_key_images := registerKeyImages pool.m_spent_key_images id (keyImages tx.inputs)
      m_spentOutputs := if keptByBlock then pool.m_spentOutputs
        else pool.m_spentOutputs ∪ (multisignatureOutputs tx.inputs).toFinset }) := by
  have notSpender : ∀ keyImage ∈ keyImages tx.inputs,
      id ∉ ((inserted env pool tx id blobSize keptByBlock now).m_spent_key_images keyImage).getD ∅ := by
    intro keyImage _ spender
    simp only [inserted, consistent.spentKeyImages, getD_spentKeyImagesOf, mem_spenders] at spender
    obtain ⟨details, member, -, same⟩ := spender
    exact fresh details member same
  have noEntries : keptByBlock = true ∨ ∀ keyImage ∈ keyImages tx.inputs,
      (inserted env pool tx id blobSize keptByBlock now).m_spent_key_images keyImage = none :=
    unspent.imp_right fun unspentInputs => (unspent_of_haveSpentInputs unspentInputs).1
  exact addTransactionInputs_eq distinct.1 notSpender noEntries

/-- `add_tx` of a transaction with distinct inputs keeps the pool consistent, and a call that
returns `false` leaves it as it was. -/
theorem add_tx_consistent {pool : TxMemoryPool} (consistent : Consistent pool) {tx : Transaction}
    (distinct : DistinctInputs tx) (id : Hash) (blobSize : Nat) (keptByBlock : Bool)
    (now : UInt64) :
    Consistent (add_tx env pool tx id blobSize keptByBlock now).2 ∧
      ((add_tx env pool tx id blobSize keptByBlock now).1 = false →
        (add_tx env pool tx id blobSize keptByBlock now).2 = pool) := by
  rcases add_tx_cases env pool tx id blobSize keptByBlock now with
    ⟨added, unchanged⟩ | ⟨unspent, fresh, registering⟩
  · rw [unchanged]
    exact ⟨consistent, fun _ => rfl⟩
  · simp only [List.all_eq_true, bne_iff_ne, ne_eq] at fresh
    rw [registering, addTransactionInputs_inserted env consistent distinct unspent fresh]
    refine ⟨⟨?_, ?_, ?_, ?_, ?_⟩, fun refused => nomatch refused⟩
    · simp only [inserted, List.map_append, List.map_cons, List.map_nil]
      exact List.nodup_append.mpr ⟨consistent.ids, List.nodup_singleton _,
        fun _ listed _ same equal => by
          obtain ⟨details, member, rfl⟩ := List.mem_map.mp listed
          rw [List.mem_singleton] at same
          exact fresh details member (equal.trans same)⟩
    · intro details member
      simp only [inserted, List.mem_append, List.mem_singleton] at member
      rcases member with member | rfl
      · exact consistent.distinct details member
      · exact distinct
    · simp only [inserted, consistent.spentKeyImages]
      exact registerKeyImages_spentKeyImagesOf pool.m_transactions
        ⟨id, tx, blobSize, getInputAmount tx - getOutputAmount tx, keptByBlock, now⟩
    · simp only [inserted, consistent.spentOutputs, spentOutputsOf_append]
    · cases keptByBlock with
      | true => simpa [Unshared, inserted, List.filter_append] using consistent.unshared
      | false =>
          obtain ⟨noKeyImage, noOutput⟩ :=
            unspent_of_haveSpentInputs (unspent.resolve_left Bool.false_ne_true)
          simp only [Unshared, inserted, List.filter_append]
          refine List.pairwise_append.mpr ⟨consistent.unshared, by simp, ?_⟩
          intro other otherMember details added
          simp only [List.filter_cons, List.filter_nil, Bool.not_false, if_true,
            List.mem_singleton] at added
          subst added
          obtain ⟨member, unkept⟩ := List.mem_filter.mp otherMember
          constructor
          · intro keyImage spentByOther spentByNew
            have entry := noKeyImage keyImage spentByNew
            have spender : other.id ∈ spenders pool.m_transactions keyImage :=
              mem_spenders.mpr ⟨other, member, spentByOther, rfl⟩
            rw [consistent.spentKeyImages, spentKeyImagesOf,
              if_neg (Finset.ne_empty_of_mem spender)] at entry
            cases entry
          · intro output spentByOther spentByNew
            apply noOutput output spentByNew
            rw [consistent.spentOutputs, mem_spentOutputsOf]
            exact ⟨other, member, by simpa using unkept, spentByOther⟩
theorem take_tx_consistent {pool : TxMemoryPool} (consistent : Consistent pool) (id : Hash) :
    Consistent (take_tx env pool id).2 := by
  unfold take_tx
  split
  · exact consistent
  · rename_i details found
    exact (removeTransaction_consistent env consistent (List.mem_of_find?_eq_some found)).1

theorem Consistent.withRecentlyDeleted {pool : TxMemoryPool} (consistent : Consistent pool)
    (recentlyDeleted : Hash → Option UInt64) :
    Consistent { pool with m_recentlyDeletedTransactions := recentlyDeleted } :=
  ⟨consistent.ids, consistent.distinct, consistent.spentKeyImages, consistent.spentOutputs,
    consistent.unshared⟩

theorem removeExpiredLoop_cons_cases (now : UInt64) (pool : TxMemoryPool)
    (details : TransactionDetails) (rest : List TransactionDetails) :
    removeExpiredLoop env now pool (details :: rest) = removeExpiredLoop env now pool rest ∨
      ∃ recentlyDeleted : Hash → Option UInt64,
        removeExpiredLoop env now pool (details :: rest) = removeExpiredLoop env now
          (removeTransaction env { pool with m_recentlyDeletedTransactions := recentlyDeleted } details)
          rest := by
  by_cases expired : now - details.receiveTime > (if details.keptByBlock
      then env.mempoolTxFromAltBlockLiveTime else env.mempoolTxLiveTime)
  · right
    simp only [removeExpiredLoop, expired, if_true]
    exact ⟨_, rfl⟩
  · exact .inl (by simp only [removeExpiredLoop, expired, if_false])

theorem removeExpiredLoop_consistent (now : UInt64) {pool : TxMemoryPool}
    {pending : List TransactionDetails} (consistent : Consistent pool)
    (pooled : ∀ details ∈ pending, details ∈ pool.m_transactions)
    (ids : (pending.map (·.id)).Nodup) :
    Consistent (removeExpiredLoop env now pool pending) := by
  induction pending generalizing pool with
  | nil => exact consistent
  | cons details rest inductionHypothesis =>
      rw [List.map_cons, List.nodup_cons] at ids
      obtain ⟨notLater, idsRest⟩ := ids
      have pooledRest : ∀ other ∈ rest, other ∈ pool.m_transactions :=
        fun other later => pooled other (List.mem_cons_of_mem _ later)
      rcases removeExpiredLoop_cons_cases env now pool details rest with
        kept | ⟨recentlyDeleted, removed⟩
      · rw [kept]
        exact inductionHypothesis consistent pooledRest idsRest
      · rw [removed]
        obtain ⟨removedConsistent, remaining⟩ := removeTransaction_consistent env
          (consistent.withRecentlyDeleted recentlyDeleted) (pooled details List.mem_cons_self)
        refine inductionHypothesis removedConsistent (fun other later => ?_) idsRest
        rw [remaining, List.mem_filter]
        have differs : other.id ≠ details.id := fun same =>
          notLater (same ▸ List.mem_map_of_mem later)
        exact ⟨pooledRest other later, by simpa using differs⟩

theorem removeExpiredTransactions_consistent {pool : TxMemoryPool} (consistent : Consistent pool)
    (now : UInt64) : Consistent (removeExpiredTransactions env pool now) :=
  removeExpiredLoop_consistent env now (consistent.withRecentlyDeleted _)
    (fun _ member => member) consistent.ids

/-! ## Runs of the pool -/

/-- The pools `add_tx`, `take_tx` and `removeExpiredTransactions` reach from `start`. Each call
sees the node as it is then, so every step has its own environment and time; `add_tx` is given
transactions that passed `check_tx_semantic`, whose inputs are distinct. -/
inductive Reaches (start : TxMemoryPool) : TxMemoryPool → Prop
  | refl : Reaches start start
  | addTx {pool : TxMemoryPool} (env : PoolEnvironment) {tx : Transaction} (id : Hash)
      (blobSize : Nat) (keptByBlock : Bool) (now : UInt64) :
      Reaches start pool → DistinctInputs tx →
        Reaches start (add_tx env pool tx id blobSize keptByBlock now).2
  | takeTx {pool : TxMemoryPool} (env : PoolEnvironment) (id : Hash) :
      Reaches start pool → Reaches start (take_tx env pool id).2
  | removeExpired {pool : TxMemoryPool} (env : PoolEnvironment) (now : UInt64) :
      Reaches start pool → Reaches start (removeExpiredTransactions env pool now)

theorem Reaches.consistent {start pool : TxMemoryPool} (run : Reaches start pool)
    (initial : Consistent start) : Consistent pool := by
  induction run with
  | refl => exact initial
  | addTx env id blobSize keptByBlock now _ distinct consistent =>
      exact (add_tx_consistent env consistent distinct id blobSize keptByBlock now).1
  | takeTx env id _ consistent => exact take_tx_consistent env consistent id
  | removeExpired env now _ consistent => exact removeExpiredTransactions_consistent env consistent now

/-- In every pool reached from an empty one, the key-image and output indices are exactly those
of the stored transactions, the transactions not kept by a block spend disjoint key images, and an
`add_tx` that refuses a transaction with distinct inputs leaves the pool as it was. -/
theorem reachable_pool_indices_exact {blockchainIndexesEnabled : Bool} {pool : TxMemoryPool}
    (run : Reaches (empty blockchainIndexesEnabled) pool) :
    (∀ keyImage, pool.m_spent_key_images keyImage = spentKeyImagesOf pool.m_transactions keyImage) ∧
      pool.m_spentOutputs = spentOutputsOf pool.m_transactions ∧
      (∀ first ∈ pool.m_transactions, ∀ second ∈ pool.m_transactions, first ≠ second →
        first.keptByBlock = false → second.keptByBlock = false →
          (keyImages first.tx.inputs).Disjoint (keyImages second.tx.inputs)) ∧
      ∀ (env : PoolEnvironment) (tx : Transaction) (id : Hash) (blobSize : Nat)
        (keptByBlock : Bool) (now : UInt64), DistinctInputs tx →
          (add_tx env pool tx id blobSize keptByBlock now).1 = false →
            (add_tx env pool tx id blobSize keptByBlock now).2 = pool := by
  have consistent := run.consistent (consistent_empty blockchainIndexesEnabled)
  refine ⟨congrFun consistent.spentKeyImages, consistent.spentOutputs, ?_, ?_⟩
  · intro first firstMember second secondMember differs firstUnkept secondUnkept
    have differentIds : first.id ≠ second.id := fun same =>
      differs (List.inj_on_of_nodup_map consistent.ids firstMember secondMember same)
    exact (consistent.unshared.spendApart firstMember secondMember firstUnkept secondUnkept
      differentIds).1
  · intro env tx id blobSize keptByBlock now distinct
    exact (add_tx_consistent env consistent distinct id blobSize keptByBlock now).2

instance : DecidablePred DistinctInputs := fun _ =>
  inferInstanceAs (Decidable (_ ∧ _))

def samplePoolEnvironment : PoolEnvironment :=
  ⟨fun _ => true, fun _ => true, 86400, 86400, 7, fun _ => ""⟩

def oneKeyInputTransaction : Transaction :=
  ⟨⟨1, 0, [.key ⟨10, [0], ⟨Pod.zero 32⟩⟩], [], []⟩, []⟩

theorem one_key_input_pool_indices_exact :
    let pool := (take_tx samplePoolEnvironment (add_tx samplePoolEnvironment (empty true)
      oneKeyInputTransaction NULL_HASH 100 false 0).2 NULL_HASH).2
    Reaches (empty true) pool ∧
      (∀ keyImage, pool.m_spent_key_images keyImage = spentKeyImagesOf pool.m_transactions keyImage) ∧
      pool.m_spentOutputs = spentOutputsOf pool.m_transactions ∧
      (∀ first ∈ pool.m_transactions, ∀ second ∈ pool.m_transactions, first ≠ second →
        first.keptByBlock = false → second.keptByBlock = false →
          (keyImages first.tx.inputs).Disjoint (keyImages second.tx.inputs)) ∧
      ∀ (env : PoolEnvironment) (tx : Transaction) (id : Hash) (blobSize : Nat)
        (keptByBlock : Bool) (now : UInt64), DistinctInputs tx →
          (add_tx env pool tx id blobSize keptByBlock now).1 = false →
            (add_tx env pool tx id blobSize keptByBlock now).2 = pool :=
  have run := Reaches.takeTx samplePoolEnvironment NULL_HASH
    (Reaches.addTx samplePoolEnvironment NULL_HASH 100 false 0 Reaches.refl (by decide))
  ⟨run, reachable_pool_indices_exact run⟩

end TxMemoryPool

end Dynex
