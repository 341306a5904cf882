import Dynex.Core.Basic

/-!
# The main-chain state

The members of `class Blockchain` that the chain operations keep consistent: the stored
blocks, the block-hash index, and the four global indices over transactions. Hash maps are
total functions; an amount whose output list is empty stands for an amount the map does not
hold, which is what `m_outputs.erase` produces when a list runs empty.
-/

set_option autoImplicit false

namespace Dynex

open Crypto

/-- `TransactionIndex`: the height of a transaction's block and its position in the block. -/
structure TransactionIndex where
  block : Nat
  transaction : Nat
  deriving DecidableEq, Repr

/-- One entry of a multisignature output list, with the flag that an input spent it. -/
structure MultisignatureOutputUsage where
  transactionIndex : TransactionIndex
  outputIndex : Nat
  isUsed : Bool
  deriving DecidableEq, Repr

namespace Blockchain

structure TransactionEntry where
  tx : Transaction
  m_global_output_indexes : List Nat
  deriving DecidableEq, Repr

structure BlockEntry where
  bl : Block
  height : Nat
  block_cumulative_size : Nat
  cumulative_difficulty : UInt64
  already_generated_coins : UInt64
  transactions : List TransactionEntry
  deriving DecidableEq, Repr

end Blockchain

/-- The chain members of `class Blockchain`: `m_blocks`, `m_blockIndex`, `m_transactionMap`,
`spentKeyImages` (key image to the block index it was recorded with), `m_outputs`,
`m_multisignatureOutputs`, and `m_alternative_chains`, the hash map of the blocks off the main
chain as (id, entry) pairs with distinct ids. -/
structure Blockchain where
  m_blocks : List Blockchain.BlockEntry
  m_blockIndex : List Hash
  m_transactionMap : Hash → Option TransactionIndex
  spentKeyImages : KeyImage → Option Nat
  m_outputs : UInt64 → List (TransactionIndex × Nat)
  m_multisignatureOutputs : UInt64 → List MultisignatureOutputUsage
  m_alternative_chains : List (Hash × Blockchain.BlockEntry)

@[simp] theorem except_ok_bind {ε α β : Type} (value : α) (next : α → Except ε β) :
    (Except.ok value >>= next) = next value := rfl

@[simp] theorem except_error_bind {ε α β : Type} (error : ε) (next : α → Except ε β) :
    (Except.error error >>= next) = Except.error error := rfl

theorem except_bind_eq_ok {ε α β : Type} {first : Except ε α} {next : α → Except ε β} {result : β} :
    (first >>= next) = .ok result ↔ ∃ value, first = .ok value ∧ next value = .ok result := by
  cases first <;> simp

namespace Blockchain

/-- The state before the genesis block: every container empty. -/
def empty : Blockchain where
  m_blocks := []
  m_blockIndex := []
  m_transactionMap := fun _ => none
  spentKeyImages := fun _ => none
  m_outputs := fun _ => []
  m_multisignatureOutputs := fun _ => []
  m_alternative_chains := []

/-- `next` holds the blocks and the block index of `chain`: what the operations on transactions
leave alone. -/
structure SameBlocks (chain next : Blockchain) : Prop where
  blocks : next.m_blocks = chain.m_blocks
  index : next.m_blockIndex = chain.m_blockIndex

theorem SameBlocks.refl (chain : Blockchain) : SameBlocks chain chain := ⟨rfl, rfl⟩

theorem SameBlocks.trans {first second third : Blockchain} (firstStep : SameBlocks first second)
    (secondStep : SameBlocks second third) : SameBlocks first third :=
  ⟨secondStep.blocks.trans firstStep.blocks, secondStep.index.trans firstStep.index⟩

/-- The key image whose double spend is tolerated below height 334581. -/
def R : KeyImage :=
  ⟨⟨[0xb1, 0xdd, 0x99, 0xdf, 0x58, 0x54, 0x35, 0xb0, 0xbc, 0x75, 0xc4, 0x1a, 0xb4, 0x34, 0x93, 0xb6,
      0x48, 0xb3, 0x67, 0xac, 0x00, 0xd3, 0x59, 0x86, 0xb4, 0xc2, 0x39, 0xa9, 0xb4, 0x53, 0x05, 0xfb],
    rfl⟩⟩

def getCurrentBlockchainHeight (chain : Blockchain) : Nat := chain.m_blocks.length

def check_tx_inputs_keyimages_domain (chain : Blockchain) (keyImage : KeyImage) : Bool :=
  if chain.getCurrentBlockchainHeight > 334581 then true else keyImage != R

def blockIndexPush (index : List Hash) (hash : Hash) : List Hash :=
  if hash ∈ index then index else index ++ [hash]

/-- `SpentKeyImagesContainer::insert` on the key-image index: nothing changes, and `false`
comes back, when the key image is already recorded. -/
def insertKeyImage (images : KeyImage → Option Nat) (height : Nat) (keyImage : KeyImage) :
    Bool × (KeyImage → Option Nat) :=
  match images keyImage with
  | some _ => (false, images)
  | none => (true, Function.update images keyImage (some height))

/-- `imagesIndex.erase(imagesIndex.find(keyImage))`. Erasing the end iterator is undefined
behaviour, reported as an error. -/
def eraseKeyImage (images : KeyImage → Option Nat) (keyImage : KeyImage) :
    Except String (KeyImage → Option Nat) :=
  match images keyImage with
  | none => throw "spentKeyImages: erase(end())"
  | some _ => pure (Function.update images keyImage none)

/-- `m_multisignatureOutputs[amount][outputIndex].isUsed = used`; an index past the list is
undefined behaviour, reported as an error. -/
def setUsed (outputs : UInt64 → List MultisignatureOutputUsage) (amount : UInt64)
    (outputIndex : Nat) (used : Bool) :
    Except String (UInt64 → List MultisignatureOutputUsage) :=
  match (outputs amount)[outputIndex]? with
  | none => throw "m_multisignatureOutputs: index out of range"
  | some usage =>
      pure (Function.update outputs amount ((outputs amount).set outputIndex { usage with isUsed := used }))

@[simp] theorem insertKeyImage_of_none {images : KeyImage → Option Nat} {keyImage : KeyImage}
    (absent : images keyImage = none) (height : Nat) :
    insertKeyImage images height keyImage = (true, Function.update images keyImage (some height)) := by
  simp [insertKeyImage, absent]

@[simp] theorem insertKeyImage_of_some {images : KeyImage → Option Nat} {keyImage : KeyImage}
    {recorded : Nat} (present : images keyImage = some recorded) (height : Nat) :
    insertKeyImage images height keyImage = (false, images) := by
  simp [insertKeyImage, present]

theorem eraseKeyImage_of_some {images : KeyImage → Option Nat} {keyImage : KeyImage}
    {recorded : Nat} (present : images keyImage = some recorded) :
    eraseKeyImage images keyImage = .ok (Function.update images keyImage none) := by
  simp [eraseKeyImage, present]; rfl

theorem eraseKeyImage_of_none {images : KeyImage → Option Nat} {keyImage : KeyImage}
    (absent : images keyImage = none) :
    eraseKeyImage images keyImage = .error "spentKeyImages: erase(end())" := by
  simp [eraseKeyImage, absent]; rfl

theorem eraseKeyImage_insert {images : KeyImage → Option Nat} {keyImage : KeyImage}
    (absent : images keyImage = none) (height : Nat) :
    eraseKeyImage (Function.update images keyImage (some height)) keyImage = .ok images := by
  rw [eraseKeyImage_of_some (Function.update_self keyImage (some height) images)]
  congr 1
  funext other
  by_cases same : other = keyImage
  · subst same; simp [absent]
  · simp [Function.update_of_ne same]

end Blockchain

end Dynex
