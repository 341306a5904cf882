import Dynex.Transfers.TransfersContainerVisibility

/-!
# The balance and the outputs of a transfers container

`balance(flags)` and `getOutputs(transfers, flags)` of `Transfers/TransfersContainer.cpp` read
the visible available transfers that `isIncluded(info, flags)` admits, and, where `flags` holds
`IncludeStateLocked`, the visible unconfirmed transfers whose type the flags admit.
`isIncluded(info, flags)` finds the state of a transfer from its block height, its unlock time,
the height of the container, the currency's lock parameters and the clock (`Locks`).

The balance is the total of the outputs `getOutputs` lists (`balance_eq_totalAmount_getOutputs`). On a
reachable container the outputs listed are of distinct key images, and they are the visible
unspent transfers that `isIncluded(info, flags)` admits: for an unconfirmed transfer the shortcut
through `IncludeStateLocked` agrees with it, because its block height is the pool's.
-/

set_option autoImplicit false

namespace Dynex

open Crypto TransactionTypes

namespace ITransfersContainer

/-! The members of `enum Flags` that the container reads. -/

def IncludeStateUnlocked : UInt32 := 0x01
def IncludeStateLocked : UInt32 := 0x02
def IncludeStateSoftLocked : UInt32 := 0x04
def IncludeTypeKey : UInt32 := 0x100
def IncludeTypeMultisignature : UInt32 := 0x200

end ITransfersContainer

open ITransfersContainer

namespace TransfersContainer

/-- What `isSpendTimeUnlocked` and `isIncluded` read besides the container: of the currency,
`maxBlockHeight()`, `lockedTxAllowedDeltaBlocks()` and `lockedTxAllowedDeltaSeconds()`; the
container's `m_transactionSpendableAge`; and `time(NULL)`. -/
structure Locks where
  maxBlockHeight : UInt64
  lockedTxAllowedDeltaBlocks : UInt64
  lockedTxAllowedDeltaSeconds : UInt64
  transactionSpendableAge : UInt64
  currentTime : UInt64
  deriving DecidableEq, Repr

variable (locks : Locks)

/-- `isSpendTimeUnlocked(unlockTime)`: an unlock time below `maxBlockHeight()` is a block index,
otherwise a time. -/
def isSpendTimeUnlocked (c : TransfersContainer) (unlockTime : UInt64) : Bool :=
  if unlockTime < locks.maxBlockHeight then
    unlockTime ≤ c.m_currentHeight.toUInt64 + locks.lockedTxAllowedDeltaBlocks
  else
    unlockTime ≤ locks.currentTime + locks.lockedTxAllowedDeltaSeconds

/-- The static `isIncluded(type, state, flags)`: the flags admit the type and the state. -/
def isIncluded (type : OutputType) (state flags : UInt32) : Bool :=
  ((flags &&& IncludeTypeKey != 0 && type == .Key) ||
    (flags &&& IncludeTypeMultisignature != 0 && type == .Multisignature)) &&
  (flags &&& state != 0)

/-- `isIncluded(info, flags)`: the state of a transfer is locked where it is in the pool or its
unlock time is ahead, soft locked where it is younger than the spendable age, and unlocked
otherwise. -/
def isIncludedTransfer (c : TransfersContainer) (info : TransactionOutputInformationEx)
    (flags : UInt32) : Bool :=
  let state :=
    if info.blockHeight == WALLET_LEGACY_UNCONFIRMED_TRANSACTION_HEIGHT ||
        !isSpendTimeUnlocked locks c info.unlockTime then IncludeStateLocked
    else if c.m_currentHeight.toUInt64 < info.blockHeight.toUInt64 + locks.transactionSpendableAge
    then IncludeStateSoftLocked
    else IncludeStateUnlocked
  isIncluded info.type state flags

/-- `balance(flags)`: the amounts of the visible transfers the flags admit, added in `uint64_t`. -/
def balance (flags : UInt32) (c : TransfersContainer) : UInt64 :=
  let amount := c.m_availableTransfers.foldl (fun amount t =>
    if t.visible && isIncludedTransfer locks c t flags then amount + t.amount else amount) 0
  if flags &&& IncludeStateLocked != 0 then
    c.m_unconfirmedTransfers.foldl (fun amount t =>
      if t.visible && isIncluded t.type IncludeStateLocked flags then amount + t.amount else amount)
      amount
  else amount

/-- `getOutputs(transfers, flags)`: the transfers whose `TransactionOutputInformation` it appends
to `transfers`, in order. -/
def getOutputs (flags : UInt32) (c : TransfersContainer) : List TransactionOutputInformationEx :=
  c.m_availableTransfers.filter (fun t => t.visible && isIncludedTransfer locks c t flags) ++
    if flags &&& IncludeStateLocked != 0 then
      c.m_unconfirmedTransfers.filter fun t => t.visible && isIncluded t.type IncludeStateLocked flags
    else []

/-! ## The balance is the total of the outputs -/

def totalAmount (transfers : List TransactionOutputInformationEx) : UInt64 :=
  transfers.foldl (fun amount t => amount + t.amount) 0

theorem balance_eq_totalAmount_getOutputs (flags : UInt32) (c : TransfersContainer) :
    balance locks flags c = totalAmount (getOutputs locks flags c) := by
  unfold balance getOutputs totalAmount
  rw [List.foldl_append, List.foldl_filter]
  split
  · rw [List.foldl_filter]
  · rfl

/-! ## The outputs of a reachable container -/

section Reachable

variable {c : TransfersContainer}

theorem isIncludedTransfer_of_pooled {info : TransactionOutputInformationEx} (flags : UInt32)
    (pooled : info.blockHeight = WALLET_LEGACY_UNCONFIRMED_TRANSACTION_HEIGHT) :
    isIncludedTransfer locks c info flags = isIncluded info.type IncludeStateLocked flags := by
  simp [isIncludedTransfer, pooled]

theorem getOutputs_of_placed (placed : Placed c) (flags : UInt32) :
    getOutputs locks flags c =
      (c.m_availableTransfers ++ c.m_unconfirmedTransfers).filter
        fun t => t.visible && isIncludedTransfer locks c t flags := by
  have locked : c.m_unconfirmedTransfers.filter
      (fun t => t.visible && isIncludedTransfer locks c t flags) =
        c.m_unconfirmedTransfers.filter
          fun t => t.visible && isIncluded t.type IncludeStateLocked flags :=
    List.filter_congr fun t member => by
      rw [isIncludedTransfer_of_pooled locks flags (placed.unconfirmed t member)]
  unfold getOutputs
  rw [List.filter_append, locked]
  congr 1
  split
  · rfl
  · rename_i unlocked
    have none : (flags &&& IncludeStateLocked != 0) = false := Bool.eq_false_iff.mpr unlocked
    symm
    refine List.filter_eq_nil_iff.mpr fun t _ => ?_
    simp [isIncluded, none]

/-- `getOutputs` copies visible transfers only, so on a reachable container no two of the
transfers it lists are of one key image. -/
theorem getOutputs_key_image_once (reachable : Reachable c) (flags : UInt32) (keyImage : KeyImage) :
    (getOutputs locks flags c).countP (·.hasDescriptor (.key keyImage)) ≤ 1 := by
  have once := (reachable.keysVisible keyImage).visible_le_one
  have available : (c.m_availableTransfers.filter
      fun t => t.visible && isIncludedTransfer locks c t flags).countP
        (·.hasDescriptor (.key keyImage)) ≤ (keyCounts keyImage c).visibleAvailable := by
    rw [List.countP_filter]
    exact List.countP_mono_left fun t _ inside => by simp_all
  have unconfirmed : (if flags &&& IncludeStateLocked != 0 then
      c.m_unconfirmedTransfers.filter fun t => t.visible && isIncluded t.type IncludeStateLocked flags
    else []).countP (·.hasDescriptor (.key keyImage)) ≤ (keyCounts keyImage c).visibleUnconfirmed := by
    split
    · rw [List.countP_filter]
      exact List.countP_mono_left fun t _ inside => by simp_all
    · simp
  unfold getOutputs
  rw [List.countP_append]
  omega

/-- The pooled output, listed with the locked outputs of key type. -/
theorem pending_outputs_key_image_once :
    Reachable pendingContainer ∧
      (getOutputs ⟨0, 0, 0, 0, 0⟩ (IncludeTypeKey ||| IncludeStateLocked) pendingContainer).countP
        (·.hasDescriptor (.key poolTransfer.keyImage)) ≤ 1 :=
  ⟨reachable_pendingContainer,
    getOutputs_key_image_once _ reachable_pendingContainer _ poolTransfer.keyImage⟩

/-- On every reachable container, `getOutputs` lists the visible transfers, available or
unconfirmed, that `isIncluded(info, flags)` admits, and `balance` is the total of their amounts. -/
theorem balance_getOutputs_reachable (reachable : Reachable c) (flags : UInt32) :
    getOutputs locks flags c =
        (c.m_availableTransfers ++ c.m_unconfirmedTransfers).filter
          (fun t => t.visible && isIncludedTransfer locks c t flags) ∧
      balance locks flags c =
        totalAmount ((c.m_availableTransfers ++ c.m_unconfirmedTransfers).filter
          fun t => t.visible && isIncludedTransfer locks c t flags) := by
  have listed := getOutputs_of_placed locks reachable.placed flags
  exact ⟨listed, by rw [balance_eq_totalAmount_getOutputs, listed]⟩

/-- The pooled output: the locked outputs of key type are the visible pooled transfer, and the
balance is its amount. -/
theorem pending_balance_getOutputs :
    Reachable pendingContainer ∧
      (getOutputs ⟨0, 0, 0, 0, 0⟩ (IncludeTypeKey ||| IncludeStateLocked) pendingContainer =
          (pendingContainer.m_availableTransfers ++ pendingContainer.m_unconfirmedTransfers).filter
            (fun t => t.visible &&
              isIncludedTransfer ⟨0, 0, 0, 0, 0⟩ pendingContainer t (IncludeTypeKey ||| IncludeStateLocked)) ∧
        balance ⟨0, 0, 0, 0, 0⟩ (IncludeTypeKey ||| IncludeStateLocked) pendingContainer =
          totalAmount ((pendingContainer.m_availableTransfers ++
              pendingContainer.m_unconfirmedTransfers).filter
            fun t => t.visible &&
              isIncludedTransfer ⟨0, 0, 0, 0, 0⟩ pendingContainer t (IncludeTypeKey ||| IncludeStateLocked))) :=
  ⟨reachable_pendingContainer,
    balance_getOutputs_reachable _ reachable_pendingContainer (IncludeTypeKey ||| IncludeStateLocked)⟩

end Reachable

end TransfersContainer

end Dynex
