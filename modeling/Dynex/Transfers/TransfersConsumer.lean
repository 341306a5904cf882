import Dynex.Core.TransactionImpl
import Dynex.Lib.TransitionSystem

/-!
# Parallel block scanning

`TransfersConsumer::onNewBlocks` of `Transfers/TransfersConsumer.cpp`. A pushing thread walks the
blocks and pushes each transaction that has a public key, with its height and its position in the
block, into a `BlockingQueue` (`Common/BlockingQueue.h`) of twice as many places as there are
workers. It tests `stopProcessing` only before each block, and closes the queue after the last.
Each worker pops transactions and runs `preprocessOutputs` on them until the flag is set, or the
queue is closed and empty; an error sets the flag and ends the worker. The calling thread joins
the workers' futures in order, then sorts the preprocessed transactions and processes them, or
tells every subscription the first error; at its `return` the future of the pushing thread waits
for that thread.

The model interleaves these threads. A thread's next atomic action is fixed by where it is, so the
thread is a step's label (`Thread`), and `step` is `none` where the thread waits or has ended.
`stopProcessing` is atomic and the queue's methods hold its mutex: each test of the flag, each
`push`, `pop` and `close` is one step, and what a thread does between them, on its own data,
falls into the step before. The pushing thread's test after the last block and its `close()` are
one step: the test reads only the flag, which no thread clears. The transactions are a type `τ`
with their public key; what `preprocessOutputs` returns for each transaction, success or an error
code of type `ε`, is a parameter. An exception out of a worker or out of `std::async` is left out.
-/

set_option autoImplicit false

namespace Dynex

open Crypto

/-- `TransactionBlockInfo` of `Transfers/TransfersContainer.h`. -/
structure TransactionBlockInfo where
  height : UInt32
  timestamp : UInt64
  transactionIndex : UInt32
  deriving DecidableEq, Repr

/-- `CompleteBlock` of `Transfers/CommonTypes.h`, its transactions of a type `τ`. -/
structure CompleteBlock (τ : Type) where
  blockHash : Hash
  block : Option Block
  transactions : List τ

namespace TransfersConsumer

/-- The `Tx` of `onNewBlocks`: a transaction and where it stands. -/
structure Tx (τ : Type) where
  blockInfo : TransactionBlockInfo
  tx : τ
  deriving DecidableEq, Repr

/-- A call `onNewBlocks(blocks, startHeight, count)`, `count` being the number of blocks, with what
it reads of the consumer and of the machine. -/
structure NewBlocks (τ ε : Type) where
  blocks : List (CompleteBlock τ)
  startHeight : UInt32
  /-- `m_syncStart.timestamp`. -/
  syncStartTimestamp : UInt64
  getTransactionPublicKey : τ → PublicKey
  /-- What `preprocessOutputs` returns for each transaction: an error code, or `none`. -/
  preprocessOutputs : Tx τ → Option ε
  /-- `std::thread::hardware_concurrency()`. -/
  hardware_concurrency : Nat

/-- Where the pushing thread is: at the test before the next block, with the items of the blocks
left; pushing the items of a block; or done, the queue closed. -/
inductive Pusher (τ : Type)
  | nextBlock (blocks : List (List (Tx τ)))
  | pushing (items : List (Tx τ)) (blocks : List (List (Tx τ)))
  | finished
  deriving DecidableEq, Repr

/-- Where a worker is in `processingFunction`. -/
inductive Worker (τ ε : Type)
  /-- At the loop's test of `stopProcessing`. -/
  | checking
  /-- In `inputQueue.pop(item)`. -/
  | popping
  /-- In `preprocessOutputs` on an item. -/
  | processing (item : Tx τ)
  /-- Returned, with the error code its future holds. -/
  | returned (ec : Option ε)
  deriving DecidableEq, Repr

/-- What every subscription is told at the end. -/
inductive SubscriptionCall (ε : Type)
  | advanceHeight (height : UInt32)
  | onError (ec : ε) (height : UInt32)
  deriving DecidableEq, Repr

/-- What the call does once the futures are joined, and what it returns. -/
structure Outcome (τ ε : Type) where
  result : Bool
  /-- The block hashes the observers' `onBlocksAdded` receives, where it is called. -/
  blocksAdded : Option (List Hash)
  /-- The `processTransaction` calls, in order. -/
  processed : List (Tx τ)
  subscriptions : SubscriptionCall ε
  deriving DecidableEq, Repr

/-- Where the calling thread is. -/
inductive Main (τ ε : Type)
  /-- In `f.get()` on the future of worker `k`, with the error so far. -/
  | joining (k : Nat) (processingError : Option ε)
  /-- At the `return`, where the destructor of the pushing thread's future waits for it. -/
  | leaving (outcome : Outcome τ ε)
  | returned (outcome : Outcome τ ε)
  deriving DecidableEq, Repr

/-- The state the threads share, and where each is. -/
structure Scan (τ ε : Type) where
  pusher : Pusher τ
  /-- The items of `inputQueue`. -/
  queue : List (Tx τ)
  closed : Bool
  stopProcessing : Bool
  /-- `preprocessedTransactions`. -/
  preprocessed : List (Tx τ)
  workers : List (Worker τ ε)
  main : Main τ ε
  deriving DecidableEq, Repr

inductive Thread
  | pusher
  | worker (k : Nat)
  | main
  deriving DecidableEq, Repr

variable {τ ε : Type}

/-- The comparison of the sort, `std::tie(height, transactionIndex) <`. -/
def txBefore (a b : Tx τ) : Bool :=
  a.blockInfo.height < b.blockInfo.height ||
    (a.blockInfo.height == b.blockInfo.height &&
      a.blockInfo.transactionIndex < b.blockInfo.transactionIndex)

def sortTransactions (transactions : List (Tx τ)) : List (Tx τ) :=
  transactions.mergeSort fun a b => !txBefore b a

namespace NewBlocks

variable (call : NewBlocks τ ε)

def workers : Nat := if call.hardware_concurrency = 0 then 2 else call.hardware_concurrency

def capacity : Nat := call.workers * 2

/-- The pushing thread's loop over a block's transactions: those with a public key, each with its
position in the block. -/
def transactionItems (blockInfo : TransactionBlockInfo) : List τ → List (Tx τ)
  | [] => []
  | tx :: rest =>
      let next := { blockInfo with transactionIndex := blockInfo.transactionIndex + 1 }
      if call.getTransactionPublicKey tx = NULL_PUBLIC_KEY then transactionItems next rest
      else ⟨blockInfo, tx⟩ :: transactionItems next rest

/-- What the pushing thread pushes for a block at `height`: nothing for a block that is not
initialised or that the sync start's timestamp filters out. -/
def blockItems (height : UInt32) (block : CompleteBlock τ) : List (Tx τ) :=
  match block.block with
  | none => []
  | some b =>
      if call.syncStartTimestamp ≠ 0 ∧ b.timestamp < call.syncStartTimestamp then []
      else call.transactionItems ⟨height, b.timestamp, 0⟩ block.transactions

def pushPlan : UInt32 → List (CompleteBlock τ) → List (List (Tx τ))
  | _, [] => []
  | height, block :: rest => call.blockItems height block :: pushPlan (height + 1) rest

def items : List (Tx τ) := (call.pushPlan call.startHeight call.blocks).flatten

def newHeight : UInt32 := call.startHeight + UInt32.ofNat call.blocks.length - 1

/-- The state once every thread has started. -/
def start : Scan τ ε :=
  { pusher := .nextBlock (call.pushPlan call.startHeight call.blocks), queue := [],
    closed := false, stopProcessing := false, preprocessed := [],
    workers := List.replicate call.workers .checking, main := .joining 0 none }

/-- After the futures are joined: with no error, `onBlocksAdded` to the observers, the sorted
transactions processed and every subscription advanced; with one, every subscription told. -/
def finish (processingError : Option ε) (preprocessed : List (Tx τ)) : Outcome τ ε :=
  match processingError with
  | none =>
      { result := true, blocksAdded := some (call.blocks.map (·.blockHash)),
        processed := sortTransactions preprocessed,
        subscriptions := .advanceHeight call.newHeight }
  | some ec =>
      { result := false, blocksAdded := none, processed := [],
        subscriptions := .onError ec call.startHeight }

/-- One step of the pushing thread. -/
def pushStep (s : Scan τ ε) : Option (Scan τ ε) :=
  match s.pusher with
  | .nextBlock [] => some { s with pusher := .finished, closed := true }
  | .nextBlock (items :: blocks) =>
      if s.stopProcessing then some { s with pusher := .finished, closed := true }
      else some { s with pusher := .pushing items blocks }
  | .pushing [] blocks => some { s with pusher := .nextBlock blocks }
  | .pushing (item :: items) blocks =>
      -- `push` waits while the queue is open and full, and drops the item once it is closed
      if s.closed then some { s with pusher := .pushing items blocks }
      else if s.queue.length < call.capacity then
        some { s with queue := s.queue ++ [item], pusher := .pushing items blocks }
      else none
  | .finished => none

/-- One step of a worker: where it goes, and the shared state after. -/
def workStep (s : Scan τ ε) : Worker τ ε → Option (Worker τ ε × Scan τ ε)
  | .checking => some (if s.stopProcessing then .returned none else .popping, s)
  | .popping =>
      match s.queue with
      | item :: rest => some (.processing item, { s with queue := rest })
      | [] => if s.closed then some (.returned none, s) else none
  | .processing item =>
      match call.preprocessOutputs item with
      | some ec => some (.returned (some ec), { s with stopProcessing := true })
      | none => some (.checking, { s with preprocessed := s.preprocessed ++ [item] })
  | .returned _ => none

/-- One step of the calling thread. -/
def mainStep (s : Scan τ ε) : Option (Scan τ ε) :=
  match s.main with
  | .joining k processingError =>
      match s.workers[k]? with
      | none => some { s with main := .leaving (call.finish processingError s.preprocessed) }
      | some (.returned ec) =>
          -- `if (!processingError && ec) processingError = ec`
          let processingError := if processingError.isNone then ec else processingError
          some { s with main := .joining (k + 1) processingError }
      | some _ => none
  | .leaving outcome =>
      match s.pusher with
      | .finished => some { s with main := .returned outcome }
      | _ => none
  | .returned _ => none

/-- The step of a thread, or `none` where it waits or has ended. -/
def step (s : Scan τ ε) : Thread → Option (Scan τ ε)
  | .pusher => call.pushStep s
  | .worker k =>
      match s.workers[k]? with
      | none => none
      | some worker =>
          (call.workStep s worker).map fun (moved, after) =>
            { after with workers := s.workers.set k moved }
  | .main => call.mainStep s

def Step : Scan τ ε → Scan τ ε → Prop := TransitionSystem.Moves call.step

end NewBlocks

def Returned (s : Scan τ ε) : Prop := ∃ outcome, s.main = .returned outcome

end TransfersConsumer

end Dynex
