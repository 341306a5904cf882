import Mathlib

/-!
# The state machine of the wallet synchroniser

`BlockchainSynchronizer` of `Transfers/BlockchainSynchronizer.cpp`. A worker thread runs
`workingProcedure`: while `checkIfShouldStop()` is false it calls `actualizeFutureState()`, which
makes `m_futureState` the current state, writes the state to follow it and, with the lock
released, runs that state's phase (`removeOutdatedTransactions`, `startBlockchainSync`,
`startPoolSync`) or waits on `m_hasWork` while the state is `idle`. Other threads request states
through `setFutureState`, which keeps the request of higher priority; the phases' error paths
write `idle` through `setFutureStateIf`.

Every read and write of `m_currentState`, `m_futureState` and the task queues is under
`m_stateMutex`, so a run is a sequence of the locked sections of all threads: `step` takes one
of them. The worker's position is `Worker`; a phase is its writes to `m_futureState`, in any
number, then its return (`Outcome`), so that an observer that throws after a write is covered
too. What the phases do to the consumers, the node's observer list and the promises of the
tasks is left out. A run starts from the state `start()` leaves; a second `start()` while a
worker thread exists ends the process in `std::terminate` when its `std::thread` replaces the
joinable one, and is not a step.
-/

set_option autoImplicit false

namespace Dynex.BlockchainSynchronizer

/-- `BlockchainSynchronizer::State`, prioritised by its value. -/
inductive State
  | idle
  | poolSync
  | blockchainSync
  | deleteOldTxs
  | stopped
  deriving DecidableEq, Repr

/-- The value of the enumerator. -/
def State.toNat : State → Nat
  | .idle => 0
  | .poolSync => 1
  | .blockchainSync => 2
  | .deleteOldTxs => 3
  | .stopped => 4

/-- Where the worker thread is. `last` marks the call of `actualizeFutureState()` after the loop
of `workingProcedure`, after which the thread returns. -/
inductive Worker
  | absent
  | checking
  | actualizing (last : Bool)
  | running (phase : State) (last : Bool)
  | waiting (last : Bool)
  deriving DecidableEq, Repr

/-- What `m_stateMutex` guards: the two states and the number of queued tasks of
`m_removeTransactionTasks` and `m_addTransactionTasks`; and where the worker is. -/
structure Synchronizer where
  currentState : State
  futureState : State
  tasks : Nat
  worker : Worker
  deriving DecidableEq, Repr

def initial : Synchronizer :=
  { currentState := .stopped, futureState := .stopped, tasks := 0, worker := .absent }

def setFutureStateIf (sync : Synchronizer) (s : State) (pred : Synchronizer → Bool) :
    Bool × Synchronizer :=
  if pred sync then (true, { sync with futureState := s }) else (false, sync)

def setFutureState (sync : Synchronizer) (s : State) : Bool × Synchronizer :=
  setFutureStateIf sync s fun sync => decide (s.toNat > sync.futureState.toNat)

def setIdleUnlessStopped (sync : Synchronizer) : Synchronizer :=
  (setFutureStateIf sync .idle fun sync => sync.futureState != .stopped).2

/-- `start()`: with consumers and both states `stopped`, requests `deleteOldTxs` and starts the
worker. -/
def start (hasConsumers : Bool) (sync : Synchronizer) : Except String Synchronizer :=
  if !hasConsumers then .error "Failed to start: no consumers"
  else
    match setFutureStateIf sync .deleteOldTxs
        (fun sync => sync.currentState == .stopped && sync.futureState == .stopped) with
    | (false, _) => .error "Failed to start: already started"
    | (true, sync) => .ok { sync with worker := .checking }

def stop (sync : Synchronizer) : Synchronizer := (setFutureState sync .stopped).2

def localBlockchainUpdated (sync : Synchronizer) : Synchronizer :=
  (setFutureState sync .blockchainSync).2

def lastKnownBlockHeightUpdated (sync : Synchronizer) : Synchronizer :=
  (setFutureState sync .blockchainSync).2

def poolChanged (sync : Synchronizer) : Synchronizer := (setFutureState sync .poolSync).2

def queueTask (message : String) (sync : Synchronizer) : Except String Synchronizer :=
  if sync.currentState = .stopped ∨ sync.futureState = .stopped then .error message
  else .ok { sync with tasks := sync.tasks + 1 }

def addUnconfirmedTransaction (sync : Synchronizer) : Except String Synchronizer :=
  queueTask "Failed to add unconfirmed transaction: not stopped" sync

def removeUnconfirmedTransaction (sync : Synchronizer) : Except String Synchronizer :=
  queueTask "Failed to remove unconfirmed transaction: not stopped" sync

def checkIfShouldStop (sync : Synchronizer) : Bool := sync.futureState == .stopped

def Worker.afterActualize (last : Bool) : Worker := if last then .absent else .checking

/-- `actualizeFutureState()` up to where it releases the lock: it runs the queued tasks, makes
`m_futureState` current, writes the state that follows it and enters its phase, or the wait. -/
def actualizeFutureState (sync : Synchronizer) (last : Bool) : Synchronizer :=
  let sync := { sync with tasks := 0, currentState := sync.futureState }
  match sync.futureState with
  | .stopped => { sync with worker := Worker.afterActualize last }
  | .deleteOldTxs => { sync with futureState := .blockchainSync, worker := .running .deleteOldTxs last }
  | .blockchainSync => { sync with futureState := .poolSync, worker := .running .blockchainSync last }
  | .poolSync => { sync with futureState := .idle, worker := .running .poolSync last }
  -- `m_hasWork.wait(lk, pred)`: the tasks were just run, so the predicate is false and it waits
  | .idle => { sync with worker := .waiting last }

/-- How the phase the worker runs goes on: a write to `m_futureState`, or its return. -/
inductive Outcome
  /-- The phase returns. -/
  | returned
  /-- An error path of `startBlockchainSync`, `processBlocks` or `startPoolSync`. -/
  | failed
  /-- `setFutureState(State::blockchainSync)` in `processBlocks` or `startPoolSync`. -/
  | resync
  /-- The end of the retry wait of `removeOutdatedTransactions`. -/
  | retried
  deriving DecidableEq, Repr

/-- One write or the return of the phase `phase`; a write the phase has no path to does nothing. -/
def phaseStep (sync : Synchronizer) (phase : State) (last : Bool) : Outcome → Synchronizer
  | .returned => { sync with worker := Worker.afterActualize last }
  | .failed =>
      if phase = .blockchainSync ∨ phase = .poolSync then setIdleUnlessStopped sync else sync
  | .resync =>
      if phase = .blockchainSync ∨ phase = .poolSync then (setFutureState sync .blockchainSync).2
      else sync
  | .retried =>
      -- `wait_for` returns whether `m_futureState == State::stopped`; otherwise it is overwritten
      if phase = .deleteOldTxs ∧ sync.futureState ≠ .stopped then
        { sync with futureState := .deleteOldTxs }
      else sync

/-- The worker's next locked section. A waiting worker moves once the predicate of the wait
holds. -/
def workerStep (sync : Synchronizer) (outcome : Outcome) : Synchronizer :=
  match sync.worker with
  | .absent => sync
  | .checking => { sync with worker := .actualizing (checkIfShouldStop sync) }
  | .actualizing last => actualizeFutureState sync last
  | .running phase last => phaseStep sync phase last outcome
  | .waiting last =>
      if sync.futureState ≠ .idle ∨ sync.tasks ≠ 0 then
        { sync with worker := Worker.afterActualize last }
      else sync

/-- One locked section of some thread. -/
inductive Action
  | stop
  | localBlockchainUpdated
  | lastKnownBlockHeightUpdated
  | poolChanged
  | addUnconfirmedTransaction
  | removeUnconfirmedTransaction
  | work (outcome : Outcome)
  deriving DecidableEq, Repr

def orUnchanged (sync : Synchronizer) : Except String Synchronizer → Synchronizer
  | .ok next => next
  | .error _ => sync

def step (sync : Synchronizer) : Action → Synchronizer
  | .stop => stop sync
  | .localBlockchainUpdated => localBlockchainUpdated sync
  | .lastKnownBlockHeightUpdated => lastKnownBlockHeightUpdated sync
  | .poolChanged => poolChanged sync
  | .addUnconfirmedTransaction => orUnchanged sync (addUnconfirmedTransaction sync)
  | .removeUnconfirmedTransaction => orUnchanged sync (removeUnconfirmedTransaction sync)
  | .work outcome => workerStep sync outcome

def run (sync : Synchronizer) (actions : List Action) : Synchronizer := actions.foldl step sync

@[simp] theorem run_nil (sync : Synchronizer) : run sync [] = sync := rfl

@[simp] theorem run_cons (sync : Synchronizer) (action : Action) (actions : List Action) :
    run sync (action :: actions) = run (step sync action) actions := rfl

end Dynex.BlockchainSynchronizer
