import Dynex.Transfers.BlockchainSynchronizer

/-!
# Stops and requests of the synchroniser

A stop is never lost: `stopped` is the highest priority, so `setFutureState` keeps it, the error
paths' `setFutureStateIf` skips it, and the retry of `removeOutdatedTransactions` tests for it;
once the worker has made it current, the worker takes two more steps and returns, running no
phase (`futureState_stays_stopped`, `Stopping.run`).

A request of `blockchainSync` or `poolSync` is merged by priority with what is pending, and when
the phase the worker is running returns without writing, the worker then runs a state at least
as high (`request_served_after_return`). But the error paths write `idle` over whatever is
pending: a request that comes while a phase is running, followed by the phase's failure, is
dropped, and the worker waits in `idle` until the next event (`request_dropped_by_failed_phase`).
-/

set_option autoImplicit false

namespace Dynex.BlockchainSynchronizer

/-- The state an event asks for through `setFutureState`. -/
def Action.request : Action → Option State
  | .stop => some .stopped
  | .localBlockchainUpdated => some .blockchainSync
  | .lastKnownBlockHeightUpdated => some .blockchainSync
  | .poolChanged => some .poolSync
  | _ => none

theorem step_of_request {action : Action} {s : State} (requested : action.request = some s)
    (sync : Synchronizer) : step sync action = (setFutureState sync s).2 := by
  cases action <;> cases requested <;> rfl

/-! ## Writes to `m_futureState` -/

theorem toNat_le_stopped (s : State) : s.toNat ≤ State.stopped.toNat := by
  cases s <;> decide

theorem setFutureState_ge (sync : Synchronizer) (s : State) :
    s.toNat ≤ (setFutureState sync s).2.futureState.toNat := by
  unfold setFutureState setFutureStateIf
  split
  · exact le_refl _
  · next lower => simpa using lower

theorem setFutureState_of_stopped {sync : Synchronizer} (stopped : sync.futureState = .stopped)
    (s : State) : (setFutureState sync s).2.futureState = .stopped := by
  have refused : ¬ decide (s.toNat > sync.futureState.toNat) = true := by
    rw [stopped]
    simpa using toNat_le_stopped s
  unfold setFutureState setFutureStateIf
  dsimp only
  rw [if_neg refused]
  exact stopped

theorem setIdleUnlessStopped_of_stopped {sync : Synchronizer} (stopped : sync.futureState = .stopped) :
    (setIdleUnlessStopped sync).futureState = .stopped := by
  simp [setIdleUnlessStopped, setFutureStateIf, stopped]

theorem setIdleUnlessStopped_of_ne {sync : Synchronizer} (other : sync.futureState ≠ .stopped) :
    setIdleUnlessStopped sync = { sync with futureState := .idle } := by
  simp [setIdleUnlessStopped, setFutureStateIf, other]

theorem phaseStep_of_stopped {sync : Synchronizer} (stopped : sync.futureState = .stopped)
    (phase : State) (last : Bool) (outcome : Outcome) :
    (phaseStep sync phase last outcome).futureState = .stopped := by
  cases outcome with
  | returned => exact stopped
  | failed =>
      simp only [phaseStep]
      split
      · exact setIdleUnlessStopped_of_stopped stopped
      · exact stopped
  | resync =>
      simp only [phaseStep]
      split
      · exact setFutureState_of_stopped stopped _
      · exact stopped
  | retried =>
      simp only [phaseStep]
      rw [if_neg (fun retrying => retrying.2 stopped)]
      exact stopped

theorem actualizeFutureState_of_stopped {sync : Synchronizer} (stopped : sync.futureState = .stopped)
    (last : Bool) :
    actualizeFutureState sync last =
      { sync with tasks := 0, currentState := .stopped, worker := Worker.afterActualize last } := by
  unfold actualizeFutureState
  simp only [stopped]

theorem step_of_stopped {sync : Synchronizer} (stopped : sync.futureState = .stopped)
    (action : Action) : (step sync action).futureState = .stopped := by
  cases action with
  | stop | localBlockchainUpdated | lastKnownBlockHeightUpdated | poolChanged =>
      exact setFutureState_of_stopped stopped _
  | addUnconfirmedTransaction | removeUnconfirmedTransaction =>
      simp [step, addUnconfirmedTransaction, removeUnconfirmedTransaction, queueTask, stopped,
        orUnchanged]
  | work outcome =>
      simp only [step, workerStep]
      split
      · exact stopped
      · exact stopped
      · next last _ =>
          rw [actualizeFutureState_of_stopped stopped last]
          exact stopped
      · next phase last _ => exact phaseStep_of_stopped stopped phase last outcome
      · split
        · exact stopped
        · exact stopped

theorem futureState_stays_stopped (sync : Synchronizer) (actions : List Action)
    (stopped : sync.futureState = .stopped) : (run sync actions).futureState = .stopped := by
  induction actions generalizing sync with
  | nil => exact stopped
  | cons action rest ih => exact ih (step sync action) (step_of_stopped stopped action)

/-! ## The worker returns -/

theorem setFutureStateIf_frame (sync : Synchronizer) (s : State) (pred : Synchronizer → Bool) :
    (setFutureStateIf sync s pred).2.worker = sync.worker ∧
      (setFutureStateIf sync s pred).2.currentState = sync.currentState := by
  unfold setFutureStateIf
  split <;> exact ⟨rfl, rfl⟩

theorem queueTask_frame (message : String) (sync : Synchronizer) :
    (orUnchanged sync (queueTask message sync)).worker = sync.worker ∧
      (orUnchanged sync (queueTask message sync)).currentState = sync.currentState := by
  unfold queueTask
  split <;> exact ⟨rfl, rfl⟩

def Action.byWorker : Action → Bool
  | .work _ => true
  | _ => false

theorem step_frame {action : Action} (other : action.byWorker = false) (sync : Synchronizer) :
    (step sync action).worker = sync.worker ∧
      (step sync action).currentState = sync.currentState := by
  cases action with
  | stop | localBlockchainUpdated | lastKnownBlockHeightUpdated | poolChanged =>
      exact setFutureStateIf_frame _ _ _
  | addUnconfirmedTransaction | removeUnconfirmedTransaction => exact queueTask_frame _ _
  | work => cases other

/-- After the worker has made `stopped` current: it is at the loop's test, in the last
`actualizeFutureState()`, or gone. -/
structure Stopping (sync : Synchronizer) : Prop where
  future : sync.futureState = .stopped
  current : sync.currentState = .stopped
  worker : sync.worker = .checking ∨ sync.worker = .actualizing true ∨ sync.worker = .absent

/-- The worker's steps left before it returns. -/
def stopRank : Worker → Nat
  | .checking => 2
  | .actualizing true => 1
  | _ => 0

def workCount (actions : List Action) : Nat := (actions.filter Action.byWorker).length

theorem workCount_cons (action : Action) (actions : List Action) :
    workCount (action :: actions) = (if action.byWorker then 1 else 0) + workCount actions := by
  unfold workCount
  rw [List.filter_cons]
  cases action.byWorker
  · simp
  · simp only [if_true, List.length_cons]
    omega

theorem stopping_of_actualize {sync : Synchronizer} {last : Bool}
    (actualizing : sync.worker = .actualizing last) (stopped : sync.futureState = .stopped)
    (outcome : Outcome) : Stopping (step sync (.work outcome)) := by
  simp only [step, workerStep, actualizing, actualizeFutureState_of_stopped stopped]
  refine ⟨stopped, rfl, ?_⟩
  cases last <;> simp [Worker.afterActualize]

/-- One locked section of any thread keeps `Stopping`, and one of the worker brings it a step
closer to its return. -/
theorem Stopping.step {sync : Synchronizer} (stopping : Stopping sync) (action : Action) :
    Stopping (step sync action) ∧
      stopRank (step sync action).worker =
        stopRank sync.worker - (if action.byWorker then 1 else 0) := by
  cases byWorker : action.byWorker with
  | false =>
      obtain ⟨sameWorker, sameCurrent⟩ := step_frame byWorker sync
      refine ⟨⟨step_of_stopped stopping.future action, sameCurrent.trans stopping.current, ?_⟩, ?_⟩
      · rw [sameWorker]
        exact stopping.worker
      · rw [sameWorker]
        rfl
  | true =>
      obtain ⟨outcome, rfl⟩ : ∃ outcome, action = .work outcome := by
        cases action <;> first | exact ⟨_, rfl⟩ | cases byWorker
      rcases stopping.worker with checking | actualizing | absent
      · have shouldStop : checkIfShouldStop sync = true := by
          simp [checkIfShouldStop, stopping.future]
        simp only [BlockchainSynchronizer.step, workerStep, checking, shouldStop]
        exact ⟨⟨stopping.future, stopping.current, .inr (.inl rfl)⟩, rfl⟩
      · refine ⟨stopping_of_actualize actualizing stopping.future outcome, ?_⟩
        simp [BlockchainSynchronizer.step, workerStep, actualizing,
          actualizeFutureState_of_stopped stopping.future, Worker.afterActualize, stopRank]
      · simp only [BlockchainSynchronizer.step, workerStep, absent]
        exact ⟨stopping, rfl⟩

theorem Stopping.run {sync : Synchronizer} (stopping : Stopping sync) (actions : List Action) :
    Stopping (run sync actions) ∧
      stopRank (run sync actions).worker = stopRank sync.worker - workCount actions := by
  induction actions generalizing sync with
  | nil => exact ⟨stopping, rfl⟩
  | cons action rest ih =>
      obtain ⟨stepped, ranked⟩ := stopping.step action
      obtain ⟨after, rest⟩ := ih stepped
      refine ⟨after, ?_⟩
      rw [run_cons, rest, ranked, workCount_cons]
      cases action.byWorker
      · simp
      · simp only [if_true]
        omega

theorem absent_of_stopRank {sync : Synchronizer} (stopping : Stopping sync)
    (done : stopRank sync.worker = 0) : sync.worker = .absent := by
  rcases stopping.worker with checking | actualizing | absent
  · simp [checking, stopRank] at done
  · simp [actualizing, stopRank] at done
  · exact absent

theorem stopRank_le (worker : Worker) : stopRank worker ≤ 2 := by
  unfold stopRank
  split <;> omega

/-- From the moment the worker has made `stopped` current, `m_futureState` stays `stopped` and
the worker returns within two of its steps, running no phase, whatever the other threads do. -/
theorem worker_returns_after_stop {sync : Synchronizer} (stopping : Stopping sync)
    (actions : List Action) (twice : 2 ≤ workCount actions) :
    (run sync actions).futureState = .stopped ∧ (run sync actions).worker = .absent := by
  obtain ⟨after, ranked⟩ := stopping.run actions
  have done : stopRank (run sync actions).worker = 0 := by
    have := stopRank_le sync.worker
    omega
  exact ⟨after.future, absent_of_stopRank after done⟩

theorem checking_worker_returns_after_stop :
    Stopping { initial with worker := .checking } ∧
      2 ≤ workCount [.work .returned, .work .returned] ∧
      (run { initial with worker := .checking } [.work .returned, .work .returned]).futureState =
          .stopped ∧
        (run { initial with worker := .checking } [.work .returned, .work .returned]).worker =
          .absent :=
  ⟨⟨rfl, rfl, .inl rfl⟩, by decide, worker_returns_after_stop ⟨rfl, rfl, .inl rfl⟩ _ (by decide)⟩

/-! ## Requests while a phase runs -/

theorem actualizeFutureState_currentState (sync : Synchronizer) (last : Bool) :
    (actualizeFutureState sync last).currentState = sync.futureState := by
  unfold actualizeFutureState
  dsimp only
  split <;> rfl

theorem request_served_after_return {sync : Synchronizer} {phase : State} {last : Bool}
    (running : sync.worker = .running phase last) (notLast : last = false) {event : Action}
    {s : State} (requested : event.request = some s) (check actualize : Outcome) :
    s.toNat ≤
      (run sync [event, .work .returned, .work check, .work actualize]).currentState.toNat := by
  subst notLast
  have recorded : s.toNat ≤ (step sync event).futureState.toNat := by
    rw [step_of_request requested]
    exact setFutureState_ge sync s
  have sameWorker : (step sync event).worker = sync.worker :=
    (step_frame (by cases event <;> cases requested <;> rfl) sync).1
  simp only [run_cons, run_nil]
  generalize step sync event = mid at recorded sameWorker
  simp only [BlockchainSynchronizer.step, workerStep, sameWorker, running, phaseStep,
    Worker.afterActualize, Bool.false_eq_true, ↓reduceIte]
  rw [actualizeFutureState_currentState]
  exact recorded

/-- A request made while `startBlockchainSync` or `startPoolSync` runs is dropped when the phase
then takes an error path: the worker's next state is `idle`, and it waits there until another
thread writes. -/
theorem request_dropped_by_failed_phase {sync : Synchronizer} {phase : State}
    (running : sync.worker = .running phase false)
    (syncing : phase = .blockchainSync ∨ phase = .poolSync)
    (notStopping : sync.futureState ≠ .stopped) {event : Action} {s : State}
    (requested : event.request = some s) (notStop : s ≠ .stopped) (check actualize : Outcome) :
    let after := run sync [event, .work .failed, .work .returned, .work check, .work actualize]
    s.toNat ≤ (step sync event).futureState.toNat ∧ after.currentState = .idle ∧
      after.worker = .waiting false ∧ ∀ outcome, step after (.work outcome) = after := by
  intro after
  have recorded : s.toNat ≤ (step sync event).futureState.toNat := by
    rw [step_of_request requested]
    exact setFutureState_ge sync s
  have pending : (step sync event).futureState ≠ .stopped := by
    rw [step_of_request requested]
    unfold setFutureState setFutureStateIf
    split
    · exact notStop
    · exact notStopping
  have sameWorker : (step sync event).worker = sync.worker :=
    (step_frame (by cases event <;> cases requested <;> rfl) sync).1
  refine ⟨recorded, ?_⟩
  have unfolded : after =
      run (step sync event) [.work .failed, .work .returned, .work check, .work actualize] := rfl
  rw [unfolded]
  generalize step sync event = mid at pending sameWorker ⊢
  have dropped : step mid (.work .failed) = { mid with futureState := .idle } := by
    simp only [BlockchainSynchronizer.step, workerStep, sameWorker, running, phaseStep,
      if_pos syncing, setIdleUnlessStopped_of_ne pending]
  have waiting : run mid [.work .failed, .work .returned, .work check, .work actualize] =
      { mid with futureState := .idle, currentState := .idle, tasks := 0, worker := .waiting false } := by
    simp only [run_cons, run_nil, dropped]
    simp [BlockchainSynchronizer.step, workerStep, sameWorker, running, phaseStep,
      Worker.afterActualize, checkIfShouldStop, actualizeFutureState]
  rw [waiting]
  refine ⟨rfl, rfl, fun outcome => ?_⟩
  simp [BlockchainSynchronizer.step, workerStep]

/-- After `start()`, the worker runs `deleteOldTxs` and enters `startBlockchainSync`; a
`localBlockchainUpdated` then, followed by a failed `queryBlocks`, leaves the worker waiting in
`idle` with the update not synchronised. -/
theorem failed_query_drops_local_blockchain_update :
    start true initial = .ok ⟨.stopped, .deleteOldTxs, 0, .checking⟩ ∧
      run ⟨.stopped, .deleteOldTxs, 0, .checking⟩ [.work .returned, .work .returned,
          .work .returned, .work .returned, .work .returned] =
        ⟨.blockchainSync, .poolSync, 0, .running .blockchainSync false⟩ ∧
      let after := run ⟨.blockchainSync, .poolSync, 0, .running .blockchainSync false⟩
        [.localBlockchainUpdated, .work .failed, .work .returned, .work .returned, .work .returned]
      State.blockchainSync.toNat ≤
          (step ⟨.blockchainSync, .poolSync, 0, .running .blockchainSync false⟩
            .localBlockchainUpdated).futureState.toNat ∧
        after.currentState = .idle ∧ after.worker = .waiting false ∧
        ∀ outcome, step after (.work outcome) = after :=
  ⟨rfl, rfl, @request_dropped_by_failed_phase ⟨.blockchainSync, .poolSync, 0,
    .running .blockchainSync false⟩ .blockchainSync rfl (.inl rfl) (by decide)
    .localBlockchainUpdated .blockchainSync rfl (by decide) .returned .returned⟩

end Dynex.BlockchainSynchronizer
