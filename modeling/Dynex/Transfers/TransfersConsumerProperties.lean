import Mathlib
import Dynex.Transfers.TransfersConsumer

/-!
# Every run of the scan, and the one that never returns

Every step of every thread lowers a measure (`cost_lt_of_step`), so no run of `onNewBlocks` is
infinite. An invariant (`Invariant`) says what the threads share: the flag is set exactly when a
worker has returned an error; the queue is closed exactly when the pushing thread is done; while
no error has stopped the scan, the preprocessed transactions, those in the workers' hands, those
queued and those still to push are the scan's transactions; and the calling thread has joined
the workers before it, with the first error among them. From it, a call that returns either
processed every scanned transaction once, sorted, or reported an error a worker returned
(`outcome_of_returned`). When no transaction fails, some thread can always move, so every run
ends with the call returned.

When one fails, the workers stop, but the pushing thread tests the flag only between blocks: with
a block of more transactions than the queue holds after the failure, it waits in `push` for room
no worker will make, the queue is never closed, and the future of the pushing thread waits for it
at the `return` forever.
-/

set_option autoImplicit false

namespace Dynex.TransfersConsumer

open TransitionSystem Relation

variable {τ ε : Type}

/-! ## What a step does -/

/-- What one step of the pushing thread does. -/
inductive PushMove (call : NewBlocks τ ε) : Scan τ ε → Scan τ ε → Prop
  /-- After the last block, or with the flag set, the queue is closed. -/
  | close {s : Scan τ ε} {blocks : List (List (Tx τ))} (at_test : s.pusher = .nextBlock blocks)
      (ends : blocks = [] ∨ s.stopProcessing = true) :
      PushMove call s { s with pusher := .finished, closed := true }
  | enter {s : Scan τ ε} {items : List (Tx τ)} {blocks : List (List (Tx τ))}
      (at_test : s.pusher = .nextBlock (items :: blocks)) (running : s.stopProcessing = false) :
      PushMove call s { s with pusher := .pushing items blocks }
  | next {s : Scan τ ε} {blocks : List (List (Tx τ))} (done : s.pusher = .pushing [] blocks) :
      PushMove call s { s with pusher := .nextBlock blocks }
  /-- `push` on a closed queue returns `false`. -/
  | drop {s : Scan τ ε} {item : Tx τ} {items : List (Tx τ)} {blocks : List (List (Tx τ))}
      (at_push : s.pusher = .pushing (item :: items) blocks) (closed : s.closed = true) :
      PushMove call s { s with pusher := .pushing items blocks }
  | push {s : Scan τ ε} {item : Tx τ} {items : List (Tx τ)} {blocks : List (List (Tx τ))}
      (at_push : s.pusher = .pushing (item :: items) blocks) (opened : s.closed = false)
      (room : s.queue.length < call.capacity) :
      PushMove call s { s with queue := s.queue ++ [item], pusher := .pushing items blocks }

/-- What one step of a worker does: the worker before and after, and the shared state after. -/
inductive WorkMove (call : NewBlocks τ ε) : Scan τ ε → Worker τ ε → Worker τ ε → Scan τ ε → Prop
  | stopped {s : Scan τ ε} (stop : s.stopProcessing = true) : WorkMove call s .checking (.returned none) s
  | running {s : Scan τ ε} (go : s.stopProcessing = false) : WorkMove call s .checking .popping s
  | pop {s : Scan τ ε} {item : Tx τ} {rest : List (Tx τ)} (front : s.queue = item :: rest) :
      WorkMove call s .popping (.processing item) { s with queue := rest }
  /-- `pop` on a closed and empty queue returns `false`. -/
  | drained {s : Scan τ ε} (empty : s.queue = []) (closed : s.closed = true) :
      WorkMove call s .popping (.returned none) s
  | fail {s : Scan τ ε} {item : Tx τ} {ec : ε} (failed : call.preprocessOutputs item = some ec) :
      WorkMove call s (.processing item) (.returned (some ec)) { s with stopProcessing := true }
  | preprocess {s : Scan τ ε} {item : Tx τ} (succeeded : call.preprocessOutputs item = none) :
      WorkMove call s (.processing item) .checking
        { s with preprocessed := s.preprocessed ++ [item] }

/-- What one step of the calling thread does. -/
inductive MainMove (call : NewBlocks τ ε) : Scan τ ε → Scan τ ε → Prop
  | finish {s : Scan τ ε} {k : Nat} {processingError : Option ε}
      (joining : s.main = .joining k processingError) (joined : s.workers[k]? = none) :
      MainMove call s { s with main := .leaving (call.finish processingError s.preprocessed) }
  | join {s : Scan τ ε} {k : Nat} {processingError ec : Option ε}
      (joining : s.main = .joining k processingError) (ended : s.workers[k]? = some (.returned ec)) :
      MainMove call s
        { s with main := .joining (k + 1) (if processingError.isNone then ec else processingError) }
  | leave {s : Scan τ ε} {outcome : Outcome τ ε} (leaving : s.main = .leaving outcome)
      (pushed : s.pusher = .finished) :
      MainMove call s { s with main := .returned outcome }

namespace NewBlocks

variable (call : NewBlocks τ ε)

theorem pushMove_of_pushStep {s t : Scan τ ε} (moved : call.pushStep s = some t) :
    PushMove call s t := by
  unfold pushStep at moved
  split at moved
  · next at_test =>
      cases moved
      exact .close at_test (.inl rfl)
  · next items blocks at_test =>
      split at moved
      · next stop =>
          cases moved
          exact .close at_test (.inr stop)
      · next running =>
          cases moved
          exact .enter at_test (by simpa using running)
  · next blocks done =>
      cases moved
      exact .next done
  · next item items blocks at_push =>
      split at moved
      · next closed =>
          cases moved
          exact .drop at_push closed
      · next opened =>
          split at moved
          · next room =>
              cases moved
              exact .push at_push (by simpa using opened) room
          · cases moved
  · cases moved

theorem workMove_of_workStep {s t : Scan τ ε} {worker moved : Worker τ ε}
    (stepped : call.workStep s worker = some (moved, t)) : WorkMove call s worker moved t := by
  cases worker with
  | checking =>
      cases stop : s.stopProcessing with
      | true =>
          simp only [workStep, stop, if_true, Option.some.injEq, Prod.mk.injEq] at stepped
          obtain ⟨rfl, rfl⟩ := stepped
          exact .stopped stop
      | false =>
          simp only [workStep, stop, Bool.false_eq_true, if_false, Option.some.injEq,
            Prod.mk.injEq] at stepped
          obtain ⟨rfl, rfl⟩ := stepped
          exact .running stop
  | popping =>
      cases front : s.queue with
      | cons item rest =>
          simp only [workStep, front, Option.some.injEq, Prod.mk.injEq] at stepped
          obtain ⟨rfl, rfl⟩ := stepped
          exact .pop front
      | nil =>
          cases closed : s.closed with
          | true =>
              simp only [workStep, front, closed, if_true, Option.some.injEq,
                Prod.mk.injEq] at stepped
              obtain ⟨rfl, rfl⟩ := stepped
              exact .drained front closed
          | false => simp [workStep, front, closed] at stepped
  | processing item =>
      cases outcome : call.preprocessOutputs item with
      | some ec =>
          simp only [workStep, outcome, Option.some.injEq, Prod.mk.injEq] at stepped
          obtain ⟨rfl, rfl⟩ := stepped
          exact .fail outcome
      | none =>
          simp only [workStep, outcome, Option.some.injEq, Prod.mk.injEq] at stepped
          obtain ⟨rfl, rfl⟩ := stepped
          exact .preprocess outcome
  | returned ec => cases stepped

theorem mainMove_of_mainStep {s t : Scan τ ε} (moved : call.mainStep s = some t) :
    MainMove call s t := by
  unfold mainStep at moved
  split at moved
  · next k processingError joining =>
      split at moved
      · next joined =>
          cases moved
          exact .finish joining joined
      · next ec ended =>
          cases moved
          exact .join joining ended
      · cases moved
  · next outcome leaving =>
      split at moved
      · next pushed =>
          cases moved
          exact .leave leaving pushed
      · cases moved
  · cases moved

theorem step_cases {s t : Scan τ ε} (stepped : call.Step s t) :
    PushMove call s t ∨ MainMove call s t ∨
      ∃ k worker moved u, s.workers[k]? = some worker ∧ WorkMove call s worker moved u ∧
        t = { u with workers := s.workers.set k moved } := by
  obtain ⟨thread, moved⟩ := stepped
  cases thread with
  | pusher => exact .inl (call.pushMove_of_pushStep moved)
  | main => exact .inr (.inl (call.mainMove_of_mainStep moved))
  | worker k =>
      simp only [step] at moved
      split at moved
      · cases moved
      · next worker found =>
          obtain ⟨⟨after, u⟩, stepped, rfl⟩ := Option.map_eq_some_iff.mp moved
          exact .inr (.inr ⟨k, worker, after, u, found, call.workMove_of_workStep stepped, rfl⟩)

end NewBlocks

private theorem split_of_getElem? {α : Type} {ws : List α} {k : Nat} {w : α}
    (found : ws[k]? = some w) (w' : α) :
    ws = ws.take k ++ w :: ws.drop (k + 1) ∧ ws.set k w' = ws.take k ++ w' :: ws.drop (k + 1) := by
  obtain ⟨bound, rfl⟩ := List.getElem?_eq_some_iff.mp found
  exact ⟨by rw [← List.drop_eq_getElem_cons bound, List.take_append_drop],
    List.set_eq_take_cons_drop _ bound⟩

private theorem sum_map_set {α : Type} (f : α → Nat) {ws : List α} {k : Nat} {w : α}
    (found : ws[k]? = some w) (w' : α) :
    ((ws.set k w').map f).sum + f w = (ws.map f).sum + f w' := by
  obtain ⟨before, after⟩ := split_of_getElem? found w'
  rw [after]
  conv_rhs => rw [before]
  simp only [List.map_append, List.map_cons, List.sum_append, List.sum_cons]
  omega

theorem WorkMove.frame {call : NewBlocks τ ε} {s u : Scan τ ε} {worker moved : Worker τ ε}
    (move : WorkMove call s worker moved u) :
    u.pusher = s.pusher ∧ u.closed = s.closed ∧ u.workers = s.workers ∧ u.main = s.main := by
  cases move <;> exact ⟨rfl, rfl, rfl, rfl⟩

/-! ## Every run ends -/

def planCost (blocks : List (List (Tx τ))) : Nat :=
  (blocks.map fun items => 5 * items.length + 3).sum

def Pusher.cost : Pusher τ → Nat
  | .nextBlock blocks => planCost blocks + 1
  | .pushing items blocks => 5 * items.length + 2 + planCost blocks
  | .finished => 0

def Worker.cost : Worker τ ε → Nat
  | .checking => 2
  | .popping => 1
  | .processing _ => 3
  | .returned _ => 0

/-- The calling thread's part: the futures left to join, and the `return`. -/
def Main.cost (workers : Nat) : Main τ ε → Nat
  | .joining k _ => workers - k + 2
  | .leaving _ => 1
  | .returned _ => 0

def Scan.cost (s : Scan τ ε) : Nat :=
  s.pusher.cost + 3 * s.queue.length + (s.workers.map Worker.cost).sum +
    s.main.cost s.workers.length

theorem PushMove.cost_lt {call : NewBlocks τ ε} {s t : Scan τ ε} (move : PushMove call s t) :
    t.cost < s.cost := by
  cases move with
  | close at_test _ => simp only [Scan.cost, at_test, Pusher.cost]; omega
  | enter at_test _ => simp [Scan.cost, at_test, Pusher.cost, planCost]
  | next done => simp only [Scan.cost, done, Pusher.cost, List.length_nil]; omega
  | drop at_push _ => simp only [Scan.cost, at_push, Pusher.cost, List.length_cons]; omega
  | push at_push _ _ =>
      simp only [Scan.cost, at_push, Pusher.cost, List.length_cons, List.length_append,
        List.length_nil]
      omega

theorem MainMove.cost_lt {call : NewBlocks τ ε} {s t : Scan τ ε} (move : MainMove call s t) :
    t.cost < s.cost := by
  cases move with
  | finish joining _ => simp only [Scan.cost, joining, Main.cost]; omega
  | join joining ended =>
      have below : _ < s.workers.length := (List.getElem?_eq_some_iff.mp ended).1
      simp only [Scan.cost, joining, Main.cost]
      omega
  | leave leaving _ => simp only [Scan.cost, leaving, Main.cost]; omega

theorem WorkMove.cost_lt {call : NewBlocks τ ε} {s u : Scan τ ε} {worker moved : Worker τ ε}
    (move : WorkMove call s worker moved u) :
    moved.cost + 3 * u.queue.length < worker.cost + 3 * s.queue.length := by
  cases move with
  | pop front => simp only [Worker.cost, front, List.length_cons]; omega
  | stopped _ | running _ | drained _ _ | fail _ | preprocess _ => simp only [Worker.cost]; omega

namespace NewBlocks

variable (call : NewBlocks τ ε)

theorem cost_lt_of_step {s t : Scan τ ε} (stepped : call.Step s t) : t.cost < s.cost := by
  rcases call.step_cases stepped with move | move | ⟨k, worker, moved, u, found, move, rfl⟩
  · exact move.cost_lt
  · exact move.cost_lt
  · obtain ⟨pusher, -, -, main⟩ := move.frame
    have lowered := move.cost_lt
    have sums := sum_map_set Worker.cost found moved
    simp only [Scan.cost, pusher, main, List.length_set]
    omega

theorem halts (s : Scan τ ε) : Halts call.Step s :=
  halts_of_measure Scan.cost call.cost_lt_of_step s

end NewBlocks

/-! ## What every reachable state keeps -/

/-- The items the pushing thread has still to push. -/
def Pusher.remaining : Pusher τ → List (Tx τ)
  | .nextBlock blocks => blocks.flatten
  | .pushing items blocks => items ++ blocks.flatten
  | .finished => []

def Worker.item? : Worker τ ε → Option (Tx τ)
  | .processing item => some item
  | _ => none

def Worker.ended : Worker τ ε → Bool
  | .returned _ => true
  | _ => false

/-- The first error among `workers`, in order: what the calling thread has after joining them. -/
def joinedError : List (Worker τ ε) → Option ε
  | [] => none
  | .returned (some ec) :: _ => some ec
  | _ :: rest => joinedError rest

theorem joinedError_append_returned (workers : List (Worker τ ε)) (ec : Option ε) :
    joinedError (workers ++ [.returned ec]) =
      if (joinedError workers).isNone then ec else joinedError workers := by
  induction workers with
  | nil => cases ec <;> rfl
  | cons worker rest ih =>
      match worker with
      | .returned (some first) => rfl
      | .returned none | .checking | .popping | .processing _ => exact ih

theorem joinedError_eq_none_iff {workers : List (Worker τ ε)} :
    joinedError workers = none ↔ ∀ ec, .returned (some ec) ∉ workers := by
  induction workers with
  | nil => simp [joinedError]
  | cons worker rest ih =>
      match worker with
      | .returned (some first) =>
          exact iff_of_false (by simp [joinedError]) fun clean => clean first List.mem_cons_self
      | .returned none | .checking | .popping | .processing _ => simpa [joinedError] using ih

theorem mem_of_joinedError_eq_some {workers : List (Worker τ ε)} {ec : ε}
    (failed : joinedError workers = some ec) : .returned (some ec) ∈ workers := by
  induction workers with
  | nil => cases failed
  | cons worker rest ih =>
      match worker with
      | .returned (some first) =>
          cases failed
          exact List.mem_cons_self
      | .returned none | .checking | .popping | .processing _ =>
          exact List.mem_cons_of_mem _ (ih failed)

theorem WorkMove.not_ended {call : NewBlocks τ ε} {s u : Scan τ ε} {worker moved : Worker τ ε}
    (move : WorkMove call s worker moved u) : worker.ended = false := by
  cases move <;> rfl


private theorem perm_move {α : Type} (item : α) (a b c : List α) :
    (a ++ item :: (b ++ c)).Perm (a ++ b ++ item :: c) :=
  calc (a ++ item :: (b ++ c)).Perm (item :: (a ++ (b ++ c))) := List.perm_middle
    _ = item :: (a ++ b ++ c) := by rw [List.append_assoc]
    List.Perm _ (a ++ b ++ item :: c) := List.perm_middle.symm

private theorem take_succ_of_getElem? {α : Type} {ws : List α} {k : Nat} {w : α}
    (found : ws[k]? = some w) : ws.take (k + 1) = ws.take k ++ [w] := by
  rw [List.take_add_one, found, Option.toList_some]

/-- What holds in every state the scan reaches. -/
structure Invariant (call : NewBlocks τ ε) (s : Scan τ ε) : Prop where
  workers_length : s.workers.length = call.workers
  closed_iff : s.closed = true ↔ s.pusher = .finished
  returned_pushed : ∀ outcome, s.main = .returned outcome → s.pusher = .finished
  /-- The flag is set exactly by a worker that returns an error. -/
  stop_iff : s.stopProcessing = true ↔ ∃ ec, .returned (some ec) ∈ s.workers
  /-- A worker returns without an error after the flag, or from a closed and empty queue, which
  stays empty. -/
  returned_none : .returned none ∈ s.workers →
    s.stopProcessing = true ∨ (s.closed = true ∧ s.queue = [])
  /-- Until an error, no transaction is lost or doubled on its way. -/
  conserved : s.stopProcessing = false →
    (s.preprocessed ++ s.workers.filterMap Worker.item? ++ s.queue ++ s.pusher.remaining).Perm
      call.items
  joining : ∀ k processingError, s.main = .joining k processingError →
    k ≤ s.workers.length ∧ (∀ worker ∈ s.workers.take k, worker.ended = true) ∧
      processingError = joinedError (s.workers.take k)
  left : ∀ outcome, (s.main = .leaving outcome ∨ s.main = .returned outcome) →
    (∀ worker ∈ s.workers, worker.ended = true) ∧
      outcome = call.finish (joinedError s.workers) s.preprocessed

namespace Invariant

variable {call : NewBlocks τ ε}

theorem start : Invariant call call.start where
  workers_length := List.length_replicate
  closed_iff := by simp [NewBlocks.start]
  returned_pushed := by simp [NewBlocks.start]
  stop_iff := by simp [NewBlocks.start, List.mem_replicate]
  returned_none := by simp [NewBlocks.start, List.mem_replicate]
  conserved := by
    intro _
    simp [NewBlocks.start, NewBlocks.items, Pusher.remaining, List.filterMap_replicate,
      Worker.item?]
  joining := by
    intro k processingError joining
    cases joining
    simp [joinedError]
  left := by simp [NewBlocks.start]

theorem push {s t : Scan τ ε} (inv : Invariant call s) (move : PushMove call s t) :
    Invariant call t := by
  have running : ∀ outcome, s.main ≠ .returned outcome := by
    intro outcome returned
    have finished := inv.returned_pushed outcome returned
    cases move <;> simp_all
  cases move with
  | close at_test ends =>
      refine
        { inv with
          closed_iff := by simp
          returned_pushed := fun _ _ => rfl
          returned_none := ?_
          conserved := ?_ }
      · intro ended
        rcases inv.returned_none ended with stop | ⟨-, empty⟩
        · exact .inl stop
        · exact .inr ⟨rfl, empty⟩
      · intro go
        rcases ends with rfl | stop
        · simpa [Pusher.remaining, at_test] using inv.conserved go
        · simp [stop] at go
  | enter at_test _ =>
      refine
        { inv with
          closed_iff := by simp [inv.closed_iff, at_test]
          returned_pushed := fun outcome returned => absurd returned (running outcome)
          conserved := fun go => ?_ }
      simpa [Pusher.remaining, at_test] using inv.conserved go
  | next done =>
      refine
        { inv with
          closed_iff := by simp [inv.closed_iff, done]
          returned_pushed := fun outcome returned => absurd returned (running outcome)
          conserved := fun go => ?_ }
      simpa [Pusher.remaining, done] using inv.conserved go
  | drop at_push closed =>
      exact absurd (inv.closed_iff.mp closed) (by simp [at_push])
  | push at_push opened _ =>
      refine
        { inv with
          closed_iff := by simp [inv.closed_iff, at_push]
          returned_pushed := fun outcome returned => absurd returned (running outcome)
          returned_none := fun ended => ?_
          conserved := fun go => ?_ }
      · rcases inv.returned_none ended with stop | ⟨closed, -⟩
        · exact .inl stop
        · simp [opened] at closed
      · simpa [Pusher.remaining, at_push] using inv.conserved go

theorem main {s t : Scan τ ε} (inv : Invariant call s) (move : MainMove call s t) :
    Invariant call t := by
  cases move with
  | @finish k processingError joining joined =>
      obtain ⟨_, ended, error⟩ := inv.joining k processingError joining
      have all : s.workers.take k = s.workers :=
        List.take_of_length_le (List.getElem?_eq_none_iff.mp joined)
      refine { inv with returned_pushed := by simp, joining := by simp, left := ?_ }
      rintro outcome (leaving | leaving) <;> cases leaving
      rw [all] at ended error
      exact ⟨ended, by rw [error]⟩
  | @join k processingError ec joining found =>
      obtain ⟨_, ended, error⟩ := inv.joining k processingError joining
      have longer := take_succ_of_getElem? found
      refine { inv with returned_pushed := by simp, joining := ?_, left := by simp }
      intro k' processingError' joining'
      cases joining'
      refine ⟨(List.getElem?_eq_some_iff.mp found).1, ?_, ?_⟩
      · intro worker joined
        rw [longer, List.mem_append, List.mem_singleton] at joined
        rcases joined with joined | rfl
        · exact ended worker joined
        · rfl
      · rw [longer, joinedError_append_returned, ← error]
  | @leave outcome leaving pushed =>
      refine { inv with returned_pushed := fun _ _ => pushed, joining := by simp, left := ?_ }
      rintro outcome (returned | returned) <;> cases returned
      exact inv.left outcome (.inl leaving)

theorem work {s u : Scan τ ε} {front back : List (Worker τ ε)} {worker moved : Worker τ ε}
    (inv : Invariant call s) (workers : s.workers = front ++ worker :: back)
    (move : WorkMove call s worker moved u) :
    Invariant call { u with workers := front ++ moved :: back } := by
  obtain ⟨pusher, closed, -, main⟩ := move.frame
  have fresh := move.not_ended
  have joined_before : ∀ k processingError, s.main = .joining k processingError →
      k ≤ front.length := by
    intro k processingError joining
    obtain ⟨-, ended, -⟩ := inv.joining k processingError joining
    by_contra after
    have found : (s.workers.take k)[front.length]? = some worker := by
      rw [List.getElem?_take_of_lt (by omega), workers]
      simp
    simp [ended worker (List.mem_of_getElem? found)] at fresh
  have stop_iff := workers ▸ inv.stop_iff
  have returned_none := workers ▸ inv.returned_none
  have conserved := workers ▸ inv.conserved
  refine
    { workers_length := by simpa [workers] using inv.workers_length
      closed_iff := by simpa [closed, pusher] using inv.closed_iff
      returned_pushed := fun outcome returned => by
        simpa [pusher] using inv.returned_pushed outcome (by simpa [main] using returned)
      stop_iff := ?_
      returned_none := ?_
      conserved := ?_
      joining := fun k processingError joining => ?_
      left := fun outcome left => ?_ }
  · cases move with
    | @fail _ ec _ => exact iff_of_true rfl ⟨ec, by simp⟩
    | stopped _ | running _ | pop _ | drained _ _ | preprocess _ => simpa using stop_iff
  · cases move with
    | stopped stop => exact fun _ => .inl stop
    | drained empty drained => exact fun _ => .inr ⟨drained, empty⟩
    | fail _ => exact fun _ => .inl rfl
    | running _ | preprocess _ => simpa using returned_none
    | pop queued =>
        intro ended
        rcases returned_none (by simpa using ended) with stop | ⟨-, empty⟩
        · exact .inl stop
        · simp [queued] at empty
  · intro go
    cases move with
    | stopped stop | fail _ => simp_all
    | running _ | drained _ _ => simpa [List.filterMap_cons, Worker.item?] using conserved go
    | @pop item rest queued =>
        have kept := conserved go
        rw [queued] at kept
        refine List.Perm.trans ?_ kept
        simpa [List.filterMap_cons, Worker.item?] using
          perm_move item (s.preprocessed ++ front.filterMap Worker.item?)
            (back.filterMap Worker.item?) (rest ++ s.pusher.remaining)
    | @preprocess item _ =>
        refine List.Perm.trans ?_ (conserved go)
        simpa [List.filterMap_cons, Worker.item?] using
          perm_move item s.preprocessed (front.filterMap Worker.item?)
            (back.filterMap Worker.item? ++ s.queue ++ s.pusher.remaining)
  · have joining : s.main = .joining k processingError := by simpa [main] using joining
    obtain ⟨bounded, ended, error⟩ := inv.joining k processingError joining
    have before := joined_before k processingError joining
    have same : (front ++ moved :: back).take k = s.workers.take k := by
      rw [workers, List.take_append_of_le_length before, List.take_append_of_le_length before]
    refine ⟨by simpa [workers] using bounded, ?_, ?_⟩
    · show ∀ worker ∈ (front ++ moved :: back).take k, worker.ended = true
      rw [same]
      exact ended
    · show processingError = joinedError ((front ++ moved :: back).take k)
      rw [same]
      exact error
  · obtain ⟨all, -⟩ := inv.left outcome (by simpa [main] using left)
    simp [all worker (by simp [workers])] at fresh

end Invariant

theorem NewBlocks.workers_pos (call : NewBlocks τ ε) : 0 < call.workers := by
  unfold NewBlocks.workers
  split <;> omega

namespace Invariant

variable {call : NewBlocks τ ε} {s : Scan τ ε}

theorem exists_worker (inv : Invariant call s) : ∃ worker, worker ∈ s.workers := by
  apply List.exists_mem_of_length_pos
  rw [inv.workers_length]
  exact call.workers_pos

theorem drained (inv : Invariant call s) (go : s.stopProcessing = false) {ec : Option ε}
    (ended : .returned ec ∈ s.workers) : s.pusher = .finished ∧ s.queue = [] := by
  cases ec with
  | some ec => simp [inv.stop_iff.mpr ⟨ec, ended⟩] at go
  | none =>
      rcases inv.returned_none ended with stop | ⟨closed, empty⟩
      · simp [stop] at go
      · exact ⟨inv.closed_iff.mp closed, empty⟩

end Invariant

/-! ## Every run, and what a returned call did -/

theorem sortTransactions_sorted (transactions : List (Tx τ)) :
    (sortTransactions transactions).Pairwise fun a b => (!txBefore b a) = true := by
  apply List.pairwise_mergeSort
  · intro a b c ab bc
    simp only [txBefore, Bool.not_or, Bool.not_and, Bool.and_eq_true, Bool.or_eq_true,
      Bool.not_eq_true', decide_eq_false_iff_not, beq_eq_false_iff_ne, ne_eq,
      UInt32.lt_iff_toNat_lt, ← UInt32.toNat_inj] at *
    omega
  · intro a b
    simp only [txBefore, Bool.not_or, Bool.not_and, Bool.and_eq_true, Bool.or_eq_true,
      Bool.not_eq_true', decide_eq_false_iff_not, beq_eq_false_iff_ne, ne_eq,
      UInt32.lt_iff_toNat_lt, ← UInt32.toNat_inj]
    omega

/-- What a returned call did, when no worker failed. -/
structure Scanned (call : NewBlocks τ ε) (outcome : Outcome τ ε) : Prop where
  result : outcome.result = true
  blocksAdded : outcome.blocksAdded = some (call.blocks.map (·.blockHash))
  /-- Every scanned transaction is processed, once. -/
  processed : outcome.processed.Perm call.items
  /-- In the order of height, then of position in the block. -/
  sorted : outcome.processed.Pairwise fun a b => (!txBefore b a) = true
  subscriptions : outcome.subscriptions = .advanceHeight call.newHeight

namespace NewBlocks

variable (call : NewBlocks τ ε)

theorem invariant_of_step {s t : Scan τ ε} (inv : Invariant call s) (stepped : call.Step s t) :
    Invariant call t := by
  rcases call.step_cases stepped with move | move | ⟨k, worker, moved, u, found, move, rfl⟩
  · exact inv.push move
  · exact inv.main move
  · obtain ⟨before, after⟩ := split_of_getElem? found moved
    rw [after]
    exact inv.work before move

theorem invariant_of_run {s : Scan τ ε} (run : ReflTransGen call.Step call.start s) :
    Invariant call s :=
  holds_of_run (P := Invariant call) (fun inv stepped => call.invariant_of_step inv stepped)
    Invariant.start run

theorem running_of_step (succeeds : ∀ item ∈ call.items, call.preprocessOutputs item = none)
    {s t : Scan τ ε} (inv : Invariant call s) (go : s.stopProcessing = false)
    (stepped : call.Step s t) : t.stopProcessing = false := by
  rcases call.step_cases stepped with move | move | ⟨k, worker, moved, u, found, move, rfl⟩
  · cases move <;> exact go
  · cases move <;> exact go
  · cases move with
    | @fail item ec failed =>
        have held : item ∈ s.workers.filterMap Worker.item? :=
          List.mem_filterMap.mpr ⟨_, List.mem_of_getElem? found, rfl⟩
        have scanned : item ∈ call.items := (inv.conserved go).subset
          (List.mem_append_left _ (List.mem_append_left _ (List.mem_append_right _ held)))
        simp [succeeds item scanned] at failed
    | stopped _ | running _ | pop _ | drained _ _ | preprocess _ => exact go

theorem running_of_run (succeeds : ∀ item ∈ call.items, call.preprocessOutputs item = none)
    {s : Scan τ ε} (run : ReflTransGen call.Step call.start s) : s.stopProcessing = false :=
  (holds_of_run (P := fun s => Invariant call s ∧ s.stopProcessing = false)
    (fun ⟨inv, go⟩ stepped =>
      ⟨call.invariant_of_step inv stepped, call.running_of_step succeeds inv go stepped⟩)
    ⟨Invariant.start, rfl⟩ run).2

/-- Until an error, some thread can move until the call returns. -/
theorem progress {s : Scan τ ε} (inv : Invariant call s) (go : s.stopProcessing = false)
    (unfinished : ¬ Returned s) : ∃ t, call.Step s t := by
  have pusher_moves : s.pusher ≠ .finished → s.queue = [] → ∃ t, call.Step s t := by
    intro pushing empty
    have room : s.queue.length < call.capacity := by
      have := call.workers_pos
      rw [empty, capacity, List.length_nil]
      omega
    apply moves_of_isSome Thread.pusher
    cases pusher : s.pusher with
    | nextBlock blocks =>
        cases blocks with
        | nil => simp [step, pushStep, pusher]
        | cons items blocks =>
            simp only [step, pushStep, pusher]
            split <;> rfl
    | pushing items blocks =>
        cases items with
        | nil => simp [step, pushStep, pusher]
        | cons item items =>
            simp only [step, pushStep, pusher, room, if_true]
            split <;> rfl
    | finished => exact absurd pusher pushing
  cases main : s.main with
  | returned outcome => exact absurd ⟨outcome, main⟩ unfinished
  | leaving outcome =>
      obtain ⟨all, -⟩ := inv.left outcome (.inl main)
      obtain ⟨worker, first⟩ := inv.exists_worker
      have ended := all worker first
      cases worker with
      | returned ec =>
          apply moves_of_isSome Thread.main
          simp [step, mainStep, main, (inv.drained go first).1]
      | checking | popping | processing _ => cases ended
  | joining k processingError =>
      cases found : s.workers[k]? with
      | none => exact moves_of_isSome Thread.main (by simp [step, mainStep, main, found])
      | some worker =>
          cases worker with
          | returned ec =>
              exact moves_of_isSome Thread.main (by simp [step, mainStep, main, found])
          | checking =>
              exact moves_of_isSome (Thread.worker k) (by simp [step, workStep, found])
          | processing item =>
              apply moves_of_isSome (Thread.worker k)
              cases outcome : call.preprocessOutputs item <;> simp [step, workStep, found, outcome]
          | popping =>
              cases queued : s.queue with
              | cons item rest =>
                  exact moves_of_isSome (Thread.worker k) (by simp [step, workStep, found, queued])
              | nil =>
                  cases closed : s.closed with
                  | true =>
                      exact moves_of_isSome (Thread.worker k)
                        (by simp [step, workStep, found, queued, closed])
                  | false =>
                      exact pusher_moves (fun done => by simp [inv.closed_iff.mpr done] at closed)
                        queued

/-- A returned call either processed every scanned transaction once, in order, and advanced
every subscription, with no worker failed; or some worker failed, and it reported that worker's
error and processed nothing. -/
theorem outcome_of_returned {s : Scan τ ε} (inv : Invariant call s) {outcome : Outcome τ ε}
    (returned : s.main = .returned outcome) :
    ((∀ ec, .returned (some ec) ∉ s.workers) ∧ Scanned call outcome) ∨
      ∃ ec, .returned (some ec) ∈ s.workers ∧
        outcome =
          { result := false
            blocksAdded := none
            processed := []
            subscriptions := .onError ec call.startHeight } := by
  obtain ⟨all, finished⟩ := inv.left outcome (.inr returned)
  cases failed : joinedError s.workers with
  | some ec => exact .inr ⟨ec, mem_of_joinedError_eq_some failed, by rw [finished, failed]; rfl⟩
  | none =>
      have clean := joinedError_eq_none_iff.mp failed
      have go : s.stopProcessing = false := by
        cases stop : s.stopProcessing with
        | false => rfl
        | true =>
            obtain ⟨ec, failing⟩ := inv.stop_iff.mp stop
            exact absurd failing (clean ec)
      have idle : s.workers.filterMap Worker.item? = [] := by
        refine List.filterMap_eq_nil_iff.mpr fun worker member => ?_
        have ended := all worker member
        cases worker with
        | returned _ => rfl
        | checking | popping | processing _ => cases ended
      obtain ⟨worker, first⟩ := inv.exists_worker
      have empty : s.queue = [] := by
        have ended := all worker first
        cases worker with
        | returned ec => exact (inv.drained go first).2
        | checking | popping | processing _ => cases ended
      have pushed : s.pusher.remaining = [] := by
        rw [inv.returned_pushed outcome returned]
        rfl
      have preprocessed := inv.conserved go
      rw [idle, empty, pushed] at preprocessed
      simp only [List.append_nil] at preprocessed
      refine .inl ⟨clean, ?_⟩
      rw [finished, failed]
      exact
        { result := rfl
          blocksAdded := rfl
          processed := (List.mergeSort_perm _ _).trans preprocessed
          sorted := sortTransactions_sorted _
          subscriptions := rfl }

end NewBlocks

/-- Every run of `onNewBlocks` is finite, whatever the schedule and the outcomes of
`preprocessOutputs`. Where it returns, it processed every scanned transaction once, in the order
of height and position, and advanced every subscription; or a worker failed, and it processed
nothing and reported that error. Where every transaction is preprocessed, every run ends with the
call returned in the first way. -/
theorem onNewBlocks_every_run_ends_when_preprocessed (call : NewBlocks τ ε) :
    Halts call.Step call.start ∧
      (∀ s outcome, ReflTransGen call.Step call.start s → s.main = .returned outcome →
        ((∀ ec, .returned (some ec) ∉ s.workers) ∧ Scanned call outcome) ∨
          ∃ ec, .returned (some ec) ∈ s.workers ∧
            outcome =
              { result := false
                blocksAdded := none
                processed := []
                subscriptions := .onError ec call.startHeight }) ∧
      ((∀ item ∈ call.items, call.preprocessOutputs item = none) →
        EveryRunEnds call.Step Returned call.start ∧
          ∀ s outcome, ReflTransGen call.Step call.start s → s.main = .returned outcome →
            Scanned call outcome) := by
  refine ⟨call.halts _, fun s outcome run returned =>
    call.outcome_of_returned (call.invariant_of_run run) returned, fun succeeds => ⟨?_, ?_⟩⟩
  · exact everyRunEnds_of_progress (call.halts _) fun s run unfinished =>
      call.progress (call.invariant_of_run run) (call.running_of_run succeeds run) unfinished
  · intro s outcome run returned
    have inv := call.invariant_of_run run
    rcases call.outcome_of_returned inv returned with ⟨-, scanned⟩ | ⟨ec, failing, -⟩
    · exact scanned
    · have go := call.running_of_run succeeds run
      simp [inv.stop_iff.mpr ⟨ec, failing⟩] at go

/-! ## A run that never returns -/

/-- A version-1 block at timestamp 0 with an empty coinbase. -/
def emptyBlock : Block :=
  let coinbase : Transaction :=
    { version := 1, unlockTime := 0, inputs := [], outputs := [], extra := [], signatures := [] }
  { majorVersion := BLOCK_MAJOR_VERSION_1
    minorVersion := 0
    nonce := 0
    timestamp := 0
    previousBlockHash := Crypto.NULL_HASH
    parentBlock := ⟨0, 0, Crypto.NULL_HASH, 0, [], coinbase, []⟩
    baseTransaction := coinbase
    transactionHashes := [] }

/-- One worker, and one block of four transactions with a public key; the first fails. -/
def stallingCall : NewBlocks Nat Unit :=
  { blocks := [{ blockHash := Crypto.NULL_HASH, block := some emptyBlock, transactions := [1, 2, 3, 4] }]
    startHeight := 0
    syncStartTimestamp := 0
    getTransactionPublicKey := fun _ => ⟨Crypto.Pod.ofByte 1⟩
    preprocessOutputs := fun item => if item.tx = 1 then some () else none
    hardware_concurrency := 1 }

/-- Where the threads stop: the pushing thread in `push` of the fourth transaction with the queue
full, the worker returned with the error, the calling thread at its `return`. -/
def stalledScan : Scan Nat Unit :=
  { pusher := .pushing [⟨⟨0, 0, 3⟩, 4⟩] []
    queue := [⟨⟨0, 0, 1⟩, 2⟩, ⟨⟨0, 0, 2⟩, 3⟩]
    closed := false
    stopProcessing := true
    preprocessed := []
    workers := [.returned (some ())]
    main := .leaving
      { result := false, blocksAdded := none, processed := [], subscriptions := .onError () 0 } }

/-- The pushing thread queues two transactions; the worker takes the first, fails and returns;
the calling thread joins it and reaches its `return`; the pushing thread queues the third and
waits for room for the fourth. No thread can move again, and the call never returns. -/
theorem onNewBlocks_hangs_after_failure :
    ¬ EveryRunEnds stallingCall.Step Returned stallingCall.start := by
  have run : schedule stallingCall.step stallingCall.start
      [.pusher, .pusher, .pusher, .worker 0, .worker 0, .worker 0, .main, .main, .pusher] =
        some stalledScan := by
    rfl
  refine not_everyRunEnds_of_stuck (run_of_schedule run) ?_ ?_
  · refine stuck_moves_iff.mpr fun thread => ?_
    cases thread with
    | pusher => rfl
    | main => rfl
    | worker k => cases k <;> rfl
  · rintro ⟨outcome, returned⟩
    cases returned

end Dynex.TransfersConsumer
