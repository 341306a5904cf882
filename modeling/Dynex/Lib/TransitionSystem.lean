import Mathlib.Logic.Relation

/-!
# Runs of a transition system

A transition system is a step relation on states, and a run a sequence of steps. An invariant of
the steps holds along every run (`holds_of_run`). A state is stuck when no step leaves it, and
halts when no infinite run starts at it; a measure that every step lowers makes every state halt
(`halts_of_measure`). When moreover every reachable state that is not final has a step, every
run ends, under any choice of steps, and ends in a final state (`EveryRunEnds`).

Interleaved threads are a labelled step function: the label names the thread that moves, and
the function is `none` where that thread waits or has ended. `Moves` is its step relation and
`schedule` runs a list of labels.
-/

set_option autoImplicit false

namespace TransitionSystem

open Relation

variable {σ : Type} (step : σ → σ → Prop)

def Stuck (s : σ) : Prop := ∀ t, ¬ step s t

def Halts (s : σ) : Prop := Acc (fun t s => step s t) s

def EveryRunEnds (final : σ → Prop) (s : σ) : Prop :=
  Halts step s ∧ ∀ t, ReflTransGen step s t → Stuck step t → final t

variable {step}

theorem holds_of_run {P : σ → Prop} (keeps : ∀ {s t}, P s → step s t → P t) {s t : σ}
    (holds : P s) (run : ReflTransGen step s t) : P t := by
  induction run with
  | refl => exact holds
  | tail _ stepped ih => exact keeps ih stepped

theorem halts_of_measure (μ : σ → Nat) (lowers : ∀ {s t}, step s t → μ t < μ s) (s : σ) :
    Halts step s :=
  Subrelation.accessible (fun stepped => lowers stepped) ((measure μ).wf.apply s)

theorem everyRunEnds_of_progress {final : σ → Prop} {s : σ} (halts : Halts step s)
    (progress : ∀ t, ReflTransGen step s t → ¬ final t → ∃ u, step t u) :
    EveryRunEnds step final s := by
  refine ⟨halts, fun t run stuck => Classical.byContradiction fun unfinished => ?_⟩
  obtain ⟨u, stepped⟩ := progress t run unfinished
  exact stuck u stepped

theorem not_everyRunEnds_of_stuck {final : σ → Prop} {s t : σ} (run : ReflTransGen step s t)
    (stuck : Stuck step t) (unfinished : ¬ final t) : ¬ EveryRunEnds step final s :=
  fun ends => unfinished (ends.2 t run stuck)

section Labelled

variable {Label : Type} (next : σ → Label → Option σ)

def Moves (s t : σ) : Prop := ∃ label, next s label = some t

def schedule : σ → List Label → Option σ
  | s, [] => some s
  | s, label :: rest => (next s label).bind fun t => schedule t rest

variable {next}

theorem stuck_moves_iff {s : σ} : Stuck (Moves next) s ↔ ∀ label, next s label = none := by
  constructor
  · intro stuck label
    cases moved : next s label with
    | none => rfl
    | some t => exact absurd ⟨label, moved⟩ (stuck t)
  · rintro none t ⟨label, moved⟩
    rw [none label] at moved
    cases moved

theorem moves_of_isSome {s : σ} (label : Label) (enabled : (next s label).isSome = true) :
    ∃ t, Moves next s t := by
  cases moved : next s label with
  | none => simp [moved] at enabled
  | some t => exact ⟨t, label, moved⟩

theorem run_of_schedule {labels : List Label} :
    ∀ {s t : σ}, schedule next s labels = some t → ReflTransGen (Moves next) s t := by
  induction labels with
  | nil =>
      intro s t ran
      cases ran
      exact .refl
  | cons label rest ih =>
      intro s t ran
      cases moved : next s label with
      | none => simp [schedule, moved] at ran
      | some u =>
          simp only [schedule, moved, Option.bind_some] at ran
          exact ReflTransGen.head ⟨label, moved⟩ (ih ran)

end Labelled

end TransitionSystem
