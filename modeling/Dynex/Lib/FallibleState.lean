import Mathlib

/-!
# Programs over a state that may throw

A computation in `StateT σ (Except ε)` runs on a state and either returns a value with the
state it leaves, or throws and leaves nothing. Its proofs run it symbolically: a run that
returns lets the rest run on the state it left (`run_bind_of_ok`), and a run that throws ends
the program (`run_bind_of_error`). A run that throws `message` exactly when a condition holds
is written `failsIf`; sequencing two of them fails when either condition holds
(`run_bind_of_failsIf`).
-/

set_option autoImplicit false

namespace FallibleState

variable {σ ε α β : Type}

/-! ## Computations that may throw -/

@[simp] theorem pure_eq_ok (value : α) : (pure value : Except ε α) = .ok value := rfl

@[simp] theorem throw_eq_error (message : ε) : (throw message : Except ε α) = .error message := rfl

@[simp] theorem ok_bind (value : α) (next : α → Except ε β) :
    (Except.ok value >>= next) = next value := rfl

@[simp] theorem error_bind (message : ε) (next : α → Except ε β) :
    (Except.error message >>= next) = .error message := rfl

@[simp] theorem ok_map (value : α) (change : α → β) :
    (change <$> (Except.ok value : Except ε α)) = .ok (change value) := rfl

@[simp] theorem error_map (message : ε) (change : α → β) :
    (change <$> (Except.error message : Except ε α)) = .error message := rfl

/-! ## Runs over a state -/

@[simp] theorem run_pure (value : α) (state : σ) :
    (pure value : StateT σ (Except ε) α).run state = .ok (value, state) := rfl

@[simp] theorem run_throw (message : ε) (state : σ) :
    (throw message : StateT σ (Except ε) α).run state = .error message := rfl

@[simp] theorem run_get (state : σ) :
    (get : StateT σ (Except ε) σ).run state = .ok (state, state) := rfl

@[simp] theorem run_set (state next : σ) :
    (set next : StateT σ (Except ε) PUnit).run state = .ok (⟨⟩, next) := rfl

@[simp] theorem run_modify (change : σ → σ) (state : σ) :
    (modify change : StateT σ (Except ε) PUnit).run state = .ok (⟨⟩, change state) := rfl

theorem run_bind_of_ok {program : StateT σ (Except ε) α} {state after : σ} {value : α}
    (ran : program.run state = .ok (value, after)) (next : α → StateT σ (Except ε) β) :
    (program >>= next).run state = (next value).run after := by
  rw [StateT.run_bind, ran]
  rfl

theorem run_bind_of_error {program : StateT σ (Except ε) α} {state : σ} {message : ε}
    (failed : program.run state = .error message) (next : α → StateT σ (Except ε) β) :
    (program >>= next).run state = .error message := by
  rw [StateT.run_bind, failed]
  rfl

def failsIf {γ : Type} (failing : Bool) (message : ε) (result : Except ε γ) : Except ε γ :=
  if failing then .error message else result

@[simp] theorem failsIf_false {γ : Type} (message : ε) (result : Except ε γ) :
    failsIf false message result = result := rfl

@[simp] theorem failsIf_true {γ : Type} (message : ε) (result : Except ε γ) :
    failsIf true message result = .error message := rfl

theorem failsIf_failsIf {γ : Type} (first second : Bool) (message : ε) (result : Except ε γ) :
    failsIf first message (failsIf second message result) =
      failsIf (first || second) message result := by
  cases first <;> rfl

theorem run_bind_of_failsIf {program : StateT σ (Except ε) α} {state after : σ} {value : α}
    {failing : Bool} {message : ε}
    (ran : program.run state = failsIf failing message (.ok (value, after)))
    (next : α → StateT σ (Except ε) β) :
    (program >>= next).run state = failsIf failing message ((next value).run after) := by
  cases failing
  · exact run_bind_of_ok ran next
  · exact run_bind_of_error ran next

end FallibleState
