import Mathlib

/-!
# Loops that double their counter

A loop `for (i = 1; i <= bound; i *= 2)` runs its body at the powers of two up to `bound`: its
`k`-th round has `i = 2 ^ k`. Reading a sequence backwards at distance `i` from a position
samples it at exponentially spaced points, as a block locator does. The facts here bound those
samples: the first power that reaches a given distance overshoots it by less than a factor of
two, and the last power is more than half of `bound`.
-/

set_option autoImplicit false

namespace DoublingSchedule

def powersUpTo (bound k : Nat) : List Nat :=
  if 2 ^ k ≤ bound then 2 ^ k :: powersUpTo bound (k + 1) else []
termination_by bound + 1 - 2 ^ k
decreasing_by
  have larger : 2 ^ k < 2 ^ (k + 1) := Nat.pow_lt_pow_succ (by norm_num)
  omega

variable {bound k : Nat}

theorem powersUpTo_of_le (within : 2 ^ k ≤ bound) :
    powersUpTo bound k = 2 ^ k :: powersUpTo bound (k + 1) := by
  rw [powersUpTo, if_pos within]

theorem powersUpTo_of_lt (past : bound < 2 ^ k) : powersUpTo bound k = [] := by
  rw [powersUpTo, if_neg (Nat.not_le.mpr past)]

theorem mem_powersUpTo {i : Nat} (member : i ∈ powersUpTo bound k) : 2 ^ k ≤ i ∧ i ≤ bound := by
  fun_induction powersUpTo bound k with
  | case1 k within inductionHypothesis =>
      rcases List.mem_cons.mp member with first | later
      · exact ⟨first ▸ le_refl _, first ▸ within⟩
      · have larger : 2 ^ k ≤ 2 ^ (k + 1) := Nat.pow_le_pow_right (by norm_num) (by omega)
        obtain ⟨above, below⟩ := inductionHypothesis later
        exact ⟨le_trans larger above, below⟩
  | case2 => cases member

theorem pairwise_powersUpTo : (powersUpTo bound k).Pairwise (· < ·) := by
  fun_induction powersUpTo bound k with
  | case1 k _ inductionHypothesis =>
      refine List.Pairwise.cons (fun later member => ?_) inductionHypothesis
      have larger : 2 ^ k < 2 ^ (k + 1) := Nat.pow_lt_pow_succ (by norm_num)
      exact lt_of_lt_of_le larger (mem_powersUpTo member).1
  | case2 => exact List.Pairwise.nil

theorem find?_powersUpTo_lt_double {distance i : Nat} (start : 2 ^ k < 2 * distance)
    (found : (powersUpTo bound k).find? (fun i => decide (distance ≤ i)) = some i) :
    distance ≤ i ∧ i < 2 * distance := by
  fun_induction powersUpTo bound k with
  | case1 k _ inductionHypothesis =>
      by_cases reached : distance ≤ 2 ^ k
      · simp only [List.find?_cons, reached, decide_true, Option.some.injEq] at found
        exact found ▸ ⟨reached, start⟩
      · simp only [List.find?_cons, reached, decide_false] at found
        exact inductionHypothesis (by rw [Nat.pow_succ]; omega) found
  | case2 => cases found

theorem exists_mem_powersUpTo_double_gt (start : 2 ^ k ≤ bound) :
    ∃ i ∈ powersUpTo bound k, bound < 2 * i := by
  fun_induction powersUpTo bound k with
  | case1 k _ inductionHypothesis =>
      by_cases last : bound < 2 ^ (k + 1)
      · exact ⟨2 ^ k, List.mem_cons_self, by rw [Nat.pow_succ] at last; omega⟩
      · obtain ⟨i, member, double⟩ := inductionHypothesis (by omega)
        exact ⟨i, List.mem_cons_of_mem _ member, double⟩
  | case2 k past => exact absurd start past

end DoublingSchedule
