import Mathlib

/-!
# Shuffled indices

`ShuffleGenerator` of `Common/ShuffleGenerator.h`: each call hands out one of `0, …, N - 1` not
handed out before, until all are. It is a Fisher–Yates shuffle of the virtual array
`0, …, N - 1` that stores only the entries that have moved, in the `unordered_map` `selected`:
a call draws a position among the first `count` entries, hands out the entry there and moves the
last of them into its place.

`std::uniform_int_distribution` over `[0, count]` may return any value of the range. A call
takes the engine's value `draw` and the distribution's result is `draw % (count + 1)`, so every
sequence of results is the result of some sequence of draws.
-/

set_option autoImplicit false

namespace Dynex

/-- `ShuffleGenerator<size_t, Gen>`; the map `selected` is a function, `none` where `find`
returns `end()`. -/
structure ShuffleGenerator where
  selected : Nat → Option Nat
  count : Nat
  N : Nat

namespace ShuffleGenerator

def new (n : Nat) : ShuffleGenerator := { selected := fun _ => none, count := n, N := n }

/-- `operator()()`: the index handed out and the generator after the call. -/
def call (gen : ShuffleGenerator) (draw : Nat) : Except String (Nat × ShuffleGenerator) :=
  if gen.count = 0 then .error "shuffle sequence ended"
  else
    let count := gen.count - 1
    let value := draw % (count + 1)
    let rval := (gen.selected count).getD count
    -- both branches store `rval` at `value`: `lvalIt->second = rval` or `selected[value] = rval`
    let selected := Function.update gen.selected value (some rval)
    match gen.selected value with
    | some lval => .ok (lval, { gen with selected := selected, count := count })
    | none => .ok (value, { gen with selected := selected, count := count })

def empty (gen : ShuffleGenerator) : Bool := gen.count == 0

def reset (gen : ShuffleGenerator) : ShuffleGenerator :=
  { gen with selected := fun _ => none, count := gen.N }

/-- Calls one after another, the engine's values `draws` in turn: the indices handed out and the
generator after the last call, or the error of the first call that throws. -/
def callAll (gen : ShuffleGenerator) : List Nat → Except String (List Nat × ShuffleGenerator)
  | [] => .ok ([], gen)
  | draw :: draws => do
      let (index, next) ← gen.call draw
      let (indices, last) ← next.callAll draws
      pure (index :: indices, last)

theorem count_call {gen next : ShuffleGenerator} {draw index : Nat}
    (called : gen.call draw = .ok (index, next)) : next.count + 1 = gen.count := by
  unfold call at called
  split at called
  · cases called
  · dsimp only at called
    split at called <;>
    · cases called
      simp only
      omega

/-! ## Every index once -/

def slot (gen : ShuffleGenerator) (i : Nat) : Nat := (gen.selected i).getD i

def live (gen : ShuffleGenerator) : List Nat := (List.range gen.count).map gen.slot

def Shuffled (gen : ShuffleGenerator) (handed : List Nat) : Prop :=
  (handed ++ gen.live).Perm (List.range gen.N)

theorem live_new (n : Nat) : (new n).live = List.range n := by
  have identity : (new n).slot = id := funext fun _ => rfl
  rw [live, identity, List.map_id]
  rfl

theorem shuffled_new (n : Nat) : (new n).Shuffled [] := by
  rw [Shuffled, live_new, List.nil_append]
  rfl

theorem call_of_pos {gen : ShuffleGenerator} (positive : 0 < gen.count) (draw : Nat) :
    gen.call draw = .ok (gen.slot (draw % gen.count),
      { selected := Function.update gen.selected (draw % gen.count)
          (some (gen.slot (gen.count - 1))),
        count := gen.count - 1, N := gen.N }) := by
  have last : gen.count - 1 + 1 = gen.count := by omega
  unfold call
  rw [if_neg (by omega)]
  dsimp only
  rw [last]
  cases found : gen.selected (draw % gen.count) <;> simp [slot, found]

open List in
theorem set_append_perm {α : Type} (l : List α) {i : Nat} (bound : i < l.length) (x : α) :
    (l.set i x ++ [l[i]]).Perm (l ++ [x]) := by
  have parts : l = l.take i ++ l[i] :: l.drop (i + 1) := by simp
  conv_rhs => rw [parts]
  rw [List.set_eq_take_append_cons_drop, if_pos bound]
  simp only [List.append_assoc, List.cons_append]
  apply List.Perm.append_left
  calc x :: (l.drop (i + 1) ++ [l[i]]) ~ x :: l[i] :: l.drop (i + 1) :=
        (perm_append_singleton _ _).cons x
    _ ~ l[i] :: x :: l.drop (i + 1) := Perm.swap _ _ _
    _ ~ l[i] :: (l.drop (i + 1) ++ [x]) := ((perm_append_singleton _ _).cons _).symm

theorem slot_update (gen : ShuffleGenerator) (value entry : Nat) (count N i : Nat) :
    slot { selected := Function.update gen.selected value (some entry), count := count, N := N } i =
      if i = value then entry else gen.slot i := by
  by_cases here : i = value
  · simp [slot, here]
  · simp [slot, here]

/-- The live entries after a call, with the index it handed out, are those before it. -/
theorem live_call {gen next : ShuffleGenerator} {draw index : Nat}
    (called : gen.call draw = .ok (index, next)) :
    (next.live ++ [index]).Perm gen.live ∧ next.N = gen.N := by
  have counted := count_call called
  rw [call_of_pos (by omega)] at called
  obtain ⟨rfl, rfl⟩ := Prod.mk.inj (Except.ok.inj called)
  refine ⟨?_, rfl⟩
  obtain ⟨c, hc⟩ : ∃ c, gen.count = c + 1 := ⟨gen.count - 1, by omega⟩
  have below : draw % gen.count ≤ c := by
    have := Nat.mod_lt draw (show 0 < gen.count by omega)
    omega
  generalize draw % gen.count = value at below ⊢
  have before : gen.live = (List.range c).map gen.slot ++ [gen.slot c] := by
    rw [live, hc, List.range_succ, List.map_append, List.map_singleton]
  have after : live ⟨Function.update gen.selected value (some (gen.slot (gen.count - 1))),
        gen.count - 1, gen.N⟩ =
      (List.range c).map (fun i => if i = value then gen.slot c else gen.slot i) := by
    rw [live]
    simp only [hc, Nat.add_sub_cancel]
    exact List.map_congr_left (fun i _ => slot_update gen value (gen.slot c) c gen.N i)
  rw [before, after]
  rcases Nat.lt_or_eq_of_le below with inside | last
  · have moved : (List.range c).map (fun i => if i = value then gen.slot c else gen.slot i) =
        ((List.range c).map gen.slot).set value (gen.slot c) := by
      apply List.ext_getElem (by simp)
      intro j _ _
      by_cases here : j = value
      · simp [here]
      · simp [here, Ne.symm here]
    have bound : value < ((List.range c).map gen.slot).length := by simpa using inside
    have drawn : ((List.range c).map gen.slot)[value] = gen.slot value := by simp
    rw [moved, ← drawn]
    exact set_append_perm _ bound _
  · have kept : (List.range c).map (fun i => if i = value then gen.slot c else gen.slot i) =
        (List.range c).map gen.slot := by
      apply List.map_congr_left
      intro i member
      rw [if_neg (by simp at member; omega)]
    rw [kept, last]

theorem Shuffled.call {gen next : ShuffleGenerator} {handed : List Nat} {draw index : Nat}
    (shuffled : gen.Shuffled handed) (called : gen.call draw = .ok (index, next)) :
    next.Shuffled (handed ++ [index]) := by
  obtain ⟨perm, sameN⟩ := live_call called
  unfold Shuffled
  rw [sameN, List.append_assoc]
  exact ((List.perm_append_comm.append_left handed).trans (perm.append_left handed)).trans shuffled

theorem lt_of_call {gen next : ShuffleGenerator} {handed : List Nat} {draw index : Nat}
    (shuffled : gen.Shuffled handed) (called : gen.call draw = .ok (index, next)) :
    index < gen.N := by
  have member : index ∈ handed ++ gen.live :=
    List.mem_append_right _ ((live_call called).1.subset (by simp))
  simpa using shuffled.subset member

/-! ## Whole runs -/

theorem call_of_count_zero {gen : ShuffleGenerator} (ended : gen.count = 0) (draw : Nat) :
    gen.call draw = .error "shuffle sequence ended" := by
  simp [call, ended]

theorem callAll_of_le {gen : ShuffleGenerator} {handed : List Nat} (shuffled : gen.Shuffled handed)
    (draws : List Nat) (enough : draws.length ≤ gen.count) :
    ∃ indices last, gen.callAll draws = .ok (indices, last) ∧ last.Shuffled (handed ++ indices) ∧
      last.count + draws.length = gen.count ∧ last.N = gen.N := by
  induction draws generalizing gen handed with
  | nil => exact ⟨[], gen, rfl, by simpa using shuffled, rfl, rfl⟩
  | cons draw rest ih =>
      have positive : 0 < gen.count := by simp at enough; omega
      have called := call_of_pos positive draw
      have counted := count_call called
      have sameN := (live_call called).2
      obtain ⟨indices, last, run, lastShuffled, lastCount, lastN⟩ :=
        ih (shuffled.call called) (by simp at enough; omega)
      refine ⟨_ :: indices, last, ?_, by simpa using lastShuffled, ?_, lastN.trans sameN⟩
      · simp only [callAll, called, bind, Except.bind, run, pure, Except.pure]
      · simp only [List.length_cons]
        omega

/-- What a generator that can hand out `n` indices does with `n` calls: it hands out each of
`0, …, n - 1` once, for every value the distribution returns, and is then empty, its next call
throwing. -/
def Enumerates (gen : ShuffleGenerator) (n : Nat) : Prop :=
  ∀ draws : List Nat, draws.length = n →
    ∃ indices last, gen.callAll draws = .ok (indices, last) ∧ indices.Nodup ∧
      (∀ index, index ∈ indices ↔ index < n) ∧ last.empty = true ∧
      ∀ draw, last.call draw = .error "shuffle sequence ended"

theorem enumerates_new (n : Nat) : (new n).Enumerates n := by
  intro draws length
  obtain ⟨indices, last, run, shuffled, lastCount, lastN⟩ :=
    callAll_of_le (shuffled_new n) draws (by rw [length]; rfl)
  have ended : last.count = 0 := by
    have : (new n).count = n := rfl
    omega
  have perm : indices.Perm (List.range n) := by
    have none : last.live = [] := by simp [live, ended]
    simpa [Shuffled, none, lastN, new] using shuffled
  refine ⟨indices, last, run, perm.nodup_iff.mpr List.nodup_range, ?_, by simp [empty, ended],
    call_of_count_zero ended⟩
  intro index
  rw [perm.mem_iff, List.mem_range]

/-- A generator `ShuffleGenerator(n)` hands out `0, …, n - 1`, each once, in its `n` calls,
whatever the distribution returns, and is then empty, a further call throwing; after `reset()`,
at any point, it does so again. -/
theorem shuffle_generator_enumerates_permutation (n : Nat) :
    (new n).Enumerates n ∧ ∀ gen : ShuffleGenerator, gen.reset.Enumerates gen.N :=
  ⟨enumerates_new n, fun gen => enumerates_new gen.N⟩

end ShuffleGenerator

end Dynex
