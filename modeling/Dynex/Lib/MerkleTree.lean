import Mathlib

/-!
# Perfect Merkle trees

A level of a Merkle tree is a list of nodes, and `pairUp` hashes adjacent nodes in pairs into
the level above. A level of `2 ^ height` nodes has a root, `perfectRoot`, after `height`
pairings. The siblings on the path of a level's first node, one per level and the top level's
first, are `leftmostBranch`; folding them from the node with `foldBranch`, the node on the left
at every level, gives the root (`perfectRoot_eq_foldBranch`). A perfect level is determined by its
root where the pairing has no collision among the pairs hashed (`perfectRoot_injOn`).

Nothing here fixes the hash: `hashPair` is any function of two nodes.
-/

set_option autoImplicit false

namespace MerkleTree

variable {α : Type} (hashPair : α → α → α)

def pairUp : List α → List α
  | left :: right :: rest => hashPair left right :: pairUp rest
  | _ => []

def perfectRoot : Nat → List α → Option α
  | 0, level => level.head?
  | height + 1, level => perfectRoot height (pairUp hashPair level)

/-- The siblings on the path of a level's first node, the top level's first, given the other
nodes of the level. -/
def leftmostBranch : Nat → List α → List α
  | 0, _ => []
  | height + 1, others =>
      leftmostBranch height (pairUp hashPair (others.drop 1)) ++ others.take 1

def foldBranch (leaf : α) (branch : List α) : α :=
  branch.foldr (fun sibling node => hashPair node sibling) leaf

variable {hashPair}

@[simp] theorem pairUp_nil : pairUp hashPair ([] : List α) = [] := rfl

@[simp] theorem pairUp_single (node : α) : pairUp hashPair [node] = [] := rfl

@[simp] theorem pairUp_cons_cons (left right : α) (rest : List α) :
    pairUp hashPair (left :: right :: rest) = hashPair left right :: pairUp hashPair rest := rfl

@[simp] theorem length_pairUp :
    ∀ level : List α, (pairUp hashPair level).length = level.length / 2
  | [] => by simp
  | [_] => by simp
  | _ :: _ :: rest => by
      rw [pairUp_cons_cons, List.length_cons, length_pairUp rest]
      simp only [List.length_cons]
      omega

theorem length_iterate_pairUp :
    ∀ (height : Nat) (level : List α),
      ((pairUp hashPair)^[height] level).length = level.length / 2 ^ height
  | 0, level => by simp
  | height + 1, level => by
      rw [Function.iterate_succ_apply, length_iterate_pairUp height, length_pairUp,
        Nat.div_div_eq_div_mul, Nat.pow_succ', Nat.mul_comm]

theorem perfectRoot_add (height : Nat) :
    ∀ (lower : Nat) (level : List α),
      perfectRoot hashPair (height + lower) level =
        perfectRoot hashPair height ((pairUp hashPair)^[lower] level)
  | 0, _ => rfl
  | lower + 1, level => by
      rw [← Nat.add_assoc, perfectRoot, perfectRoot_add height lower,
        Function.iterate_succ_apply]

theorem perfectRoot_isSome :
    ∀ (height : Nat) (level : List α), level.length = 2 ^ height →
      (perfectRoot hashPair height level).isSome
  | 0, level, sized => by
      obtain ⟨x, rfl⟩ := List.length_eq_one_iff.mp sized
      rfl
  | height + 1, level, sized =>
      perfectRoot_isSome height _ (by rw [length_pairUp, sized, Nat.pow_succ, Nat.mul_div_cancel _ (by decide)])

theorem perfectRoot_succ_eq (height : Nat) (level : List α) {left right : α}
    (top : (pairUp hashPair)^[height] level = [left, right]) :
    perfectRoot hashPair (height + 1) level = some (hashPair left right) := by
  rw [Nat.add_comm, perfectRoot_add 1 height, top]
  rfl

theorem length_leftmostBranch :
    ∀ (height : Nat) (others : List α), others.length + 1 = 2 ^ height →
      (leftmostBranch hashPair height others).length = height
  | 0, _, _ => rfl
  | height + 1, others, sized => by
      have upperSized : (pairUp hashPair (others.drop 1)).length + 1 = 2 ^ height := by
        rw [length_pairUp, List.length_drop]
        rw [Nat.pow_succ] at sized
        omega
      have sibling : (others.take 1).length = 1 := by
        rw [List.length_take]
        have : 2 ≤ 2 ^ (height + 1) := Nat.le_self_pow (Nat.succ_ne_zero height) 2
        omega
      rw [leftmostBranch, List.length_append, length_leftmostBranch height _ upperSized, sibling]

theorem foldBranch_append (leaf : α) (upper lower : List α) :
    foldBranch hashPair leaf (upper ++ lower) =
      foldBranch hashPair (foldBranch hashPair leaf lower) upper :=
  List.foldr_append

theorem perfectRoot_eq_foldBranch :
    ∀ (height : Nat) (leaf : α) (others : List α), others.length + 1 = 2 ^ height →
      perfectRoot hashPair height (leaf :: others) =
        some (foldBranch hashPair leaf (leftmostBranch hashPair height others))
  | 0, leaf, others, sized => by
      obtain rfl : others = [] := List.eq_nil_of_length_eq_zero (by simpa using sized)
      rfl
  | height + 1, _, [], sized => by
      have : 2 ≤ 2 ^ (height + 1) := Nat.le_self_pow (Nat.succ_ne_zero height) 2
      simp only [List.length_nil] at sized
      omega
  | height + 1, leaf, sibling :: rest, sized => by
      have restSized : (pairUp hashPair rest).length + 1 = 2 ^ height := by
        rw [length_pairUp]
        rw [List.length_cons, Nat.pow_succ] at sized
        omega
      rw [perfectRoot, pairUp_cons_cons, perfectRoot_eq_foldBranch height _ _ restSized,
        leftmostBranch, foldBranch_append]
      rfl

/-! ## A pairing without collisions on the pairs it hashes

Where the pairing gives distinct pairs hashed by two computations distinct hashes, a level is
determined by the level above and a perfect level by its root. -/

def pairsOf : List α → List (α × α)
  | left :: right :: rest => (left, right) :: pairsOf rest
  | _ => []

variable (hashPair) in
def perfectPairs : Nat → List α → List (α × α)
  | 0, _ => []
  | height + 1, level => pairsOf level ++ perfectPairs height (pairUp hashPair level)

variable (hashPair) in
def PairInjOn (first second : List (α × α)) : Prop :=
  ∀ x ∈ first, ∀ y ∈ second, hashPair x.1 x.2 = hashPair y.1 y.2 → x = y

theorem PairInjOn.mono {first second smaller smaller' : List (α × α)}
    (injective : PairInjOn hashPair first second) (left : smaller ⊆ first)
    (right : smaller' ⊆ second) : PairInjOn hashPair smaller smaller' :=
  fun x xIn y yIn same => injective x (left xIn) y (right yIn) same

theorem pairUp_injOn :
    ∀ {first second : List α}, first.length = second.length → first.length % 2 = 0 →
      PairInjOn hashPair (pairsOf first) (pairsOf second) →
      pairUp hashPair first = pairUp hashPair second → first = second
  | [], [], _, _, _, _ => rfl
  | [], _ :: _, sized, _, _, _ => by simp at sized
  | [_], _, _, even, _, _ => by simp at even
  | _ :: _ :: _, [], sized, _, _, _ => by simp at sized
  | _ :: _ :: _, [_], sized, _, _, _ => by simp at sized
  | a :: b :: rest, c :: d :: rest', sized, even, injective, same => by
      rw [pairUp_cons_cons, pairUp_cons_cons] at same
      obtain ⟨pair, above⟩ := List.cons_eq_cons.mp same
      have heads : (a, b) = (c, d) :=
        injective (a, b) List.mem_cons_self (c, d) List.mem_cons_self pair
      obtain ⟨rfl, rfl⟩ := Prod.mk.inj heads
      have restSized : rest.length = rest'.length := by simpa using sized
      have restEven : rest.length % 2 = 0 := by
        simp only [List.length_cons] at even
        omega
      have restInjective : PairInjOn hashPair (pairsOf rest) (pairsOf rest') :=
        injective.mono (fun _ => List.mem_cons_of_mem _) (fun _ => List.mem_cons_of_mem _)
      rw [pairUp_injOn restSized restEven restInjective above]

theorem perfectRoot_injOn :
    ∀ (height : Nat) {first second : List α}, first.length = 2 ^ height →
      second.length = 2 ^ height →
      PairInjOn hashPair (perfectPairs hashPair height first) (perfectPairs hashPair height second) →
      perfectRoot hashPair height first = perfectRoot hashPair height second → first = second
  | 0, first, second, firstSized, secondSized, _, same => by
      obtain ⟨x, rfl⟩ := List.length_eq_one_iff.mp firstSized
      obtain ⟨y, rfl⟩ := List.length_eq_one_iff.mp secondSized
      simpa [perfectRoot] using same
  | height + 1, first, second, firstSized, secondSized, injective, same => by
      have upper : ∀ level : List α, level.length = 2 ^ (height + 1) →
          (pairUp hashPair level).length = 2 ^ height := by
        intro level sized
        rw [length_pairUp, sized, Nat.pow_succ, Nat.mul_div_cancel _ (by decide)]
      have above := perfectRoot_injOn height (upper first firstSized) (upper second secondSized)
        (injective.mono (List.subset_append_right _ _) (List.subset_append_right _ _)) same
      have even : first.length % 2 = 0 := by
        rw [firstSized, Nat.pow_succ, Nat.mul_mod_left]
      exact pairUp_injOn (firstSized.trans secondSized.symm) even
        (injective.mono (List.subset_append_left _ _) (List.subset_append_left _ _)) above

end MerkleTree
