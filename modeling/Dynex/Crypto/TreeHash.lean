import Dynex.Lib.MerkleTree

/-!
# Tree hash

`tree_hash`, `tree_depth`, `tree_branch` and `tree_hash_from_branch` of `crypto/tree-hash.c`.
Nodes are of any type `α`, and `hashPair` is `cn_fast_hash` of two adjacent nodes, 64 bytes.
An assert that fails makes a function return `none`, as does a read past the hashes it is given;
a function gets the `count` hashes it works on as one list.

`tree_hash` hashes the last leaves in pairs into a level of `cnt` nodes, `cnt` the largest power
of two below `count`, found by smearing the bits of `count - 1`; the first `2 * cnt - count`
leaves go up unhashed. `tree_branch` builds its level the same way, but at the largest power of
two not above `count`, found by a shift search. Both then hash the level in pairs, in place: a
round overwrites only nodes it has already read, so each round is modelled as the level above,
`pairUp`, of the live part of the buffer.

Counts are `size_t`, below `2 ^ 64`; the bit tricks and the searches rely on that width.
-/

set_option autoImplicit false

namespace Dynex.Crypto

open MerkleTree

def smearShifts : List Nat := [1, 2, 4, 8, 16, 32]

def searchShifts : List Nat := [32, 16, 8, 4, 2, 1]

def complement (x : Nat) : Nat := x ^^^ (2 ^ 64 - 1)

def highestBit (value : Nat) : Nat :=
  let cnt := smearShifts.foldl (fun cnt i => cnt ||| cnt >>> i) value
  cnt &&& complement (cnt >>> 1)

/-- The loop of `tree_depth`: where `count >> i` is positive, `count` is shifted down by `i` and
`i` added to `depth`. -/
def treeDepthLoop : List Nat → Nat → Nat → Nat
  | [], _, depth => depth
  | i :: shifts, count, depth =>
      if count >>> i > 0 then treeDepthLoop shifts (count >>> i) (depth + i)
      else treeDepthLoop shifts count depth

def tree_depth (count : Nat) : Option Nat :=
  if count = 0 then none else some (treeDepthLoop searchShifts count 0)

/-- The search loop of `tree_branch`: where `cnt << i` is at most `count`, `cnt` is shifted up by
`i` and `i` added to `depth`. -/
def treeBranchSearch (count : Nat) : List Nat → Nat → Nat → Nat × Nat
  | [], cnt, depth => (cnt, depth)
  | i :: shifts, cnt, depth =>
      if cnt <<< i ≤ count then treeBranchSearch count shifts (cnt <<< i) (depth + i)
      else treeBranchSearch count shifts cnt depth

variable {α : Type} (hashPair : α → α → α)

/-- The loop `for (...; j < cnt; i += 2, ++j) ints[j] = cn_fast_hash(hashes[i], 64)`, over its
`rounds` rounds from leaf `i`: the hashed pairs, and `i` after the last round. -/
def hashPairsLoop (hashes : List α) : (rounds i : Nat) → Option (List α × Nat)
  | 0, i => some ([], i)
  | rounds + 1, i => do
      let left ← hashes[i]?
      let right ← hashes[i + 1]?
      let later ← hashPairsLoop hashes rounds (i + 2)
      pure (hashPair left right :: later.1, later.2)

/-- The `while (cnt > 2)` loop of `tree_hash`: `cnt` halves and the level of `cnt` nodes is
hashed in pairs. `fuel` bounds the rounds; `cnt` has 64 bits. -/
def halveLoop : (fuel cnt : Nat) → List α → List α
  | 0, _, ints => ints
  | fuel + 1, cnt, ints =>
      if cnt > 2 then halveLoop fuel (cnt >>> 1) (pairUp hashPair ints) else ints

/-- `tree_hash(hashes, count, root_hash)`. -/
def tree_hash (hashes : List α) : Option α :=
  let count := hashes.length
  if count = 0 then none
  else if count = 1 then hashes[0]?
  else if count = 2 then do
    let left ← hashes[0]?
    let right ← hashes[1]?
    pure (hashPair left right)
  else do
    let cnt := highestBit (count - 1)
    -- The first `2 * cnt - count` leaves are copied, the others hashed in pairs after them.
    let paired ← hashPairsLoop hashPair hashes (cnt - (2 * cnt - count)) (2 * cnt - count)
    if paired.2 ≠ count then none
    else
      let ints := halveLoop hashPair 64 cnt (hashes.take (2 * cnt - count) ++ paired.1)
      let left ← ints[0]?
      let right ← ints[1]?
      pure (hashPair left right)

/-- The `while (depth > 0)` loop of `tree_branch`, on the level without its first node:
`branch[depth]` is the first node left, the sibling of the first hash's node, and the level
above is hashed from the nodes after it. The branch comes out `branch[0]` first. -/
def branchLoop : (depth cnt : Nat) → List α → Option (List α)
  | 0, _, _ => some []
  | depth + 1, cnt, ints =>
      if cnt ≠ 1 <<< (depth + 1) then none
      else do
        let sibling ← ints[0]?
        let upper ← branchLoop depth (cnt >>> 1) (pairUp hashPair (ints.drop 1))
        pure (upper ++ [sibling])

/-- `tree_branch(hashes, count, branch)`: the branch of the first hash. -/
def tree_branch (hashes : List α) : Option (List α) :=
  let count := hashes.length
  if count = 0 then none
  else
    let search := treeBranchSearch count searchShifts 1 0
    let cnt := search.1
    let depth := search.2
    if cnt ≠ 1 <<< depth ∨ some depth ≠ tree_depth count then none
    else do
      -- `ints` leaves out the first hash: hashes `1` to `2 * cnt - count - 1` are copied, the
      -- others hashed in pairs after them.
      let paired ← hashPairsLoop hashPair hashes (cnt - 1 - (2 * cnt - count - 1))
        (2 * cnt - count)
      if paired.2 ≠ count then none
      else branchLoop hashPair depth cnt ((hashes.drop 1).take (2 * cnt - count - 1) ++ paired.1)

/-- Bit `depth` of `path`: byte `depth >> 3` masked with `1 << (depth & 7)`. A null path has
every bit clear. -/
def pathBit (path : Option (List UInt8)) (depth : Nat) : Bool :=
  match path with
  | none => false
  | some bytes => (bytes.getD (depth >>> 3) 0).toNat &&& 1 <<< (depth &&& 7) ≠ 0

/-- The loop of `tree_hash_from_branch`: each round takes one off `depth` and puts the node so
far, the leaf in the first round (`from_leaf`) and else the hash of `buffer`, and then
`branch[depth]` into `buffer`, in the order the path's bit gives. -/
def fromBranchLoop (branch : List α) (path : Option (List UInt8)) (leaf : α) :
    (depth : Nat) → (from_leaf : Bool) → (buffer : α × α) → Option (α × α)
  | 0, _, buffer => some buffer
  | depth + 1, from_leaf, buffer => do
      let node := if from_leaf then leaf else hashPair buffer.1 buffer.2
      let sibling ← branch[depth]?
      fromBranchLoop branch path leaf depth false
        (if pathBit path depth then (sibling, node) else (node, sibling))

/-- `tree_hash_from_branch(branch, depth, leaf, path, root_hash)`. The buffer starts unset; the
first round never reads it. -/
def tree_hash_from_branch (branch : List α) (depth : Nat) (leaf : α)
    (path : Option (List UInt8)) : Option α :=
  if depth = 0 then some leaf
  else do
    let buffer ← fromBranchLoop hashPair branch path leaf depth true (leaf, leaf)
    pure (hashPair buffer.1 buffer.2)

end Dynex.Crypto
