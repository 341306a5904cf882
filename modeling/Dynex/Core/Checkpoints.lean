import Dynex.Crypto.Types

/-!
# Checkpoints

`class Checkpoints`: the hash each checkpoint height must carry. The points are a `std::map`,
so their heights are strictly increasing; the structure carries that as a field, which is what
lets `is_in_checkpoint_zone` read the last point and `is_alternative_block_allowed` the last point
at or below a height.
-/

set_option autoImplicit false

namespace Dynex

open Crypto

/-- `m_points`, in key order. -/
structure Checkpoints where
  m_points : List (Nat × Hash)
  increasing : (m_points.map Prod.fst).Pairwise (· < ·)

namespace Checkpoints

variable (checkpoints : Checkpoints)

/-- `is_in_checkpoint_zone`: the height is at or below the last checkpoint. -/
def is_in_checkpoint_zone (height : Nat) : Bool :=
  match checkpoints.m_points.getLast? with
  | none => false
  | some last => height ≤ last.1

/-- `check_block(height, h, is_a_checkpoint)`: whether `h` is accepted at `height`, and whether
`height` is a checkpoint. -/
def check_block (height : Nat) (hash : Hash) : Bool × Bool :=
  match checkpoints.m_points.lookup height with
  | none => (true, false)
  | some expected => (expected == hash, true)

/-- `is_alternative_block_allowed(blockchain_height, block_height)`. A block deeper than
`CRYPTONOTE_MINED_MONEY_UNLOCK_WINDOW` below the tip is refused outside the checkpoint zone; the
subtraction is unsigned, so on a chain of fewer than 60 blocks every height counts as deep. The
block must then lie above the last checkpoint at or below the chain height. -/
def is_alternative_block_allowed (blockchain_height block_height : Nat) : Bool :=
  if block_height = 0 then false
  else if block_height.toUInt64 < blockchain_height.toUInt64 - 60 &&
      !checkpoints.is_in_checkpoint_zone block_height then false
  else
    match (checkpoints.m_points.filter fun point => point.1 ≤ blockchain_height).getLast? with
    | none => true
    | some point => point.1 < block_height

end Checkpoints

end Dynex
