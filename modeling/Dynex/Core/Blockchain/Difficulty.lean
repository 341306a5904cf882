import Dynex.Core.Blockchain.State
import Dynex.Core.Currency

/-!
# Difficulty and timestamp windows

The windows of past blocks that the next block's difficulty and its timestamp check read, for the
main chain (`getDifficultyForNextBlock`, `check_block_timestamp_main`) and for a block on an
alternative chain (`get_next_difficulty_for_alternative_chain`, and the timestamp vector that
`handle_alternative_block` builds with `complete_timestamps_vector`).

The main chain is `m_blocks`; an alternative chain is the list of its `BlockEntry`s from the one
attached to the main chain to the newest.
-/

set_option autoImplicit false

namespace Dynex

open Blockchain

variable (currency : Currency)

/-! ## Difficulty -/

/-- `Blockchain::getDifficultyForNextBlock`: the last `difficultyBlocksCountByBlockVersion` blocks,
never the genesis block, at the height of the next block. -/
def getDifficultyForNextBlock (blocks : List BlockEntry) : UInt64 :=
  let blockMajorVersion := currency.getBlockMajorVersionForHeight blocks.length
  let offset := blocks.length -
    min blocks.length (currency.difficultyBlocksCountByBlockVersion blockMajorVersion)
  let offset := if offset = 0 then 1 else offset
  let window := blocks.drop offset
  currency.nextDifficulty blocks.length blockMajorVersion (window.map (·.bl.timestamp))
    (window.map (·.cumulative_difficulty))

/-- `Blockchain::get_next_difficulty_for_alternative_chain(alt_chain, bei)`. An alternative chain
shorter than the window is completed with the main-chain blocks below its first block (below
`bei` when it is empty), never the genesis block; a longer one gives the window alone. The
version and the height passed on are those of the next main-chain block. The callers keep the
main-chain blocks read within `m_blocks`; the internal-error exit returns `false`, that is 0. -/
def get_next_difficulty_for_alternative_chain (blocks : List BlockEntry) (alt_chain : List BlockEntry)
    (bei : BlockEntry) : UInt64 :=
  let blockMajorVersion := currency.getBlockMajorVersionForHeight blocks.length
  let count := currency.difficultyBlocksCountByBlockVersion blockMajorVersion
  if alt_chain.length < count then
    let main_chain_stop_offset := match alt_chain.head? with
      | some front => front.height
      | none => bei.height
    let main_chain_count := min (count - min count alt_chain.length) main_chain_stop_offset
    let main_chain_start_offset := main_chain_stop_offset - main_chain_count
    let main_chain_start_offset := if main_chain_start_offset = 0 then 1 else main_chain_start_offset
    let mainWindow := (blocks.drop main_chain_start_offset).take
      (main_chain_stop_offset - main_chain_start_offset)
    if ¬ alt_chain.length + mainWindow.length ≤ count then 0
    else
      let window := mainWindow ++ alt_chain
      currency.nextDifficulty blocks.length blockMajorVersion (window.map (·.bl.timestamp))
        (window.map (·.cumulative_difficulty))
  else
    let window := alt_chain.drop (alt_chain.length - count)
    currency.nextDifficulty blocks.length blockMajorVersion (window.map (·.bl.timestamp))
      (window.map (·.cumulative_difficulty))

/-! ## Timestamps -/

def check_block_timestamp (timestamps : List UInt64) (b : Block) : Bool :=
  if timestamps.length < currency.timestampCheckWindow b.majorVersion then true
  else !(b.timestamp < medianValue timestamps)

/-- The window `check_block_timestamp_main` collects: the last `timestampCheckWindow` blocks. -/
def mainTimestamps (blocks : List BlockEntry) (b : Block) : List UInt64 :=
  let window := currency.timestampCheckWindow b.majorVersion
  let offset := if blocks.length ≤ window then 0 else blocks.length - window
  (blocks.drop offset).map (·.bl.timestamp)

def check_block_timestamp_main (adjustedTime : UInt64) (blocks : List BlockEntry) (b : Block) : Bool :=
  if b.timestamp > adjustedTime + currency.blockFutureTimeLimit b.majorVersion then false
  else check_block_timestamp currency (mainTimestamps currency blocks b) b

def timestampAt (blocks : List BlockEntry) (height : Nat) : UInt64 :=
  (blocks[height]?.map (·.bl.timestamp)).getD 0

/-- The `do ... while (start_top_height != stop_offset)` loop of `complete_timestamps_vector`,
from `start_top_height` down: it stops before `stop_offset`, and after block 0. -/
def completeTimestampsLoop (blocks : List BlockEntry) (stop_offset : Nat) : Nat → List UInt64
  | 0 => [timestampAt blocks 0]
  | start_top_height + 1 =>
      timestampAt blocks (start_top_height + 1) ::
        (if start_top_height = stop_offset then [] else completeTimestampsLoop blocks stop_offset start_top_height)

/-- `Blockchain::complete_timestamps_vector`: `timestamps` topped up to the window with main-chain
timestamps from `start_top_height` down, or `none` (`false`) when that height is not in the
chain. -/
def complete_timestamps_vector (blocks : List BlockEntry) (blockMajorVersion : UInt8)
    (start_top_height : Nat) (timestamps : List UInt64) : Option (List UInt64) :=
  let window := currency.timestampCheckWindow blockMajorVersion
  if timestamps.length ≥ window then some timestamps
  else
    let need_elements := window - timestamps.length
    if ¬ start_top_height < blocks.length then none
    else
      let stop_offset := if start_top_height > need_elements then start_top_height - need_elements else 0
      some (timestamps ++ completeTimestampsLoop blocks stop_offset start_top_height)

/-- The timestamps `handle_alternative_block` checks block `b` against: those of the whole
alternative chain, newest first, completed from the main chain below its first block, or below
`mainPrevHeight + 1` when the block extends the main chain directly. The result of
`complete_timestamps_vector` is not looked at. -/
def alternativeTimestamps (blocks : List BlockEntry) (alt_chain : List BlockEntry)
    (mainPrevHeight : Nat) (b : Block) : List UInt64 :=
  let timestamps := alt_chain.reverse.map (·.bl.timestamp)
  let start_top_height := match alt_chain.head? with
    | some front => front.height - 1
    | none => mainPrevHeight
  (complete_timestamps_vector currency blocks b.majorVersion start_top_height timestamps).getD timestamps

end Dynex
