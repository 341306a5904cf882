import Dynex.Core.Currency

/-!
# The upgrade vote

`BasicUpgradeDetector` of `DynexCNCore/UpgradeDetector.h`. Where the currency sets no upgrade
height for the target version, the upgrade follows a vote: a block votes with the major version
before the target and minor version 1, and the vote is complete at a height where the votes
among the last `upgradeVotingWindow` blocks reach `upgradeVotingThreshold` percent. The upgrade
then comes `upgradeWindow` blocks later.

`init()` computes the height the vote completed at from the chain, searching the heights at
most `maxUpgradeDistance` below the upgrade. After it the detector follows the chain through two
hooks: `Blockchain::pushBlock` calls `blockPushed()`, which records the first complete height,
and `Blockchain::popBlock` calls `blockPopped()`, which cancels it when its block goes.
`Blockchain::rollbackBlockchainTo`, which `core::rollbackBlockchain` calls, removes blocks with
`removeLastBlock()` and calls neither.

The chain is `m_blocks` as the headers the detector reads; it holds one detector, the three
of `Blockchain` being alike and independent. Heights are `uint32_t` in the source and `Nat`
here, equal on chains of fewer than `UNDEF_HEIGHT` blocks; the sums of the currency's
parameters wrap as in the source. The asserts and the log lines change nothing and are left
out.
-/

set_option autoImplicit false

namespace Dynex

def UNDEF_HEIGHT : Nat := 0xFFFFFFFF

def BLOCK_MINOR_VERSION_1 : UInt8 := 1

/-- `Currency::upgradeHeight(majorVersion)`. -/
def Currency.upgradeHeight (currency : Currency) (majorVersion : UInt8) : Nat :=
  if majorVersion = BLOCK_MAJOR_VERSION_4 then currency.m_upgradeHeightV4
  else if majorVersion = BLOCK_MAJOR_VERSION_2 then currency.m_upgradeHeightV2
  else if majorVersion = BLOCK_MAJOR_VERSION_3 then currency.m_upgradeHeightV3
  else UNDEF_HEIGHT

/-- The members of `class Currency` the vote reads, which `Currency` leaves out, with what
`CurrencyBuilder` and the asserts of `isVotingComplete` require of them. -/
structure UpgradeVoting where
  m_upgradeVotingThreshold : Nat
  m_upgradeVotingWindow : Nat
  m_upgradeWindow : Nat
  threshold_pos : 0 < m_upgradeVotingThreshold
  threshold_le : m_upgradeVotingThreshold ≤ 100
  window_gt_one : 1 < m_upgradeVotingWindow
  upgradeWindow_pos : 0 < m_upgradeWindow

namespace UpgradeVoting

variable (voting : UpgradeVoting)

def maxUpgradeDistance : Nat := 7 * voting.m_upgradeWindow % 2 ^ 32

def calculateUpgradeHeight (voteCompleteHeight : Nat) : Nat :=
  (voteCompleteHeight + voting.m_upgradeWindow) % 2 ^ 32

end UpgradeVoting

/-- `BasicUpgradeDetector<BC>`, without its references to the currency and the chain. -/
structure BasicUpgradeDetector where
  m_targetVersion : UInt8
  m_votingCompleteHeight : Nat
  deriving DecidableEq, Repr

namespace BasicUpgradeDetector

def new (targetVersion : UInt8) : BasicUpgradeDetector :=
  { m_targetVersion := targetVersion, m_votingCompleteHeight := UNDEF_HEIGHT }

def isVote (self : BasicUpgradeDetector) (b : BlockHeader) : Bool :=
  b.majorVersion.toNat + 1 == self.m_targetVersion.toNat && b.minorVersion == BLOCK_MINOR_VERSION_1

section Vote

variable (currency : Currency) (voting : UpgradeVoting)

def getNumberOfVotes (self : BasicUpgradeDetector) (blocks : List BlockHeader) (height : Nat) : Nat :=
  if height < voting.m_upgradeVotingWindow - 1 then 0
  else ((blocks.take (height + 1)).drop (height + 1 - voting.m_upgradeVotingWindow)).countP self.isVote

def isVotingComplete (self : BasicUpgradeDetector) (blocks : List BlockHeader) (height : Nat) : Bool :=
  voting.m_upgradeVotingThreshold * voting.m_upgradeVotingWindow % 2 ^ 32 ≤
    100 * self.getNumberOfVotes voting blocks height

/-- `findVotingCompleteHeight(probableUpgradeHeight)`: the first complete height at most
`maxUpgradeDistance` below. -/
def findVotingCompleteHeight (self : BasicUpgradeDetector) (blocks : List BlockHeader)
    (probableUpgradeHeight : Nat) : Nat :=
  let probableVotingCompleteHeight :=
    if probableUpgradeHeight > voting.maxUpgradeDistance then
      probableUpgradeHeight - voting.maxUpgradeDistance
    else 0
  let heights := List.range' probableVotingCompleteHeight
    (probableUpgradeHeight + 1 - probableVotingCompleteHeight)
  (heights.find? (self.isVotingComplete voting blocks)).getD UNDEF_HEIGHT

def lowerBoundVersion (blocks : List BlockHeader) (targetVersion : UInt8) : Nat :=
  blocks.findIdx fun b => !decide (b.majorVersion < targetVersion)

/-- `init()`: whether it succeeds, and the detector after it. -/
def init (self : BasicUpgradeDetector) (blocks : List BlockHeader) : Bool × BasicUpgradeDetector :=
  let upgradeHeight := currency.upgradeHeight self.m_targetVersion
  if upgradeHeight = UNDEF_HEIGHT then
    match blocks.getLast? with
    | none => (true, { self with m_votingCompleteHeight := UNDEF_HEIGHT })
    | some back =>
        if back.majorVersion.toNat + 1 = self.m_targetVersion.toNat then
          (true, { self with
            m_votingCompleteHeight := self.findVotingCompleteHeight voting blocks (blocks.length - 1) })
        else if self.m_targetVersion ≤ back.majorVersion then
          let it := lowerBoundVersion blocks self.m_targetVersion
          match blocks[it]? with
          | some b =>
              if b.majorVersion ≠ self.m_targetVersion then (false, self)
              else
                let votingCompleteHeight := self.findVotingCompleteHeight voting blocks it
                (votingCompleteHeight ≠ UNDEF_HEIGHT,
                  { self with m_votingCompleteHeight := votingCompleteHeight })
          -- "Internal error: upgrade height isn't found"
          | none => (false, self)
        else (true, { self with m_votingCompleteHeight := UNDEF_HEIGHT })
  else
    match blocks.getLast? with
    | none => (true, self)
    | some back =>
        if blocks.length ≤ upgradeHeight + 1 then (decide (back.majorVersion < self.m_targetVersion), self)
        else
          let atUpgrade := (blocks.getD upgradeHeight back).majorVersion
          let afterUpgrade := (blocks.getD (upgradeHeight + 1) back).majorVersion
          (atUpgrade.toNat + 1 = self.m_targetVersion.toNat && afterUpgrade == self.m_targetVersion, self)

/-- `upgradeHeight()`. -/
def upgradeHeight (self : BasicUpgradeDetector) : Nat :=
  if currency.upgradeHeight self.m_targetVersion = UNDEF_HEIGHT then
    if self.m_votingCompleteHeight = UNDEF_HEIGHT then UNDEF_HEIGHT
    else voting.calculateUpgradeHeight self.m_votingCompleteHeight
  else currency.upgradeHeight self.m_targetVersion

/-- `blockPushed()`, the new block last in `blocks`: the first complete height is recorded. -/
def blockPushed (self : BasicUpgradeDetector) (blocks : List BlockHeader) : BasicUpgradeDetector :=
  if currency.upgradeHeight self.m_targetVersion ≠ UNDEF_HEIGHT then self
  else if self.m_votingCompleteHeight ≠ UNDEF_HEIGHT then self
  else
    let lastBlockHeight := blocks.length - 1
    if self.isVotingComplete voting blocks lastBlockHeight then
      { self with m_votingCompleteHeight := lastBlockHeight }
    else self

end Vote

/-- `blockPopped()`, the block gone from `blocks`: the vote is cancelled with the block it
completed at. -/
def blockPopped (self : BasicUpgradeDetector) (blocks : List BlockHeader) : BasicUpgradeDetector :=
  if self.m_votingCompleteHeight ≠ UNDEF_HEIGHT ∧ blocks.length = self.m_votingCompleteHeight then
    { self with m_votingCompleteHeight := UNDEF_HEIGHT }
  else self

end BasicUpgradeDetector

def rollbackBlockchainTo (height : UInt32) (blocks : List BlockHeader) : List BlockHeader :=
  if (height + 1).toNat < blocks.length then rollbackBlockchainTo height blocks.dropLast
  else blocks
termination_by blocks.length
decreasing_by
  rw [List.length_dropLast]
  omega

/-- `Blockchain`'s `m_blocks` as the headers the detector reads, and one of its detectors. -/
structure DetectedChain where
  m_blocks : List BlockHeader
  detector : BasicUpgradeDetector

/-- What changes the main chain after `init()`. -/
inductive ChainEvent
  /-- `Blockchain::pushBlock`, which calls `blockPushed()`. -/
  | pushBlock (block : BlockHeader)
  /-- `Blockchain::popBlock`: `removeLastBlock()`, then `blockPopped()`. -/
  | popBlock
  /-- `core::rollbackBlockchain(height)`, which calls `rollbackBlockchainTo(height)`. -/
  | rollbackBlockchainTo (height : UInt32)

namespace DetectedChain

variable (currency : Currency) (voting : UpgradeVoting)

def afterInit (blocks : List BlockHeader) (targetVersion : UInt8) : DetectedChain :=
  { m_blocks := blocks,
    detector := ((BasicUpgradeDetector.new targetVersion).init currency voting blocks).2 }

def step (chain : DetectedChain) : ChainEvent → DetectedChain
  | .pushBlock block =>
      let blocks := chain.m_blocks ++ [block]
      { m_blocks := blocks, detector := chain.detector.blockPushed currency voting blocks }
  | .popBlock =>
      -- on an empty chain `popBlock` logs and returns before the hook
      if chain.m_blocks = [] then chain
      else
        let blocks := chain.m_blocks.dropLast
        { m_blocks := blocks, detector := chain.detector.blockPopped blocks }
  | .rollbackBlockchainTo height =>
      { chain with m_blocks := Dynex.rollbackBlockchainTo height chain.m_blocks }

def run (chain : DetectedChain) (events : List ChainEvent) : DetectedChain :=
  events.foldl (step currency voting) chain

end DetectedChain

end Dynex
