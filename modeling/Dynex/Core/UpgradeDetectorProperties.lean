import Dynex.Core.UpgradeDetector

/-!
# The detector after a rollback

`init()` only records a height it searched, so one below the chain's length or `UNDEF_HEIGHT`
(`init_new_votingCompleteHeight`). A rollback removes blocks without the hook, so a recorded
height whose block it removes stays, and a detector `init()` builds on the same chain cannot
have it (`rollback_keeps_cancelled_vote`).
-/

set_option autoImplicit false

namespace Dynex

namespace BasicUpgradeDetector

section Hooks

variable (currency : Currency) (voting : UpgradeVoting)

theorem findVotingCompleteHeight_le (self : BasicUpgradeDetector) (blocks : List BlockHeader)
    (probableUpgradeHeight : Nat) :
    self.findVotingCompleteHeight voting blocks probableUpgradeHeight = UNDEF_HEIGHT ∨
      self.findVotingCompleteHeight voting blocks probableUpgradeHeight ≤ probableUpgradeHeight := by
  unfold findVotingCompleteHeight
  dsimp only
  cases found : List.find? (self.isVotingComplete voting blocks) _ with
  | none => exact Or.inl rfl
  | some height =>
      have member := List.mem_range'_1.mp (List.mem_of_find?_eq_some found)
      right
      rw [Option.getD_some]
      omega

/-- A detector `init()` builds records `UNDEF_HEIGHT` or a height of the chain. -/
theorem init_new_votingCompleteHeight (targetVersion : UInt8) (blocks : List BlockHeader) :
    ((new targetVersion).init currency voting blocks).2.m_votingCompleteHeight = UNDEF_HEIGHT ∨
      ((new targetVersion).init currency voting blocks).2.m_votingCompleteHeight < blocks.length := by
  unfold init
  dsimp only
  split
  · cases last : blocks.getLast? with
    | none => exact Or.inl rfl
    | some back =>
        have nonempty : blocks ≠ [] := fun empty => by simp [empty] at last
        have positive : 0 < blocks.length := List.length_pos_of_ne_nil nonempty
        dsimp only
        split
        · rcases findVotingCompleteHeight_le voting (new targetVersion) blocks (blocks.length - 1)
            with undefined | below
          · exact Or.inl undefined
          · exact Or.inr (by dsimp only; omega)
        · split
          · split
            · next b upgraded =>
                have inside := (List.getElem?_eq_some_iff.mp upgraded).1
                split
                · exact Or.inl rfl
                · rcases findVotingCompleteHeight_le voting (new targetVersion) blocks
                    (lowerBoundVersion blocks (new targetVersion).m_targetVersion)
                    with undefined | below
                  · exact Or.inl undefined
                  · exact Or.inr (by dsimp only; omega)
            · exact Or.inl rfl
          · exact Or.inl rfl
  · cases blocks.getLast? with
    | none => exact Or.inl rfl
    | some back =>
        dsimp only
        split <;> exact Or.inl rfl

@[simp] theorem init_targetVersion (self : BasicUpgradeDetector) (blocks : List BlockHeader) :
    (self.init currency voting blocks).2.m_targetVersion = self.m_targetVersion := by
  unfold init
  dsimp only
  split
  · cases blocks.getLast? with
    | none => rfl
    | some back =>
        dsimp only
        split
        · rfl
        · split
          · cases blocks[lowerBoundVersion blocks self.m_targetVersion]? with
            | none => rfl
            | some b =>
                dsimp only
                split <;> rfl
          · rfl
  · cases blocks.getLast? with
    | none => rfl
    | some back =>
        dsimp only
        split <;> rfl

@[simp] theorem blockPushed_targetVersion (self : BasicUpgradeDetector) (blocks : List BlockHeader) :
    (self.blockPushed currency voting blocks).m_targetVersion = self.m_targetVersion := by
  unfold blockPushed
  split
  · rfl
  · split
    · rfl
    · dsimp only
      split <;> rfl

end Hooks

@[simp] theorem blockPopped_targetVersion (self : BasicUpgradeDetector) (blocks : List BlockHeader) :
    (self.blockPopped blocks).m_targetVersion = self.m_targetVersion := by
  unfold blockPopped
  split <;> rfl

end BasicUpgradeDetector

theorem rollbackBlockchainTo_eq (height : UInt32) (blocks : List BlockHeader) :
    rollbackBlockchainTo height blocks = blocks.take (height + 1).toNat := by
  fun_induction rollbackBlockchainTo height blocks with
  | case1 blocks more ih =>
      rw [ih, List.dropLast_eq_take, List.take_take, Nat.min_eq_left (by omega)]
  | case2 blocks fits =>
      rw [List.take_of_length_le (by omega)]

namespace DetectedChain

variable (currency : Currency) (voting : UpgradeVoting)

theorem step_targetVersion (chain : DetectedChain) (event : ChainEvent) :
    (chain.step currency voting event).detector.m_targetVersion = chain.detector.m_targetVersion := by
  cases event with
  | pushBlock block => exact BasicUpgradeDetector.blockPushed_targetVersion currency voting _ _
  | popBlock =>
      simp only [step]
      split
      · rfl
      · exact BasicUpgradeDetector.blockPopped_targetVersion _ _
  | rollbackBlockchainTo height => rfl

theorem run_targetVersion (chain : DetectedChain) (events : List ChainEvent) :
    (chain.run currency voting events).detector.m_targetVersion = chain.detector.m_targetVersion := by
  induction events generalizing chain with
  | nil => rfl
  | cons event rest ih =>
      rw [run, List.foldl_cons, ← run, ih, step_targetVersion]

@[simp] theorem step_rollbackBlockchainTo (chain : DetectedChain) (height : UInt32) :
    chain.step currency voting (.rollbackBlockchainTo height) =
      { chain with m_blocks := chain.m_blocks.take (height + 1).toNat } := by
  rw [step, rollbackBlockchainTo_eq]

/-- Whatever events follow `init()`, once the detector has recorded the height the vote
completed at, a rollback that removes the block at that height leaves it recorded; a detector
`init()` builds on the chain the rollback leaves records another height, and where the recorded
height and the upgrade window do not reach `UNDEF_HEIGHT`, another upgrade height. -/
theorem rollback_keeps_cancelled_vote (targetVersion : UInt8)
    (undefined : currency.upgradeHeight targetVersion = UNDEF_HEIGHT) (blocks : List BlockHeader)
    (events : List ChainEvent) (height : UInt32)
    (recorded : ((afterInit currency voting blocks targetVersion).run currency voting events).detector.m_votingCompleteHeight ≠
      UNDEF_HEIGHT)
    (removed : (height + 1).toNat ≤
      ((afterInit currency voting blocks targetVersion).run currency voting events).detector.m_votingCompleteHeight) :
    let chain := (afterInit currency voting blocks targetVersion).run currency voting events
    let rolled := chain.step currency voting (.rollbackBlockchainTo height)
    let fresh := ((BasicUpgradeDetector.new targetVersion).init currency voting rolled.m_blocks).2
    rolled.detector.m_votingCompleteHeight = chain.detector.m_votingCompleteHeight ∧
      fresh.m_votingCompleteHeight ≠ rolled.detector.m_votingCompleteHeight ∧
      (chain.detector.m_votingCompleteHeight + voting.m_upgradeWindow < UNDEF_HEIGHT →
        fresh.upgradeHeight currency voting ≠ rolled.detector.upgradeHeight currency voting) := by
  intro chain rolled fresh
  change chain.detector.m_votingCompleteHeight ≠ UNDEF_HEIGHT at recorded
  change _ ≤ chain.detector.m_votingCompleteHeight at removed
  have kept : rolled.detector = chain.detector := by
    simp only [rolled, step_rollbackBlockchainTo]
  have shorter : rolled.m_blocks.length ≤ (height + 1).toNat := by
    simp only [rolled, step_rollbackBlockchainTo, List.length_take]
    omega
  have freshBelow : fresh.m_votingCompleteHeight = UNDEF_HEIGHT ∨
      fresh.m_votingCompleteHeight < rolled.m_blocks.length :=
    BasicUpgradeDetector.init_new_votingCompleteHeight currency voting targetVersion rolled.m_blocks
  have different : fresh.m_votingCompleteHeight ≠ chain.detector.m_votingCompleteHeight := by
    rcases freshBelow with undefinedFresh | below
    · exact fun same => recorded (same ▸ undefinedFresh)
    · omega
  refine ⟨by rw [kept], by rw [kept]; exact different, ?_⟩
  intro fits
  have freshTarget : fresh.m_targetVersion = targetVersion :=
    BasicUpgradeDetector.init_targetVersion currency voting _ _
  have chainTarget : chain.detector.m_targetVersion = targetVersion :=
    (run_targetVersion currency voting _ events).trans
      (BasicUpgradeDetector.init_targetVersion currency voting _ _)
  have rolledHeight : rolled.detector.upgradeHeight currency voting =
      chain.detector.m_votingCompleteHeight + voting.m_upgradeWindow := by
    have small : chain.detector.m_votingCompleteHeight + voting.m_upgradeWindow < 2 ^ 32 := by
      unfold UNDEF_HEIGHT at fits
      omega
    rw [kept, BasicUpgradeDetector.upgradeHeight, chainTarget, if_pos undefined, if_neg recorded,
      UpgradeVoting.calculateUpgradeHeight, Nat.mod_eq_of_lt small]
  rw [rolledHeight]
  by_cases freshUndefined : fresh.m_votingCompleteHeight = UNDEF_HEIGHT
  · rw [BasicUpgradeDetector.upgradeHeight, freshTarget, if_pos undefined, if_pos freshUndefined]
    omega
  · have below : fresh.m_votingCompleteHeight < rolled.m_blocks.length :=
      freshBelow.resolve_left freshUndefined
    have small : fresh.m_votingCompleteHeight + voting.m_upgradeWindow < 2 ^ 32 := by
      unfold UNDEF_HEIGHT at fits
      omega
    rw [BasicUpgradeDetector.upgradeHeight, freshTarget, if_pos undefined, if_neg freshUndefined,
      UpgradeVoting.calculateUpgradeHeight, Nat.mod_eq_of_lt small]
    omega

def noV2Height : Currency := { Currency.mainnet with m_upgradeHeightV2 := UNDEF_HEIGHT }

/-- A vote that asks for both of the last two blocks, the upgrade one block after it. -/
def twoBlockVote : UpgradeVoting where
  m_upgradeVotingThreshold := 100
  m_upgradeVotingWindow := 2
  m_upgradeWindow := 1
  threshold_pos := by decide
  threshold_le := by decide
  window_gt_one := by decide
  upgradeWindow_pos := by decide

def genesisHeader : BlockHeader :=
  { majorVersion := BLOCK_MAJOR_VERSION_1, minorVersion := 0, nonce := 0, timestamp := 0,
    previousBlockHash := Crypto.NULL_HASH }

def voteHeader : BlockHeader := { genesisHeader with minorVersion := BLOCK_MINOR_VERSION_1 }

/-- After the genesis block and two votes the vote completes at height 2, the detector
records it, and `core::rollbackBlockchain(1)` removes that block and leaves it recorded. -/
theorem rollback_to_one_keeps_vote_at_two :
    noV2Height.upgradeHeight BLOCK_MAJOR_VERSION_2 = UNDEF_HEIGHT ∧
      ((afterInit noV2Height twoBlockVote [genesisHeader] BLOCK_MAJOR_VERSION_2).run noV2Height
        twoBlockVote [.pushBlock voteHeader, .pushBlock voteHeader]).detector.m_votingCompleteHeight = 2 ∧
      ((1 : UInt32) + 1).toNat ≤ 2 ∧
      (let chain := (afterInit noV2Height twoBlockVote [genesisHeader] BLOCK_MAJOR_VERSION_2).run
          noV2Height twoBlockVote [.pushBlock voteHeader, .pushBlock voteHeader]
        let rolled := chain.step noV2Height twoBlockVote (.rollbackBlockchainTo 1)
        let fresh := ((BasicUpgradeDetector.new BLOCK_MAJOR_VERSION_2).init noV2Height twoBlockVote
          rolled.m_blocks).2
        rolled.detector.m_votingCompleteHeight = chain.detector.m_votingCompleteHeight ∧
          fresh.m_votingCompleteHeight ≠ rolled.detector.m_votingCompleteHeight ∧
          (chain.detector.m_votingCompleteHeight + twoBlockVote.m_upgradeWindow < UNDEF_HEIGHT →
            fresh.upgradeHeight noV2Height twoBlockVote ≠
              rolled.detector.upgradeHeight noV2Height twoBlockVote)) :=
  ⟨by decide, by decide, by decide,
    rollback_keeps_cancelled_vote noV2Height twoBlockVote BLOCK_MAJOR_VERSION_2 (by decide)
      [genesisHeader] [.pushBlock voteHeader, .pushBlock voteHeader] 1 (by decide) (by decide)⟩

end DetectedChain

end Dynex
