import Dynex.Wallet.SelectTransfers

/-!
# What `selectTransfers` picks

The generator hands out positions of `walletOuts`, each once (`ShuffleGenerator.Shuffled`), so
the outputs picked are a sub-multiset of `walletOuts`, and all of it when the generator runs
empty. The loop stops with less than `neededMoney` only when it has run empty. The money found
is the sum of the amounts picked, modulo `2 ^ 64`. The proofs follow the loop: `pickOutput_spec`
is one round, `pickWhile_spec` the whole loop, by induction on the calls it makes.
-/

set_option autoImplicit false

namespace Dynex.WalletGreen

open ShuffleGenerator

variable {WalletRecord Output : Type}

def toTransfer (pair : WalletRecord × Output) : OutputToTransfer WalletRecord Output :=
  { out := pair.2, wallet := pair.1 }

def pickedOf {α : Type} (outputs : List α) (indices : List Nat) : List α :=
  indices.filterMap (outputs[·]?)

theorem pickedOf_range {α : Type} (outputs : List α) :
    pickedOf outputs (List.range outputs.length) = outputs := by
  induction outputs with
  | nil => rfl
  | cons first rest ih =>
      rw [pickedOf, List.length_cons, List.range_succ_eq_map, List.filterMap_cons,
        List.filterMap_map]
      simpa [pickedOf, Function.comp_def] using ih

theorem pickedOf_cons {α : Type} {outputs : List α} {index : Nat} {pair : α}
    (found : outputs[index]? = some pair) (more : List Nat) :
    pickedOf outputs (index :: more) = pair :: pickedOf outputs more := by
  rw [pickedOf, List.filterMap_cons, found]
  rfl

section Selection

variable (amount : Output → UInt64)

def moneyOf (picked : List (WalletRecord × Output)) : Nat :=
  (picked.map fun pair => (amount pair.2).toNat).sum

theorem moneyOf_cons (pair : WalletRecord × Output) (picked : List (WalletRecord × Output)) :
    moneyOf amount (pair :: picked) = (amount pair.2).toNat + moneyOf amount picked := by
  rw [moneyOf, List.map_cons, List.sum_cons, ← moneyOf]

theorem mem_collectOutputs {dustThreshold : UInt64} {wallets : List (WalletOuts WalletRecord Output)}
    {pair : WalletRecord × Output} (member : pair ∈ collectOutputs amount true dustThreshold wallets) :
    amount pair.2 > dustThreshold ∧
      ∃ walletIt ∈ wallets, walletIt.wallet = pair.1 ∧ pair.2 ∈ walletIt.outs := by
  obtain ⟨walletIt, inWallets, picked⟩ := List.mem_flatMap.mp member
  obtain ⟨out, kept, rfl⟩ := List.mem_map.mp picked
  obtain ⟨inOuts, above⟩ := List.mem_filter.mp kept
  exact ⟨by simpa using above, walletIt, inWallets, rfl, inOuts⟩

theorem moneyOf_le_of_subperm {picked outputs : List (WalletRecord × Output)}
    (sub : picked.Subperm outputs) : moneyOf amount picked ≤ moneyOf amount outputs := by
  obtain ⟨reordered, perm, sublist⟩ := sub
  rw [moneyOf, ← (perm.map _).sum_eq]
  exact (sublist.map _).sum_le_sum (fun _ _ => Nat.zero_le _)

theorem pickOutput_spec {outputs : List (WalletRecord × Output)} {gen : ShuffleGenerator}
    {handed : List Nat} (shuffled : gen.Shuffled handed) (sized : gen.N = outputs.length)
    (positive : 0 < gen.count) (draw : Nat) (foundMoney : UInt64)
    (selected : List (OutputToTransfer WalletRecord Output)) :
    ∃ index next pair, next.Shuffled (handed ++ [index]) ∧ next.N = gen.N ∧
      outputs[index]? = some pair ∧
      pickOutput amount outputs draw gen foundMoney selected =
        .ok (next, foundMoney + amount pair.2, selected ++ [toTransfer pair]) := by
  obtain ⟨index, next, called⟩ : ∃ index next, gen.call draw = .ok (index, next) :=
    ⟨_, _, call_of_pos positive draw⟩
  have bound : index < outputs.length := sized ▸ lt_of_call shuffled called
  refine ⟨index, next, outputs[index], shuffled.call called, (live_call called).2,
    List.getElem?_eq_getElem bound, ?_⟩
  simp only [pickOutput, called, List.getElem?_eq_getElem bound]
  rfl

/-- The whole loop: it picks the outputs at fresh positions `more`, adds up their amounts, and
stops short of `neededMoney` only with no position `rest` left. -/
theorem pickWhile_spec (neededMoney : UInt64) (outputs : List (WalletRecord × Output))
    (draws : Nat → Nat) (calls : Nat) (gen : ShuffleGenerator) (foundMoney : UInt64)
    (selected : List (OutputToTransfer WalletRecord Output)) (handed : List Nat)
    (shuffled : gen.Shuffled handed) (sized : gen.N = outputs.length) :
    ∃ more rest money, (handed ++ more ++ rest).Perm (List.range outputs.length) ∧
      pickWhile amount neededMoney outputs draws calls gen foundMoney selected =
        .ok (money, selected ++ (pickedOf outputs more).map toTransfer) ∧
      money.toNat = (foundMoney.toNat + moneyOf amount (pickedOf outputs more)) % 2 ^ 64 ∧
      (money < neededMoney → rest = []) := by
  fun_induction pickWhile amount neededMoney outputs draws calls gen foundMoney selected
    generalizing handed with
  | case1 calls gen foundMoney selected going message failed =>
      have positive : 0 < gen.count := by simp [ShuffleGenerator.empty] at going; omega
      obtain ⟨_, _, _, _, _, _, picked⟩ :=
        pickOutput_spec amount shuffled sized positive (draws calls) foundMoney selected
      rw [picked] at failed
      cases failed
  | case2 calls gen foundMoney selected going next money picked picking ih =>
      have positive : 0 < gen.count := by simp [ShuffleGenerator.empty] at going; omega
      obtain ⟨index, next', pair, shuffled', sameN, found, picking'⟩ :=
        pickOutput_spec amount shuffled sized positive (draws calls) foundMoney selected
      rw [picking'] at picking
      obtain ⟨rfl, same⟩ := Prod.mk.inj (Except.ok.inj picking)
      obtain ⟨rfl, rfl⟩ := Prod.mk.inj same
      obtain ⟨more, rest, final, perm, loop, counted, stopped⟩ :=
        ih (handed ++ [index]) shuffled' (sameN.trans sized)
      refine ⟨index :: more, rest, final, by simpa using perm, ?_, ?_, stopped⟩
      · rw [loop, pickedOf_cons found, List.map_cons, List.append_assoc, List.singleton_append]
      · rw [counted, pickedOf_cons found, moneyOf_cons, UInt64.toNat_add]
        omega
  | case3 calls gen foundMoney selected stopping =>
      refine ⟨[], gen.live, foundMoney, by rw [List.append_nil, ← sized]; exact shuffled,
        by simp [pickedOf], ?_, ?_⟩
      · simp [pickedOf, moneyOf, Nat.mod_eq_of_lt foundMoney.toNat_lt]
      · intro short
        have empty : gen.count = 0 := by
          simp [ShuffleGenerator.empty, short] at stopping
          exact stopping
        simp [live, empty]

theorem selectTransfers_eq (neededMoney : UInt64) (dust : Bool) (dustThreshold : UInt64)
    (wallets : List (WalletOuts WalletRecord Output))
    (selectedTransfers : List (OutputToTransfer WalletRecord Output)) (draws dustDraws : Nat → Nat) :
    selectTransfers amount neededMoney dust dustThreshold wallets selectedTransfers draws dustDraws =
      pickWhile amount neededMoney (collectOutputs amount true dustThreshold wallets) draws 0
        (ShuffleGenerator.new (collectOutputs amount true dustThreshold wallets).length) 0
        selectedTransfers := by
  unfold selectTransfers
  dsimp only
  split
  · next message failed => exact failed.symm
  · next foundMoney selected found => rw [found]; rfl

/-- Every output `selectTransfers` picks is above the dust threshold and belongs to one of the
wallets; no output is picked more often than it occurs; `foundMoney` adds up their amounts when the
balance fits in 64 bits; and it stops short of `neededMoney` only once it has picked them all. -/
theorem selectTransfers_picks_distinct_complete (neededMoney : UInt64) (dust : Bool)
    (dustThreshold : UInt64) (wallets : List (WalletOuts WalletRecord Output))
    (selectedTransfers : List (OutputToTransfer WalletRecord Output)) (draws dustDraws : Nat → Nat) :
    let walletOuts := collectOutputs amount true dustThreshold wallets
    ∃ picked foundMoney,
      selectTransfers amount neededMoney dust dustThreshold wallets selectedTransfers draws dustDraws =
        .ok (foundMoney, selectedTransfers ++ picked.map toTransfer) ∧
      (∀ pair ∈ picked, amount pair.2 > dustThreshold ∧
        ∃ walletIt ∈ wallets, walletIt.wallet = pair.1 ∧ pair.2 ∈ walletIt.outs) ∧
      picked.Subperm walletOuts ∧
      (moneyOf amount walletOuts < 2 ^ 64 → foundMoney.toNat = moneyOf amount picked) ∧
      (foundMoney < neededMoney → picked.Perm walletOuts) := by
  intro walletOuts
  obtain ⟨more, rest, money, perm, loop, counted, stopped⟩ :=
    pickWhile_spec amount neededMoney walletOuts draws 0 (ShuffleGenerator.new walletOuts.length) 0
      selectedTransfers [] (shuffled_new _) rfl
  have parts : (pickedOf walletOuts more ++ pickedOf walletOuts rest).Perm walletOuts := by
    have := perm.filterMap (walletOuts[·]?)
    rwa [List.nil_append, List.filterMap_append, ← pickedOf, ← pickedOf, ← pickedOf,
      pickedOf_range] at this
  have sub : (pickedOf walletOuts more).Subperm walletOuts :=
    (List.sublist_append_left _ _).subperm.trans parts.subperm
  refine ⟨pickedOf walletOuts more, money, by rw [selectTransfers_eq]; exact loop,
    fun pair member => mem_collectOutputs amount (sub.subset member), sub, ?_, ?_⟩
  · intro fits
    have within := moneyOf_le_of_subperm amount sub
    rw [counted, UInt64.toNat_zero, Nat.zero_add, Nat.mod_eq_of_lt (by omega)]
  · intro short
    rw [stopped short] at parts
    simpa [pickedOf] using parts

end Selection

end Dynex.WalletGreen
