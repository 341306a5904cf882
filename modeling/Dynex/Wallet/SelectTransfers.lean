import Dynex.Common.ShuffleGenerator

/-!
# Choosing the outputs a transfer spends

`WalletGreen::selectTransfers` of `Wallet/WalletGreen.cpp`. It collects the outputs of the given
wallets whose amount is above `dustThreshold` and takes them in the order a `ShuffleGenerator`
hands out their positions, adding up their amounts, until it has `neededMoney` or has taken
them all. Its first statement sets `dust = false`, so no output at or below the threshold is
collected and the loop over them never runs; the model keeps both as the source has them.

A wallet is the `WalletRecord*` it names and an output a `TransactionOutputInformation`, of which
the function reads the amount only: both are type parameters and the amount a function.
`foundMoney` is a `uint64_t` and its additions wrap. The generator's `k`-th call takes the
random engine's `k`-th value from `draws`, and the dust loop's generator its own from
`dustDraws`. Indexing a vector past its end is undefined in the source; the model throws there,
which no run reaches.
-/

set_option autoImplicit false

namespace Dynex.WalletGreen

/-- `WalletOuts`. -/
structure WalletOuts (WalletRecord Output : Type) where
  wallet : WalletRecord
  outs : List Output

/-- `OutputToTransfer`. -/
structure OutputToTransfer (WalletRecord Output : Type) where
  out : Output
  wallet : WalletRecord

section Selection

variable {WalletRecord Output : Type} (amount : Output → UInt64)

/-- The outputs the first loop of `selectTransfers` puts into `walletOuts` (`keep` is `true`)
or into `dustOutputs` (`keep` is `false`), each with its wallet, in the order of the wallets and
of their outputs. -/
def collectOutputs (keep : Bool) (dustThreshold : UInt64)
    (wallets : List (WalletOuts WalletRecord Output)) : List (WalletRecord × Output) :=
  wallets.flatMap fun walletIt =>
    (walletIt.outs.filter fun out => decide (amount out > dustThreshold) == keep).map
      fun out => (walletIt.wallet, out)

/-- One round of either loop: `auto& out = outputs[indexGenerator()]`, then
`foundMoney += out.second.amount` and `selectedTransfers.emplace_back(...)`. -/
def pickOutput (outputs : List (WalletRecord × Output)) (draw : Nat) (gen : ShuffleGenerator)
    (foundMoney : UInt64) (selected : List (OutputToTransfer WalletRecord Output)) :
    Except String (ShuffleGenerator × UInt64 × List (OutputToTransfer WalletRecord Output)) :=
  match gen.call draw with
  | .error message => .error message
  | .ok (index, gen) =>
      match outputs[index]? with
      | none => .error "vector subscript out of range"
      | some (wallet, out) =>
          .ok (gen, foundMoney + amount out, selected ++ [{ out := out, wallet := wallet }])

theorem count_pickOutput {outputs : List (WalletRecord × Output)} {draw : Nat}
    {gen next : ShuffleGenerator} {foundMoney money : UInt64}
    {selected picked : List (OutputToTransfer WalletRecord Output)}
    (picking : pickOutput amount outputs draw gen foundMoney selected = .ok (next, money, picked)) :
    next.count < gen.count := by
  unfold pickOutput at picking
  split at picking
  · cases picking
  · rename_i index after called
    split at picking
    · cases picking
    · cases picking
      have := ShuffleGenerator.count_call called
      omega

/-- `while (foundMoney < neededMoney && !indexGenerator.empty())`; `calls` counts the calls made
to the generator. -/
def pickWhile (neededMoney : UInt64) (outputs : List (WalletRecord × Output)) (draws : Nat → Nat)
    (calls : Nat) (gen : ShuffleGenerator) (foundMoney : UInt64)
    (selected : List (OutputToTransfer WalletRecord Output)) :
    Except String (UInt64 × List (OutputToTransfer WalletRecord Output)) :=
  if foundMoney < neededMoney && !gen.empty then
    match picking : pickOutput amount outputs (draws calls) gen foundMoney selected with
    | .error message => .error message
    | .ok (next, money, picked) => pickWhile neededMoney outputs draws (calls + 1) next money picked
  else .ok (foundMoney, selected)
  termination_by gen.count
  decreasing_by exact count_pickOutput amount picking

set_option linter.unusedVariables false in
/-- `selectTransfers(neededMoney, dust, dustThreshold, wallets, selectedTransfers)`: the money
found and `selectedTransfers` after the call. The argument `dust` is overwritten before it is
read. -/
def selectTransfers (neededMoney : UInt64) (dust : Bool) (dustThreshold : UInt64)
    (wallets : List (WalletOuts WalletRecord Output))
    (selectedTransfers : List (OutputToTransfer WalletRecord Output))
    (draws dustDraws : Nat → Nat) :
    Except String (UInt64 × List (OutputToTransfer WalletRecord Output)) :=
  let dust := false
  let walletOuts := collectOutputs amount true dustThreshold wallets
  let dustOutputs := if dust then collectOutputs amount false dustThreshold wallets else []
  match pickWhile amount neededMoney walletOuts draws 0 (ShuffleGenerator.new walletOuts.length) 0
      selectedTransfers with
  | .error message => .error message
  | .ok (foundMoney, selected) =>
      if dust && !dustOutputs.isEmpty then
        -- `do { … } while (…)`: one round, then the loop
        match pickOutput amount dustOutputs (dustDraws 0) (ShuffleGenerator.new dustOutputs.length)
            foundMoney selected with
        | .error message => .error message
        | .ok (gen, money, picked) => pickWhile amount neededMoney dustOutputs dustDraws 1 gen money picked
      else .ok (foundMoney, selected)

end Selection

end Dynex.WalletGreen
