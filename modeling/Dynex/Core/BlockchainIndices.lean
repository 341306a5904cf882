import Dynex.Core.Blockchain.State
import Dynex.Core.TransactionExtra
import Dynex.Lib.KeyedStore

/-!
# The explorer indices

`BlockchainIndices.cpp`: the secondary indices that `Blockchain` and `tx_memory_pool` keep when
indices are enabled. Four of them are a multimap from a key to hashes, filled by `emplace` and
emptied by a loop over `equal_range(key)` that erases the first entry holding the hash; their
`remove` undoes `add` exactly when the hash was not already under the key
(`HashMultimap.remove_add_of_not_mem`).

`AddressIndex` files a transaction under every address of its extra but `remove` walks the
addresses and returns after the first erase, so only one of the entries `add` made is taken back
(`AddressIndex.count_remove_add`). `GeneratedTransactionsIndex` keeps a running total per height;
its `remove` reads the total back from the height below, which is the total before the `add` in
every state the two operations reach from the empty index.
-/

set_option autoImplicit false

namespace Dynex

open Crypto KeyedStore

/-! ## What the indices read out of a transaction -/

def getPaymentId (transaction : Transaction) : Option Hash :=
  (findTransactionExtraFieldByType TransactionExtraField.nonce?
    (parseTransactionExtra transaction.extra).2).bind getPaymentIdFromTransactionExtraNonce

/-- `BlockchainExplorerDataBuilder::getAddresses`: the address of every `FromAddress` and
`ToAddress` field, in order, as `getAccountAddressAsStr` writes it. It never fails. -/
def getAddresses (getAccountAddressAsStr : AccountPublicAddress → String)
    (transaction : Transaction) : List String :=
  ((parseTransactionExtra transaction.extra).2.filterMap TransactionExtraField.address?).map
    getAccountAddressAsStr

/-! ## Indices over a multimap of hashes -/

/-- The members of the index classes: the `enabled` flag and a multimap from keys to hashes. -/
structure HashMultimap (κ : Type) where
  enabled : Bool
  index : κ → List Hash

namespace HashMultimap

variable {κ : Type} [DecidableEq κ]

def add (self : HashMultimap κ) (key : κ) (hash : Hash) : Bool × HashMultimap κ :=
  if !self.enabled then (false, self) else (true, { self with index := push self.index key hash })

/-- The first entry of `equal_range(key)` that holds `hash` is erased; `false` when none does. -/
def remove (self : HashMultimap κ) (key : κ) (hash : Hash) : Bool × HashMultimap κ :=
  if !self.enabled then (false, self)
  else if hash ∈ self.index key then (true, { self with index := eraseFirst self.index key hash })
  else (false, self)

theorem remove_add_of_not_mem (self : HashMultimap κ) {key : κ} {hash : Hash}
    (absent : hash ∉ self.index key) :
    (self.add key hash).2.remove key hash = (self.enabled, self) := by
  obtain ⟨enabled, index⟩ := self
  cases enabled with
  | false => simp [add, remove]
  | true => simp_all [add, remove, eraseFirst_push_of_not_mem absent]

theorem remove_add_perm (self : HashMultimap κ) (key : κ) (hash : Hash) (other : κ) :
    (((self.add key hash).2.remove key hash).2.index other).Perm (self.index other) := by
  cases enabled : self.enabled with
  | false => simp [add, remove, enabled]
  | true => simpa [add, remove, enabled] using eraseFirst_push_perm self.index key hash other

end HashMultimap

abbrev TimestampBlocksIndex := HashMultimap UInt64

def TimestampBlocksIndex.add (self : TimestampBlocksIndex) (timestamp : UInt64) (hash : Hash) :
    Bool × TimestampBlocksIndex :=
  HashMultimap.add self timestamp hash

def TimestampBlocksIndex.remove (self : TimestampBlocksIndex) (timestamp : UInt64) (hash : Hash) :
    Bool × TimestampBlocksIndex :=
  HashMultimap.remove self timestamp hash

abbrev TimestampTransactionsIndex := HashMultimap UInt64

def TimestampTransactionsIndex.add (self : TimestampTransactionsIndex) (timestamp : UInt64)
    (hash : Hash) : Bool × TimestampTransactionsIndex :=
  HashMultimap.add self timestamp hash

def TimestampTransactionsIndex.remove (self : TimestampTransactionsIndex) (timestamp : UInt64)
    (hash : Hash) : Bool × TimestampTransactionsIndex :=
  HashMultimap.remove self timestamp hash

abbrev PaymentIdIndex := HashMultimap Hash

/-- A transaction without a payment id is not indexed. -/
def PaymentIdIndex.add (self : PaymentIdIndex) (transaction : Transaction)
    (transactionHash : Hash) : Bool × PaymentIdIndex :=
  match getPaymentId transaction with
  | none => (false, self)
  | some paymentId => HashMultimap.add self paymentId transactionHash

def PaymentIdIndex.remove (self : PaymentIdIndex) (transaction : Transaction)
    (transactionHash : Hash) : Bool × PaymentIdIndex :=
  match getPaymentId transaction with
  | none => (false, self)
  | some paymentId => HashMultimap.remove self paymentId transactionHash

theorem PaymentIdIndex.remove_add_perm (self : PaymentIdIndex) (transaction : Transaction)
    (transactionHash : Hash) (paymentId : Hash) :
    (((self.add transaction transactionHash).2.remove transaction transactionHash).2.index
      paymentId).Perm (self.index paymentId) := by
  unfold PaymentIdIndex.add PaymentIdIndex.remove
  cases getPaymentId transaction with
  | none => exact List.Perm.refl _
  | some key => exact HashMultimap.remove_add_perm self key transactionHash paymentId

/-! ## The address index -/

abbrev AddressIndex := HashMultimap String

namespace AddressIndex

variable (getAccountAddressAsStr : AccountPublicAddress → String)

/-- One entry per address of the extra. -/
def add (self : AddressIndex) (transaction : Transaction) (transactionHash : Hash) :
    Bool × AddressIndex :=
  if !self.enabled then (false, self)
  else (true, { self with
    index := pushAll self.index (getAddresses getAccountAddressAsStr transaction) transactionHash })

/-- The addresses are searched in turn and the first entry found is the only one erased. -/
def remove (self : AddressIndex) (transaction : Transaction) (transactionHash : Hash) :
    Bool × AddressIndex :=
  if !self.enabled then (false, self)
  else
    match eraseFirstAmong self.index transactionHash
        (getAddresses getAccountAddressAsStr transaction) with
    | none => (false, self)
    | some index => (true, { self with index })

theorem remove_add (self : AddressIndex) {transaction : Transaction} {transactionHash : Hash}
    {address : String} {addresses : List String}
    (listed : getAddresses getAccountAddressAsStr transaction = address :: addresses)
    (enabled : self.enabled = true) :
    remove getAccountAddressAsStr (add getAccountAddressAsStr self transaction transactionHash).2
        transaction transactionHash =
      (true, { self with
        index := eraseFirst (pushAll self.index (address :: addresses) transactionHash) address
          transactionHash }) := by
  simp [add, remove, enabled, listed, eraseFirstAmong_pushAll]

theorem count_remove_add (self : AddressIndex) {transaction : Transaction}
    (transactionHash : Hash) {address : String} {addresses : List String}
    (listed : getAddresses getAccountAddressAsStr transaction = address :: addresses)
    (enabled : self.enabled = true) (key : String) :
    ((remove getAccountAddressAsStr (add getAccountAddressAsStr self transaction transactionHash).2
        transaction transactionHash).2.index key).count transactionHash =
      (self.index key).count transactionHash + (address :: addresses).count key -
        if key = address then 1 else 0 := by
  rw [remove_add getAccountAddressAsStr self listed enabled]
  simp only [count_eraseFirst, pushAll_apply, List.count_append, List.count_replicate_self]

/-- A transaction with two or more addresses in its extra, as every non-privacy transaction has a
`FromAddress` and a `ToAddress`, leaves an entry behind: `remove` does not undo `add`. -/
theorem remove_add_of_two_addresses (self : AddressIndex) {transaction : Transaction}
    {transactionHash : Hash} (enabled : self.enabled = true)
    (twoAddresses : 2 ≤ (getAddresses getAccountAddressAsStr transaction).length) :
    (remove getAccountAddressAsStr (add getAccountAddressAsStr self transaction transactionHash).2
        transaction transactionHash).2 ≠ self := by
  obtain ⟨first, second, rest, listed⟩ :
      ∃ first second rest, getAddresses getAccountAddressAsStr transaction =
        first :: second :: rest := by
    match getAddresses getAccountAddressAsStr transaction, twoAddresses with
    | first :: second :: rest, _ => exact ⟨first, second, rest, rfl⟩
  intro restored
  have counted :=
    count_remove_add getAccountAddressAsStr self transactionHash listed enabled second
  rw [restored] at counted
  have listedTwice : (if second = first then 1 else 0) < (first :: second :: rest).count second := by
    by_cases same : second = first
    · subst same
      simp
    · simp [same, List.count_cons]
  omega

def twoAddressTransaction : Transaction :=
  ⟨⟨CURRENT_TRANSACTION_VERSION, 0, [], [],
    TX_EXTRA_FROM_ADDRESS :: List.replicate 64 1 ++ TX_EXTRA_TO_ADDRESS :: List.replicate 64 2⟩, []⟩

def spendKeyText (address : AccountPublicAddress) : String :=
  toString address.spendPublicKey.pod.bytes

theorem two_address_transaction_stays_indexed :
    (⟨true, fun _ => []⟩ : AddressIndex).enabled = true ∧
      2 ≤ (getAddresses spendKeyText twoAddressTransaction).length ∧
      (remove spendKeyText (add spendKeyText ⟨true, fun _ => []⟩ twoAddressTransaction NULL_HASH).2
        twoAddressTransaction NULL_HASH).2 ≠ ⟨true, fun _ => []⟩ :=
  ⟨rfl, by decide +kernel,
    remove_add_of_two_addresses spendKeyText ⟨true, fun _ => []⟩ rfl (by decide +kernel)⟩

end AddressIndex

/-! ## Generated transactions -/

/-- `GeneratedTransactionsIndex`: for each height, the number of transactions of the blocks up
to it, a `std::map` kept in key order, and the number for the last block added. -/
structure GeneratedTransactionsIndex where
  enabled : Bool
  index : List (UInt32 × UInt64)
  lastGeneratedTxNumber : UInt64
  deriving DecidableEq, Repr

/-- `boost::get<BaseInput>(block.baseTransaction.inputs.front()).blockIndex`. -/
def baseInputBlockIndex (block : Block) : Except String UInt32 :=
  match block.baseTransaction.inputs with
  | [] => throw "inputs.front() of an empty vector"
  | .base input :: _ => pure input.blockIndex
  | _ :: _ => throw "boost::bad_get"

namespace GeneratedTransactionsIndex

def emplace (index : List (UInt32 × UInt64)) (key : UInt32) (value : UInt64) :
    List (UInt32 × UInt64) :=
  index.orderedInsert (fun left right => left.1 ≤ right.1) (key, value)

/-- Only the next height is accepted; the total counts the miner transaction, in `uint64_t`. -/
def add (self : GeneratedTransactionsIndex) (block : Block) :
    Except String (Bool × GeneratedTransactionsIndex) := do
  if !self.enabled then return (false, self)
  let blockHeight ← baseInputBlockIndex block
  if self.index.length ≠ blockHeight.toNat then return (false, self)
  if (self.index.lookup blockHeight).isSome then return (false, self)
  let total := self.lastGeneratedTxNumber + block.transactionHashes.length.toUInt64 + 1
  return (true, { self with
    index := emplace self.index blockHeight total, lastGeneratedTxNumber := total })

/-- Only the last height is removed; the total goes back to the one of the height below, read
from the map, which `assert`s it is there. `index.size() - 1` is a `size_t`. -/
def remove (self : GeneratedTransactionsIndex) (block : Block) :
    Except String (Bool × GeneratedTransactionsIndex) := do
  if !self.enabled then return (false, self)
  let blockHeight ← baseInputBlockIndex block
  if blockHeight.toUInt64 ≠ self.index.length.toUInt64 - 1 then return (false, self)
  match self.index.lookup blockHeight with
  | none => throw "assert(iter != index.end())"
  | some _ =>
      let index := self.index.filter (·.1 ≠ blockHeight)
      if blockHeight ≠ 0 then
        match index.lookup (blockHeight - 1) with
        | none => throw "assert(iter != index.end())"
        | some total => return (true, { self with index, lastGeneratedTxNumber := total })
      else return (true, { self with index, lastGeneratedTxNumber := 0 })

/-- The states `add` and `remove` reach from the empty index: the heights are `0, 1, ...` in
order and the last total is the one at the last height, or 0. -/
structure WellFormed (generated : GeneratedTransactionsIndex) : Prop where
  heights : generated.index.map (·.1.toNat) = List.range generated.index.length
  last : generated.lastGeneratedTxNumber = ((generated.index.getLast?).map (·.2)).getD 0

theorem WellFormed.lt_length {self : GeneratedTransactionsIndex} (wellFormed : self.WellFormed)
    {entry : UInt32 × UInt64} (member : entry ∈ self.index) : entry.1.toNat < self.index.length := by
  have listed : entry.1.toNat ∈ self.index.map (·.1.toNat) := List.mem_map_of_mem member
  rw [wellFormed.heights] at listed
  exact List.mem_range.mp listed

theorem emplace_of_lt {index : List (UInt32 × UInt64)} {key : UInt32} (value : UInt64)
    (below : ∀ entry ∈ index, entry.1 < key) : emplace index key value = index ++ [(key, value)] := by
  induction index with
  | nil => rfl
  | cons entry rest inductionHypothesis =>
      have before := UInt32.lt_iff_toNat_lt.mp (below entry List.mem_cons_self)
      have notBefore : ¬ key ≤ entry.1 := by
        rw [UInt32.le_iff_toNat_le]
        omega
      simp only [emplace, List.orderedInsert, notBefore, if_false, List.cons_append]
      rw [← emplace, inductionHypothesis (fun other member => below other (.tail _ member))]

theorem lookup_of_lt {index : List (UInt32 × UInt64)} {key : UInt32}
    (below : ∀ entry ∈ index, entry.1 < key) : index.lookup key = none := by
  induction index with
  | nil => rfl
  | cons entry rest inductionHypothesis =>
      have differs : (key == entry.1) = false :=
        beq_false_of_ne (UInt32.ne_of_lt (below entry List.mem_cons_self)).symm
      simp only [List.lookup, differs]
      exact inductionHypothesis (fun other member => below other (.tail _ member))

theorem WellFormed.lt_key {self : GeneratedTransactionsIndex} (wellFormed : self.WellFormed)
    {blockHeight : UInt32} (atLength : self.index.length = blockHeight.toNat) :
    ∀ entry ∈ self.index, entry.1 < blockHeight := by
  intro entry member
  have below := wellFormed.lt_length member
  rw [UInt32.lt_iff_toNat_lt]
  omega

theorem add_eq {self : GeneratedTransactionsIndex} (wellFormed : self.WellFormed)
    (enabled : self.enabled = true) {block : Block} {blockHeight : UInt32}
    (found : baseInputBlockIndex block = .ok blockHeight)
    (atLength : self.index.length = blockHeight.toNat) :
    self.add block = .ok (true, { self with
      index := self.index ++ [(blockHeight, self.lastGeneratedTxNumber +
        block.transactionHashes.length.toUInt64 + 1)]
      lastGeneratedTxNumber := self.lastGeneratedTxNumber +
        block.transactionHashes.length.toUInt64 + 1 }) := by
  have below := wellFormed.lt_key atLength
  simp only [add, enabled, Bool.not_true, Bool.false_eq_true, if_false, found, except_ok_bind,
    atLength, ne_eq, not_true_eq_false, lookup_of_lt below, Option.isSome_none,
    emplace_of_lt _ below]
  rfl

theorem add_cases {self next : GeneratedTransactionsIndex} (wellFormed : self.WellFormed)
    {block : Block} (added : self.add block = .ok (true, next)) :
    self.enabled = true ∧ ∃ blockHeight, baseInputBlockIndex block = .ok blockHeight ∧
      self.index.length = blockHeight.toNat ∧ next = { self with
        index := self.index ++ [(blockHeight, self.lastGeneratedTxNumber +
          block.transactionHashes.length.toUInt64 + 1)]
        lastGeneratedTxNumber := self.lastGeneratedTxNumber +
          block.transactionHashes.length.toUInt64 + 1 } := by
  rcases Bool.eq_false_or_eq_true self.enabled with enabled | disabled
  · cases found : baseInputBlockIndex block with
    | error message => simp [add, enabled, found] at added
    | ok blockHeight =>
        by_cases atLength : self.index.length = blockHeight.toNat
        · rw [add_eq wellFormed enabled found atLength] at added
          cases added
          exact ⟨enabled, blockHeight, rfl, atLength, rfl⟩
        · simp only [add, enabled, Bool.not_true, Bool.false_eq_true, ↓reduceIte, found, ne_eq,
            List.lookup_isSome_iff, beq_iff_eq, Prod.exists, exists_and_right, exists_eq_right',
            Nat.toUInt64_eq, ite_not, except_ok_bind, atLength] at added
          cases added
  · simp only [add, disabled, Bool.not_false, ↓reduceIte] at added
    cases added

theorem add_wellFormed {self next : GeneratedTransactionsIndex} (wellFormed : self.WellFormed)
    {block : Block} (added : self.add block = .ok (true, next)) : next.WellFormed := by
  obtain ⟨-, blockHeight, -, atLength, rfl⟩ := add_cases wellFormed added
  constructor
  · simp [wellFormed.heights, atLength, List.range_succ]
  · simp

theorem toNat_sub_one {height : UInt32} (positive : height ≠ 0) :
    (height - 1).toNat = height.toNat - 1 := by
  have nonzero : height.toNat ≠ 0 := fun zero => positive (UInt32.toNat_inj.mp (by simpa using zero))
  rw [UInt32.toNat_sub_of_le]
  · rfl
  · rw [UInt32.le_iff_toNat_le]
    simp
    omega

theorem toUInt64_length_sub_one {length : Nat} {height : UInt32} (atTop : height.toNat + 1 = length) :
    length.toUInt64 - 1 = height.toUInt64 := by
  apply UInt64.toNat_inj.mp
  have below := UInt32.toNat_lt height
  rw [UInt64.toNat_sub_of_le]
  · simp
    omega
  · rw [UInt64.le_iff_toNat_le]
    simp
    omega

theorem eq_append_of_heights {index : List (UInt32 × UInt64)} {n : Nat}
    (heights : index.map (·.1.toNat) = List.range (n + 1)) :
    ∃ init entry, index = init ++ [entry] ∧ entry.1.toNat = n ∧
      init.map (·.1.toNat) = List.range n := by
  have nonempty : index ≠ [] := by
    intro empty
    simp [empty] at heights
  refine ⟨index.dropLast, index.getLast nonempty, (List.dropLast_concat_getLast nonempty).symm, ?_⟩
  rw [List.range_succ, ← List.dropLast_concat_getLast nonempty, List.map_append] at heights
  have dropped : (index.dropLast.map (·.1.toNat)).length = (List.range n).length := by
    have counted := congrArg List.length heights
    simp only [List.length_append, List.length_map, List.length_singleton, List.length_range,
      Nat.add_right_cancel_iff] at counted
    simpa using counted
  obtain ⟨init, last⟩ := List.append_inj heights dropped
  exact ⟨by simpa using last, init⟩

theorem lookup_last {init : List (UInt32 × UInt64)} {entry : UInt32 × UInt64} {n : Nat}
    (heights : init.map (·.1.toNat) = List.range n) (top : entry.1.toNat = n) :
    (init ++ [entry]).lookup entry.1 = some entry.2 := by
  have below : ∀ other ∈ init, other.1 < entry.1 := by
    intro other member
    have listed : other.1.toNat ∈ init.map (·.1.toNat) := List.mem_map_of_mem member
    rw [heights, List.mem_range] at listed
    rw [UInt32.lt_iff_toNat_lt]
    omega
  obtain ⟨key, value⟩ := entry
  simp [List.lookup_append, lookup_of_lt below, List.lookup]

/-- `remove` of the block at the last height of a well-formed index drops that height and takes
the total of the height below. -/
theorem remove_eq {generated : GeneratedTransactionsIndex} (wellFormed : generated.WellFormed)
    (enabled : generated.enabled = true) {block : Block} {blockHeight : UInt32}
    (found : baseInputBlockIndex block = .ok blockHeight)
    (atTop : blockHeight.toNat + 1 = generated.index.length) :
    generated.remove block = .ok (true, { generated with
      index := generated.index.dropLast
      lastGeneratedTxNumber := ((generated.index.dropLast.getLast?).map (·.2)).getD 0 }) := by
  have allHeights := wellFormed.heights
  rw [← atTop] at allHeights
  obtain ⟨init, entry, shape, top, heights⟩ := eq_append_of_heights allHeights
  have sameHeight : entry.1 = blockHeight := UInt32.toNat_inj.mp top
  subst sameHeight
  have differs : ∀ other ∈ init, other.1 ≠ entry.1 := by
    intro other member same
    have listed : other.1.toNat ∈ init.map (·.1.toNat) := List.mem_map_of_mem member
    rw [heights, List.mem_range, same] at listed
    exact Nat.lt_irrefl _ listed
  have kept : (init ++ [entry]).filter (·.1 ≠ entry.1) = init := by
    rw [List.filter_append, List.filter_eq_self.mpr (by simpa using differs)]
    simp
  simp only [remove, enabled, Bool.not_true, Bool.false_eq_true, if_false, found, except_ok_bind]
  rw [toUInt64_length_sub_one atTop]
  simp only [ne_eq, not_true_eq_false, if_false, shape, lookup_last heights rfl, kept,
    List.dropLast_concat]
  by_cases zero : entry.1 = 0
  · have empty : init = [] := by
      have counted := congrArg List.length heights
      rw [zero] at counted
      simpa using counted
    simp only [zero, not_true_eq_false, if_false, empty, List.getLast?_nil, Option.map_none,
      Option.getD_none]
    rfl
  · have nonzero : entry.1.toNat ≠ 0 := fun isZero => zero (UInt32.toNat_inj.mp (by simpa using isZero))
    have lowerHeights : init.map (·.1.toNat) = List.range (entry.1.toNat - 1 + 1) := by
      rw [Nat.sub_add_cancel (Nat.pos_of_ne_zero nonzero)]
      exact heights
    obtain ⟨lower, previous, lowerShape, previousTop, belowPrevious⟩ :=
      eq_append_of_heights lowerHeights
    have previousHeight : previous.1 = entry.1 - 1 :=
      UInt32.toNat_inj.mp (by rw [previousTop, toNat_sub_one zero])
    simp only [zero, not_false_eq_true, if_true, lowerShape, ← previousHeight,
      lookup_last belowPrevious previousTop, List.getLast?_concat, Option.map_some,
      Option.getD_some]
    rfl

theorem WellFormed.length_le {generated : GeneratedTransactionsIndex}
    (wellFormed : generated.WellFormed) : generated.index.length ≤ 2 ^ 32 := by
  by_contra long
  have listed : 2 ^ 32 ∈ generated.index.map (·.1.toNat) := by
    rw [wellFormed.heights, List.mem_range]
    omega
  obtain ⟨entry, -, atBound⟩ := List.mem_map.mp listed
  have below := UInt32.toNat_lt entry.1
  omega

theorem atTop_of_check {length : Nat} {height : UInt32} (bounded : length ≤ 2 ^ 32)
    (passed : height.toUInt64 = length.toUInt64 - 1) : height.toNat + 1 = length := by
  have below := UInt32.toNat_lt height
  have counted := congrArg UInt64.toNat passed
  by_cases empty : length = 0
  · subst empty
    simp at counted
    omega
  · rw [UInt64.toNat_sub_of_le] at counted
    · simp at counted
      omega
    · rw [UInt64.le_iff_toNat_le]
      simp
      omega

theorem remove_cases {generated next : GeneratedTransactionsIndex}
    (wellFormed : generated.WellFormed) {block : Block}
    (removed : generated.remove block = .ok (true, next)) :
    generated.enabled = true ∧ ∃ blockHeight, baseInputBlockIndex block = .ok blockHeight ∧
      blockHeight.toNat + 1 = generated.index.length := by
  cases enabled : generated.enabled
  · simp only [remove, enabled, Bool.not_false, ↓reduceIte] at removed
    cases removed
  · cases found : baseInputBlockIndex block with
    | error message => simp [remove, enabled, found] at removed
    | ok blockHeight =>
        refine ⟨rfl, blockHeight, rfl, atTop_of_check wellFormed.length_le ?_⟩
        by_contra differs
        simp only [remove, enabled, Bool.not_true, Bool.false_eq_true, ↓reduceIte, found,
          Nat.toUInt64_eq, ne_eq, decide_not, ite_not, except_ok_bind, differs] at removed
        cases removed

theorem remove_wellFormed {generated next : GeneratedTransactionsIndex}
    (wellFormed : generated.WellFormed) {block : Block}
    (removed : generated.remove block = .ok (true, next)) : next.WellFormed := by
  obtain ⟨enabled, blockHeight, found, atTop⟩ := remove_cases wellFormed removed
  rw [remove_eq wellFormed enabled found atTop] at removed
  cases removed
  have allHeights := wellFormed.heights
  rw [← atTop] at allHeights
  obtain ⟨init, entry, shape, -, heights⟩ := eq_append_of_heights allHeights
  have counted := congrArg List.length heights
  simp only [List.length_map, List.length_range] at counted
  constructor
  · simp [shape, heights, counted]
  · rfl

theorem add_of_false {self next : GeneratedTransactionsIndex} {block : Block}
    (refused : self.add block = .ok (false, next)) : next = self := by
  unfold add at refused
  split at refused
  · cases refused
    rfl
  · obtain ⟨_, -, later⟩ := except_bind_eq_ok.mp refused
    split at later
    · cases later
      rfl
    · split at later <;> cases later
      rfl

theorem remove_of_false {self next : GeneratedTransactionsIndex} {block : Block}
    (refused : self.remove block = .ok (false, next)) : next = self := by
  unfold remove at refused
  split at refused
  · cases refused
    rfl
  · obtain ⟨_, -, later⟩ := except_bind_eq_ok.mp refused
    split at later
    · cases later
      rfl
    · split at later
      · cases later
      · dsimp only at later
        split at later
        · split at later <;> cases later
        · cases later

/-- The states a sequence of `add` and `remove` calls reaches, each call returning normally. -/
inductive Reaches : GeneratedTransactionsIndex → GeneratedTransactionsIndex → Prop
  | refl (generated : GeneratedTransactionsIndex) : Reaches generated generated
  | add {first second third : GeneratedTransactionsIndex} {block : Block} {added : Bool}
      (step : first.add block = .ok (added, second)) (rest : Reaches second third) :
      Reaches first third
  | remove {first second third : GeneratedTransactionsIndex} {block : Block} {removed : Bool}
      (step : first.remove block = .ok (removed, second)) (rest : Reaches second third) :
      Reaches first third

theorem wellFormed_empty (enabled : Bool) : WellFormed ⟨enabled, [], 0⟩ := ⟨rfl, rfl⟩

theorem Reaches.wellFormed {first last : GeneratedTransactionsIndex} (run : Reaches first last)
    (wellFormed : first.WellFormed) : last.WellFormed := by
  induction run with
  | refl => exact wellFormed
  | @add first second third block added step rest inductionHypothesis =>
      cases added with
      | false => exact inductionHypothesis (add_of_false step ▸ wellFormed)
      | true => exact inductionHypothesis (add_wellFormed wellFormed step)
  | @remove first second third block removed step rest inductionHypothesis =>
      cases removed with
      | false => exact inductionHypothesis (remove_of_false step ▸ wellFormed)
      | true => exact inductionHypothesis (remove_wellFormed wellFormed step)

theorem remove_add {self next : GeneratedTransactionsIndex} (wellFormed : self.WellFormed)
    {block : Block} (added : self.add block = .ok (true, next)) :
    next.remove block = .ok (true, self) := by
  obtain ⟨enabled, blockHeight, found, atLength, rfl⟩ := add_cases wellFormed added
  rw [remove_eq (add_wellFormed wellFormed added) enabled found (by simp [atLength])]
  simp only [List.dropLast_concat, ← wellFormed.last]

end GeneratedTransactionsIndex

end Dynex
