import Dynex.Core.Basic
import Dynex.Core.TransactionExtra

/-!
# The non-privacy rule

`Blockchain::check_non_privacy` (`DynexCNCore/Blockchain.cpp`) accepts a transaction when its
extra names destination addresses and amounts, and the i-th amount is what the outputs derived
for the i-th address carry. It remembers each answer in `PrivacyMemBC`, keyed by the
transaction's hash. The derivation functions and the hash are parameters (`PrivacyCrypto`).

The loop over the destinations reads `amount[i]` having checked only that both lists are
nonempty. An extra with more destinations than amounts makes it read past the end of the amount
vector. The model returns an error at that read (`amountOutOfRange`).
-/

set_option autoImplicit false

namespace Dynex

open Codec Crypto

structure KeyDerivation where
  pod : Pod 32
  deriving DecidableEq, Repr

/-- The functions `check_non_privacy` calls that the model leaves uninterpreted. -/
structure PrivacyCrypto where
  getObjectHash : Transaction → Hash
  generate_key_derivation : PublicKey → SecretKey → Option KeyDerivation
  derive_public_key : KeyDerivation → Nat → PublicKey → PublicKey

def getAmountInt64 (amount : List UInt8) : Int64 :=
  (UInt64.ofNat (leValue (amount.take 8))).toInt64

/-- What the loop over the extra fields collects: the last tx key, and every destination and
every amount, in order. -/
structure NonPrivacyFields where
  tx_key : SecretKey
  to_address : List AccountPublicAddress
  amount : List Int64

def collectField (collected : NonPrivacyFields) : TransactionExtraField → NonPrivacyFields
  | .toAddress address => { collected with to_address := collected.to_address ++ [address] }
  | .amount amount => { collected with amount := collected.amount ++ [getAmountInt64 amount] }
  | .txkey tx_key => { collected with tx_key := tx_key }
  | _ => collected

def collectFields (fields : List TransactionExtraField) : NonPrivacyFields :=
  fields.foldl collectField ⟨⟨Pod.zero 32⟩, [], []⟩

def amountOutOfRange : String := "amount[i] past the end of the amount vector"

variable (crypto : PrivacyCrypto)

/-- `received` for one destination: the outputs whose key is the one derived at their index,
which counts every output, multisignature ones too. -/
def receivedAmount (derivation : KeyDerivation) (address : AccountPublicAddress) :
    Nat → List TransactionOutput → UInt64
  | _, [] => 0
  | keyIndex, o :: rest =>
      let later := receivedAmount derivation address (keyIndex + 1) rest
      match o.target with
      | .key out_key =>
          if crypto.derive_public_key derivation keyIndex address.spendPublicKey = out_key.key then
            o.amount + later
          else later
      | .multisignature _ => later

/-- The loop over the destinations from the `i`-th on. -/
def checkDestinations (tx_key : SecretKey) (outputs : List TransactionOutput)
    (amount : List Int64) : Nat → List AccountPublicAddress → Except String Bool
  | _, [] => .ok true
  | i, address :: rest =>
      match crypto.generate_key_derivation address.viewPublicKey tx_key with
      | none => .ok false
      | some derivation =>
          match amount[i]? with
          | none => .error amountOutOfRange
          | some expected =>
              if expected.toUInt64 ≠ receivedAmount crypto derivation address 0 outputs then .ok false
              else checkDestinations tx_key outputs amount (i + 1) rest

def extraFields (tx : Transaction) : NonPrivacyFields :=
  collectFields (parseTransactionExtra tx.extra).2

/-- The answer `check_non_privacy` computes when the transaction is not remembered. -/
def nonPrivacyAnswer (tx : Transaction) : Except String Bool :=
  let fields := extraFields tx
  if fields.amount.isEmpty ∨ fields.to_address.isEmpty then .ok false
  else checkDestinations crypto fields.tx_key tx.outputs fields.amount 0 fields.to_address

abbrev PrivacyMem := List (Hash × Bool)

/-- `check_non_privacy(tx)` over `PrivacyMemBC`: the answer and the map after the call. A map of
more than 1000 answers is cleared first. -/
def check_non_privacy (PrivacyMemBC : PrivacyMem) (tx : Transaction) :
    Except String (Bool × PrivacyMem) :=
  let txhash := crypto.getObjectHash tx
  let remembered := if PrivacyMemBC.length > 1000 then none else PrivacyMemBC.lookup txhash
  let PrivacyMemBC := if PrivacyMemBC.length > 1000 then [] else PrivacyMemBC
  match remembered with
  | some answer => .ok (answer, PrivacyMemBC)
  | none =>
      match nonPrivacyAnswer crypto tx with
      | .error message => .error message
      | .ok answer => .ok (answer, (txhash, answer) :: PrivacyMemBC)

/-! ## What the loop over the destinations computes -/

/-- Destination `address` is paid `expected`: its derivation succeeds and the outputs derived for
it carry `expected`. -/
def paysDestination (tx_key : SecretKey) (outputs : List TransactionOutput)
    (address : AccountPublicAddress) (expected : Int64) : Bool :=
  match crypto.generate_key_derivation address.viewPublicKey tx_key with
  | none => false
  | some derivation => expected.toUInt64 == receivedAmount crypto derivation address 0 outputs

/-- The loop answers whether every destination that has an amount is paid it; when all are and
destinations are left over, the first of those reads past the end of the amounts unless its
derivation fails. -/
theorem checkDestinations_eq (tx_key : SecretKey) (outputs : List TransactionOutput)
    (amount : List Int64) (i : Nat) (addresses : List AccountPublicAddress) :
    checkDestinations crypto tx_key outputs amount i addresses =
      if (addresses.zip (amount.drop i)).all
          (fun pair => paysDestination crypto tx_key outputs pair.1 pair.2) then
        match addresses[amount.length - i]? with
        | none => .ok true
        | some address =>
            if (crypto.generate_key_derivation address.viewPublicKey tx_key).isSome then
              .error amountOutOfRange
            else .ok false
      else .ok false := by
  induction addresses generalizing i with
  | nil => simp [checkDestinations]
  | cons address rest inductionHypothesis =>
      by_cases inside : i < amount.length
      · have remaining : amount.length - i = (amount.length - (i + 1)) + 1 := by omega
        rw [List.drop_eq_getElem_cons inside, remaining]
        cases derivation : crypto.generate_key_derivation address.viewPublicKey tx_key with
        | none =>
            have unpaid : paysDestination crypto tx_key outputs address amount[i] = false := by
              simp [paysDestination, derivation]
            simp [checkDestinations, derivation, unpaid]
        | some derived =>
            by_cases paid : amount[i].toUInt64 = receivedAmount crypto derived address 0 outputs
            · have pays : paysDestination crypto tx_key outputs address amount[i] = true := by
                simp [paysDestination, derivation, paid]
              simp [checkDestinations, derivation, List.getElem?_eq_getElem inside, paid,
                inductionHypothesis]
              simp only [pays, Bool.true_and]
            · have unpaid : paysDestination crypto tx_key outputs address amount[i] = false := by
                simp [paysDestination, derivation, paid]
              simp [checkDestinations, derivation, List.getElem?_eq_getElem inside, paid]
              simp only [unpaid, Bool.false_and, Bool.false_eq_true, if_false]
      · have none : amount.drop i = [] := List.drop_eq_nil_of_le (by omega)
        have past : amount.length - i = 0 := by omega
        cases derivation : crypto.generate_key_derivation address.viewPublicKey tx_key <;>
          simp [checkDestinations, derivation, none, past, List.getElem?_eq_none (by omega : amount.length ≤ i)]

def destinationsPaid (fields : NonPrivacyFields) (outputs : List TransactionOutput) : Bool :=
  (fields.to_address.zip fields.amount).all
    (fun pair => paysDestination crypto fields.tx_key outputs pair.1 pair.2)

theorem destinationsPaid_iff (fields : NonPrivacyFields) (outputs : List TransactionOutput) :
    destinationsPaid crypto fields outputs = true ↔
      ∀ i (toBound : i < fields.to_address.length) (amountBound : i < fields.amount.length),
        paysDestination crypto fields.tx_key outputs fields.to_address[i] fields.amount[i] = true := by
  simp only [destinationsPaid, List.all_eq_true, List.mem_iff_getElem, List.length_zip,
    List.getElem_zip]
  constructor
  · intro paid i toBound amountBound
    exact paid _ ⟨i, lt_min toBound amountBound, rfl⟩
  · rintro paid pair ⟨i, bound, rfl⟩
    exact paid i (lt_of_lt_of_le bound (min_le_left _ _)) (lt_of_lt_of_le bound (min_le_right _ _))

theorem nonPrivacyAnswer_eq (tx : Transaction) :
    nonPrivacyAnswer crypto tx =
      if (extraFields tx).amount.isEmpty ∨ (extraFields tx).to_address.isEmpty then .ok false
      else if destinationsPaid crypto (extraFields tx) tx.outputs then
        match (extraFields tx).to_address[(extraFields tx).amount.length]? with
        | none => .ok true
        | some address =>
            if (crypto.generate_key_derivation address.viewPublicKey (extraFields tx).tx_key).isSome
            then .error amountOutOfRange
            else .ok false
      else .ok false := by
  rw [nonPrivacyAnswer, checkDestinations_eq]
  simp only [List.drop_zero, Nat.sub_zero, destinationsPaid]
  rfl

/-- The only error is the read past the amounts, and it happens exactly when there are amounts,
every destination with one is paid it, and the next destination's derivation succeeds. -/
theorem nonPrivacyAnswer_error_iff (tx : Transaction) (message : String) :
    nonPrivacyAnswer crypto tx = .error message ↔
      message = amountOutOfRange ∧ (extraFields tx).amount ≠ [] ∧
        destinationsPaid crypto (extraFields tx) tx.outputs = true ∧
        ∃ address, (extraFields tx).to_address[(extraFields tx).amount.length]? = some address ∧
          (crypto.generate_key_derivation address.viewPublicKey (extraFields tx).tx_key).isSome
  := by
  rw [nonPrivacyAnswer_eq]
  by_cases empty : (extraFields tx).amount.isEmpty ∨ (extraFields tx).to_address.isEmpty
  · rw [if_pos empty]
    simp only [reduceCtorEq, false_iff]
    rintro ⟨_, amounts, _, address, past, _⟩
    rcases empty with noAmount | noAddress
    · exact amounts (List.isEmpty_iff.mp noAmount)
    · rw [List.isEmpty_iff.mp noAddress] at past
      cases past
  · rw [if_neg empty]
    have amounts : (extraFields tx).amount ≠ [] := fun none => empty (Or.inl (by simp [none]))
    cases paid : destinationsPaid crypto (extraFields tx) tx.outputs
    · simp
    · cases next : (extraFields tx).to_address[(extraFields tx).amount.length]? with
      | none => simp
      | some address =>
          by_cases derived : (crypto.generate_key_derivation address.viewPublicKey
              (extraFields tx).tx_key).isSome
          · simp only [derived, if_true, Except.error.injEq, amounts, ne_eq, not_false_eq_true,
              Option.some.injEq, exists_eq_left', and_true]
            exact eq_comm
          · simp [derived]

theorem nonPrivacyAnswer_of_amounts_cover (tx : Transaction)
    (cover : (extraFields tx).to_address.length ≤ (extraFields tx).amount.length) :
    nonPrivacyAnswer crypto tx =
      .ok ((extraFields tx).amount ≠ [] ∧ (extraFields tx).to_address ≠ [] ∧
        destinationsPaid crypto (extraFields tx) tx.outputs = true) := by
  have none : (extraFields tx).to_address[(extraFields tx).amount.length]? = none :=
    List.getElem?_eq_none cover
  rw [nonPrivacyAnswer_eq, none]
  by_cases amounts : (extraFields tx).amount = [] <;>
    by_cases addresses : (extraFields tx).to_address = [] <;>
    cases paid : destinationsPaid crypto (extraFields tx) tx.outputs <;>
    simp [amounts, addresses]

/-! ## The remembered answers -/

/-- What a call that answers did to the map: it found the answer there, or it computed it and
added it, to the map as it was or, past 1000 answers, to the cleared map. -/
theorem check_non_privacy_ok {PrivacyMemBC next : PrivacyMem} {tx : Transaction} {answer : Bool}
    (checked : check_non_privacy crypto PrivacyMemBC tx = .ok (answer, next)) :
    (PrivacyMemBC.length ≤ 1000 ∧ PrivacyMemBC.lookup (crypto.getObjectHash tx) = some answer ∧
        next = PrivacyMemBC) ∨
      (nonPrivacyAnswer crypto tx = .ok answer ∧
        (PrivacyMemBC.length ≤ 1000 → PrivacyMemBC.lookup (crypto.getObjectHash tx) = none) ∧
        next = (crypto.getObjectHash tx, answer) ::
          if PrivacyMemBC.length > 1000 then [] else PrivacyMemBC) := by
  simp only [check_non_privacy] at checked
  by_cases large : PrivacyMemBC.length > 1000
  · simp only [large, if_true] at checked
    cases computed : nonPrivacyAnswer crypto tx with
    | error message => simp only [computed, reduceCtorEq] at checked
    | ok computedAnswer =>
        simp only [computed, Except.ok.injEq, Prod.mk.injEq] at checked
        obtain ⟨rfl, rfl⟩ := checked
        exact Or.inr ⟨rfl, by omega, by simp only [large, if_true]⟩
  · simp only [large, if_false] at checked
    cases found : PrivacyMemBC.lookup (crypto.getObjectHash tx) with
    | some remembered =>
        simp only [found, Except.ok.injEq, Prod.mk.injEq] at checked
        obtain ⟨rfl, rfl⟩ := checked
        exact Or.inl ⟨by omega, rfl, rfl⟩
    | none =>
        cases computed : nonPrivacyAnswer crypto tx with
        | error message => simp only [found, computed, reduceCtorEq] at checked
        | ok computedAnswer =>
            simp only [found, computed, Except.ok.injEq, Prod.mk.injEq] at checked
            obtain ⟨rfl, rfl⟩ := checked
            exact Or.inr ⟨rfl, fun _ => rfl, by simp only [large, if_false]⟩

/-- What every map `check_non_privacy` leaves satisfies: one answer for each hash, as in a
`std::map`, and each of them the computed answer of a transaction with that hash. -/
structure SoundMem (PrivacyMemBC : PrivacyMem) : Prop where
  keys_nodup : (PrivacyMemBC.map Prod.fst).Nodup
  remembers : ∀ txhash answer, (txhash, answer) ∈ PrivacyMemBC →
    ∃ tx, crypto.getObjectHash tx = txhash ∧ nonPrivacyAnswer crypto tx = .ok answer

/-- The maps `PrivacyMemBC` goes through from the empty one, one call after another. -/
inductive ReachableMem : PrivacyMem → Prop where
  | empty : ReachableMem []
  | check {PrivacyMemBC next : PrivacyMem} {tx : Transaction} {answer : Bool} :
      ReachableMem PrivacyMemBC → check_non_privacy crypto PrivacyMemBC tx = .ok (answer, next) →
      ReachableMem next

theorem SoundMem.nil : SoundMem crypto [] :=
  ⟨List.nodup_nil, fun _ _ member => nomatch member⟩

theorem lookup_mem {PrivacyMemBC : PrivacyMem} {txhash : Hash} {answer : Bool}
    (found : PrivacyMemBC.lookup txhash = some answer) : (txhash, answer) ∈ PrivacyMemBC := by
  obtain ⟨front, back, split, _⟩ := List.lookup_eq_some_iff.mp found
  rw [split]
  exact List.mem_append_right _ List.mem_cons_self

theorem not_mem_keys_of_lookup {PrivacyMemBC : PrivacyMem} {txhash : Hash}
    (missing : PrivacyMemBC.lookup txhash = none) : txhash ∉ PrivacyMemBC.map Prod.fst := by
  intro member
  obtain ⟨entry, entryMember, rfl⟩ := List.mem_map.mp member
  have differs := List.lookup_eq_none_iff.mp missing entry entryMember
  simp at differs

theorem SoundMem.cons {PrivacyMemBC : PrivacyMem} {tx : Transaction} {answer : Bool}
    (sound : SoundMem crypto PrivacyMemBC) (computed : nonPrivacyAnswer crypto tx = .ok answer)
    (missing : PrivacyMemBC.lookup (crypto.getObjectHash tx) = none) :
    SoundMem crypto ((crypto.getObjectHash tx, answer) :: PrivacyMemBC) := by
  refine ⟨List.nodup_cons.mpr ⟨not_mem_keys_of_lookup missing, sound.keys_nodup⟩, ?_⟩
  intro txhash remembered member
  rcases List.mem_cons.mp member with added | earlier
  · simp only [Prod.mk.injEq] at added
    obtain ⟨rfl, rfl⟩ := added
    exact ⟨tx, rfl, computed⟩
  · exact sound.remembers _ _ earlier

theorem check_non_privacy_sound {PrivacyMemBC next : PrivacyMem} {tx : Transaction}
    {answer : Bool} (sound : SoundMem crypto PrivacyMemBC)
    (checked : check_non_privacy crypto PrivacyMemBC tx = .ok (answer, next)) :
    (∃ other, crypto.getObjectHash other = crypto.getObjectHash tx ∧
      nonPrivacyAnswer crypto other = .ok answer) ∧ SoundMem crypto next := by
  rcases check_non_privacy_ok crypto checked with ⟨_, found, rfl⟩ | ⟨computed, missing, rfl⟩
  · exact ⟨sound.remembers _ _ (lookup_mem found), sound⟩
  · refine ⟨⟨tx, rfl, computed⟩, ?_⟩
    split_ifs with large
    · exact SoundMem.nil crypto |>.cons crypto computed rfl
    · exact sound.cons crypto computed (missing (by omega))

theorem ReachableMem.sound {PrivacyMemBC : PrivacyMem}
    (reachable : ReachableMem crypto PrivacyMemBC) : SoundMem crypto PrivacyMemBC := by
  induction reachable with
  | empty => exact SoundMem.nil crypto
  | check _ checked inductionHypothesis =>
      exact (check_non_privacy_sound crypto inductionHypothesis checked).2

/-! ## The rule -/

/-- What `check_non_privacy` answers, from any map reachable from the empty one. The computed
answer fails only by reading past the amounts, exactly when there are amounts, every destination
with one is paid it, and the next destination's derivation succeeds. With an amount for every
destination it never fails and is true exactly when there are destinations and amounts and the
`i`-th destination is paid the `i`-th amount. A remembered answer is the computed answer of a
transaction with the same hash. -/
theorem check_non_privacy_exact_of_amounts_cover (PrivacyMemBC : PrivacyMem)
    (reachable : ReachableMem crypto PrivacyMemBC) (tx : Transaction) :
    (∀ message, nonPrivacyAnswer crypto tx = .error message ↔
      message = amountOutOfRange ∧ (extraFields tx).amount ≠ [] ∧
        (∀ i (toBound : i < (extraFields tx).to_address.length)
          (amountBound : i < (extraFields tx).amount.length),
          paysDestination crypto (extraFields tx).tx_key tx.outputs (extraFields tx).to_address[i]
            (extraFields tx).amount[i] = true) ∧
        ∃ address, (extraFields tx).to_address[(extraFields tx).amount.length]? = some address ∧
          (crypto.generate_key_derivation address.viewPublicKey (extraFields tx).tx_key).isSome) ∧
    ((extraFields tx).to_address.length ≤ (extraFields tx).amount.length →
      (nonPrivacyAnswer crypto tx = .ok true ↔
        (extraFields tx).amount ≠ [] ∧ (extraFields tx).to_address ≠ [] ∧
          ∀ i (toBound : i < (extraFields tx).to_address.length)
            (amountBound : i < (extraFields tx).amount.length),
            paysDestination crypto (extraFields tx).tx_key tx.outputs
              (extraFields tx).to_address[i] (extraFields tx).amount[i] = true) ∧
      ∃ answer, nonPrivacyAnswer crypto tx = .ok answer) ∧
    ∀ answer next, check_non_privacy crypto PrivacyMemBC tx = .ok (answer, next) →
      ∃ other, crypto.getObjectHash other = crypto.getObjectHash tx ∧
        nonPrivacyAnswer crypto other = .ok answer := by
  refine ⟨?_, ?_, ?_⟩
  · intro message
    rw [nonPrivacyAnswer_error_iff, destinationsPaid_iff]
  · intro cover
    rw [nonPrivacyAnswer_of_amounts_cover crypto tx cover, ← destinationsPaid_iff]
    exact ⟨by simp, ⟨_, rfl⟩⟩
  · intro answer next checked
    exact (check_non_privacy_sound crypto reachable.sound checked).1

def zeroCrypto : PrivacyCrypto :=
  ⟨fun _ => ⟨Pod.zero 32⟩, fun _ _ => some ⟨Pod.zero 32⟩, fun _ _ _ => ⟨Pod.zero 32⟩⟩

/-- A transaction with an empty extra has an amount for every destination, having neither. -/
theorem answer_of_empty_extra :
    ReachableMem zeroCrypto [] ∧
      ∃ answer, nonPrivacyAnswer zeroCrypto
        { version := 1, unlockTime := 0, inputs := [], outputs := [], extra := [],
          signatures := [] } = .ok answer :=
  ⟨.empty, ((check_non_privacy_exact_of_amounts_cover zeroCrypto [] .empty _).2.1 (by decide)).2⟩

def twoDestinationsOneAmount : List UInt8 :=
  TX_EXTRA_TO_ADDRESS :: List.replicate 64 0 ++ TX_EXTRA_TO_ADDRESS :: List.replicate 64 0 ++
    TX_EXTRA_AMOUNT :: List.replicate 8 0

theorem parse_twoDestinationsOneAmount :
    parseTransactionExtra twoDestinationsOneAmount =
      (true, [.toAddress ⟨⟨Pod.zero 32⟩, ⟨Pod.zero 32⟩⟩, .toAddress ⟨⟨Pod.zero 32⟩, ⟨Pod.zero 32⟩⟩,
        .amount (List.replicate 8 0)]) := by
  decide +kernel

def twoDestinationsTransaction : Transaction :=
  { version := 1, unlockTime := 0, inputs := [], outputs := [], extra := twoDestinationsOneAmount,
    signatures := [] }

theorem check_non_privacy_twoDestinations (crypto : PrivacyCrypto) :
    check_non_privacy crypto [] twoDestinationsTransaction =
      if (crypto.generate_key_derivation ⟨Pod.zero 32⟩ ⟨Pod.zero 32⟩).isSome then
        .error amountOutOfRange
      else .ok (false, [(crypto.getObjectHash twoDestinationsTransaction, false)]) := by
  have fields : extraFields twoDestinationsTransaction =
      ⟨⟨Pod.zero 32⟩, [⟨⟨Pod.zero 32⟩, ⟨Pod.zero 32⟩⟩, ⟨⟨Pod.zero 32⟩, ⟨Pod.zero 32⟩⟩],
        [getAmountInt64 (List.replicate 8 0)]⟩ := by
    rw [extraFields, show twoDestinationsTransaction.extra = twoDestinationsOneAmount from rfl,
      parse_twoDestinationsOneAmount]
    rfl
  simp only [check_non_privacy, nonPrivacyAnswer, fields]
  cases derivation : crypto.generate_key_derivation ⟨Pod.zero 32⟩ ⟨Pod.zero 32⟩ with
  | none => simp [checkDestinations, derivation]
  | some derived =>
      have noOutputs : twoDestinationsTransaction.outputs = [] := rfl
      have zeroAmount : (0 : Int64).toUInt64 = 0 := rfl
      simp [checkDestinations, derivation, noOutputs, receivedAmount, getAmountInt64, leValue,
        zeroAmount]

/-- With derivations that succeed, the check of that transaction on an empty map reads the
missing second amount. -/
theorem amount_read_past_end :
    check_non_privacy zeroCrypto [] twoDestinationsTransaction = .error amountOutOfRange := by
  rw [check_non_privacy_twoDestinations]
  rfl

end Dynex
