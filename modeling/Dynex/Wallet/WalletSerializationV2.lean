import Dynex.Core.TransactionSerializationProperties

/-!
# The wallet cache file

`WalletSerializerV2` (`Wallet/WalletSerializationV2.cpp`) writes the cache of a wallet with the
binary stream serializer and reads it back into the wallet's containers. In order: the save
level; the wallet keys, with their balances at `SAVE_ALL`; the transactions and the transfers,
from `SAVE_KEYS_AND_TRANSACTIONS` on; the synchronizer's state, the unlock jobs and the
uncommitted transactions, at `SAVE_ALL`; and the extra string. Transactions and transfers pass
through DTOs and a `serialize` function that runs in both directions.

The loops of the loaders read one record and then apply it to the wallet's containers. Reading
never depends on what was applied, so each loader here reads its records with `readMany` and
then applies them in order.
-/

set_option autoImplicit false

namespace Dynex.Wallet

open Codec Common Crypto

def NULL_SECRET_KEY : SecretKey := ⟨Pod.zero 32⟩

/-- `WalletTransactionState`, an enumeration over `uint8_t`. -/
inductive WalletTransactionState where
  | SUCCEEDED
  | FAILED
  | CANCELLED
  | CREATED
  | DELETED
  deriving DecidableEq, Repr

namespace WalletTransactionState

def toUInt8 : WalletTransactionState → UInt8
  | SUCCEEDED => 0
  | FAILED => 1
  | CANCELLED => 2
  | CREATED => 3
  | DELETED => 4

/-- `static_cast<WalletTransactionState>(value)`. The cast keeps any `uint8_t`; a value that no
enumerator names has no model here, and reading it fails. -/
def ofUInt8? (value : UInt8) : Option WalletTransactionState :=
  match value.toNat with
  | 0 => some SUCCEEDED
  | 1 => some FAILED
  | 2 => some CANCELLED
  | 3 => some CREATED
  | 4 => some DELETED
  | _ => none

end WalletTransactionState

/-- `WalletTransferType`, an enumeration over `uint8_t`. -/
inductive WalletTransferType where
  | USUAL
  | DONATION
  | CHANGE
  deriving DecidableEq, Repr

namespace WalletTransferType

def toUInt8 : WalletTransferType → UInt8
  | USUAL => 0
  | DONATION => 1
  | CHANGE => 2

/-- `static_cast<WalletTransferType>(value)`, with the same reading of values no enumerator
names. -/
def ofUInt8? (value : UInt8) : Option WalletTransferType :=
  match value.toNat with
  | 0 => some USUAL
  | 1 => some DONATION
  | 2 => some CHANGE
  | _ => none

end WalletTransferType

/-- `WalletSaveLevel`, an enumeration over `uint8_t`. -/
inductive WalletSaveLevel where
  | SAVE_KEYS_ONLY
  | SAVE_KEYS_AND_TRANSACTIONS
  | SAVE_ALL
  deriving DecidableEq, Repr

def WalletSaveLevel.toUInt8 : WalletSaveLevel → UInt8
  | SAVE_KEYS_ONLY => 0
  | SAVE_KEYS_AND_TRANSACTIONS => 1
  | SAVE_ALL => 2

/-- `WalletTransaction` of `IWallet.h`. -/
structure WalletTransaction where
  state : WalletTransactionState
  timestamp : UInt64
  blockHeight : UInt32
  hash : Hash
  secretKey : Option SecretKey
  totalAmount : Int64
  fee : UInt64
  creationTime : UInt64
  unlockTime : UInt64
  extra : List UInt8
  isBase : Bool
  deriving DecidableEq, Repr

/-- `WalletTransfer` of `IWallet.h`. -/
structure WalletTransfer where
  type : WalletTransferType
  address : List UInt8
  amount : Int64
  deriving DecidableEq, Repr

/-- `WalletRecord`, with the members the serializer reads; `container` names the record's
transfers container, which `WalletsContainer` indexes uniquely. -/
structure WalletRecord where
  spendPublicKey : PublicKey
  container : Nat
  pendingBalance : UInt64
  actualBalance : UInt64
  deriving DecidableEq, Repr

structure UnlockTransactionJob where
  blockHeight : UInt32
  container : Nat
  transactionHash : Hash
  deriving DecidableEq, Repr

/-- The members of `WalletGreen` a `WalletSerializerV2` holds references to, and its own sets of
added and deleted keys. `m_synchronizer` is the synchronizer's state as the bytes its `save`
writes and its `load` reads back. The `std::map` of uncommitted transactions is the list of its
entries in key order. -/
structure WalletCache where
  m_actualBalance : UInt64
  m_pendingBalance : UInt64
  m_walletsContainer : List WalletRecord
  m_synchronizer : List UInt8
  m_unlockTransactions : List UnlockTransactionJob
  m_transactions : List WalletTransaction
  m_transfers : List (UInt64 × WalletTransfer)
  m_uncommitedTransactions : List (UInt64 × Transaction)
  m_extra : List UInt8
  m_addedKeys : List PublicKey
  m_deletedKeys : List PublicKey

/-! ## The records as they are written -/

/-- `WalletTransactionDtoV2`. Its `boost::optional` secret key starts as `NULL_SECRET_KEY` and is
only ever replaced, so it is always engaged. -/
structure WalletTransactionDtoV2 where
  state : WalletTransactionState
  timestamp : UInt64
  blockHeight : UInt32
  hash : Hash
  totalAmount : Int64
  fee : UInt64
  creationTime : UInt64
  unlockTime : UInt64
  extra : List UInt8
  isBase : Bool
  secretKey : SecretKey
  deriving DecidableEq, Repr

/-- `WalletTransactionDtoV2(const WalletTransaction&)`. -/
def WalletTransactionDtoV2.ofWalletTransaction (wallet : WalletTransaction) :
    WalletTransactionDtoV2 where
  state := wallet.state
  timestamp := wallet.timestamp
  blockHeight := wallet.blockHeight
  hash := wallet.hash
  totalAmount := wallet.totalAmount
  fee := wallet.fee
  creationTime := wallet.creationTime
  unlockTime := wallet.unlockTime
  extra := wallet.extra
  isBase := wallet.isBase
  secretKey := wallet.secretKey.getD NULL_SECRET_KEY

/-- `WalletTransferDtoV2`. -/
structure WalletTransferDtoV2 where
  address : List UInt8
  amount : UInt64
  type : UInt8
  deriving DecidableEq, Repr

def WalletTransferDtoV2.ofWalletTransfer (tr : WalletTransfer) : WalletTransferDtoV2 :=
  ⟨tr.address, tr.amount.toUInt64, tr.type.toUInt8⟩

/-- `UnlockTransactionJobDtoV2`. -/
structure UnlockTransactionJobDtoV2 where
  blockHeight : UInt32
  transactionHash : Hash
  walletSpendPublicKey : PublicKey
  deriving DecidableEq, Repr

/-! ## Fields of the binary stream serializers -/

def writeInt64 (value : Int64) : List UInt8 := uint64.write value.toUInt64

def readInt64 : Reader Int64 := UInt64.toInt64 <$> uint64.read

def writeBool (value : Bool) : List UInt8 := [if value then 1 else 0]

def readBool : Reader Bool := (fun byte => byte != 0) <$> readByte

def readSecretKey : Reader SecretKey := SecretKey.mk <$> readPod 32

/-- `serializeBlockHeight` on input: a 64-bit varint, where the largest 64-bit value stands for
the largest 32-bit one and other values past 32 bits are refused. On output it writes the
`uint32_t` itself. -/
def readBlockHeight : Reader UInt32 := do
  let height ← uint64.read
  if height = UInt64.ofNat (2 ^ 64 - 1) then pure (UInt32.ofNat (2 ^ 32 - 1))
  else if height.toNat > 2 ^ 32 - 1 then Reader.fail "Deserialization error: wrong value"
  else pure height.toUInt32

/-! ## The DTOs -/

/-- `serialize(WalletTransactionDtoV2&)` on output. The state is written from a local that starts
at `0` and is never set from `value.state`. -/
def writeWalletTransactionDtoV2 (value : WalletTransactionDtoV2) : List UInt8 :=
  let state : UInt8 := 0
  uint8.write state ++ uint64.write value.timestamp ++ uint32.write value.blockHeight ++
    value.hash.pod.bytes ++ writeInt64 value.totalAmount ++ uint64.write value.fee ++
    uint64.write value.creationTime ++ uint64.write value.unlockTime ++ writeString value.extra ++
    writeBool value.isBase ++ value.secretKey.pod.bytes

/-- `value.state = static_cast<WalletTransactionState>(state)` on input. -/
def castState (state : UInt8) : Reader WalletTransactionState :=
  match WalletTransactionState.ofUInt8? state with
  | some state => pure state
  | none => Reader.fail "WalletTransactionState: no enumerator has this value"

/-- `serialize(WalletTransactionDtoV2&)` on input. -/
def readWalletTransactionDtoV2 : Reader WalletTransactionDtoV2 := do
  let stateValue ← uint8.read
  let state ← castState stateValue
  let timestamp ← uint64.read
  let blockHeight ← readBlockHeight
  let hash ← readHash
  let totalAmount ← readInt64
  let fee ← uint64.read
  let creationTime ← uint64.read
  let unlockTime ← uint64.read
  let extra ← readString
  let isBase ← readBool
  let secretKey ← readSecretKey
  pure ⟨state, timestamp, blockHeight, hash, totalAmount, fee, creationTime, unlockTime, extra,
    isBase, secretKey⟩

def writeWalletTransferDtoV2 (value : WalletTransferDtoV2) : List UInt8 :=
  writeString value.address ++ uint64.write value.amount ++ uint8.write value.type

/-- `serialize(WalletTransferDtoV2&)` on input. -/
def readWalletTransferDtoV2 : Reader WalletTransferDtoV2 := do
  let address ← readString
  let amount ← uint64.read
  let type ← uint8.read
  pure ⟨address, amount, type⟩

def writeUnlockTransactionJobDtoV2 (value : UnlockTransactionJobDtoV2) : List UInt8 :=
  uint32.write value.blockHeight ++ value.transactionHash.pod.bytes ++
    value.walletSpendPublicKey.pod.bytes

/-- `serialize(UnlockTransactionJobDtoV2&)` on input. -/
def readUnlockTransactionJobDtoV2 : Reader UnlockTransactionJobDtoV2 := do
  let blockHeight ← uint32.read
  let transactionHash ← readHash
  let walletSpendPublicKey ← readPublicKey
  pure ⟨blockHeight, transactionHash, walletSpendPublicKey⟩

/-! ## Saving -/

/-- `saveKeyListAndBanalces(serializer, saveCache)`. -/
def saveKeyListAndBanalces (walletsContainer : List WalletRecord) (saveCache : Bool) :
    List UInt8 :=
  uint64.write walletsContainer.length.toUInt64 ++
    walletsContainer.flatMap fun wallet =>
      wallet.spendPublicKey.pod.bytes ++
        if saveCache then uint64.write wallet.actualBalance ++ uint64.write wallet.pendingBalance
        else []

def saveTransactions (transactions : List WalletTransaction) : List UInt8 :=
  uint64.write transactions.length.toUInt64 ++
    transactions.flatMap fun tx => writeWalletTransactionDtoV2 (.ofWalletTransaction tx)

/-- `saveTransfers(serializer)`. -/
def saveTransfers (transfers : List (UInt64 × WalletTransfer)) : List UInt8 :=
  uint64.write transfers.length.toUInt64 ++
    transfers.flatMap fun entry =>
      uint64.write entry.1 ++ writeWalletTransferDtoV2 (.ofWalletTransfer entry.2)

def saveTransfersSynchronizer (synchronizer : List UInt8) : List UInt8 := writeString synchronizer

/-- The DTO of one unlock job: the key of the wallet whose container the job names. The source
only asserts that there is one; reading the key of the end iterator is reported as an error. -/
def unlockJobDto (walletsContainer : List WalletRecord) (job : UnlockTransactionJob) :
    Except String UnlockTransactionJobDtoV2 :=
  match walletsContainer.find? (fun wallet => wallet.container == job.container) with
  | none => throw "saveUnlockTransactionsJobs: no wallet has the job's container"
  | some wallet => pure ⟨job.blockHeight, job.transactionHash, wallet.spendPublicKey⟩

/-- `saveUnlockTransactionsJobs(serializer)`. -/
def saveUnlockTransactionsJobs (walletsContainer : List WalletRecord)
    (jobs : List UnlockTransactionJob) : Written := do
  let dtos ← jobs.mapM (unlockJobDto walletsContainer)
  pure (uint64.write jobs.length.toUInt64 ++ dtos.flatMap writeUnlockTransactionJobDtoV2)

/-- `serializeMap` of the uncommitted transactions on output: the count, then each key and
transaction, laid out as `serializeContainer` lays out its elements. -/
def saveUncommitedTransactions (uncommited : List (UInt64 × Transaction)) : Written :=
  writeContainer (fun entry => do
    let value ← writeTransaction entry.2
    pure (uint64.write entry.1 ++ value)) uncommited

/-- What `save` writes at `SAVE_ALL` only: the synchronizer's state, the unlock jobs and the
uncommitted transactions. -/
def saveAllData (cache : WalletCache) : Written := do
  let jobs ← saveUnlockTransactionsJobs cache.m_walletsContainer cache.m_unlockTransactions
  let uncommited ← saveUncommitedTransactions cache.m_uncommitedTransactions
  pure (saveTransfersSynchronizer cache.m_synchronizer ++ jobs ++ uncommited)

/-- `WalletSerializerV2::save(destination, saveLevel)`. -/
def save (cache : WalletCache) (saveLevel : WalletSaveLevel) : Written := do
  let saveAll := saveLevel == .SAVE_ALL
  let keys := saveKeyListAndBanalces cache.m_walletsContainer saveAll
  let transactions :=
    if saveLevel == .SAVE_KEYS_AND_TRANSACTIONS || saveAll then
      saveTransactions cache.m_transactions ++ saveTransfers cache.m_transfers
    else []
  let saved ← (if saveAll then saveAllData cache else pure [] : Written)
  pure (uint8.write saveLevel.toUInt8 ++ keys ++ transactions ++ saved ++ writeString cache.m_extra)

/-! ## Loading -/

def insertKey (keys : List PublicKey) (key : PublicKey) : List PublicKey :=
  if key ∈ keys then keys else keys ++ [key]

/-- One entry of the key list: the key, and the balances when the cache was saved. -/
def readWalletEntry (saveCache : Bool) : Reader (PublicKey × Option (UInt64 × UInt64)) := do
  let spendPublicKey ← readPublicKey
  if saveCache then do
    let actualBalance ← uint64.read
    let pendingBalance ← uint64.read
    pure (spendPublicKey, some (actualBalance, pendingBalance))
  else pure (spendPublicKey, none)

/-- The body of the loop of `loadKeyListAndBalances`: a key the container lacks is deleted; the
saved balances of a key it has are added to the totals and set on its wallet. -/
def loadWalletEntry (cache : WalletCache) (entry : PublicKey × Option (UInt64 × UInt64)) :
    WalletCache :=
  if cache.m_walletsContainer.any (fun wallet => wallet.spendPublicKey == entry.1) then
    match entry.2 with
    | none => cache
    | some (actualBalance, pendingBalance) =>
        { cache with
          m_actualBalance := cache.m_actualBalance + actualBalance
          m_pendingBalance := cache.m_pendingBalance + pendingBalance
          m_walletsContainer := cache.m_walletsContainer.map fun wallet =>
            if wallet.spendPublicKey = entry.1 then { wallet with actualBalance, pendingBalance }
            else wallet }
  else { cache with m_deletedKeys := insertKey cache.m_deletedKeys entry.1 }

/-- What `loadKeyListAndBalances` makes of the entries it read: the totals start from zero and
the deleted keys from none, each entry is applied in turn, and every wallet whose key the file
does not list is added. -/
def loadKeyList (cache : WalletCache) (entries : List (PublicKey × Option (UInt64 × UInt64))) :
    WalletCache :=
  let cache := { cache with m_actualBalance := 0, m_pendingBalance := 0, m_deletedKeys := [] }
  let cache := entries.foldl loadWalletEntry cache
  let cachedKeySet := entries.map Prod.fst
  { cache with
    m_addedKeys := (cache.m_walletsContainer.filter fun wallet =>
      wallet.spendPublicKey ∉ cachedKeySet).foldl
        (fun keys wallet => insertKey keys wallet.spendPublicKey) cache.m_addedKeys }

/-- `loadKeyListAndBalances(serializer, saveCache)`. -/
def loadKeyListAndBalances (cache : WalletCache) (saveCache : Bool) : Reader WalletCache := do
  let walletCount ← uint64.read
  let entries ← readMany (readWalletEntry saveCache) walletCount.toNat
  pure (loadKeyList cache entries)

/-- The `WalletTransaction` `loadTransactions` builds from a DTO. -/
def WalletTransactionDtoV2.toWalletTransaction (dto : WalletTransactionDtoV2) :
    WalletTransaction :=
  ⟨dto.state, dto.timestamp, dto.blockHeight, dto.hash, some dto.secretKey, dto.totalAmount,
    dto.fee, dto.creationTime, dto.unlockTime, dto.extra, dto.isBase⟩

/-- `emplace_back` into `WalletTransactions`, whose index by hash is unique: a transaction whose
hash is there is not added. -/
def emplaceTransaction (transactions : List WalletTransaction) (tx : WalletTransaction) :
    List WalletTransaction :=
  if transactions.any (fun other => other.hash == tx.hash) then transactions
  else transactions ++ [tx]

/-- `loadTransactions(serializer)`. -/
def loadTransactions (cache : WalletCache) : Reader WalletCache := do
  let count ← uint64.read
  let dtos ← readMany readWalletTransactionDtoV2 count.toNat
  pure { cache with
    m_transactions := dtos.foldl (fun transactions dto =>
      emplaceTransaction transactions dto.toWalletTransaction) cache.m_transactions }

/-- One entry of `loadTransfers`: the transaction id, then the transfer. -/
def readTransferEntry : Reader (UInt64 × WalletTransfer) := do
  let txId ← uint64.read
  let dto ← readWalletTransferDtoV2
  match WalletTransferType.ofUInt8? dto.type with
  | some type => pure (txId, ⟨type, dto.address, dto.amount.toInt64⟩)
  | none => Reader.fail "WalletTransferType: no enumerator has this value"

/-- `loadTransfers(serializer)`. -/
def loadTransfers (cache : WalletCache) : Reader WalletCache := do
  let count ← uint64.read
  let transfers ← readMany readTransferEntry count.toNat
  pure { cache with m_transfers := cache.m_transfers ++ transfers }

def loadTransfersSynchronizer (cache : WalletCache) : Reader WalletCache := do
  let transfersSynchronizerData ← readString
  pure { cache with m_synchronizer := transfersSynchronizerData }

/-- The body of the loop of `loadUnlockTransactionsJobs`: a job whose key names a wallet is
linked to that wallet's container; the others are dropped. -/
def loadUnlockJob (walletsContainer : List WalletRecord) (jobs : List UnlockTransactionJob)
    (dto : UnlockTransactionJobDtoV2) : List UnlockTransactionJob :=
  match walletsContainer.find? (fun wallet => wallet.spendPublicKey == dto.walletSpendPublicKey) with
  | none => jobs
  | some wallet => jobs ++ [⟨dto.blockHeight, wallet.container, dto.transactionHash⟩]

/-- `loadUnlockTransactionsJobs(serializer)`. -/
def loadUnlockTransactionsJobs (cache : WalletCache) : Reader WalletCache := do
  let jobsCount ← uint64.read
  let dtos ← readMany readUnlockTransactionJobDtoV2 jobsCount.toNat
  pure { cache with
    m_unlockTransactions := dtos.foldl (loadUnlockJob cache.m_walletsContainer)
      cache.m_unlockTransactions }

def emptyTransaction : Transaction :=
  { version := 0, unlockTime := 0, inputs := [], outputs := [], extra := [], signatures := [] }

/-- One entry of `serializeMap` on input: the key, then the transaction. -/
def readUncommitedEntry : Reader (UInt64 × Transaction) := do
  let key ← uint64.read
  let value ← readTransaction emptyTransaction
  pure (key, value)

/-- `insert` into the `std::map`, kept in key order: a key that is there keeps its value. -/
def insertUncommited (entries : List (UInt64 × Transaction)) (entry : UInt64 × Transaction) :
    List (UInt64 × Transaction) :=
  if entries.any (fun other => other.1 == entry.1) then entries
  else entries.filter (fun other => other.1 < entry.1) ++ entry ::
    entries.filter (fun other => entry.1 < other.1)

/-- `serializeMap` of the uncommitted transactions on input: the count and the entries, as
`serializeContainer` reads them, each inserted in turn. -/
def loadUncommitedTransactions (cache : WalletCache) : Reader WalletCache := do
  let entries ← readContainer readUncommitedEntry
  pure { cache with
    m_uncommitedTransactions := entries.foldl insertUncommited cache.m_uncommitedTransactions }

def loadTransactionsAndTransfers (cache : WalletCache) : Reader WalletCache := do
  let cache ← loadTransactions cache
  loadTransfers cache

/-- What `load` reads at `SAVE_ALL` only. -/
def loadAllData (cache : WalletCache) : Reader WalletCache := do
  let cache ← loadTransfersSynchronizer cache
  let cache ← loadUnlockTransactionsJobs cache
  loadUncommitedTransactions cache

/-- `WalletSerializerV2::load(source, version)`; the version is not read. -/
def load (cache : WalletCache) : Reader WalletCache := do
  let saveLevelValue ← uint8.read
  let saveAll := saveLevelValue == WalletSaveLevel.SAVE_ALL.toUInt8
  let cache ← loadKeyListAndBalances cache saveAll
  let cache ←
    (if saveLevelValue == WalletSaveLevel.SAVE_KEYS_AND_TRANSACTIONS.toUInt8 || saveAll then
      loadTransactionsAndTransfers cache
    else pure cache : Reader WalletCache)
  let cache ← (if saveAll then loadAllData cache else pure cache : Reader WalletCache)
  let m_extra ← readString
  pure { cache with m_extra }

end Dynex.Wallet
