import Dynex.Wallet.WalletSerializationV2

/-!
# Loading what was saved

Each field reader of the wallet cache reads back what its writer wrote (`ReadsBack`), and the
loaders apply the records they read in the order they were saved. Put together, loading the
file a wallet was saved to into a wallet with the same keys and empty containers gives back the
saved wallet, with one exception in every transaction: its state is read as `SUCCEEDED`, since
`0` is written for it, and its secret key is present, since the DTO always holds one.
-/

set_option autoImplicit false

namespace Dynex.Wallet

open Codec Common Crypto

/-! ## Fields -/

theorem readInt64_readsBack (value : Int64) : ReadsBack readInt64 (writeInt64 value) value := by
  have read := ReadsBack.map UInt64.toInt64 (uint64.readsBack value.toUInt64)
  rwa [Int64.toInt64_toUInt64] at read

theorem readBool_readsBack (value : Bool) : ReadsBack readBool (writeBool value) value := by
  intro rest
  cases value <;> rfl

theorem readSecretKey_readsBack (key : SecretKey) : ReadsBack readSecretKey key.pod.bytes key :=
  ReadsBack.map SecretKey.mk (readPod_readsBack key.pod)

theorem readBlockHeight_readsBack (height : UInt32) :
    ReadsBack readBlockHeight (uint32.write height) height := by
  have widened : uint32.write height = uint64.write height.toUInt64 := by
    simp [Unsigned.write, uint32, uint64]
  have small : height.toUInt64.toNat < 2 ^ 32 := by simpa using height.toNat_lt
  intro rest
  rw [widened, readBlockHeight, Reader.bind_apply_of_ok (uint64.readsBack _ rest)]
  have notMax : height.toUInt64 ≠ UInt64.ofNat (2 ^ 64 - 1) := by
    intro same
    have largest : (UInt64.ofNat (2 ^ 64 - 1)).toNat = 2 ^ 64 - 1 := rfl
    rw [same, largest] at small
    omega
  rw [if_neg notMax, if_neg (by omega)]
  simp

/-! ## Records -/

theorem readWalletTransactionDtoV2_readsBack (value : WalletTransactionDtoV2)
    (fits : value.extra.length < 2 ^ 64) :
    ReadsBack readWalletTransactionDtoV2 (writeWalletTransactionDtoV2 value)
      { value with state := .SUCCEEDED } := by
  rw [← List.append_nil (writeWalletTransactionDtoV2 value)]
  simp only [writeWalletTransactionDtoV2, List.append_assoc]
  refine ReadsBack.bind (uint8.readsBack 0) ?_
  rw [show castState 0 = pure WalletTransactionState.SUCCEEDED from rfl]
  refine ReadsBack.pure_bind ?_
  refine ReadsBack.bind (uint64.readsBack value.timestamp) ?_
  refine ReadsBack.bind (readBlockHeight_readsBack value.blockHeight) ?_
  refine ReadsBack.bind (readHash_readsBack value.hash) ?_
  refine ReadsBack.bind (readInt64_readsBack value.totalAmount) ?_
  refine ReadsBack.bind (uint64.readsBack value.fee) ?_
  refine ReadsBack.bind (uint64.readsBack value.creationTime) ?_
  refine ReadsBack.bind (uint64.readsBack value.unlockTime) ?_
  refine ReadsBack.bind (readString_readsBack fits) ?_
  refine ReadsBack.bind (readBool_readsBack value.isBase) ?_
  refine ReadsBack.bind (readSecretKey_readsBack value.secretKey) ?_
  exact ReadsBack.pure _

theorem ofUInt8?_toUInt8 (type : WalletTransferType) :
    WalletTransferType.ofUInt8? type.toUInt8 = some type := by
  cases type <;> rfl

theorem readWalletTransferDtoV2_readsBack (value : WalletTransferDtoV2)
    (fits : value.address.length < 2 ^ 64) :
    ReadsBack readWalletTransferDtoV2 (writeWalletTransferDtoV2 value) value := by
  rw [← List.append_nil (writeWalletTransferDtoV2 value)]
  simp only [writeWalletTransferDtoV2, List.append_assoc]
  refine ReadsBack.bind (readString_readsBack fits) ?_
  refine ReadsBack.bind (uint64.readsBack value.amount) ?_
  refine ReadsBack.bind (uint8.readsBack value.type) ?_
  exact ReadsBack.pure _

theorem readTransferEntry_readsBack (txId : UInt64) (transfer : WalletTransfer)
    (fits : transfer.address.length < 2 ^ 64) :
    ReadsBack readTransferEntry
      (uint64.write txId ++ writeWalletTransferDtoV2 (.ofWalletTransfer transfer))
      (txId, transfer) := by
  rw [← List.append_nil (writeWalletTransferDtoV2 _)]
  refine ReadsBack.bind (uint64.readsBack txId) ?_
  refine ReadsBack.bind (readWalletTransferDtoV2_readsBack _ fits) ?_
  simp only [WalletTransferDtoV2.ofWalletTransfer, ofUInt8?_toUInt8, Int64.toInt64_toUInt64]
  exact ReadsBack.pure _

theorem readUnlockTransactionJobDtoV2_readsBack (value : UnlockTransactionJobDtoV2) :
    ReadsBack readUnlockTransactionJobDtoV2 (writeUnlockTransactionJobDtoV2 value) value := by
  rw [← List.append_nil (writeUnlockTransactionJobDtoV2 value)]
  simp only [writeUnlockTransactionJobDtoV2, List.append_assoc]
  refine ReadsBack.bind (uint32.readsBack value.blockHeight) ?_
  refine ReadsBack.bind (readHash_readsBack value.transactionHash) ?_
  refine ReadsBack.bind (readPublicKey_readsBack value.walletSpendPublicKey) ?_
  exact ReadsBack.pure _

/-- The bytes `saveKeyListAndBanalces` writes for one wallet. -/
def walletEntryBytes (saveCache : Bool) (wallet : WalletRecord) : List UInt8 :=
  wallet.spendPublicKey.pod.bytes ++
    if saveCache then uint64.write wallet.actualBalance ++ uint64.write wallet.pendingBalance
    else []

def walletEntry (saveCache : Bool) (wallet : WalletRecord) : PublicKey × Option (UInt64 × UInt64) :=
  (wallet.spendPublicKey, if saveCache then some (wallet.actualBalance, wallet.pendingBalance) else none)

theorem readWalletEntry_readsBack (saveCache : Bool) (wallet : WalletRecord) :
    ReadsBack (readWalletEntry saveCache) (walletEntryBytes saveCache wallet)
      (walletEntry saveCache wallet) := by
  cases saveCache with
  | false =>
      rw [walletEntryBytes, if_neg Bool.false_ne_true]
      exact ReadsBack.bind (readPublicKey_readsBack _) (ReadsBack.pure _)
  | true =>
      rw [walletEntryBytes, if_pos rfl, ← List.append_nil (uint64.write wallet.pendingBalance)]
      exact ReadsBack.bind (readPublicKey_readsBack _) (ReadsBack.bind (uint64.readsBack _)
        (ReadsBack.bind (uint64.readsBack _) (ReadsBack.pure _)))

/-! ## The loaders -/

theorem counted_readsBack {γ α β : Type} {reader : Reader α} {f : γ → α}
    {bytes : γ → List UInt8} {sources : List γ} (fits : sources.length < 2 ^ 64)
    (each : ∀ source ∈ sources, ReadsBack reader (bytes source) (f source))
    {next : List α → Reader β} {result : β} (tail : ReadsBack (next (sources.map f)) [] result) :
    ReadsBack (do let count ← uint64.read; let values ← readMany reader count.toNat; next values)
      (uint64.write sources.length.toUInt64 ++ sources.flatMap bytes) result := by
  rw [← List.append_nil (sources.flatMap bytes)]
  refine ReadsBack.bind (uint64.readsBack _) ?_
  rw [UInt64.toNat_ofNat_of_lt' fits]
  exact ReadsBack.bind (ReadsBack.readMany_map f bytes sources each) tail

theorem loadKeyListAndBalances_readsBack (cache : WalletCache) (saveCache : Bool)
    (wallets : List WalletRecord) (fits : wallets.length < 2 ^ 64) :
    ReadsBack (loadKeyListAndBalances cache saveCache) (saveKeyListAndBanalces wallets saveCache)
      (loadKeyList cache (wallets.map (walletEntry saveCache))) :=
  counted_readsBack fits (fun wallet _ => readWalletEntry_readsBack saveCache wallet)
    (ReadsBack.pure _)

def WalletTransaction.asSaved (tx : WalletTransaction) : WalletTransaction :=
  { tx with state := .SUCCEEDED, secretKey := some (tx.secretKey.getD NULL_SECRET_KEY) }

@[simp]
theorem toWalletTransaction_ofWalletTransaction (tx : WalletTransaction) :
    ({ WalletTransactionDtoV2.ofWalletTransaction tx with state := .SUCCEEDED } :
      WalletTransactionDtoV2).toWalletTransaction = tx.asSaved := rfl

theorem loadTransactions_readsBack (cache : WalletCache) (transactions : List WalletTransaction)
    (fits : transactions.length < 2 ^ 64)
    (extraFits : ∀ tx ∈ transactions, tx.extra.length < 2 ^ 64) :
    ReadsBack (loadTransactions cache) (saveTransactions transactions)
      { cache with
        m_transactions :=
          (transactions.map WalletTransaction.asSaved).foldl emplaceTransaction
            cache.m_transactions } := by
  refine counted_readsBack fits
    (fun tx member => readWalletTransactionDtoV2_readsBack _ (extraFits tx member)) ?_
  simp only [List.foldl_map, toWalletTransaction_ofWalletTransaction]
  exact ReadsBack.pure _

theorem loadTransfers_readsBack (cache : WalletCache) (transfers : List (UInt64 × WalletTransfer))
    (fits : transfers.length < 2 ^ 64)
    (addressFits : ∀ entry ∈ transfers, entry.2.address.length < 2 ^ 64) :
    ReadsBack (loadTransfers cache) (saveTransfers transfers)
      { cache with m_transfers := cache.m_transfers ++ transfers } := by
  refine @counted_readsBack _ _ _ _ id _ _ fits
    (fun entry member => readTransferEntry_readsBack entry.1 entry.2 (addressFits entry member)) _ _ ?_
  rw [List.map_id]
  exact ReadsBack.pure _

theorem loadTransfersSynchronizer_readsBack (cache : WalletCache) (synchronizer : List UInt8)
    (fits : synchronizer.length < 2 ^ 64) :
    ReadsBack (loadTransfersSynchronizer cache) (saveTransfersSynchronizer synchronizer)
      { cache with m_synchronizer := synchronizer } := by
  rw [saveTransfersSynchronizer, ← List.append_nil (writeString synchronizer)]
  exact ReadsBack.bind (readString_readsBack fits) (ReadsBack.pure _)

theorem loadUnlockTransactionsJobs_readsBack (cache : WalletCache)
    (dtos : List UnlockTransactionJobDtoV2) (fits : dtos.length < 2 ^ 64) :
    ReadsBack (loadUnlockTransactionsJobs cache)
      (uint64.write dtos.length.toUInt64 ++ dtos.flatMap writeUnlockTransactionJobDtoV2)
      { cache with
        m_unlockTransactions :=
          dtos.foldl (loadUnlockJob cache.m_walletsContainer) cache.m_unlockTransactions } := by
  refine @counted_readsBack _ _ _ _ id _ _ fits
    (fun dto _ => readUnlockTransactionJobDtoV2_readsBack dto) _ _ ?_
  rw [List.map_id]
  exact ReadsBack.pure _

theorem readUncommitedEntry_readsBack (entry : UInt64 × Transaction) (fits : entry.2.Fits)
    (normal : SignaturesNormal entry.2) {encoding : List UInt8}
    (written : (do
      let value ← writeTransaction entry.2
      pure (uint64.write entry.1 ++ value) : Written) = .ok encoding) :
    ReadsBack readUncommitedEntry encoding entry := by
  simp only [written_bind_ok] at written
  obtain ⟨value, valueWritten, joined⟩ := written
  cases joined
  rw [← List.append_nil value]
  exact ReadsBack.bind (uint64.readsBack entry.1)
    (ReadsBack.bind (readTransaction_readsBack rfl fits normal valueWritten) (ReadsBack.pure _))

theorem loadUncommitedTransactions_readsBack (cache : WalletCache)
    (uncommited : List (UInt64 × Transaction)) (fits : uncommited.length < 2 ^ 64)
    (each : ∀ entry ∈ uncommited, entry.2.Fits ∧ SignaturesNormal entry.2) {encoding : List UInt8}
    (written : saveUncommitedTransactions uncommited = .ok encoding) :
    ReadsBack (loadUncommitedTransactions cache) encoding
      { cache with
        m_uncommitedTransactions :=
          uncommited.foldl insertUncommited cache.m_uncommitedTransactions } := by
  have entries := @readContainer_readsBack _ readUncommitedEntry _ _ _
    (fun entry member _ entryWritten =>
      readUncommitedEntry_readsBack entry (each entry member).1 (each entry member).2 entryWritten)
    fits written
  rw [← List.append_nil encoding]
  exact ReadsBack.bind entries (ReadsBack.pure _)

/-! ## Applying the records read -/

theorem foldl_emplaceTransaction (added : List WalletTransaction) :
    ∀ (transactions : List WalletTransaction), ((transactions ++ added).map (·.hash)).Nodup →
      added.foldl emplaceTransaction transactions = transactions ++ added := by
  induction added with
  | nil => intro transactions _; simp
  | cons tx added inductionHypothesis =>
      intro transactions distinct
      have apart := (List.nodup_append.mp (List.map_append ▸ distinct)).2.2
      have fresh : ¬(transactions.any fun other => other.hash == tx.hash) = true := by
        simp only [List.any_eq_true, beq_iff_eq, not_exists, not_and]
        intro other member same
        exact apart _ (List.mem_map_of_mem member) _ (List.mem_map.mpr ⟨tx, List.mem_cons_self, rfl⟩) same
      have step : emplaceTransaction transactions tx = transactions ++ [tx] := by
        rw [emplaceTransaction, if_neg fresh]
      rw [List.foldl_cons, step, inductionHypothesis _ (by simpa using distinct)]
      simp

theorem foldl_insertUncommited (added : List (UInt64 × Transaction)) :
    ∀ (entries : List (UInt64 × Transaction)),
      (entries ++ added).Pairwise (fun left right => left.1 < right.1) →
        added.foldl insertUncommited entries = entries ++ added := by
  induction added with
  | nil => intro entries _; simp
  | cons entry added inductionHypothesis =>
      intro entries ordered
      have below : ∀ other ∈ entries, other.1 < entry.1 := fun other member =>
        (List.pairwise_append.mp ordered).2.2 other member entry List.mem_cons_self
      have fresh : ¬(entries.any fun other => other.1 == entry.1) = true := by
        simp only [List.any_eq_true, beq_iff_eq, not_exists, not_and]
        exact fun other member same => absurd (below other member) (same ▸ UInt64.lt_irrefl _)
      have step : insertUncommited entries entry = entries ++ [entry] := by
        rw [insertUncommited, if_neg fresh, List.filter_eq_self.mpr (by simpa using below),
          List.filter_eq_nil_iff.mpr (fun other member => by
            simpa using UInt64.lt_asymm (below other member))]
      rw [List.foldl_cons, step, inductionHypothesis _ (by simpa using ordered)]
      simp

def WalletRecord.keyAndContainer (wallet : WalletRecord) : PublicKey × Nat :=
  (wallet.spendPublicKey, wallet.container)

theorem keys_eq_of_aligned {target source : List WalletRecord}
    (aligned : target.map WalletRecord.keyAndContainer = source.map WalletRecord.keyAndContainer) :
    target.map (·.spendPublicKey) = source.map (·.spendPublicKey) := by
  have keys := congrArg (List.map Prod.fst) aligned
  simpa [List.map_map, Function.comp_def, WalletRecord.keyAndContainer] using keys

theorem any_spendPublicKey_of_mem {wallets : List WalletRecord} {key : PublicKey}
    (member : key ∈ wallets.map (·.spendPublicKey)) :
    (wallets.any fun wallet => wallet.spendPublicKey == key) = true := by
  obtain ⟨wallet, present, same⟩ := List.mem_map.mp member
  exact List.any_eq_true.mpr ⟨wallet, present, by simp [same]⟩

theorem find?_spendPublicKey {wallets : List WalletRecord}
    (distinct : (wallets.map (·.spendPublicKey)).Nodup) {pair : PublicKey × Nat}
    (member : pair ∈ wallets.map WalletRecord.keyAndContainer) :
    ∃ wallet, wallets.find? (fun wallet => wallet.spendPublicKey == pair.1) = some wallet ∧
      wallet.keyAndContainer = pair := by
  obtain ⟨owner, present, rfl⟩ := List.mem_map.mp member
  obtain ⟨wallet, found⟩ : ∃ wallet,
      wallets.find? (fun wallet => wallet.spendPublicKey == owner.spendPublicKey) = some wallet := by
    refine Option.isSome_iff_exists.mp (List.find?_isSome.mpr ⟨owner, present, ?_⟩)
    simp
  have same : wallet.spendPublicKey = owner.spendPublicKey := by
    simpa [WalletRecord.keyAndContainer] using List.find?_some found
  have equal := List.inj_on_of_nodup_map distinct (List.mem_of_find?_eq_some found) present same
  exact ⟨wallet, found, equal ▸ rfl⟩

/-- Setting the balances saved with a key changes only the wallet of that key, into the saved
wallet. -/
theorem map_setBalances {done remaining : List WalletRecord} {target saved : WalletRecord}
    (same : target.keyAndContainer = saved.keyAndContainer)
    (notDone : saved.spendPublicKey ∉ done.map (·.spendPublicKey))
    (notRemaining : saved.spendPublicKey ∉ remaining.map (·.spendPublicKey)) :
    (done ++ target :: remaining).map (fun wallet =>
      if wallet.spendPublicKey = saved.spendPublicKey then
        { wallet with
          actualBalance := saved.actualBalance, pendingBalance := saved.pendingBalance }
      else wallet) = done ++ saved :: remaining := by
  have unchanged : ∀ others : List WalletRecord,
      saved.spendPublicKey ∉ others.map (·.spendPublicKey) →
        others.map (fun wallet =>
          if wallet.spendPublicKey = saved.spendPublicKey then
            { wallet with
              actualBalance := saved.actualBalance, pendingBalance := saved.pendingBalance }
          else wallet) = others := by
    intro others absent
    calc _ = others.map (fun wallet => wallet) := List.map_congr_left fun wallet member =>
            if_neg fun (equal : wallet.spendPublicKey = saved.spendPublicKey) =>
              absent (equal ▸ List.mem_map_of_mem member)
      _ = others := List.map_id' others
  have record : { target with
      actualBalance := saved.actualBalance, pendingBalance := saved.pendingBalance } = saved := by
    cases target
    cases saved
    simp_all [WalletRecord.keyAndContainer]
  have key : target.spendPublicKey = saved.spendPublicKey := congrArg Prod.fst same
  rw [List.map_append, List.map_cons, unchanged done notDone, unchanged remaining notRemaining,
    if_pos key, record]

/-- The key list saved with balances, applied to a container with the same keys and containers:
the wallets before `remaining` are the saved ones already, and each entry turns the next wallet
into the saved one and adds its balances to the totals. -/
theorem foldl_loadWalletEntry_saved (saved : List WalletRecord) :
    ∀ (done remaining : List WalletRecord) (cache : WalletCache),
      cache.m_walletsContainer = done ++ remaining →
      remaining.map WalletRecord.keyAndContainer = saved.map WalletRecord.keyAndContainer →
      ((done ++ saved).map (·.spendPublicKey)).Nodup →
      (saved.map (walletEntry true)).foldl loadWalletEntry cache =
        { cache with
          m_actualBalance := cache.m_actualBalance + (saved.map (·.actualBalance)).sum
          m_pendingBalance := cache.m_pendingBalance + (saved.map (·.pendingBalance)).sum
          m_walletsContainer := done ++ saved } := by
  induction saved with
  | nil =>
      intro done remaining cache wallets aligned _
      obtain rfl : remaining = [] := List.map_eq_nil_iff.mp aligned
      simp only [List.map_nil, List.foldl_nil, List.sum_nil, add_zero, ← wallets]
  | cons wallet saved inductionHypothesis =>
      intro done remaining cache wallets aligned distinct
      obtain ⟨target, others, rfl, same, othersAligned⟩ := List.map_eq_cons_iff.mp aligned
      have apart := (List.nodup_append.mp (List.map_append ▸ distinct)).2.2
      have notDone : wallet.spendPublicKey ∉ done.map (·.spendPublicKey) := fun member =>
        apart _ member _ List.mem_cons_self rfl
      have notOthers : wallet.spendPublicKey ∉ others.map (·.spendPublicKey) := by
        rw [keys_eq_of_aligned othersAligned]
        exact (List.nodup_cons.mp (List.nodup_append.mp (List.map_append ▸ distinct)).2.1).1
      have present : wallet.spendPublicKey ∈ cache.m_walletsContainer.map (·.spendPublicKey) := by
        have key : target.spendPublicKey = wallet.spendPublicKey := congrArg Prod.fst same
        rw [wallets, List.map_append, List.map_cons, key]
        exact List.mem_append_right _ List.mem_cons_self
      have step : loadWalletEntry cache (walletEntry true wallet) =
          { cache with
            m_actualBalance := cache.m_actualBalance + wallet.actualBalance
            m_pendingBalance := cache.m_pendingBalance + wallet.pendingBalance
            m_walletsContainer := (done ++ [wallet]) ++ others } := by
        rw [loadWalletEntry]
        simp only [walletEntry, ↓reduceIte]
        rw [if_pos (any_spendPublicKey_of_mem present)]
        simp only [wallets, map_setBalances same notDone notOthers, List.append_assoc,
          List.singleton_append]
      rw [List.map_cons, List.foldl_cons, step,
        inductionHypothesis _ others _ rfl othersAligned (by simpa using distinct)]
      simp only [List.map_cons, List.sum_cons, add_assoc, List.append_assoc, List.singleton_append]

theorem foldl_loadWalletEntry_unsaved (saved : List WalletRecord) :
    ∀ (cache : WalletCache),
      (∀ wallet ∈ saved, wallet.spendPublicKey ∈ cache.m_walletsContainer.map (·.spendPublicKey)) →
        (saved.map (walletEntry false)).foldl loadWalletEntry cache = cache := by
  induction saved with
  | nil => intro cache _; rfl
  | cons wallet saved inductionHypothesis =>
      intro cache present
      have step : loadWalletEntry cache (walletEntry false wallet) = cache := by
        rw [loadWalletEntry]
        simp only [walletEntry, Bool.false_eq_true, ↓reduceIte]
        rw [if_pos (any_spendPublicKey_of_mem (present wallet List.mem_cons_self))]
      rw [List.map_cons, List.foldl_cons, step]
      exact inductionHypothesis cache fun other member => present other (List.mem_cons_of_mem _ member)

/-- The wallets and totals a saved key list gives back, into a container with the same keys and
containers: with balances, the saved wallets and their sums; without, the container's wallets
and zero totals. No key is deleted and none is added. -/
theorem loadKeyList_walletEntry (target : WalletCache) (saved : List WalletRecord)
    (saveCache : Bool)
    (aligned : target.m_walletsContainer.map WalletRecord.keyAndContainer =
      saved.map WalletRecord.keyAndContainer)
    (distinct : (saved.map (·.spendPublicKey)).Nodup) :
    loadKeyList target (saved.map (walletEntry saveCache)) =
      { target with
        m_actualBalance := if saveCache then (saved.map (·.actualBalance)).sum else 0
        m_pendingBalance := if saveCache then (saved.map (·.pendingBalance)).sum else 0
        m_walletsContainer := if saveCache then saved else target.m_walletsContainer
        m_deletedKeys := [] } := by
  have listed : (saved.map (walletEntry saveCache)).map Prod.fst = saved.map (·.spendPublicKey) := by
    simp [List.map_map, Function.comp_def, walletEntry]
  have noneAdded : ∀ wallets : List WalletRecord,
      (∀ wallet ∈ wallets, wallet.spendPublicKey ∈ saved.map (·.spendPublicKey)) →
        (wallets.filter fun wallet => wallet.spendPublicKey ∉ saved.map (·.spendPublicKey)) = [] :=
    fun wallets listedAll => List.filter_eq_nil_iff.mpr fun wallet member => by
      simpa using listedAll wallet member
  have present : ∀ wallet ∈ target.m_walletsContainer,
      wallet.spendPublicKey ∈ saved.map (·.spendPublicKey) := by
    rw [← keys_eq_of_aligned aligned]
    exact fun wallet member => List.mem_map_of_mem member
  cases saveCache with
  | false =>
      have fold := foldl_loadWalletEntry_unsaved saved
        { target with m_actualBalance := 0, m_pendingBalance := 0, m_deletedKeys := [] }
        (by rw [keys_eq_of_aligned aligned]; exact fun wallet member => List.mem_map_of_mem member)
      simp only [loadKeyList, fold, listed, noneAdded _ present, List.foldl_nil,
        Bool.false_eq_true, ↓reduceIte]
  | true =>
      have fold := foldl_loadWalletEntry_saved saved [] target.m_walletsContainer
        { target with m_actualBalance := 0, m_pendingBalance := 0, m_deletedKeys := [] } rfl
        aligned (by simpa using distinct)
      have savedListed := noneAdded saved fun wallet member => List.mem_map_of_mem member
      simp only [loadKeyList, fold, listed, List.nil_append, savedListed, List.foldl_nil, zero_add,
        ↓reduceIte]

theorem unlockJobDto_ok {wallets : List WalletRecord} {job : UnlockTransactionJob}
    {dto : UnlockTransactionJobDtoV2} (made : unlockJobDto wallets job = .ok dto) :
    ∃ wallet, wallets.find? (fun wallet => wallet.container == job.container) = some wallet ∧
      dto = ⟨job.blockHeight, job.transactionHash, wallet.spendPublicKey⟩ := by
  unfold unlockJobDto at made
  split at made
  · cases made
  · rename_i wallet found
    exact ⟨wallet, found, (Except.ok.inj made).symm⟩

/-- The unlock jobs saved with the key of their container's wallet are linked back to their
containers, in a container with the same keys and containers. -/
theorem foldl_loadUnlockJob {target source : List WalletRecord}
    (aligned : target.map WalletRecord.keyAndContainer = source.map WalletRecord.keyAndContainer)
    (distinct : (source.map (·.spendPublicKey)).Nodup) (jobs : List UnlockTransactionJob) :
    ∀ (dtos : List UnlockTransactionJobDtoV2) (linked : List UnlockTransactionJob),
      jobs.mapM (unlockJobDto source) = .ok dtos →
        dtos.length = jobs.length ∧ dtos.foldl (loadUnlockJob target) linked = linked ++ jobs := by
  induction jobs with
  | nil =>
      intro dtos linked saved
      cases saved
      simp
  | cons job jobs inductionHypothesis =>
      intro dtos linked saved
      simp only [List.mapM_cons, except_bind_ok] at saved
      obtain ⟨dto, dtoSaved, rest, restSaved, joined⟩ := saved
      cases joined
      obtain ⟨wallet, found, rfl⟩ := unlockJobDto_ok dtoSaved
      have listed : wallet.keyAndContainer ∈ target.map WalletRecord.keyAndContainer :=
        aligned ▸ List.mem_map_of_mem (List.mem_of_find?_eq_some found)
      obtain ⟨owner, ownerFound, same⟩ :=
        find?_spendPublicKey (keys_eq_of_aligned aligned ▸ distinct) listed
      have container : owner.container = job.container := by
        have ofWallet : owner.container = wallet.container := congrArg Prod.snd same
        exact ofWallet.trans (by simpa using List.find?_some found)
      have step : loadUnlockJob target linked ⟨job.blockHeight, job.transactionHash,
          wallet.spendPublicKey⟩ = linked ++ [job] := by
        simp only [loadUnlockJob]
        rw [show wallet.spendPublicKey = wallet.keyAndContainer.1 from rfl, ownerFound]
        show linked ++ [⟨job.blockHeight, owner.container, job.transactionHash⟩] = linked ++ [job]
        rw [container]
      obtain ⟨counted, folded⟩ := inductionHypothesis rest (linked ++ [job]) restSaved
      refine ⟨by simp [counted], ?_⟩
      rw [List.foldl_cons, step, folded, List.append_assoc, List.singleton_append]

/-! ## The round trip -/

/-- What the containers of a `WalletGreen` keep, and what the file's counts and strings hold:
keys and transaction hashes are indexed uniquely, the map of uncommitted transactions is ordered
by key and holds well-formed transactions, and every list and string is shorter than `2 ^ 64`. -/
structure WalletCache.Valid (cache : WalletCache) : Prop where
  keys_nodup : (cache.m_walletsContainer.map (·.spendPublicKey)).Nodup
  hashes_nodup : (cache.m_transactions.map (·.hash)).Nodup
  uncommited_ordered : cache.m_uncommitedTransactions.Pairwise fun left right => left.1 < right.1
  uncommited_normal : ∀ entry ∈ cache.m_uncommitedTransactions,
    entry.2.Fits ∧ SignaturesNormal entry.2
  wallets_fit : cache.m_walletsContainer.length < 2 ^ 64
  transactions_fit : cache.m_transactions.length < 2 ^ 64
  extras_fit : ∀ tx ∈ cache.m_transactions, tx.extra.length < 2 ^ 64
  transfers_fit : cache.m_transfers.length < 2 ^ 64
  addresses_fit : ∀ entry ∈ cache.m_transfers, entry.2.address.length < 2 ^ 64
  synchronizer_fits : cache.m_synchronizer.length < 2 ^ 64
  jobs_fit : cache.m_unlockTransactions.length < 2 ^ 64
  uncommited_fit : cache.m_uncommitedTransactions.length < 2 ^ 64
  extra_fits : cache.m_extra.length < 2 ^ 64

/-- A wallet to load a file into: the keys and containers of the saved wallet, and no
transactions, transfers, unlock jobs or uncommitted transactions yet. -/
structure WalletCache.LoadsFrom (target source : WalletCache) : Prop where
  same_wallets : target.m_walletsContainer.map WalletRecord.keyAndContainer =
    source.m_walletsContainer.map WalletRecord.keyAndContainer
  no_transactions : target.m_transactions = []
  no_transfers : target.m_transfers = []
  no_jobs : target.m_unlockTransactions = []
  no_uncommited : target.m_uncommitedTransactions = []

/-- What `load` gives back, into `target`, from the file `save` wrote of `source` at
`saveLevel`. -/
def reloaded (target source : WalletCache) (saveLevel : WalletSaveLevel) : WalletCache :=
  let saveAll := saveLevel == .SAVE_ALL
  let withTransactions := saveLevel == .SAVE_KEYS_AND_TRANSACTIONS || saveAll
  { target with
    m_actualBalance :=
      if saveAll then (source.m_walletsContainer.map (·.actualBalance)).sum else 0
    m_pendingBalance :=
      if saveAll then (source.m_walletsContainer.map (·.pendingBalance)).sum else 0
    m_walletsContainer := if saveAll then source.m_walletsContainer else target.m_walletsContainer
    m_transactions :=
      if withTransactions then source.m_transactions.map WalletTransaction.asSaved
      else target.m_transactions
    m_transfers := if withTransactions then source.m_transfers else target.m_transfers
    m_synchronizer := if saveAll then source.m_synchronizer else target.m_synchronizer
    m_unlockTransactions :=
      if saveAll then source.m_unlockTransactions else target.m_unlockTransactions
    m_uncommitedTransactions :=
      if saveAll then source.m_uncommitedTransactions else target.m_uncommitedTransactions
    m_extra := source.m_extra
    m_deletedKeys := [] }

theorem WalletSaveLevel.toUInt8_beq (left right : WalletSaveLevel) :
    (left.toUInt8 == right.toUInt8) = (left == right) := by
  cases left <;> cases right <;> rfl

section RoundTrip

variable {source : WalletCache} (valid : source.Valid)
include valid

theorem loadTransactionsAndTransfers_readsBack {cache : WalletCache}
    (noTransactions : cache.m_transactions = []) (noTransfers : cache.m_transfers = []) :
    ReadsBack (loadTransactionsAndTransfers cache)
      (saveTransactions source.m_transactions ++ saveTransfers source.m_transfers)
      { cache with
        m_transactions := source.m_transactions.map WalletTransaction.asSaved
        m_transfers := source.m_transfers } := by
  have distinct : ((([] : List WalletTransaction) ++
      source.m_transactions.map WalletTransaction.asSaved).map
      (·.hash)).Nodup := by
    simpa [List.map_map, Function.comp_def, WalletTransaction.asSaved] using valid.hashes_nodup
  refine ReadsBack.bind
    (loadTransactions_readsBack cache _ valid.transactions_fit valid.extras_fit) ?_
  rw [noTransactions, foldl_emplaceTransaction _ [] distinct, List.nil_append]
  have transfers := loadTransfers_readsBack
    { cache with m_transactions := source.m_transactions.map WalletTransaction.asSaved }
    _ valid.transfers_fit valid.addresses_fit
  rwa [show cache.m_transfers ++ source.m_transfers = source.m_transfers by
    rw [noTransfers, List.nil_append]] at transfers

/-- The synchronizer's state, the unlock jobs and the uncommitted transactions, read into a wallet
with the saved keys and containers and with no jobs and no uncommitted transactions. -/
theorem loadSavedAll_readsBack {cache : WalletCache}
    (aligned : cache.m_walletsContainer.map WalletRecord.keyAndContainer =
      source.m_walletsContainer.map WalletRecord.keyAndContainer)
    (noJobs : cache.m_unlockTransactions = []) (noUncommited : cache.m_uncommitedTransactions = [])
    {encoding : List UInt8}
    (written : saveAllData source = .ok encoding) :
    ReadsBack (loadAllData cache) encoding
      { cache with
        m_synchronizer := source.m_synchronizer
        m_unlockTransactions := source.m_unlockTransactions
        m_uncommitedTransactions := source.m_uncommitedTransactions } := by
  simp only [saveAllData, saveUnlockTransactionsJobs, except_bind_ok] at written
  obtain ⟨jobBytes, ⟨dtos, dtosMade, jobsJoined⟩, uncommitedBytes, uncommitedWritten, joined⟩ :=
    written
  cases jobsJoined
  cases joined
  obtain ⟨counted, linked⟩ := foldl_loadUnlockJob aligned valid.keys_nodup _ dtos [] dtosMade
  have dtosFit : dtos.length < 2 ^ 64 := counted ▸ valid.jobs_fit
  have ordered : (([] : List (UInt64 × Transaction)) ++ source.m_uncommitedTransactions).Pairwise
      (fun left right => left.1 < right.1) := valid.uncommited_ordered
  rw [List.append_assoc, ← counted]
  refine ReadsBack.bind (loadTransfersSynchronizer_readsBack cache _ valid.synchronizer_fits) ?_
  refine ReadsBack.bind (loadUnlockTransactionsJobs_readsBack _ dtos dtosFit) ?_
  set linkedCache := { cache with
    m_synchronizer := source.m_synchronizer
    m_unlockTransactions := source.m_unlockTransactions }
  have noneYet : linkedCache.m_uncommitedTransactions = [] := noUncommited
  have uncommited := loadUncommitedTransactions_readsBack linkedCache _ valid.uncommited_fit
    valid.uncommited_normal uncommitedWritten
  rw [noneYet, foldl_insertUncommited _ [] ordered, List.nil_append] at uncommited
  simp only [noJobs, linked, List.nil_append]
  exact uncommited

theorem loadTransactionsPart_readsBack (withTransactions : Bool) {cache : WalletCache}
    (noTransactions : cache.m_transactions = []) (noTransfers : cache.m_transfers = []) :
    ReadsBack (if withTransactions then loadTransactionsAndTransfers cache else pure cache)
      (if withTransactions then
        saveTransactions source.m_transactions ++ saveTransfers source.m_transfers else [])
      (if withTransactions then
        { cache with
          m_transactions := source.m_transactions.map WalletTransaction.asSaved
          m_transfers := source.m_transfers }
        else cache) := by
  cases withTransactions with
  | false => exact ReadsBack.pure cache
  | true => exact loadTransactionsAndTransfers_readsBack valid noTransactions noTransfers

theorem loadSavedPart_readsBack (saveAll : Bool) {cache : WalletCache}
    (aligned : cache.m_walletsContainer.map WalletRecord.keyAndContainer =
      source.m_walletsContainer.map WalletRecord.keyAndContainer)
    (noJobs : cache.m_unlockTransactions = []) (noUncommited : cache.m_uncommitedTransactions = [])
    {encoding : List UInt8}
    (written : (if saveAll then saveAllData source else pure [] : Written) = .ok encoding) :
    ReadsBack (if saveAll then loadAllData cache else pure cache) encoding
      (if saveAll then
        { cache with
          m_synchronizer := source.m_synchronizer
          m_unlockTransactions := source.m_unlockTransactions
          m_uncommitedTransactions := source.m_uncommitedTransactions }
        else cache) := by
  cases saveAll with
  | false =>
      cases written
      exact ReadsBack.pure cache
  | true => exact loadSavedAll_readsBack valid aligned noJobs noUncommited written

theorem load_readsBack {target : WalletCache} (fresh : target.LoadsFrom source)
    (saveLevel : WalletSaveLevel) {bytes : List UInt8} (saved : save source saveLevel = .ok bytes) :
    ReadsBack (load target) bytes (reloaded target source saveLevel) := by
  simp only [save, except_bind_ok] at saved
  obtain ⟨savedBytes, savedWritten, joined⟩ := saved
  cases joined
  have keysAligned : (if (saveLevel == .SAVE_ALL) = true then source.m_walletsContainer
      else target.m_walletsContainer).map WalletRecord.keyAndContainer =
        source.m_walletsContainer.map WalletRecord.keyAndContainer := by
    split
    · rfl
    · exact fresh.same_wallets
  rw [← List.append_nil (writeString source.m_extra)]
  simp only [List.append_assoc]
  refine ReadsBack.bind (uint8.readsBack saveLevel.toUInt8) ?_
  simp only [WalletSaveLevel.toUInt8_beq]
  refine ReadsBack.bind (loadKeyListAndBalances_readsBack target _ _ valid.wallets_fit) ?_
  rw [loadKeyList_walletEntry target _ _ fresh.same_wallets valid.keys_nodup]
  refine ReadsBack.bind (loadTransactionsPart_readsBack valid _
    (by exact fresh.no_transactions) (by exact fresh.no_transfers)) ?_
  refine ReadsBack.bind (loadSavedPart_readsBack valid _ (by split <;> exact keysAligned)
    (by split <;> exact fresh.no_jobs) (by split <;> exact fresh.no_uncommited) savedWritten) ?_
  refine ReadsBack.bind (readString_readsBack valid.extra_fits) ?_
  cases saveLevel <;> exact ReadsBack.pure _

end RoundTrip

theorem asSaved_eq_self_iff (tx : WalletTransaction) :
    tx.asSaved = tx ↔ tx.state = .SUCCEEDED ∧ tx.secretKey.isSome := by
  cases tx with
  | mk state timestamp blockHeight hash secretKey =>
      cases secretKey <;> simp [WalletTransaction.asSaved, eq_comm]

theorem map_asSaved_eq_self_iff (transactions : List WalletTransaction) :
    transactions.map WalletTransaction.asSaved = transactions ↔
      ∀ tx ∈ transactions, tx.state = .SUCCEEDED ∧ tx.secretKey.isSome := by
  have unchanged : transactions.map WalletTransaction.asSaved = transactions ↔
      transactions.map WalletTransaction.asSaved = transactions.map id := by
    rw [List.map_id]
  rw [unchanged, List.map_eq_map_iff]
  exact forall₂_congr fun tx _ => asSaved_eq_self_iff tx

/-- Loading the file a wallet was saved to, at any level, into a wallet with the same keys and
containers and no records yet, reads the whole file and gives back `reloaded`; the transactions
come back unchanged exactly when each of them `SUCCEEDED` and had a secret key. -/
theorem load_save_reloaded (source target : WalletCache) (saveLevel : WalletSaveLevel)
    (valid : source.Valid) (fresh : target.LoadsFrom source) {bytes : List UInt8}
    (saved : save source saveLevel = .ok bytes) :
    load target bytes = .ok (reloaded target source saveLevel, []) ∧
      (source.m_transactions.map WalletTransaction.asSaved = source.m_transactions ↔
        ∀ tx ∈ source.m_transactions, tx.state = .SUCCEEDED ∧ tx.secretKey.isSome) := by
  refine ⟨?_, map_asSaved_eq_self_iff source.m_transactions⟩
  have read := load_readsBack valid fresh saveLevel saved []
  rwa [List.append_nil] at read

/-- A wallet of one key whose one transaction `FAILED` and kept no secret key. -/
def failedTransactionWallet : WalletCache where
  m_actualBalance := 0
  m_pendingBalance := 0
  m_walletsContainer := [⟨⟨Pod.zero 32⟩, 0, 0, 0⟩]
  m_synchronizer := []
  m_unlockTransactions := []
  m_transactions := [{
    state := .FAILED, timestamp := 0, blockHeight := 0, hash := ⟨Pod.zero 32⟩, secretKey := none,
    totalAmount := 0, fee := 0, creationTime := 0, unlockTime := 0, extra := [], isBase := false }]
  m_transfers := []
  m_uncommitedTransactions := []
  m_extra := []
  m_addedKeys := []
  m_deletedKeys := []

theorem failedTransactionWallet_valid : failedTransactionWallet.Valid where
  keys_nodup := by decide
  hashes_nodup := by decide
  uncommited_ordered := List.Pairwise.nil
  uncommited_normal := by simp [failedTransactionWallet]
  wallets_fit := by decide
  transactions_fit := by decide
  extras_fit := by simp [failedTransactionWallet]
  transfers_fit := by decide
  addresses_fit := by simp [failedTransactionWallet]
  synchronizer_fits := by decide
  jobs_fit := by decide
  uncommited_fit := by decide
  extra_fits := by decide

def failedTransactionTarget : WalletCache := { failedTransactionWallet with m_transactions := [] }

theorem failedTransactionTarget_loadsFrom :
    failedTransactionTarget.LoadsFrom failedTransactionWallet :=
  ⟨rfl, rfl, rfl, rfl, rfl⟩

theorem failed_transaction_reload :
    ∃ bytes, save failedTransactionWallet .SAVE_KEYS_AND_TRANSACTIONS = .ok bytes ∧
      load failedTransactionTarget bytes =
          .ok (reloaded failedTransactionTarget failedTransactionWallet
            .SAVE_KEYS_AND_TRANSACTIONS, []) ∧
        (failedTransactionWallet.m_transactions.map WalletTransaction.asSaved =
            failedTransactionWallet.m_transactions ↔
          ∀ tx ∈ failedTransactionWallet.m_transactions,
            tx.state = .SUCCEEDED ∧ tx.secretKey.isSome) :=
  ⟨_, rfl, load_save_reloaded failedTransactionWallet failedTransactionTarget
    .SAVE_KEYS_AND_TRANSACTIONS failedTransactionWallet_valid failedTransactionTarget_loadsFrom rfl⟩

/-- The transaction that `FAILED` is loaded back as `SUCCEEDED`, with the null secret key. -/
theorem failed_transaction_reloads_succeeded :
    ∃ bytes, save failedTransactionWallet .SAVE_KEYS_AND_TRANSACTIONS = .ok bytes ∧
      ∃ loaded, load failedTransactionTarget bytes = .ok (loaded, []) ∧
        loaded.m_transactions.map (·.state) = [.SUCCEEDED] ∧
        failedTransactionWallet.m_transactions.map (·.state) = [.FAILED] := by
  obtain ⟨bytes, saved⟩ :
      ∃ bytes, save failedTransactionWallet .SAVE_KEYS_AND_TRANSACTIONS = .ok bytes := ⟨_, rfl⟩
  have read := load_readsBack failedTransactionWallet_valid failedTransactionTarget_loadsFrom
    _ saved []
  rw [List.append_nil] at read
  exact ⟨bytes, saved, _, read, rfl, rfl⟩

end Dynex.Wallet