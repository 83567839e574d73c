/-
# The list of failures (`sync.service.ts`, `sync-consumer.service.ts`)

`getFailedSyncQueues` lists rows of `SyncQueue`.  What writes such a row does not look for a
transaction with its key, and what stores a transaction does not look for such a row, so a
failure stays in the list when the item is stored later, or was stored before.

* `Db.Truthful` : no key of a failure is the key of a transaction;
* `failures_not_stored` : the runs whose lists are truthful;
* `failure_outlives_success` : a failure that is listed after its item was stored.
-/
import KPos.Delivery

namespace KPos

/-! ## The condition -/

/-- A step that stores no item that is recorded as failed, and that notes no failure of an item
that is stored. -/
structure Delivery.Consistent (σ : Delivery) (a : DeliveryAction) : Prop where
  committing : ∀ data, σ.committing a = some data → Acceptable σ.db data →
    σ.db.isFailed data = false
  noting : ∀ data, σ.noting a = some data → σ.db.isStored data = false

/-! ## The invariant -/

/-- Every row of `SyncQueue` is a failure, and no transaction has its key. -/
structure Db.Truthful (db : Db) : Prop where
  failed : ∀ q ∈ db.syncQueues.rows, q.status = .SYNC_FAILED
  unsold : ∀ q ∈ db.syncQueues.rows, ∀ t ∈ db.transactions.rows, ∀ u,
    q.offlineUuid = some u → t.offlineUuid = some u → t.idDevice ≠ q.idDevice

section Truthful

variable {db db' : Db} {data : QueuedTransaction}

theorem truthful_withUsers (us : Table User) : (Db.withUsers us).Truthful where
  failed := fun _ h => nomatch h
  unsold := fun _ h => nomatch h

/-- What keeps the failures and the keys of the sales keeps the list truthful. -/
theorem Db.Truthful.keepsSales (hdb : db.Truthful) (hqueues : db'.syncQueues = db.syncQueues)
    (hsales : KeepsSales db db') : db'.Truthful := by
  refine ⟨?_, ?_⟩
  · rw [hqueues]
    exact hdb.failed
  · rw [hqueues]
    intro q hq t ht u hqu htu heq
    obtain ⟨s, hs, -, hsd, hsu⟩ := hsales.rows t ht u htu
    exact hdb.unsold q hq s hs u hqu hsu (hsd.trans heq)

/-- An item that is stored, and was not recorded as failed. -/
theorem Db.Truthful.stored (hdb : db.Truthful) {now : DateTime}
    (h : processTransaction db data now = .ok db') (hnew : db.isFailed data = false) :
    db'.Truthful := by
  obtain ⟨-, d, created, hsale⟩ := processTransaction_stored h
  have hqueues : db'.syncQueues = db.syncQueues := by rw [hsale.frame]
  refine ⟨?_, ?_⟩
  · rw [hqueues]
    exact hdb.failed
  · rw [hqueues]
    intro q hq t ht u hqu htu heq
    rcases (Table.mem_insert hsale.insertable.header).mp ht with ht | rfl
    · exact hdb.unsold q hq t ht u hqu htu heq
    · -- the new transaction has the key of the item
      obtain rfl := Option.some.inj htu
      have hfailed := isFailed_iff.mpr ⟨q, hq, heq.symm, hqu, hdb.failed q hq⟩
      rw [hnew] at hfailed
      cases hfailed

/-- A failure that is noted of an item that is not stored. -/
theorem Db.Truthful.notes (hdb : db.Truthful) (h : NotesFailure db db' data)
    (hnew : db.isStored data = false) : db'.Truthful := by
  refine ⟨fun r hr => ?_, ?_⟩
  · rcases h.rows r hr with ⟨hstatus, -⟩ | ⟨q, hq, -, -, hstatus | hstatus⟩
    · exact hstatus
    · exact hstatus
    · exact hstatus.trans (hdb.failed q hq)
  · rw [h.transactions]
    intro r hr t ht u hru htu heq
    rcases h.rows r hr with ⟨-, hd, hu, -⟩ | ⟨q, hq, hd, hu, -⟩
    · have hstored := isStored_iff.mpr ⟨t, ht, heq.trans hd, htu.trans (hru.symm.trans hu)⟩
      rw [hnew] at hstored
      cases hstored
    · exact hdb.unsold q hq t ht u (hu.trans hru) htu (heq.trans hd.symm)

/-- **A consistent step keeps the list truthful.** -/
theorem Db.Truthful.next {σ τ : Delivery} {a : DeliveryAction} (hσ : σ.db.Truthful)
    (ha : σ.Consistent a) (h : σ.next a = some τ) : τ.db.Truthful := by
  rcases Delivery.next_cases h with ⟨hqueues, hsales⟩ | ⟨data, hdata, now, hok⟩ |
    ⟨data, hdata, hnotes⟩
  · exact hσ.keepsSales hqueues hsales
  · exact hσ.stored hok (ha.committing data hdata (acceptable_of_ok hok))
  · exact hσ.notes hnotes (ha.noting data hdata)

end Truthful

/-! ## The list -/

/-- What is listed is a row of `SyncQueue`. -/
theorem mem_getFailedSyncQueues {db : Db} {user : JwtPayload} {e : FailedQueue} :
    e ∈ Sync.getFailedSyncQueues db user ↔
      ∃ q ∈ db.syncQueues.rows, db.failedQueue user.idMerchant q = some e := by
  unfold Sync.getFailedSyncQueues
  rw [List.mem_mergeSort, List.mem_filterMap]

theorem failedQueue_row {db : Db} {idMerchant : Ident} {q : SyncQueue} {e : FailedQueue}
    (h : db.failedQueue idMerchant q = some e) : e.row = q := by
  obtain ⟨device, -, h⟩ := Option.bind_eq_some_iff.mp h
  split at h
  · obtain rfl := Option.some.inj h
    rfl
  · cases h

/-- **The list of failures is truthful when every step is consistent**: what it lists, for any
user, is not stored. -/
theorem failures_not_stored {us : Table User} {as : List DeliveryAction} {σ : Delivery}
    (h : Runs.Run Delivery.next Delivery.Consistent (.start us) as σ) (user : JwtPayload) :
    ∀ e ∈ Sync.getFailedSyncQueues σ.db user, ∀ u, e.row.offlineUuid = some u →
      ∀ t ∈ σ.db.transactions.rows, ¬ (t.idDevice = e.row.idDevice ∧ t.offlineUuid = some u) := by
  have hσ : σ.db.Truthful := h.invariant (fun σ => σ.db.Truthful) (truthful_withUsers us)
    fun _ _ _ hσ ha hstep => hσ.next ha hstep
  intro e he u hu t ht hkey
  obtain ⟨q, hq, hlisted⟩ := mem_getFailedSyncQueues.mp he
  obtain rfl := failedQueue_row hlisted
  exact hσ.unsold e.row hq t ht u hu hkey.2 hkey.1

/-- More pieces than the shop has: the sale is stored as PENDING. -/
def largeSale : QueuedTransaction := shopQueued shopDevice "a" [30]

/-- A sale is recorded as failed; another one is stored. -/
def failedAndStored : List DeliveryAction :=
  openingSteps ++ .submit [largeSale] :: delivered (.failed "timed out") (.record 0 1 .served) ++
    .submit [shopQueued shopDevice "b" [30]] :: delivered .served (.transact 0 1 .served)

/-- A test for consistent steps that does not ask whether an item is acceptable. -/
def Delivery.keepsApart (σ : Delivery) (a : DeliveryAction) : Bool :=
  (σ.committing a).all (fun data => !σ.db.isFailed data) &&
    (σ.noting a).all fun data => !σ.db.isStored data

theorem Delivery.consistent_of_keepsApart {σ : Delivery} {a : DeliveryAction}
    (h : σ.keepsApart a = true) : σ.Consistent a := by
  obtain ⟨hcommitting, hnoting⟩ := Bool.and_eq_true_iff.mp h
  refine ⟨fun data hdata _ => ?_, fun data hdata => ?_⟩
  · rw [hdata] at hcommitting
    simpa using hcommitting
  · rw [hdata] at hnoting
    simpa using hnoting

/-- The failure is listed, and its sale is not stored. -/
theorem failures_not_stored_failedAndStored : ∃ σ : Delivery,
    (∃ e ∈ Sync.getFailedSyncQueues σ.db shopOwner, e.row.idDevice = shopDevice ∧
      e.row.offlineUuid = some (.text "a")) ∧
    ∀ e ∈ Sync.getFailedSyncQueues σ.db shopOwner, ∀ u, e.row.offlineUuid = some u →
      ∀ t ∈ σ.db.transactions.rows, ¬ (t.idDevice = e.row.idDevice ∧ t.offlineUuid = some u) := by
  have hcheck : (Runs.runs Delivery.next Delivery.keepsApart (.start .empty) failedAndStored).any
      (fun σ => σ.db.syncQueues.rows.any fun q =>
        (σ.db.failedQueue shopMerchant q).any fun e => decide (e.row.idDevice = shopDevice ∧
          e.row.offlineUuid = some (.text "a"))) = true := by decide +kernel
  obtain ⟨σ, hrun, hstate⟩ := Runs.exists_run_of_runs hcheck
  obtain ⟨q, hq, hlisted⟩ := List.any_eq_true.mp hstate
  obtain ⟨e, he, hkey⟩ := (Option.any_eq_true _ _).mp hlisted
  have hmem : e ∈ Sync.getFailedSyncQueues σ.db shopOwner :=
    mem_getFailedSyncQueues.mpr ⟨q, hq, he⟩
  exact ⟨σ, ⟨e, hmem, of_decide_eq_true hkey⟩,
    failures_not_stored (hrun.weaken fun _ _ => Delivery.consistent_of_keepsApart) shopOwner⟩

/-- The lookup of a sale fails once, and the sale is stored when it is sent again. -/
def failedThenStored : List DeliveryAction :=
  openingSteps ++ .submit [largeSale] :: delivered (.failed "timed out") (.record 0 1 .served) ++
    .submit [largeSale] :: delivered .served (.transact 0 1 .served)

/-- **A failure is listed after its item was stored.** -/
theorem failure_outlives_success : ¬ ∀ (us : Table User) (σ : Delivery) (user : JwtPayload),
    Runs.Reaches Delivery.next (.start us) σ →
      ∀ e ∈ Sync.getFailedSyncQueues σ.db user, ∀ u, e.row.offlineUuid = some u →
        ∀ t ∈ σ.db.transactions.rows,
          ¬ (t.idDevice = e.row.idDevice ∧ t.offlineUuid = some u) := by
  intro h
  have hcheck : (Runs.runs Delivery.next (fun _ _ => true) (.start .empty) failedThenStored).any
      (fun σ => σ.db.syncQueues.rows.any fun q =>
        (σ.db.failedQueue shopMerchant q).any fun e => σ.db.transactions.rows.any fun t =>
          decide (t.idDevice = e.row.idDevice ∧ t.offlineUuid = some (.text "a") ∧
            e.row.offlineUuid = some (.text "a"))) = true := by decide +kernel
  obtain ⟨σ, hrun, hstate⟩ := Runs.exists_run_of_runs hcheck
  obtain ⟨q, hq, hlisted⟩ := List.any_eq_true.mp hstate
  obtain ⟨e, he, hsold⟩ := (Option.any_eq_true _ _).mp hlisted
  obtain ⟨t, ht, hkey⟩ := List.any_eq_true.mp hsold
  obtain ⟨hdev, htu, hu⟩ := of_decide_eq_true hkey
  have hmem : e ∈ Sync.getFailedSyncQueues σ.db shopOwner :=
    mem_getFailedSyncQueues.mpr ⟨q, hq, he⟩
  exact h .empty σ shopOwner hrun.reaches e hmem _ hu t ht ⟨hdev, htu⟩

end KPos
