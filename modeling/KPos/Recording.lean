/-
# Whether an accepted transaction is lost (`sync-consumer.service.ts`)

A message is acknowledged whatever happened to its items, so an item should have left a
`Transaction` row or a `SyncQueue` row by then.  The write to `SyncQueue` is constrained too:
it needs the device to exist, and whatever it throws is swallowed.

* `handleItem_isRecorded` : when handling an item records it;
* `batch_recorded_iff` : when handling a batch records all of its items;
* `accepted_item_lost` : an accepted batch with an item that is lost.
-/
import KPos.Storing
import KPos.SyncService

namespace KPos

/-! ## Recorded items -/

/-- Two items with one key. -/
def QueuedTransaction.SameKey (a b : QueuedTransaction) : Prop :=
  a.idDevice = b.idDevice ∧ a.offlineUuid = b.offlineUuid

/-- A `SyncQueue` row has the key of an item. -/
def Db.isNoted (db : Db) (data : QueuedTransaction) : Bool :=
  db.syncQueues.rows.any fun q =>
    decide (q.idDevice = data.idDevice ∧ q.offlineUuid = some data.offlineUuid)

/-- A `Transaction` row or a `SyncQueue` row has the key of an item. -/
def Db.isRecorded (db : Db) (data : QueuedTransaction) : Bool :=
  db.isStored data || db.isNoted data

/-- What an item needs for its sale to be stored. -/
structure Acceptable (db : Db) (data : QueuedTransaction) : Prop where
  arithmetic : data.Arithmetic
  storable : Storable db data
  deductible : checkStockAvailability db data.items = false → Deductible db data.items

/-- What handling an item needs to record it: its device exists, and the write to
`SyncQueue` would reach the database, unless the sale is stored or goes through. -/
def Keeps (db : Db) (data : QueuedTransaction) (outcome : ItemOutcome) : Prop :=
  db.devices.has (.id data.idDevice) = true ∧
    (outcome.create.reaches = true ∨ outcome.lookup = .served ∧
      (db.isStored data = true ∨ outcome.transaction.reaches = true ∧ Acceptable db data))

/-! ## Handling an item -/

section Item

variable {db db' : Db} {data y : QueuedTransaction} {now : DateTime}

theorem isStored_iff : db.isStored data = true ↔
    ∃ t ∈ db.transactions.rows, t.idDevice = data.idDevice ∧
      t.offlineUuid = some data.offlineUuid := by
  unfold Db.isStored
  simp only [Table.has_iff, deviceUuid_mem_keys]

/-- An item whose UUID is new is not stored. -/
theorem isStored_eq_false (h : db.transactions.has (.offlineUuid data.offlineUuid) = false) :
    db.isStored data = false := by
  unfold Db.isStored
  rw [Table.has_eq_false]
  intro t ht hkey
  apply Table.has_eq_false.mp h t ht
  exact offlineUuid_mem_keys.mpr (deviceUuid_mem_keys.mp hkey).2

/-- A new item whose processing succeeds is processed. -/
theorem handleItem_eq (hnew : db.isStored data = false)
    (hok : processTransaction db data now = .ok db') :
    handleItem db data (.served now) = db' := by
  unfold handleItem processOrFail ItemOutcome.served
  simp only [hnew, Bool.false_eq_true, if_false, hok, Call.run]

theorem isNoted_iff : db.isNoted data = true ↔
    ∃ q ∈ db.syncQueues.rows, q.idDevice = data.idDevice ∧
      q.offlineUuid = some data.offlineUuid := by
  simp [Db.isNoted]

/-- Items with one key are recorded together. -/
theorem isRecorded_congr (h : data.SameKey y) : db.isRecorded data = db.isRecorded y := by
  unfold Db.isRecorded Db.isStored Db.isNoted
  rw [h.1, h.2]

theorem acceptable_of_ok (h : processTransaction db data now = .ok db') : Acceptable db data := by
  obtain ⟨arithmetic, storable, deductible⟩ := processTransaction_needs h
  exact ⟨arithmetic, storable, deductible⟩

theorem acceptable_iff (hdb : Wired db) (data : QueuedTransaction) (now : DateTime) :
    (∃ db', processTransaction db data now = .ok db') ↔ Acceptable db data := by
  constructor
  · rintro ⟨db', h⟩
    exact acceptable_of_ok h
  · rintro ⟨arithmetic, storable, deductible⟩
    exact (processTransaction_isOk hdb now).mpr ⟨arithmetic, storable, deductible⟩

/-- A sale that goes through records its item and no other. -/
theorem processTransaction_isRecorded (h : processTransaction db data now = .ok db') :
    db'.isRecorded y = true ↔ db.isRecorded y = true ∨ data.SameKey y := by
  obtain ⟨-, d, created, hstored⟩ := processTransaction_stored h
  have hqueue : db'.isNoted y = db.isNoted y := by
    unfold Db.isNoted
    rw [hstored.frame]
  have hrow : db'.isStored y = true ↔ db.isStored y = true ∨ data.SameKey y := by
    rw [isStored_iff, isStored_iff]
    simp only [Table.mem_insert hstored.insertable.header]
    constructor
    · rintro ⟨t, ht | rfl, hd, hu⟩
      · exact Or.inl ⟨t, ht, hd, hu⟩
      · exact Or.inr ⟨hd, Option.some.inj hu⟩
    · rintro (⟨t, ht, hd, hu⟩ | ⟨hd, hu⟩)
      · exact ⟨t, Or.inl ht, hd, hu⟩
      · exact ⟨_, Or.inr rfl, hd, congrArg some hu⟩
  unfold Db.isRecorded
  rw [Bool.or_eq_true, Bool.or_eq_true, hrow, hqueue]
  exact or_right_comm

/-- A row is created in `SyncQueue` when its device exists. -/
theorem createSyncQueue_isOk_iff (hdb : Wired db) {row : SyncQueue} (hid : row.id = db.newId)
    (htx : row.idTransaction = none) : (∃ db', db.createSyncQueue row = .ok db') ↔
      db.devices.has (.id row.idDevice) = true := by
  simp only [createSyncQueue_eq_ok]
  constructor
  · rintro ⟨_, hdev, -⟩
    exact hdev
  · intro hdev
    have hfree : (db.syncQueues.insert row).isSome := by
      rw [Table.insert_isSome_iff]
      intro k hk
      obtain rfl : k = .id db.newId := by
        simpa [UniqueKeys.keys, hid] using hk
      rw [Table.has_eq_false]
      intro q hq hkey
      apply not_old_newId db
      have heq : db.newId = q.id := by simpa [UniqueKeys.keys] using hkey
      rw [heq]
      exact hdb.syncQueues q hq
    obtain ⟨qs, hqs⟩ := Option.isSome_iff_exists.mp hfree
    refine ⟨_, hdev, ?_, qs, hqs, rfl⟩
    rw [htx]
    rfl

/-- The write to `SyncQueue` goes through when the device exists. -/
theorem createSyncQueue_isOk (hdb : Wired db) (data : QueuedTransaction) (error : Err)
    (now : DateTime) :
    (∃ db', db.createSyncQueue (failureRow db data error now) = .ok db') ↔
      db.devices.has (.id data.idDevice) = true :=
  createSyncQueue_isOk_iff hdb rfl rfl

/-- A row that is inserted notes its item. -/
theorem isNoted_insert {row : SyncQueue} {qs : Table SyncQueue}
    (hqs : db.syncQueues.insert row = some qs) (hdevice : row.idDevice = data.idDevice)
    (huuid : row.offlineUuid = some data.offlineUuid) (y : QueuedTransaction) :
    Db.isNoted { db with syncQueues := qs, seq := db.seq + 1 } y = true ↔
      db.isNoted y = true ∨ data.SameKey y := by
  rw [isNoted_iff, isNoted_iff]
  simp only [Table.mem_insert hqs]
  constructor
  · rintro ⟨q, hq | rfl, hd, hu⟩
    · exact Or.inl ⟨q, hq, hd, hu⟩
    · exact Or.inr ⟨hdevice.symm.trans hd, Option.some.inj (huuid.symm.trans hu)⟩
  · rintro (⟨q, hq, hd, hu⟩ | ⟨hd, hu⟩)
    · exact ⟨q, Or.inl hq, hd, hu⟩
    · exact ⟨row, Or.inr rfl, hdevice.trans hd, huuid.trans (congrArg some hu)⟩

/-- The failure path records its item when the device exists and the write reaches the
database. -/
theorem handleFailure_isRecorded (hdb : Wired db) (data : QueuedTransaction) (error : Err)
    (now : DateTime) (create : Call) :
    (handleFailure db data error now create).isRecorded y = true ↔ db.isRecorded y = true ∨
      data.SameKey y ∧ db.devices.has (.id data.idDevice) = true ∧ create.reaches = true := by
  have hwritten : ∀ db', db.createSyncQueue (failureRow db data error now) = .ok db' →
      (db'.isRecorded y = true ↔ db.isRecorded y = true ∨ data.SameKey y) := by
    intro db' h
    obtain ⟨-, -, qs, hqs, rfl⟩ := createSyncQueue_eq_ok.mp h
    unfold Db.isRecorded
    rw [Bool.or_eq_true, Bool.or_eq_true, isNoted_insert hqs rfl rfl]
    exact or_assoc.symm
  have hisOk := createSyncQueue_isOk hdb data error now
  unfold handleFailure
  cases hcreate : db.createSyncQueue (failureRow db data error now) with
  | error e =>
    have hnodev : ¬ db.devices.has (.id data.idDevice) = true := by
      rw [← hisOk, hcreate]
      rintro ⟨_, h⟩
      cases h
    have hsame : (create.run db (.error e)).1 = db := by
      cases create <;> rfl
    rw [hsame]
    simp only [hnodev, Bool.false_eq_true, false_and, and_false, or_false]
  | ok db' =>
    have hdev := hisOk.mp ⟨db', hcreate⟩
    have := hwritten db' hcreate
    cases create with
    | served => simpa [Call.run, Call.reaches, hdev] using this
    | failed message => simp [Call.run, Call.reaches]
    | lost message => simpa [Call.run, Call.reaches, commit, hdev] using this

/-- When an item that is not stored yet is recorded. -/
theorem processOrFail_isRecorded (hdb : Wired db) {outcome : ItemOutcome}
    (hlookup : outcome.lookup = .served) (hnew : ¬ db.isStored data = true) :
    (processOrFail db data outcome).isRecorded y = true ↔
      db.isRecorded y = true ∨ data.SameKey y ∧ Keeps db data outcome := by
  have hkeeps : Keeps db data outcome ↔ db.devices.has (.id data.idDevice) = true ∧
      (outcome.create.reaches = true ∨
        outcome.transaction.reaches = true ∧ Acceptable db data) := by
    unfold Keeps
    simp only [hlookup, hnew, Bool.false_eq_true, true_and, false_or]
  have hacc := acceptable_iff hdb data outcome.now
  rw [hkeeps]
  unfold processOrFail
  cases hproc : processTransaction db data outcome.now with
  | error e =>
    have hno : ¬ Acceptable db data := by
      rw [← hacc, hproc]
      rintro ⟨_, h⟩
      cases h
    -- every end of the database transaction leads to the failure path
    have hpath : ∃ error, outcome.transaction.run db (.error e) = (db, some error) := by
      cases outcome.transaction <;> exact ⟨_, rfl⟩
    obtain ⟨error, herror⟩ := hpath
    rw [herror]
    show (handleFailure db data error outcome.now outcome.create).isRecorded y = true ↔ _
    rw [handleFailure_isRecorded hdb data]
    simp only [hno, and_false, or_false]
  | ok db' =>
    have hok : Acceptable db data := hacc.mp ⟨db', hproc⟩
    have hdev := hok.storable.device
    have hrec := processTransaction_isRecorded (y := y) hproc
    cases htransaction : outcome.transaction with
    | served =>
      show db'.isRecorded y = true ↔ _
      rw [hrec]
      simp only [Call.reaches, hdev, hok, and_true, or_true]
    | failed message =>
      show (handleFailure db data _ outcome.now outcome.create).isRecorded y = true ↔ _
      rw [handleFailure_isRecorded hdb data]
      simp only [Call.reaches, Bool.false_eq_true, false_and, or_false]
    | lost message =>
      show (handleFailure db' data _ outcome.now outcome.create).isRecorded y = true ↔ _
      rw [handleFailure_isRecorded (hdb.wrote (processTransaction_wrote hproc)) data, hrec,
        or_assoc, or_iff_left_of_imp And.left]
      simp only [Call.reaches, hdev, hok, and_true, or_true]

/-- **When handling an item records it.** -/
theorem handleItem_isRecorded (hdb : Wired db) (outcome : ItemOutcome) :
    (handleItem db data outcome).isRecorded y = true ↔
      db.isRecorded y = true ∨ data.SameKey y ∧ Keeps db data outcome := by
  have hunserved : outcome.lookup ≠ .served → (Keeps db data outcome ↔
      db.devices.has (.id data.idDevice) = true ∧ outcome.create.reaches = true) := by
    intro hne
    unfold Keeps
    simp only [hne, false_and, or_false]
  unfold handleItem
  split
  · rename_i hlookup
    split
    · rename_i hstored
      constructor
      · exact Or.inl
      · rintro (h | ⟨hkey, -⟩)
        · exact h
        · rw [← isRecorded_congr hkey]
          unfold Db.isRecorded
          rw [hstored, Bool.true_or]
    · rename_i hnew
      exact processOrFail_isRecorded hdb hlookup hnew
  · rename_i message hlookup
    have hne : outcome.lookup ≠ .served := by simp [hlookup]
    rw [handleFailure_isRecorded hdb data, hunserved hne]
  · rename_i message hlookup
    have hne : outcome.lookup ≠ .served := by simp [hlookup]
    rw [handleFailure_isRecorded hdb data, hunserved hne]

end Item

/-! ## Handling a batch -/

/-- An item of a batch is recorded before it, or some item of the batch with its key is
recorded when its turn comes. -/
def KeptByBatch (db : Db) (batch : List (QueuedTransaction × ItemOutcome))
    (y : QueuedTransaction) : Prop :=
  db.isRecorded y = true ∨ ∃ pre z post, batch = pre ++ z :: post ∧ z.1.SameKey y ∧
    Keeps (handleSyncTransactionBatch db pre) z.1 z.2

/-- When handling a batch records an item. -/
theorem handleBatch_isRecorded {db : Db} (hdb : Wired db)
    (batch : List (QueuedTransaction × ItemOutcome)) (y : QueuedTransaction) :
    (handleSyncTransactionBatch db batch).isRecorded y = true ↔ KeptByBatch db batch y := by
  unfold KeptByBatch
  induction batch generalizing db with
  | nil => simp [handleSyncTransactionBatch]
  | cons x batch ih =>
    have hstep : handleSyncTransactionBatch db (x :: batch)
      = handleSyncTransactionBatch (handleItem db x.1 x.2) batch := rfl
    rw [hstep, ih (hdb.wrote (handleItem_wrote db x.1 x.2)), handleItem_isRecorded hdb]
    constructor
    · rintro ((h | ⟨hkey, hkeeps⟩) | ⟨pre, z, post, rfl, hkey, hkeeps⟩)
      · exact Or.inl h
      · exact Or.inr ⟨[], x, batch, rfl, hkey, hkeeps⟩
      · exact Or.inr ⟨x :: pre, z, post, rfl, hkey, hkeeps⟩
    · rintro (h | ⟨pre, z, post, hsplit, hkey, hkeeps⟩)
      · exact Or.inl (Or.inl h)
      · cases pre with
        | nil =>
          obtain ⟨rfl, rfl⟩ := List.cons.inj hsplit
          exact Or.inl (Or.inr ⟨hkey, hkeeps⟩)
        | cons w pre =>
          obtain ⟨rfl, rfl⟩ := List.cons.inj hsplit
          exact Or.inr ⟨pre, z, post, rfl, hkey, hkeeps⟩

/-- **When a batch is handled without loss**: for each of its items, the item or another one
with its key finds its device, and either its sale is stored or goes through or the write to
`SyncQueue` reaches the database. -/
theorem batch_recorded_iff {us : Table User} {db : Db} (h : Reachable us db)
    (batch : List (QueuedTransaction × ItemOutcome)) :
    (∀ item ∈ batch, (handleSyncTransactionBatch db batch).isRecorded item.1 = true) ↔
      ∀ item ∈ batch, KeptByBatch db batch item.1 := by
  refine forall_congr' fun item => imp_congr_right fun _ => ?_
  exact handleBatch_isRecorded h.wired batch item.1

/-- A sale at the till of the shop without the user `system_sync`, with all calls served. -/
def noted : List (QueuedTransaction × ItemOutcome) := [(threePieces, .served 1)]

/-- The sale at the till is recorded, though it is not stored. -/
theorem batch_recorded_iff_noted :
    (handleSyncTransactionBatch plainShop noted).isRecorded threePieces = true := by
  have hreach : Reachable .empty plainShop := reachable_shopWith .empty
  have hdev : plainShop.devices.has (.id threePieces.idDevice) = true := by decide +kernel
  refine (batch_recorded_iff hreach noted).mpr (fun item hitem => ?_) _ List.mem_cons_self
  rw [List.mem_singleton.mp hitem]
  exact Or.inr ⟨[], _, [], rfl, ⟨rfl, rfl⟩, hdev, Or.inl rfl⟩

/-- **An accepted transaction is lost**: the header names no device. -/
theorem accepted_item_lost : ¬ ∀ (hash : PayloadHash) (us : Table User) (db : Db)
    (idDevice : Ident) (batch : SyncBatchDto) (publish : Call)
    (items : List (QueuedTransaction × ItemOutcome)), Reachable us db →
      Sync.syncTransactions hash db idDevice batch publish = .ok (items.map (·.1)) →
      ∀ item ∈ items, (handleSyncTransactionBatch db items).isRecorded item.1 = true := by
  intro h
  let ghost : QueuedTransaction := (shopSale "a" [3]).queued (fun _ _ => "") (.text "ghost")
  have hlost : (handleSyncTransactionBatch shop [(ghost, .served 1)]).isRecorded ghost = false := by
    decide +kernel
  have haccepted : Sync.syncTransactions (fun _ _ => "") shop (.text "ghost") oneSale .served
      = .ok [ghost] := by decide +kernel
  have hrecorded := h _ systemUsers shop _ _ _ [(ghost, .served 1)] (reachable_shopWith _)
    haccepted _ List.mem_cons_self
  rw [hlost] at hrecorded
  cases hrecorded

end KPos
