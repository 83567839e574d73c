/-
# Whether the status query keeps to a merchant (`sync.service.ts`)

`GET /sync/status` answers by UUID alone: neither of its two queries asks whose device a row
belongs to.  The answers are determined by the merchant's own rows only where each UUID
asked for is a stored sale of the merchant, since a UUID is stored once.

* `AgreeOn` : two databases with the same rows of a merchant's devices;
* `status_isolated_iff` : when the answers are the same in all of them;
* `status_not_isolated` : another merchant's sale shows.
-/
import Mathlib.Data.Fintype.EquivFin
import KPos.Storing

namespace KPos

/-! ## What a merchant's rows are -/

/-- The transactions of the merchant's devices. -/
def Db.ownTransactions (db : Db) (m : Ident) : List Transaction :=
  db.transactions.rows.filter fun t => decide (db.deviceMerchant t.idDevice = some m)

/-- The rows of `SyncQueue` of the merchant's devices. -/
def Db.ownSyncQueues (db : Db) (m : Ident) : List SyncQueue :=
  db.syncQueues.rows.filter fun q => decide (db.deviceMerchant q.idDevice = some m)

/-- The databases differ on the rows of other merchants only. -/
structure AgreeOn (m : Ident) (db db' : Db) : Prop where
  devices : ∀ d, db.deviceMerchant d = some m ↔ db'.deviceMerchant d = some m
  transactions : db.ownTransactions m = db'.ownTransactions m
  syncQueues : db.ownSyncQueues m = db'.ownSyncQueues m

/-- The answer about a stored sale. -/
def storedAnswer (uuid : Ident) (t : Transaction) : StatusAnswer :=
  ⟨uuid, if t.syncStatus = .SYNC_CONFLICT then .CONFLICT else .SYNCED, some t.idTransaction, none⟩

section Answers

variable {db db' : Db} {m u : Ident} {uuids : List Ident} {t : Transaction}

theorem mem_ownTransactions : t ∈ db.ownTransactions m ↔
    t ∈ db.transactions.rows ∧ db.deviceMerchant t.idDevice = some m := by
  unfold Db.ownTransactions
  rw [List.mem_filter, decide_eq_true_eq]

/-- **The answer about a stored sale is its row's**, whatever else is stored. -/
theorem statusAnswer_stored (ht : t ∈ db.transactions.rows) (hu : t.offlineUuid = some u)
    (hmem : u ∈ uuids) (queues : List SyncQueue) :
    statusAnswer (db.transactions.rows.filter fun t => isIn uuids t.offlineUuid) queues u =
      storedAnswer u t := by
  have hfind : (db.transactions.rows.filter fun t => isIn uuids t.offlineUuid).find?
      (fun t => decide (t.offlineUuid = some u)) = some t := by
    cases hcase : (db.transactions.rows.filter fun t => isIn uuids t.offlineUuid).find?
        (fun t => decide (t.offlineUuid = some u)) with
    | none =>
      have hin : t ∈ db.transactions.rows.filter fun t => isIn uuids t.offlineUuid := by
        rw [List.mem_filter, hu]
        exact ⟨ht, decide_eq_true hmem⟩
      exact absurd (decide_eq_true hu) (List.find?_eq_none.mp hcase t hin)
    | some s =>
      -- the UUID is a key of the table
      have hs := (List.mem_filter.mp (List.mem_of_find?_eq_some hcase)).1
      have hsu : s.offlineUuid = some u := by simpa using List.find?_some hcase
      rw [Table.eq_of_key hs ht (offlineUuid_mem_keys.mpr hsu) (offlineUuid_mem_keys.mpr hu)]
  unfold statusAnswer
  rw [hfind]
  rfl

/-- A UUID that is not stored is answered without a transaction. -/
theorem statusAnswer_not_stored {transactions : List Transaction}
    (h : ∀ t ∈ transactions, t.offlineUuid ≠ some u) (queues : List SyncQueue) :
    (statusAnswer transactions queues u).transactionId = none := by
  have hfind : transactions.find? (fun t => decide (t.offlineUuid = some u)) = none := by
    rw [List.find?_eq_none]
    intro t ht
    rw [decide_eq_true_eq]
    exact h t ht
  unfold statusAnswer
  rw [hfind]
  dsimp only
  split <;> rfl

/-- Where each UUID asked for is a stored sale of the merchant, databases that agree on the
merchant answer alike. -/
theorem status_eq_of_own (h : ∀ u ∈ uuids, ∃ t ∈ db.ownTransactions m, t.offlineUuid = some u)
    (hagree : AgreeOn m db db') :
    Sync.getStatusByOfflineUuids db' uuids = Sync.getStatusByOfflineUuids db uuids := by
  unfold Sync.getStatusByOfflineUuids
  apply List.map_congr_left
  intro u hmem
  obtain ⟨t, ht, hu⟩ := h u hmem
  have ht' : t ∈ db'.ownTransactions m := hagree.transactions ▸ ht
  rw [statusAnswer_stored (mem_ownTransactions.mp ht).1 hu hmem,
    statusAnswer_stored (mem_ownTransactions.mp ht').1 hu hmem]

end Answers

/-! ## Other rows that show -/

/-- A sale whose `sync_status` was turned round. -/
def Transaction.flipped : Rewrite Transaction where
  toFun t :=
    { t with syncStatus := if t.syncStatus = .SYNC_CONFLICT then .SYNCED else .SYNC_CONFLICT }
  keys_eq _ := rfl

/-- A merchant, a user and a device under one identifier. -/
def strangerMerchant (i : Ident) : Merchant := ⟨i, ""⟩

def strangerUser (i : Ident) (email : String) : User := ⟨i, "", email, "", .OWNER, some i, true⟩

def strangerDevice (i : Ident) : Device := ⟨i, i, i, "", none, none, .PAIRED, true, 0⟩

/-- A sale of that device. -/
def strangerSale (i id uuid : Ident) : Transaction where
  idTransaction := id
  idMerchant := i
  idUser := i
  idDevice := i
  status := .CONFIRMED
  syncStatus := .SYNCED
  createdAtLocal := none
  createdAt := 0
  confirmedAt := none
  syncedAt := none
  total := 0
  subtotal := 0
  offlineUuid := some uuid
  payloadHash := none
  notes := none
  voidedAt := none
  voidedBy := none
  voidReason := none

instance : Infinite Ident := Infinite.of_injective Ident.cuid fun _ _ => Ident.cuid.inj

section Strangers

variable {db db' : Db} {m u : Ident} {t : Transaction}

/-- A database whose statuses differ is as well connected. -/
theorem wired_flipped (hdb : Wired db) (i : Ident) :
    Wired (db.relabel i Transaction.flipped) := by
  refine ⟨hdb.devices, fun s hs => ?_, fun p hp => ?_, hdb.syncQueues⟩
  · rcases mem_relabel.mp hs with ⟨r, hr, -, rfl⟩ | ⟨hs, -⟩
    · exact hdb.transactions r hr
    · exact hdb.transactions s hs
  · exact ⟨(hdb.payments p hp).1, Table.has_update.trans (hdb.payments p hp).2⟩

/-- A sale of another merchant may have the other status. -/
theorem agreeOn_flipped (ht : t ∈ db.transactions.rows)
    (hm : db.deviceMerchant t.idDevice ≠ some m) :
    AgreeOn m db (db.relabel t.idTransaction Transaction.flipped) := by
  refine ⟨fun _ => Iff.rfl, ?_, rfl⟩
  -- the row that changes is left out on both sides
  have hout : ∀ s ∈ db.transactions.rows, TransactionKey.id t.idTransaction ∈ UniqueKeys.keys s →
      decide (db.deviceMerchant s.idDevice = some m) = false := by
    intro s hs hkey
    rw [Table.eq_of_key hs ht hkey (id_mem_keys.mpr rfl), decide_eq_false_iff_not]
    exact hm
  symm
  apply Table.filter_update
  intro s hs hkey
  exact ⟨hout s hs hkey, hout s hs hkey⟩

/-- An identifier and an email that nobody has. -/
theorem exists_unused (db : Db) (m : Ident) : ∃ (i : Ident) (email : String),
    i ≠ m ∧ db.merchants.has (.id i) = false ∧ db.users.has (.id i) = false ∧
      db.users.has (.email email) = false ∧ db.devices.has (.id i) = false := by
  classical
  obtain ⟨i, hi⟩ := Infinite.exists_notMem_finset (m :: (db.merchants.rows.map (·.idMerchant) ++
    db.users.rows.map (·.idUser) ++ db.devices.rows.map (·.idDevice))).toFinset
  obtain ⟨email, hemail⟩ := Infinite.exists_notMem_finset (db.users.rows.map (·.email)).toFinset
  simp only [List.mem_toFinset, List.mem_cons, List.mem_append, not_or] at hi hemail
  obtain ⟨hm, ⟨hmerchants, husers⟩, hdevices⟩ := hi
  refine ⟨i, email, hm, ?_, ?_, ?_, ?_⟩ <;> rw [Table.has_eq_false] <;> intro r hr hkey
  · simp only [UniqueKeys.keys, List.mem_singleton, MerchantKey.id.injEq] at hkey
    exact hmerchants (hkey ▸ List.mem_map_of_mem hr)
  · exact husers (user_id_mem_keys.mp hkey ▸ List.mem_map_of_mem hr)
  · simp only [UniqueKeys.keys, List.mem_cons, reduceCtorEq, UserKey.email.injEq, false_or,
      List.not_mem_nil, or_false] at hkey
    exact hemail (hkey ▸ List.mem_map_of_mem hr)
  · exact hdevices (device_id_mem_keys.mp hkey ▸ List.mem_map_of_mem hr)

/-- `db'` has one more merchant, with a user, a device and a sale under the UUID. -/
structure WithStranger (db db' : Db) (i : Ident) (email : String) (u : Ident) : Prop where
  merchants : db.merchants.insert (strangerMerchant i) = some db'.merchants
  users : db.users.insert (strangerUser i email) = some db'.users
  devices : db.devices.insert (strangerDevice i) = some db'.devices
  transactions : db.transactions.insert (strangerSale i db.newId u) = some db'.transactions
  payments : db'.payments = db.payments
  syncQueues : db'.syncQueues = db.syncQueues
  seq : db'.seq = db.seq + 1

/-- There is such a database if the UUID is not stored. -/
theorem exists_withStranger (hdb : Wired db) (hu : db.transactions.has (.offlineUuid u) = false)
    (m : Ident) : ∃ (db' : Db) (i : Ident) (email : String),
      i ≠ m ∧ WithStranger db db' i email u := by
  obtain ⟨i, email, hm, hmerchant, huser, hemail, hdevice⟩ := exists_unused db m
  have hkey : db.transactions.has (.deviceUuid i u) = false := by
    rw [Table.has_eq_false] at hu ⊢
    intro t ht hkey
    exact hu t ht (offlineUuid_mem_keys.mpr (deviceUuid_mem_keys.mp hkey).2)
  have hms : (db.merchants.insert (strangerMerchant i)).isSome := by
    rw [Table.insert_isSome_iff]
    simpa [UniqueKeys.keys, strangerMerchant] using hmerchant
  have hus : (db.users.insert (strangerUser i email)).isSome := by
    rw [Table.insert_isSome_iff]
    simpa [UniqueKeys.keys, strangerUser] using ⟨huser, hemail⟩
  have hds : (db.devices.insert (strangerDevice i)).isSome := by
    rw [Table.insert_isSome_iff]
    simpa [UniqueKeys.keys, strangerDevice] using hdevice
  have hts : (db.transactions.insert (strangerSale i db.newId u)).isSome := by
    rw [Table.insert_isSome_iff]
    simpa [UniqueKeys.keys, strangerSale] using ⟨hdb.has_newId, hu, hkey⟩
  obtain ⟨ms, hms⟩ := Option.isSome_iff_exists.mp hms
  obtain ⟨us, hus⟩ := Option.isSome_iff_exists.mp hus
  obtain ⟨ds, hds⟩ := Option.isSome_iff_exists.mp hds
  obtain ⟨ts, hts⟩ := Option.isSome_iff_exists.mp hts
  exact ⟨{ db with merchants := ms, users := us, devices := ds, transactions := ts,
                   seq := db.seq + 1 }, i, email, hm, hms, hus, hds, hts, rfl, rfl, rfl⟩

section WithStranger

variable {i : Ident} {email : String}

/-- The new rows refer to rows. -/
theorem WithStranger.wired (h : WithStranger db db' i email u) (hdb : Wired db) : Wired db' := by
  have hold : ∀ j, db.Old j → db'.Old j := fun j hj => hj.mono (h.seq ▸ Nat.le_succ db.seq)
  refine ⟨fun d hd => ?_, fun t ht => ?_, fun p hp => ?_, fun q hq => ?_⟩
  · rcases (Table.mem_insert h.devices).mp hd with hd | rfl
    · exact ⟨Table.has_insert_mono h.merchants (hdb.devices d hd).1,
        Table.has_insert_mono h.users (hdb.devices d hd).2⟩
    · exact ⟨(Table.has_of_insert h.merchants).mpr (Or.inr List.mem_cons_self),
        (Table.has_of_insert h.users).mpr (Or.inr List.mem_cons_self)⟩
  · rcases (Table.mem_insert h.transactions).mp ht with ht | rfl
    · exact ⟨hold _ (hdb.transactions t ht).1,
        Table.has_insert_mono h.devices (hdb.transactions t ht).2⟩
    · exact ⟨old_newId (h.seq ▸ Nat.lt_succ_self db.seq),
        (Table.has_of_insert h.devices).mpr (Or.inr List.mem_cons_self)⟩
  · rw [h.payments] at hp
    exact ⟨hold _ (hdb.payments p hp).1,
      Table.has_insert_mono h.transactions (hdb.payments p hp).2⟩
  · rw [h.syncQueues] at hq
    exact hold _ (hdb.syncQueues q hq)

/-- The merchant of the new device. -/
theorem WithStranger.deviceMerchant_self (h : WithStranger db db' i email u) :
    db'.deviceMerchant i = some i := by
  have hfound : db'.devices.findUnique (.id i) = some (strangerDevice i) :=
    Table.findUnique_eq_some.mpr
      ⟨(Table.mem_insert h.devices).mpr (Or.inr rfl), device_id_mem_keys.mpr rfl⟩
  unfold Db.deviceMerchant
  rw [hfound]
  rfl

/-- The devices of another merchant are those there were. -/
theorem WithStranger.deviceMerchant_iff (h : WithStranger db db' i email u) (hm : i ≠ m)
    (d : Ident) : db.deviceMerchant d = some m ↔ db'.deviceMerchant d = some m := by
  by_cases hd : d = i
  · subst hd
    refine iff_of_false (fun howner => ?_) fun howner => ?_
    · -- the identifier was free
      have hfree := Table.insert_isSome_iff.mp (h.devices ▸ Option.isSome_some) (.id d)
        List.mem_cons_self
      have hhas : (db.deviceMerchant d).isSome = db.devices.has (.id d) := deviceMerchant_isSome
      rw [howner, hfree] at hhas
      cases hhas
    · rw [h.deviceMerchant_self] at howner
      exact hm (Option.some.inj howner)
  · have hkey : DeviceKey.id d ∉ UniqueKeys.keys (strangerDevice i) := by
      rw [device_id_mem_keys]
      exact fun heq => hd heq.symm
    unfold Db.deviceMerchant
    rw [Table.findUnique_insert_of_not_mem h.devices hkey]

/-- The other merchants' rows are those there were. -/
theorem WithStranger.agreeOn (h : WithStranger db db' i email u) (hm : i ≠ m) :
    AgreeOn m db db' := by
  refine ⟨h.deviceMerchant_iff hm, ?_, ?_⟩
  · have hout : decide (db'.deviceMerchant (strangerSale i db.newId u).idDevice = some m)
        = false := by
      rw [strangerSale, h.deviceMerchant_self, decide_eq_false_iff_not]
      exact fun heq => hm (Option.some.inj heq)
    unfold Db.ownTransactions
    rw [Table.filter_insert h.transactions hout]
    exact List.filter_congr fun t _ => decide_eq_decide.mpr (h.deviceMerchant_iff hm _)
  · unfold Db.ownSyncQueues
    rw [h.syncQueues]
    exact List.filter_congr fun q _ => decide_eq_decide.mpr (h.deviceMerchant_iff hm _)

end WithStranger

/-- The database with a sale's status turned round answers otherwise. -/
theorem status_flipped (ht : t ∈ db.transactions.rows) (hu : t.offlineUuid = some u)
    {uuids : List Ident} (hmem : u ∈ uuids) :
    Sync.getStatusByOfflineUuids (db.relabel t.idTransaction Transaction.flipped) uuids ≠
      Sync.getStatusByOfflineUuids db uuids := by
  intro heq
  have ht' : Transaction.flipped t ∈
      (db.relabel t.idTransaction Transaction.flipped).transactions.rows :=
    mem_relabel.mpr (Or.inl ⟨t, ht, rfl, rfl⟩)
  have hanswer := List.map_inj_left.mp heq u hmem
  rw [statusAnswer_stored ht hu hmem, statusAnswer_stored ht' hu hmem] at hanswer
  have hstatus := congrArg StatusAnswer.status hanswer
  simp only [storedAnswer, Transaction.flipped] at hstatus
  by_cases hc : t.syncStatus = .SYNC_CONFLICT <;> simp [hc] at hstatus

/-- A database with a sale under the UUID answers otherwise than one without. -/
theorem status_of_stored (hu : db.transactions.has (.offlineUuid u) = false)
    (hu' : ∃ t ∈ db'.transactions.rows, t.offlineUuid = some u)
    {uuids : List Ident} (hmem : u ∈ uuids) :
    Sync.getStatusByOfflineUuids db' uuids ≠ Sync.getStatusByOfflineUuids db uuids := by
  intro heq
  obtain ⟨t, ht, htu⟩ := hu'
  have hanswer := List.map_inj_left.mp heq u hmem
  have hnone : ∀ s ∈ db.transactions.rows.filter fun t => isIn uuids t.offlineUuid,
      s.offlineUuid ≠ some u := by
    intro s hs hsu
    exact Table.has_eq_false.mp hu s (List.mem_filter.mp hs).1 (offlineUuid_mem_keys.mpr hsu)
  have hid := congrArg StatusAnswer.transactionId hanswer
  rw [statusAnswer_stored ht htu hmem, statusAnswer_not_stored hnone] at hid
  cases hid

end Strangers

/-! ## When the answers keep to the merchant -/

/-- **The answers are determined by the merchant's own rows** exactly where each UUID asked for
is that of a stored sale of the merchant's devices. -/
theorem status_isolated_iff {db : Db} (hdb : Wired db) (user : JwtPayload) (uuids : List Ident) :
    (∀ db', Wired db' → AgreeOn user.idMerchant db db' →
      Sync.getStatusByOfflineUuids db' uuids = Sync.getStatusByOfflineUuids db uuids) ↔
    ∀ u ∈ uuids, ∃ t ∈ db.ownTransactions user.idMerchant, t.offlineUuid = some u := by
  constructor
  · intro h u hmem
    by_contra hown
    cases hu : db.transactions.has (.offlineUuid u) with
    | true =>
      -- another merchant's sale has the UUID
      obtain ⟨t, ht, hkey⟩ := Table.has_iff.mp hu
      have htu := offlineUuid_mem_keys.mp hkey
      have hm : db.deviceMerchant t.idDevice ≠ some user.idMerchant :=
        fun hm => hown ⟨t, mem_ownTransactions.mpr ⟨ht, hm⟩, htu⟩
      exact status_flipped ht htu hmem (h _ (wired_flipped hdb _) (agreeOn_flipped ht hm))
    | false =>
      -- it may be that of another merchant's sale
      obtain ⟨db', i, email, hm, hnew⟩ := exists_withStranger hdb hu user.idMerchant
      have hstored : ∃ t ∈ db'.transactions.rows, t.offlineUuid = some u :=
        ⟨_, (Table.mem_insert hnew.transactions).mpr (Or.inr rfl), rfl⟩
      exact status_of_stored hu hstored hmem (h db' (hnew.wired hdb) (hnew.agreeOn hm))
  · intro h db' _ hagree
    exact status_eq_of_own h hagree

/-- The shop after a sale under the UUID `a`, and a second merchant. -/
def beforeSale : Db := after shop (otherOpening ++ [shopSync "a" [3]])

/-- The same after a sale under the UUID `b` at the second merchant's till. -/
def afterSale : Db := after beforeSale [.sync (shopQueued otherDevice "b" [3]) (.served 1)]

theorem reachable_beforeSale : Reachable systemUsers beforeSale := reachable_after_shop _

theorem reachable_afterSale : Reachable systemUsers afterSale :=
  reachable_beforeSale.trans (reaches_after _ _)

/-- The shop's rows are the same before and after. -/
theorem agreeOn_sale : AgreeOn shopMerchant beforeSale afterSale := by
  have hrows : beforeSale.devices.rows = afterSale.devices.rows := by decide +kernel
  refine ⟨fun d => ?_, ?_, ?_⟩
  · unfold Db.deviceMerchant Table.findUnique
    rw [hrows]
  · decide +kernel
  · decide +kernel

/-- The shop's own sale is answered alike before and after. -/
theorem status_isolated_shop : Sync.getStatusByOfflineUuids afterSale [.text "a"] =
    Sync.getStatusByOfflineUuids beforeSale [.text "a"] := by
  have hown : ∀ u ∈ [Ident.text "a"], ∃ t ∈ beforeSale.ownTransactions shopOwner.idMerchant,
      t.offlineUuid = some u := by decide +kernel
  exact (status_isolated_iff reachable_beforeSale.wired shopOwner [.text "a"]).mpr hown
    afterSale reachable_afterSale.wired agreeOn_sale

/-- **Another merchant's sale shows**: its UUID is unknown before it and synced after it. -/
theorem status_not_isolated : ¬ ∀ (us : Table User) (db db' : Db) (user : JwtPayload)
    (uuids : List Ident), Reachable us db → Reachable us db' → AgreeOn user.idMerchant db db' →
      Sync.getStatusByOfflineUuids db' uuids = Sync.getStatusByOfflineUuids db uuids := by
  intro h
  have hstatus := h systemUsers beforeSale afterSale shopOwner [.text "b"] reachable_beforeSale
    reachable_afterSale agreeOn_sale
  have hdiff : Sync.getStatusByOfflineUuids afterSale [.text "b"] ≠
      Sync.getStatusByOfflineUuids beforeSale [.text "b"] := by decide +kernel
  exact hdiff hstatus

end KPos
