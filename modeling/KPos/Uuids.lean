/-
# One UUID on two devices (`schema.prisma`, `sync-consumer.service.ts`)

The consumer looks an item up by its device and its UUID together, so two devices may well
choose one UUID.  The table has a second constraint, on the UUID alone, and the sale of the
device that comes second breaks it.

* `StoresBoth` : what processing the two sales one after the other should leave;
* `uuid_on_one_device` : it never does;
* `uuid_not_per_device` : two sales that could each be stored alone.
-/
import KPos.Recording

namespace KPos

/-! ## Two sales -/

/-- Sales of two existing devices with one UUID, which is new; the payloads are sound, and the
products exist. -/
structure SharedUuid (db : Db) (a b : QueuedTransaction) : Prop where
  devices : a.idDevice ≠ b.idDevice
  uuid : a.offlineUuid = b.offlineUuid
  arithmetic : a.Arithmetic ∧ b.Arithmetic
  storable : Storable db a ∧ Storable db b

/-- In `db'` the item has a row, with the status that the stock of `db` called for. -/
def StoredByStock (db db' : Db) (data : QueuedTransaction) : Prop :=
  ∃ t ∈ db'.transactions.rows, t.idDevice = data.idDevice ∧
    t.offlineUuid = some data.offlineUuid ∧
    (t.status, t.syncStatus) = if checkStockAvailability db data.items then
      (.PENDING, .SYNC_CONFLICT) else (.CONFIRMED, .SYNCED)

/-- Both items are stored when `b` is processed after `a`. -/
def StoresBoth (db : Db) (a b : QueuedTransaction) (now₁ now₂ : DateTime) : Prop :=
  let db₁ := exec db (.sync a (.served now₁))
  let db₂ := exec db₁ (.sync b (.served now₂))
  StoredByStock db db₂ a ∧ StoredByStock db₁ db₂ b

section Uuids

variable {db db' : Db} {a b : QueuedTransaction}

theorem StoredByStock.isStored (h : StoredByStock db db' a) : db'.isStored a = true := by
  obtain ⟨t, ht, hd, hu, -⟩ := h
  exact isStored_iff.mpr ⟨t, ht, hd, hu⟩

/-- **A UUID is stored for one device at most.** -/
theorem idDevice_eq_of_isStored (ha : db.isStored a = true) (hb : db.isStored b = true)
    (huuid : a.offlineUuid = b.offlineUuid) : a.idDevice = b.idDevice := by
  obtain ⟨s, hs, hsd, hsu⟩ := isStored_iff.mp ha
  obtain ⟨t, ht, htd, htu⟩ := isStored_iff.mp hb
  -- both rows occupy the key of the UUID alone
  have heq : s = t := Table.eq_of_key hs ht (offlineUuid_mem_keys.mpr hsu)
    (offlineUuid_mem_keys.mpr (htu.trans (congrArg some huuid.symm)))
  rw [← hsd, ← htd, heq]

/-- Two devices never both have their sales stored under one UUID. -/
theorem not_storesBoth (hdev : a.idDevice ≠ b.idDevice) (huuid : a.offlineUuid = b.offlineUuid)
    (now₁ now₂ : DateTime) : ¬ StoresBoth db a b now₁ now₂ := by
  rintro ⟨ha, hb⟩
  exact hdev (idDevice_eq_of_isStored ha.isStored hb.isStored huuid)

/-- A stored item stays stored. -/
theorem Grows.isStored (h : Grows db db') (ha : db.isStored a = true) :
    db'.isStored a = true := h.transactions _ ha

/-- An acceptable item that is processed alone is stored. -/
theorem Acceptable.isStored (h : Acceptable db a) (hdb : Wired db) (now : DateTime) :
    (exec db (.sync a (.served now))).isStored a = true := by
  obtain ⟨db₁, hok⟩ := (acceptable_iff hdb a now).mpr h
  have hexec : exec db (.sync a (.served now)) = db₁ :=
    handleItem_eq (isStored_eq_false h.storable.uuid) hok
  obtain ⟨-, d, created, hsale⟩ := processTransaction_stored hok
  rw [hexec, isStored_iff]
  exact ⟨_, (Table.mem_insert hsale.insertable.header).mpr (Or.inr rfl), rfl, rfl⟩

/-- **The two sales are never both stored**, in neither order; and once the first one is stored,
which it is if it is acceptable, the second one is not. -/
theorem uuid_on_one_device {us : Table User} (hreach : Reachable us db) (h : SharedUuid db a b)
    (now₁ now₂ : DateTime) :
    ¬ StoresBoth db a b now₁ now₂ ∧ ¬ StoresBoth db b a now₁ now₂ ∧
      (Acceptable db a → (exec db (.sync a (.served now₁))).isStored a = true ∧
        (exec (exec db (.sync a (.served now₁))) (.sync b (.served now₂))).isStored b = false) := by
  refine ⟨not_storesBoth h.devices h.uuid now₁ now₂,
    not_storesBoth h.devices.symm h.uuid.symm now₁ now₂, fun ha => ?_⟩
  have hstored := ha.isStored hreach.wired now₁
  refine ⟨hstored, Bool.eq_false_of_not_eq_true fun hb => h.devices ?_⟩
  exact idDevice_eq_of_isStored ((exec_grows _ _).isStored hstored) hb h.uuid

end Uuids

/-- Each till sells a few pieces under the same UUID. -/
def tillSales : List QueuedTransaction :=
  [shopQueued shopDevice "a" [3], shopQueued otherDevice "a" [4]]

theorem mem_tillSales {x : QueuedTransaction} (hx : x ∈ tillSales) :
    x = shopQueued shopDevice "a" [3] ∨ x = shopQueued otherDevice "a" [4] := by
  simpa [tillSales] using hx

theorem storable_tillSales {x : QueuedTransaction} (hx : x ∈ tillSales) : Storable twoShops x where
  device := (by decide +kernel : ∀ x ∈ tillSales,
    twoShops.devices.has (.id x.idDevice) = true) x hx
  values := by
    rcases mem_tillSales hx with rfl | rfl
    · exact valuesFit_shopQueued _ _ (by decide)
    · exact valuesFit_shopQueued _ _ (by decide)
  dates := by
    rcases mem_tillSales hx with rfl | rfl
    · exact datesParse_shopQueued _ _ _
    · exact datesParse_shopQueued _ _ _
  products := (by decide +kernel : ∀ x ∈ tillSales, ∀ item ∈ x.items,
    twoShops.products.has (.id item.idProduct) = true) x hx
  uuid := (by decide +kernel : ∀ x ∈ tillSales,
    twoShops.transactions.has (.offlineUuid x.offlineUuid) = false) x hx

theorem sharedUuid_tillSales : SharedUuid twoShops (shopQueued shopDevice "a" [3])
    (shopQueued otherDevice "a" [4]) where
  devices := by decide
  uuid := rfl
  arithmetic := ⟨arithmetic_shopQueued _ _ (by decide), arithmetic_shopQueued _ _ (by decide)⟩
  storable := ⟨storable_tillSales (by simp [tillSales]), storable_tillSales (by simp [tillSales])⟩

/-- The sale of the second till is not stored after the one of the first. -/
theorem uuid_on_one_device_tills : ¬ StoresBoth twoShops (shopQueued shopDevice "a" [3])
    (shopQueued otherDevice "a" [4]) 1 2 :=
  (uuid_on_one_device reachable_twoShops sharedUuid_tillSales 1 2).1

/-- **A UUID is not free for each device.** -/
theorem uuid_not_per_device : ¬ ∀ (us : Table User) (db : Db) (a b : QueuedTransaction)
    (now₁ now₂ : DateTime), Reachable us db → us.has (.id systemSync) = true →
      SharedUuid db a b → StoresBoth db a b now₁ now₂ ∧ StoresBoth db b a now₁ now₂ := by
  intro h
  have hboth := h systemUsers twoShops _ _ 1 2 reachable_twoShops (by decide +kernel)
    sharedUuid_tillSales
  exact not_storesBoth sharedUuid_tillSales.devices rfl 1 2 hboth.1

end KPos
