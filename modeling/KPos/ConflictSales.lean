/-
# Sales in conflict (`sync-consumer.service.ts`)

A sale whose stock check reports a conflict should be stored as PENDING with its lines and its
payment.  The check counts a line without an inventory row as a conflict too, and the lines
are stored under a foreign key to the products.

* `ConflictKept` : what such a sale should leave;
* `selectForUpdate_eq_none_iff` : a line without a row names no product;
* `conflict_kept_iff` : the sale is kept exactly when its lines name products;
* `conflict_rejected` : one that is not.
-/
import KPos.Catalogue
import KPos.Storing

namespace KPos

/-- A sale was stored as a conflict, with all its lines and its payment, and the stock is as it
was. -/
structure ConflictKept (db db' : Db) (data : QueuedTransaction) (now : DateTime) : Prop where
  transaction : ∃ t, db'.transactions.rows = db.transactions.rows ++ [t] ∧
    t.idTransaction = db.newId ∧ t.idDevice = data.idDevice ∧
    t.offlineUuid = some data.offlineUuid ∧ t.status = .PENDING ∧ t.syncStatus = .SYNC_CONFLICT
  details : db'.details = db.details ++ saleDetails data db.newId now
  payment : ∃ p, db'.payments.rows = db.payments.rows ++ [p] ∧ p.idTransaction = db.newId ∧
    p.amount = roundCents data.payment.amount ∧ p.method = data.payment.method
  inventories : db'.inventories = db.inventories
  histories : db'.stockHistories = db.stockHistories

section ConflictSales

variable {us : Table User} {db : Db} {data : QueuedTransaction}

/-- In every reachable state the stock check finds no row exactly when there is no product. -/
theorem selectForUpdate_eq_none_iff (hdb : Stocked db) {p : Ident} :
    db.selectForUpdate p = none ↔ db.products.has (.id p) = false := by
  constructor
  · intro hnone
    rw [Bool.eq_false_iff]
    intro hhas
    -- a product has an inventory
    rw [productMerchant_isSome] at hhas
    obtain ⟨m, hm⟩ := Option.isSome_iff_exists.mp hhas
    obtain ⟨-, -, hinv⟩ := hdb.products p m hm
    obtain ⟨i, hi⟩ := Option.isSome_iff_exists.mp hinv
    obtain ⟨q, hq⟩ := Option.isSome_iff_exists.mp
      (productMerchant_isSome.mpr (Option.isSome_iff_exists.mpr ⟨m, hm⟩))
    have hip : i.idProduct = p := by
      have hkey := (Table.findUnique_eq_some.mp hi).2
      simpa [UniqueKeys.keys, eq_comm] using hkey
    unfold Db.selectForUpdate at hnone
    rw [hi] at hnone
    simp [hip, hq] at hnone
  · intro hfree
    cases hsel : db.selectForUpdate p with
    | none => rfl
    | some inv =>
      obtain ⟨-, -, q, hq, -⟩ := selectForUpdate_eq_some hsel
      unfold Table.has at hfree
      rw [hq] at hfree
      cases hfree

/-- **When a sale in conflict is kept**: when every line names a product. -/
theorem conflict_kept_iff (now : DateTime) (hreach : Reachable us db) (hsum : data.Arithmetic)
    (hvalues : data.ValuesFit) (hdates : data.DatesParse)
    (huuid : db.transactions.has (.offlineUuid data.offlineUuid) = false)
    (hdevice : db.devices.has (.id data.idDevice) = true)
    (hconflict : checkStockAvailability db data.items = true) :
    (∃ db', processTransaction db data now = .ok db' ∧ ConflictKept db db' data now) ↔
      ∀ item ∈ data.items, db.products.has (.id item.idProduct) = true := by
  constructor
  · rintro ⟨db', hok, -⟩
    exact (processTransaction_needs hok).2.1.products
  · intro hproducts
    obtain ⟨db', hok⟩ := (processTransaction_isOk hreach.wired now).mpr
      ⟨hsum, ⟨hdevice, hvalues, hdates, hproducts, huuid⟩, fun hcheck => by
        rw [hconflict] at hcheck
        cases hcheck⟩
    refine ⟨db', hok, ?_⟩
    unfold processTransaction at hok
    simp only [bind_eq_ok, validateArithmetic_eq_ok, exists_const, hconflict,
      storeTransaction_eq_ok, if_true] at hok
    obtain ⟨-, d, created, ts, ps, hins, rfl⟩ := hok
    exact
      { transaction := ⟨_, (Table.insert_eq_some.mp hins.header).2, rfl, rfl, rfl, rfl, rfl⟩
        details := rfl
        payment := ⟨_, (Table.insert_eq_some.mp hins.payment).2, rfl, rfl, rfl⟩
        inventories := rfl
        histories := rfl }

end ConflictSales

/-! ## Two sales in the shop -/

/-- Eleven pieces of ten. -/
def elevenPieces : QueuedTransaction := shopQueued shopDevice "a" [11]

/-- Eleven pieces of a product that the shop does not have. -/
def unknownProduct : QueuedTransaction :=
  { elevenPieces with
    items := [⟨.text "gone", 11, 2, 22, "Gone", "GONE", ⟨"2026-01-01", some 0⟩⟩] }

/-- More than there is: the sale is kept. -/
theorem conflict_kept_elevenPieces : ∃ db', processTransaction shop elevenPieces 1 = .ok db' ∧
    ConflictKept shop db' elevenPieces 1 :=
  (conflict_kept_iff 1 (reachable_shopWith systemUsers) (arithmetic_shopQueued _ _ (by decide))
    (valuesFit_shopQueued _ _ (by decide)) (datesParse_shopQueued _ _ _) (by decide +kernel)
    (by decide +kernel) (by decide +kernel)).mpr
    (by decide +kernel)

/-- **A conflict is rejected**: its product is unknown. -/
theorem conflict_rejected : ¬ ∀ (us : Table User) (db : Db) (data : QueuedTransaction)
    (now : DateTime), Reachable us db → data.Arithmetic → data.ValuesFit → data.DatesParse →
      db.transactions.has (.offlineUuid data.offlineUuid) = false →
      db.devices.has (.id data.idDevice) = true → checkStockAvailability db data.items = true →
        ∃ db', processTransaction db data now = .ok db' ∧ ConflictKept db db' data now := by
  intro h
  obtain ⟨db', hok, -⟩ := h systemUsers shop unknownProduct 1 (reachable_shopWith systemUsers)
    ⟨by decide +kernel, by decide +kernel, by decide +kernel⟩
    ⟨by decide +kernel, by decide +kernel, by decide +kernel, by decide +kernel, rfl, rfl⟩
    ⟨rfl, by decide +kernel⟩ (by decide +kernel) (by decide +kernel) (by decide +kernel)
  have herror : (processTransaction shop unknownProduct 1).isOk = false := by decide +kernel
  rw [hok] at herror
  cases herror

end KPos
