/-
# What a call can do

`Effect db op db'` says in a few cases what a call can do to the sales: to the transactions,
their detail lines, the stock with its history, and the corrections.  Every result about
runs of calls is proved by cases on it, and never looks into the services again.

* `StoredSale`, `Corrected` : what the two long database transactions leave;
* `exec_effect` : every call does one of the things listed.
-/
import KPos.Operations

namespace KPos

/-! ## Frames -/

/-- Nothing that accounts for a sale changed. -/
structure SameSales (db db' : Db) : Prop where
  transactions : db'.transactions = db.transactions
  details : db'.details = db.details
  histories : db'.stockHistories = db.stockHistories
  corrections : db'.corrections = db.corrections
  stock : ∀ p, db'.stock p = db.stock p
  payments : ∀ k, db.payments.has k = true → db'.payments.has k = true

theorem SameSales.refl (db : Db) : SameSales db db :=
  ⟨rfl, rfl, rfl, rfl, fun _ => rfl, fun _ h => h⟩

theorem SameSales.trans {db₁ db₂ db₃ : Db} (h₁ : SameSales db₁ db₂) (h₂ : SameSales db₂ db₃) :
    SameSales db₁ db₃ where
  transactions := h₂.transactions.trans h₁.transactions
  details := h₂.details.trans h₁.details
  histories := h₂.histories.trans h₁.histories
  corrections := h₂.corrections.trans h₁.corrections
  stock := fun p => (h₂.stock p).trans (h₁.stock p)
  payments := fun k hk => h₂.payments k (h₁.payments k hk)

/-- The detail lines `ds` and the movements `hs` were entered, and the stock moved with the
movements. -/
structure Entered (db db' : Db) (ds : List DetailTransaction) (hs : List StockHistory) :
    Prop where
  details : db'.details = db.details ++ ds
  histories : db'.stockHistories = db.stockHistories ++ hs
  stock : ∀ p, db'.stock p = db.stock p + movement p hs

/-- Lines of other transactions leave those of `k` as they are. -/
theorem Entered.detailsOf_eq {db db' : Db} {ds : List DetailTransaction}
    {hs : List StockHistory} {k : Ident} (h : Entered db db' ds hs)
    (hds : ∀ d ∈ ds, d.idTransaction ≠ k) : db'.detailsOf k = db.detailsOf k := by
  have hnew : ds.filter (fun d => decide (d.idTransaction = k)) = [] := by
    rw [List.filter_eq_nil_iff]
    intro d hd
    simpa using hds d hd
  unfold Db.detailsOf
  rw [h.details, List.filter_append, hnew, List.append_nil]

theorem SameSales.entered {db db' : Db} (h : SameSales db db') : Entered db db' [] [] where
  details := by rw [h.details, List.append_nil]
  histories := by rw [h.histories, List.append_nil]
  stock := fun p => by rw [h.stock p, movement_nil, add_zero]

theorem StockMoved.entered {db db' : Db} {hs : List StockHistory} (h : StockMoved db db' hs) :
    Entered db db' [] hs where
  details := by rw [h.frame, List.append_nil]
  histories := h.histories
  stock := h.stock

/-! ## Calls that leave the sales alone -/

section Alone

variable {db db' : Db}

theorem createUser_sameSales {row : User} (h : db.createUser row = .ok db') :
    SameSales db db' := by
  obtain ⟨-, us, -, rfl⟩ := createUser_eq_ok.mp h
  exact ⟨rfl, rfl, rfl, rfl, fun _ => rfl, fun _ h => h⟩

theorem updateDevice_sameSales {i : Ident} {f : Device → Device}
    (h : db.updateDevice i f = .ok db') : SameSales db db' := by
  obtain ⟨-, ds, -, rfl⟩ := updateDevice_eq_ok.mp h
  exact ⟨rfl, rfl, rfl, rfl, fun _ => rfl, fun _ h => h⟩

theorem updateProduct_sameSales {i : Ident} {f : Product → Product}
    (h : db.updateProduct i f = .ok db') : SameSales db db' := by
  obtain ⟨p, ps, -, -, -, rfl⟩ := updateProduct_eq_ok.mp h
  exact ⟨rfl, rfl, rfl, rfl, fun _ => rfl, fun _ h => h⟩

theorem createSyncQueue_sameSales {row : SyncQueue} (h : db.createSyncQueue row = .ok db') :
    SameSales db db' := by
  obtain ⟨-, -, qs, -, rfl⟩ := createSyncQueue_eq_ok.mp h
  exact ⟨rfl, rfl, rfl, rfl, fun _ => rfl, fun _ h => h⟩

theorem createReconciliation_sameSales {row : Reconciliation}
    (h : db.createReconciliation row = .ok db') : SameSales db db' := by
  obtain ⟨-, -, rs, -, rfl⟩ := createReconciliation_eq_ok.mp h
  exact ⟨rfl, rfl, rfl, rfl, fun _ => rfl, fun _ h => h⟩

theorem updateReconciliation_sameSales {i u : Ident} {f : Rewrite Reconciliation}
    (h : db.updateReconciliation i u f = .ok db') : SameSales db db' := by
  obtain ⟨-, -, rfl⟩ := updateReconciliation_eq_ok.mp h
  exact ⟨rfl, rfl, rfl, rfl, fun _ => rfl, fun _ h => h⟩

theorem updatePayment_sameSales {i : Ident} {f : Rewrite Payment}
    (h : db.updatePayment i f = .ok db') : SameSales db db' := by
  obtain ⟨-, rfl⟩ := updatePayment_eq_ok.mp h
  refine ⟨rfl, rfl, rfl, rfl, fun _ => rfl, fun k hk => ?_⟩
  show (db.payments.update (.id i) f).has k = true
  rw [Table.has_update]
  exact hk

/-- The stock of a new product is what it was without an inventory row. -/
theorem stock_insert_inventory {inv : Inventory} {is : Table Inventory}
    (h : db.inventories.insert inv = some is) (h0 : inv.currentStock = 0) (p : Ident) :
    Db.stock { db with inventories := is } p = db.stock p := by
  unfold Db.stock stockIn
  by_cases hp : InventoryKey.product p ∈ UniqueKeys.keys inv
  · have hold : db.inventories.findUnique (.product p) = none := by
      rw [Table.findUnique_eq_none]
      exact fun i hi => Table.free_of_insert h hi hp
    have hnew : is.findUnique (.product p) = some inv := by
      rw [Table.findUnique_eq_some]
      exact ⟨(Table.mem_insert h).mpr (Or.inr rfl), hp⟩
    rw [hold, hnew]
    simp [h0]
  · rw [Table.findUnique_insert_of_not_mem h hp]

theorem createRows_sameSales {user : JwtPayload} {dto : CreateProductDto} {sku : String}
    {now : DateTime} (h : Products.createRows db user dto sku now = .ok db') :
    SameSales db db' := by
  obtain ⟨-, -, -, ps, is, -, -, his, rfl⟩ := createProductWithInventory_eq_ok.mp h
  exact ⟨rfl, rfl, rfl, rfl, stock_insert_inventory his rfl, fun _ h => h⟩

/-- What a registration writes. -/
theorem register_eq_ok {dto : RegisterDto} {hashed : String}
    (h : Auth.register db dto hashed = .ok db') :
    ∃ ms us, db.merchants.insert ⟨db.newId, dto.merchantName⟩ = some ms ∧
      db' = { db with merchants := ms, users := us, seq := db.seq + 2 } := by
  unfold Auth.register at h
  simp only [bind_eq_ok, require_eq_ok, exists_const] at h
  obtain ⟨-, _, h₁, h₂⟩ := h
  obtain ⟨ms, hms, rfl⟩ := createMerchant_eq_ok.mp h₁
  obtain ⟨-, us, -, rfl⟩ := createUser_eq_ok.mp h₂
  exact ⟨ms, us, hms, rfl⟩

/-- The creation of a user writes to the users only. -/
theorem users_create_eq_ok {owner : Ident} {dto : CreateUserDto} {hashed : String}
    (h : Users.create db owner dto hashed = .ok db') :
    ∃ us, db' = { db with users := us, seq := db.seq + 1 } := by
  obtain ⟨_, -, h⟩ := bind_eq_ok.mp h
  obtain ⟨-, us, -, hdb⟩ := createUser_eq_ok.mp h
  exact ⟨us, hdb⟩

/-- So does the update of a user. -/
theorem updateStatus_eq_ok {target owner : Ident} {isActive : Bool}
    (h : Users.updateStatus db target owner isActive = .ok db') :
    ∃ us, db' = { db with users := us } := by
  obtain ⟨_, -, h⟩ := bind_eq_ok.mp h
  obtain ⟨_, -, h⟩ := bind_eq_ok.mp h
  exact ⟨_, (updateUser_eq_ok.mp h).2⟩

theorem register_sameSales {dto : RegisterDto} {hashed : String}
    (h : Auth.register db dto hashed = .ok db') : SameSales db db' := by
  unfold Auth.register at h
  simp only [bind_eq_ok, require_eq_ok, exists_const] at h
  obtain ⟨-, db₁, h₁, h₂⟩ := h
  obtain ⟨ms, -, rfl⟩ := createMerchant_eq_ok.mp h₁
  have hm : SameSales db { db with merchants := ms, seq := db.seq + 1 } :=
    ⟨rfl, rfl, rfl, rfl, fun _ => rfl, fun _ h => h⟩
  exact hm.trans (createUser_sameSales h₂)

theorem users_create_sameSales {owner : Ident} {dto : CreateUserDto} {hashed : String}
    (h : Users.create db owner dto hashed = .ok db') : SameSales db db' := by
  unfold Users.create at h
  simp only [bind_eq_ok, require_eq_ok, exists_const] at h
  exact createUser_sameSales h.2

theorem updateStatus_sameSales {target owner : Ident} {isActive : Bool}
    (h : Users.updateStatus db target owner isActive = .ok db') : SameSales db db' := by
  unfold Users.updateStatus at h
  simp only [bind_eq_ok, orThrow_eq_ok, require_eq_ok, exists_const] at h
  obtain ⟨u, -, -, h⟩ := h
  obtain ⟨-, rfl⟩ := updateUser_eq_ok.mp h
  exact ⟨rfl, rfl, rfl, rfl, fun _ => rfl, fun _ h => h⟩

theorem devices_create_sameSales {m u : Ident} {name code : String} {now : DateTime}
    (h : Devices.create db m u name code now = .ok db') : SameSales db db' := by
  obtain ⟨-, -, ds, -, rfl⟩ := createDevice_eq_ok.mp h
  exact ⟨rfl, rfl, rfl, rfl, fun _ => rfl, fun _ h => h⟩

/-- A pairing that goes through is an update of the device found by its code. -/
theorem pairDevice_eq_ok {code hash : String}
    (h : Devices.pairDevice db code hash = .ok db') :
    ∃ d, db.devices.findUnique (.pairingCode code) = some d ∧ d.status = .UNPAIRED ∧
      db.updateDevice d.idDevice (·.paired hash) = .ok db' := by
  unfold Devices.pairDevice Devices.pairDeviceRead at h
  simp only [bind_eq_ok, orThrow_eq_ok, require_eq_ok, pure_eq_ok, decide_eq_true_eq,
    exists_const] at h
  obtain ⟨_, ⟨d, hd, hs, rfl⟩, h⟩ := h
  refine ⟨d, hd, hs, ?_⟩
  unfold Devices.pairDeviceWrite at h
  split at h
  · cases h
  · exact h

/-- A removal that goes through is an update of an active device of the merchant. -/
theorem removeDevice_eq_ok {idDevice idMerchant : Ident}
    (h : Devices.remove db idDevice idMerchant = .ok db') :
    ∃ d ∈ db.devices.rows, d.idDevice = idDevice ∧ d.idMerchant = idMerchant ∧
      d.isActive = true ∧ db.updateDevice idDevice Device.revoked = .ok db' := by
  unfold Devices.remove Devices.removeRead Devices.removeWrite at h
  simp only [bind_eq_ok, orThrow_eq_ok] at h
  obtain ⟨d, hd, h⟩ := h
  have hp := List.find?_some hd
  simp only [Bool.and_eq_true, decide_eq_true_eq] at hp
  exact ⟨d, List.mem_of_find?_eq_some hd, hp.1.1, hp.1.2, hp.2, h⟩

theorem catchDuplicate_eq_ok {sku : String} {r : Except Err Db}
    (h : Products.catchDuplicate sku r = .ok db') : r = .ok db' := by
  unfold Products.catchDuplicate at h
  split at h
  · cases h
  · exact h

theorem attachImage_cases (db : Db) (idProduct : Ident) (upload : Upload) :
    (Products.attachImage db idProduct upload).1 = db ∨
      ∃ imageUrl, db.updateProduct idProduct (fun p => { p with imageUrl := some imageUrl })
        = .ok (Products.attachImage db idProduct upload).1 := by
  unfold Products.attachImage
  cases upload with
  | noFile => exact Or.inl rfl
  | refused e => exact Or.inl rfl
  | stored imageUrl =>
    dsimp only
    split
    · exact Or.inl rfl
    · rename_i db' hup
      exact Or.inr ⟨imageUrl, hup⟩

/-- A product creation leaves the new rows, then an image reference or not. -/
theorem products_create_cases (db : Db) (user : JwtPayload) (dto : CreateProductDto)
    (upload : Upload) (now : DateTime) :
    (Products.create db user dto upload now).1 = db ∨
      ∃ db₁, Products.createRows db user dto (dto.generatedSku now) now = .ok db₁ ∧
        ((Products.create db user dto upload now).1 = db₁ ∨
          ∃ imageUrl, db₁.updateProduct db.newId (fun p => { p with imageUrl := some imageUrl })
            = .ok (Products.create db user dto upload now).1) := by
  unfold Products.create
  split
  · exact Or.inl rfl
  · rename_i db₁ hrows
    exact Or.inr ⟨db₁, catchDuplicate_eq_ok hrows, attachImage_cases db₁ db.newId upload⟩

theorem products_create_sameSales (db : Db) (user : JwtPayload) (dto : CreateProductDto)
    (upload : Upload) (now : DateTime) :
    SameSales db (Products.create db user dto upload now).1 := by
  rcases products_create_cases db user dto upload now with h | ⟨db₁, h₁, h | ⟨_, h⟩⟩
  · rw [h]
    exact .refl db
  · rw [h]
    exact createRows_sameSales h₁
  · exact (createRows_sameSales h₁).trans (updateProduct_sameSales h)

/-- A product update that goes through is an update of a product of the user's merchant. -/
theorem products_update_eq_ok {user : JwtPayload} {productId : Ident} {dto : UpdateProductDto}
    {upload : Upload} (h : Products.update db user productId dto upload = .ok db') :
    ∃ imageUrl, db.updateProduct productId (Product.updated dto imageUrl) = .ok db' := by
  unfold Products.update at h
  simp only [bind_eq_ok, orThrow_eq_ok, require_eq_ok, exists_const] at h
  obtain ⟨_, -, -, imageUrl, -, h⟩ := h
  exact ⟨imageUrl, catchDuplicate_eq_ok h⟩

theorem products_remove_eq_ok {user : JwtPayload} {productId : Ident}
    (h : Products.remove db user productId = .ok db') :
    db.updateProduct productId (fun p => { p with isActive := false }) = .ok db' := by
  unfold Products.remove at h
  simp only [bind_eq_ok, orThrow_eq_ok] at h
  obtain ⟨_, -, h⟩ := h
  exact h

theorem reconciliations_create_sameSales {user : JwtPayload} {dto : CreateReconciliationDto}
    {now : DateTime} (h : Reconciliations.create db user dto now = .ok db') :
    SameSales db db' := by
  unfold Reconciliations.create Reconciliations.createWrite at h
  rw [bind_eq_ok] at h
  obtain ⟨_, -, h⟩ := h
  exact createReconciliation_sameSales h

theorem payments_reconcile_sameSales {user : JwtPayload} {paymentId : Ident}
    {dto : CreateReconciliationDto} {now : DateTime}
    (h : Payments.reconcile db user paymentId dto now = .ok db') : SameSales db db' := by
  unfold Payments.reconcile Reconciliations.createWrite at h
  rw [bind_eq_ok] at h
  obtain ⟨_, -, h⟩ := h
  exact createReconciliation_sameSales h

end Alone

/-! ## A synchronised sale -/

/-- The history rows of `deductInventory`. -/
def saleHistories (data : QueuedTransaction) (txId merchantId : Ident) (now : DateTime) :
    List StockHistory :=
  (data.items.map (saleMovement data txId merchantId)).map (·.history now)

/-- The movements of a loop name what its calls name. -/
theorem named_of_map {α : Type} {l : List α} {f : α → AdjustInventoryParams} {now : DateTime}
    {o : Option Ident} (hf : ∀ a, (f a).idTransaction = o) :
    ∀ r ∈ (l.map f).map (·.history now), r.idTransaction = o := by
  intro r hr
  rw [List.map_map] at hr
  obtain ⟨a, -, rfl⟩ := List.mem_map.mp hr
  exact hf a

/-- The movements of a loop move the products of its calls. -/
theorem mem_histories {α : Type} {l : List α} {f : α → AdjustInventoryParams} {now : DateTime}
    {r : StockHistory} (hr : r ∈ (l.map f).map (·.history now)) :
    ∃ a ∈ l, r.idProduct = (f a).idProduct := by
  rw [List.map_map] at hr
  obtain ⟨a, ha, rfl⟩ := List.mem_map.mp hr
  exact ⟨a, ha, rfl⟩

theorem saleHistories_named {data : QueuedTransaction} {txId merchantId : Ident}
    {now : DateTime} :
    ∀ r ∈ saleHistories data txId merchantId now, r.idTransaction = some txId :=
  named_of_map fun _ => rfl

/-- The detail lines of a synchronised sale. -/
def saleDetails (data : QueuedTransaction) (txId : Ident) (now : DateTime) :
    List DetailTransaction :=
  (data.items.map (detailRow txId now)).map (·.stored)

theorem saleDetails_named {data : QueuedTransaction} {txId : Ident} {now : DateTime} :
    ∀ d ∈ saleDetails data txId now, d.idTransaction = txId := by
  intro d hd
  unfold saleDetails at hd
  rw [List.map_map] at hd
  obtain ⟨item, -, rfl⟩ := List.mem_map.mp hd
  rfl

/-- What storing a sale of the device `d` leaves. -/
structure StoredSale (db db' : Db) (data : QueuedTransaction) (hasConflict : Bool)
    (now : DateTime) (d : Device) (createdAtLocal : DateTime) : Prop where
  insertable : Insertable db data hasConflict now d createdAtLocal db'.transactions db'.payments
  entered : Entered db db' (saleDetails data db.newId now)
    (if hasConflict then [] else saleHistories data db.newId d.idMerchant now)
  has : ∀ k, db'.inventories.has k = db.inventories.has k
  frame : db' = { db with
    transactions := db'.transactions
    details := db'.details
    payments := db'.payments
    inventories := db'.inventories
    stockHistories := db'.stockHistories
    seq := db.seq + 1 + 1 }

theorem storeTransaction_stored {db db' : Db} {data : QueuedTransaction} {hasConflict : Bool}
    {now : DateTime} (h : storeTransaction db data hasConflict now = .ok db') :
    ∃ d createdAtLocal, StoredSale db db' data hasConflict now d createdAtLocal := by
  obtain ⟨d, t, ts, ps, hins, hend⟩ := storeTransaction_eq_ok.mp h
  refine ⟨d, t, ?_⟩
  cases hasConflict with
  | true =>
    obtain rfl : db' = withSale db data now ts ps := hend
    refine ⟨hins, ⟨rfl, ?_, fun p => ?_⟩, fun _ => rfl, rfl⟩
    · exact (List.append_nil _).symm
    · exact (add_zero _).symm
  | false =>
    -- the deductions are entered after the rows of the sale
    have hmoved : StockMoved (withSale db data now ts ps) db'
        (saleHistories data db.newId d.idMerchant now) := adjustEach_moved hend
    have hts : db'.transactions = ts := by rw [hmoved.frame]; rfl
    have hps : db'.payments = ps := by rw [hmoved.frame]; rfl
    have hds : db'.details = db.details ++ saleDetails data db.newId now := by
      rw [hmoved.frame]
      rfl
    refine ⟨by rw [hts, hps]; exact hins, ⟨hds, hmoved.histories, hmoved.stock⟩, hmoved.has, ?_⟩
    rw [hts, hps, hds, hmoved.frame]
    rfl

/-- A committed transaction is a stored sale, confirmed when no line conflicts. -/
theorem processTransaction_stored {db db' : Db} {data : QueuedTransaction} {now : DateTime}
    (h : processTransaction db data now = .ok db') :
    data.Arithmetic ∧ ∃ d createdAtLocal,
      StoredSale db db' data (checkStockAvailability db data.items) now d createdAtLocal := by
  unfold processTransaction at h
  simp only [bind_eq_ok, validateArithmetic_eq_ok, exists_const] at h
  exact ⟨h.1, storeTransaction_stored h.2⟩

/-! ## A forced confirmation -/

/-- The database with the columns of one transaction rewritten by `f`. -/
def Db.relabel (db : Db) (idTransaction : Ident) (f : Rewrite Transaction) : Db :=
  { db with transactions := db.transactions.update (.id idTransaction) f }

theorem entered_relabel (db : Db) (idTransaction : Ident) (f : Rewrite Transaction) :
    Entered db (db.relabel idTransaction f) [] [] :=
  ⟨(List.append_nil _).symm, (List.append_nil _).symm, fun _ => (add_zero _).symm⟩

/-- The history rows of `forceResolveInventory`. -/
def forcedHistories (t : FoundTransaction) (userId : Ident) (notes : Option String)
    (now : DateTime) : List StockHistory :=
  (t.details.map (forcedMovement t userId notes)).map (·.history now)

theorem forcedHistories_named {t : FoundTransaction} {userId : Ident} {notes : Option String}
    {now : DateTime} :
    ∀ r ∈ forcedHistories t userId notes now, r.idTransaction = some t.row.idTransaction :=
  named_of_map fun _ => rfl

/-- What a resolution with CONFIRM leaves. -/
structure Forced (db db' : Db) (user : JwtPayload) (t : FoundTransaction)
    (notes : Option String) (now : DateTime) : Prop where
  entered : Entered db db' [] (forcedHistories t user.sub notes now)
  transactions : db'.transactions
    = db.transactions.update (.id t.row.idTransaction) (Transaction.confirmed now)
  frame : db' = { db with
    transactions := db'.transactions
    inventories := db'.inventories
    stockHistories := db'.stockHistories }

theorem resolveConflictWrite_confirm {db db' : Db} {user : JwtPayload} {t : FoundTransaction}
    {dto : ResolveConflictDto} {now : DateTime} (haction : dto.action = .CONFIRM)
    (h : Transactions.resolveConflictWrite db user t dto now = .ok db') :
    Forced db db' user t dto.notes now := by
  unfold Transactions.resolveConflictWrite forceResolveInventory markAsConfirmed at h
  rw [haction] at h
  simp only [bind_eq_ok] at h
  obtain ⟨db₁, h₁, h₂⟩ := h
  have hmoved := adjustEach_moved h₁
  have hts : db₁.transactions = db.transactions := by rw [hmoved.frame]
  obtain ⟨-, -, rfl⟩ := updateTransaction_eq_ok.mp h₂
  refine ⟨⟨hmoved.entered.details, hmoved.histories, hmoved.stock⟩, ?_, ?_⟩
  · show db₁.transactions.update (.id t.row.idTransaction) (Transaction.confirmed now) = _
    rw [hts]
  · rw [hmoved.frame]

theorem resolveConflictWrite_void {db db' : Db} {user : JwtPayload} {t : FoundTransaction}
    {dto : ResolveConflictDto} {now : DateTime} (haction : dto.action = .VOID)
    (h : Transactions.resolveConflictWrite db user t dto now = .ok db') :
    db' = db.relabel t.row.idTransaction (Transaction.conflictVoided user dto.notes now) := by
  unfold Transactions.resolveConflictWrite at h
  rw [haction] at h
  exact (updateTransaction_eq_ok.mp h).2.2

/-- The tables that the resolution of a conflict leaves. -/
theorem resolveConflictWrite_frame {db db' : Db} {user : JwtPayload} {t : FoundTransaction}
    {dto : ResolveConflictDto} {now : DateTime}
    (h : Transactions.resolveConflictWrite db user t dto now = .ok db') :
    ∃ ts is hs, db' = { db with transactions := ts, inventories := is, stockHistories := hs } := by
  cases haction : dto.action with
  | CONFIRM => exact ⟨_, _, _, (resolveConflictWrite_confirm haction h).frame⟩
  | VOID => exact ⟨_, db.inventories, db.stockHistories, resolveConflictWrite_void haction h⟩

/-! ## A correction -/

/-- The history rows of a correction: of `revertOldStock`, then of
`createDetailsAndDeductStock`. -/
def correctionHistories (user : JwtPayload) (t : FoundTransaction)
    (dto : CorrectTransactionDto) (newTxId : Ident) (now : DateTime) : List StockHistory :=
  (t.details.map (revertMovement t user.sub dto.reason)).map (·.history now) ++
    (dto.items.map
      (correctedMovement newTxId t.row.idMerchant user.sub dto.reason)).map (·.history now)

theorem correctionHistories_named {user : JwtPayload} {t : FoundTransaction}
    {dto : CorrectTransactionDto} {newTxId : Ident} {now : DateTime} :
    ∀ r ∈ correctionHistories user t dto newTxId now,
      r.idTransaction = some t.row.idTransaction ∨ r.idTransaction = some newTxId := by
  intro r hr
  rcases List.mem_append.mp hr with hr | hr
  · exact Or.inl (named_of_map (f := revertMovement t user.sub dto.reason) (fun _ => rfl) r hr)
  · exact Or.inr (named_of_map
      (f := correctedMovement newTxId t.row.idMerchant user.sub dto.reason) (fun _ => rfl) r hr)

/-- The detail lines of a correction. -/
def correctionDetails (dto : CorrectTransactionDto) (newTxId : Ident) (now : DateTime) :
    List DetailTransaction :=
  (dto.items.map (correctedDetail newTxId now)).map (·.stored)

theorem correctionDetails_named {dto : CorrectTransactionDto} {newTxId : Ident}
    {now : DateTime} : ∀ d ∈ correctionDetails dto newTxId now, d.idTransaction = newTxId := by
  intro d hd
  unfold correctionDetails at hd
  rw [List.map_map] at hd
  obtain ⟨item, -, rfl⟩ := List.mem_map.mp hd
  rfl

/-- What a correction leaves. -/
structure Corrected (db db' : Db) (user : JwtPayload) (t : FoundTransaction)
    (dto : CorrectTransactionDto) (now : DateTime) : Prop where
  products : ∀ item ∈ dto.items, db.products.has (.id item.idProduct) = true
  entered : Entered db db' (correctionDetails dto db.newId now)
    (correctionHistories user t dto db.newId now)
  transactions : ∃ ts, db.transactions.insert (correctedRow db t dto now).stored = some ts ∧
    db'.transactions = ts.update (.id t.row.idTransaction)
      (Transaction.voided user (correctedReason dto.reason db.newId) now)
  corrections : ∃ c, c.idOldTransaction = t.row.idTransaction ∧ c.idNewTransaction = db.newId ∧
    db.corrections.insert c = some db'.corrections
  payments : ∀ k, db.payments.has k = true → db'.payments.has k = true
  frame : db' = { db with
    transactions := db'.transactions
    details := db'.details
    payments := db'.payments
    corrections := db'.corrections
    inventories := db'.inventories
    stockHistories := db'.stockHistories
    seq := db'.seq }

/-- A cloned payment only adds to the payments. -/
theorem clonePayment_frame {db db' : Db} {t : FoundTransaction} {i : Ident} {x : ℚ}
    {now : DateTime} (h : clonePayment db t i x now = .ok db') :
    ∃ ps n, (∀ k, db.payments.has k = true → ps.has k = true) ∧
      db' = { db with payments := ps, seq := n } := by
  unfold clonePayment at h
  split at h
  · cases h
    exact ⟨db.payments, db.seq, fun _ hk => hk, rfl⟩
  · obtain ⟨-, -, -, -, -, -, ps, hps, rfl⟩ := createPayment_eq_ok.mp h
    exact ⟨ps, db.seq + 1, fun k hk => (Table.has_of_insert hps).mpr (Or.inl hk), rfl⟩

/-- The databases that a correction goes through: the old lines are put back, the new rows are
inserted and taken out, the payment is copied, and the old transaction is voided and linked. -/
structure CorrectionSteps (db db' : Db) (user : JwtPayload) (t : FoundTransaction)
    (dto : CorrectTransactionDto) (now : DateTime) (reverted deducted cloned : Db)
    (ts : Table Transaction) (cs : Table TransactionCorrection) : Prop where
  revert : adjustEach db now (t.details.map (revertMovement t user.sub dto.reason))
    = .ok reverted
  header : reverted.transactions.insert (correctedRow reverted t dto now).stored = some ts
  deduct : adjustEach { reverted with
      transactions := ts
      details := reverted.details ++ correctionDetails dto reverted.newId now
      seq := reverted.seq + 1 } now
    (dto.items.map (correctedMovement reverted.newId t.row.idMerchant user.sub dto.reason))
    = .ok deducted
  clone : clonePayment deducted t reverted.newId dto.total now = .ok cloned
  bridge : cloned.corrections.insert (correctionRow cloned t.row.idTransaction reverted.newId
    user.sub dto.reason now) = some cs
  result : db' = { cloned with
    transactions := cloned.transactions.update (.id t.row.idTransaction)
      (Transaction.voided user (correctedReason dto.reason reverted.newId) now)
    corrections := cs
    seq := cloned.seq + 1 }

theorem correctTransactionWrite_steps {db db' : Db} {user : JwtPayload} {t : FoundTransaction}
    {dto : CorrectTransactionDto} {now : DateTime}
    (h : Transactions.correctTransactionWrite db user t dto now = .ok db') :
    ∃ reverted deducted cloned ts cs,
      CorrectionSteps db db' user t dto now reverted deducted cloned ts cs := by
  unfold Transactions.correctTransactionWrite revertOldStock createNewTransaction
    createDetailsAndDeductStock markOldAsVoidedAndBridge at h
  simp only [bind_eq_ok, createTransaction_eq_ok, createManyDetails_eq_ok,
    createCorrection_eq_ok] at h
  obtain ⟨db₁, h₁, _, ⟨-, -, -, -, -, -, ts, hts, rfl⟩, db₃, ⟨_, -, _, ⟨-, rfl⟩, h₃⟩,
    db₄, h₄, db₅, h₅, -, -, -, cs, hcs, rfl⟩ := h
  obtain ⟨-, -, rfl⟩ := updateTransaction_eq_ok.mp h₅
  exact ⟨db₁, db₃, db₄, ts, cs, h₁, hts, h₃, h₄, hcs, rfl⟩

theorem correctTransactionWrite_corrected {db db' : Db} {user : JwtPayload}
    {t : FoundTransaction} {dto : CorrectTransactionDto} {now : DateTime}
    (h : Transactions.correctTransactionWrite db user t dto now = .ok db') :
    Corrected db db' user t dto now := by
  unfold Transactions.correctTransactionWrite revertOldStock createNewTransaction
    createDetailsAndDeductStock markOldAsVoidedAndBridge at h
  simp only [bind_eq_ok, createTransaction_eq_ok, createManyDetails_eq_ok,
    createCorrection_eq_ok, acceptsDetail_eq_ok, List.forall_mem_map] at h
  obtain ⟨db₁, h₁, _, ⟨-, -, -, -, -, -, ts, hts, rfl⟩, db₃, ⟨_, -, _, ⟨hdet, rfl⟩, h₃⟩,
    db₄, h₄, db₅, h₅, -, -, -, cs, hcs, rfl⟩ := h
  obtain ⟨-, -, rfl⟩ := updateTransaction_eq_ok.mp h₅
  -- two loops move stock: the old lines are put back, then the new ones taken out
  have hrevert := adjustEach_moved h₁
  have hdeduct := adjustEach_moved h₃
  obtain ⟨is₁, rfl⟩ := hrevert.exists_eq
  obtain ⟨is₃, rfl⟩ := hdeduct.exists_eq
  obtain ⟨ps, n, hpay, rfl⟩ := clonePayment_frame h₄
  refine ⟨?_, ⟨rfl, ?_, ?_⟩, ⟨ts, hts, rfl⟩, ⟨_, rfl, rfl, hcs⟩, hpay, rfl⟩
  · intro item hitem
    exact (hdet item hitem).2.2.2.2
  · show (db.stockHistories ++ _) ++ _ = _
    rw [List.append_assoc]
    rfl
  · intro p
    have h₁ : stockIn is₁ p = stockIn db.inventories p + _ := hrevert.stock p
    have h₃ : stockIn is₃ p = stockIn is₁ p + _ := hdeduct.stock p
    show stockIn is₃ p = stockIn db.inventories p + movement p (_ ++ _)
    rw [movement_append, ← add_assoc, ← h₁]
    exact h₃

/-! ## All calls -/

/-- The manual adjustment that `adjustStock` accepts, if it goes through. -/
def Products.adjustmentAccepted (db : Db) (user : JwtPayload) (productId : Ident)
    (dto : AdjustStockDto) (now : DateTime) : List (Ident × ℚ) :=
  match Products.adjustStock db user productId dto now with
  | .ok _ => [(productId, dto.quantity)]
  | .error _ => []

/-- The manual adjustment that a call accepts: the product and the quantity asked for. -/
def adjustmentsOf (db : Db) : Op → List (Ident × ℚ)
  | .adjustStock user productId dto now =>
      Products.adjustmentAccepted db user productId dto now
  | _ => []

/-- The transaction that a resolution with RESOLVED_INVALID voids out of CONFIRMED. -/
def Reconciliations.writtenOff (db : Db) (id : Ident) (user : JwtPayload)
    (dto : ResolveReconciliationDto) (now : DateTime) : List Ident :=
  match Reconciliations.resolve db id user dto now, db.findReconciliation id with
  | .ok _, some r =>
      if dto.newStatus = .RESOLVED_INVALID ∧ r.transaction.status = .CONFIRMED then
        [r.transaction.idTransaction]
      else []
  | _, _ => []

/-- The transaction that a call voids out of CONFIRMED because its payment is invalid. -/
def writeOffsOf (db : Db) : Op → List Ident
  | .resolveReconciliation id user dto now => Reconciliations.writtenOff db id user dto now
  | _ => []

/-- **What a call can do** to the sales. -/
inductive Effect (db : Db) : Op → Db → Prop
  /-- Nothing: the call threw, or it is about something else. -/
  | alone {op : Op} {db' : Db} (same : SameSales db db') (noAdjustment : adjustmentsOf db op = [])
      (noWriteOff : writeOffsOf db op = []) : Effect db op db'
  /-- A manual adjustment of a product of the user's merchant. -/
  | adjusted {user : JwtPayload} {productId : Ident} {dto : AdjustStockDto} {now : DateTime}
      {db' : Db} (product : Product)
      (own : Products.findOwn db user productId = some product)
      (moved : StockMoved db db'
        [(Products.adjustment user product dto (truncate dto.quantity)).history now])
      (accepted : adjustmentsOf db (.adjustStock user productId dto now)
        = [(productId, dto.quantity)]) :
      Effect db (.adjustStock user productId dto now) db'
  /-- A synchronised sale, and perhaps a `SyncQueue` row after it. -/
  | synced {data : QueuedTransaction} {outcome : ItemOutcome} {db₁ db' : Db} (d : Device)
      (createdAtLocal : DateTime)
      (sale : StoredSale db db₁ data (checkStockAvailability db data.items) outcome.now d
        createdAtLocal)
      (rest : SameSales db₁ db') : Effect db (.sync data outcome) db'
  /-- A PENDING transaction is voided. -/
  | voided {user : JwtPayload} {id : Ident} {reason : String} {now : DateTime}
      (t : FoundTransaction) (read : Transactions.voidTransactionRead db user id = .ok t) :
      Effect db (.voidTransaction user id reason now)
        (db.relabel t.row.idTransaction (Transaction.voided user reason now))
  /-- A conflict is resolved with CONFIRM. -/
  | confirmed {user : JwtPayload} {id : Ident} {dto : ResolveConflictDto} {now : DateTime}
      {db' : Db} (t : FoundTransaction)
      (read : Transactions.resolveConflictRead db user id = .ok t)
      (forced : Forced db db' user t dto.notes now) :
      Effect db (.resolveConflict user id dto now) db'
  /-- A conflict is resolved with VOID. -/
  | conflictVoided {user : JwtPayload} {id : Ident} {dto : ResolveConflictDto} {now : DateTime}
      (t : FoundTransaction) (read : Transactions.resolveConflictRead db user id = .ok t) :
      Effect db (.resolveConflict user id dto now)
        (db.relabel t.row.idTransaction (Transaction.conflictVoided user dto.notes now))
  /-- A CONFIRMED transaction is corrected. -/
  | corrected {user : JwtPayload} {id : Ident} {dto : CorrectTransactionDto} {now : DateTime}
      {db' : Db} (t : FoundTransaction)
      (read : Transactions.correctTransactionRead db user id = .ok t)
      (written : Corrected db db' user t dto now) :
      Effect db (.correctTransaction user id dto now) db'
  /-- A transaction that is not VOIDED is voided because its payment is invalid. -/
  | invalidated {id : Ident} {user : JwtPayload} {dto : ResolveReconciliationDto}
      {now : DateTime} {db₁ : Db} (r : FoundReconciliation)
      (found : db.findReconciliation id = some r) (live : r.transaction.status ≠ .VOIDED)
      (rest : SameSales db db₁)
      (entered : writeOffsOf db (.resolveReconciliation id user dto now)
        = if r.transaction.status = .CONFIRMED then [r.transaction.idTransaction] else []) :
      Effect db (.resolveReconciliation id user dto now)
        (db₁.relabel r.transaction.idTransaction
          (Transaction.voided user (invalidReason id) now))

theorem afterAdjustStock_cases (db : Db) (user : JwtPayload) (productId : Ident)
    (dto : AdjustStockDto) (now : DateTime) :
    (Products.afterAdjustStock db user productId dto now = db ∧
        Products.adjustmentAccepted db user productId dto now = []) ∨
      ∃ product, Products.findOwn db user productId = some product ∧
        Products.adjustmentAccepted db user productId dto now = [(productId, dto.quantity)] ∧
        adjustInventoryAndHistory db now
            (Products.adjustment user product dto (truncate dto.quantity))
          = .ok (Products.afterAdjustStock db user productId dto now) := by
  unfold Products.afterAdjustStock Products.adjustmentAccepted
  cases h : Products.adjustStock db user productId dto now with
  | error e => exact Or.inl ⟨rfl, rfl⟩
  | ok r =>
    obtain ⟨answer, db'⟩ := r
    unfold Products.adjustStock Products.adjustStockRead Products.adjustStockWrite at h
    simp only [bind_eq_ok, orThrow_eq_ok, require_eq_ok, pure_eq_ok, toInt_eq_ok,
      exists_const] at h
    obtain ⟨_, ⟨product, hown, _, -, -, rfl⟩, db₁, ⟨_, ⟨rfl, -⟩, h₁⟩, _, -, heq⟩ := h
    obtain rfl : db₁ = db' := (Prod.mk.inj heq).2
    exact Or.inr ⟨product, hown, rfl, h₁⟩

/-- A resolution that throws writes nothing off. -/
theorem writtenOff_eq_nil {db : Db} {id : Ident} {user : JwtPayload}
    {dto : ResolveReconciliationDto} {now : DateTime}
    (h : ∀ db', Reconciliations.resolve db id user dto now ≠ .ok db') :
    Reconciliations.writtenOff db id user dto now = [] := by
  unfold Reconciliations.writtenOff
  split
  · rename_i db' _ hok _
    exact absurd hok (h db')
  · rfl

/-- What a resolution that goes through writes off. -/
theorem writtenOff_eq {db db' : Db} {id : Ident} {user : JwtPayload}
    {dto : ResolveReconciliationDto} {now : DateTime} {r : FoundReconciliation}
    (h : Reconciliations.resolve db id user dto now = .ok db')
    (hr : db.findReconciliation id = some r) :
    Reconciliations.writtenOff db id user dto now
      = if dto.newStatus = .RESOLVED_INVALID ∧ r.transaction.status = .CONFIRMED then
          [r.transaction.idTransaction]
        else [] := by
  unfold Reconciliations.writtenOff
  rw [h, hr]

/-- What a resolution leaves. -/
theorem resolve_effect {db db' : Db} {id : Ident} {user : JwtPayload}
    {dto : ResolveReconciliationDto} {now : DateTime}
    (h : Reconciliations.resolve db id user dto now = .ok db') :
    Effect db (.resolveReconciliation id user dto now) db' := by
  have hok := h
  unfold Reconciliations.resolve Reconciliations.resolveRead at h
  simp only [bind_eq_ok, orThrow_eq_ok, require_eq_ok, pure_eq_ok, exists_const] at h
  obtain ⟨_, ⟨r, hr, -, -, rfl⟩, h⟩ := h
  have hoff := writtenOff_eq hok hr
  unfold Reconciliations.resolveWrite at h
  cases hstatus : dto.newStatus with
  | RESOLVED_VALID =>
    rw [hstatus] at h hoff
    exact .alone (updateReconciliation_sameSales h) rfl (hoff.trans (if_neg (by simp)))
  | RESOLVED_INVALID =>
    rw [hstatus] at h hoff
    simp only [bind_eq_ok] at h
    obtain ⟨db₁, h₁, db₂, h₂, h⟩ := h
    have hsame := (updateReconciliation_sameSales h₁).trans (updatePayment_sameSales h₂)
    split at h
    · rename_i hlive
      rw [(updateTransaction_eq_ok.mp h).2.2]
      refine .invalidated r hr hlive hsame (hoff.trans ?_)
      simp
    · rename_i hvoided
      obtain rfl := pure_eq_ok.mp h
      refine .alone hsame rfl (hoff.trans (if_neg ?_))
      rintro ⟨-, hconf⟩
      exact hvoided (by rw [hconf]; decide)

/-- **The inversion of a call.** -/
theorem exec_effect (db : Db) (op : Op) : Effect db op (exec db op) := by
  cases op with
  | register dto hashed => exact .alone (commit_rule (.refl db) fun _ => register_sameSales) rfl rfl
  | createUser owner dto hashed =>
    exact .alone (commit_rule (.refl db) fun _ => users_create_sameSales) rfl rfl
  | updateUserStatus target owner isActive =>
    exact .alone (commit_rule (.refl db) fun _ => updateStatus_sameSales) rfl rfl
  | createDevice m u name code now =>
    exact .alone (commit_rule (.refl db) fun _ => devices_create_sameSales) rfl rfl
  | pairDevice code hash =>
    refine .alone (commit_rule (.refl db) fun db' h => ?_) rfl rfl
    obtain ⟨d, -, -, h⟩ := pairDevice_eq_ok h
    exact updateDevice_sameSales h
  | removeDevice i m =>
    refine .alone (commit_rule (.refl db) fun db' h => ?_) rfl rfl
    obtain ⟨d, -, -, -, -, h⟩ := removeDevice_eq_ok h
    exact updateDevice_sameSales h
  | createProduct user dto upload now =>
    exact .alone (products_create_sameSales db user dto upload now) rfl rfl
  | updateProduct user productId dto upload =>
    refine .alone (commit_rule (.refl db) fun db' h => ?_) rfl rfl
    obtain ⟨_, h⟩ := products_update_eq_ok h
    exact updateProduct_sameSales h
  | removeProduct user productId =>
    refine .alone (commit_rule (.refl db) fun db' h => ?_) rfl rfl
    exact updateProduct_sameSales (products_remove_eq_ok h)
  | adjustStock user productId dto now =>
    rcases afterAdjustStock_cases db user productId dto now with ⟨h, hnone⟩ |
      ⟨product, hown, hsome, h⟩
    · refine .alone ?_ hnone rfl
      show SameSales db (Products.afterAdjustStock db user productId dto now)
      rw [h]
      exact .refl db
    · exact .adjusted product hown (adjustInventoryAndHistory_moved h) hsome
  | sync data outcome =>
    -- the sale first, if it went through, then the row in `SyncQueue`
    obtain ⟨db₁, h₁, h₂⟩ := handleItem_cases db data outcome
    have hrest : SameSales db₁ (handleItem db data outcome) := by
      rcases h₂ with h₂ | ⟨e, h₂⟩
      · rw [h₂]
        exact .refl db₁
      · exact createSyncQueue_sameSales h₂
    rcases h₁ with rfl | h₁
    · exact .alone hrest rfl rfl
    · obtain ⟨-, d, t, hsale⟩ := processTransaction_stored h₁
      exact .synced d t hsale hrest
  | voidTransaction user id reason now =>
    rcases commit_cases db (Transactions.voidTransaction db user id reason now) with h | h
    · refine .alone ?_ rfl rfl
      show SameSales db (commit db _)
      rw [h]
      exact .refl db
    · obtain ⟨t, hread, hwrite⟩ := bind_eq_ok.mp h
      have hdb := (updateTransaction_eq_ok.mp hwrite).2.2
      show Effect db _ (commit db _)
      rw [hdb]
      exact .voided t hread
  | resolveConflict user id dto now =>
    rcases commit_cases db (Transactions.resolveConflict db user id dto now) with h | h
    · refine .alone ?_ rfl rfl
      show SameSales db (commit db _)
      rw [h]
      exact .refl db
    · obtain ⟨t, hread, hwrite⟩ := bind_eq_ok.mp h
      cases haction : dto.action with
      | CONFIRM => exact .confirmed t hread (resolveConflictWrite_confirm haction hwrite)
      | VOID =>
        have hdb := resolveConflictWrite_void haction hwrite
        show Effect db _ (commit db _)
        rw [hdb]
        exact .conflictVoided t hread
  | correctTransaction user id dto now =>
    rcases commit_cases db (Transactions.correctTransaction db user id dto now) with h | h
    · refine .alone ?_ rfl rfl
      show SameSales db (commit db _)
      rw [h]
      exact .refl db
    · obtain ⟨t, hread, hwrite⟩ := bind_eq_ok.mp h
      exact .corrected t hread (correctTransactionWrite_corrected hwrite)
  | createReconciliation user dto now =>
    exact .alone (commit_rule (.refl db) fun _ => reconciliations_create_sameSales) rfl rfl
  | reconcilePayment user paymentId dto now =>
    exact .alone (commit_rule (.refl db) fun _ => payments_reconcile_sameSales) rfl rfl
  | resolveReconciliation id user dto now =>
    rcases hr : Reconciliations.resolve db id user dto now with e | db'
    · refine .alone ?_ rfl (writtenOff_eq_nil fun db' h => ?_)
      · show SameSales db (commit db _)
        rw [hr]
        exact .refl db
      · rw [hr] at h
        cases h
    · show Effect db _ (commit db _)
      rw [hr]
      exact resolve_effect hr

end KPos
