/-
# The writes of the Prisma client

`create`, `update` and `delete` table by table.  For each write a lemma `…_eq_ok` says exactly
when it goes through and what it leaves; callers use the lemma and never look inside.
-/
import KPos.Prisma

namespace KPos

variable {db db' : Db}

/-! ## Users, merchants, devices -/

def Db.createMerchant (db : Db) (row : Merchant) : Except Err Db := do
  let merchants ← orThrow (db.merchants.insert row) (.uniqueConstraint "Merchant")
  return { db with merchants := merchants, seq := db.seq + 1 }

theorem createMerchant_eq_ok {row : Merchant} : db.createMerchant row = .ok db' ↔
    ∃ ms, db.merchants.insert row = some ms ∧
      db' = { db with merchants := ms, seq := db.seq + 1 } := by
  simp only [Db.createMerchant, bind_eq_ok, orThrow_eq_ok, pure_eq_ok]
  grind

def Db.createUser (db : Db) (row : User) : Except Err Db := do
  let users ← orThrow (db.users.insert row) (.uniqueConstraint "User")
  require (row.idMerchant.all fun m => db.merchants.has (.id m))
    (.foreignKey "User_id_merchant_fkey")
  return { db with users := users, seq := db.seq + 1 }

theorem createUser_eq_ok {row : User} : db.createUser row = .ok db' ↔
    (row.idMerchant.all fun m => db.merchants.has (.id m)) = true ∧
      ∃ us, db.users.insert row = some us ∧
        db' = { db with users := us, seq := db.seq + 1 } := by
  simp only [Db.createUser, bind_eq_ok, orThrow_eq_ok, require_eq_ok, pure_eq_ok, exists_const]
  grind

/-- `user.update` by `id_user`, outside the unique columns. -/
def Db.updateUser (db : Db) (idUser : Ident) (f : Rewrite User) : Except Err Db := do
  require (db.users.has (.id idUser)) (.recordNotFound "User")
  return { db with users := db.users.update (.id idUser) f }

theorem updateUser_eq_ok {i : Ident} {f : Rewrite User} :
    db.updateUser i f = .ok db' ↔
      db.users.has (.id i) = true ∧ db' = { db with users := db.users.update (.id i) f } := by
  simp only [Db.updateUser, bind_eq_ok, require_eq_ok, pure_eq_ok, exists_const]
  grind

def Db.createRefreshToken (db : Db) (row : RefreshToken) : Except Err Db := do
  let refreshTokens ← orThrow (db.refreshTokens.insert row) (.uniqueConstraint "RefreshToken")
  require (db.users.has (.id row.idUser)) (.foreignKey "RefreshToken_id_user_fkey")
  return { db with refreshTokens := refreshTokens, seq := db.seq + 1 }

theorem createRefreshToken_eq_ok {row : RefreshToken} : db.createRefreshToken row = .ok db' ↔
    db.users.has (.id row.idUser) = true ∧
      ∃ ts, db.refreshTokens.insert row = some ts ∧
        db' = { db with refreshTokens := ts, seq := db.seq + 1 } := by
  simp only [Db.createRefreshToken, bind_eq_ok, orThrow_eq_ok, require_eq_ok, pure_eq_ok,
    exists_const]
  grind

/-- `refreshToken.delete` by `id`; it throws when there is no such row. -/
def Db.deleteRefreshToken (db : Db) (id : Ident) : Except Err Db := do
  require (db.refreshTokens.has (.id id)) (.recordNotFound "RefreshToken")
  return { db with refreshTokens := db.refreshTokens.delete (.id id) }

theorem deleteRefreshToken_eq_ok {i : Ident} :
    db.deleteRefreshToken i = .ok db' ↔ db.refreshTokens.has (.id i) = true ∧
      db' = { db with refreshTokens := db.refreshTokens.delete (.id i) } := by
  simp only [Db.deleteRefreshToken, bind_eq_ok, require_eq_ok, pure_eq_ok, exists_const]
  grind

/-- `refreshToken.deleteMany` by `token`, which is unique. -/
def Db.deleteManyRefreshTokens (db : Db) (token : String) : Db :=
  { db with refreshTokens := db.refreshTokens.delete (.token token) }

def Db.createDevice (db : Db) (row : Device) : Except Err Db := do
  let devices ← orThrow (db.devices.insert row) (.uniqueConstraint "Device")
  require (db.merchants.has (.id row.idMerchant)) (.foreignKey "Device_id_merchant_fkey")
  require (db.users.has (.id row.idUser)) (.foreignKey "Device_id_user_fkey")
  return { db with devices := devices, seq := db.seq + 1 }

theorem createDevice_eq_ok {row : Device} : db.createDevice row = .ok db' ↔
    db.merchants.has (.id row.idMerchant) = true ∧ db.users.has (.id row.idUser) = true ∧
      ∃ ds, db.devices.insert row = some ds ∧
        db' = { db with devices := ds, seq := db.seq + 1 } := by
  simp only [Db.createDevice, bind_eq_ok, orThrow_eq_ok, require_eq_ok, pure_eq_ok,
    exists_const]
  grind

/-- `device.update` by `id_device`; the new values may clash with another device. -/
def Db.updateDevice (db : Db) (idDevice : Ident) (f : Device → Device) : Except Err Db := do
  require (db.devices.has (.id idDevice)) (.recordNotFound "Device")
  let devices ← orThrow (db.devices.replace (.id idDevice) f) (.uniqueConstraint "Device")
  return { db with devices := devices }

theorem updateDevice_eq_ok {i : Ident} {f : Device → Device} :
    db.updateDevice i f = .ok db' ↔ db.devices.has (.id i) = true ∧
      ∃ ds, db.devices.replace (.id i) f = some ds ∧ db' = { db with devices := ds } := by
  simp only [Db.updateDevice, bind_eq_ok, orThrow_eq_ok, require_eq_ok, pure_eq_ok,
    exists_const]
  grind

/-! ## Products and stock -/

/-- The product as its columns store it. -/
def Product.stored (p : Product) : Product := { p with price := roundCents p.price }

/-- `product.create` with the nested `inventory.create`. -/
def Db.createProductWithInventory (db : Db) (row : Product) (inv : Inventory) :
    Except Err Db := do
  require (fitsDecimal row.price) (.valueOutOfRange "price")
  let products ← orThrow (db.products.insert row.stored) (.uniqueConstraint "Product")
  require (db.merchants.has (.id row.idMerchant)) (.foreignKey "Product_id_merchant_fkey")
  let inventories ← orThrow (db.inventories.insert inv) (.uniqueConstraint "Inventory")
  require (products.has (.id inv.idProduct)) (.foreignKey "Inventory_id_product_fkey")
  require (db.merchants.has (.id inv.idMerchant)) (.foreignKey "Inventory_id_merchant_fkey")
  return { db with products := products, inventories := inventories, seq := db.seq + 2 }

theorem createProductWithInventory_eq_ok {row : Product} {inv : Inventory} :
    db.createProductWithInventory row inv = .ok db' ↔
      fitsDecimal row.price = true ∧ db.merchants.has (.id row.idMerchant) = true ∧
      db.merchants.has (.id inv.idMerchant) = true ∧
      ∃ ps is, db.products.insert row.stored = some ps ∧ ps.has (.id inv.idProduct) = true ∧
        db.inventories.insert inv = some is ∧
        db' = { db with products := ps, inventories := is, seq := db.seq + 2 } := by
  simp only [Db.createProductWithInventory, bind_eq_ok, orThrow_eq_ok, require_eq_ok,
    pure_eq_ok, exists_const]
  grind

/-- `product.update` by `id_product`; the new SKU may clash with another product. -/
def Db.updateProduct (db : Db) (idProduct : Ident) (f : Product → Product) :
    Except Err Db := do
  let product ← orThrow (db.products.findUnique (.id idProduct)) (.recordNotFound "Product")
  require (fitsDecimal (f product).price) (.valueOutOfRange "price")
  let products ← orThrow (db.products.replace (.id idProduct) fun p => (f p).stored)
    (.uniqueConstraint "Product")
  return { db with products := products }

theorem updateProduct_eq_ok {i : Ident} {f : Product → Product} :
    db.updateProduct i f = .ok db' ↔
      ∃ p ps, db.products.findUnique (.id i) = some p ∧ fitsDecimal (f p).price = true ∧
        db.products.replace (.id i) (fun p => (f p).stored) = some ps ∧
        db' = { db with products := ps } := by
  simp only [Db.updateProduct, bind_eq_ok, orThrow_eq_ok, require_eq_ok, pure_eq_ok,
    exists_const]
  grind

/-- The stock of a product; a product without an inventory row has none. -/
def stockIn (inventories : Table Inventory) (idProduct : Ident) : ℤ :=
  ((inventories.findUnique (.product idProduct)).map (·.currentStock)).getD 0

/-- `current_stock` of a product. -/
def Db.stock (db : Db) (idProduct : Ident) : ℤ := stockIn db.inventories idProduct

/-- The inventories after `current_stock` of a product was incremented. -/
def Db.inventoriesWith (db : Db) (idProduct : Ident) (n : ℤ) : Table Inventory :=
  db.inventories.update (.product idProduct)
    ⟨fun i => { i with currentStock := i.currentStock + n }, fun _ => rfl⟩

/-- `inventory.update` by `id_product` with `current_stock: { increment: n }`. -/
def Db.incrementStock (db : Db) (idProduct : Ident) (n : ℤ) : Except Err Db := do
  require (db.inventories.has (.product idProduct)) (.recordNotFound "Inventory")
  require (fitsInt (db.stock idProduct + n)) (.valueOutOfRange "current_stock")
  return { db with inventories := db.inventoriesWith idProduct n }

theorem incrementStock_eq_ok {p : Ident} {n : ℤ} : db.incrementStock p n = .ok db' ↔
    db.inventories.has (.product p) = true ∧ fitsInt (db.stock p + n) = true ∧
      db' = { db with inventories := db.inventoriesWith p n } := by
  simp only [Db.incrementStock, bind_eq_ok, require_eq_ok, pure_eq_ok, exists_const]
  grind

def Db.createStockHistory (db : Db) (row : StockHistory) : Except Err Db := do
  require (fitsInt row.quantity) (.valueOutOfRange "quantity")
  require (db.products.has (.id row.idProduct)) (.foreignKey "StockHistory_id_product_fkey")
  require (row.idMerchant.all fun m => db.merchants.has (.id m))
    (.foreignKey "StockHistory_id_merchant_fkey")
  require (row.idUser.all fun u => db.users.has (.id u))
    (.foreignKey "StockHistory_id_user_fkey")
  require (row.idTransaction.all fun t => db.transactions.has (.id t))
    (.foreignKey "StockHistory_id_transaction_fkey")
  return { db with stockHistories := db.stockHistories ++ [row] }

theorem createStockHistory_eq_ok {row : StockHistory} : db.createStockHistory row = .ok db' ↔
    fitsInt row.quantity = true ∧ db.products.has (.id row.idProduct) = true ∧
      (row.idMerchant.all fun m => db.merchants.has (.id m)) = true ∧
      (row.idUser.all fun u => db.users.has (.id u)) = true ∧
      (row.idTransaction.all fun t => db.transactions.has (.id t)) = true ∧
      db' = { db with stockHistories := db.stockHistories ++ [row] } := by
  simp only [Db.createStockHistory, bind_eq_ok, require_eq_ok, pure_eq_ok, exists_const]
  grind

/-! ## Transactions and payments -/

/-- The transaction as its columns store it. -/
def Transaction.stored (t : Transaction) : Transaction :=
  { t with total := roundCents t.total, subtotal := roundCents t.subtotal }

def Db.createTransaction (db : Db) (row : Transaction) : Except Err Db := do
  require (fitsDecimal row.total) (.valueOutOfRange "total")
  require (fitsDecimal row.subtotal) (.valueOutOfRange "subtotal")
  let transactions ← orThrow (db.transactions.insert row.stored) (.uniqueConstraint "Transaction")
  require (row.voidedBy.all fun u => db.users.has (.id u))
    (.foreignKey "Transaction_voided_by_fkey")
  require (db.merchants.has (.id row.idMerchant)) (.foreignKey "Transaction_id_merchant_fkey")
  require (db.users.has (.id row.idUser)) (.foreignKey "Transaction_id_user_fkey")
  require (db.devices.has (.id row.idDevice)) (.foreignKey "Transaction_id_device_fkey")
  return { db with transactions := transactions, seq := db.seq + 1 }

theorem createTransaction_eq_ok {row : Transaction} : db.createTransaction row = .ok db' ↔
    fitsDecimal row.total = true ∧ fitsDecimal row.subtotal = true ∧
      (row.voidedBy.all fun u => db.users.has (.id u)) = true ∧
      db.merchants.has (.id row.idMerchant) = true ∧ db.users.has (.id row.idUser) = true ∧
      db.devices.has (.id row.idDevice) = true ∧
      ∃ ts, db.transactions.insert row.stored = some ts ∧
        db' = { db with transactions := ts, seq := db.seq + 1 } := by
  simp only [Db.createTransaction, bind_eq_ok, orThrow_eq_ok, require_eq_ok, pure_eq_ok,
    exists_const]
  grind

/-- `transaction.update` by `id_transaction`, outside the unique columns; `voidedBy` is the
user it names in `voided_by`, if it sets that column. -/
def Db.updateTransaction (db : Db) (idTransaction : Ident) (voidedBy : Option Ident)
    (f : Rewrite Transaction) : Except Err Db := do
  require (db.transactions.has (.id idTransaction)) (.recordNotFound "Transaction")
  require (voidedBy.all fun u => db.users.has (.id u)) (.foreignKey "Transaction_voided_by_fkey")
  return { db with transactions := db.transactions.update (.id idTransaction) f }

theorem updateTransaction_eq_ok {i : Ident} {v : Option Ident} {f : Rewrite Transaction} :
    db.updateTransaction i v f = .ok db' ↔
      db.transactions.has (.id i) = true ∧ (v.all fun u => db.users.has (.id u)) = true ∧
        db' = { db with transactions := db.transactions.update (.id i) f } := by
  simp only [Db.updateTransaction, bind_eq_ok, require_eq_ok, pure_eq_ok, exists_const]
  grind

/-- The detail line as its columns store it. -/
def DetailTransaction.stored (d : DetailTransaction) : DetailTransaction :=
  { d with unitPrice := roundCents d.unitPrice, subtotal := roundCents d.subtotal }

/-- What the columns and the foreign keys ask of a detail line. -/
def Db.acceptsDetail (db : Db) (row : DetailTransaction) : Except Err Unit := do
  require (fitsInt row.quantity) (.valueOutOfRange "quantity")
  require (fitsDecimal row.unitPrice) (.valueOutOfRange "unit_price")
  require (fitsDecimal row.subtotal) (.valueOutOfRange "subtotal")
  require (db.transactions.has (.id row.idTransaction))
    (.foreignKey "DetailTransaction_id_transaction_fkey")
  require (db.products.has (.id row.idProduct)) (.foreignKey "DetailTransaction_id_product_fkey")

/-- `detailTransaction.createMany`: one statement, so all rows or none. -/
def Db.createManyDetails (db : Db) (rows : List DetailTransaction) : Except Err Db := do
  forM rows db.acceptsDetail
  return { db with details := db.details ++ rows.map DetailTransaction.stored }

theorem acceptsDetail_eq_ok {row : DetailTransaction} {u : Unit} :
    db.acceptsDetail row = .ok u ↔
      fitsInt row.quantity = true ∧ fitsDecimal row.unitPrice = true ∧
      fitsDecimal row.subtotal = true ∧ db.transactions.has (.id row.idTransaction) = true ∧
      db.products.has (.id row.idProduct) = true := by
  simp only [Db.acceptsDetail, bind_eq_ok, require_eq_ok, exists_const]

theorem createManyDetails_eq_ok {rows : List DetailTransaction} :
    db.createManyDetails rows = .ok db' ↔
      (∀ row ∈ rows, db.acceptsDetail row = .ok ()) ∧
        db' = { db with details := db.details ++ rows.map DetailTransaction.stored } := by
  simp only [Db.createManyDetails, bind_eq_ok, pure_eq_ok, forM_eq_ok, exists_const]
  grind

/-- The payment as its columns store it. -/
def Payment.stored (p : Payment) : Payment :=
  { p with
    amount := roundCents p.amount
    cashReceived := p.cashReceived.map roundCents
    changeAmount := p.changeAmount.map roundCents }

def Db.createPayment (db : Db) (row : Payment) : Except Err Db := do
  require (fitsDecimal row.amount) (.valueOutOfRange "amount")
  require (row.cashReceived.all fitsDecimal) (.valueOutOfRange "cash_received")
  require (row.changeAmount.all fitsDecimal) (.valueOutOfRange "change_amount")
  let payments ← orThrow (db.payments.insert row.stored) (.uniqueConstraint "Payment")
  require (row.verifiedBy.all fun u => db.users.has (.id u))
    (.foreignKey "Payment_verified_by_fkey")
  require (db.transactions.has (.id row.idTransaction)) (.foreignKey "Payment_id_transaction_fkey")
  require (db.merchants.has (.id row.idMerchant)) (.foreignKey "Payment_id_merchant_fkey")
  return { db with payments := payments, seq := db.seq + 1 }

theorem createPayment_eq_ok {row : Payment} : db.createPayment row = .ok db' ↔
    fitsDecimal row.amount = true ∧ row.cashReceived.all fitsDecimal = true ∧
      row.changeAmount.all fitsDecimal = true ∧
      (row.verifiedBy.all fun u => db.users.has (.id u)) = true ∧
      db.transactions.has (.id row.idTransaction) = true ∧
      db.merchants.has (.id row.idMerchant) = true ∧
      ∃ ps, db.payments.insert row.stored = some ps ∧
        db' = { db with payments := ps, seq := db.seq + 1 } := by
  simp only [Db.createPayment, bind_eq_ok, orThrow_eq_ok, require_eq_ok, pure_eq_ok,
    exists_const]
  grind

/-- `payment.update` by `id_payment`, outside the unique columns. -/
def Db.updatePayment (db : Db) (idPayment : Ident) (f : Rewrite Payment) : Except Err Db := do
  require (db.payments.has (.id idPayment)) (.recordNotFound "Payment")
  return { db with payments := db.payments.update (.id idPayment) f }

theorem updatePayment_eq_ok {i : Ident} {f : Rewrite Payment} :
    db.updatePayment i f = .ok db' ↔ db.payments.has (.id i) = true ∧
      db' = { db with payments := db.payments.update (.id i) f } := by
  simp only [Db.updatePayment, bind_eq_ok, require_eq_ok, pure_eq_ok, exists_const]
  grind

def Db.createCorrection (db : Db) (row : TransactionCorrection) : Except Err Db := do
  let corrections ← orThrow (db.corrections.insert row)
    (.uniqueConstraint "TransactionCorrection")
  require (db.transactions.has (.id row.idOldTransaction))
    (.foreignKey "TransactionCorrection_id_old_transaction_fkey")
  require (db.transactions.has (.id row.idNewTransaction))
    (.foreignKey "TransactionCorrection_id_new_transaction_fkey")
  require (db.users.has (.id row.correctedBy))
    (.foreignKey "TransactionCorrection_corrected_by_fkey")
  return { db with corrections := corrections, seq := db.seq + 1 }

theorem createCorrection_eq_ok {row : TransactionCorrection} :
    db.createCorrection row = .ok db' ↔
      db.transactions.has (.id row.idOldTransaction) = true ∧
      db.transactions.has (.id row.idNewTransaction) = true ∧
      db.users.has (.id row.correctedBy) = true ∧
      ∃ cs, db.corrections.insert row = some cs ∧
        db' = { db with corrections := cs, seq := db.seq + 1 } := by
  simp only [Db.createCorrection, bind_eq_ok, orThrow_eq_ok, require_eq_ok, pure_eq_ok,
    exists_const]
  grind

/-! ## Failures and reconciliations -/

def Db.createSyncQueue (db : Db) (row : SyncQueue) : Except Err Db := do
  let syncQueues ← orThrow (db.syncQueues.insert row) (.uniqueConstraint "SyncQueue")
  require (db.devices.has (.id row.idDevice)) (.foreignKey "SyncQueue_id_device_fkey")
  require (row.idTransaction.all fun t => db.transactions.has (.id t))
    (.foreignKey "SyncQueue_id_transaction_fkey")
  return { db with syncQueues := syncQueues, seq := db.seq + 1 }

theorem createSyncQueue_eq_ok {row : SyncQueue} : db.createSyncQueue row = .ok db' ↔
    db.devices.has (.id row.idDevice) = true ∧
      (row.idTransaction.all fun t => db.transactions.has (.id t)) = true ∧
      ∃ qs, db.syncQueues.insert row = some qs ∧
        db' = { db with syncQueues := qs, seq := db.seq + 1 } := by
  simp only [Db.createSyncQueue, bind_eq_ok, orThrow_eq_ok, require_eq_ok, pure_eq_ok,
    exists_const]
  grind

/-- `syncQueue.update` by `id`. -/
def Db.updateSyncQueue (db : Db) (id : Ident) (f : Rewrite SyncQueue) : Except Err Db := do
  require (db.syncQueues.has (.id id)) (.recordNotFound "SyncQueue")
  return { db with syncQueues := db.syncQueues.update (.id id) f }

theorem updateSyncQueue_eq_ok {i : Ident} {f : Rewrite SyncQueue} :
    db.updateSyncQueue i f = .ok db' ↔ db.syncQueues.has (.id i) = true ∧
      db' = { db with syncQueues := db.syncQueues.update (.id i) f } := by
  simp only [Db.updateSyncQueue, bind_eq_ok, require_eq_ok, pure_eq_ok, exists_const]
  grind

def Db.createReconciliation (db : Db) (row : Reconciliation) : Except Err Db := do
  let reconciliations ← orThrow (db.reconciliations.insert row)
    (.uniqueConstraint "Reconciliation")
  require (db.payments.has (.id row.idPayment)) (.foreignKey "Reconciliation_id_payment_fkey")
  require (db.users.has (.id row.openedBy)) (.foreignKey "Reconciliation_opened_by_fkey")
  return { db with reconciliations := reconciliations, seq := db.seq + 1 }

theorem createReconciliation_eq_ok {row : Reconciliation} :
    db.createReconciliation row = .ok db' ↔
      db.payments.has (.id row.idPayment) = true ∧ db.users.has (.id row.openedBy) = true ∧
      ∃ rs, db.reconciliations.insert row = some rs ∧
        db' = { db with reconciliations := rs, seq := db.seq + 1 } := by
  simp only [Db.createReconciliation, bind_eq_ok, orThrow_eq_ok, require_eq_ok, pure_eq_ok,
    exists_const]
  grind

/-- `reconciliation.update` by `id_reconciliation`; `resolvedBy` is the user it names. -/
def Db.updateReconciliation (db : Db) (i : Ident) (resolvedBy : Ident)
    (f : Rewrite Reconciliation) : Except Err Db := do
  require (db.reconciliations.has (.id i)) (.recordNotFound "Reconciliation")
  require (db.users.has (.id resolvedBy)) (.foreignKey "Reconciliation_resolved_by_fkey")
  return { db with reconciliations := db.reconciliations.update (.id i) f }

theorem updateReconciliation_eq_ok {i u : Ident} {f : Rewrite Reconciliation} :
    db.updateReconciliation i u f = .ok db' ↔
      db.reconciliations.has (.id i) = true ∧ db.users.has (.id u) = true ∧
        db' = { db with reconciliations := db.reconciliations.update (.id i) f } := by
  simp only [Db.updateReconciliation, bind_eq_ok, require_eq_ok, pure_eq_ok, exists_const]
  grind

end KPos
