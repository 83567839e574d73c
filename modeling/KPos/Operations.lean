/-
# The operations of the services

`Op` has the calls that write, `exec` runs one of them to completion, and a run of `next` is
any sequence of calls, each run to completion.  A call that throws leaves what its
database transaction had before, so it is a step too.

The starting point is a database with users and nothing else: no users at all,
or the user `system_sync` that the sync consumer names in `StockHistory`.
-/
import KPos.Lib.Runs
import KPos.Accounts
import KPos.Products
import KPos.Reconciliations
import KPos.SyncService

namespace KPos

/-- A call of a service, with what it gets from outside the database. -/
inductive Op where
  | register (dto : RegisterDto) (hashedPassword : String)
  | createUser (ownerMerchantId : Ident) (dto : CreateUserDto) (hashedPassword : String)
  | updateUserStatus (targetUserId ownerMerchantId : Ident) (isActive : Bool)
  | createDevice (idMerchant idUser : Ident) (name pairingCode : String) (now : DateTime)
  | pairDevice (pairingCode deviceIdHash : String)
  | removeDevice (idDevice idMerchant : Ident)
  | createProduct (user : JwtPayload) (dto : CreateProductDto) (upload : Upload) (now : DateTime)
  | updateProduct (user : JwtPayload) (productId : Ident) (dto : UpdateProductDto)
      (upload : Upload)
  | removeProduct (user : JwtPayload) (productId : Ident)
  | adjustStock (user : JwtPayload) (productId : Ident) (dto : AdjustStockDto) (now : DateTime)
  | sync (data : QueuedTransaction) (outcome : ItemOutcome)
  | voidTransaction (user : JwtPayload) (id : Ident) (voidReason : String) (now : DateTime)
  | resolveConflict (user : JwtPayload) (id : Ident) (dto : ResolveConflictDto) (now : DateTime)
  | correctTransaction (user : JwtPayload) (id : Ident) (dto : CorrectTransactionDto)
      (now : DateTime)
  | createReconciliation (user : JwtPayload) (dto : CreateReconciliationDto) (now : DateTime)
  | reconcilePayment (user : JwtPayload) (paymentId : Ident) (dto : CreateReconciliationDto)
      (now : DateTime)
  | resolveReconciliation (id : Ident) (user : JwtPayload) (dto : ResolveReconciliationDto)
      (now : DateTime)

/-- What `adjustStock` leaves. -/
def Products.afterAdjustStock (db : Db) (user : JwtPayload) (productId : Ident)
    (dto : AdjustStockDto) (now : DateTime) : Db :=
  match Products.adjustStock db user productId dto now with
  | .ok (_, db') => db'
  | .error _ => db

/-- The database after a call. -/
def exec (db : Db) : Op → Db
  | .register dto hashedPassword => commit db (Auth.register db dto hashedPassword)
  | .createUser owner dto hashedPassword => commit db (Users.create db owner dto hashedPassword)
  | .updateUserStatus target owner isActive =>
      commit db (Users.updateStatus db target owner isActive)
  | .createDevice idMerchant idUser name pairingCode now =>
      commit db (Devices.create db idMerchant idUser name pairingCode now)
  | .pairDevice pairingCode deviceIdHash =>
      commit db (Devices.pairDevice db pairingCode deviceIdHash)
  | .removeDevice idDevice idMerchant => commit db (Devices.remove db idDevice idMerchant)
  -- a creation that throws may leave the product
  | .createProduct user dto upload now => (Products.create db user dto upload now).1
  | .updateProduct user productId dto upload =>
      commit db (Products.update db user productId dto upload)
  | .removeProduct user productId => commit db (Products.remove db user productId)
  | .adjustStock user productId dto now => Products.afterAdjustStock db user productId dto now
  -- whatever happens to the item, the consumer goes on
  | .sync data outcome => handleItem db data outcome
  | .voidTransaction user id voidReason now =>
      commit db (Transactions.voidTransaction db user id voidReason now)
  | .resolveConflict user id dto now =>
      commit db (Transactions.resolveConflict db user id dto now)
  | .correctTransaction user id dto now =>
      commit db (Transactions.correctTransaction db user id dto now)
  | .createReconciliation user dto now => commit db (Reconciliations.create db user dto now)
  | .reconcilePayment user paymentId dto now =>
      commit db (Payments.reconcile db user paymentId dto now)
  | .resolveReconciliation id user dto now =>
      commit db (Reconciliations.resolve db id user dto now)

/-- The system of calls run one after the other. -/
def next (db : Db) (op : Op) : Option Db := some (exec db op)

/-- The database after calls made one after the other. -/
def after (db : Db) (ops : List Op) : Db := ops.foldl exec db

/-- What calls lead to is reached. -/
theorem reaches_after (db : Db) (ops : List Op) : Runs.Reaches next db (after db ops) := by
  induction ops generalizing db with
  | nil => exact .refl db
  | cons op ops ih =>
    have hstep : next db op = some (exec db op) := rfl
    exact ((Runs.Reaches.refl db).step hstep).trans (ih (exec db op))

/-- A database with users and nothing else. -/
def Db.withUsers (us : Table User) : Db := { Db.empty with users := us }

/-- The state is reached by calls from a database with the users `us`. -/
def Reachable (us : Table User) (db : Db) : Prop := Runs.Reaches next (Db.withUsers us) db

/-- A call leaves the database as it was, or what it returned. -/
theorem commit_cases (db : Db) (r : Except Err Db) :
    commit db r = db ∨ r = .ok (commit db r) := by
  cases r with
  | error e => exact Or.inl rfl
  | ok db' => exact Or.inr rfl

/-- What a call keeps if it keeps it whenever it does not throw. -/
theorem commit_rule {P : Db → Prop} {db : Db} {r : Except Err Db} (hdb : P db)
    (h : ∀ db', r = .ok db' → P db') : P (commit db r) := by
  rcases commit_cases db r with hcase | hcase
  · rw [hcase]
    exact hdb
  · exact h _ hcase

/-- What a call leaves as it was, if it does so whenever it does not throw. -/
theorem commit_frame {α : Type} (col : Db → α) {db : Db} {r : Except Err Db}
    (h : ∀ db', r = .ok db' → col db' = col db) : col (commit db r) = col db :=
  commit_rule (P := fun d => col d = col db) rfl h

/-- The user that the consumer needs. -/
def systemSyncUser : User where
  idUser := systemSync
  fullName := "System Sync"
  email := "system@sync"
  password := ""
  role := .ENTRY
  idMerchant := none
  isActive := true

/-- The table with the user `system_sync` alone. -/
def systemUsers : Table User := ⟨[systemSyncUser], List.pairwise_singleton _ _⟩

/-! ## A small shop -/

section Shop

/-- The shop's merchant, owner, till and product get the first generated ids. -/
def shopMerchant : Ident := .cuid 0

def shopOwner : JwtPayload := ⟨.cuid 1, "owner@shop", .OWNER, shopMerchant⟩

def shopDevice : Ident := .cuid 2

def shopProduct : Ident := .cuid 3

/-- A shop with a paired till and ten pieces of one product. -/
def shopOpening : List Op :=
  [.register ⟨"Owner", "owner@shop", "secret", "Shop"⟩ "hash",
   .createDevice shopMerchant shopOwner.sub "Till" "123456" 0,
   .pairDevice "123456" "till-hash",
   .createProduct shopOwner ⟨"Tea", some "TEA", 2, none⟩ .noFile 0,
   .adjustStock shopOwner shopProduct ⟨10, none⟩ 0]

/-- The shop over a database with the users `us`. -/
def shopWith (us : Table User) : Db := after (Db.withUsers us) shopOpening

theorem reachable_shopWith (us : Table User) : Reachable us (shopWith us) := reaches_after _ _

/-- The shop of a database that has the user `system_sync`. -/
def shop : Db := shopWith systemUsers

theorem reachable_after_shop (ops : List Op) : Reachable systemUsers (after shop ops) :=
  (reachable_shopWith systemUsers).trans (reaches_after shop ops)

/-- A line of the product: its quantity at the price of 2. -/
def shopLine (quantity : ℤ) : SyncItemDto :=
  ⟨shopProduct, quantity, 2, 2 * quantity, "Tea", "TEA", ⟨"2026-01-01", some 0⟩⟩

/-- A sale of lines of the product, paid in cash. -/
def shopSale (offlineUuid : String) (quantities : List ℤ) : SyncTransactionDto where
  offlineUuid := .text offlineUuid
  createdAtLocal := ⟨"2026-01-01", some 0⟩
  subtotal := 2 * quantities.sum
  total := 2 * quantities.sum
  notes := none
  items := quantities.map shopLine
  payment := ⟨.CASH, 2 * quantities.sum, none, none, none, none⟩

/-- The sale as it is queued for a device. -/
def shopQueued (idDevice : Ident) (offlineUuid : String) (quantities : List ℤ) :
    QueuedTransaction :=
  ⟨shopSale offlineUuid quantities, idDevice, none, none⟩

/-- A batch of one sale. -/
def oneSale : SyncBatchDto where
  transactions := [shopSale "a" [3]]
  nonempty := List.cons_ne_nil _ _
  size := by decide
  valid := by
    intro t ht
    rw [List.mem_singleton.mp ht]
    have hitems : ∀ i ∈ (shopSale "a" [3]).items, i.idProduct ≠ .text "" ∧ 1 ≤ i.quantity ∧
        0 ≤ i.unitPrice ∧ 0 ≤ i.subtotal ∧ i.productName ≠ "" ∧ i.skuSnapshot ≠ "" ∧
        i.catalogVersion.text ≠ "" := by decide +kernel
    refine ⟨nofun, by decide, by decide, by decide +kernel, by decide +kernel, by decide,
      hitems, by decide +kernel, nofun, nofun⟩

/-- The synchronisation of a sale at the till. -/
def shopSync (offlineUuid : String) (quantities : List ℤ) : Op :=
  .sync (shopQueued shopDevice offlineUuid quantities) (.served 1)

/-- Another merchant's owner and till. -/
def otherOwner : JwtPayload := ⟨.cuid 6, "other@shop", .OWNER, .cuid 5⟩

def otherDevice : Ident := .cuid 7

/-- A second merchant, with a till that is not paired. -/
def otherOpening : List Op :=
  [.register ⟨"Other", "other@shop", "secret", "Other"⟩ "hash",
   .createDevice otherOwner.idMerchant otherOwner.sub "Till" "654321" 0]

/-- The shop and the second merchant with its till. -/
def twoShops : Db := after shop otherOpening

theorem reachable_twoShops : Reachable systemUsers twoShops := reachable_after_shop _

example : shop.stock shopProduct = 10 := by decide +kernel

example : (after shop [shopSync "a" [3, 4]]).stock shopProduct = 3 := by decide +kernel

end Shop

end KPos
