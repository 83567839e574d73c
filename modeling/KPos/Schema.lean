/-
# The database of `schema.prisma`

The rows of the tables that the services read or write, with the unique constraints of the
schema as the keys of each row.  Every other constraint is checked where a row is
written (`Prisma.lean`).

Left out are columns that no service reads or writes (addresses, `reserved`, the online
and sync times of a device, `id_correction`, `verification_note`, retry counts of
`SyncQueue`) and the table `DeviceSyncLog`.
-/
import KPos.Lib.Table
import KPos.SyncDto

namespace KPos

/-! ## Users, merchants, devices -/

structure Merchant where
  idMerchant : Ident
  name : String

inductive MerchantKey where
  | id (i : Ident)
  deriving DecidableEq

instance : UniqueKeys Merchant MerchantKey where
  keys m := [.id m.idMerchant]

structure User where
  idUser : Ident
  fullName : String
  email : String
  password : String
  role : UserRole
  idMerchant : Option Ident
  isActive : Bool

inductive UserKey where
  | id (i : Ident)
  | email (e : String)
  deriving DecidableEq

instance : UniqueKeys User UserKey where
  keys u := [.id u.idUser, .email u.email]

structure RefreshToken where
  id : Ident
  idUser : Ident
  token : String
  expiresAt : DateTime

inductive RefreshTokenKey where
  | id (i : Ident)
  | token (t : String)
  deriving DecidableEq

instance : UniqueKeys RefreshToken RefreshTokenKey where
  keys r := [.id r.id, .token r.token]

structure Device where
  idDevice : Ident
  idMerchant : Ident
  idUser : Ident
  name : String
  deviceIdHash : Option String
  pairingCode : Option String
  status : DeviceStatus
  isActive : Bool
  createdAt : DateTime
  deriving DecidableEq

inductive DeviceKey where
  | id (i : Ident)
  | pairingCode (c : String)
  | deviceIdHash (m : Ident) (h : String)
  deriving DecidableEq

instance : UniqueKeys Device DeviceKey where
  keys d := .id d.idDevice ::
    (d.pairingCode.map DeviceKey.pairingCode).toList ++
    (d.deviceIdHash.map (DeviceKey.deviceIdHash d.idMerchant)).toList

/-! ## Products and stock -/

structure Product where
  idProduct : Ident
  idMerchant : Ident
  name : String
  sku : String
  price : ℚ
  imageUrl : Option String
  isActive : Bool
  createdAt : DateTime

inductive ProductKey where
  | id (i : Ident)
  | sku (m : Ident) (s : String)
  deriving DecidableEq

instance : UniqueKeys Product ProductKey where
  keys p := [.id p.idProduct, .sku p.idMerchant p.sku]

structure Inventory where
  idInventory : Ident
  idProduct : Ident
  idMerchant : Ident
  currentStock : ℤ

inductive InventoryKey where
  | id (i : Ident)
  | product (p : Ident)
  deriving DecidableEq

instance : UniqueKeys Inventory InventoryKey where
  keys i := [.id i.idInventory, .product i.idProduct]

structure StockHistory where
  idProduct : Ident
  idMerchant : Option Ident
  idUser : Option Ident
  movementType : StockMovementType
  quantity : ℤ
  idTransaction : Option Ident
  notes : Option String
  createdAt : DateTime

/-! ## Transactions and payments -/

structure Transaction where
  idTransaction : Ident
  idMerchant : Ident
  idUser : Ident
  idDevice : Ident
  status : TransactionStatus
  syncStatus : SyncStatus
  createdAtLocal : Option DateTime
  createdAt : DateTime
  confirmedAt : Option DateTime
  syncedAt : Option DateTime
  total : ℚ
  subtotal : ℚ
  offlineUuid : Option Ident
  payloadHash : Option String
  notes : Option String
  voidedAt : Option DateTime
  voidedBy : Option Ident
  voidReason : Option String
  deriving DecidableEq

inductive TransactionKey where
  | id (i : Ident)
  | offlineUuid (u : Ident)
  | deviceUuid (d u : Ident)
  deriving DecidableEq

/-- `offline_uuid` is unique in the whole table, besides `@@unique([id_device, offline_uuid])`. -/
instance : UniqueKeys Transaction TransactionKey where
  keys t := .id t.idTransaction ::
    (t.offlineUuid.map TransactionKey.offlineUuid).toList ++
    (t.offlineUuid.map (TransactionKey.deviceUuid t.idDevice)).toList

structure DetailTransaction where
  idTransaction : Ident
  idProduct : Ident
  quantity : ℤ
  unitPrice : ℚ
  subtotal : ℚ
  productName : String
  skuSnapshot : String
  catalogVersion : DateTime

structure Payment where
  idPayment : Ident
  idTransaction : Ident
  idMerchant : Ident
  amount : ℚ
  method : PaymentMethod
  status : PaymentStatus
  cashReceived : Option ℚ
  changeAmount : Option ℚ
  qrisCode : Option String
  transferRef : Option String
  verifiedAt : Option DateTime
  verifiedBy : Option Ident
  createdAt : DateTime

inductive PaymentKey where
  | id (i : Ident)
  | transaction (t : Ident)
  deriving DecidableEq

instance : UniqueKeys Payment PaymentKey where
  keys p := [.id p.idPayment, .transaction p.idTransaction]

structure TransactionCorrection where
  idCorrection : Ident
  idOldTransaction : Ident
  idNewTransaction : Ident
  correctedBy : Ident
  reason : String
  createdAt : DateTime

inductive CorrectionKey where
  | id (i : Ident)
  | newTransaction (t : Ident)
  deriving DecidableEq

instance : UniqueKeys TransactionCorrection CorrectionKey where
  keys c := [.id c.idCorrection, .newTransaction c.idNewTransaction]

/-! ## Failures and reconciliations -/

/-- The JSON object that `handleFailure` writes to `last_error`, or the plain text that
`recordTerminalFailure` writes there. -/
inductive LastError where
  | json (code message : String)
  | plain (text : String)
  deriving DecidableEq, Repr

structure SyncQueue where
  id : Ident
  idDevice : Ident
  idTransaction : Option Ident
  offlineUuid : Option Ident
  operation : String
  payload : QueuedTransaction
  lastError : LastError
  status : SyncStatus
  createdAt : DateTime
  updatedAt : DateTime
  deriving DecidableEq

inductive SyncQueueKey where
  | id (i : Ident)
  deriving DecidableEq

instance : UniqueKeys SyncQueue SyncQueueKey where
  keys q := [.id q.id]

structure Reconciliation where
  idReconciliation : Ident
  idPayment : Ident
  openedBy : Ident
  reason : String
  evidenceNote : Option String
  status : ReconciliationStatus
  resolvedBy : Option Ident
  resolvedAt : Option DateTime
  resolutionNote : Option String
  createdAt : DateTime

inductive ReconciliationKey where
  | id (i : Ident)
  deriving DecidableEq

instance : UniqueKeys Reconciliation ReconciliationKey where
  keys r := [.id r.idReconciliation]

/-! ## The database -/

/-- The tables, and how many identifiers have been generated so far. -/
structure Db where
  merchants : Table Merchant
  users : Table User
  refreshTokens : Table RefreshToken
  devices : Table Device
  products : Table Product
  inventories : Table Inventory
  stockHistories : List StockHistory
  transactions : Table Transaction
  details : List DetailTransaction
  payments : Table Payment
  corrections : Table TransactionCorrection
  syncQueues : Table SyncQueue
  reconciliations : Table Reconciliation
  seq : ℕ

/-- The database without rows. -/
def Db.empty : Db where
  merchants := .empty
  users := .empty
  refreshTokens := .empty
  devices := .empty
  products := .empty
  inventories := .empty
  stockHistories := []
  transactions := .empty
  details := []
  payments := .empty
  corrections := .empty
  syncQueues := .empty
  reconciliations := .empty
  seq := 0

/-- The next identifier that `cuid()` generates. -/
def Db.newId (db : Db) : Ident := .cuid db.seq

/-- The user that the sync consumer names in `StockHistory`. -/
def systemSync : Ident := .text "system_sync"

end KPos
