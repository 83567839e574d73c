/-
# Accepting a batch and asking for it (`sync.service.ts`, `sync.controller.ts`)

`POST /sync` checks the payload hashes of the batch against the stored transactions, adds the
device of the header to every item, and publishes the items as one message.  Two queries tell
what became of the items: one by UUIDs, and one for the failures of a merchant.
-/
import KPos.SyncBatch

namespace KPos

/-- `createHash('sha256')` of `JSON.stringify({ items, payment })`. -/
abbrev PayloadHash := List SyncItemDto → SyncPaymentDto → String

/-- The query of `validateBatch`: the stored hash of an item of the device, if the item is
stored. -/
def Db.storedHash (db : Db) (idDevice offlineUuid : Ident) : Option (Option String) :=
  (db.transactions.findUnique (.deviceUuid idDevice offlineUuid)).map (·.payloadHash)

/-- `validateBatch`: throws at the first item whose key is stored with another hash. -/
def Sync.validateBatch (hash : PayloadHash) (db : Db) (idDevice : Ident)
    (transactions : List SyncTransactionDto) : Except Err Unit :=
  forM transactions fun tx =>
    require ((db.storedHash idDevice tx.offlineUuid).all fun stored =>
        decide (stored = some (hash tx.items tx.payment)))
      (.conflict s!"IDEMPOTENCY_PAYLOAD_MISMATCH: Transaction {tx.offlineUuid} has a different payload")

/-- An item as it is published: with the hash and the device. -/
def SyncTransactionDto.queued (hash : PayloadHash) (idDevice : Ident)
    (tx : SyncTransactionDto) : QueuedTransaction where
  toSyncTransactionDto := tx
  idDevice := idDevice
  payloadHash := some (hash tx.items tx.payment)
  retryAttempt := none

/-- `POST /sync`: the message that is published.  `publish` is how the broker confirms. -/
def Sync.syncTransactions (hash : PayloadHash) (db : Db) (idDevice : Ident)
    (batch : SyncBatchDto) (publish : Call) : Except Err (List QueuedTransaction) := do
  require (decide (idDevice ≠ .text "")) (.badRequest "X-Device-ID header is required")
  Sync.validateBatch hash db idDevice batch.transactions
  match publish with
  | .served => return batch.transactions.map (SyncTransactionDto.queued hash idDevice)
  | .failed _ | .lost _ =>
      throw (.serviceUnavailable "Message broker is currently unavailable. Retry later.")

/-! ## Queries -/

/-- The `status` of an answer. -/
inductive AnswerStatus where
  | CONFLICT | SYNCED | FAILED | UNKNOWN
  deriving DecidableEq, Repr

/-- The answer about one UUID. -/
structure StatusAnswer where
  offlineUuid : Ident
  status : AnswerStatus
  transactionId : Option Ident
  error : Option LastError
  deriving DecidableEq, Repr

/-- The answer about one UUID, from the rows that the two queries returned. -/
def statusAnswer (transactions : List Transaction) (failedQueues : List SyncQueue) (uuid : Ident) :
    StatusAnswer :=
  match transactions.find? fun t => decide (t.offlineUuid = some uuid) with
  | some tx =>
      ⟨uuid, if tx.syncStatus = .SYNC_CONFLICT then .CONFLICT else .SYNCED,
        some tx.idTransaction, none⟩
  | none =>
      match failedQueues.find? fun f =>
          decide (f.offlineUuid = some uuid ∨ f.idTransaction = some uuid) with
      | some fail => ⟨uuid, .FAILED, none, some fail.lastError⟩
      | none => ⟨uuid, .UNKNOWN, none, none⟩

/-- Whether a column has one of the values. -/
def isIn (values : List Ident) (column : Option Ident) : Bool :=
  column.any fun x => decide (x ∈ values)

/-- `getStatusByOfflineUuids`. -/
def Sync.getStatusByOfflineUuids (db : Db) (offlineUuids : List Ident) : List StatusAnswer :=
  -- neither query asks whose rows they are
  let transactions := db.transactions.rows.filter fun t => isIn offlineUuids t.offlineUuid
  let failedQueues := db.syncQueues.rows.filter fun q =>
    isIn offlineUuids q.offlineUuid || isIn offlineUuids q.idTransaction
  offlineUuids.map (statusAnswer transactions failedQueues)

/-- A row with `include: { device: { select: { name: true } } }`. -/
structure FailedQueue where
  row : SyncQueue
  deviceName : String

/-- The row of a failure of the merchant's devices. -/
def Db.failedQueue (db : Db) (idMerchant : Ident) (q : SyncQueue) : Option FailedQueue := do
  let device ← db.devices.findUnique (.id q.idDevice)
  if (q.status = .SYNC_FAILED ∨ q.status = .SYNC_CONFLICT) ∧ device.idMerchant = idMerchant then
    return ⟨q, device.name⟩
  else
    none

/-- `getFailedSyncQueues`: the newest update first. -/
def Sync.getFailedSyncQueues (db : Db) (user : JwtPayload) : List FailedQueue :=
  (db.syncQueues.rows.filterMap (db.failedQueue user.idMerchant)).mergeSort fun a b =>
    decide (b.row.updatedAt ≤ a.row.updatedAt)

end KPos
