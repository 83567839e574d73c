/-
# The payload of `POST /sync` and of the queues

The transfer objects of `sync-batch.dto.ts`, and the transaction as it travels through
RabbitMQ: the controller adds `id_device`, `validateBatch` adds `payload_hash`, and the
dead-letter consumer counts `_retryAttempt`.

`Valid` is what the validation pipe checks before the controller runs.  The consumer
does not check it again.
-/
import KPos.Lib.Tally
import KPos.Values

namespace KPos

/-! ## The transfer objects -/

structure SyncPaymentDto where
  method : PaymentMethod
  amount : ℚ
  cashReceived : Option ℚ
  changeAmount : Option ℚ
  qrisCode : Option String
  transferRef : Option String
  deriving DecidableEq, Repr

structure SyncItemDto where
  idProduct : Ident
  quantity : ℤ
  unitPrice : ℚ
  subtotal : ℚ
  productName : String
  skuSnapshot : String
  catalogVersion : DateText
  deriving DecidableEq, Repr

structure SyncTransactionDto where
  offlineUuid : Ident
  createdAtLocal : DateText
  subtotal : ℚ
  total : ℚ
  notes : Option String
  items : List SyncItemDto
  payment : SyncPaymentDto
  deriving DecidableEq, Repr

/-- `SyncTransactionDto & { id_device }`, with the fields that are added on the way. -/
structure QueuedTransaction extends SyncTransactionDto where
  idDevice : Ident
  payloadHash : Option String
  retryAttempt : Option ℕ
  deriving DecidableEq, Repr

/-! ## What the validation pipe checks -/

/-- The decorators of `SyncPaymentDto`. -/
def SyncPaymentDto.Valid (p : SyncPaymentDto) : Prop :=
  0 ≤ p.amount ∧ (∀ x ∈ p.cashReceived, 0 ≤ x) ∧ ∀ x ∈ p.changeAmount, 0 ≤ x

/-- The decorators of `SyncItemDto`. -/
def SyncItemDto.Valid (i : SyncItemDto) : Prop :=
  i.idProduct ≠ .text "" ∧ 1 ≤ i.quantity ∧ 0 ≤ i.unitPrice ∧ 0 ≤ i.subtotal ∧
    i.productName ≠ "" ∧ i.skuSnapshot ≠ "" ∧ i.catalogVersion.text ≠ ""

/-- The decorators of `SyncTransactionDto`; a UUID is not a generated identifier. -/
def SyncTransactionDto.Valid (t : SyncTransactionDto) : Prop :=
  (∀ n, t.offlineUuid ≠ .cuid n) ∧ t.offlineUuid ≠ .text "" ∧ t.createdAtLocal.text ≠ "" ∧
    0 ≤ t.subtotal ∧ 0 ≤ t.total ∧ t.items ≠ [] ∧ (∀ i ∈ t.items, i.Valid) ∧ t.payment.Valid

/-- `SyncBatchDto`: between 1 and 100 valid transactions. -/
structure SyncBatchDto where
  transactions : List SyncTransactionDto
  nonempty : transactions ≠ []
  size : transactions.length ≤ 100
  valid : ∀ t ∈ transactions, t.Valid

/-- The quantity of a product that a list of items asks for. -/
def demand (p : Ident) (items : List SyncItemDto) : ℤ :=
  tally (fun i => decide (i.idProduct = p)) (·.quantity) items

end KPos
