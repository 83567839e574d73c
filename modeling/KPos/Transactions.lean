/-
# Voiding, conflict resolution and correction (`transactions.service.ts`)

Each of the three services reads the transaction and checks its status first, outside
the database transaction that writes.  The two parts are functions of their own,
`…Read` and `…Write`; the service runs the one after the other.
-/
import KPos.Inventory

namespace KPos

/-! ## Reading a transaction -/

/-- A transaction with `include: { details: true, payment: true }`. -/
structure FoundTransaction where
  row : Transaction
  details : List DetailTransaction
  payment : Option Payment

/-- The detail lines of a transaction. -/
def Db.detailsOf (db : Db) (idTransaction : Ident) : List DetailTransaction :=
  db.details.filter fun d => decide (d.idTransaction = idTransaction)

/-- `findFirst` with `OR: [{ id_transaction: id }, { offline_uuid: id }]`. -/
def Db.findTransaction (db : Db) (id : Ident) : Option FoundTransaction :=
  (db.transactions.rows.find? fun t =>
      decide (t.idTransaction = id ∨ t.offlineUuid = some id)).map fun t =>
    ⟨t, db.detailsOf t.idTransaction, db.payments.findUnique (.transaction t.idTransaction)⟩

/-- `findOne`. -/
def Transactions.findOne (db : Db) (user : JwtPayload) (id : Ident) :
    Except Err FoundTransaction := do
  let transaction ← orThrow (db.findTransaction id)
    (.notFound s!"Transaction with ID {id} not found")
  -- another merchant's transaction is not found either
  require (decide (transaction.row.idMerchant = user.idMerchant))
    (.notFound s!"Transaction with ID {id} not found")
  return transaction

/-! ## Voiding -/

/-- The columns that a void writes. -/
def Transaction.voided (user : JwtPayload) (reason : String) (now : DateTime) :
    Rewrite Transaction where
  toFun t := { t with
    status := .VOIDED
    voidedAt := some now
    voidedBy := some user.sub
    voidReason := some reason }
  keys_eq := fun _ => rfl

/-- The lookup and the tests of `voidTransaction`. -/
def Transactions.voidTransactionRead (db : Db) (user : JwtPayload) (id : Ident) :
    Except Err FoundTransaction := do
  let transaction ← Transactions.findOne db user id
  require (decide (transaction.row.status ≠ .VOIDED))
    (.badRequest "Transaction is already voided")
  require (decide (transaction.row.status = .PENDING))
    (.badRequest "Only PENDING transactions can be voided. Confirmed transactions must go through correction workflow.")
  return transaction

/-- The update of `voidTransaction`. -/
def Transactions.voidTransactionWrite (db : Db) (user : JwtPayload)
    (transaction : FoundTransaction) (voidReason : String) (now : DateTime) : Except Err Db :=
  db.updateTransaction transaction.row.idTransaction (some user.sub)
    (Transaction.voided user voidReason now)

/-- `voidTransaction`. -/
def Transactions.voidTransaction (db : Db) (user : JwtPayload) (id : Ident)
    (voidReason : String) (now : DateTime) : Except Err Db := do
  let transaction ← Transactions.voidTransactionRead db user id
  Transactions.voidTransactionWrite db user transaction voidReason now

/-! ## Conflict resolution -/

inductive ConflictAction where
  | CONFIRM | VOID
  deriving DecidableEq, Repr

structure ResolveConflictDto where
  action : ConflictAction
  notes : Option String

/-- The lookup and the test of `resolveConflict`. -/
def Transactions.resolveConflictRead (db : Db) (user : JwtPayload) (id : Ident) :
    Except Err FoundTransaction := do
  let transaction ← Transactions.findOne db user id
  -- the status itself is not tested
  require (decide (transaction.row.syncStatus = .SYNC_CONFLICT))
    (.badRequest "Transaction is not in SYNC_CONFLICT state.")
  return transaction

/-- The movement of `forceResolveInventory` for a detail line. -/
def forcedMovement (transaction : FoundTransaction) (userId : Ident) (notes : Option String)
    (detail : DetailTransaction) : AdjustInventoryParams where
  idProduct := detail.idProduct
  idMerchant := transaction.row.idMerchant
  idUser := userId
  idTransaction := some transaction.row.idTransaction
  quantityChange := -detail.quantity
  movementType := .SALE
  notes :=
    let notes := notes.getD ""
    (s!"Forced resolve by OWNER (conflict resolution). {notes}").trimAscii.toString

def forceResolveInventory (db : Db) (transaction : FoundTransaction) (userId : Ident)
    (notes : Option String) (now : DateTime) : Except Err Db :=
  adjustEach db now (transaction.details.map (forcedMovement transaction userId notes))

/-- The columns that `markAsConfirmed` writes. -/
def Transaction.confirmed (now : DateTime) : Rewrite Transaction where
  toFun t := { t with status := .CONFIRMED, syncStatus := .SYNCED, confirmedAt := some now }
  keys_eq := fun _ => rfl

def markAsConfirmed (db : Db) (transactionId : Ident) (now : DateTime) : Except Err Db :=
  db.updateTransaction transactionId none (Transaction.confirmed now)

/-- The columns that a resolution with VOID writes. -/
def Transaction.conflictVoided (user : JwtPayload) (notes : Option String) (now : DateTime) :
    Rewrite Transaction where
  toFun t := { t with
    status := .VOIDED
    syncStatus := .SYNCED
    voidedAt := some now
    voidedBy := some user.sub
    voidReason :=
      let notes := notes.getD ""
      some (s!"Conflict resolved by OWNER (voided). {notes}").trimAscii.toString }
  keys_eq := fun _ => rfl

/-- The writes of `resolveConflict`. -/
def Transactions.resolveConflictWrite (db : Db) (user : JwtPayload)
    (transaction : FoundTransaction) (dto : ResolveConflictDto) (now : DateTime) :
    Except Err Db :=
  match dto.action with
  | .CONFIRM => do
      let db ← forceResolveInventory db transaction user.sub dto.notes now
      markAsConfirmed db transaction.row.idTransaction now
  | .VOID =>
      db.updateTransaction transaction.row.idTransaction (some user.sub)
        (Transaction.conflictVoided user dto.notes now)

/-- `resolveConflict`. -/
def Transactions.resolveConflict (db : Db) (user : JwtPayload) (id : Ident)
    (dto : ResolveConflictDto) (now : DateTime) : Except Err Db := do
  let transaction ← Transactions.resolveConflictRead db user id
  Transactions.resolveConflictWrite db user transaction dto now

/-! ## Correction -/

structure CorrectItemDto where
  idProduct : Ident
  quantity : ℚ
  unitPrice : ℚ
  subtotal : ℚ
  productName : Option String

structure CorrectTransactionDto where
  reason : String
  items : List CorrectItemDto
  subtotal : ℚ
  total : ℚ
  notes : Option String

/-- The lookup and the test of `correctTransaction`. -/
def Transactions.correctTransactionRead (db : Db) (user : JwtPayload) (id : Ident) :
    Except Err FoundTransaction := do
  let originalTx ← Transactions.findOne db user id
  require (decide (originalTx.row.status = .CONFIRMED))
    (.badRequest s!"Only CONFIRMED transactions can be corrected. Current status: {originalTx.row.status}")
  return originalTx

/-- The movement of `revertOldStock` for a detail line. -/
def revertMovement (originalTx : FoundTransaction) (userId : Ident) (reason : String)
    (oldDetail : DetailTransaction) : AdjustInventoryParams where
  idProduct := oldDetail.idProduct
  idMerchant := originalTx.row.idMerchant
  idUser := userId
  idTransaction := some originalTx.row.idTransaction
  quantityChange := oldDetail.quantity
  movementType := .CORRECTION
  notes := s!"Stock reverted for transaction correction. Reason: {reason}"

def revertOldStock (db : Db) (originalTx : FoundTransaction) (userId : Ident) (reason : String)
    (now : DateTime) : Except Err Db :=
  adjustEach db now (originalTx.details.map (revertMovement originalTx userId reason))

/-- The row of `createNewTransaction`. -/
def correctedRow (db : Db) (originalTx : FoundTransaction) (dto : CorrectTransactionDto)
    (now : DateTime) : Transaction where
  idTransaction := db.newId
  idMerchant := originalTx.row.idMerchant
  idUser := originalTx.row.idUser
  idDevice := originalTx.row.idDevice
  status := .CONFIRMED
  syncStatus := .SYNCED
  createdAtLocal := originalTx.row.createdAtLocal
  createdAt := now
  confirmedAt := some now
  syncedAt := none
  total := dto.total
  subtotal := dto.subtotal
  offlineUuid := none
  payloadHash := none
  notes := dto.notes.or originalTx.row.notes
  voidedAt := none
  voidedBy := none
  voidReason := none

def createNewTransaction (db : Db) (originalTx : FoundTransaction)
    (dto : CorrectTransactionDto) (now : DateTime) : Except Err Db :=
  db.createTransaction (correctedRow db originalTx dto now)

/-- A detail row of `createDetailsAndDeductStock`; its column takes whole pieces. -/
def correctedDetail (newTxId : Ident) (now : DateTime) (item : CorrectItemDto) :
    DetailTransaction where
  idTransaction := newTxId
  idProduct := item.idProduct
  quantity := truncate item.quantity
  unitPrice := item.unitPrice
  subtotal := item.subtotal
  productName := item.productName.getD "Correction"
  skuSnapshot := "NONE"
  catalogVersion := now

/-- The movement of `createDetailsAndDeductStock` for an item. -/
def correctedMovement (newTxId idMerchant userId : Ident) (reason : String)
    (item : CorrectItemDto) : AdjustInventoryParams where
  idProduct := item.idProduct
  idMerchant := idMerchant
  idUser := userId
  idTransaction := some newTxId
  quantityChange := -truncate item.quantity
  movementType := .CORRECTION
  notes := s!"New stock deduction after correction. Reason: {reason}"

def createDetailsAndDeductStock (db : Db) (newTxId idMerchant : Ident)
    (dto : CorrectTransactionDto) (userId : Ident) (now : DateTime) : Except Err Db := do
  forM dto.items fun item => do
    let _ ← toInt "quantity" item.quantity
  let db ← db.createManyDetails (dto.items.map (correctedDetail newTxId now))
  adjustEach db now (dto.items.map (correctedMovement newTxId idMerchant userId dto.reason))

/-- The row of `clonePayment`. -/
def clonedPayment (db : Db) (originalTx : FoundTransaction) (payment : Payment)
    (newTransactionId : Ident) (newTotal : ℚ) (now : DateTime) : Payment :=
  { payment with
    idPayment := db.newId
    idTransaction := newTransactionId
    idMerchant := originalTx.row.idMerchant
    amount := newTotal
    createdAt := now }

def clonePayment (db : Db) (originalTx : FoundTransaction) (newTransactionId : Ident)
    (newTotal : ℚ) (now : DateTime) : Except Err Db :=
  match originalTx.payment with
  -- a transaction without a payment is corrected without one
  | none => .ok db
  | some payment =>
      db.createPayment (clonedPayment db originalTx payment newTransactionId newTotal now)

/-- The `void_reason` of a corrected transaction. -/
def correctedReason (reason : String) (newId : Ident) : String :=
  s!"Corrected. Reason: {reason}. New transaction: {newId}"

/-- The row of `markOldAsVoidedAndBridge`. -/
def correctionRow (db : Db) (oldId newId userId : Ident) (reason : String) (now : DateTime) :
    TransactionCorrection where
  idCorrection := db.newId
  idOldTransaction := oldId
  idNewTransaction := newId
  correctedBy := userId
  reason := reason
  createdAt := now

def markOldAsVoidedAndBridge (db : Db) (user : JwtPayload) (oldId newId : Ident)
    (reason : String) (now : DateTime) : Except Err Db := do
  let db ← db.updateTransaction oldId (some user.sub)
    (Transaction.voided user (correctedReason reason newId) now)
  db.createCorrection (correctionRow db oldId newId user.sub reason now)

/-- The database transaction of `correctTransaction`. -/
def Transactions.correctTransactionWrite (db : Db) (user : JwtPayload)
    (originalTx : FoundTransaction) (dto : CorrectTransactionDto) (now : DateTime) :
    Except Err Db := do
  -- the old sale is put back before the new one is taken out
  let db ← revertOldStock db originalTx user.sub dto.reason now
  let newTxId := db.newId
  let db ← createNewTransaction db originalTx dto now
  let db ← createDetailsAndDeductStock db newTxId originalTx.row.idMerchant dto user.sub now
  let db ← clonePayment db originalTx newTxId dto.total now
  markOldAsVoidedAndBridge db user originalTx.row.idTransaction newTxId dto.reason now

/-- `correctTransaction`. -/
def Transactions.correctTransaction (db : Db) (user : JwtPayload) (id : Ident)
    (dto : CorrectTransactionDto) (now : DateTime) : Except Err Db := do
  let originalTx ← Transactions.correctTransactionRead db user id
  Transactions.correctTransactionWrite db user originalTx dto now

/-! ## What the reads establish -/

/-- What a lookup finds is in the database. -/
structure FoundTransaction.CurrentIn (t : FoundTransaction) (db : Db) : Prop where
  row : t.row ∈ db.transactions.rows
  details : t.details = db.detailsOf t.row.idTransaction
  payment : t.payment = db.payments.findUnique (.transaction t.row.idTransaction)

section Reads

variable {db : Db} {user : JwtPayload} {id : Ident} {t : FoundTransaction}

theorem findTransaction_eq_some (h : db.findTransaction id = some t) :
    t.CurrentIn db ∧ (t.row.idTransaction = id ∨ t.row.offlineUuid = some id) := by
  obtain ⟨row, hfind, rfl⟩ := Option.map_eq_some_iff.mp h
  exact ⟨⟨List.mem_of_find?_eq_some hfind, rfl, rfl⟩, by simpa using List.find?_some hfind⟩

theorem findOne_eq_ok (h : Transactions.findOne db user id = .ok t) :
    t.CurrentIn db ∧ t.row.idMerchant = user.idMerchant := by
  unfold Transactions.findOne at h
  simp only [bind_eq_ok, orThrow_eq_ok, require_eq_ok, pure_eq_ok, decide_eq_true_eq,
    exists_const] at h
  obtain ⟨_, hfind, hm, rfl⟩ := h
  exact ⟨(findTransaction_eq_some hfind).1, hm⟩

theorem voidTransactionRead_eq_ok (h : Transactions.voidTransactionRead db user id = .ok t) :
    t.CurrentIn db ∧ t.row.idMerchant = user.idMerchant ∧ t.row.status = .PENDING := by
  unfold Transactions.voidTransactionRead at h
  simp only [bind_eq_ok, require_eq_ok, pure_eq_ok, decide_eq_true_eq, exists_const] at h
  obtain ⟨_, hfind, -, hstatus, rfl⟩ := h
  exact ⟨(findOne_eq_ok hfind).1, (findOne_eq_ok hfind).2, hstatus⟩

theorem resolveConflictRead_eq_ok (h : Transactions.resolveConflictRead db user id = .ok t) :
    t.CurrentIn db ∧ t.row.idMerchant = user.idMerchant ∧ t.row.syncStatus = .SYNC_CONFLICT := by
  unfold Transactions.resolveConflictRead at h
  simp only [bind_eq_ok, require_eq_ok, pure_eq_ok, decide_eq_true_eq, exists_const] at h
  obtain ⟨_, hfind, hsync, rfl⟩ := h
  exact ⟨(findOne_eq_ok hfind).1, (findOne_eq_ok hfind).2, hsync⟩

theorem correctTransactionRead_eq_ok
    (h : Transactions.correctTransactionRead db user id = .ok t) :
    t.CurrentIn db ∧ t.row.idMerchant = user.idMerchant ∧ t.row.status = .CONFIRMED := by
  unfold Transactions.correctTransactionRead at h
  simp only [bind_eq_ok, require_eq_ok, pure_eq_ok, decide_eq_true_eq, exists_const] at h
  obtain ⟨_, hfind, hstatus, rfl⟩ := h
  exact ⟨(findOne_eq_ok hfind).1, (findOne_eq_ok hfind).2, hstatus⟩

end Reads

end KPos
