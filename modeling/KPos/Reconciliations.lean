/-
# Reconciliation of payments (`reconciliations.service.ts`, `payments.service.ts`)

A case is opened for a payment, through either of two services, and resolved once.  An
invalid payment fails, and its transaction is voided; the stock is not touched.
-/
import KPos.Transactions

namespace KPos

/-! ## Opening a case -/

structure CreateReconciliationDto where
  idTransaction : Ident
  reason : String
  evidence : Option String

/-- The row that opens a case. -/
def openCase (db : Db) (user : JwtPayload) (idPayment : Ident) (dto : CreateReconciliationDto)
    (now : DateTime) : Reconciliation where
  idReconciliation := db.newId
  idPayment := idPayment
  openedBy := user.sub
  reason := dto.reason
  evidenceNote := dto.evidence
  status := .OPEN
  resolvedBy := none
  resolvedAt := none
  resolutionNote := none
  createdAt := now

/-- The lookups and the tests of `ReconciliationsService.create`. -/
def Reconciliations.createRead (db : Db) (user : JwtPayload) (dto : CreateReconciliationDto) :
    Except Err Payment := do
  let transaction ← orThrow (db.findTransaction dto.idTransaction)
    (.notFound "Transaction not found")
  require (decide (transaction.row.idMerchant = user.idMerchant))
    (.badRequest "Transaction does not belong to your merchant")
  let payment ← orThrow transaction.payment
    (.badRequest "Transaction has no payment to reconcile")
  -- any case of the payment, also one that is resolved
  require (db.reconciliations.rows.all fun r => decide (r.idPayment ≠ payment.idPayment))
    (.badRequest "Transaction payment is already under reconciliation")
  return payment

/-- The lookups and the tests of `PaymentsService.reconcile`. -/
def Payments.reconcileRead (db : Db) (user : JwtPayload) (paymentId : Ident) :
    Except Err Payment := do
  let payment ← orThrow (db.payments.findUnique (.id paymentId)) (.notFound "Payment not found")
  require (decide (payment.idMerchant = user.idMerchant)) (.forbidden "Access denied")
  -- an open case of the payment only
  require (db.reconciliations.rows.all fun r =>
      !decide (r.idPayment = paymentId ∧ r.status = .OPEN))
    (.badRequest "Payment already has an open reconciliation case")
  return payment

/-- The write of both services. -/
def Reconciliations.createWrite (db : Db) (user : JwtPayload) (payment : Payment)
    (dto : CreateReconciliationDto) (now : DateTime) : Except Err Db :=
  db.createReconciliation (openCase db user payment.idPayment dto now)

/-- `ReconciliationsService.create`. -/
def Reconciliations.create (db : Db) (user : JwtPayload) (dto : CreateReconciliationDto)
    (now : DateTime) : Except Err Db := do
  let payment ← Reconciliations.createRead db user dto
  Reconciliations.createWrite db user payment dto now

/-- `PaymentsService.reconcile`. -/
def Payments.reconcile (db : Db) (user : JwtPayload) (paymentId : Ident)
    (dto : CreateReconciliationDto) (now : DateTime) : Except Err Db := do
  let payment ← Payments.reconcileRead db user paymentId
  Reconciliations.createWrite db user payment dto now

/-! ## Resolving a case -/

/-- The `status` a resolution may name. -/
inductive Resolution where
  | RESOLVED_VALID | RESOLVED_INVALID
  deriving DecidableEq, Repr

def Resolution.status : Resolution → ReconciliationStatus
  | .RESOLVED_VALID => .RESOLVED_VALID
  | .RESOLVED_INVALID => .RESOLVED_INVALID

structure ResolveReconciliationDto where
  resolution : String
  status : Option Resolution

/-- `resolveDto.status ?? 'RESOLVED_VALID'`. -/
def ResolveReconciliationDto.newStatus (dto : ResolveReconciliationDto) : Resolution :=
  dto.status.getD .RESOLVED_VALID

/-- A case with `include: { payment: { include: { transaction: true } } }`. -/
structure FoundReconciliation where
  row : Reconciliation
  payment : Payment
  transaction : Transaction

/-- `findUnique` of a case; the foreign keys make sure that the included rows exist. -/
def Db.findReconciliation (db : Db) (id : Ident) : Option FoundReconciliation := do
  let row ← db.reconciliations.findUnique (.id id)
  let payment ← db.payments.findUnique (.id row.idPayment)
  let transaction ← db.transactions.findUnique (.id payment.idTransaction)
  return ⟨row, payment, transaction⟩

/-- The lookup and the tests of `resolve`. -/
def Reconciliations.resolveRead (db : Db) (id : Ident) (user : JwtPayload) :
    Except Err FoundReconciliation := do
  let reconciliation ← orThrow (db.findReconciliation id)
    (.notFound "Reconciliation record not found")
  require (decide (reconciliation.payment.idMerchant = user.idMerchant))
    (.badRequest "Not authorized to resolve this record")
  require (decide (reconciliation.row.status = .OPEN))
    (.badRequest "Reconciliation is already resolved")
  return reconciliation

/-- The columns that a resolution writes. -/
def Reconciliation.resolved (user : JwtPayload) (dto : ResolveReconciliationDto)
    (now : DateTime) : Rewrite Reconciliation where
  toFun r := { r with
    resolutionNote := some dto.resolution
    status := dto.newStatus.status
    resolvedBy := some user.sub
    resolvedAt := some now }
  keys_eq := fun _ => rfl

/-- The column that an invalid resolution writes to the payment. -/
def Payment.failed : Rewrite Payment where
  toFun p := { p with status := .FAILED }
  keys_eq := fun _ => rfl

/-- The `void_reason` of an invalid payment. -/
def invalidReason (id : Ident) : String :=
  s!"Payment reconciled as INVALID. Recon ID: {id}. Goods already delivered — stock unchanged."

/-- The writes of `resolve`. -/
def Reconciliations.resolveWrite (db : Db) (id : Ident) (user : JwtPayload)
    (reconciliation : FoundReconciliation) (dto : ResolveReconciliationDto) (now : DateTime) :
    Except Err Db :=
  match dto.newStatus with
  | .RESOLVED_VALID =>
      db.updateReconciliation id user.sub (Reconciliation.resolved user dto now)
  | .RESOLVED_INVALID => do
      let db ← db.updateReconciliation id user.sub (Reconciliation.resolved user dto now)
      let db ← db.updatePayment reconciliation.row.idPayment Payment.failed
      -- the goods were delivered: no stock is put back
      if reconciliation.transaction.status ≠ .VOIDED then
        db.updateTransaction reconciliation.transaction.idTransaction (some user.sub)
          (Transaction.voided user (invalidReason id) now)
      else
        return db

/-- `ReconciliationsService.resolve`. -/
def Reconciliations.resolve (db : Db) (id : Ident) (user : JwtPayload)
    (dto : ResolveReconciliationDto) (now : DateTime) : Except Err Db := do
  let reconciliation ← Reconciliations.resolveRead db id user
  Reconciliations.resolveWrite db id user reconciliation dto now

/-- What the lookup of a case finds is in the database. -/
theorem findReconciliation_eq_some {db : Db} {id : Ident} {r : FoundReconciliation}
    (h : db.findReconciliation id = some r) :
    r.row ∈ db.reconciliations.rows ∧ r.payment ∈ db.payments.rows ∧
      r.transaction ∈ db.transactions.rows := by
  obtain ⟨row, hrow, h⟩ := Option.bind_eq_some_iff.mp h
  obtain ⟨payment, hpay, h⟩ := Option.bind_eq_some_iff.mp h
  obtain ⟨tx, htx, h⟩ := Option.bind_eq_some_iff.mp h
  obtain rfl : (⟨row, payment, tx⟩ : FoundReconciliation) = r := Option.some.inj h
  exact ⟨(Table.findUnique_eq_some.mp hrow).1, (Table.findUnique_eq_some.mp hpay).1,
    (Table.findUnique_eq_some.mp htx).1⟩

section Resolution

variable {db db' : Db} {id : Ident} {user : JwtPayload} {r : FoundReconciliation}
  {dto : ResolveReconciliationDto} {now : DateTime}

/-- **What a resolution writes**: the case; if it is invalid, the payment too, and the
transaction unless it was VOIDED before. -/
theorem resolveWrite_cases (h : Reconciliations.resolveWrite db id user r dto now = .ok db') :
    db.users.has (.id user.sub) = true ∧
      (dto.newStatus = .RESOLVED_VALID ∧ db' = { db with
          reconciliations :=
            db.reconciliations.update (.id id) (Reconciliation.resolved user dto now) } ∨
        dto.newStatus = .RESOLVED_INVALID ∧ r.transaction.status = .VOIDED ∧ db' = { db with
          reconciliations :=
            db.reconciliations.update (.id id) (Reconciliation.resolved user dto now)
          payments := db.payments.update (.id r.row.idPayment) Payment.failed } ∨
        dto.newStatus = .RESOLVED_INVALID ∧ r.transaction.status ≠ .VOIDED ∧ db' = { db with
          reconciliations :=
            db.reconciliations.update (.id id) (Reconciliation.resolved user dto now)
          payments := db.payments.update (.id r.row.idPayment) Payment.failed
          transactions := db.transactions.update (.id r.transaction.idTransaction)
            (Transaction.voided user (invalidReason id) now) }) := by
  unfold Reconciliations.resolveWrite at h
  cases hstatus : dto.newStatus with
  | RESOLVED_VALID =>
    rw [hstatus] at h
    obtain ⟨-, huser, rfl⟩ := updateReconciliation_eq_ok.mp h
    exact ⟨huser, Or.inl ⟨rfl, rfl⟩⟩
  | RESOLVED_INVALID =>
    rw [hstatus] at h
    simp only [bind_eq_ok] at h
    obtain ⟨db₁, h₁, db₂, h₂, h⟩ := h
    obtain ⟨-, huser, rfl⟩ := updateReconciliation_eq_ok.mp h₁
    obtain ⟨-, rfl⟩ := updatePayment_eq_ok.mp h₂
    refine ⟨huser, Or.inr ?_⟩
    by_cases hvoided : r.transaction.status = .VOIDED
    · rw [if_neg (not_not.mpr hvoided)] at h
      exact Or.inl ⟨rfl, hvoided, (pure_eq_ok.mp h).symm⟩
    · rw [if_pos hvoided] at h
      exact Or.inr ⟨rfl, hvoided, (updateTransaction_eq_ok.mp h).2.2⟩

/-- A resolution as valid writes nothing but the case. -/
theorem resolveWrite_of_valid (hvalid : dto.newStatus = .RESOLVED_VALID)
    (h : Reconciliations.resolveWrite db id user r dto now = .ok db') :
    db' = { db with reconciliations :=
      db.reconciliations.update (.id id) (Reconciliation.resolved user dto now) } := by
  obtain ⟨-, ⟨-, hdb⟩ | ⟨hinvalid, -⟩ | ⟨hinvalid, -⟩⟩ := resolveWrite_cases h
  · exact hdb
  · rw [hvalid] at hinvalid
    cases hinvalid
  · rw [hvalid] at hinvalid
    cases hinvalid

/-- The tables that a resolution leaves. -/
theorem resolveWrite_frame (h : Reconciliations.resolveWrite db id user r dto now = .ok db') :
    ∃ rs ps ts, db' = { db with reconciliations := rs, payments := ps, transactions := ts } := by
  obtain ⟨-, ⟨-, rfl⟩ | ⟨-, -, rfl⟩ | ⟨-, -, rfl⟩⟩ := resolveWrite_cases h
  · exact ⟨_, db.payments, db.transactions, rfl⟩
  · exact ⟨_, _, db.transactions, rfl⟩
  · exact ⟨_, _, _, rfl⟩

end Resolution

end KPos
