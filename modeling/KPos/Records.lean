/-
# Sales records are not rewritten

Here every request of the five services interleaves with the others, query by query and
statement by statement, and may abort between any two.  Whatever the order, the rows that
record sales stay as they are, up to the lifecycle of a transaction and the failure of a
payment.

* `RecordRequest`, `RecordWrites` : the requests and their database transactions;
* `RecordWrites.run_eq` : the statements of a transaction do what the service's function does;
* `Preserved`, `OnlyCorrects` : what stays in every run, and what a correction changes;
* `records_preserved` : every run keeps the records, and a correction only adds to them;
* `correction_restocks` : a correction that also changes a row of the stock.
-/
import KPos.Lib.Archive
import KPos.StockLedger
import KPos.Payments
import KPos.DeadLetters
import KPos.Corrections

namespace KPos

/-! ## Requests and their statements -/

/-- The lookup, the test and the upload of `ProductsService.update`. -/
def Products.updateRead (db : Db) (user : JwtPayload) (productId : Ident)
    (dto : UpdateProductDto) (upload : Upload) : Except Err (Option String) := do
  let _ ← orThrow (Products.findOwn db user productId)
    (.notFound "Product not found or does not belong to your store.")
  require (dto.price.all fun x => decide (0 ≤ x)) (.badRequest "Price must not be negative.")
  upload.imageUrl

/-- A request that reads. -/
inductive RecordRequest where
  | stock (r : StockRequest)
  | updateProduct (user : JwtPayload) (productId : Ident) (dto : UpdateProductDto)
      (upload : Upload)
  | removeProduct (user : JwtPayload) (productId : Ident)
  | voidTransaction (user : JwtPayload) (id : Ident) (voidReason : String) (now : DateTime)
  | createReconciliation (user : JwtPayload) (dto : CreateReconciliationDto) (now : DateTime)
  | reconcilePayment (user : JwtPayload) (paymentId : Ident) (dto : CreateReconciliationDto)
      (now : DateTime)
  | resolveReconciliation (id : Ident) (user : JwtPayload) (dto : ResolveReconciliationDto)
      (now : DateTime)
  | handleFailure (data : QueuedTransaction) (error : Err) (now : DateTime)
  | recordTerminalFailure (data : QueuedTransaction) (now : DateTime)

/-- A database transaction, with what its request has read. -/
inductive RecordWrites where
  | stock (b : StockWrites)
  | updateProduct (productId : Ident) (dto : UpdateProductDto) (imageUrl : Option String)
  | removeProduct (productId : Ident)
  | voidTransaction (user : JwtPayload) (t : FoundTransaction) (voidReason : String)
      (now : DateTime)
  | openCase (user : JwtPayload) (payment : Payment) (dto : CreateReconciliationDto)
      (now : DateTime)
  | resolveReconciliation (id : Ident) (user : JwtPayload) (r : FoundReconciliation)
      (dto : ResolveReconciliationDto) (now : DateTime)
  | handleFailure (data : QueuedTransaction) (error : Err) (now : DateTime)
  | recordTerminalFailure (data : QueuedTransaction) (existingEntry : Option SyncQueue)
      (now : DateTime)

/-- The next query of a request. -/
def RecordRequest.read (db : Db) : RecordRequest → Option (RecordRequest ⊕ RecordWrites)
  | .stock r => (r.read db).map (Sum.map .stock .stock)
  | .updateProduct user productId dto upload =>
      (Products.updateRead db user productId dto upload).toOption.map fun imageUrl =>
        .inr (.updateProduct productId dto imageUrl)
  | .removeProduct user productId =>
      (Products.findOwn db user productId).map fun _ => .inr (.removeProduct productId)
  | .voidTransaction user id voidReason now =>
      (Transactions.voidTransactionRead db user id).toOption.map fun t =>
        .inr (.voidTransaction user t voidReason now)
  | .createReconciliation user dto now =>
      (Reconciliations.createRead db user dto).toOption.map fun payment =>
        .inr (.openCase user payment dto now)
  | .reconcilePayment user paymentId dto now =>
      (Payments.reconcileRead db user paymentId).toOption.map fun payment =>
        .inr (.openCase user payment dto now)
  | .resolveReconciliation id user dto now =>
      (Reconciliations.resolveRead db id user).toOption.map fun r =>
        .inr (.resolveReconciliation id user r dto now)
  | .handleFailure data error now => some (.inr (.handleFailure data error now))
  | .recordTerminalFailure data now =>
      some (.inr (.recordTerminalFailure data (db.findNoted data) now))

/-- The statements of `resolve` that write. -/
def resolveStatements (id : Ident) (user : JwtPayload) (r : FoundReconciliation)
    (dto : ResolveReconciliationDto) (now : DateTime) : List Statement :=
  (fun db => (db.updateReconciliation id user.sub
    (Reconciliation.resolved user dto now)).toOption) ::
  match dto.newStatus with
  | .RESOLVED_VALID => []
  | .RESOLVED_INVALID =>
      (fun db => (db.updatePayment r.row.idPayment Payment.failed).toOption) ::
      if r.transaction.status ≠ .VOIDED then
        [fun db => (db.updateTransaction r.transaction.idTransaction (some user.sub)
          (Transaction.voided user (invalidReason id) now)).toOption]
      else []

/-- The statements of a transaction. -/
def RecordWrites.statements (db : Db) : RecordWrites → List Statement
  | .stock b => b.statements db
  | .updateProduct productId dto imageUrl =>
      [fun db => (db.updateProduct productId (Product.updated dto imageUrl)).toOption]
  | .removeProduct productId =>
      [fun db => (db.updateProduct productId fun p => { p with isActive := false }).toOption]
  | .voidTransaction user t voidReason now =>
      [fun db => (Transactions.voidTransactionWrite db user t voidReason now).toOption]
  | .openCase user payment dto now =>
      [fun db => (Reconciliations.createWrite db user payment dto now).toOption]
  | .resolveReconciliation id user r dto now => resolveStatements id user r dto now
  | .handleFailure data error now =>
      [fun db => (db.createSyncQueue (failureRow db data error now)).toOption]
  | .recordTerminalFailure data existingEntry now =>
      [fun db => (writeTerminalFailure db data existingEntry now).toOption]

/-- The requests and their transactions. -/
def recordClient : Client Db RecordRequest RecordWrites where
  read := RecordRequest.read
  statements := RecordWrites.statements

/-- What the service's function makes of the database. -/
def RecordWrites.write (db : Db) : RecordWrites → Except Err Db
  | .stock b => b.write db
  | .updateProduct productId dto imageUrl =>
      db.updateProduct productId (Product.updated dto imageUrl)
  | .removeProduct productId => db.updateProduct productId fun p => { p with isActive := false }
  | .voidTransaction user t voidReason now =>
      Transactions.voidTransactionWrite db user t voidReason now
  | .openCase user payment dto now => Reconciliations.createWrite db user payment dto now
  | .resolveReconciliation id user r dto now =>
      Reconciliations.resolveWrite db id user r dto now
  | .handleFailure data error now => db.createSyncQueue (failureRow db data error now)
  | .recordTerminalFailure data existingEntry now =>
      writeTerminalFailure db data existingEntry now

section Statements

open Client

variable {db : Db}

/-- `update` reads, and then writes what `RecordWrites` has. -/
theorem products_update_eq (user : JwtPayload) (productId : Ident) (dto : UpdateProductDto)
    (upload : Upload) : Products.update db user productId dto upload =
      Products.updateRead db user productId dto upload >>= fun imageUrl =>
        Products.catchDuplicate (dto.sku.getD "undefined")
          (db.updateProduct productId (Product.updated dto imageUrl)) := by
  unfold Products.update Products.updateRead
  simp only [bind_assoc]

/-- The statements of a resolution do what `resolveWrite` does. -/
theorem runAll_resolve (id : Ident) (user : JwtPayload) (r : FoundReconciliation)
    (dto : ResolveReconciliationDto) (now : DateTime) (db : Db) :
    runAll (resolveStatements id user r dto now) db
      = (Reconciliations.resolveWrite db id user r dto now).toOption := by
  unfold resolveStatements Reconciliations.resolveWrite
  cases dto.newStatus with
  | RESOLVED_VALID => exact runAll_one _ db
  | RESOLVED_INVALID =>
    refine runAll_then fun db₁ _ => ?_
    refine runAll_then fun db₂ _ => ?_
    by_cases hvoided : r.transaction.status ≠ .VOIDED
    · rw [if_pos hvoided, if_pos hvoided]
      exact runAll_one _ db₂
    · rw [if_neg hvoided, if_neg hvoided]
      rfl

/-- **The statements of a transaction do what the service's function does.** -/
theorem RecordWrites.run_eq (db : Db) (b : RecordWrites) :
    recordClient.run db b = (b.write db).toOption := by
  cases b with
  | stock b => exact b.run_eq db
  | resolveReconciliation id user r dto now => exact runAll_resolve id user r dto now db
  | _ => exact runAll_one _ db

end Statements

/-! ## What stays -/

/-- A payment as it was, or FAILED after it was VERIFIED, with nothing else changed. -/
def Payment.Rejected (p p' : Payment) : Prop :=
  p' = p ∨ p.status = .VERIFIED ∧ p' = { p with status := .FAILED }

/-- The row of a product's stock, with another `current_stock`. -/
def Inventory.Restocked (i i' : Inventory) : Prop := i' = { i with currentStock := i'.currentStock }

/-- The rows that record sales stay, up to the lifecycle of a transaction and the failure of a
payment. -/
structure Preserved (db db' : Db) : Prop where
  transactions : Extends Transaction.Moved db.transactions.rows db'.transactions.rows
  details : Extends Eq db.details db'.details
  histories : Extends Eq db.stockHistories db'.stockHistories
  corrections : Extends Eq db.corrections.rows db'.corrections.rows
  payments : Extends Payment.Rejected db.payments.rows db'.payments.rows

/-- A transaction as it was, or `old` with other lifecycle columns. -/
def Transaction.Retired (old : Ident) (t t' : Transaction) : Prop :=
  t' = t ∨ t.idTransaction = old ∧ t.Moved t'

/-- Lifecycle columns of the transaction `old` changed, rows of the stock changed as `E` allows,
and nothing else changed but that rows were added. -/
structure OnlyCorrects (E : Inventory → Inventory → Prop) (old : Ident) (db db' : Db) : Prop where
  transactions : Extends (Transaction.Retired old) db.transactions.rows db'.transactions.rows
  details : Extends Eq db.details db'.details
  histories : Extends Eq db.stockHistories db'.stockHistories
  corrections : Extends Eq db.corrections.rows db'.corrections.rows
  payments : Extends Eq db.payments.rows db'.payments.rows
  inventories : Extends E db.inventories.rows db'.inventories.rows
  frame : db' = { db with
    transactions := db'.transactions
    details := db'.details
    stockHistories := db'.stockHistories
    corrections := db'.corrections
    payments := db'.payments
    inventories := db'.inventories
    seq := db'.seq }

theorem Transaction.Retired.refl {old : Ident} (t : Transaction) : Transaction.Retired old t t :=
  Or.inl rfl

theorem Transaction.Retired.trans {old : Ident} (t₁ t₂ t₃ : Transaction)
    (h₁ : Transaction.Retired old t₁ t₂) (h₂ : Transaction.Retired old t₂ t₃) :
    Transaction.Retired old t₁ t₃ := by
  rcases h₁ with rfl | ⟨hid, h₁⟩
  · exact h₂
  · rcases h₂ with rfl | ⟨-, h₂⟩
    · exact Or.inr ⟨hid, h₁⟩
    · exact Or.inr ⟨hid, h₁.trans h₂⟩

theorem Payment.Rejected.refl (p : Payment) : p.Rejected p := Or.inl rfl

theorem Payment.Rejected.trans (p q r : Payment) (h₁ : p.Rejected q) (h₂ : q.Rejected r) :
    p.Rejected r := by
  rcases h₁ with rfl | ⟨hp, rfl⟩
  · exact h₂
  · rcases h₂ with rfl | ⟨hq, -⟩
    · exact Or.inr ⟨hp, rfl⟩
    · cases hq

/-- A payment that fails was VERIFIED, or stays as it was. -/
theorem Payment.rejected_failed (p : Payment) : p.Rejected (Payment.failed p) := by
  cases hp : p.status with
  | VERIFIED => exact Or.inr ⟨hp, rfl⟩
  | FAILED =>
    left
    show { p with status := .FAILED } = p
    rw [← hp]

theorem Inventory.Restocked.refl (i : Inventory) : i.Restocked i := rfl

theorem Inventory.Restocked.trans (i j k : Inventory) (h₁ : i.Restocked j) (h₂ : j.Restocked k) :
    i.Restocked k := by
  unfold Inventory.Restocked at h₁ h₂ ⊢
  rw [h₂, h₁]

section Preserved

variable {db db' db₁ db₂ db₃ : Db}

theorem Preserved.refl (db : Db) : Preserved db db :=
  ⟨.refl .refl _, .refl (fun _ => rfl) _, .refl (fun _ => rfl) _, .refl (fun _ => rfl) _,
    .refl .refl _⟩

theorem Preserved.trans (h₁ : Preserved db₁ db₂) (h₂ : Preserved db₂ db₃) : Preserved db₁ db₃ where
  transactions := h₁.transactions.trans (fun _ _ _ => .trans) h₂.transactions
  details := h₁.details.trans (fun _ _ _ => .trans) h₂.details
  histories := h₁.histories.trans (fun _ _ _ => .trans) h₂.histories
  corrections := h₁.corrections.trans (fun _ _ _ => .trans) h₂.corrections
  payments := h₁.payments.trans .trans h₂.payments

/-- What is entered is added to the detail lines and to the history. -/
theorem Entered.preserved {ds : List DetailTransaction} {hs : List StockHistory}
    (h : Entered db db' ds hs)
    (hts : Extends Transaction.Moved db.transactions.rows db'.transactions.rows)
    (hcs : Extends Eq db.corrections.rows db'.corrections.rows)
    (hps : Extends Payment.Rejected db.payments.rows db'.payments.rows) : Preserved db db' where
  transactions := hts
  details := by
    rw [h.details]
    exact .append (fun _ => rfl) _ _
  histories := by
    rw [h.histories]
    exact .append (fun _ => rfl) _ _
  corrections := hcs
  payments := hps

/-- What leaves the transactions, the corrections and the payments alone keeps the records. -/
theorem Entered.preserved_of_eq {ds : List DetailTransaction} {hs : List StockHistory}
    (h : Entered db db' ds hs) (hts : db'.transactions = db.transactions)
    (hcs : db'.corrections = db.corrections) (hps : db'.payments = db.payments) :
    Preserved db db' := by
  refine h.preserved ?_ ?_ ?_
  · rw [hts]
    exact .refl .refl _
  · rw [hcs]
    exact .refl (fun _ => rfl) _
  · rw [hps]
    exact .refl .refl _

/-- An update of lifecycle columns. -/
theorem moved_update {i : Ident} {f : Rewrite Transaction} (hf : ∀ t : Transaction, t.Moved (f t)) :
    Extends Transaction.Moved db.transactions.rows (db.transactions.update (.id i) f).rows :=
  extends_update .refl fun t _ _ => hf t

theorem preserved_relabel {i : Ident} {f : Rewrite Transaction}
    (hf : ∀ t : Transaction, t.Moved (f t)) : Preserved db (db.relabel i f) :=
  (entered_relabel db i f).preserved (moved_update hf) (.refl (fun _ => rfl) _) (.refl .refl _)

/-- A stored sale. -/
theorem StoredSale.preserved {data : QueuedTransaction} {hasConflict : Bool} {now : DateTime}
    {d : Device} {createdAtLocal : DateTime}
    (h : StoredSale db db' data hasConflict now d createdAtLocal) : Preserved db db' := by
  refine h.entered.preserved (extends_insert .refl h.insertable.header) ?_
    (extends_insert .refl h.insertable.payment)
  rw [h.frame]
  exact .refl (fun _ => rfl) _

theorem Forced.preserved {user : JwtPayload} {t : FoundTransaction} {notes : Option String}
    {now : DateTime} (h : Forced db db' user t notes now) : Preserved db db' := by
  refine h.entered.preserved ?_ ?_ ?_
  · rw [h.transactions]
    exact moved_update fun _ => rfl
  · rw [h.frame]
    exact .refl (fun _ => rfl) _
  · rw [h.frame]
    exact .refl .refl _

/-! ## Corrections -/

/-- Increments change nothing of the stock but `current_stock`. -/
theorem adjustEach_inventories {now : DateTime} {l : List AdjustInventoryParams}
    (h : adjustEach db now l = .ok db') :
    Extends Inventory.Restocked db.inventories.rows db'.inventories.rows := by
  refine foldlM_invariant
    (fun db₁ => Extends Inventory.Restocked db.inventories.rows db₁.inventories.rows) ?_
    (.refl .refl _) h
  intro db₁ a db₂ _ hdb₁ hstep
  obtain ⟨-, -, rfl⟩ := adjustInventoryAndHistory_eq_ok.mp hstep
  have hupdate : Extends Inventory.Restocked db₁.inventories.rows
      (db₁.inventoriesWith a.idProduct a.quantityChange).rows :=
    extends_update .refl fun _ _ _ => rfl
  exact hdb₁.trans .trans hupdate

theorem correctTransactionWrite_inventories {user : JwtPayload} {t : FoundTransaction}
    {dto : CorrectTransactionDto} {now : DateTime}
    (h : Transactions.correctTransactionWrite db user t dto now = .ok db') :
    Extends Inventory.Restocked db.inventories.rows db'.inventories.rows := by
  obtain ⟨db₁, db₃, db₄, ts, cs, h₁, -, h₃, h₄, -, rfl⟩ := correctTransactionWrite_steps h
  obtain ⟨ps, n, -, rfl⟩ := clonePayment_frame h₄
  have h₂ := adjustEach_inventories h₃
  exact (adjustEach_inventories h₁).trans .trans h₂

/-- **A correction only adds**, apart from the old transaction's lifecycle and the stock. -/
theorem correctTransactionWrite_onlyCorrects {user : JwtPayload} {t : FoundTransaction}
    {dto : CorrectTransactionDto} {now : DateTime}
    (h : Transactions.correctTransactionWrite db user t dto now = .ok db') :
    OnlyCorrects Inventory.Restocked t.row.idTransaction db db' := by
  have hcorrected := correctTransactionWrite_corrected h
  obtain ⟨ts, hins, hts⟩ := hcorrected.transactions
  obtain ⟨c, -, -, hcs⟩ := hcorrected.corrections
  refine ⟨?_, ?_, ?_, extends_insert (fun _ => rfl) hcs, ?_,
    correctTransactionWrite_inventories h, hcorrected.frame⟩
  · rw [hts]
    refine (extends_insert .refl hins).trans .trans (extends_update .refl fun s _ hs => ?_)
    exact Or.inr ⟨id_mem_keys.mp hs, moved_voided s⟩
  · rw [hcorrected.entered.details]
    exact .append (fun _ => rfl) _ _
  · rw [hcorrected.entered.histories]
    exact .append (fun _ => rfl) _ _
  · rcases correctTransactionWrite_cloned h with ⟨-, hps⟩ | ⟨p, mid, -, hps⟩
    · rw [hps]
      exact .refl (fun _ => rfl) _
    · exact extends_insert (fun _ => rfl) hps

theorem OnlyCorrects.preserved {E : Inventory → Inventory → Prop} {old : Ident}
    (h : OnlyCorrects E old db db') : Preserved db db' where
  transactions := by
    refine h.transactions.imp ?_
    rintro t _ (rfl | ⟨-, hmoved⟩)
    · exact .refl _
    · exact hmoved
  details := h.details
  histories := h.histories
  corrections := h.corrections
  payments := h.payments.imp fun p _ hp => Or.inl hp.symm

/-! ## Every write -/

theorem SameSales.preserved (h : SameSales db db') (hps : db'.payments = db.payments) :
    Preserved db db' :=
  h.entered.preserved_of_eq h.transactions h.corrections hps

theorem updateProduct_preserved {i : Ident} {f : Product → Product}
    (h : db.updateProduct i f = .ok db') : Preserved db db' := by
  refine (updateProduct_sameSales h).preserved ?_
  rw [updateProduct_outsideSales h]

theorem createSyncQueue_preserved {row : SyncQueue} (h : db.createSyncQueue row = .ok db') :
    Preserved db db' :=
  (createSyncQueue_sameSales h).preserved (createSyncQueue_payments h)

/-- A resolution, whatever it has read. -/
theorem resolveWrite_preserved {id : Ident} {user : JwtPayload} {r : FoundReconciliation}
    {dto : ResolveReconciliationDto} {now : DateTime}
    (h : Reconciliations.resolveWrite db id user r dto now = .ok db') : Preserved db db' := by
  have hcase : ∀ {db db' : Db} {f : Rewrite Reconciliation},
      db.updateReconciliation id user.sub f = .ok db' → Preserved db db' := by
    intro db db' f h
    refine (updateReconciliation_sameSales h).preserved ?_
    obtain ⟨-, -, rfl⟩ := updateReconciliation_eq_ok.mp h
    rfl
  unfold Reconciliations.resolveWrite at h
  split at h
  · exact hcase h
  · simp only [bind_eq_ok] at h
    obtain ⟨db₁, h₁, db₂, h₂, h⟩ := h
    have hfailed : Preserved db₁ db₂ := by
      have hsame := updatePayment_sameSales h₂
      obtain ⟨-, rfl⟩ := updatePayment_eq_ok.mp h₂
      exact hsame.entered.preserved (.refl .refl _) (.refl (fun _ => rfl) _)
        (extends_update .refl fun p _ _ => p.rejected_failed)
    refine (hcase h₁).trans (hfailed.trans ?_)
    split at h
    · obtain ⟨-, -, rfl⟩ := updateTransaction_eq_ok.mp h
      exact preserved_relabel moved_voided
    · obtain rfl := pure_eq_ok.mp h
      exact .refl db₂

/-- **A call that runs to completion keeps the records.** -/
theorem exec_preserved (db : Db) (op : Op) : Preserved db (exec db op) := by
  obtain ⟨ds, hs, hentered⟩ := exec_entered db op
  have hsettles := exec_settles db op
  generalize exec db op = db' at hentered hsettles
  cases hsettles with
  | alone hts hps hcs => exact hentered.preserved_of_eq hts hcs hps
  | sold d created stored sale hts hps hcs =>
    refine hentered.preserved ?_ ?_ ?_
    · rw [hts]
      exact extends_insert .refl sale.insertable.header
    · rw [hcs]
      exact .refl (fun _ => rfl) _
    · rw [hps]
      exact extends_insert .refl sale.insertable.payment
  | moved i f hf hts hps hcs =>
    refine hentered.preserved ?_ ?_ ?_
    · rw [hts]
      exact moved_update hf
    · rw [hcs]
      exact .refl (fun _ => rfl) _
    · rw [hps]
      exact .refl .refl _
  | corrected t read write => exact (correctTransactionWrite_onlyCorrects write).preserved
  | failed r found hts hps hcs =>
    refine hentered.preserved ?_ ?_ ?_
    · rcases hts with hts | hts
      · rw [hts]
        exact .refl .refl _
      · rw [hts]
        exact moved_update moved_voided
    · rw [hcs]
      exact .refl (fun _ => rfl) _
    · rw [hps]
      exact extends_update .refl fun p _ _ => p.rejected_failed

theorem StockWrites.preserved {b : StockWrites} (h : b.write db = .ok db') : Preserved db db' := by
  cases b with
  | createProduct user dto now =>
    refine (createRows_sameSales h).preserved ?_
    obtain ⟨-, -, -, ps, is, -, -, -, rfl⟩ := createProductWithInventory_eq_ok.mp h
    rfl
  | attachImage idProduct imageUrl => exact updateProduct_preserved h
  | adjustStock user read dto now =>
    obtain ⟨n, -, hadjust⟩ := bind_eq_ok.mp h
    have hmoved := adjustInventoryAndHistory_moved hadjust
    refine hmoved.entered.preserved_of_eq ?_ ?_ ?_ <;> rw [hmoved.frame]
  | storeSale data hasConflict now =>
    obtain ⟨d, created, hsale⟩ := storeTransaction_stored h
    exact hsale.preserved
  | resolveConflict user t dto now =>
    cases haction : dto.action with
    | CONFIRM => exact (resolveConflictWrite_confirm haction h).preserved
    | VOID =>
      rw [resolveConflictWrite_void haction h]
      exact preserved_relabel fun _ => rfl
  | correctTransaction user t dto now =>
    exact (correctTransactionWrite_onlyCorrects h).preserved
  | call op =>
    obtain rfl : exec db op = db' := Except.ok.inj h
    exact exec_preserved db op

/-- **Whatever a transaction writes, it keeps the records.** -/
theorem RecordWrites.preserved {b : RecordWrites} (h : b.write db = .ok db') :
    Preserved db db' := by
  cases b with
  | stock b => exact StockWrites.preserved h
  | updateProduct productId dto imageUrl => exact updateProduct_preserved h
  | removeProduct productId => exact updateProduct_preserved h
  | voidTransaction user t voidReason now =>
    obtain ⟨-, -, rfl⟩ := updateTransaction_eq_ok.mp h
    exact preserved_relabel moved_voided
  | openCase user payment dto now =>
    refine (createReconciliation_sameSales h).preserved ?_
    obtain ⟨-, -, rs, -, rfl⟩ := createReconciliation_eq_ok.mp h
    rfl
  | resolveReconciliation id user r dto now => exact resolveWrite_preserved h
  | handleFailure data error now => exact createSyncQueue_preserved h
  | recordTerminalFailure data existingEntry now =>
    cases existingEntry with
    | none => exact createSyncQueue_preserved h
    | some q =>
      obtain ⟨-, rfl⟩ := updateSyncQueue_eq_ok.mp h
      exact ⟨.refl .refl _, .refl (fun _ => rfl) _, .refl (fun _ => rfl) _,
        .refl (fun _ => rfl) _, .refl .refl _⟩

end Preserved

/-! ## Runs -/

/-- The state of a run. -/
abbrev RecordState := Client.State Db RecordRequest RecordWrites

/-- The transaction that is corrected. -/
def RecordWrites.corrects : RecordWrites → Option Ident
  | .stock (.correctTransaction _ t _ _) => some t.row.idTransaction
  | _ => none

/-- What the run to `τ` keeps of `σ`, and what every correction that commits in `τ` changes. -/
structure Immutable (E : Inventory → Inventory → Prop) (σ τ : RecordState) : Prop where
  records : Preserved σ.store τ.store
  correction : ∀ a ρ b old, recordClient.next τ a = some ρ → ρ.committed = τ.committed ++ [b] →
    b.corrects = some old → OnlyCorrects E old τ.store ρ.store

/-- **Sales records are immutable**, under every interleaving of queries, statements, commits and
aborts; a correction changes lifecycle columns of the old transaction and `current_stock`, and
adds rows. -/
theorem records_preserved {σ τ : RecordState} (h : Runs.Reaches recordClient.next σ τ) :
    Immutable Inventory.Restocked σ τ := by
  refine ⟨?_, ?_⟩
  · refine h.invariant (fun τ => Preserved σ.store τ.store) (.refl σ.store) fun τ a ρ hτ hstep => ?_
    rcases Client.next_store hstep with ⟨hstore, -⟩ | ⟨b, hrun, -⟩
    · rw [hstore]
      exact hτ
    · rw [b.run_eq] at hrun
      exact hτ.trans (RecordWrites.preserved (toOption_eq_some hrun))
  · intro a ρ b old hstep hcommitted hold
    rcases Client.next_store hstep with ⟨-, hsame⟩ | ⟨b', hrun, hadded⟩
    · rw [hsame] at hcommitted
      exact absurd hcommitted.symm (by simp)
    · obtain rfl : b' = b := by
        rw [hadded] at hcommitted
        exact List.singleton_inj.mp (List.append_cancel_left hcommitted)
      rw [b'.run_eq] at hrun
      unfold RecordWrites.corrects at hold
      split at hold
      · obtain rfl := Option.some.inj hold
        exact correctTransactionWrite_onlyCorrects (toOption_eq_some hrun)
      · cases hold

/-- A correction of the sale to two pieces, up to its last statement. -/
def correctsToTwo : List (Client.Action RecordRequest) :=
  .request 0 (.stock (.correctTransaction shopOwner (.cuid 5)
    ⟨"miscounted", [⟨shopProduct, 2, 2, 4, none⟩], 4, 4, none⟩ 2)) ::
  List.replicate 10 (.advance 0)

/-- The correction is about to commit, and then the shop has eight pieces. -/
def aboutToCorrect (σ : RecordState) : Bool :=
  (recordClient.next σ (.commit 0)).any fun ρ =>
    decide (ρ.committed.getLast?.bind RecordWrites.corrects = some (.cuid 5) ∧
      ∀ i ∈ ρ.store.inventories.rows, i.currentStock = 8)

theorem run_correctsToTwo : ∃ σ, Runs.Reaches recordClient.next (Client.start soldThree) σ ∧
    σ.committed = [] ∧ aboutToCorrect σ = true := by
  have hcheck : (Runs.runs recordClient.next (fun _ _ => true) (Client.start soldThree)
      correctsToTwo).any (fun σ => σ.committed.isEmpty && aboutToCorrect σ) = true := by
    decide +kernel
  obtain ⟨σ, hrun, hσ⟩ := Runs.exists_run_of_runs hcheck
  rw [Bool.and_eq_true, List.isEmpty_iff] at hσ
  exact ⟨σ, hrun.reaches, hσ⟩

/-- The records of the sale stay until the correction commits. -/
theorem records_preserved_correctsToTwo : ∃ σ, aboutToCorrect σ = true ∧
    Immutable Inventory.Restocked (Client.start soldThree) σ := by
  obtain ⟨σ, hreach, -, hσ⟩ := run_correctsToTwo
  exact ⟨σ, hσ, records_preserved hreach⟩

/-- **A correction changes a row that is not the old transaction**: the row of the stock. -/
theorem correction_restocks : ¬ ∀ (us : Table User) (db : Db) (σ : RecordState), Reachable us db →
    Runs.Reaches recordClient.next (Client.start db) σ → Immutable Eq (Client.start db) σ := by
  intro h
  obtain ⟨σ, hreach, hnone, hσ⟩ := run_correctsToTwo
  have himm := h _ _ σ reachable_soldThree hreach
  obtain ⟨ρ, hstep, hρ⟩ := (Option.any_eq_true _ _).mp hσ
  obtain ⟨hlast, height⟩ := of_decide_eq_true hρ
  rcases Client.next_store hstep with ⟨-, hsame⟩ | ⟨b, -, hadded⟩
  · rw [hsame, hnone] at hlast
    cases hlast
  · rw [hadded, hnone] at hlast
    have honly := himm.correction _ ρ b (.cuid 5) hstep hadded hlast
    -- nothing was committed before, so the stock is that of seven pieces
    have hstore : σ.store.inventories.rows = soldThree.inventories.rows := by
      have hserial := Client.serial hreach
      rw [hnone] at hserial
      rw [← Option.some.inj hserial]
    have hseven : ∃ i ∈ soldThree.inventories.rows, i.currentStock = 7 := by decide +kernel
    obtain ⟨i, hi, hstock⟩ := hseven
    obtain ⟨i', hi', rfl⟩ := honly.inventories.exists_mem (hstore ▸ hi)
    have := height i hi'
    omega

end KPos
