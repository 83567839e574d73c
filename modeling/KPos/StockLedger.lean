/-
# The stock ledger under concurrent requests

Every stock change is a pair of statements, the increment of the stock and its row in
`StockHistory`, and the services make such pairs in loops.  Here requests interleave statement
by statement and may abort between any two, after reads that are no longer true.

* `StockRequest`, `StockWrites` : the requests and their database transactions;
* `StockWrites.run_eq` : the statements of a transaction do what the service's function does;
* `stock_ledger` : the stock of a product is the sum of its history.
-/
import KPos.Lib.Statements
import KPos.Effects

namespace KPos

/-! ## Requests and their statements -/

/-- A request that reads.  `check` is a sale whose lines are being selected. -/
inductive StockRequest where
  | createProduct (user : JwtPayload) (dto : CreateProductDto) (now : DateTime)
  | attachImage (idProduct : Ident) (imageUrl : String)
  | adjustStock (user : JwtPayload) (productId : Ident) (dto : AdjustStockDto) (now : DateTime)
  | sync (data : QueuedTransaction) (now : DateTime)
  | check (data : QueuedTransaction) (now : DateTime) (rest : List SyncItemDto)
  | resolveConflict (user : JwtPayload) (id : Ident) (dto : ResolveConflictDto) (now : DateTime)
  | correctTransaction (user : JwtPayload) (id : Ident) (dto : CorrectTransactionDto)
      (now : DateTime)
  | call (op : Op)

/-- A database transaction, with what its request has read. -/
inductive StockWrites where
  | createProduct (user : JwtPayload) (dto : CreateProductDto) (now : DateTime)
  | attachImage (idProduct : Ident) (imageUrl : String)
  | adjustStock (user : JwtPayload) (read : StockRead) (dto : AdjustStockDto) (now : DateTime)
  | storeSale (data : QueuedTransaction) (hasConflict : Bool) (now : DateTime)
  | resolveConflict (user : JwtPayload) (t : FoundTransaction) (dto : ResolveConflictDto)
      (now : DateTime)
  | correctTransaction (user : JwtPayload) (t : FoundTransaction) (dto : CorrectTransactionDto)
      (now : DateTime)
  | call (op : Op)

/-- The next query of a request. -/
def StockRequest.read (db : Db) : StockRequest → Option (StockRequest ⊕ StockWrites)
  | .createProduct user dto now => some (.inr (.createProduct user dto now))
  | .attachImage idProduct imageUrl => some (.inr (.attachImage idProduct imageUrl))
  | .adjustStock user productId dto now =>
      (Products.adjustStockRead db user productId dto).toOption.map fun read =>
        .inr (.adjustStock user read dto now)
  | .sync data now =>
      if db.isStored data then none
      else (validateArithmetic data.toSyncTransactionDto).toOption.map fun _ =>
        .inl (.check data now data.items)
  -- one line at a time
  | .check data now [] => some (.inr (.storeSale data false now))
  | .check data now (item :: rest) =>
      if item.conflictsWith (db.selectForUpdate item.idProduct) then
        some (.inr (.storeSale data true now))
      else some (.inl (.check data now rest))
  | .resolveConflict user id dto now =>
      (Transactions.resolveConflictRead db user id).toOption.map fun t =>
        .inr (.resolveConflict user t dto now)
  | .correctTransaction user id dto now =>
      (Transactions.correctTransactionRead db user id).toOption.map fun t =>
        .inr (.correctTransaction user t dto now)
  | .call op => some (.inr (.call op))

/-- A statement, as far as it goes through. -/
abbrev Statement := Db → Option Db

/-- The two statements of `adjustInventoryAndHistory`. -/
def AdjustInventoryParams.statements (now : DateTime) (params : AdjustInventoryParams) :
    List Statement :=
  [fun db => (db.incrementStock params.idProduct params.quantityChange).toOption,
   fun db => (db.createStockHistory (params.history now)).toOption]

/-- The statements of a loop of adjustments. -/
def adjustStatements (now : DateTime) (l : List AdjustInventoryParams) : List Statement :=
  l.flatMap (·.statements now)

/-- The statements of `storeTransaction`, on the database that its transaction starts on. -/
def saleStatements (db : Db) (data : QueuedTransaction) (hasConflict : Bool) (now : DateTime) :
    List Statement :=
  match db.devices.findUnique (.id data.idDevice) with
  | none => [fun _ => none]
  | some device =>
      (fun db => (createTransactionHeader db data device hasConflict now).toOption) ::
      (fun db' => (createTransactionDetails db' db.newId data.items now).toOption) ::
      (fun db' => (createPayment db' db.newId device.idMerchant data.payment now).toOption) ::
      if hasConflict then []
      else adjustStatements now (data.items.map (saleMovement data db.newId device.idMerchant))

/-- The `createMany` of `createDetailsAndDeductStock`. -/
def createCorrectedDetails (db : Db) (newTxId : Ident) (dto : CorrectTransactionDto)
    (now : DateTime) : Except Err Db := do
  forM dto.items fun item => do
    let _ ← toInt "quantity" item.quantity
  db.createManyDetails (dto.items.map (correctedDetail newTxId now))

/-- The statements of `correctTransactionWrite`. -/
def correctionStatements (db : Db) (user : JwtPayload) (t : FoundTransaction)
    (dto : CorrectTransactionDto) (now : DateTime) : List Statement :=
  adjustStatements now (t.details.map (revertMovement t user.sub dto.reason)) ++
    (fun db => (createNewTransaction db t dto now).toOption) ::
    (fun db' => (createCorrectedDetails db' db.newId dto now).toOption) ::
    (adjustStatements now
      (dto.items.map (correctedMovement db.newId t.row.idMerchant user.sub dto.reason)) ++
    [fun db' => (clonePayment db' t db.newId dto.total now).toOption,
     fun db' => (db'.updateTransaction t.row.idTransaction (some user.sub)
      (Transaction.voided user (correctedReason dto.reason db.newId) now)).toOption,
     fun db' => (db'.createCorrection (correctionRow db' t.row.idTransaction db.newId user.sub
      dto.reason now)).toOption])

/-- The statements of a transaction. -/
def StockWrites.statements (db : Db) : StockWrites → List Statement
  | .createProduct user dto now =>
      [fun db => (Products.createRows db user dto (dto.generatedSku now) now).toOption]
  | .attachImage idProduct imageUrl =>
      [fun db => (db.updateProduct idProduct
        fun p => { p with imageUrl := some imageUrl }).toOption]
  | .adjustStock user read dto now =>
      match toInt "current_stock" dto.quantity with
      | .error _ => [fun _ => none]
      | .ok n => (Products.adjustment user read.product dto n).statements now
  | .storeSale data hasConflict now => saleStatements db data hasConflict now
  | .resolveConflict user t dto now =>
      match dto.action with
      | .CONFIRM =>
          adjustStatements now (t.details.map (forcedMovement t user.sub dto.notes)) ++
          [fun db => (markAsConfirmed db t.row.idTransaction now).toOption]
      | .VOID =>
          [fun db => (db.updateTransaction t.row.idTransaction (some user.sub)
            (Transaction.conflictVoided user dto.notes now)).toOption]
  | .correctTransaction user t dto now => correctionStatements db user t dto now
  -- any other call, run to completion
  | .call op => [fun db => some (exec db op)]

/-- The requests and their transactions. -/
def stockClient : Client Db StockRequest StockWrites where
  read := StockRequest.read
  statements := StockWrites.statements

/-! ## Statements and services -/

/-- What the service's function makes of the database. -/
def StockWrites.write (db : Db) : StockWrites → Except Err Db
  | .createProduct user dto now => Products.createRows db user dto (dto.generatedSku now) now
  | .attachImage idProduct imageUrl =>
      db.updateProduct idProduct fun p => { p with imageUrl := some imageUrl }
  | .adjustStock user read dto now => Products.adjustStockWrite db user read dto now
  | .storeSale data hasConflict now => storeTransaction db data hasConflict now
  | .resolveConflict user t dto now => Transactions.resolveConflictWrite db user t dto now
  | .correctTransaction user t dto now => Transactions.correctTransactionWrite db user t dto now
  | .call op => .ok (exec db op)

section Statements

open Client

variable {db : Db} {now : DateTime}

theorem toOption_bind {α β : Type} (x : Except Err α) (f : α → Except Err β) :
    (x >>= f).toOption = x.toOption.bind fun a => (f a).toOption := by
  cases x <;> rfl

theorem runAll_one (f : Statement) (db : Db) : runAll [f] db = f db := by
  rw [runAll_cons]
  exact Option.bind_fun_some (f db)

/-- The two statements of an adjustment. -/
theorem runAll_pair (a : AdjustInventoryParams) (db : Db) :
    runAll (a.statements now) db = (adjustInventoryAndHistory db now a).toOption := by
  unfold AdjustInventoryParams.statements adjustInventoryAndHistory
  rw [runAll_cons, toOption_bind]
  congr 1
  funext db₁
  exact runAll_one _ db₁

/-- The statements of a loop do what the loop does. -/
theorem runAll_adjust (l : List AdjustInventoryParams) (db : Db) :
    runAll (adjustStatements now l) db = (adjustEach db now l).toOption := by
  induction l generalizing db with
  | nil => rfl
  | cons a l ih =>
    have hcons : adjustStatements now (a :: l) = a.statements now ++ adjustStatements now l := rfl
    unfold adjustEach
    rw [hcons, runAll_append, runAll_pair, List.foldlM_cons, toOption_bind]
    congr 1
    funext db₁
    exact ih db₁

/-- What a statement and the ones after it do is what the two parts of a function do. -/
theorem runAll_then {f g : Db → Except Err Db} {l : List Statement}
    (hl : ∀ db₁, f db = .ok db₁ → runAll l db₁ = (g db₁).toOption) :
    runAll ((fun db => (f db).toOption) :: l) db = (f db >>= g).toOption := by
  rw [runAll_cons, toOption_bind]
  cases hf : f db with
  | error e => rfl
  | ok db₁ => exact hl db₁ hf

/-- A sale's statements do what `storeTransaction` does. -/
theorem runAll_sale (data : QueuedTransaction) (hasConflict : Bool) (db : Db) :
    runAll (saleStatements db data hasConflict now) db
      = (storeTransaction db data hasConflict now).toOption := by
  unfold saleStatements storeTransaction
  cases hd : db.devices.findUnique (.id data.idDevice) with
  | none => rfl
  | some device =>
    refine runAll_then fun db₁ _ => ?_
    refine runAll_then fun db₂ _ => ?_
    refine runAll_then fun db₃ _ => ?_
    cases hasConflict with
    | true => rfl
    | false => exact runAll_adjust _ db₃

/-- Adjustments generate no identifiers. -/
theorem adjustEach_newId {l : List AdjustInventoryParams} {db' : Db}
    (h : adjustEach db now l = .ok db') : db'.newId = db.newId := by
  obtain ⟨is, rfl⟩ := (adjustEach_moved h).exists_eq
  rfl

theorem createDetailsAndDeductStock_eq (db : Db) (newTxId idMerchant userId : Ident)
    (dto : CorrectTransactionDto) :
    createDetailsAndDeductStock db newTxId idMerchant dto userId now =
      createCorrectedDetails db newTxId dto now >>= fun db =>
        adjustEach db now
          (dto.items.map (correctedMovement newTxId idMerchant userId dto.reason)) := by
  unfold createDetailsAndDeductStock createCorrectedDetails
  rw [bind_assoc]

/-- A correction's statements do what `correctTransactionWrite` does. -/
theorem runAll_correction (user : JwtPayload) (t : FoundTransaction)
    (dto : CorrectTransactionDto) (db : Db) :
    runAll (correctionStatements db user t dto now) db
      = (Transactions.correctTransactionWrite db user t dto now).toOption := by
  unfold correctionStatements Transactions.correctTransactionWrite
  rw [runAll_append, runAll_adjust, toOption_bind]
  show (revertOldStock db t user.sub dto.reason now).toOption.bind _ = _
  cases hrevert : revertOldStock db t user.sub dto.reason now with
  | error e => rfl
  | ok db₁ =>
    -- the new transaction gets the id that was the next one at the start
    have hid : db₁.newId = db.newId := adjustEach_newId hrevert
    show runAll _ db₁ = (createNewTransaction db₁ t dto now >>= _).toOption
    rw [hid]
    refine runAll_then fun db₂ _ => ?_
    rw [createDetailsAndDeductStock_eq, bind_assoc]
    refine runAll_then fun db₃ _ => ?_
    rw [runAll_append, runAll_adjust, toOption_bind]
    congr 1
    funext db₄
    refine runAll_then fun db₅ _ => ?_
    refine runAll_then fun db₆ _ => ?_
    exact runAll_one _ db₆

/-- **The statements of a transaction do what the service's function does.** -/
theorem StockWrites.run_eq (db : Db) (b : StockWrites) :
    stockClient.run db b = (b.write db).toOption := by
  cases b with
  | createProduct user dto now => exact runAll_one _ db
  | attachImage idProduct imageUrl => exact runAll_one _ db
  | adjustStock user read dto now =>
    simp only [Client.run, stockClient, StockWrites.statements, StockWrites.write,
      Products.adjustStockWrite]
    cases toInt "current_stock" dto.quantity with
    | error e => rfl
    | ok n => exact runAll_pair _ db
  | storeSale data hasConflict now => exact runAll_sale data hasConflict db
  | resolveConflict user t dto now =>
    simp only [Client.run, stockClient, StockWrites.statements, StockWrites.write,
      Transactions.resolveConflictWrite]
    cases dto.action with
    | CONFIRM =>
      show runAll (_ ++ _) db = (forceResolveInventory db t user.sub dto.notes now >>= _).toOption
      rw [runAll_append, runAll_adjust, toOption_bind]
      congr 1
      funext db₁
      exact runAll_one _ db₁
    | VOID => exact runAll_one _ db
  | correctTransaction user t dto now => exact runAll_correction user t dto db
  | call op => exact runAll_one _ db

end Statements

/-! ## The ledger -/

/-- The stock of every product is the sum of its history. -/
def Db.Ledgered (db : Db) : Prop := ∀ p, db.stock p = movement p db.stockHistories

section Ledger

variable {db db' : Db}

/-- What is entered in the stock with its history keeps the ledger. -/
theorem Entered.ledgered {ds : List DetailTransaction} {hs : List StockHistory}
    (h : Entered db db' ds hs) (hdb : db.Ledgered) : db'.Ledgered := by
  intro p
  rw [h.stock, h.histories, movement_append, hdb p]

/-- A relabelling enters nothing. -/
theorem Entered.relabel {ds : List DetailTransaction} {hs : List StockHistory} {i : Ident}
    {f : Rewrite Transaction} (h : Entered db db' ds hs) : Entered db (db'.relabel i f) ds hs :=
  ⟨h.details, h.histories, h.stock⟩

/-- **Whatever a call does, it enters** the stock with its history. -/
theorem exec_entered (db : Db) (op : Op) : ∃ ds hs, Entered db (exec db op) ds hs := by
  have heffect := exec_effect db op
  generalize exec db op = db' at heffect
  cases heffect with
  | alone same _ _ => exact ⟨_, _, same.entered⟩
  | adjusted product _ moved _ => exact ⟨_, _, moved.entered⟩
  | synced d created sale rest =>
    refine ⟨_, _, ⟨rest.details.trans sale.entered.details,
      rest.histories.trans sale.entered.histories, fun p => ?_⟩⟩
    exact (rest.stock p).trans (sale.entered.stock p)
  | voided t read => exact ⟨_, _, (SameSales.refl db).entered.relabel⟩
  | confirmed t read forced => exact ⟨_, _, forced.entered⟩
  | conflictVoided t read => exact ⟨_, _, (SameSales.refl db).entered.relabel⟩
  | corrected t read written => exact ⟨_, _, written.entered⟩
  | invalidated r found live rest _ => exact ⟨_, _, rest.entered.relabel⟩

/-- **Whatever a transaction does, it enters** the stock with its history. -/
theorem StockWrites.entered {b : StockWrites} (h : b.write db = .ok db') :
    ∃ ds hs, Entered db db' ds hs := by
  cases b with
  | createProduct user dto now => exact ⟨_, _, (createRows_sameSales h).entered⟩
  | attachImage idProduct imageUrl => exact ⟨_, _, (updateProduct_sameSales h).entered⟩
  | adjustStock user read dto now =>
    obtain ⟨n, -, hadjust⟩ := bind_eq_ok.mp h
    exact ⟨_, _, (adjustInventoryAndHistory_moved hadjust).entered⟩
  | storeSale data hasConflict now =>
    obtain ⟨d, created, hsale⟩ := storeTransaction_stored h
    exact ⟨_, _, hsale.entered⟩
  | resolveConflict user t dto now =>
    cases haction : dto.action with
    | CONFIRM => exact ⟨_, _, (resolveConflictWrite_confirm haction h).entered⟩
    | VOID =>
      rw [resolveConflictWrite_void haction h]
      exact ⟨_, _, (SameSales.refl db).entered.relabel⟩
  | correctTransaction user t dto now =>
    exact ⟨_, _, (correctTransactionWrite_corrected h).entered⟩
  | call op =>
    obtain rfl : exec db op = db' := Except.ok.inj h
    exact exec_entered db op

/-- The row of a product has the stock of the product. -/
theorem currentStock_eq {i : Inventory} (hi : i ∈ db.inventories.rows) :
    i.currentStock = db.stock i.idProduct := by
  have hfound : db.inventories.findUnique (.product i.idProduct) = some i := by
    rw [Table.findUnique_eq_some]
    exact ⟨hi, by simp [UniqueKeys.keys]⟩
  unfold Db.stock stockIn
  rw [hfound]
  rfl

end Ledger

/-- **The stock ledger**: under every interleaving of requests, with aborts at any statement,
`current_stock` is the sum of the quantities of the product's history. -/
theorem stock_ledger {us : Table User} {σ : Client.State Db StockRequest StockWrites}
    (h : Runs.Reaches stockClient.next (Client.start (Db.withUsers us)) σ) :
    ∀ i ∈ σ.store.inventories.rows,
      i.currentStock = movement i.idProduct σ.store.stockHistories := by
  have hledger : σ.store.Ledgered := by
    refine Client.invariant h (fun _ => rfl) fun db b db' hdb hrun => ?_
    rw [b.run_eq] at hrun
    obtain ⟨ds, hs, hentered⟩ := b.entered (toOption_eq_some hrun)
    exact hentered.ledgered hdb
  intro i hi
  rw [currentStock_eq hi]
  exact hledger i.idProduct

/-! ## An aborted adjustment -/

/-- A call of the shop's opening, from its request to its commit. -/
def openingCall (op : Op) : List (Client.Action StockRequest) :=
  [.request 0 (.call op), .advance 0, .advance 0, .commit 0]

/-- A sale whose stock is checked while an adjustment is open that aborts after its increment,
and another adjustment that commits before the sale does. -/
def interleaved : List (Client.Action StockRequest) :=
  [.request 0 (.adjustStock shopOwner shopProduct ⟨5, none⟩ 1), .advance 0, .advance 0,
   .request 1 (.sync (shopQueued shopDevice "a" [3]) 2), .advance 1, .advance 1, .advance 1,
   .abort 0,
   .request 2 (.adjustStock shopOwner shopProduct ⟨-8, none⟩ 3), .advance 2, .advance 2,
   .advance 2, .commit 2,
   .advance 1, .advance 1, .advance 1, .advance 1, .advance 1, .commit 1]

/-- The opening stock, less the second adjustment, less the sale. -/
theorem stock_ledger_interleaved : ∃ σ : Client.State Db StockRequest StockWrites,
    σ.store.stock shopProduct = -1 ∧ ∀ i ∈ σ.store.inventories.rows,
      i.currentStock = movement i.idProduct σ.store.stockHistories := by
  have hcheck : (Runs.runs stockClient.next (fun _ _ => true)
      (Client.start (Db.withUsers systemUsers))
      (shopOpening.flatMap openingCall ++ interleaved)).any
      (fun σ => decide (σ.store.stock shopProduct = -1)) = true := by decide +kernel
  obtain ⟨σ, hrun, hstock⟩ := Runs.exists_run_of_runs hcheck
  exact ⟨σ, of_decide_eq_true hstock, stock_ledger hrun.reaches⟩

end KPos
