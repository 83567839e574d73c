/-
# The book of sales

What the synchronisation is for: the tills submit sales under their UUIDs, in any order and any
number of times, and the first one that arrives under a UUID of the till is written into the
books, once and for all.  `salesBook` is the book that the database keeps: what was sold, for how
much and how it was paid, by till and UUID.  The server refines a book that is written once, so
what it shows of a sale is what a till submitted, and no void, correction or reconciliation ever
rewrites it.

* `Sale` : what is submitted of a sale, as the columns hold it;
* `Db.salesBook` : the book of the database;
* `exec_salesBook`, `Server.next_salesBook` : what a call and a step write into it;
* `sales_written_once` : what a server writes into it, along any run.
-/
import KPos.Lib.WriteOnce
import KPos.Lifecycles
import KPos.Separation

namespace KPos

/-! ## Sales -/

/-- What was sold in a line. -/
structure SoldLine where
  idProduct : Ident
  quantity : ℤ
  unitPrice : ℚ
  subtotal : ℚ
  productName : String
  skuSnapshot : String

/-- How a sale was paid. -/
structure Settlement where
  method : PaymentMethod
  amount : ℚ
  cashReceived : Option ℚ
  changeAmount : Option ℚ
  qrisCode : Option String
  transferRef : Option String

/-- A sale: what the till submits of it. -/
structure Sale where
  createdAtLocal : Option DateTime
  subtotal : ℚ
  total : ℚ
  notes : Option String
  payloadHash : Option String
  lines : List SoldLine
  payment : Option Settlement

def SyncItemDto.sold (item : SyncItemDto) : SoldLine :=
  ⟨item.idProduct, item.quantity, roundCents item.unitPrice, roundCents item.subtotal,
    item.productName, item.skuSnapshot⟩

def SyncPaymentDto.settlement (p : SyncPaymentDto) : Settlement :=
  ⟨p.method, roundCents p.amount, p.cashReceived.map roundCents, p.changeAmount.map roundCents,
    p.qrisCode, p.transferRef⟩

/-- The sale that an item submits, in the precision of the columns. -/
def QueuedTransaction.sale (item : QueuedTransaction) : Sale where
  createdAtLocal := item.createdAtLocal.date
  subtotal := roundCents item.subtotal
  total := roundCents item.total
  notes := item.notes
  payloadHash := item.payloadHash
  lines := item.items.map (·.sold)
  payment := some item.payment.settlement

def DetailTransaction.sold (d : DetailTransaction) : SoldLine :=
  ⟨d.idProduct, d.quantity, d.unitPrice, d.subtotal, d.productName, d.skuSnapshot⟩

def Payment.settlement (p : Payment) : Settlement :=
  ⟨p.method, p.amount, p.cashReceived, p.changeAmount, p.qrisCode, p.transferRef⟩

/-- The sale that the rows of a transaction show. -/
def Db.sale (db : Db) (t : Transaction) : Sale where
  createdAtLocal := t.createdAtLocal
  subtotal := t.subtotal
  total := t.total
  notes := t.notes
  payloadHash := t.payloadHash
  lines := (db.detailsOf t.idTransaction).map (·.sold)
  payment := (db.payments.findUnique (.transaction t.idTransaction)).map (·.settlement)

/-- The book of sales: by till and UUID. -/
def Db.salesBook (db : Db) : WriteOnce.Book (Ident × Ident) Sale := fun k =>
  (db.transactions.findUnique (.deviceUuid k.1 k.2)).map db.sale

/-- A till submitted the sale under the UUID. -/
def Server.Submitted (env : ServerEnv) (σ : Server) (k : Ident × Ident) (v : Sale) : Prop :=
  ∃ t : SyncTransactionDto, t.Valid ∧ t.offlineUuid = k.2 ∧
    t.queued env.payloadHash k.1 ∈ σ.published ∧ v = (t.queued env.payloadHash k.1).sale

section Calls

variable {db db' : Db} {op : Op}

/-! ## What a call leaves -/

/-- A transaction whose payment shows the same is the same sale. -/
theorem exec_sale (hwired : Wired db) (op : Op) {t t' : Transaction}
    (ht : t ∈ db.transactions.rows) (hmoved : t.Moved t')
    (hpayment : ((exec db op).payments.findUnique (.transaction t.idTransaction)).map (·.settlement)
      = (db.payments.findUnique (.transaction t.idTransaction)).map (·.settlement)) :
    (exec db op).sale t' = db.sale t := by
  have hid : t'.idTransaction = t.idTransaction := by rw [hmoved]
  unfold Db.sale
  rw [hid, exec_detailsOf hwired op ht, hpayment, hmoved]

/-- The entry stays when the row stays, in another stage of its life. -/
theorem salesBook_kept {k : Ident × Ident} {f : Transaction → Transaction}
    (hrow : db'.transactions.findUnique (.deviceUuid k.1 k.2)
      = (db.transactions.findUnique (.deviceUuid k.1 k.2)).map f)
    (hsale : ∀ t ∈ db.transactions.rows, db'.sale (f t) = db.sale t) :
    db'.salesBook k = db.salesBook k := by
  unfold Db.salesBook
  rw [hrow, Option.map_map]
  cases hfound : db.transactions.findUnique (.deviceUuid k.1 k.2) with
  | none => rfl
  | some t => exact congrArg some (hsale t (Table.findUnique_eq_some.mp hfound).1)

/-- Nothing is written when the transactions stay. -/
theorem salesBook_same (hwired : Wired db) (op : Op)
    (hts : (exec db op).transactions = db.transactions)
    (hpayment : ∀ t, ((exec db op).payments.findUnique (.transaction t)).map (·.settlement)
      = (db.payments.findUnique (.transaction t)).map (·.settlement)) :
    (exec db op).salesBook = db.salesBook := by
  funext k
  refine salesBook_kept (f := id) ?_ fun t ht => exec_sale hwired op ht (.refl t) (hpayment _)
  rw [hts, Option.map_id]
  rfl

/-- A transaction that moves in its life is the same sale. -/
theorem salesBook_moved (hwired : Wired db) (op : Op) {i : Ident} {f : Rewrite Transaction}
    (hf : ∀ t : Transaction, t.Moved (f t))
    (hts : (exec db op).transactions = db.transactions.update (.id i) f)
    (hpayment : ∀ t, ((exec db op).payments.findUnique (.transaction t)).map (·.settlement)
      = (db.payments.findUnique (.transaction t)).map (·.settlement)) :
    (exec db op).salesBook = db.salesBook := by
  funext k
  refine salesBook_kept (f := fun t => if TransactionKey.id i ∈ UniqueKeys.keys t then f t else t)
    ?_ fun t ht => exec_sale hwired op ht ?_ (hpayment _)
  · rw [hts, Table.findUnique_update]
  · split
    · exact hf t
    · exact .refl t

/-- A payment that fails shows how the sale was paid, as before. -/
theorem payments_failed (db : Db) (i t : Ident) :
    ((db.payments.update (.id i) Payment.failed).findUnique (.transaction t)).map (·.settlement)
      = (db.payments.findUnique (.transaction t)).map (·.settlement) := by
  rw [Table.findUnique_update, Option.map_map]
  congr 1
  funext p
  rw [Function.comp_apply]
  split
  · rfl
  · rfl

/-- The payments of other transactions are found as before. -/
theorem payment_insert {ps : Table Payment} {row : Payment} {t : Ident}
    (h : db.payments.insert row = some ps) (ht : row.idTransaction ≠ t) :
    ps.findUnique (.transaction t) = db.payments.findUnique (.transaction t) :=
  Table.findUnique_insert_of_not_mem h fun hmem => ht (payment_transaction_mem_keys.mp hmem)

/-- A correction writes no sale of its own into the book. -/
theorem salesBook_corrected (hwired : Wired db) {user : JwtPayload} {id : Ident}
    {t : FoundTransaction} {dto : CorrectTransactionDto} {now : DateTime}
    (write : Transactions.correctTransactionWrite db user t dto now
      = .ok (exec db (.correctTransaction user id dto now))) :
    (exec db (.correctTransaction user id dto now)).salesBook = db.salesBook := by
  have written := correctTransactionWrite_corrected write
  have hcloned := correctTransactionWrite_cloned write
  obtain ⟨ts, hins, hts⟩ := written.transactions
  funext k
  refine salesBook_kept (f := fun s => if TransactionKey.id t.row.idTransaction ∈ UniqueKeys.keys s
    then Transaction.voided user (correctedReason dto.reason db.newId) now s else s) ?_
    fun s hs => exec_sale hwired _ hs ?_ ?_
  · -- the new transaction has no UUID
    have hnone : TransactionKey.deviceUuid k.1 k.2 ∉
        UniqueKeys.keys (correctedRow db t dto now).stored :=
      fun hmem => nomatch (deviceUuid_mem_keys.mp hmem).2
    rw [hts, Table.findUnique_update, Table.findUnique_insert_of_not_mem hins hnone]
  · split
    · exact moved_voided s
    · exact .refl s
  · rcases hcloned with ⟨-, hps⟩ | ⟨p, mid, -, hps⟩
    · rw [hps]
    · rw [payment_insert hps (ne_newId hwired hs).symm]

/-- The lines of a transaction that was not there. -/
theorem detailsOf_newId (hdb : Separate db) : db.detailsOf db.newId = [] := by
  unfold Db.detailsOf
  rw [List.filter_eq_nil_iff]
  intro d hd h
  obtain ⟨t, ht, hid⟩ := Table.has_iff.mp (hdb.details d hd)
  exact ne_newId hdb.wired ht ((id_mem_keys.mp hid).trans (of_decide_eq_true h))

/-- What the rows of a sale show when they have just been stored. -/
theorem sale_stored (hdb : Separate db) {data : QueuedTransaction} {hasConflict : Bool}
    {now created : DateTime} {d : Device} {db₁ : Db}
    (sale : StoredSale db db₁ data hasConflict now d created)
    (hdetails : db'.details = db₁.details) (hpayments : db'.payments = db₁.payments) :
    db'.sale (headerRow db data d hasConflict created now).stored = data.sale := by
  have hlines : db'.detailsOf db.newId = saleDetails data db.newId now := by
    unfold Db.detailsOf
    rw [hdetails, sale.entered.details, List.filter_append]
    rw [show List.filter _ db.details = [] from detailsOf_newId hdb, List.nil_append,
      List.filter_eq_self]
    exact fun l hl => decide_eq_true (saleDetails_named l hl)
  have hsold : (saleDetails data db.newId now).map (·.sold) = data.items.map (·.sold) := by
    unfold saleDetails
    rw [List.map_map, List.map_map]
    rfl
  have hpayment : (db'.payments.findUnique (.transaction db.newId)).map (·.settlement)
      = some data.payment.settlement := by
    have hfound : db₁.payments.findUnique (.transaction db.newId)
        = some (paymentRow { db with transactions := db₁.transactions, seq := db.seq + 1 }
          db.newId d.idMerchant data.payment now).stored :=
      Table.findUnique_eq_some.mpr ⟨(Table.mem_insert sale.insertable.payment).mpr (Or.inr rfl),
        payment_transaction_mem_keys.mpr rfl⟩
    rw [hpayments, hfound]
    rfl
  unfold Db.sale
  rw [show (headerRow db data d hasConflict created now).stored.idTransaction = db.newId from rfl,
    hlines, hsold, hpayment]
  unfold QueuedTransaction.sale
  rw [sale.insertable.created]
  rfl

/-- A sale that is stored is written under its till and its UUID, which were free. -/
theorem salesBook_sold (hdb : Separate db) {data : QueuedTransaction} {outcome : ItemOutcome}
    {hasConflict : Bool} {now created : DateTime} {d : Device} {db₁ : Db}
    (sale : StoredSale db db₁ data hasConflict now d created)
    (rest : SameSales db₁ (exec db (.sync data outcome)))
    (hpayments : (exec db (.sync data outcome)).payments = db₁.payments) :
    db.salesBook (data.idDevice, data.offlineUuid) = none ∧
      (exec db (.sync data outcome)).salesBook
        = Function.update db.salesBook (data.idDevice, data.offlineUuid) (some data.sale) := by
  have hins := sale.insertable.header
  constructor
  · have hfree : db.transactions.findUnique (.deviceUuid data.idDevice data.offlineUuid)
        = none := by
      rw [Table.findUnique_eq_none]
      exact fun t ht => Table.free_of_insert hins ht (deviceUuid_mem_keys.mpr ⟨rfl, rfl⟩)
    unfold Db.salesBook
    rw [hfree]
    rfl
  · funext k
    by_cases hk : k = (data.idDevice, data.offlineUuid)
    · subst hk
      have hfound : db₁.transactions.findUnique (.deviceUuid data.idDevice data.offlineUuid)
          = some (headerRow db data d hasConflict created now).stored :=
        Table.findUnique_eq_some.mpr
          ⟨(Table.mem_insert hins).mpr (Or.inr rfl), deviceUuid_mem_keys.mpr ⟨rfl, rfl⟩⟩
      rw [Function.update_self]
      unfold Db.salesBook
      rw [rest.transactions, hfound]
      exact congrArg some (sale_stored hdb sale rest.details hpayments)
    · have hother : TransactionKey.deviceUuid k.1 k.2 ∉
          UniqueKeys.keys (headerRow db data d hasConflict created now).stored := by
        intro hmem
        obtain ⟨hdevice, huuid⟩ := deviceUuid_mem_keys.mp hmem
        exact hk (Prod.ext hdevice.symm (Option.some.inj huuid).symm)
      rw [Function.update_of_ne hk]
      refine salesBook_kept (f := id) ?_ fun t ht => exec_sale hdb.wired _ ht (.refl t) ?_
      · rw [rest.transactions, Table.findUnique_insert_of_not_mem hins hother, Option.map_id]
        rfl
      · rw [hpayments, payment_insert sale.insertable.payment (ne_newId hdb.wired ht).symm]

/-- What the consumer writes into the book when it handles an item. -/
theorem salesBook_sync (hdb : Separate db) (data : QueuedTransaction) (outcome : ItemOutcome) :
    (exec db (.sync data outcome)).salesBook = db.salesBook ∨
      db.salesBook (data.idDevice, data.offlineUuid) = none ∧
        (exec db (.sync data outcome)).salesBook
          = Function.update db.salesBook (data.idDevice, data.offlineUuid) (some data.sale) := by
  obtain ⟨db₁, h₁, h₂⟩ := handleItem_cases db data outcome
  have hrest : SameSales db₁ (exec db (.sync data outcome)) ∧
      (exec db (.sync data outcome)).payments = db₁.payments := by
    show SameSales db₁ (handleItem db data outcome) ∧ (handleItem db data outcome).payments = _
    rcases h₂ with h₂ | ⟨_, h₂⟩
    · rw [h₂]
      exact ⟨.refl db₁, rfl⟩
    · exact ⟨createSyncQueue_sameSales h₂, createSyncQueue_payments h₂⟩
  obtain ⟨hsales, hpayments⟩ := hrest
  rcases h₁ with rfl | h₁
  · exact Or.inl (salesBook_same hdb.wired _ hsales.transactions fun t => by rw [hpayments])
  · obtain ⟨-, d, created, sale⟩ := processTransaction_stored h₁
    exact Or.inr (salesBook_sold hdb sale hsales hpayments)

/-- **What a call writes into the book**: nothing, or the sale of the item that is handled under a
key that was free. -/
theorem exec_salesBook (hdb : Separate db) (op : Op) :
    (exec db op).salesBook = db.salesBook ∨ ∃ data outcome, op = .sync data outcome ∧
      db.salesBook (data.idDevice, data.offlineUuid) = none ∧
      (exec db op).salesBook
        = Function.update db.salesBook (data.idDevice, data.offlineUuid) (some data.sale) := by
  have hsettles := exec_settles db op
  have hwired := hdb.wired
  generalize hdb' : exec db op = db' at hsettles
  cases hsettles with
  | alone hts hps hcs =>
    subst hdb'
    exact Or.inl (salesBook_same hwired op hts fun t => by rw [hps])
  | moved i f hf hts hps hcs =>
    subst hdb'
    exact Or.inl (salesBook_moved hwired op hf hts fun t => by rw [hps])
  | failed r found hts hps hcs =>
    subst hdb'
    have hpayment := payments_failed db r.row.idPayment
    rw [← hps] at hpayment
    rcases hts with hts | hts
    · exact Or.inl (salesBook_same hwired _ hts hpayment)
    · exact Or.inl (salesBook_moved hwired _ moved_voided hts hpayment)
  | corrected t read write =>
    subst hdb'
    exact Or.inl (salesBook_corrected hwired write)
  | @sold data outcome db₁ _ d created stored sale hts hps hcs =>
    subst hdb'
    rcases salesBook_sync hdb data outcome with hsame | ⟨hfree, hwrite⟩
    · exact Or.inl hsame
    · exact Or.inr ⟨data, outcome, rfl, hfree, hwrite⟩

end Calls

/-! ## Runs of the server -/

/-- What was published are transactions of batches. -/
def Server.Queued (env : ServerEnv) (σ : Server) : Prop :=
  ∀ item ∈ σ.published, ∃ (t : SyncTransactionDto) (idDevice : Ident), t.Valid ∧
    item = t.queued env.payloadHash idDevice

section Server

variable {env : ServerEnv} {us : Table User} {σ τ : Server} {a : ServerAction}

theorem Server.Queued.next (hσ : σ.Queued env) (h : σ.next env a = some τ) : τ.Queued env := by
  obtain ⟨items, hpublished, hnew⟩ := Server.next_published h
  intro item hitem
  rw [hpublished] at hitem
  exact (List.mem_append.mp hitem).elim (hσ item) (hnew item)

/-- What was submitted stays submitted. -/
theorem Server.Submitted.next (h : σ.next env a = some τ) {k : Ident × Ident} {v : Sale}
    (hk : σ.Submitted env k v) : τ.Submitted env k v := by
  obtain ⟨t, hvalid, huuid, hitem, rfl⟩ := hk
  obtain ⟨items, hpublished, -⟩ := Server.next_published h
  refine ⟨t, hvalid, huuid, ?_, rfl⟩
  rw [hpublished]
  exact List.mem_append_left _ hitem

/-- **What a step writes into the book**: nothing, or a sale that was submitted under a key that
was free. -/
theorem Server.next_salesBook (hqueued : σ.Queued env) (hdb : Separate σ.db)
    (h : σ.next env a = some τ) : τ.db.salesBook = σ.db.salesBook ∨
      WriteOnce.Step (σ.Submitted env) σ.db.salesBook τ.db.salesBook := by
  have hchange := Server.next_change h
  generalize τ.db = db' at hchange
  cases hchange with
  | tokens write =>
    rw [write.frame]
    exact Or.inl rfl
  | registered =>
    rcases exec_salesBook hdb (.register _ _) with hsame | ⟨_, _, hop, -⟩
    · exact Or.inl hsame
    · cases hop
  | paired =>
    rcases exec_salesBook hdb (.pairDevice _ _) with hsame | ⟨_, _, hop, -⟩
    · exact Or.inl hsame
    · cases hop
  | served user request op hpending hop =>
    rcases exec_salesBook hdb op with hsame | ⟨data, outcome, rfl, -⟩
    · exact Or.inl hsame
    · -- no request calls the consumer
      cases request <;> cases hop
  | @consumed i retryAttempt outcome item hpublished =>
    obtain ⟨t, idDevice, hvalid, rfl⟩ := hqueued item (List.mem_of_getElem? hpublished)
    rcases exec_salesBook hdb (.sync { t.queued env.payloadHash idDevice with
      retryAttempt := retryAttempt } outcome) with hsame | ⟨data, _, hop, hfree, hwrite⟩
    · exact Or.inl hsame
    · refine Or.inr ?_
      rw [hwrite]
      cases hop
      exact .write (idDevice, t.offlineUuid) _
        ⟨t, hvalid, rfl, List.mem_of_getElem? hpublished, rfl⟩ hfree
  | @givenUp i retryAttempt outcome item hpublished =>
    obtain ⟨qs, n, -, hdb'⟩ := recordTerminalFailure_frame σ.db
      { item with retryAttempt := retryAttempt } outcome
    rw [hdb']
    exact Or.inl rfl

/-- What the book rests on. -/
structure Server.Bookkept (env : ServerEnv) (σ : Server) : Prop where
  genuine : σ.Genuine env
  queued : σ.Queued env
  separate : Separate σ.db

theorem Server.Bookkept.start (env : ServerEnv) (us : Table User) :
    (Server.start us).Bookkept env :=
  ⟨.start env us, fun _ h => absurd h List.not_mem_nil, separate_withUsers us⟩

theorem Server.Bookkept.next (hσ : σ.Bookkept env) (ha : unforged env σ a)
    (h : σ.next env a = some τ) : τ.Bookkept env where
  genuine := hσ.genuine.next ha h
  queued := hσ.queued.next h
  separate := (Server.next_change h).separate hσ.genuine hσ.separate

/-- A run writes what was submitted in the end. -/
theorem salesBook_steps (hσ : σ.Bookkept env) {as : List ServerAction}
    (hrun : Runs.Run (Server.next env) (unforged env) σ as τ) :
    WriteOnce.Steps (τ.Submitted env) σ.db.salesBook τ.db.salesBook :=
  WriteOnce.steps_of_run (fun σ : Server => σ.db.salesBook) hrun (Server.Bookkept env) hσ
    (fun _ _ _ hI hc hn => hI.next hc hn) (fun _ _ _ hn _ _ hk => hk.next hn)
    fun _ _ _ hI hn => Server.next_salesBook hI.queued hI.separate hn

/-- **Sales are written once**: the server refines a book that is written once.  Along every run
it only writes sales that were submitted, each under a till and a UUID that were free, so what it
shows of a sale stays as it is, whatever becomes of the sale; and what it shows in any state is
what a till submitted. -/
theorem sales_written_once (hσ : ServerReaches env us σ) {as : List ServerAction}
    (hrun : Runs.Run (Server.next env) (unforged env) σ as τ) :
    WriteOnce.Steps (τ.Submitted env) σ.db.salesBook τ.db.salesBook ∧
      ∀ k v, σ.db.salesBook k = some v → τ.db.salesBook k = some v ∧ σ.Submitted env k v := by
  obtain ⟨bs, hbefore⟩ := hσ
  have hkept : σ.Bookkept env := hbefore.invariant (Server.Bookkept env) (.start env us)
    fun _ _ _ hI hc hn => hI.next hc hn
  have hsteps := salesBook_steps hkept hrun
  refine ⟨hsteps, fun k v hk => ⟨hsteps.stays hk, ?_⟩⟩
  -- the book was empty when the server started
  rcases (salesBook_steps (.start env us) hbefore).was_offered hk with hnone | hsubmitted
  · cases hnone
  · exact hsubmitted

/-- A sale is stored, voided, confirmed by force and corrected, and its page stays as it was
submitted. -/
theorem sales_written_once_wholeLife : ∃ σ τ : Server, ∃ v : Sale,
    ServerReaches plainTokens .empty σ ∧ v.total = 6 ∧
      σ.db.salesBook (.cuid 5, .text "a") = some v ∧
      τ.db.transactions.rows.map (·.status) = [.VOIDED, .CONFIRMED] ∧
      τ.db.salesBook (.cuid 5, .text "a") = some v ∧
      σ.Submitted plainTokens (.cuid 5, .text "a") v := by
  have hcheck : (Runs.runs (Server.next plainTokens) (unforgedTest plainTokens)
      (Server.start .empty) conflictSale).any (fun σ =>
        (σ.db.salesBook (.cuid 5, .text "a")).any (fun v => decide (v.total = 6)) &&
          (Runs.runs (Server.next plainTokens) (unforgedTest plainTokens) σ
            (wholeLife.drop conflictSale.length)).any fun τ =>
              decide (τ.db.transactions.rows.map (·.status) = [.VOIDED, .CONFIRMED])) = true := by
    decide +kernel
  obtain ⟨σ, hσ, hend⟩ := exists_serverReaches hcheck
  obtain ⟨hsale, hrest⟩ := Bool.and_eq_true_iff.mp hend
  obtain ⟨v, hv, htotal⟩ := (Option.any_eq_true _ _).mp hsale
  obtain ⟨τ, hrun, hstages⟩ := Runs.exists_run_of_runs hrest
  obtain ⟨hstays, hsubmitted⟩ :=
    (sales_written_once hσ (hrun.weaken fun _ _ => unforged_of_test)).2 _ _ hv
  exact ⟨σ, τ, v, hσ, of_decide_eq_true htotal, hv, of_decide_eq_true hstages, hstays, hsubmitted⟩

end Server

end KPos
