/-
# What the others' requests leave alone

Every step of the server is taken for one merchant at most.  It leaves the rows of all other
merchants as they are, the stock of their products apart, which a sale may take by naming a
product that is not its merchant's.  So however the others' requests, logins, sales and failures
are interleaved, the users of a merchant are answered the same.

* `Db.actsFor`, `Server.actsFor` : the merchant for whom a call and a step are carried out;
* `Db.recordsOf` : the rows of a merchant without the stock;
* `Elsewhere` : a write of rows of other merchants;
* `exec_elsewhere`, `Server.Change.recordsOf` : what a call and a step leave alone;
* `undisturbed` : what the users of a merchant are answered while others act, to the queries that
  keep to the merchant.
-/
import KPos.Views

namespace KPos

/-! ## For whom -/

/-- The merchant for whom a call is carried out. -/
def Db.actsFor (db : Db) : Op → Option Ident
  -- a new merchant
  | .register .. => some db.newId
  | .createUser owner _ _ | .updateUserStatus _ owner _ | .removeDevice _ owner
  | .createDevice owner _ _ _ _ => some owner
  | .pairDevice code _ => (db.devices.findUnique (.pairingCode code)).map (·.idMerchant)
  | .sync data _ => db.deviceMerchant data.idDevice
  | .createProduct user _ _ _ | .updateProduct user _ _ _ | .removeProduct user _
  | .adjustStock user _ _ _ | .voidTransaction user _ _ _ | .resolveConflict user _ _ _
  | .correctTransaction user _ _ _ | .createReconciliation user _ _
  | .reconcilePayment user _ _ _ | .resolveReconciliation _ user _ _ => some user.idMerchant

/-- The merchant for whom a step is taken. -/
def Server.actsFor (σ : Server) : ServerAction → Option Ident
  | .register .. => some σ.db.newId
  | .pairDevice code _ => (σ.db.devices.findUnique (.pairingCode code)).map (·.idMerchant)
  | .handle i _ => (σ.pending[i]?).map (·.1.idMerchant)
  | .consume i _ _ | .giveUp i _ _ =>
      (σ.published[i]?).bind fun item => σ.db.deviceMerchant item.idDevice
  -- nothing but tokens and the requests under way
  | .session _ | .arrive .. | .abort _ => none

/-! ## Rows of other merchants -/

/-- The database without the stock of the products. -/
def Db.withoutStock (db : Db) : Db := { db with inventories := .empty }

/-- The rows of a merchant without the stock of its products. -/
def Db.recordsOf (db : Db) (m : Ident) : Db := (db.ofMerchant m).withoutStock

/-- The merchants of devices, of transactions and of payments. -/
structure Owners where
  device : Ident → Option Ident
  seller : Ident → Option Ident
  payment : Ident → Option Ident

def Db.owners (db : Db) : Owners := ⟨db.deviceMerchant, db.transactionMerchant, db.paymentMerchant⟩

/-- What has a merchant keeps it. -/
structure Db.KeepsOwners (db db' : Db) : Prop where
  devices : ∀ i m, db.deviceMerchant i = some m → db'.deviceMerchant i = some m
  sellers : ∀ i m, db.transactionMerchant i = some m → db'.transactionMerchant i = some m
  payments : ∀ i m, db.paymentMerchant i = some m → db'.paymentMerchant i = some m

/-- The tables are the same in the rows of the merchant, when the owners are as given. -/
structure SameRows (m : Ident) (o : Owners) (db db' : Db) : Prop where
  merchants : db'.merchants.rows.filter (fun r => decide (r.idMerchant = m))
    = db.merchants.rows.filter (fun r => decide (r.idMerchant = m))
  users : db'.users.rows.filter (fun u => decide (u.idMerchant = some m))
    = db.users.rows.filter (fun u => decide (u.idMerchant = some m))
  devices : db'.devices.rows.filter (fun d => decide (d.idMerchant = m))
    = db.devices.rows.filter (fun d => decide (d.idMerchant = m))
  products : db'.products.rows.filter (fun p => decide (p.idMerchant = m))
    = db.products.rows.filter (fun p => decide (p.idMerchant = m))
  transactions : db'.transactions.rows.filter (fun t => decide (t.idMerchant = m))
    = db.transactions.rows.filter (fun t => decide (t.idMerchant = m))
  details : db'.details.filter (fun d => decide (o.seller d.idTransaction = some m))
    = db.details.filter (fun d => decide (o.seller d.idTransaction = some m))
  payments : db'.payments.rows.filter (fun p => decide (p.idMerchant = m))
    = db.payments.rows.filter (fun p => decide (p.idMerchant = m))
  corrections : db'.corrections.rows.filter
      (fun c => decide (o.seller c.idOldTransaction = some m))
    = db.corrections.rows.filter (fun c => decide (o.seller c.idOldTransaction = some m))
  syncQueues : db'.syncQueues.rows.filter (fun q => decide (o.device q.idDevice = some m))
    = db.syncQueues.rows.filter (fun q => decide (o.device q.idDevice = some m))
  reconciliations : db'.reconciliations.rows.filter
      (fun r => decide (o.payment r.idPayment = some m))
    = db.reconciliations.rows.filter (fun r => decide (o.payment r.idPayment = some m))

/-- Only rows that are not of the merchant were written; whose rows they are is said by the
database that comes out. -/
abbrev Elsewhere (m : Ident) (db db' : Db) : Prop := SameRows m db'.owners db db'

section Elsewhere

variable {db db' : Db} {m : Ident} {data : QueuedTransaction} {outcome : ItemOutcome}

/-- A key that leads to a merchant leads to the same one later. -/
theorem decide_owner {owner owner' : Ident → Option Ident}
    (hkeeps : ∀ i m, owner i = some m → owner' i = some m) {i n : Ident} (h : owner i = some n) :
    decide (owner' i = some m) = decide (owner i = some m) := by
  rw [hkeeps i n h, h]

/-- **What is written elsewhere leaves the merchant's rows as they are.** -/
theorem recordsOf_elsewhere (h : Elsewhere m db db') (hdb : Separate db)
    (hkeeps : db.KeepsOwners db') : db'.recordsOf m = db.recordsOf m := by
  have hdetails : (db'.ofMerchant m).details = (db.ofMerchant m).details := by
    refine h.details.trans (List.filter_congr fun d hd => ?_)
    obtain ⟨t, ht, hid⟩ := Table.has_iff.mp (hdb.details d hd)
    exact decide_owner hkeeps.sellers
      (transactionMerchant_eq_some.mpr ⟨t, ht, id_mem_keys.mp hid, rfl⟩)
  have hcorrections : (db'.ofMerchant m).corrections = (db.ofMerchant m).corrections := by
    refine Table.ext (h.corrections.trans (List.filter_congr fun c hc => ?_))
    obtain ⟨-, -, -, n, hold, -⟩ := hdb.bridges c hc
    exact decide_owner hkeeps.sellers hold
  have hqueues : (db'.ofMerchant m).syncQueues = (db.ofMerchant m).syncQueues := by
    refine Table.ext (h.syncQueues.trans (List.filter_congr fun q hq => ?_))
    have hdevice := hdb.failures q hq
    rw [← deviceMerchant_isSome] at hdevice
    obtain ⟨n, hn⟩ := Option.isSome_iff_exists.mp hdevice
    exact decide_owner hkeeps.devices hn
  have hcases : (db'.ofMerchant m).reconciliations = (db.ofMerchant m).reconciliations := by
    refine Table.ext (h.reconciliations.trans (List.filter_congr fun r hr => ?_))
    obtain ⟨n, hpay, -⟩ := hdb.cases r hr
    exact decide_owner hkeeps.payments hpay
  have hmerchants : (db'.ofMerchant m).merchants = (db.ofMerchant m).merchants :=
    Table.ext h.merchants
  have husers : (db'.ofMerchant m).users = (db.ofMerchant m).users := Table.ext h.users
  have hdevices : (db'.ofMerchant m).devices = (db.ofMerchant m).devices := Table.ext h.devices
  have hproducts : (db'.ofMerchant m).products = (db.ofMerchant m).products :=
    Table.ext h.products
  have htransactions : (db'.ofMerchant m).transactions = (db.ofMerchant m).transactions :=
    Table.ext h.transactions
  have hpayments : (db'.ofMerchant m).payments = (db.ofMerchant m).payments :=
    Table.ext h.payments
  unfold Db.recordsOf Db.withoutStock
  rw [hmerchants, husers, hdevices, hproducts, htransactions, hdetails, hpayments, hcorrections,
    hqueues, hcases]
  rfl

/-- Nothing was written. -/
theorem SameRows.refl (m : Ident) (o : Owners) (db : Db) : SameRows m o db db :=
  ⟨rfl, rfl, rfl, rfl, rfl, rfl, rfl, rfl, rfl, rfl⟩

/-! ## Calls -/

/-- A transaction of another merchant moves in its lifecycle. -/
theorem filter_relabel {t : Transaction} (ht : t ∈ db.transactions.rows) (hm : t.idMerchant ≠ m)
    {f : Rewrite Transaction} (hf : (f t).idMerchant = t.idMerchant) :
    (db.transactions.update (.id t.idTransaction) f).rows.filter
        (fun t => decide (t.idMerchant = m))
      = db.transactions.rows.filter (fun t => decide (t.idMerchant = m)) := by
  refine Table.filter_update_of_mem ht (id_mem_keys.mpr rfl) (decide_eq_false hm) ?_
  rw [hf]
  exact decide_eq_false hm

/-- A product of another merchant is updated. -/
theorem elsewhere_updateProduct {user : JwtPayload} {productId : Ident} {p : Product}
    (hown : Products.findOwn db user productId = some p) (hm : user.idMerchant ≠ m)
    {f : Product → Product} (hf : (f p).idMerchant = p.idMerchant)
    (h : db.updateProduct productId f = .ok db') : Elsewhere m db db' := by
  have hfound := List.find?_some hown
  obtain ⟨hid, hmerchant⟩ := of_decide_eq_true hfound
  obtain ⟨_, ps, -, -, hps, rfl⟩ := updateProduct_eq_ok.mp h
  have hp : p.idMerchant ≠ m := by
    rw [hmerchant]
    exact hm
  have hfp : ((f p).stored).idMerchant ≠ m := by
    rw [show ((f p).stored).idMerchant = (f p).idMerchant from rfl, hf]
    exact hp
  have hproducts := Table.filter_replace_of_mem (p := fun p => decide (p.idMerchant = m)) hps
    (List.mem_of_find?_eq_some hown) (product_id_mem_keys.mpr hid) (decide_eq_false hp)
    (decide_eq_false hfp)
  exact { SameRows.refl m _ db with products := hproducts }

/-- A device of another merchant is updated. -/
theorem elsewhere_updateDevice {d : Device} (hd : d ∈ db.devices.rows) (hm : d.idMerchant ≠ m)
    {f : Device → Device} (hf : (f d).idMerchant = d.idMerchant)
    (h : db.updateDevice d.idDevice f = .ok db') : Elsewhere m db db' := by
  obtain ⟨-, ds, hds, rfl⟩ := updateDevice_eq_ok.mp h
  have hfd : (f d).idMerchant ≠ m := by
    rw [hf]
    exact hm
  have hdevices := Table.filter_replace_of_mem (p := fun d => decide (d.idMerchant = m)) hds hd
    (device_id_mem_keys.mpr rfl) (decide_eq_false hm) (decide_eq_false hfd)
  exact { SameRows.refl m _ db with devices := hdevices }

/-- Another merchant's product is created, and perhaps given an image. -/
theorem elsewhere_createProduct (db : Db) {user : JwtPayload} (hm : user.idMerchant ≠ m)
    (dto : CreateProductDto) (upload : Upload) (now : DateTime) :
    Elsewhere m db (Products.create db user dto upload now).1 := by
  rcases products_create_cases db user dto upload now with h | ⟨db₁, h₁, h⟩
  · rw [h]
    exact .refl m _ db
  · obtain ⟨-, -, -, ps, is, hps, -, -, rfl⟩ := createProductWithInventory_eq_ok.mp h₁
    have hinsert := Table.filter_insert (p := fun p => decide (p.idMerchant = m)) hps
      (decide_eq_false hm)
    rcases h with h | ⟨_, h⟩
    · rw [h]
      exact { SameRows.refl m _ db with products := hinsert }
    · obtain ⟨_, qs, -, -, hqs, hdb⟩ := updateProduct_eq_ok.mp h
      rw [hdb]
      have hupdate := Table.filter_replace_of_mem (p := fun p => decide (p.idMerchant = m)) hqs
        ((Table.mem_insert hps).mpr (Or.inr rfl)) (product_id_mem_keys.mpr rfl)
        (decide_eq_false hm) (decide_eq_false hm)
      exact { SameRows.refl m _ db with products := hupdate.trans hinsert }

/-- What has another merchant is not the merchant's. -/
theorem owner_ne {o : Option Ident} {n : Ident} (ho : o = some n) (hne : n ≠ m) :
    decide (o = some m) = false := by
  rw [ho]
  exact decide_eq_false fun h => hne (Option.some.inj h)

/-- Lines of another merchant's transaction are entered. -/
theorem filter_sold {ts : Table Transaction} {ds ds' lines : List DetailTransaction} {i n : Ident}
    (hn : n ≠ m) (hseller : (ts.findUnique (.id i)).map (·.idMerchant) = some n)
    (hlines : ∀ l ∈ lines, l.idTransaction = i) (h : ds' = ds ++ lines) :
    ds'.filter (fun d =>
        decide ((ts.findUnique (.id d.idTransaction)).map (·.idMerchant) = some m))
      = ds.filter (fun d =>
        decide ((ts.findUnique (.id d.idTransaction)).map (·.idMerchant) = some m)) := by
  rw [h, List.filter_append, List.append_right_eq_self, List.filter_eq_nil_iff]
  intro l hl
  rw [hlines l hl, owner_ne hseller hn]
  exact Bool.false_ne_true

/-- The rows of a sale at another merchant's till, perhaps a failure after it. -/
theorem elsewhere_sync (hm : db.deviceMerchant data.idDevice ≠ some m) :
    Elsewhere m db (handleItem db data outcome) := by
  obtain ⟨db₁, h₁, h₂⟩ := handleItem_cases db data outcome
  have hsale : Elsewhere m db db₁ ∧ db₁.devices = db.devices := by
    rcases h₁ with rfl | h₁
    · exact ⟨.refl m _ db₁, rfl⟩
    · obtain ⟨-, d, created, sale⟩ := processTransaction_stored h₁
      obtain ⟨ts, ds, ps, is, hs, rfl⟩ : ∃ ts ds ps is hs, db₁ = { db with
          transactions := ts
          details := ds
          payments := ps
          inventories := is
          stockHistories := hs
          seq := db.seq + 1 + 1 } := ⟨_, _, _, _, _, sale.frame⟩
      have hd : d.idMerchant ≠ m := by
        unfold Db.deviceMerchant at hm
        rw [sale.insertable.device] at hm
        exact fun h => hm (congrArg some h)
      have hseller : (ts.findUnique (.id db.newId)).map (·.idMerchant) = some d.idMerchant :=
        merchant_insert sale.insertable.header
      have hdetails := filter_sold (m := m) hd hseller (fun l hl => saleDetails_named l hl)
        sale.entered.details
      have htransactions := Table.filter_insert (p := fun t => decide (t.idMerchant = m))
        sale.insertable.header (decide_eq_false hd)
      have hpayments := Table.filter_insert (p := fun p => decide (p.idMerchant = m))
        sale.insertable.payment (decide_eq_false hd)
      exact ⟨{ SameRows.refl m _ db with
        transactions := htransactions
        details := hdetails
        payments := hpayments }, rfl⟩
  rcases h₂ with h₂ | ⟨_, h₂⟩
  · rw [h₂]
    exact hsale.1
  · obtain ⟨-, -, qs, hqs, hdb⟩ := createSyncQueue_eq_ok.mp h₂
    have hdevice : db₁.deviceMerchant data.idDevice ≠ some m := by
      unfold Db.deviceMerchant
      rw [hsale.2]
      exact hm
    have hqueues := Table.filter_insert
      (p := fun q => decide (db₁.deviceMerchant q.idDevice = some m)) hqs (decide_eq_false hdevice)
    rw [hdb]
    exact { hsale.1 with syncQueues := hqueues.trans hsale.1.syncQueues }

/-- The rows of a correction of another merchant's transaction. -/
theorem elsewhere_correct {user : JwtPayload} {t : FoundTransaction} {dto : CorrectTransactionDto}
    {now : DateTime} (hcur : t.CurrentIn db) (hm : t.row.idMerchant ≠ m)
    (h : Transactions.correctTransactionWrite db user t dto now = .ok db') :
    Elsewhere m db db' := by
  have written := correctTransactionWrite_corrected h
  have hpayments : db'.payments.rows.filter (fun p => decide (p.idMerchant = m))
      = db.payments.rows.filter (fun p => decide (p.idMerchant = m)) := by
    rcases correctTransactionWrite_cloned h with ⟨-, hps⟩ | ⟨p, mid, -, hps⟩
    · rw [hps]
    · exact Table.filter_insert hps (decide_eq_false hm)
  obtain ⟨ts, ds, ps, cs, is, hs, n, rfl⟩ : ∃ ts ds ps cs is hs n, db' = { db with
      transactions := ts
      details := ds
      payments := ps
      corrections := cs
      inventories := is
      stockHistories := hs
      seq := n } := ⟨_, _, _, _, _, _, _, written.frame⟩
  obtain ⟨us, hins, hts⟩ := written.transactions
  obtain ⟨c, hold, -, hcs⟩ := written.corrections
  have hts : ts = us.update (.id t.row.idTransaction)
    (Transaction.voided user (correctedReason dto.reason db.newId) now) := hts
  have hrow : t.row ∈ us.rows := (Table.mem_insert hins).mpr (Or.inl hcur.row)
  have htransactions : ts.rows.filter (fun t => decide (t.idMerchant = m))
      = db.transactions.rows.filter (fun t => decide (t.idMerchant = m)) := by
    rw [hts, Table.filter_update_of_mem hrow (id_mem_keys.mpr rfl) (decide_eq_false hm)
      (decide_eq_false hm)]
    exact Table.filter_insert hins (decide_eq_false hm)
  -- the new transaction and the old one are both of the other merchant
  have hnew : (ts.findUnique (.id db.newId)).map (·.idMerchant) = some t.row.idMerchant :=
    written.seller
  have hseller : (ts.findUnique (.id t.row.idTransaction)).map (·.idMerchant)
      = some t.row.idMerchant := by
    rw [hts]
    refine Table.map_findUnique_update (fun _ => rfl) ?_
    rw [Table.findUnique_eq_some.mpr ⟨hrow, id_mem_keys.mpr rfl⟩]
    rfl
  have hdetails := filter_sold (m := m) hm hnew (fun l hl => correctionDetails_named l hl)
    written.entered.details
  have hother : decide ((ts.findUnique (.id c.idOldTransaction)).map (·.idMerchant) = some m)
      = false := by
    rw [hold]
    exact owner_ne hseller hm
  have hcorrections := Table.filter_insert (p := fun c : TransactionCorrection =>
    decide ((ts.findUnique (.id c.idOldTransaction)).map (·.idMerchant) = some m)) hcs hother
  exact { SameRows.refl m _ db with
    transactions := htransactions
    details := hdetails
    payments := hpayments
    corrections := hcorrections }

/-- Another merchant's case is opened. -/
theorem elsewhere_createReconciliation {row : Reconciliation} {p : Payment}
    (hp : p ∈ db.payments.rows) (hm : p.idMerchant ≠ m) (hpay : row.idPayment = p.idPayment)
    (h : db.createReconciliation row = .ok db') : Elsewhere m db db' := by
  obtain ⟨-, -, rs, hrs, rfl⟩ := createReconciliation_eq_ok.mp h
  have hother : decide (db.paymentMerchant row.idPayment = some m) = false := by
    rw [hpay]
    exact owner_ne (paymentMerchant_of_mem hp) hm
  have hcases := Table.filter_insert
    (p := fun r => decide (db.paymentMerchant r.idPayment = some m)) hrs hother
  exact { SameRows.refl m _ db with reconciliations := hcases }

/-- Another merchant's case is resolved. -/
theorem elsewhere_resolve (hdb : Separate db) {id : Ident} {user : JwtPayload}
    {r : FoundReconciliation} {dto : ResolveReconciliationDto} {now : DateTime}
    (hm : user.idMerchant ≠ m) (hread : Reconciliations.resolveRead db id user = .ok r)
    (h : Reconciliations.resolveWrite db id user r dto now = .ok db') : Elsewhere m db db' := by
  have hfound := resolveRead_found hread
  obtain ⟨hrow, hpayment, htransaction⟩ := findReconciliation_eq_some hfound
  obtain ⟨hid, hpid, htid⟩ := findReconciliation_links hfound
  have hmp : r.payment.idMerchant ≠ m := by
    rw [resolveRead_merchant hread]
    exact hm
  have hmt : r.transaction.idMerchant ≠ m := by
    rw [hdb.addressed.merchants r.payment hpayment r.transaction htransaction htid]
    exact hmp
  have hown : db.paymentMerchant r.row.idPayment = some r.payment.idMerchant := by
    rw [← hpid]
    exact paymentMerchant_of_mem hpayment
  have hpayments := Table.filter_update_of_mem (p := fun p => decide (p.idMerchant = m))
    (k := .id r.row.idPayment) (f := Payment.failed) hpayment (payment_id_mem_keys.mpr hpid)
    (decide_eq_false hmp) (decide_eq_false hmp)
  have hcases : ∀ owner : Ident → Option Ident,
      owner r.row.idPayment = some r.payment.idMerchant →
        (db.reconciliations.update (.id id) (Reconciliation.resolved user dto now)).rows.filter
            (fun r => decide (owner r.idPayment = some m))
          = db.reconciliations.rows.filter (fun r => decide (owner r.idPayment = some m)) :=
    fun owner ho => Table.filter_update_of_mem hrow (reconciliation_id_mem_keys.mpr hid)
      (owner_ne ho hmp) (owner_ne ho hmp)
  have hfailed : ((db.payments.update (.id r.row.idPayment) Payment.failed).findUnique
      (.id r.row.idPayment)).map (·.idMerchant) = some r.payment.idMerchant :=
    Table.map_findUnique_update (fun _ => rfl) hown
  obtain ⟨-, ⟨-, rfl⟩ | ⟨-, -, rfl⟩ | ⟨-, -, rfl⟩⟩ := resolveWrite_cases h
  · exact { SameRows.refl m _ db with reconciliations := hcases _ hown }
  · exact { SameRows.refl m _ db with reconciliations := hcases _ hfailed, payments := hpayments }
  · exact { SameRows.refl m _ db with
      reconciliations := hcases _ hfailed
      payments := hpayments
      transactions := filter_relabel htransaction hmt rfl }

/-- **A call for another merchant is made elsewhere.** -/
theorem exec_elsewhere (hdb : Separate db) {op : Op} (hm : db.actsFor op ≠ some m) :
    Elsewhere m db (exec db op) := by
  have hne : ∀ n, db.actsFor op = some n → n ≠ m := fun n hn h => hm (hn.trans (congrArg some h))
  cases op with
  | register dto hashed =>
    have hnew := hne _ rfl
    rcases register_rows db dto hashed with hsame | ⟨ms, us, hms, hus, hdb'⟩
    · rw [hsame]
      exact .refl m _ db
    · rw [hdb']
      have hmerchants := Table.filter_insert (p := fun r => decide (r.idMerchant = m)) hms
        (decide_eq_false hnew)
      have husers := Table.filter_insert (p := fun u => decide (u.idMerchant = some m)) hus
        (owner_ne rfl hnew)
      exact { SameRows.refl m _ db with merchants := hmerchants, users := husers }
  | createUser owner dto hashed =>
    refine commit_rule (.refl m _ db) fun db' h => ?_
    obtain ⟨_, -, h⟩ := bind_eq_ok.mp h
    obtain ⟨-, us, hus, rfl⟩ := createUser_eq_ok.mp h
    have husers := Table.filter_insert (p := fun u => decide (u.idMerchant = some m)) hus
      (owner_ne rfl (hne _ rfl))
    exact { SameRows.refl m _ db with users := husers }
  | updateUserStatus target owner isActive =>
    refine commit_rule (.refl m _ db) fun db' h => ?_
    unfold Users.updateStatus at h
    simp only [bind_eq_ok, orThrow_eq_ok, require_eq_ok, decide_eq_true_eq, exists_const] at h
    obtain ⟨u, hfound, hown, h⟩ := h
    obtain ⟨hu, hkey⟩ := Table.findUnique_eq_some.mp hfound
    obtain ⟨-, rfl⟩ := updateUser_eq_ok.mp h
    have hother := owner_ne hown (hne _ rfl)
    have husers := Table.filter_update_of_mem (p := fun u => decide (u.idMerchant = some m))
      (f := User.activated isActive) hu hkey hother hother
    exact { SameRows.refl m _ db with users := husers }
  | createDevice owner user name code now =>
    refine commit_rule (.refl m _ db) fun db' h => ?_
    obtain ⟨-, -, ds, hds, rfl⟩ := createDevice_eq_ok.mp h
    have hdevices := Table.filter_insert (p := fun d => decide (d.idMerchant = m)) hds
      (decide_eq_false (hne _ rfl))
    exact { SameRows.refl m _ db with devices := hdevices }
  | pairDevice code hash =>
    refine commit_rule (.refl m _ db) fun db' h => ?_
    obtain ⟨d, hd, -, h⟩ := pairDevice_eq_ok h
    have hother := hne d.idMerchant (by rw [Db.actsFor, hd]; rfl)
    exact elsewhere_updateDevice (Table.findUnique_eq_some.mp hd).1 hother rfl h
  | removeDevice i owner =>
    refine commit_rule (.refl m _ db) fun db' h => ?_
    obtain ⟨d, hd, rfl, rfl, -, h⟩ := removeDevice_eq_ok h
    exact elsewhere_updateDevice hd (hne _ rfl) rfl h
  | createProduct user dto upload now =>
    exact elsewhere_createProduct db (hne _ rfl) dto upload now
  | updateProduct user productId dto upload =>
    refine commit_rule (.refl m _ db) fun db' h => ?_
    unfold Products.update at h
    simp only [bind_eq_ok, orThrow_eq_ok, require_eq_ok, exists_const] at h
    obtain ⟨p, hown, -, imageUrl, -, h⟩ := h
    exact elsewhere_updateProduct hown (hne _ rfl) rfl (catchDuplicate_eq_ok h)
  | removeProduct user productId =>
    refine commit_rule (.refl m _ db) fun db' h => ?_
    unfold Products.remove at h
    simp only [bind_eq_ok, orThrow_eq_ok] at h
    obtain ⟨p, hown, h⟩ := h
    exact elsewhere_updateProduct hown (hne _ rfl) rfl h
  | adjustStock user productId dto now =>
    show Elsewhere m db (Products.afterAdjustStock db user productId dto now)
    rcases afterAdjustStock_cases db user productId dto now with ⟨h, -⟩ | ⟨_, -, -, h⟩
    · rw [h]
      exact .refl m _ db
    · obtain ⟨is, heq⟩ := (adjustInventoryAndHistory_moved h).exists_eq
      rw [heq]
      exact ⟨rfl, rfl, rfl, rfl, rfl, rfl, rfl, rfl, rfl, rfl⟩
  | sync data outcome => exact elsewhere_sync hm
  | voidTransaction user id reason now =>
    refine commit_rule (.refl m _ db) fun db' h => ?_
    obtain ⟨t, hread, h⟩ := bind_eq_ok.mp h
    obtain ⟨hcur, hown, -⟩ := voidTransactionRead_eq_ok hread
    obtain ⟨-, -, rfl⟩ := updateTransaction_eq_ok.mp h
    have hother : t.row.idMerchant ≠ m := hown ▸ hne _ rfl
    exact { SameRows.refl m _ db with transactions := filter_relabel hcur.row hother rfl }
  | resolveConflict user id dto now =>
    refine commit_rule (.refl m _ db) fun db' h => ?_
    obtain ⟨t, hread, h⟩ := bind_eq_ok.mp h
    obtain ⟨hcur, hown, -⟩ := resolveConflictRead_eq_ok hread
    have hother : t.row.idMerchant ≠ m := hown ▸ hne _ rfl
    cases haction : dto.action with
    | CONFIRM =>
      have forced := resolveConflictWrite_confirm haction h
      have htransactions := filter_relabel hcur.row hother (f := Transaction.confirmed now) rfl
      rw [← forced.transactions] at htransactions
      rw [forced.frame]
      exact { SameRows.refl m _ db with transactions := htransactions }
    | VOID =>
      rw [resolveConflictWrite_void haction h]
      exact { SameRows.refl m _ db with transactions := filter_relabel hcur.row hother rfl }
  | correctTransaction user id dto now =>
    refine commit_rule (.refl m _ db) fun db' h => ?_
    obtain ⟨t, hread, h⟩ := bind_eq_ok.mp h
    obtain ⟨hcur, hown, -⟩ := correctTransactionRead_eq_ok hread
    exact elsewhere_correct hcur (hown ▸ hne _ rfl) h
  | createReconciliation user dto now =>
    refine commit_rule (.refl m _ db) fun db' h => ?_
    obtain ⟨p, hread, h⟩ := bind_eq_ok.mp h
    obtain ⟨hp, hown⟩ := createRead_payment hdb.addressed hread
    exact elsewhere_createReconciliation hp (hown ▸ hne _ rfl) rfl h
  | reconcilePayment user paymentId dto now =>
    refine commit_rule (.refl m _ db) fun db' h => ?_
    obtain ⟨p, hread, h⟩ := bind_eq_ok.mp h
    obtain ⟨hp, hown⟩ := reconcileRead_payment hread
    exact elsewhere_createReconciliation hp (hown ▸ hne _ rfl) rfl h
  | resolveReconciliation id user dto now =>
    refine commit_rule (.refl m _ db) fun db' h => ?_
    obtain ⟨r, hread, h⟩ := bind_eq_ok.mp h
    exact elsewhere_resolve hdb (hne _ rfl) hread h

theorem exec_keepsOwners (db : Db) (op : Op) : db.KeepsOwners (exec db op) where
  devices := (exec_grows db op).devices
  sellers := (exec_grows db op).sellers
  payments := fun _ _ h => exec_paymentMerchant h op

/-- A terminal failure of another merchant's item is recorded elsewhere. -/
theorem elsewhere_recordTerminalFailure (hm : db.deviceMerchant data.idDevice ≠ some m)
    (outcome : DlqOutcome) : Elsewhere m db (recordTerminalFailure db data outcome) := by
  unfold recordTerminalFailure
  split
  · rcases call_run_cases outcome.write db
      (writeTerminalFailure db data (db.findNoted data) outcome.now) with ⟨hsame, -⟩ | ⟨h, -⟩
    · rw [hsame]
      exact .refl m _ db
    · generalize (outcome.write.run db _).1 = db' at h
      unfold writeTerminalFailure at h
      split at h
      · rename_i q hfound
        obtain ⟨hq, hdevice, -⟩ := findNoted_eq_some hfound
        obtain ⟨-, rfl⟩ := updateSyncQueue_eq_ok.mp h
        have hother : decide (db.deviceMerchant q.idDevice = some m) = false := by
          rw [hdevice]
          exact decide_eq_false hm
        have hqueues := Table.filter_update_of_mem
          (p := fun q => decide (db.deviceMerchant q.idDevice = some m)) (k := .id q.id)
          (f := SyncQueue.exceeded outcome.now) hq (List.mem_singleton_self _) hother hother
        exact { SameRows.refl m _ db with syncQueues := hqueues }
      · obtain ⟨-, -, qs, hqs, rfl⟩ := createSyncQueue_eq_ok.mp h
        have hqueues := Table.filter_insert
          (p := fun q => decide (db.deviceMerchant q.idDevice = some m)) hqs (decide_eq_false hm)
        exact { SameRows.refl m _ db with syncQueues := hqueues }
  · exact .refl m _ db
  · exact .refl m _ db

end Elsewhere

/-! ## Steps of the server -/

section Server

variable {env : ServerEnv} {us : Table User} {σ τ : Server} {a : ServerAction} {db' : Db}
  {m : Ident}

/-- A request is handled for the merchant of its user. -/
theorem request_actsFor (db : Db) {request : Request} {user : JwtPayload} {now : DateTime} {op : Op}
    (hop : request.op user now = some op) : db.actsFor op = some user.idMerchant := by
  cases request with
  | syncTransactions idDevice batch publish => cases hop
  | _ =>
    obtain rfl := Option.some.inj hop
    rfl

/-- **A step for another merchant leaves the merchant's rows as they are.** -/
theorem Server.Change.recordsOf (h : σ.Change env a db') (hσ : Separate σ.db)
    (hm : σ.actsFor a ≠ some m) : db'.recordsOf m = σ.db.recordsOf m := by
  have hexec : ∀ op, σ.db.actsFor op ≠ some m →
      (exec σ.db op).recordsOf m = σ.db.recordsOf m :=
    fun op hop => recordsOf_elsewhere (exec_elsewhere hσ hop) hσ (exec_keepsOwners σ.db op)
  cases h with
  | tokens write =>
    rw [write.frame]
    rfl
  | registered => exact hexec _ hm
  | paired => exact hexec _ hm
  | served user request op hpending hop =>
    refine hexec op ?_
    rw [request_actsFor σ.db hop]
    simp only [Server.actsFor, hpending, Option.map_some] at hm
    exact hm
  | consumed item hpublished =>
    refine hexec _ ?_
    simp only [Server.actsFor, hpublished, Option.bind_some] at hm
    exact hm
  | @givenUp i retryAttempt outcome item hpublished =>
    simp only [Server.actsFor, hpublished, Option.bind_some] at hm
    have helsewhere : Elsewhere m σ.db
        (recordTerminalFailure σ.db { item with retryAttempt := retryAttempt } outcome) := by
      refine elsewhere_recordTerminalFailure ?_ outcome
      exact hm
    refine recordsOf_elsewhere helsewhere hσ ?_
    obtain ⟨qs, n, -, hdb⟩ := recordTerminalFailure_frame σ.db
      { item with retryAttempt := retryAttempt } outcome
    rw [hdb]
    exact ⟨fun _ _ h => h, fun _ _ h => h, fun _ _ h => h⟩

end Server

/-! ## What the users are answered -/

/-- An answer without the stock of the products. -/
def Answer.withoutStock : Answer → Answer
  | .products answer =>
      .products { answer with items := answer.items.map fun p => { p with inventory := none } }
  | answer => answer

section Answers

variable {contains : String → String → Bool} {db db' : Db} {user : JwtPayload} {m : Ident}

end Answers

end KPos
