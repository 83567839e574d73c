/-
# The order of the batches (`sync-consumer.service.ts`)

When the stock suffices for all sales of some tills together, it suffices for each sale in
its turn, in whatever order and in whatever batches they arrive: the demand that is left
never exceeds the stock that is left.  So all are confirmed, and what they leave depends on
the order only in the generated ids, the times and the order of the rows.

* `Suffices` : what the sales ask for is there;
* `Suffices.step` : after one sale it is there for the others;
* `Sold` : what the sales leave, one after the other;
* `batch_order` : two ways to deliver the same sales leave the same.
-/
import KPos.ConflictSales
import KPos.Recording
import KPos.StockColumn

namespace KPos

/-! ## Sales for which the stock suffices -/

/-- All lines of the sales. -/
def linesOf (sales : List QueuedTransaction) : List SyncItemDto := sales.flatMap (·.items)

/-- A sale that is sound: its values, its till, its products, and no line of nothing. -/
structure OfflineSale (db : Db) (data : QueuedTransaction) : Prop where
  arithmetic : data.Arithmetic
  values : data.ValuesFit
  dates : data.DatesParse
  quantities : ∀ item ∈ data.items, 1 ≤ item.quantity
  device : db.devices.has (.id data.idDevice) = true
  products : ∀ item ∈ data.items, ∃ p ∈ db.products.rows,
    p.idProduct = item.idProduct ∧ p.isActive = true

/-- Sound sales, each with a UUID of its own that is new, that together ask for no more of a
product than there is.  The consumer's user exists. -/
structure Suffices (db : Db) (sales : List QueuedTransaction) : Prop where
  user : db.users.has (.id systemSync) = true
  sound : ∀ data ∈ sales, OfflineSale db data
  distinct : (sales.map (·.offlineUuid)).Nodup
  fresh : ∀ data ∈ sales, db.transactions.has (.offlineUuid data.offlineUuid) = false
  stock : ∀ item ∈ linesOf sales,
    demand item.idProduct (linesOf sales) ≤ db.stock item.idProduct

section Suffices

variable {us : Table User} {db db' : Db} {data : QueuedTransaction}
  {sales sales' rest : List QueuedTransaction} {items items' : List SyncItemDto} {now : DateTime}

theorem demand_append (p : Ident) (xs ys : List SyncItemDto) :
    demand p (xs ++ ys) = demand p xs + demand p ys := Tally.tally_append xs ys

/-- Fewer lines ask for less. -/
theorem demand_mono {p : Ident} (hsub : items.Sublist items')
    (hq : ∀ item ∈ items', 1 ≤ item.quantity) : demand p items ≤ demand p items' :=
  Tally.tally_le_of_sublist hsub fun item hitem => Int.le_of_lt (hq item hitem)

/-- The order of the sales does not matter. -/
theorem Suffices.perm (h : Suffices db sales) (hperm : sales.Perm sales') : Suffices db sales' := by
  have hlines : (linesOf sales).Perm (linesOf sales') := hperm.flatMap_right _
  refine ⟨h.user, fun data hdata => h.sound data (hperm.mem_iff.mpr hdata),
    (hperm.map _).nodup_iff.mp h.distinct, fun data hdata => h.fresh data (hperm.mem_iff.mpr hdata),
    fun item hitem => ?_⟩
  have hdemand : demand item.idProduct (linesOf sales) = demand item.idProduct (linesOf sales') :=
    Tally.tally_perm hlines
  rw [← hdemand]
  exact h.stock item (hlines.mem_iff.mpr hitem)

theorem Suffices.quantities (h : Suffices db sales) :
    ∀ item ∈ linesOf sales, 1 ≤ item.quantity := by
  intro item hitem
  obtain ⟨data, hdata, hitem⟩ := List.mem_flatMap.mp hitem
  exact (h.sound data hdata).quantities item hitem

/-- No line of the first sale conflicts. -/
theorem Suffices.no_conflict (h : Suffices db (data :: rest)) (hstocked : Stocked db) :
    checkStockAvailability db data.items = false := by
  rw [checkStockAvailability_eq_false]
  intro item hitem
  have hsale := h.sound data List.mem_cons_self
  obtain ⟨p, hp, hid, hactive⟩ := hsale.products item hitem
  have hmem : item ∈ linesOf (data :: rest) := List.mem_append_left _ hitem
  cases hsel : db.selectForUpdate item.idProduct with
  | none =>
    have hfree := (selectForUpdate_eq_none_iff hstocked).mp hsel
    rw [Table.has_of_mem hp (product_id_mem_keys.mpr hid)] at hfree
    cases hfree
  | some inv =>
    obtain ⟨hstock, -, q, hq, hqactive⟩ := selectForUpdate_eq_some hsel
    have hpq : q = p := by
      obtain ⟨hq, hkey⟩ := Table.findUnique_eq_some.mp hq
      exact Table.eq_of_key hq hp hkey (product_id_mem_keys.mpr hid)
    -- one line asks for no more than all
    have hquantity : item.quantity ≤ demand item.idProduct (linesOf (data :: rest)) := by
      have hsingle : demand item.idProduct [item] = item.quantity := by
        unfold demand
        rw [Tally.tally_singleton, if_pos (decide_eq_true rfl)]
      rw [← hsingle]
      exact demand_mono (List.singleton_sublist.mpr hmem) h.quantities
    refine conflictsWith_eq_false.mpr ⟨inv, rfl, ?_, ?_⟩
    · rw [← hqactive, hpq, hactive]
    · rw [← hstock]
      exact hquantity.trans (h.stock item hmem)

/-- The stock of the first sale can be deducted. -/
theorem Suffices.deductible (h : Suffices db (data :: rest)) (hcolumn : db.StockInColumn) :
    Deductible db data.items := by
  have hsale := h.sound data List.mem_cons_self
  refine ⟨fun _ => h.user, fun item hitem => ?_, fun pre item post hitems => ?_⟩
  · have hfits := (hsale.values.items item hitem).1
    have hquantity := hsale.quantities item hitem
    unfold fitsInt at hfits ⊢
    rw [decide_eq_true_iff] at hfits ⊢
    omega
  · have hmem : item ∈ data.items := by
      rw [hitems]
      exact List.mem_append_right _ List.mem_cons_self
    have hsub : (pre ++ [item]).Sublist (linesOf (data :: rest)) := by
      refine List.Sublist.trans ?_ (List.sublist_append_left data.items (linesOf rest))
      have hsplit : data.items = (pre ++ [item]) ++ post := by rw [hitems, List.append_cons]
      rw [hsplit]
      exact List.sublist_append_left _ _
    have hdemand := demand_mono (p := item.idProduct) hsub h.quantities
    have hpositive : 0 ≤ demand item.idProduct (pre ++ [item]) :=
      demand_mono (List.nil_sublist _) fun i hi => h.quantities i (hsub.subset hi)
    have hstock := h.stock item (List.mem_append_left _ hmem)
    have hfits := hcolumn item.idProduct
    unfold fitsInt at hfits ⊢
    rw [decide_eq_true_iff] at hfits ⊢
    omega

/-- The inventories after a sale without a conflict. -/
theorem processTransaction_rows (hcheck : checkStockAvailability db data.items = false)
    (h : processTransaction db data now = .ok db') :
    db'.inventories.rows = db.inventories.rows.map fun i =>
      i.moved (-demand i.idProduct data.items) := by
  unfold processTransaction at h
  simp only [bind_eq_ok, storeTransaction_eq_ok, hcheck] at h
  obtain ⟨-, -, d, created, ts, ps, -, h⟩ := h
  rw [adjustEach_rows h]
  apply List.map_congr_left
  intro i _
  rw [movement_saleHistories]

/-- After a stored sale, what the others ask for is still there. -/
theorem Suffices.others {d : Device} {created : DateTime} (h : Suffices db (data :: rest))
    (hstored : StoredSale db db' data false now d created) : Suffices db' rest := by
  have hframe := hstored.frame
  obtain ⟨hother, hdistinct⟩ := List.nodup_cons.mp h.distinct
  refine ⟨?_, fun sale hmem => ?_, hdistinct, fun sale hmem => ?_, fun item hitem => ?_⟩
  · rw [hframe]
    exact h.user
  · have hsale := h.sound sale (List.mem_cons_of_mem _ hmem)
    refine { hsale with device := ?_, products := ?_ }
    · rw [hframe]
      exact hsale.device
    · rw [hframe]
      exact hsale.products
  · -- the new row has another UUID
    rw [Table.has_eq_false]
    intro t ht hkey
    rcases (Table.mem_insert hstored.insertable.header).mp ht with ht | rfl
    · exact Table.has_eq_false.mp (h.fresh sale (List.mem_cons_of_mem _ hmem)) t ht hkey
    · have heq : data.offlineUuid = sale.offlineUuid :=
        Option.some.inj (offlineUuid_mem_keys.mp hkey)
      exact hother (List.mem_map.mpr ⟨sale, hmem, heq.symm⟩)
  · -- the demand that is left is within the stock that is left
    have hstock := h.stock item (List.mem_append_right _ hitem)
    have hleft := hstored.saleConfirmed.stock item.idProduct
    have hdemand : demand item.idProduct (linesOf (data :: rest))
        = demand item.idProduct data.items + demand item.idProduct (linesOf rest) :=
      demand_append _ _ _
    omega

/-- **One sale is stored, and the stock suffices for the others.** -/
theorem Suffices.step (h : Suffices db (data :: rest)) (hreach : Reachable us db) (now : DateTime) :
    ∃ d created, StoredSale db (handleItem db data (.served now)) data false now d created ∧
      (handleItem db data (.served now)).inventories.rows = db.inventories.rows.map (fun i =>
        i.moved (-demand i.idProduct data.items)) ∧
      Suffices (handleItem db data (.served now)) rest := by
  have hsale := h.sound data List.mem_cons_self
  have hcheck := h.no_conflict hreach.stocked
  have hproducts : ∀ item ∈ data.items, db.products.has (.id item.idProduct) = true := by
    intro item hitem
    obtain ⟨p, hp, hid, -⟩ := hsale.products item hitem
    exact Table.has_of_mem hp (product_id_mem_keys.mpr hid)
  obtain ⟨db', hok⟩ := (processTransaction_isOk hreach.wired now).mpr ⟨hsale.arithmetic,
    ⟨hsale.device, hsale.values, hsale.dates, hproducts, h.fresh data List.mem_cons_self⟩,
    fun _ => h.deductible hreach.stockInColumn⟩
  rw [handleItem_eq (isStored_eq_false (h.fresh data List.mem_cons_self)) hok]
  obtain ⟨-, d, created, hstored⟩ := processTransaction_stored hok
  rw [hcheck] at hstored
  exact ⟨d, created, hstored, processTransaction_rows hcheck hok, h.others hstored⟩

end Suffices

/-! ## What the sales leave -/

/-- A transaction without its generated id and the times of the server. -/
def Transaction.content (t : Transaction) : Transaction :=
  { t with
    idTransaction := .text ""
    createdAt := 0
    confirmedAt := t.confirmedAt.map fun _ => 0
    syncedAt := t.syncedAt.map fun _ => 0 }

/-- A transaction by the UUID of its till, if it has one. -/
def Db.named (db : Db) (idTransaction : Ident) : Ident :=
  ((db.transactions.findUnique (.id idTransaction)).bind (·.offlineUuid)).getD idTransaction

/-- A payment without its generated id and the times of the server, its transaction by `named`. -/
def Payment.content (named : Ident → Ident) (p : Payment) : Payment :=
  { p with
    idPayment := .text ""
    idTransaction := named p.idTransaction
    verifiedAt := p.verifiedAt.map fun _ => 0
    createdAt := 0 }

/-- A movement without the time of the server, its transaction by `named`. -/
def StockHistory.content (named : Ident → Ident) (h : StockHistory) : StockHistory :=
  { h with
    idTransaction := h.idTransaction.map named
    createdAt := 0 }

/-- What a confirmed sale leaves in the transactions. -/
def Db.saleContent (db : Db) (data : QueuedTransaction) : Option Transaction := do
  let d ← db.devices.findUnique (.id data.idDevice)
  let createdAtLocal ← data.createdAtLocal.date
  return (headerRow db data d false createdAtLocal 0).stored.content

/-- What a confirmed sale leaves in the payments. -/
def Db.paymentContent (db : Db) (data : QueuedTransaction) : Option Payment := do
  let d ← db.devices.findUnique (.id data.idDevice)
  return (paymentRow db data.offlineUuid d.idMerchant data.payment 0).stored.content id

/-- What a confirmed sale leaves in the movements of the stock. -/
def Db.movementContents (db : Db) (data : QueuedTransaction) : List StockHistory :=
  match db.devices.findUnique (.id data.idDevice) with
  | none => []
  | some d => saleHistories data data.offlineUuid d.idMerchant 0

/-- The sales are stored in this order and confirmed: the rows that were added, and what is left
of the stock. -/
structure Sold (db db' : Db) (sales : List QueuedTransaction) : Prop where
  transactions : ∃ ts, db'.transactions.rows = db.transactions.rows ++ ts ∧
    ts.map (·.content) = sales.filterMap db.saleContent
  payments : ∃ ps, db'.payments.rows = db.payments.rows ++ ps ∧
    ps.map (·.content db'.named) = sales.filterMap db.paymentContent
  histories : ∃ hs, db'.stockHistories = db.stockHistories ++ hs ∧
    hs.map (·.content db'.named) = sales.flatMap db.movementContents
  inventories : db'.inventories.rows = db.inventories.rows.map fun i =>
    i.moved (-demand i.idProduct (linesOf sales))
  confirmed : ∀ data ∈ sales, ∃ t ∈ db'.transactions.rows, t.idDevice = data.idDevice ∧
    t.offlineUuid = some data.offlineUuid ∧ t.status = .CONFIRMED ∧ t.syncStatus = .SYNCED

section Sold

variable {us : Table User} {db db' db₁ : Db} {data : QueuedTransaction}
  {sales sales₁ sales₂ rest : List QueuedTransaction} {now : DateTime} {d : Device}
  {created : DateTime}

/-- A stored sale has its UUID as its name from then on. -/
theorem named_of_mem {t : Transaction} {u : Ident} (ht : t ∈ db.transactions.rows)
    (hu : t.offlineUuid = some u) : db.named t.idTransaction = u := by
  unfold Db.named
  rw [Table.findUnique_eq_some.mpr ⟨ht, id_mem_keys.mpr rfl⟩]
  show t.offlineUuid.getD _ = u
  rw [hu]
  rfl

theorem sold_nil (db : Db) : Sold db db [] where
  transactions := ⟨[], (List.append_nil _).symm, rfl⟩
  payments := ⟨[], (List.append_nil _).symm, rfl⟩
  histories := ⟨[], (List.append_nil _).symm, rfl⟩
  inventories := by
    symm
    rw [List.map_congr_left fun i _ => show i.moved (-demand i.idProduct (linesOf [])) = i from
      Inventory.moved_zero i, List.map_id']
  confirmed := fun _ h => absurd h List.not_mem_nil

/-- The row of a stored sale has its content. -/
theorem StoredSale.saleContent (h : StoredSale db db₁ data false now d created) :
    db.saleContent data = some (headerRow db data d false created now).stored.content := by
  unfold Db.saleContent
  rw [h.insertable.device, h.insertable.created]
  rfl

/-- The payment of a stored sale has its content. -/
theorem StoredSale.paymentContent (h : StoredSale db db₁ data false now d created)
    {named : Ident → Ident} (hnamed : named db.newId = data.offlineUuid) (db₂ : Db) :
    db.paymentContent data = some ((paymentRow db₂ db.newId d.idMerchant data.payment
      now).stored.content named) := by
  unfold Db.paymentContent
  rw [h.insertable.device, ← hnamed]
  rfl

/-- The movements of a stored sale have their content. -/
theorem StoredSale.movementContents (h : StoredSale db db₁ data false now d created)
    {named : Ident → Ident} (hnamed : named db.newId = data.offlineUuid) :
    db.movementContents data
      = (saleHistories data db.newId d.idMerchant now).map (·.content named) := by
  unfold Db.movementContents saleHistories
  rw [h.insertable.device, ← hnamed]
  dsimp only
  rw [List.map_map, List.map_map, List.map_map]
  rfl

/-- The contents of sales depend on the devices only. -/
theorem contents_congr (h : db₁.devices = db.devices) : db₁.saleContent = db.saleContent ∧
    db₁.paymentContent = db.paymentContent ∧ db₁.movementContents = db.movementContents := by
  refine ⟨?_, ?_, ?_⟩
  · funext sale
    unfold Db.saleContent
    rw [h]
    rfl
  · funext sale
    unfold Db.paymentContent
    rw [h]
    rfl
  · funext sale
    unfold Db.movementContents
    rw [h]

/-- **One sale and the sales after it.** -/
theorem Sold.cons (hstored : StoredSale db db₁ data false now d created)
    (hrows : db₁.inventories.rows = db.inventories.rows.map fun i =>
      i.moved (-demand i.idProduct data.items))
    (hsold : Sold db₁ db' rest) : Sold db db' (data :: rest) := by
  have hins := hstored.insertable
  obtain ⟨hsales, hpayments, hmovements⟩ : db₁.saleContent = db.saleContent ∧
      db₁.paymentContent = db.paymentContent ∧ db₁.movementContents = db.movementContents :=
    contents_congr (by rw [hstored.frame])
  have hts := (Table.insert_eq_some.mp hins.header).2
  have hhs : db₁.stockHistories = db.stockHistories
      ++ saleHistories data db.newId d.idMerchant now := hstored.entered.histories
  obtain ⟨ts, hts', htcontent⟩ := hsold.transactions
  obtain ⟨ps, hps', hpcontent⟩ := hsold.payments
  obtain ⟨hs, hhs', hhcontent⟩ := hsold.histories
  -- in the end the new transaction is still named by its UUID
  have hmem : (headerRow db data d false created now).stored ∈ db'.transactions.rows := by
    rw [hts', hts]
    exact List.mem_append_left _ (List.mem_append_right _ List.mem_cons_self)
  have hnamed : db'.named db.newId = data.offlineUuid := named_of_mem hmem rfl
  obtain ⟨payment, hps, hpayment⟩ : ∃ payment, db₁.payments.rows = db.payments.rows ++ [payment] ∧
      db.paymentContent data = some (payment.content db'.named) :=
    ⟨_, (Table.insert_eq_some.mp hins.payment).2, hstored.paymentContent hnamed _⟩
  constructor
  · refine ⟨(headerRow db data d false created now).stored :: ts, ?_, ?_⟩
    · rw [hts', hts, List.append_assoc]
      rfl
    · rw [List.map_cons, htcontent, hsales, List.filterMap_cons_some hstored.saleContent]
  · refine ⟨payment :: ps, ?_, ?_⟩
    · rw [hps', hps, List.append_assoc]
      rfl
    · rw [List.map_cons, hpcontent, hpayments, List.filterMap_cons_some hpayment]
  · refine ⟨saleHistories data db.newId d.idMerchant now ++ hs, ?_, ?_⟩
    · rw [hhs', hhs, List.append_assoc]
    · rw [List.map_append, hhcontent, hmovements, List.flatMap_cons,
        hstored.movementContents hnamed]
  · rw [hsold.inventories, hrows, List.map_map]
    apply List.map_congr_left
    intro i _
    show (i.moved _).moved (-demand i.idProduct (linesOf rest)) = i.moved _
    have hdemand : demand i.idProduct (linesOf (data :: rest))
        = demand i.idProduct data.items + demand i.idProduct (linesOf rest) := demand_append _ _ _
    rw [Inventory.moved_moved, hdemand, neg_add]
  · intro sale hsale
    rcases List.mem_cons.mp hsale with rfl | hsale
    · exact ⟨_, hmem, rfl, rfl, rfl, rfl⟩
    · exact hsold.confirmed sale hsale

/-- **Sales for which the stock suffices are all stored and confirmed.** -/
theorem Suffices.sold (items : List (QueuedTransaction × DateTime)) (hreach : Reachable us db)
    (h : Suffices db (items.map Prod.fst)) :
    Sold db (items.foldl (fun db item => handleItem db item.1 (.served item.2)) db)
      (items.map Prod.fst) := by
  induction items generalizing db with
  | nil => exact sold_nil db
  | cons item items ih =>
    obtain ⟨d, created, hstored, hrows, hrest⟩ := h.step hreach item.2
    have hnext : next db (.sync item.1 (.served item.2))
        = some (handleItem db item.1 (.served item.2)) := rfl
    exact Sold.cons hstored hrows (ih (hreach.step hnext) hrest)

end Sold

/-! ## Two ways to deliver the same sales -/

/-- The database after batches that arrive one after the other, each item with the time when it
is handled. -/
def receiveBatches (db : Db) (batches : List (List (QueuedTransaction × DateTime))) : Db :=
  batches.foldl (fun db batch => handleSyncTransactionBatch db
    (batch.map fun item => (item.1, .served item.2))) db

/-- The same inventories, and the same new transactions, payments and movements up to generated
ids, times and the order of the rows. -/
structure LeaveSame (db db₁ db₂ : Db) : Prop where
  inventories : db₁.inventories = db₂.inventories
  transactions : ∃ ts₁ ts₂, db₁.transactions.rows = db.transactions.rows ++ ts₁ ∧
    db₂.transactions.rows = db.transactions.rows ++ ts₂ ∧
    (ts₁.map (·.content)).Perm (ts₂.map (·.content))
  payments : ∃ ps₁ ps₂, db₁.payments.rows = db.payments.rows ++ ps₁ ∧
    db₂.payments.rows = db.payments.rows ++ ps₂ ∧
    (ps₁.map (·.content db₁.named)).Perm (ps₂.map (·.content db₂.named))
  histories : ∃ hs₁ hs₂, db₁.stockHistories = db.stockHistories ++ hs₁ ∧
    db₂.stockHistories = db.stockHistories ++ hs₂ ∧
    (hs₁.map (·.content db₁.named)).Perm (hs₂.map (·.content db₂.named))

section Order

variable {us : Table User} {db db₁ db₂ : Db} {sales sales₁ sales₂ : List QueuedTransaction}

/-- How the items are split does not matter. -/
theorem receiveBatches_eq (batches : List (List (QueuedTransaction × DateTime))) :
    receiveBatches db batches =
      batches.flatten.foldl (fun db item => handleItem db item.1 (.served item.2)) db := by
  unfold receiveBatches
  rw [List.foldl_flatten]
  congr 1
  funext db batch
  unfold handleSyncTransactionBatch
  rw [List.foldl_map]

/-- What sales leave depends little on their order. -/
theorem Sold.leaveSame (h₁ : Sold db db₁ sales₁) (h₂ : Sold db db₂ sales₂)
    (hperm : sales₁.Perm sales₂) : LeaveSame db db₁ db₂ := by
  obtain ⟨ts₁, hts₁, htc₁⟩ := h₁.transactions
  obtain ⟨ts₂, hts₂, htc₂⟩ := h₂.transactions
  obtain ⟨ps₁, hps₁, hpc₁⟩ := h₁.payments
  obtain ⟨ps₂, hps₂, hpc₂⟩ := h₂.payments
  obtain ⟨hs₁, hhs₁, hhc₁⟩ := h₁.histories
  obtain ⟨hs₂, hhs₂, hhc₂⟩ := h₂.histories
  refine ⟨?_, ⟨ts₁, ts₂, hts₁, hts₂, ?_⟩, ⟨ps₁, ps₂, hps₁, hps₂, ?_⟩, ⟨hs₁, hs₂, hhs₁, hhs₂, ?_⟩⟩
  · have hrows : db₁.inventories.rows = db₂.inventories.rows := by
      rw [h₁.inventories, h₂.inventories]
      apply List.map_congr_left
      intro i _
      have hdemand : demand i.idProduct (linesOf sales₁) = demand i.idProduct (linesOf sales₂) :=
        Tally.tally_perm (hperm.flatMap_right _)
      rw [hdemand]
    exact Table.ext hrows
  · rw [htc₁, htc₂]
    exact hperm.filterMap _
  · rw [hpc₁, hpc₂]
    exact hperm.filterMap _
  · rw [hhc₁, hhc₂]
    exact hperm.flatMap_right _

/-- **The order of the batches is irrelevant when the stock suffices**: whatever way the sales
are ordered and split, all are confirmed, and two ways leave the same. -/
theorem batch_order (hreach : Reachable us db) (h : Suffices db sales)
    (batches₁ batches₂ : List (List (QueuedTransaction × DateTime)))
    (h₁ : (batches₁.flatten.map Prod.fst).Perm sales)
    (h₂ : (batches₂.flatten.map Prod.fst).Perm sales) :
    (∀ data ∈ sales, ∃ t ∈ (receiveBatches db batches₁).transactions.rows,
      t.idDevice = data.idDevice ∧ t.offlineUuid = some data.offlineUuid ∧
        t.status = .CONFIRMED ∧ t.syncStatus = .SYNCED) ∧
    LeaveSame db (receiveBatches db batches₁) (receiveBatches db batches₂) := by
  have hsold₁ := (h.perm h₁.symm).sold _ hreach
  have hsold₂ := (h.perm h₂.symm).sold _ hreach
  rw [receiveBatches_eq, receiveBatches_eq]
  exact ⟨fun data hdata => hsold₁.confirmed data (h₁.mem_iff.mpr hdata),
    hsold₁.leaveSame hsold₂ (h₁.trans h₂.symm)⟩

end Order

/-- Two sales that take all of the tea. -/
def teaSales : List QueuedTransaction :=
  [shopQueued shopDevice "a" [3], shopQueued shopDevice "b" [4, 3]]

theorem suffices_teaSales : Suffices shop teaSales where
  user := by decide +kernel
  sound := by
    intro data hdata
    have hcases : data = shopQueued shopDevice "a" [3] ∨
        data = shopQueued shopDevice "b" [4, 3] := by
      simpa [teaSales] using hdata
    rcases hcases with rfl | rfl
    · exact ⟨arithmetic_shopQueued _ _ (by decide), valuesFit_shopQueued _ _ (by decide),
        datesParse_shopQueued _ _ _, by decide +kernel, by decide +kernel, by decide +kernel⟩
    · exact ⟨arithmetic_shopQueued _ _ (by decide), valuesFit_shopQueued _ _ (by decide),
        datesParse_shopQueued _ _ _, by decide +kernel, by decide +kernel, by decide +kernel⟩
  distinct := by decide +kernel
  fresh := by decide +kernel
  stock := by decide +kernel

/-- In one batch, or in two the other way round. -/
theorem batch_order_teaSales :
    (∀ data ∈ teaSales, ∃ t ∈ (receiveBatches shop [[(shopQueued shopDevice "a" [3], 1),
        (shopQueued shopDevice "b" [4, 3], 2)]]).transactions.rows,
      t.idDevice = data.idDevice ∧ t.offlineUuid = some data.offlineUuid ∧
        t.status = .CONFIRMED ∧ t.syncStatus = .SYNCED) ∧
    LeaveSame shop
      (receiveBatches shop [[(shopQueued shopDevice "a" [3], 1),
        (shopQueued shopDevice "b" [4, 3], 2)]])
      (receiveBatches shop [[(shopQueued shopDevice "b" [4, 3], 3)],
        [(shopQueued shopDevice "a" [3], 4)]]) :=
  batch_order (reachable_shopWith systemUsers) suffices_teaSales _ _ (List.Perm.refl _)
    (List.Perm.swap _ _ _)

end KPos
