/-
# What a correction accepts (`transactions.service.ts`)

A correction needs a CONFIRMED transaction of the user's merchant, the rows that it names, and
room for its values and for the stock in their columns.  It needs nothing else.

* `Chained` : the corrections have generated ids and name transactions that exist;
* `CorrectionNeeds`, `correctTransaction_isOk` : exactly when a correction goes through.
-/
import KPos.Corrections
import KPos.Invalidations
import KPos.Storing

namespace KPos

/-! ## Loops one after the other -/

/-- The stock stays in its column in the first of two loops when it does in both. -/
theorem Db.StockFits.left {db : Db} {now : DateTime} {l₁ l₂ : List AdjustInventoryParams}
    (h : db.StockFits now (l₁ ++ l₂)) : db.StockFits now l₁ := fun pre a post hl =>
  h pre a (post ++ l₂) (by rw [hl, List.append_assoc, List.cons_append])

/-- The stock stays in its column in two loops when it does in each. -/
theorem stockFits_append {db db₁ : Db} {now : DateTime} {l₁ l₂ : List AdjustInventoryParams}
    (hstock : ∀ p, db₁.stock p = db.stock p + movement p (l₁.map (·.history now))) :
    db.StockFits now (l₁ ++ l₂) ↔ db.StockFits now l₁ ∧ db₁.StockFits now l₂ := by
  have hlater : ∀ pre (a : AdjustInventoryParams), db.stock a.idProduct
        + movement a.idProduct ((l₁ ++ pre ++ [a]).map (·.history now))
      = db₁.stock a.idProduct + movement a.idProduct ((pre ++ [a]).map (·.history now)) := by
    intro pre a
    rw [hstock, List.append_assoc, List.map_append, movement_append, add_assoc]
  constructor
  · intro hfits
    refine ⟨hfits.left, fun pre a post hl => ?_⟩
    rw [← hlater]
    exact hfits (l₁ ++ pre) a post (by rw [hl, List.append_assoc])
  · rintro ⟨hfits₁, hfits₂⟩ pre a post hl
    rcases List.append_eq_append_iff.mp hl with ⟨rest, rfl, hrest⟩ | ⟨rest, rfl, hrest⟩
    · -- the adjustment is in the second loop
      rw [hlater]
      exact hfits₂ rest a post hrest
    · cases rest with
      | nil =>
        have h := hfits₂ [] a post hrest.symm
        rw [← hlater] at h
        simpa using h
      | cons b rest =>
        obtain ⟨rfl, rfl⟩ := List.cons.inj hrest
        exact hfits₁ pre a rest rfl

/-- Whether the stock stays in its column depends on the stock only. -/
theorem stockFits_congr {db db' : Db} {now : DateTime} {l : List AdjustInventoryParams}
    (h : ∀ p, db'.stock p = db.stock p) : db'.StockFits now l ↔ db.StockFits now l := by
  unfold Db.StockFits
  simp only [h]

/-! ## The corrections of a database -/

/-- The corrections have generated ids, and the transactions that they lead to exist. -/
def Chained (db : Db) : Prop :=
  ∀ c ∈ db.corrections.rows, db.Old c.idCorrection ∧
    db.transactions.has (.id c.idNewTransaction) = true

section Chained

variable {db db' : Db} {user : JwtPayload} {t : FoundTransaction} {dto : CorrectTransactionDto}
  {now : DateTime}

/-- The row that a correction writes, with an identifier generated in its transaction. -/
theorem correctTransactionWrite_row (h : Transactions.correctTransactionWrite db user t dto now
    = .ok db') : ∃ c, db.corrections.insert c = some db'.corrections ∧ db'.Old c.idCorrection ∧
      c.idNewTransaction = db.newId := by
  obtain ⟨db₁, db₃, db₄, ts, cs, h₁, -, h₃, h₄, hcs, rfl⟩ := correctTransactionWrite_steps h
  obtain ⟨is₁, rfl⟩ := (adjustEach_moved h₁).exists_eq
  obtain ⟨is₃, rfl⟩ := (adjustEach_moved h₃).exists_eq
  obtain ⟨ps, n, -, rfl⟩ := clonePayment_frame h₄
  exact ⟨_, hcs, ⟨n, Nat.lt_succ_self n, rfl⟩, rfl⟩

/-- **A call keeps it.** -/
theorem Chained.exec (hdb : Chained db) (op : Op) : Chained (exec db op) := by
  have hgrows := exec_grows db op
  have hcorrections := (exec_settles db op).corrections_cases
  generalize KPos.exec db op = db' at hgrows hcorrections
  have hkept : ∀ c ∈ db.corrections.rows, db'.Old c.idCorrection ∧
      db'.transactions.has (.id c.idNewTransaction) = true := fun c hc =>
    ⟨(hdb c hc).1.mono hgrows.seq, hgrows.transactions _ (hdb c hc).2⟩
  intro c hc
  rcases hcorrections with hsame | ⟨_, _, _, _, t, -, write⟩
  · rw [hsame] at hc
    exact hkept c hc
  · obtain ⟨ts, hins, hts⟩ := (correctTransactionWrite_corrected write).transactions
    obtain ⟨row, hcs, hold, hnew⟩ := correctTransactionWrite_row write
    rcases (Table.mem_insert hcs).mp hc with hc | rfl
    · exact hkept c hc
    · refine ⟨hold, ?_⟩
      rw [hts, Table.has_update, Table.has_of_insert hins, hnew]
      exact Or.inr List.mem_cons_self

theorem Reachable.chained {us : Table User} (h : Reachable us db) : Chained db :=
  h.invariant_total Chained (fun _ hc => nomatch hc) fun _ op hdb => hdb.exec op

end Chained

/-! ## When a correction goes through -/

/-- What the values of a dto need to be stored. -/
structure CorrectTransactionDto.ValuesFit (dto : CorrectTransactionDto) : Prop where
  total : fitsDecimal dto.total = true
  subtotal : fitsDecimal dto.subtotal = true
  items : ∀ item ∈ dto.items, fitsInt (truncate item.quantity) = true ∧
    fitsInt (-truncate item.quantity) = true ∧ fitsDecimal item.unitPrice = true ∧
    fitsDecimal item.subtotal = true

/-- What a payment needs to be copied. -/
structure Payment.Copied (users : Table User) (p : Payment) : Prop where
  cashReceived : p.cashReceived.all fitsDecimal = true
  changeAmount : p.changeAmount.all fitsDecimal = true
  verifiedBy : (p.verifiedBy.all fun u => users.has (.id u)) = true

/-- The movements of a correction: the old lines back, the new ones out. -/
def correctionMovements (db : Db) (user : JwtPayload) (t : FoundTransaction)
    (dto : CorrectTransactionDto) : List AdjustInventoryParams :=
  t.details.map (revertMovement t user.sub dto.reason) ++
    dto.items.map (correctedMovement db.newId t.row.idMerchant user.sub dto.reason)

/-- What a correction of the transaction `t` needs: the rows that it names, and room in the
columns. -/
structure CorrectionNeeds (db : Db) (user : JwtPayload) (t : FoundTransaction)
    (dto : CorrectTransactionDto) (now : DateTime) : Prop where
  account : db.users.has (.id user.sub) = true
  merchant : db.merchants.has (.id t.row.idMerchant) = true
  seller : db.users.has (.id t.row.idUser) = true
  values : dto.ValuesFit
  details : ∀ d ∈ t.details, fitsInt d.quantity = true ∧
    db.products.has (.id d.idProduct) = true ∧ db.inventories.has (.product d.idProduct) = true
  items : ∀ item ∈ dto.items, db.products.has (.id item.idProduct) = true ∧
    db.inventories.has (.product item.idProduct) = true
  stock : db.StockFits now (correctionMovements db user t dto)
  payment : ∀ p, t.payment = some p → p.Copied db.users

/-- A correction needs its user to find a CONFIRMED transaction of their merchant, and the rows
and columns that its writes need. -/
def AcceptsCorrection (db : Db) (user : JwtPayload) (id : Ident) (dto : CorrectTransactionDto)
    (now : DateTime) : Prop :=
  ∃ t, db.findTransaction id = some t ∧ t.row.idMerchant = user.idMerchant ∧
    t.row.status = .CONFIRMED ∧ CorrectionNeeds db user t dto now

section Accepted

variable {db db' : Db} {user : JwtPayload} {t : FoundTransaction} {dto : CorrectTransactionDto}
  {now : DateTime}

/-- What a correction has that goes through. -/
theorem correctTransactionWrite_accepted
    (h : Transactions.correctTransactionWrite db user t dto now = .ok db') :
    CorrectionNeeds db user t dto now := by
  unfold Transactions.correctTransactionWrite revertOldStock createNewTransaction
    createDetailsAndDeductStock markOldAsVoidedAndBridge at h
  simp only [bind_eq_ok, createTransaction_eq_ok, createManyDetails_eq_ok,
    createCorrection_eq_ok, acceptsDetail_eq_ok, List.forall_mem_map] at h
  obtain ⟨db₁, h₁, _, ⟨htot, hsub, -, hm, hu, -, ts, -, rfl⟩, db₃, ⟨_, -, _, ⟨hdet, rfl⟩, h₃⟩,
    db₄, h₄, db₅, h₅, -, -, huser, cs, -, rfl⟩ := h
  have hmoved := adjustEach_moved h₁
  obtain ⟨hrevert, hfits₁⟩ := adjustEach_isOk.mp ⟨db₁, h₁⟩
  obtain ⟨hdeduct, hfits₃⟩ := adjustEach_isOk.mp ⟨db₃, h₃⟩
  rw [List.forall_mem_map] at hrevert hdeduct
  obtain ⟨is₃, rfl⟩ := (adjustEach_moved h₃).exists_eq
  obtain ⟨is₁, rfl⟩ := hmoved.exists_eq
  have hhas : ∀ k, is₁.has k = db.inventories.has k := hmoved.has
  obtain ⟨hold, huser', rfl⟩ := updateTransaction_eq_ok.mp h₅
  have hcopied : ∀ p, t.payment = some p → p.Copied db.users := by
    intro p hp
    unfold clonePayment at h₄
    rw [hp] at h₄
    obtain ⟨-, hcash, hchange, hverified, -⟩ := createPayment_eq_ok.mp h₄
    exact ⟨hcash, hchange, hverified⟩
  obtain ⟨ps, n, -, rfl⟩ := clonePayment_frame h₄
  refine ⟨huser, hm, hu, ⟨htot, hsub, fun item hitem => ?_⟩, fun d hd => ?_,
    fun item hitem => ?_, ?_, hcopied⟩
  · obtain ⟨hq, hprice, hitemsub, -, -⟩ := hdet item hitem
    exact ⟨hq, (hdeduct item hitem).2.1, hprice, hitemsub⟩
  · obtain ⟨hinv, hq, hprod, -⟩ := hrevert d hd
    exact ⟨hq, hprod, hinv⟩
  · obtain ⟨hinv, -, hprod, -⟩ := hdeduct item hitem
    rw [hhas] at hinv
    exact ⟨hprod, hinv⟩
  · exact (stockFits_append hmoved.stock).mpr ⟨hfits₁, hfits₃⟩

/-- The copy of a payment goes through, and takes at most one identifier. -/
theorem clonePayment_isOk {i : Ident} {x : ℚ} (hx : fitsDecimal x = true)
    (hpay : ∀ p, t.payment = some p → p.Copied db.users)
    (hfree : ∀ p, t.payment = some p → (db.payments.insert
      (clonedPayment db t p i x now).stored).isSome)
    (htx : db.transactions.has (.id i) = true)
    (hm : db.merchants.has (.id t.row.idMerchant) = true) :
    ∃ ps n, db.seq ≤ n ∧ clonePayment db t i x now = .ok { db with payments := ps, seq := n } := by
  unfold clonePayment
  cases hp : t.payment with
  | none => exact ⟨db.payments, db.seq, le_refl _, rfl⟩
  | some p =>
    obtain ⟨hcash, hchange, hverified⟩ := hpay p hp
    obtain ⟨ps, hps⟩ := Option.isSome_iff_exists.mp (hfree p hp)
    exact ⟨ps, db.seq + 1, Nat.le_succ _,
      createPayment_eq_ok.mpr ⟨hx, hcash, hchange, hverified, htx, hm, ps, hps, rfl⟩⟩

/-- A correction with an identifier that comes later, of the next transaction, can be
inserted. -/
theorem Chained.insert_correction (hchained : Chained db) (hdb : Wired db)
    {c : TransactionCorrection} {n : ℕ} (hn : db.seq ≤ n) (hid : c.idCorrection = .cuid n)
    (hnew : c.idNewTransaction = db.newId) : (db.corrections.insert c).isSome := by
  rw [Table.insert_isSome_iff]
  intro k hk
  rw [Table.has_eq_false]
  intro b hb hkey
  obtain ⟨⟨m, hm, hbid⟩, hbnew⟩ := hchained b hb
  have hk : k = .id c.idCorrection ∨ k = .newTransaction c.idNewTransaction := by
    simpa [UniqueKeys.keys] using hk
  rcases hk with rfl | rfl
  · have heq : c.idCorrection = b.idCorrection := by simpa [UniqueKeys.keys] using hkey
    rw [hid, hbid] at heq
    have := Ident.cuid.inj heq
    omega
  · have heq : c.idNewTransaction = b.idNewTransaction := by simpa [UniqueKeys.keys] using hkey
    rw [← heq, hnew, hdb.has_newId] at hbnew
    cases hbnew

/-- The lines of an accepted correction are stored, and its stock is taken out. -/
theorem CorrectionNeeds.lines_isOk {db₂ : Db} (h : CorrectionNeeds db user t dto now)
    (husers : db₂.users = db.users) (hmerchants : db₂.merchants = db.merchants)
    (hproducts : db₂.products = db.products)
    (hinv : ∀ k, db₂.inventories.has k = db.inventories.has k) {i : Ident}
    (hnew : db₂.transactions.has (.id i) = true)
    (hfits : db₂.StockFits now
      (dto.items.map (correctedMovement i t.row.idMerchant user.sub dto.reason))) :
    ∃ is, createDetailsAndDeductStock db₂ i t.row.idMerchant dto user.sub now = .ok { db₂ with
      inventories := is
      details := db₂.details ++ (dto.items.map (correctedDetail i now)).map (·.stored)
      stockHistories := db₂.stockHistories ++ (dto.items.map
        (correctedMovement i t.row.idMerchant user.sub dto.reason)).map (·.history now) } := by
  have hint : ∀ item ∈ dto.items, (do
      let _ ← toInt "quantity" item.quantity) = (.ok () : Except Err Unit) := by
    intro item hitem
    exact bind_eq_ok.mpr ⟨_, toInt_eq_ok.mpr ⟨rfl, (h.values.items item hitem).1⟩, rfl⟩
  have hrows : ∀ row ∈ dto.items.map (correctedDetail i now), db₂.acceptsDetail row = .ok () := by
    rw [List.forall_mem_map]
    intro item hitem
    obtain ⟨hq, -, hprice, hsub⟩ := h.values.items item hitem
    exact acceptsDetail_eq_ok.mpr ⟨hq, hprice, hsub, hnew, hproducts ▸ (h.items item hitem).1⟩
  obtain ⟨db₃, h₃⟩ : ∃ db₃, adjustEach { db₂ with
        details := db₂.details ++ (dto.items.map (correctedDetail i now)).map (·.stored) } now
      (dto.items.map (correctedMovement i t.row.idMerchant user.sub dto.reason)) = .ok db₃ := by
    rw [adjustEach_isOk, List.forall_mem_map]
    refine ⟨fun item hitem => ?_, (stockFits_congr fun _ => rfl).mpr hfits⟩
    obtain ⟨hprod, hitem'⟩ := h.items item hitem
    refine ⟨(hinv _).trans hitem', (h.values.items item hitem).2.1, hproducts ▸ hprod,
      hmerchants ▸ h.merchant, husers ▸ h.account, fun j hj => ?_⟩
    rw [← Option.some.inj hj]
    exact hnew
  obtain ⟨is, rfl⟩ := (adjustEach_moved h₃).exists_eq
  exact ⟨is, bind_eq_ok.mpr ⟨(), forM_eq_ok.mpr hint, bind_eq_ok.mpr ⟨_,
    createManyDetails_eq_ok.mpr ⟨hrows, rfl⟩, h₃⟩⟩⟩

/-- **A correction that has what it needs goes through.** -/
theorem CorrectionNeeds.isOk (h : CorrectionNeeds db user t dto now) (hdb : Wired db)
    (hchained : Chained db) (ht : t.row ∈ db.transactions.rows) :
    ∃ db', Transactions.correctTransactionWrite db user t dto now = .ok db' := by
  have hown : db.transactions.has (.id t.row.idTransaction) = true :=
    Table.has_of_mem ht (id_mem_keys.mpr rfl)
  -- the old stock is put back
  obtain ⟨db₁, h₁⟩ : ∃ db₁, revertOldStock db t user.sub dto.reason now = .ok db₁ := by
    unfold revertOldStock
    rw [adjustEach_isOk, List.forall_mem_map]
    refine ⟨fun d hd => ?_, h.stock.left⟩
    obtain ⟨hq, hprod, hinv⟩ := h.details d hd
    refine ⟨hinv, hq, hprod, h.merchant, h.account, fun i hi => ?_⟩
    rw [← Option.some.inj hi]
    exact hown
  have hmoved := adjustEach_moved h₁
  have hfits := ((stockFits_append hmoved.stock).mp h.stock).2
  obtain ⟨is₁, rfl⟩ := hmoved.exists_eq
  -- the new transaction gets the next identifier
  have hheader : (db.transactions.insert (correctedRow db t dto now).stored).isSome := by
    rw [Table.insert_isSome_iff]
    intro k hk
    obtain rfl : k = .id db.newId := List.mem_singleton.mp hk
    exact hdb.has_newId
  obtain ⟨ts, hts⟩ := Option.isSome_iff_exists.mp hheader
  have hnew : ts.has (.id db.newId) = true :=
    (Table.has_of_insert hts).mpr (Or.inr List.mem_cons_self)
  let db₁ : Db := { db with
    inventories := is₁
    stockHistories := db.stockHistories ++
      (t.details.map (revertMovement t user.sub dto.reason)).map (·.history now) }
  let db₂ : Db := { db₁ with transactions := ts, seq := db.seq + 1 }
  have h₂ : createNewTransaction db₁ t dto now = .ok db₂ :=
    createTransaction_eq_ok.mpr ⟨h.values.total, h.values.subtotal, rfl, h.merchant, h.seller,
      (hdb.transactions t.row ht).2, ts, hts, rfl⟩
  -- its lines are stored, and its stock is taken out
  obtain ⟨is₃, h₃⟩ := h.lines_isOk (show db₂.users = db.users from rfl) rfl rfl hmoved.has hnew
    ((stockFits_congr fun _ => rfl).mpr hfits)
  let db₃ : Db := { db₂ with
    inventories := is₃
    details := db₂.details ++ (dto.items.map (correctedDetail db.newId now)).map (·.stored)
    stockHistories := db₂.stockHistories ++ (dto.items.map
      (correctedMovement db.newId t.row.idMerchant user.sub dto.reason)).map (·.history now) }
  obtain ⟨ps, n, hn, h₄⟩ : ∃ ps n, db₃.seq ≤ n ∧ clonePayment db₃ t db.newId dto.total now
      = .ok { db₃ with payments := ps, seq := n } := by
    refine clonePayment_isOk h.values.total ?_ ?_ hnew h.merchant
    · exact h.payment
    · exact fun p _ => hdb.insert_payment rfl rfl
  -- the old transaction is voided and bridged to the new one
  have hheld : ts.has (.id t.row.idTransaction) = true := Table.has_insert_mono hts hown
  obtain ⟨cs, hcs⟩ := Option.isSome_iff_exists.mp (hchained.insert_correction hdb
    (c := ⟨.cuid n, t.row.idTransaction, db.newId, user.sub, dto.reason, now⟩)
    (Nat.le_of_succ_le hn) rfl rfl)
  have h₅ : ∃ db', markOldAsVoidedAndBridge { db₃ with payments := ps, seq := n } user
      t.row.idTransaction db.newId dto.reason now = .ok db' :=
    ⟨_, bind_eq_ok.mpr ⟨_, updateTransaction_eq_ok.mpr ⟨hheld, h.account, rfl⟩,
      createCorrection_eq_ok.mpr ⟨Table.has_update.trans hheld, Table.has_update.trans hnew,
        h.account, cs, hcs, rfl⟩⟩⟩
  obtain ⟨db', h₅⟩ := h₅
  exact ⟨db', bind_eq_ok.mpr ⟨db₁, h₁, bind_eq_ok.mpr ⟨db₂, h₂, bind_eq_ok.mpr ⟨db₃, h₃,
    bind_eq_ok.mpr ⟨_, h₄, h₅⟩⟩⟩⟩⟩

/-- **When a correction goes through.** -/
theorem correctTransaction_isOk {us : Table User} (hreach : Reachable us db) (id : Ident) :
    (∃ db', Transactions.correctTransaction db user id dto now = .ok db') ↔
      AcceptsCorrection db user id dto now := by
  unfold Transactions.correctTransaction Transactions.correctTransactionRead Transactions.findOne
    AcceptsCorrection
  simp only [bind_eq_ok, orThrow_eq_ok, require_eq_ok, pure_eq_ok, decide_eq_true_eq, exists_const]
  constructor
  · rintro ⟨db', t, ⟨_, ⟨_, hfind, hm, rfl⟩, hstatus, rfl⟩, hwrite⟩
    exact ⟨_, hfind, hm, hstatus, correctTransactionWrite_accepted hwrite⟩
  · rintro ⟨t, hfind, hm, hstatus, haccepted⟩
    obtain ⟨db', hwrite⟩ := haccepted.isOk hreach.wired hreach.chained
      (findTransaction_eq_some hfind).1.row
    exact ⟨db', t, ⟨t, ⟨t, hfind, hm, rfl⟩, hstatus, rfl⟩, hwrite⟩

end Accepted

end KPos
