/-
# When a sale is stored (`sync-consumer.service.ts`)

In a state whose references are in order, `processTransaction` goes through exactly when the
payload is sound, its device and products exist, its UUID is new and, if no line conflicts,
its stock can be deducted (`processTransaction_isOk`).  The deduction names the user
`system_sync`, whom no operation creates.

* `SaleConfirmed` : what a confirmed sale leaves;
* `sale_confirmed_iff` : a well-formed sale is confirmed only if it has no lines;
* `sale_not_confirmed` : one that is not.
-/
import KPos.References

namespace KPos

/-! ## What a sale needs -/

/-- What the rows of a sale need. -/
structure Storable (db : Db) (data : QueuedTransaction) : Prop where
  device : db.devices.has (.id data.idDevice) = true
  values : data.ValuesFit
  dates : data.DatesParse
  products : ∀ item ∈ data.items, db.products.has (.id item.idProduct) = true
  uuid : db.transactions.has (.offlineUuid data.offlineUuid) = false

/-- What the deduction of lines needs besides inventories: the user that it names, and room
in the columns. -/
structure Deductible (db : Db) (items : List SyncItemDto) : Prop where
  user : items ≠ [] → db.users.has (.id systemSync) = true
  quantities : ∀ item ∈ items, fitsInt (-item.quantity) = true
  stock : ∀ pre item post, items = pre ++ item :: post →
    fitsInt (db.stock item.idProduct - demand item.idProduct (pre ++ [item])) = true

section Needs

variable {db db' : Db} {data : QueuedTransaction} {hasConflict : Bool} {now : DateTime}
  {d : Device} {createdAtLocal : DateTime} {ts : Table Transaction} {ps : Table Payment}

theorem Insertable.storable (h : Insertable db data hasConflict now d createdAtLocal ts ps) :
    Storable db data where
  device := by
    unfold Table.has
    rw [h.device]
    rfl
  values := h.values
  dates := ⟨by rw [h.created]; rfl, fun item hitem => catalogDate_isSome.mp (h.catalog item hitem)⟩
  products := h.products
  uuid := by
    rw [Table.has_eq_false]
    intro s hs hkey
    refine Table.free_of_insert h.header hs ?_ hkey
    simp [UniqueKeys.keys, headerRow, Transaction.stored]

/-- The id of a transaction or of a payment that comes next is free. -/
theorem Wired.has_newId (hdb : Wired db) : db.transactions.has (.id db.newId) = false := by
  rw [Table.has_eq_false]
  intro t ht hkey
  apply not_old_newId db
  rw [← id_mem_keys.mp hkey]
  exact (hdb.transactions t ht).1

/-- A payment with the identifier after the next one, for the next one, can be inserted. -/
theorem Wired.insert_payment (hdb : Wired db) {p : Payment} (hid : p.idPayment = .cuid (db.seq + 1))
    (htx : p.idTransaction = db.newId) : (db.payments.insert p).isSome := by
  rw [Table.insert_isSome_iff]
  intro k hk
  rw [Table.has_eq_false]
  intro q hq hkey
  obtain ⟨⟨n, hn, hqid⟩, hqtx⟩ := hdb.payments q hq
  have hk : k = .id p.idPayment ∨ k = .transaction p.idTransaction := by
    simpa [UniqueKeys.keys] using hk
  rcases hk with rfl | rfl
  · have heq : p.idPayment = q.idPayment := by simpa [UniqueKeys.keys] using hkey
    rw [hid, hqid] at heq
    have := Ident.cuid.inj heq
    omega
  · have heq : p.idTransaction = q.idTransaction := by simpa [UniqueKeys.keys] using hkey
    rw [← heq, htx, hdb.has_newId] at hqtx
    cases hqtx

/-- The rows of a sale that has what it needs can be inserted. -/
theorem Storable.insertable (h : Storable db data) (hdb : Wired db) (hasConflict : Bool)
    (now : DateTime) :
    ∃ d createdAtLocal ts ps, Insertable db data hasConflict now d createdAtLocal ts ps := by
  obtain ⟨d, hd⟩ := Option.isSome_iff_exists.mp h.device
  obtain ⟨t, ht⟩ := Option.isSome_iff_exists.mp h.dates.createdAtLocal
  obtain ⟨hm, hu⟩ := hdb.devices d (Table.findUnique_eq_some.mp hd).1
  -- the three keys of the header are free
  have hheader : (db.transactions.insert
      (headerRow db data d hasConflict t now).stored).isSome := by
    rw [Table.insert_isSome_iff]
    intro k hk
    have hk : k = .id db.newId ∨ k = .offlineUuid data.offlineUuid ∨
        k = .deviceUuid data.idDevice data.offlineUuid := by
      simpa [UniqueKeys.keys, headerRow, Transaction.stored] using hk
    rcases hk with rfl | rfl | rfl
    · exact hdb.has_newId
    · exact h.uuid
    · -- a row with the device and the UUID has the UUID
      rw [Table.has_eq_false]
      intro s hs hkey
      apply Table.has_eq_false.mp h.uuid s hs
      have hs' := (deviceUuid_mem_keys.mp hkey).2
      simp [UniqueKeys.keys, hs']
  obtain ⟨ts, hts⟩ := Option.isSome_iff_exists.mp hheader
  -- so are the two of the payment, which gets the identifier after the header's
  have hpayment : (db.payments.insert (paymentRow
      { db with transactions := ts, seq := db.seq + 1 } db.newId d.idMerchant data.payment
      now).stored).isSome := hdb.insert_payment rfl rfl
  obtain ⟨ps, hps⟩ := Option.isSome_iff_exists.mp hpayment
  exact ⟨d, t, ts, ps, hd, hm, hu, h.values, ht,
    fun item hitem => catalogDate_isSome.mpr (h.dates.catalogVersion item hitem), h.products,
    hts, hps⟩

/-- The deductions of a sale move, of each product, what its lines ask for. -/
theorem movement_saleHistories (p txId merchantId : Ident) (items : List SyncItemDto) :
    movement p ((items.map (saleMovement data txId merchantId)).map (·.history now))
      = -demand p items := by
  unfold movement demand
  rw [List.map_map, Tally.tally_map, ← Tally.tally_neg]
  rfl

/-- The deductions of a sale stay in the column when the demand does. -/
theorem stockFits_saleMovements {db : Db} {txId merchantId : Ident} {items : List SyncItemDto} :
    db.StockFits now (items.map (saleMovement data txId merchantId)) ↔
      ∀ pre item post, items = pre ++ item :: post →
        fitsInt (db.stock item.idProduct - demand item.idProduct (pre ++ [item])) = true := by
  have hmove : ∀ pre item, db.stock item.idProduct + movement item.idProduct
        ((pre.map (saleMovement data txId merchantId) ++
          [saleMovement data txId merchantId item]).map (·.history now))
      = db.stock item.idProduct - demand item.idProduct (pre ++ [item]) := by
    intro pre item
    rw [← List.map_singleton, ← List.map_append, movement_saleHistories, ← sub_eq_add_neg]
  constructor
  · intro hfits pre item post hitems
    have := hfits (pre.map (saleMovement data txId merchantId))
      (saleMovement data txId merchantId item) (post.map (saleMovement data txId merchantId))
      (by rw [hitems, List.map_append, List.map_cons])
    rw [← hmove]
    exact this
  · intro hfits l₁ a l₂ hl
    obtain ⟨pre, rest, hitems, rfl, hrest⟩ := List.map_eq_append_iff.mp hl
    obtain ⟨item, post, rfl, rfl, rfl⟩ := List.map_eq_cons_iff.mp hrest
    have := hfits pre item post hitems
    rw [← hmove] at this
    exact this

/-- **When the stock of a sale can be deducted**, if no line conflicts. -/
theorem deductInventory_isOk (h : Insertable db data false now d createdAtLocal ts ps)
    (hcheck : checkStockAvailability db data.items = false) :
    (∃ db', deductInventory (withSale db data now ts ps) data db.newId d.idMerchant now = .ok db')
      ↔ Deductible db data.items := by
  unfold deductInventory
  rw [adjustEach_isOk, stockFits_saleMovements]
  have hinv : ∀ item ∈ data.items, db.inventories.has (.product item.idProduct) = true := by
    intro item hitem
    obtain ⟨inv, hsel, -⟩ :=
      conflictsWith_eq_false.mp (checkStockAvailability_eq_false.mp hcheck item hitem)
    exact (selectForUpdate_eq_some hsel).2.1
  constructor
  · rintro ⟨hadm, hfits⟩
    rw [List.forall_mem_map] at hadm
    refine ⟨fun hne => ?_, fun item hitem => (hadm item hitem).2.1, hfits⟩
    obtain ⟨item, hitem⟩ := List.exists_mem_of_ne_nil _ hne
    exact (hadm item hitem).2.2.2.2.1
  · rintro ⟨huser, hquantities, hfits⟩
    refine ⟨?_, hfits⟩
    rw [List.forall_mem_map]
    intro item hitem
    refine ⟨hinv item hitem, hquantities item hitem, h.products item hitem, h.merchant,
      huser (List.ne_nil_of_mem hitem), fun t ht => ?_⟩
    obtain rfl := Option.some.inj ht
    exact (Table.has_of_insert h.header).mpr (Or.inr List.mem_cons_self)

/-- What a sale has that is stored. -/
theorem processTransaction_needs (h : processTransaction db data now = .ok db') :
    data.Arithmetic ∧ Storable db data ∧
      (checkStockAvailability db data.items = false → Deductible db data.items) := by
  unfold processTransaction at h
  simp only [bind_eq_ok, validateArithmetic_eq_ok, exists_const, storeTransaction_eq_ok] at h
  obtain ⟨hsum, d, t, ts, ps, hins, hend⟩ := h
  refine ⟨hsum, hins.storable, fun hcheck => ?_⟩
  rw [hcheck] at hins hend
  exact (deductInventory_isOk hins hcheck).mp ⟨db', hend⟩

/-- **When a sale is stored.** -/
theorem processTransaction_isOk (hdb : Wired db) (now : DateTime) :
    (∃ db', processTransaction db data now = .ok db') ↔
      data.Arithmetic ∧ Storable db data ∧
        (checkStockAvailability db data.items = false → Deductible db data.items) := by
  constructor
  · rintro ⟨db', h⟩
    exact processTransaction_needs h
  · rintro ⟨hsum, hstore, hdeduct⟩
    unfold processTransaction
    simp only [bind_eq_ok, validateArithmetic_eq_ok, exists_const, storeTransaction_eq_ok]
    obtain ⟨d, t, ts, ps, hins⟩ :=
      hstore.insertable hdb (checkStockAvailability db data.items) now
    cases hcheck : checkStockAvailability db data.items with
    | true =>
      rw [hcheck] at hins
      exact ⟨withSale db data now ts ps, hsum, d, t, ts, ps, hins, rfl⟩
    | false =>
      rw [hcheck] at hins
      obtain ⟨db', hdb'⟩ := (deductInventory_isOk hins hcheck).mpr (hdeduct hcheck)
      exact ⟨db', hsum, d, t, ts, ps, hins, hdb'⟩

end Needs

/-! ## What a confirmed sale leaves -/

/-- A sale was stored as CONFIRMED: one transaction, one detail line for each item, one
payment, and one deduction for each item, by which the stock fell. -/
structure SaleConfirmed (db db' : Db) (data : QueuedTransaction) : Prop where
  transaction : ∃ t, db'.transactions.rows = db.transactions.rows ++ [t] ∧
    t.idDevice = data.idDevice ∧ t.offlineUuid = some data.offlineUuid ∧
    t.status = .CONFIRMED ∧ t.syncStatus = .SYNCED ∧ t.idTransaction = db.newId
  details : ∃ ds, db'.details = db.details ++ ds ∧
    ds.map (fun d => (d.idTransaction, d.idProduct, d.quantity))
      = data.items.map fun item => (db.newId, item.idProduct, item.quantity)
  payment : ∃ p, db'.payments.rows = db.payments.rows ++ [p] ∧ p.idTransaction = db.newId
  histories : ∃ hs, db'.stockHistories = db.stockHistories ++ hs ∧
    hs.map (fun h => (h.idTransaction, h.idProduct, h.quantity))
      = data.items.map fun item => (some db.newId, item.idProduct, -item.quantity)
  stock : ∀ p, db'.stock p = db.stock p - demand p data.items

/-- A sale stored without a conflict is a confirmed one. -/
theorem StoredSale.saleConfirmed {db db' : Db} {data : QueuedTransaction} {now : DateTime}
    {d : Device} {createdAtLocal : DateTime}
    (h : StoredSale db db' data false now d createdAtLocal) : SaleConfirmed db db' data where
  transaction := ⟨_, (Table.insert_eq_some.mp h.insertable.header).2, rfl, rfl, rfl, rfl, rfl⟩
  details := by
    refine ⟨_, h.entered.details, ?_⟩
    unfold saleDetails
    rw [List.map_map, List.map_map]
    rfl
  payment := ⟨_, (Table.insert_eq_some.mp h.insertable.payment).2, rfl⟩
  histories := by
    refine ⟨_, h.entered.histories, ?_⟩
    rw [if_neg Bool.false_ne_true]
    unfold saleHistories
    rw [List.map_map, List.map_map]
    rfl
  stock := by
    intro p
    rw [h.entered.stock p, if_neg Bool.false_ne_true]
    unfold saleHistories
    rw [movement_saleHistories, ← sub_eq_add_neg]

/-! ## Well-formed sales -/

/-- A sale that should be confirmed: its payload is sound, its UUID is new, its device
exists, and it asks for active products, of no more than there is. -/
structure WellFormedSale (db : Db) (data : QueuedTransaction) : Prop where
  arithmetic : data.Arithmetic
  values : data.ValuesFit
  dates : data.DatesParse
  uuid : db.transactions.has (.offlineUuid data.offlineUuid) = false
  device : db.devices.has (.id data.idDevice) = true
  products : ∀ item ∈ data.items, ∃ p ∈ db.products.rows,
    p.idProduct = item.idProduct ∧ p.isActive = true
  demand : ∀ item ∈ data.items, demand item.idProduct data.items ≤ db.stock item.idProduct

theorem WellFormedSale.storable {db : Db} {data : QueuedTransaction}
    (h : WellFormedSale db data) : Storable db data where
  device := h.device
  values := h.values
  dates := h.dates
  products := by
    intro item hitem
    obtain ⟨p, hp, hid, -⟩ := h.products item hitem
    exact Table.has_of_mem hp (product_id_mem_keys.mpr hid)
  uuid := h.uuid

/-- Every user that the operations create has a generated id. -/
theorem users_generated {db : Db} (h : Reachable .empty db) :
    ∀ u ∈ db.users.rows, ∃ n, u.idUser = .cuid n := by
  refine h.invariant_total (fun db => ∀ u ∈ db.users.rows, ∃ n, u.idUser = .cuid n)
    (fun _ h => nomatch h) fun db₁ op hdb => ?_
  refine (exec_wrote db₁ op).invariant (fun db => ∀ u ∈ db.users.rows, ∃ n, u.idUser = .cuid n)
    hdb fun db db' hdb hw u hu => ?_
  rcases hw.adds.users u hu with ⟨v, hv, heq⟩ | heq
  · rw [← heq]
    exact hdb v hv
  · exact ⟨db.seq, heq⟩

/-- The user `system_sync` is in no database that the operations build from nothing. -/
theorem no_systemSync {db : Db} (h : Reachable .empty db) :
    db.users.has (.id systemSync) = false := by
  rw [Table.has_eq_false]
  intro u hu hkey
  obtain ⟨n, hn⟩ := users_generated h u hu
  rw [user_id_mem_keys.mp hkey] at hn
  cases hn

/-- **When a well-formed sale is confirmed**: only when it has no lines. -/
theorem sale_confirmed_iff {db : Db} {data : QueuedTransaction} (now : DateTime)
    (hreach : Reachable .empty db) (hsale : WellFormedSale db data) :
    (∃ db', processTransaction db data now = .ok db' ∧ SaleConfirmed db db' data) ↔
      data.items = [] := by
  constructor
  · rintro ⟨db', hok, hconf⟩
    by_contra hne
    cases hcheck : checkStockAvailability db data.items with
    | true =>
      -- a conflict leaves no deduction
      obtain ⟨-, d, t, hstored⟩ := processTransaction_stored hok
      obtain ⟨hs, hhs, hmap⟩ := hconf.histories
      have hnone := hstored.entered.histories
      rw [hcheck, if_pos rfl] at hnone
      obtain rfl : hs = [] := List.append_cancel_left (hhs.symm.trans hnone)
      exact hne (List.map_eq_nil_iff.mp hmap.symm)
    | false =>
      have hdeduct := ((processTransaction_isOk hreach.wired now).mp ⟨db', hok⟩).2.2 hcheck
      -- a deduction names the user that no database of the services has
      have huser := hdeduct.user hne
      rw [no_systemSync hreach] at huser
      cases huser
  · intro hnil
    have hcheck : checkStockAvailability db data.items = false := by
      rw [hnil]
      rfl
    have hdeduct : Deductible db data.items := by
      rw [hnil]
      refine ⟨fun h => absurd rfl h, fun _ h => (nomatch h), fun pre item post h => ?_⟩
      have hlen := congrArg List.length h
      rw [List.length_append, List.length_cons, List.length_nil] at hlen
      omega
    obtain ⟨db', hok⟩ := (processTransaction_isOk hreach.wired now).mpr
      ⟨hsale.arithmetic, hsale.storable, fun _ => hdeduct⟩
    obtain ⟨-, d, t, hstored⟩ := processTransaction_stored hok
    rw [hcheck] at hstored
    exact ⟨db', hok, hstored.saleConfirmed⟩

/-! ## Sales of the shop -/

/-- What the lines of a sale come to. -/
theorem sum_shopLines (quantities : List ℤ) :
    ((quantities.map shopLine).map (·.subtotal)).sum = 2 * (quantities.sum : ℚ) := by
  induction quantities with
  | nil => simp
  | cons q quantities ih =>
    rw [List.map_cons, List.map_cons, List.sum_cons, ih, List.sum_cons]
    show 2 * (q : ℚ) + _ = _
    push_cast
    ring

/-- The amounts of a sale of few pieces are whole. -/
theorem whole_shopQueued (d : Ident) (u : String) {quantities : List ℤ}
    (hsmall : ∀ q ∈ quantities.sum :: quantities, 0 ≤ q ∧ q ≤ 1000000) :
    (shopQueued d u quantities).Whole := by
  have hamount : ∀ q ∈ quantities.sum :: quantities, ∃ n : ℕ, 2 * (q : ℚ) = n ∧ n < 2 ^ 53 := by
    intro q hq
    obtain ⟨hlow, hhigh⟩ := hsmall q hq
    obtain ⟨n, rfl⟩ := Int.eq_ofNat_of_zero_le hlow
    exact ⟨2 * n, by push_cast; rfl, by omega⟩
  have htotal := hamount _ List.mem_cons_self
  refine ⟨fun item hitem => ?_, ?_, htotal, htotal⟩
  · obtain ⟨q, hq, rfl⟩ := List.mem_map.mp hitem
    obtain ⟨hlow, hhigh⟩ := hsmall q (List.mem_cons_of_mem _ hq)
    obtain ⟨n, hn, -⟩ := hamount q (List.mem_cons_of_mem _ hq)
    have hbound : ∀ z : ℤ, 0 ≤ z → z ≤ 2000000 → |z| < 2 ^ 53 := by
      intro z hz hle
      rw [abs_of_nonneg hz]
      omega
    exact ⟨hbound q hlow (by omega), ⟨2, rfl, hbound 2 (by omega) (by omega),
      hbound (q * 2) (by omega) (by omega)⟩, n, hn⟩
  · obtain ⟨n, hn, hlt⟩ := htotal
    show ((quantities.map shopLine).map (·.subtotal)).sum < 2 ^ 53
    rw [sum_shopLines, hn]
    exact_mod_cast hlt

/-- The sales of the shop pass the arithmetic check. -/
theorem arithmetic_shopQueued (d : Ident) (u : String) {quantities : List ℤ}
    (hsmall : ∀ q ∈ quantities.sum :: quantities, 0 ≤ q ∧ q ≤ 1000000) :
    (shopQueued d u quantities).Arithmetic := by
  rw [arithmetic_iff_exact (whole_shopQueued d u hsmall)]
  refine ⟨fun item hitem => ?_, sum_shopLines quantities, sum_shopLines quantities⟩
  obtain ⟨q, -, rfl⟩ := List.mem_map.mp hitem
  exact mul_comm _ _

/-- Their dates parse. -/
theorem datesParse_shopQueued (d : Ident) (u : String) (quantities : List ℤ) :
    (shopQueued d u quantities).DatesParse := by
  refine ⟨rfl, fun item hitem => ?_⟩
  obtain ⟨q, -, rfl⟩ := List.mem_map.mp hitem
  exact Or.inr rfl

/-- Their values fit into the columns when the amounts are small. -/
theorem valuesFit_shopQueued (d : Ident) (u : String) {quantities : List ℤ}
    (hsmall : ∀ q ∈ quantities.sum :: quantities, 0 ≤ q ∧ q ≤ 1000000) :
    (shopQueued d u quantities).ValuesFit := by
  have hamount : ∀ q ∈ quantities.sum :: quantities, fitsDecimal (2 * (q : ℚ)) = true := by
    intro q hq
    obtain ⟨hlow, hhigh⟩ := hsmall q hq
    have hfits := fitsDecimal_intCast (z := 2 * q) (by omega) (by omega)
    rw [Int.cast_mul] at hfits
    exact hfits
  have htotal := hamount _ List.mem_cons_self
  refine ⟨htotal, htotal, fun item hitem => ?_, htotal, rfl, rfl⟩
  obtain ⟨q, hq, rfl⟩ := List.mem_map.mp hitem
  obtain ⟨hlow, hhigh⟩ := hsmall q (List.mem_cons_of_mem _ hq)
  refine ⟨?_, fitsDecimal_intCast (z := 2) (by omega) (by omega),
    hamount q (List.mem_cons_of_mem _ hq)⟩
  unfold fitsInt
  rw [decide_eq_true_iff]
  show -2147483648 ≤ q ∧ q ≤ 2147483647
  omega

/-- The shop as the operations build it, without the user `system_sync`. -/
def plainShop : Db := shopWith .empty

/-- Three pieces of ten. -/
def threePieces : QueuedTransaction := shopQueued shopDevice "a" [3]

theorem wellFormed_threePieces : WellFormedSale plainShop threePieces where
  arithmetic := arithmetic_shopQueued _ _ (by decide)
  values := valuesFit_shopQueued _ _ (by decide)
  dates := datesParse_shopQueued _ _ _
  uuid := by decide +kernel
  device := by decide +kernel
  products := by decide +kernel
  demand := by decide +kernel

/-- The sale of three pieces is not confirmed. -/
theorem sale_confirmed_iff_threePieces :
    ¬ ∃ db', processTransaction plainShop threePieces 1 = .ok db' ∧
      SaleConfirmed plainShop db' threePieces := by
  have hreach : Reachable .empty plainShop := reachable_shopWith .empty
  intro h
  exact List.cons_ne_nil _ _ ((sale_confirmed_iff 1 hreach wellFormed_threePieces).mp h)

/-- **A well-formed sale is not confirmed**: the deduction throws. -/
theorem sale_not_confirmed : ¬ ∀ (db : Db) (data : QueuedTransaction) (now : DateTime),
    Reachable .empty db → WellFormedSale db data →
      ∃ db', processTransaction db data now = .ok db' ∧ SaleConfirmed db db' data := by
  intro h
  obtain ⟨db', hok, -⟩ := h plainShop threePieces 1 (reachable_shopWith .empty)
    wellFormed_threePieces
  have herror : (processTransaction plainShop threePieces 1).isOk = false := by decide +kernel
  rw [hok] at herror
  cases herror

end KPos
