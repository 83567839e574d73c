/-
# Processing one offline transaction (`sync-consumer.service.ts`)

`processTransaction` is one database transaction: it validates the arithmetic, selects the
stock of each line `FOR UPDATE`, and stores the sale, as CONFIRMED with its stock
deducted or, on a conflict, as PENDING without.  This file has its code as it runs on one
state of the database.

* `validateArithmetic_eq_ok` : what the check of the numbers demands, in doubles;
* `arithmetic_iff_exact` : on whole amounts, that they are exactly right;
* `checkStockAvailability_eq_false` : when no line conflicts;
* `storeTransaction_eq_ok` : what the part after the stock check needs and leaves.
-/
import KPos.Lib.Binary64
import KPos.Inventory
import Mathlib.Algebra.Order.BigOperators.Group.List

namespace KPos

/-! ## The arithmetic check -/

/-- `Number(…)`: the payload holds the decimal that a JavaScript number prints as, and the
number is the double next to it. -/
def number (x : ℚ) : ℚ := Binary64.round x

/-- `Number(item.quantity) * Number(item.unit_price)`. -/
def SyncItemDto.product (item : SyncItemDto) : ℚ :=
  Binary64.round (number item.quantity * number item.unitPrice)

/-- `validateArithmetic`, in doubles.  The numbers in the messages are printed as fractions. -/
def validateArithmetic (data : SyncTransactionDto) : Except Err Unit := do
  let calculatedSubtotal ← data.items.foldlM (fun calculatedSubtotal item => do
    require (decide (item.product = number item.subtotal))
      (.syncConflict .SYNC_ARITHMETIC_ERROR
        s!"Arithmetic validation failed for item {item.idProduct}: {item.quantity} * {item.unitPrice} != {item.subtotal}")
    return Binary64.round (calculatedSubtotal + number item.subtotal)) 0
  require (decide (calculatedSubtotal = number data.subtotal ∧
      calculatedSubtotal = number data.total))
    (.syncConflict .SYNC_ARITHMETIC_ERROR
      s!"Arithmetic validation failed: calculated {calculatedSubtotal} != tx total {data.total}")

/-- The `calculatedSubtotal` after some more items. -/
def calculatedSubtotal (start : ℚ) (items : List SyncItemDto) : ℚ :=
  items.foldl (fun sum item => Binary64.round (sum + number item.subtotal)) start

/-- What the arithmetic check demands. -/
structure SyncTransactionDto.Arithmetic (data : SyncTransactionDto) : Prop where
  items : ∀ item ∈ data.items, item.product = number item.subtotal
  subtotal : calculatedSubtotal 0 data.items = number data.subtotal
  total : calculatedSubtotal 0 data.items = number data.total

theorem validateArithmetic_loop {items : List SyncItemDto} {x y : ℚ}
    {e : SyncItemDto → Err} :
    items.foldlM (fun acc item => do
      require (decide (item.product = number item.subtotal)) (e item)
      return Binary64.round (acc + number item.subtotal)) x = .ok y ↔
      (∀ item ∈ items, item.product = number item.subtotal) ∧
        y = calculatedSubtotal x items := by
  -- the sum so far is the accumulator, so it is generalised
  induction items generalizing x with
  | nil =>
    rw [List.foldlM_nil, pure_eq_ok]
    simp [calculatedSubtotal, eq_comm]
  | cons item items ih =>
    rw [List.foldlM_cons]
    simp only [bind_eq_ok, require_eq_ok, pure_eq_ok, decide_eq_true_eq, exists_const,
      List.forall_mem_cons]
    constructor
    · rintro ⟨_, ⟨hitem, rfl⟩, hrest⟩
      obtain ⟨hitems, hy⟩ := ih.mp hrest
      exact ⟨⟨hitem, hitems⟩, hy⟩
    · rintro ⟨⟨hitem, hitems⟩, hy⟩
      exact ⟨_, ⟨hitem, rfl⟩, ih.mpr ⟨hitems, hy⟩⟩

theorem validateArithmetic_eq_ok {data : SyncTransactionDto} {u : Unit} :
    validateArithmetic data = .ok u ↔ data.Arithmetic := by
  unfold validateArithmetic
  simp only [bind_eq_ok, require_eq_ok, decide_eq_true_eq, validateArithmetic_loop]
  constructor
  · rintro ⟨_, ⟨hitems, rfl⟩, hsub, htot⟩
    exact ⟨hitems, hsub, htot⟩
  · rintro ⟨hitems, hsub, htot⟩
    exact ⟨_, ⟨hitems, rfl⟩, hsub, htot⟩

/-! ## Whole amounts -/

/-- The numbers of a payload are exactly right: each subtotal is the quantity times the price,
and the subtotals sum up to the totals. -/
structure SyncTransactionDto.ExactArithmetic (data : SyncTransactionDto) : Prop where
  items : ∀ item ∈ data.items, (item.quantity : ℚ) * item.unitPrice = item.subtotal
  subtotal : (data.items.map (·.subtotal)).sum = data.subtotal
  total : (data.items.map (·.subtotal)).sum = data.total

/-- A line of whole amounts that a double holds. -/
structure SyncItemDto.Whole (item : SyncItemDto) : Prop where
  quantity : |item.quantity| < 2 ^ 53
  price : ∃ n : ℤ, item.unitPrice = n ∧ |n| < 2 ^ 53 ∧ |item.quantity * n| < 2 ^ 53
  subtotal : ∃ n : ℕ, item.subtotal = n

/-- A payload of whole amounts that a double holds, also when they are added up. -/
structure SyncTransactionDto.Whole (data : SyncTransactionDto) : Prop where
  items : ∀ item ∈ data.items, item.Whole
  sum : (data.items.map (·.subtotal)).sum < 2 ^ 53
  subtotal : ∃ n : ℕ, data.subtotal = n ∧ n < 2 ^ 53
  total : ∃ n : ℕ, data.total = n ∧ n < 2 ^ 53

theorem number_natCast {n : ℕ} (h : n < 2 ^ 53) : number n = n := Binary64.round_natCast h

/-- A whole line is multiplied exactly. -/
theorem SyncItemDto.Whole.product_eq {item : SyncItemDto} (h : item.Whole) :
    item.product = item.quantity * item.unitPrice := by
  obtain ⟨n, hprice, hn, hproduct⟩ := h.price
  unfold SyncItemDto.product number
  rw [hprice, Binary64.round_intCast h.quantity, Binary64.round_intCast hn, ← Int.cast_mul,
    Binary64.round_intCast hproduct]

theorem SyncItemDto.Whole.nonneg {item : SyncItemDto} (h : item.Whole) : 0 ≤ item.subtotal := by
  obtain ⟨n, hn⟩ := h.subtotal
  rw [hn]
  exact Nat.cast_nonneg n

/-- Whole lines have no negative sum. -/
theorem sum_nonneg_of_whole {items : List SyncItemDto} (h : ∀ item ∈ items, item.Whole) :
    0 ≤ (items.map (·.subtotal)).sum := by
  apply List.sum_nonneg
  rw [List.forall_mem_map]
  exact fun item hitem => (h item hitem).nonneg

/-- Whole lines are added up exactly. -/
theorem calculatedSubtotal_eq {items : List SyncItemDto} {n : ℕ}
    (h : ∀ item ∈ items, item.Whole) (hsum : n + (items.map (·.subtotal)).sum < 2 ^ 53) :
    calculatedSubtotal n items = n + (items.map (·.subtotal)).sum := by
  induction items generalizing n with
  | nil => exact (add_zero _).symm
  | cons item items ih =>
    obtain ⟨hitem, hitems⟩ := List.forall_mem_cons.mp h
    obtain ⟨m, hm⟩ := hitem.subtotal
    have hrest := sum_nonneg_of_whole hitems
    rw [List.map_cons, List.sum_cons, hm] at hsum ⊢
    have hlt : n + m < 2 ^ 53 := by
      have : (n : ℚ) + m < 2 ^ 53 := by linarith
      exact_mod_cast this
    have hstep : Binary64.round ((n : ℚ) + number item.subtotal) = (n + m : ℕ) := by
      rw [hm, number_natCast (by omega), ← Nat.cast_add, Binary64.round_natCast hlt]
    show calculatedSubtotal (Binary64.round ((n : ℚ) + number item.subtotal)) items = _
    rw [hstep, ih hitems (by push_cast; linarith)]
    push_cast
    ring

/-- No line is more than what all come to. -/
theorem SyncTransactionDto.Whole.subtotal_lt {data : SyncTransactionDto} (h : data.Whole)
    {item : SyncItemDto} (hitem : item ∈ data.items) : item.subtotal < 2 ^ 53 := by
  have hle : item.subtotal ≤ (data.items.map (·.subtotal)).sum := by
    refine List.single_le_sum ?_ _ (List.mem_map_of_mem hitem)
    rw [List.forall_mem_map]
    exact fun item hitem => (h.items item hitem).nonneg
  exact lt_of_le_of_lt hle h.sum

/-- A whole line is checked exactly. -/
theorem SyncTransactionDto.Whole.item_iff {data : SyncTransactionDto} (h : data.Whole)
    {item : SyncItemDto} (hitem : item ∈ data.items) : item.product = number item.subtotal ↔
      (item.quantity : ℚ) * item.unitPrice = item.subtotal := by
  have hlt := h.subtotal_lt hitem
  obtain ⟨n, hn⟩ := (h.items item hitem).subtotal
  rw [hn] at hlt ⊢
  rw [(h.items item hitem).product_eq, number_natCast (by exact_mod_cast hlt)]

/-- **On whole amounts the check is exact.** -/
theorem arithmetic_iff_exact {data : SyncTransactionDto} (h : data.Whole) :
    data.Arithmetic ↔ data.ExactArithmetic := by
  obtain ⟨n, hn, hnlt⟩ := h.subtotal
  obtain ⟨m, hm, hmlt⟩ := h.total
  have hsum : calculatedSubtotal 0 data.items = (data.items.map (·.subtotal)).sum := by
    have heq := calculatedSubtotal_eq (n := 0) h.items (by
      rw [Nat.cast_zero, zero_add]
      exact h.sum)
    rwa [Nat.cast_zero, zero_add] at heq
  constructor
  · rintro ⟨items, subtotal, total⟩
    rw [hsum, hn, number_natCast hnlt, ← hn] at subtotal
    rw [hsum, hm, number_natCast hmlt, ← hm] at total
    exact ⟨fun item hitem => (h.item_iff hitem).mp (items item hitem), subtotal, total⟩
  · rintro ⟨items, subtotal, total⟩
    refine ⟨fun item hitem => (h.item_iff hitem).mpr (items item hitem), ?_, ?_⟩
    · rw [hsum, subtotal, hn, number_natCast hnlt]
    · rw [hsum, total, hm, number_natCast hmlt]

/-! ## The stock check -/

/-- The row that `SELECT … FOR UPDATE` returns. -/
structure InventoryData where
  currentStock : ℤ
  isActive : Bool
  deriving DecidableEq

/-- `SELECT i.current_stock, p.is_active FROM "Inventory" i JOIN "Product" p …`. -/
def Db.selectForUpdate (db : Db) (idProduct : Ident) : Option InventoryData := do
  let i ← db.inventories.findUnique (.product idProduct)
  let p ← db.products.findUnique (.id i.idProduct)
  return ⟨i.currentStock, p.isActive⟩

/-- Whether a line conflicts with the row selected for it. -/
def SyncItemDto.conflictsWith (item : SyncItemDto) (inventoryData : Option InventoryData) :
    Bool :=
  match inventoryData with
  | none => true
  | some inv => !inv.isActive || decide (inv.currentStock < item.quantity)

/-- `checkStockAvailability`: true at the first line that conflicts. -/
def checkStockAvailability (db : Db) : List SyncItemDto → Bool
  | [] => false
  | item :: items =>
      if item.conflictsWith (db.selectForUpdate item.idProduct) then true
      else checkStockAvailability db items

theorem checkStockAvailability_eq_false {db : Db} {items : List SyncItemDto} :
    checkStockAvailability db items = false ↔
      ∀ item ∈ items, item.conflictsWith (db.selectForUpdate item.idProduct) = false := by
  induction items with
  | nil => simp [checkStockAvailability]
  | cons item items ih =>
    rw [checkStockAvailability, List.forall_mem_cons, ← ih]
    cases item.conflictsWith (db.selectForUpdate item.idProduct) <;> simp

/-- What a selected row says of the database. -/
theorem selectForUpdate_eq_some {db : Db} {p : Ident} {inv : InventoryData}
    (h : db.selectForUpdate p = some inv) :
    db.stock p = inv.currentStock ∧ db.inventories.has (.product p) = true ∧
      ∃ q, db.products.findUnique (.id p) = some q ∧ q.isActive = inv.isActive := by
  obtain ⟨i, hi, h⟩ := Option.bind_eq_some_iff.mp h
  obtain ⟨q, hq, h⟩ := Option.bind_eq_some_iff.mp h
  obtain rfl : (⟨i.currentStock, q.isActive⟩ : InventoryData) = inv := Option.some.inj h
  have hip : i.idProduct = p := by
    have := (Table.findUnique_eq_some.mp hi).2
    simpa [UniqueKeys.keys, eq_comm] using this
  subst hip
  refine ⟨?_, ?_, q, hq, rfl⟩
  · unfold Db.stock stockIn
    rw [hi]
    rfl
  · unfold Table.has
    rw [hi]
    rfl

/-- A line without a conflict fits the stock of an active product. -/
theorem conflictsWith_eq_false {item : SyncItemDto} {row : Option InventoryData} :
    item.conflictsWith row = false ↔
      ∃ inv, row = some inv ∧ inv.isActive = true ∧ item.quantity ≤ inv.currentStock := by
  cases row with
  | none => simp [SyncItemDto.conflictsWith]
  | some inv =>
    unfold SyncItemDto.conflictsWith
    cases inv.isActive <;> simp

/-! ## Storing the sale -/

/-- The row of `createTransactionHeader`. -/
def headerRow (db : Db) (data : QueuedTransaction) (device : Device) (hasConflict : Bool)
    (createdAtLocal now : DateTime) : Transaction where
  idTransaction := db.newId
  idMerchant := device.idMerchant
  idUser := device.idUser
  idDevice := data.idDevice
  status := if hasConflict then .PENDING else .CONFIRMED
  syncStatus := if hasConflict then .SYNC_CONFLICT else .SYNCED
  createdAtLocal := some createdAtLocal
  createdAt := now
  confirmedAt := if hasConflict then none else some now
  syncedAt := some now
  total := data.total
  subtotal := data.subtotal
  offlineUuid := some data.offlineUuid
  payloadHash := data.payloadHash
  notes := data.notes
  voidedAt := none
  voidedBy := none
  voidReason := none

def createTransactionHeader (db : Db) (data : QueuedTransaction) (device : Device)
    (hasConflict : Bool) (now : DateTime) : Except Err Db := do
  let createdAtLocal ← toDate "created_at_local" data.createdAtLocal
  db.createTransaction (headerRow db data device hasConflict createdAtLocal now)

/-- `item.catalog_version ? new Date(item.catalog_version) : new Date()`. -/
def SyncItemDto.catalogDate (item : SyncItemDto) (now : DateTime) : Option DateTime :=
  if item.catalogVersion.text = "" then some now else item.catalogVersion.date

/-- A row of `createTransactionDetails`. -/
def detailRow (txId : Ident) (now : DateTime) (item : SyncItemDto) : DetailTransaction where
  idTransaction := txId
  idProduct := item.idProduct
  quantity := item.quantity
  unitPrice := item.unitPrice
  subtotal := item.subtotal
  productName := item.productName
  skuSnapshot := item.skuSnapshot
  catalogVersion := (item.catalogDate now).getD now

def createTransactionDetails (db : Db) (txId : Ident) (items : List SyncItemDto)
    (now : DateTime) : Except Err Db := do
  forM items fun item =>
    require (item.catalogDate now).isSome (.invalidArgument "catalog_version")
  db.createManyDetails (items.map (detailRow txId now))

/-- The row of `createPayment`. -/
def paymentRow (db : Db) (txId merchantId : Ident) (payment : SyncPaymentDto)
    (now : DateTime) : Payment where
  idPayment := db.newId
  idTransaction := txId
  idMerchant := merchantId
  amount := payment.amount
  method := payment.method
  status := .VERIFIED
  cashReceived := payment.cashReceived
  changeAmount := payment.changeAmount
  qrisCode := payment.qrisCode
  transferRef := payment.transferRef
  verifiedAt := some now
  verifiedBy := none
  createdAt := now

def createPayment (db : Db) (txId merchantId : Ident) (payment : SyncPaymentDto)
    (now : DateTime) : Except Err Db :=
  db.createPayment (paymentRow db txId merchantId payment now)

/-- The movement of `deductInventory` for a line. -/
def saleMovement (data : QueuedTransaction) (txId merchantId : Ident) (item : SyncItemDto) :
    AdjustInventoryParams where
  idProduct := item.idProduct
  idMerchant := merchantId
  -- this user has to exist, and no service creates it
  idUser := systemSync
  idTransaction := some txId
  quantityChange := -item.quantity
  movementType := .SALE
  notes := s!"Sold via offline sync (device: {data.idDevice})"

def deductInventory (db : Db) (data : QueuedTransaction) (txId merchantId : Ident)
    (now : DateTime) : Except Err Db :=
  adjustEach db now (data.items.map (saleMovement data txId merchantId))

/-- `processTransaction` after the stock check. -/
def storeTransaction (db : Db) (data : QueuedTransaction) (hasConflict : Bool)
    (now : DateTime) : Except Err Db := do
  -- looked up after the stock check
  let device ← orThrow (db.devices.findUnique (.id data.idDevice))
    (.syncConflict .SYNC_CONSTRAINT_VIOLATION s!"Device {data.idDevice} not found.")
  let txId := db.newId
  let db ← createTransactionHeader db data device hasConflict now
  let db ← createTransactionDetails db txId data.items now
  let db ← createPayment db txId device.idMerchant data.payment now
  if hasConflict then
    return db
  else
    deductInventory db data txId device.idMerchant now

/-- `processTransaction`: the body of its database transaction. -/
def processTransaction (db : Db) (data : QueuedTransaction) (now : DateTime) :
    Except Err Db := do
  validateArithmetic data.toSyncTransactionDto
  let hasConflict := checkStockAvailability db data.items
  storeTransaction db data hasConflict now

/-! ## What storing a sale needs and leaves -/

/-- Every value of the payload fits its column. -/
structure SyncTransactionDto.ValuesFit (data : SyncTransactionDto) : Prop where
  total : fitsDecimal data.total = true
  subtotal : fitsDecimal data.subtotal = true
  items : ∀ item ∈ data.items, fitsInt item.quantity = true ∧
    fitsDecimal item.unitPrice = true ∧ fitsDecimal item.subtotal = true
  amount : fitsDecimal data.payment.amount = true
  cashReceived : data.payment.cashReceived.all fitsDecimal = true
  changeAmount : data.payment.changeAmount.all fitsDecimal = true

/-- Every date of the payload parses. -/
structure SyncTransactionDto.DatesParse (data : SyncTransactionDto) : Prop where
  createdAtLocal : data.createdAtLocal.date.isSome
  catalogVersion : ∀ item ∈ data.items,
    item.catalogVersion.text = "" ∨ item.catalogVersion.date.isSome

theorem catalogDate_isSome {item : SyncItemDto} {now : DateTime} :
    (item.catalogDate now).isSome ↔
      item.catalogVersion.text = "" ∨ item.catalogVersion.date.isSome := by
  unfold SyncItemDto.catalogDate
  split
  · rename_i h
    simp [h]
  · rename_i h
    simp [h]

/-- The database after the header, the details and the payment of a sale. -/
def withSale (db : Db) (data : QueuedTransaction) (now : DateTime) (ts : Table Transaction)
    (ps : Table Payment) : Db :=
  { db with
    transactions := ts
    details := db.details ++ (data.items.map (detailRow db.newId now)).map (·.stored)
    payments := ps
    seq := db.seq + 1 + 1 }

/-- The rows that a sale of the device `d` inserts can be inserted: `ts` and `ps` are the
tables with the header and the payment. -/
structure Insertable (db : Db) (data : QueuedTransaction) (hasConflict : Bool)
    (now : DateTime) (d : Device) (createdAtLocal : DateTime) (ts : Table Transaction)
    (ps : Table Payment) : Prop where
  device : db.devices.findUnique (.id data.idDevice) = some d
  merchant : db.merchants.has (.id d.idMerchant) = true
  user : db.users.has (.id d.idUser) = true
  values : data.ValuesFit
  created : data.createdAtLocal.date = some createdAtLocal
  catalog : ∀ item ∈ data.items, (item.catalogDate now).isSome
  products : ∀ item ∈ data.items, db.products.has (.id item.idProduct) = true
  header : db.transactions.insert
    (headerRow db data d hasConflict createdAtLocal now).stored = some ts
  payment : db.payments.insert (paymentRow { db with transactions := ts, seq := db.seq + 1 }
    db.newId d.idMerchant data.payment now).stored = some ps

/-- **Storing a sale**: what `processTransaction` needs and leaves after the stock check. -/
theorem storeTransaction_eq_ok {db db' : Db} {data : QueuedTransaction} {hasConflict : Bool}
    {now : DateTime} : storeTransaction db data hasConflict now = .ok db' ↔
      ∃ d createdAtLocal ts ps, Insertable db data hasConflict now d createdAtLocal ts ps ∧
        if hasConflict then db' = withSale db data now ts ps
        else deductInventory (withSale db data now ts ps) data db.newId d.idMerchant now
          = .ok db' := by
  unfold storeTransaction createTransactionHeader createTransactionDetails createPayment
  simp only [bind_eq_ok, orThrow_eq_ok, toDate_eq_ok, createTransaction_eq_ok, forM_eq_ok,
    require_eq_ok, createManyDetails_eq_ok, createPayment_eq_ok, acceptsDetail_eq_ok,
    List.forall_mem_map, exists_const]
  constructor
  · rintro ⟨d, hd, _, ⟨t, ht, htot, hsub, -, hm, hu, -, ts, hts, rfl⟩, _, ⟨hcat, hdet, rfl⟩,
      _, ⟨hamt, hcash, hchange, -, -, -, ps, hps, rfl⟩, hend⟩
    refine ⟨d, t, ts, ps, ⟨hd, hm, hu, ⟨htot, hsub, ?_, hamt, hcash, hchange⟩, ht, hcat,
      ?_, hts, hps⟩, ?_⟩
    · intro item hitem
      obtain ⟨hq, hprice, hitemsub, -, -⟩ := hdet item hitem
      exact ⟨hq, hprice, hitemsub⟩
    · intro item hitem
      exact (hdet item hitem).2.2.2.2
    · cases hasConflict
      · exact hend
      · exact (pure_eq_ok.mp hend).symm
  · rintro ⟨d, t, ts, ps, ⟨hd, hm, hu, ⟨htot, hsub, hval, hamt, hcash, hchange⟩, ht, hcat,
      hprod, hts, hps⟩, hend⟩
    have hdev : db.devices.has (.id data.idDevice) = true := by
      simp [Table.has, hd]
    have hnew : ts.has (.id db.newId) = true :=
      (Table.has_of_insert hts).mpr (Or.inr List.mem_cons_self)
    refine ⟨d, hd, _, ⟨t, ht, htot, hsub, rfl, hm, hu, hdev, ts, hts, rfl⟩, _, ⟨hcat, ?_, rfl⟩,
      _, ⟨hamt, hcash, hchange, rfl, hnew, hm, ps, hps, rfl⟩, ?_⟩
    · intro item hitem
      obtain ⟨hq, hprice, hitemsub⟩ := hval item hitem
      exact ⟨hq, hprice, hitemsub, hnew, hprod item hitem⟩
    · cases hasConflict
      · exact hend
      · exact pure_eq_ok.mpr hend.symm

end KPos
