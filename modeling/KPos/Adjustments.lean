/-
# Manual adjustments side by side (`products.service.ts`)

`adjustStock` reads the stock and tests what it would become, and increments it in a database
transaction of its own.  Sales are synchronised in between; each of them has its products
locked from the check to the deduction.

* `stockCalls` : both as requests that check first and act later, with the answers given;
* `Counts` : no stock is negative, and every answer adds up;
* `adjustments_count` : if adjustments are of whole pieces, and the stock is still the one that
  was read whenever one writes, both hold in every run;
* `adjusts_iff` : for one write, the condition is exact;
* `adjustments_overdraw` : two adjustments that both read first.
-/
import KPos.Lib.TwoStep
import KPos.Locking

namespace KPos

/-! ## The requests -/

/-- A request that changes stock. -/
inductive StockCall where
  | adjustStock (user : JwtPayload) (productId : Ident) (dto : AdjustStockDto) (now : DateTime)
  | sync (data : QueuedTransaction) (now : DateTime)

/-- The database, and what `adjustStock` has answered, with the quantities asked for. -/
structure Counter where
  db : Db
  answers : List (ℚ × StockAdjusted)

/-- What a call of `adjustStock` answers after its writes. -/
def StockRead.answer (read : StockRead) (db' : Db) (user : JwtPayload) :
    Except Err StockAdjusted := do
  let updated ← orThrow (db'.inventories.findUnique (.id read.inventory.idInventory))
    (.recordNotFound "Inventory")
  return ⟨read.product.idProduct, read.inventory.currentStock, updated.currentStock,
    Products.newestHistory db' user read.product.idProduct⟩

/-- The database transaction of a request; a sale has read nothing before its own. -/
def Counter.write (c : Counter) : StockCall → Option StockRead → Except Err Counter
  | .adjustStock user _ dto now, some read => do
      let db' ← Products.adjustStockWrite c.db user read dto now
      let answer ← read.answer db' user
      return ⟨db', c.answers ++ [(dto.quantity, answer)]⟩
  | .adjustStock .., none => .ok c
  | .sync data now, _ => do
      let db' ← processTransaction c.db data now
      return { c with db := db' }

/-- What a request reads before its database transaction. -/
def StockCall.read (db : Db) : StockCall → Option (Option StockRead)
  | .adjustStock user productId dto _ =>
      (Products.adjustStockRead db user productId dto).toOption.map some
  | .sync .. => some none

/-- The requests. -/
def stockCalls : TwoStep Counter StockCall (Option StockRead) where
  read c call := call.read c.db
  write c call read := (c.write call read).toOption

abbrev StockSession := TwoStep.Session Counter StockCall (Option StockRead)

/-- `adjustStock` reads, writes and answers. -/
theorem adjustStock_eq (db : Db) (user : JwtPayload) (productId : Ident) (dto : AdjustStockDto)
    (now : DateTime) : Products.adjustStock db user productId dto now =
      Products.adjustStockRead db user productId dto >>= fun read =>
      Products.adjustStockWrite db user read dto now >>= fun db' =>
      read.answer db' user >>= fun answer => pure (answer, db') := by
  unfold Products.adjustStock StockRead.answer
  simp only [bind_assoc, pure_bind]

/-! ## What should hold, and when -/

/-- No stock is negative, and every answer adds up. -/
def Counts (c : Counter) : Prop :=
  (∀ p, 0 ≤ c.db.stock p) ∧
    ∀ answer ∈ c.answers, (answer.2.previousStock : ℚ) + answer.1 = answer.2.currentStock

/-- A sale that is deducted asks for no more of a product than there is. -/
def Available (c : Counter) : StockCall → Option StockRead → Prop
  | .sync data _, _ => checkStockAvailability c.db data.items = false →
      ∀ item ∈ data.items, demand item.idProduct data.items ≤ c.db.stock item.idProduct
  | .adjustStock .., _ => True

instance decidableAvailable (c : Counter) : (call : StockCall) → (read : Option StockRead) →
    Decidable (Available c call read)
  | .sync data _, _ => inferInstanceAs (Decidable (checkStockAvailability c.db data.items = false →
      ∀ item ∈ data.items, demand item.idProduct data.items ≤ c.db.stock item.idProduct))
  | .adjustStock .., _ => .isTrue trivial

/-- The stock that an adjustment writes to is the one that it has read. -/
def StillInStock (c : Counter) : StockCall → Option StockRead → Prop
  | .adjustStock .., some read =>
      c.db.stock read.product.idProduct = read.inventory.currentStock
  | _, _ => True

instance decidableStillInStock (c : Counter) : (call : StockCall) → (read : Option StockRead) →
    Decidable (StillInStock c call read)
  | .adjustStock .., some read => inferInstanceAs (Decidable
      (c.db.stock read.product.idProduct = read.inventory.currentStock))
  | .adjustStock .., none | .sync .., _ => .isTrue trivial

/-- An adjustment asks for whole pieces. -/
def StockCall.Whole : StockCall → Prop
  | .adjustStock _ _ dto _ => (truncate dto.quantity : ℚ) = dto.quantity
  | .sync .. => True

instance decidableWhole : (call : StockCall) → Decidable call.Whole
  | .adjustStock _ _ dto _ =>
      inferInstanceAs (Decidable ((truncate dto.quantity : ℚ) = dto.quantity))
  | .sync .. => .isTrue trivial

/-- The condition on a write. -/
def Steady (c : Counter) (call : StockCall) (read : Option StockRead) : Prop :=
  Available c call read ∧ StillInStock c call read ∧ call.Whole

instance (c : Counter) (call : StockCall) (read : Option StockRead) :
    Decidable (Steady c call read) := inferInstanceAs (Decidable (_ ∧ _ ∧ _))

/-- A read whose inventory is still the one of its product, and whose test passed. -/
structure StockRead.AsTested (read : StockRead) (db : Db) (dto : AdjustStockDto) : Prop where
  product : read.inventory.idProduct = read.product.idProduct
  inventory : (db.inventories.findUnique (.id read.inventory.idInventory)).map (·.idProduct)
    = some read.inventory.idProduct
  tested : 0 ≤ read.inventory.currentStock + dto.quantity

/-- What a pending request has read. -/
def StockCall.AsTested (c : Counter) : StockCall → Option StockRead → Prop
  | .adjustStock _ _ dto _, some read => read.AsTested c.db dto
  | .adjustStock .., none => False
  | .sync .., _ => True

section Writes

variable {db db' : Db} {user : JwtPayload} {productId : Ident} {dto : AdjustStockDto}
  {read : StockRead} {now : DateTime} {answer : StockAdjusted} {c c' : Counter}

/-- What the lookup of an adjustment establishes. -/
theorem adjustStockRead_asTested
    (h : Products.adjustStockRead db user productId dto = .ok read) : read.AsTested db dto := by
  unfold Products.adjustStockRead at h
  simp only [bind_eq_ok, orThrow_eq_ok, require_eq_ok, pure_eq_ok, decide_eq_true_eq,
    exists_const] at h
  obtain ⟨product, -, inventory, hinventory, htested, rfl⟩ := h
  obtain ⟨hmem, hkey⟩ := Table.findUnique_eq_some.mp hinventory
  refine ⟨by simpa [UniqueKeys.keys, eq_comm] using hkey, ?_, htested⟩
  have hfound := Table.findUnique_eq_some.mpr
    ⟨hmem, (List.mem_cons_self : InventoryKey.id inventory.idInventory ∈ UniqueKeys.keys inventory)⟩
  rw [hfound]
  rfl

/-- **What an adjustment leaves**: the stock of its product moved by its whole pieces. -/
theorem adjustStockWrite_stock (h : Products.adjustStockWrite db user read dto now = .ok db')
    (p : Ident) : db'.stock p
      = db.stock p + if read.product.idProduct = p then truncate dto.quantity else 0 := by
  obtain ⟨n, hn, h⟩ := bind_eq_ok.mp h
  obtain ⟨rfl, -⟩ := toInt_eq_ok.mp hn
  rw [(adjustInventoryAndHistory_moved h).stock p, movement_singleton]
  rfl

/-- Increments leave an inventory with its product. -/
theorem adjustEach_inventory {l : List AdjustInventoryParams} {i p : Ident}
    (h : adjustEach db now l = .ok db')
    (hi : (db.inventories.findUnique (.id i)).map (·.idProduct) = some p) :
    (db'.inventories.findUnique (.id i)).map (·.idProduct) = some p := by
  refine foldlM_invariant
    (fun db => (db.inventories.findUnique (.id i)).map (·.idProduct) = some p) ?_ hi h
  intro db₁ a db₂ _ hdb₁ hstep
  obtain ⟨-, -, rfl⟩ := adjustInventoryAndHistory_eq_ok.mp hstep
  exact Table.map_findUnique_update (fun _ => rfl) hdb₁

theorem adjustStockWrite_inventory {i p : Ident}
    (h : Products.adjustStockWrite db user read dto now = .ok db')
    (hi : (db.inventories.findUnique (.id i)).map (·.idProduct) = some p) :
    (db'.inventories.findUnique (.id i)).map (·.idProduct) = some p := by
  obtain ⟨n, -, h⟩ := bind_eq_ok.mp h
  obtain ⟨-, -, rfl⟩ := adjustInventoryAndHistory_eq_ok.mp h
  exact Table.map_findUnique_update (fun _ => rfl) hi

theorem processTransaction_inventory {data : QueuedTransaction} {i p : Ident}
    (h : processTransaction db data now = .ok db')
    (hi : (db.inventories.findUnique (.id i)).map (·.idProduct) = some p) :
    (db'.inventories.findUnique (.id i)).map (·.idProduct) = some p := by
  obtain ⟨_, -, h⟩ := bind_eq_ok.mp h
  obtain ⟨d, created, ts, ps, -, hend⟩ := storeTransaction_eq_ok.mp h
  split at hend
  · rw [hend]
    exact hi
  · exact adjustEach_inventory hend hi

/-- **What `adjustStock` answers**: the stock that it leaves. -/
theorem answer_eq (hread : read.AsTested db dto)
    (hwrite : Products.adjustStockWrite db user read dto now = .ok db')
    (hanswer : read.answer db' user = .ok answer) :
    answer.previousStock = read.inventory.currentStock ∧
      answer.currentStock = db.stock read.product.idProduct + truncate dto.quantity := by
  unfold StockRead.answer at hanswer
  simp only [bind_eq_ok, orThrow_eq_ok, pure_eq_ok] at hanswer
  obtain ⟨updated, hupdated, rfl⟩ := hanswer
  refine ⟨rfl, ?_⟩
  -- the row that is answered is the one of the product
  have hproduct := adjustStockWrite_inventory hwrite hread.inventory
  rw [hupdated, Option.map_some, hread.product] at hproduct
  have hid := Option.some.inj hproduct
  have hfound := Table.findUnique_eq_some.mpr ⟨(Table.findUnique_eq_some.mp hupdated).1,
    (by simp [UniqueKeys.keys, hid] : InventoryKey.product read.product.idProduct ∈
      UniqueKeys.keys updated)⟩
  have hstock : db'.stock read.product.idProduct = updated.currentStock := by
    unfold Db.stock stockIn
    rw [hfound]
    rfl
  have hnew := adjustStockWrite_stock hwrite read.product.idProduct
  rwa [hstock, if_pos rfl] at hnew

/-- A whole number and a number without its decimals make up the number only together. -/
theorem add_eq_add_truncate {n m : ℤ} {x : ℚ} :
    (n : ℚ) + x = ((m + truncate x : ℤ) : ℚ) ↔ m = n ∧ (truncate x : ℚ) = x := by
  push_cast
  constructor
  · intro h
    -- the two differ by a whole number, and by less than one
    have hlt : |(m : ℚ) - n| < 1 := by
      have hcut := abs_sub_truncate_lt x
      rwa [show x - truncate x = m - n by linarith] at hcut
    have hmn : m - n = 0 := Int.abs_lt_one_iff.mp (by exact_mod_cast hlt)
    obtain rfl : m = n := by omega
    exact ⟨rfl, by linarith⟩
  · rintro ⟨rfl, h⟩
    rw [h]

/-- **For one write, the condition is exact.** -/
theorem adjusts_iff (hread : read.AsTested db dto)
    (hwrite : Products.adjustStockWrite db user read dto now = .ok db')
    (hanswer : read.answer db' user = .ok answer) :
    (answer.previousStock : ℚ) + dto.quantity = answer.currentStock ↔
      db.stock read.product.idProduct = read.inventory.currentStock ∧
        (truncate dto.quantity : ℚ) = dto.quantity := by
  obtain ⟨hprevious, hcurrent⟩ := answer_eq hread hwrite hanswer
  rw [hprevious, hcurrent]
  exact add_eq_add_truncate

/-- An adjustment of the stock that it has read keeps the count. -/
theorem Counts.adjust (hc : Counts c) (hread : read.AsTested c.db dto)
    (hsame : c.db.stock read.product.idProduct = read.inventory.currentStock)
    (hwhole : (truncate dto.quantity : ℚ) = dto.quantity)
    (hwrite : Products.adjustStockWrite c.db user read dto now = .ok db')
    (hanswer : read.answer db' user = .ok answer) :
    Counts ⟨db', c.answers ++ [(dto.quantity, answer)]⟩ := by
  constructor
  · intro p
    show 0 ≤ db'.stock p
    rw [adjustStockWrite_stock hwrite p]
    by_cases hp : read.product.idProduct = p
    · -- the test was made on this stock
      have htested := hread.tested
      rw [← hsame, hp] at htested
      rw [if_pos hp]
      exact add_truncate_nonneg htested
    · rw [if_neg hp, add_zero]
      exact hc.1 p
  · intro a ha
    rcases List.mem_append.mp ha with ha | ha
    · exact hc.2 a ha
    · rw [List.mem_singleton.mp ha]
      exact (adjusts_iff hread hwrite hanswer).mpr ⟨hsame, hwhole⟩

/-- A sale of what there is keeps the count. -/
theorem Counts.sync (hc : Counts c) {data : QueuedTransaction}
    (havailable : checkStockAvailability c.db data.items = false →
      ∀ item ∈ data.items, demand item.idProduct data.items ≤ c.db.stock item.idProduct)
    (h : processTransaction c.db data now = .ok db') : Counts { c with db := db' } := by
  refine ⟨fun p => ?_, hc.2⟩
  obtain ⟨-, d, created, hstored⟩ := processTransaction_stored h
  have hstock := hstored.entered.stock p
  have hold := hc.1 p
  cases hcheck : checkStockAvailability c.db data.items with
  | true =>
    rw [hcheck, if_pos rfl, movement_nil] at hstock
    show 0 ≤ db'.stock p
    omega
  | false =>
    rw [hcheck, if_neg Bool.false_ne_true] at hstock
    unfold saleHistories at hstock
    rw [movement_saleHistories] at hstock
    show 0 ≤ db'.stock p
    by_cases hp : ∃ item ∈ data.items, item.idProduct = p
    · obtain ⟨item, hitem, rfl⟩ := hp
      have hdemand := havailable hcheck item hitem
      omega
    · -- the sale has no line of this product
      rw [demand_eq_zero fun item hitem heq => hp ⟨item, hitem, heq⟩] at hstock
      omega

end Writes

/-! ## Runs -/

/-- **What a write of a request is**: that of a sale, or that of an adjustment with its answer. -/
theorem write_cases {c c' : Counter} {call : StockCall} {read : Option StockRead}
    (hread : call.AsTested c read) (h : c.write call read = .ok c') :
    (∃ data now, call = .sync data now ∧ processTransaction c.db data now = .ok c'.db ∧
        c' = { c with db := c'.db }) ∨
      ∃ user productId dto now r answer, call = .adjustStock user productId dto now ∧
        read = some r ∧ Products.adjustStockWrite c.db user r dto now = .ok c'.db ∧
        r.answer c'.db user = .ok answer ∧
        c' = ⟨c'.db, c.answers ++ [(dto.quantity, answer)]⟩ := by
  cases call with
  | sync data now =>
    simp only [Counter.write, bind_eq_ok, pure_eq_ok] at h
    obtain ⟨db', hdb', rfl⟩ := h
    exact Or.inl ⟨data, now, rfl, hdb', rfl⟩
  | adjustStock user productId dto now =>
    cases read with
    | none => exact hread.elim
    | some read =>
      simp only [Counter.write, bind_eq_ok, pure_eq_ok] at h
      obtain ⟨db', hdb', answer, hanswer, rfl⟩ := h
      exact Or.inr ⟨user, productId, dto, now, read, answer, rfl, rfl, hdb', hanswer, rfl⟩

/-- The requests keep the count, and what pending ones have read stays as tested. -/
theorem stockCalls_discipline :
    TwoStep.Discipline stockCalls (fun _ _ => True) Steady Counts StockCall.AsTested where
  read := by
    intro c call read _ _ h
    cases call with
    | sync data now => trivial
    | adjustStock user productId dto now =>
      obtain ⟨r, hr, rfl⟩ := Option.map_eq_some_iff.mp h
      exact adjustStockRead_asTested (toOption_eq_some hr)
  write := by
    intro c call read c' hc hread hsteady h
    rcases write_cases hread (toOption_eq_some h) with
      ⟨data, now, rfl, hdb', hc'⟩ | ⟨user, productId, dto, now, r, answer, rfl, rfl, hdb', ha, hc'⟩
    · rw [hc']
      exact hc.sync hsteady.1 hdb'
    · rw [hc']
      exact hc.adjust hread hsteady.2.1 hsteady.2.2 hdb' ha
  stable := by
    intro c call read c' call' read' hc hread hsteady h hread'
    cases call' with
    | sync data now => trivial
    | adjustStock user' productId' dto' now' =>
      cases read' with
      | none => exact hread'.elim
      | some read' =>
        refine ⟨hread'.product, ?_, hread'.tested⟩
        rcases write_cases hread (toOption_eq_some h) with
          ⟨data, now, -, hdb', -⟩ | ⟨user, productId, dto, now, r, answer, -, -, hdb', -, -⟩
        · exact processTransaction_inventory hdb' hread'.inventory
        · exact adjustStockWrite_inventory hdb' hread'.inventory

/-- **No stock is negative and every answer adds up**, in every run in which each adjustment
is of whole pieces and writes to the stock that it has read. -/
theorem adjustments_count {db : Db} {as : List (TwoStep.Action StockCall)} {σ : StockSession}
    (hstock : ∀ p, 0 ≤ db.stock p)
    (hrun : Runs.Run stockCalls.next (TwoStep.Meets (fun _ _ => True) Steady)
      (TwoStep.start ⟨db, []⟩) as σ) : Counts σ.store :=
  (stockCalls_discipline.session ⟨hstock, fun _ h => absurd h List.not_mem_nil⟩ hrun).1

/-! ## The shop -/

/-- Ten pieces are taken out by hand. -/
def takeTen : StockCall := .adjustStock shopOwner shopProduct ⟨-10, none⟩ 1

/-- Three pieces are sold. -/
def sellThree : StockCall := .sync (shopQueued shopDevice "a" [3]) 1

/-- An adjustment that reads after the sale of three pieces takes seven out. -/
def thenAdjusted : List (TwoStep.Action StockCall) :=
  [.read sellThree, .write 0, .read (.adjustStock shopOwner shopProduct ⟨-7, none⟩ 2), .write 0]

/-- Nobody else writes after the adjustment has read. -/
theorem adjustments_count_afterSale : ∃ σ : StockSession,
    σ.store.answers.length = 1 ∧ σ.store.db.stock shopProduct = 0 ∧ Counts σ.store := by
  have hcheck : (Runs.runs stockCalls.next
      (fun σ a => decide (TwoStep.Meets (fun _ _ => True) Steady σ a))
      (TwoStep.start ⟨shop, []⟩) thenAdjusted).any (fun σ => decide
        (σ.store.answers.length = 1 ∧ σ.store.db.stock shopProduct = 0)) = true := by
    decide +kernel
  obtain ⟨σ, hrun, hstate⟩ := Runs.exists_run_of_runs hcheck
  have hrun := hrun.weaken fun _ _ h => of_decide_eq_true h
  obtain ⟨hanswers, hstock⟩ := of_decide_eq_true hstate
  exact ⟨σ, hanswers, hstock, adjustments_count stock_nonneg_shop hrun⟩

/-- Two adjustments that both read first. -/
def bothTakeTen : List (TwoStep.Action StockCall) :=
  [.read takeTen, .read takeTen, .write 0, .write 0]

/-- **Manual adjustments drive the stock negative**: both have read it before the first one
writes. -/
theorem adjustments_overdraw : ¬ ∀ (db : Db) (as : List (TwoStep.Action StockCall))
    (σ : StockSession), (∀ p, 0 ≤ db.stock p) →
      Runs.Run stockCalls.next (TwoStep.Meets (fun _ _ => True) Available)
        (TwoStep.start ⟨db, []⟩) as σ → Counts σ.store := by
  intro h
  have hcheck : (Runs.runs stockCalls.next
      (fun σ a => decide (TwoStep.Meets (fun _ _ => True) Available σ a))
      (TwoStep.start ⟨shop, []⟩) bothTakeTen).any (fun σ => decide
        (σ.store.db.stock shopProduct = -10)) = true := by decide +kernel
  obtain ⟨σ, hrun, hstock⟩ := Runs.exists_run_of_runs hcheck
  have hrun := hrun.weaken fun _ _ h => of_decide_eq_true h
  have hnonneg := (h shop bothTakeTen σ stock_nonneg_shop hrun).1 shopProduct
  rw [of_decide_eq_true hstock] at hnonneg
  omega

end KPos
