/-
# Lists in pages (`products.service.ts`, `transactions.service.ts`)

Both lists are read newest first, one row more than the page may hold, and the row too many
becomes the cursor of the next page.  The list of transactions begins the next page at that
row; the list of products skips it.

* `Products.findAll`, `Transactions.findAll` : the two services;
* `products_listed_iff` : the pages of the products show all of them exactly when one page
  does;
* `products_lost` : a catalogue of two products in pages of one;
* `transactions_listed` : the pages of the transactions show every one that was there at the
  first call, whatever sales arrive in between.
-/
import KPos.Lib.Paging
import KPos.DeadLetters
import KPos.Uploads

namespace KPos

open Paging (Page)

/-! ## What both services share -/

/-- The answer of a list: the rows of a page and the `meta` of the page. -/
structure Listing (R : Type) where
  items : List R
  nextCursor : Option Ident
  limit : ℕ

/-- `findMany` with `orderBy: { created_at: 'desc' }`: `cursor` names the first row, `skip` drops
rows from there on, and `take` limits them. -/
def findMany {R : Type} (createdAt : R → DateTime) (id : R → Ident) (rows : List R)
    (cursor : Option Ident) (skip take : ℕ) : List R :=
  ((Paging.fromCursor id (Paging.descending createdAt rows) cursor).drop skip).take take

/-! ## Products -/

structure QueryProductsDto where
  search : Option String
  cursor : Option Ident
  limit : Option ℕ
  isActive : Option Bool

/-- A product with `include: { inventory: true }`. -/
structure FoundProduct where
  product : Product
  inventory : Option Inventory

/-- White space and line terminators. -/
def isSpace (c : Char) : Bool :=
  decide (c.toNat ∈ [0x9, 0xA, 0xB, 0xC, 0xD, 0x20, 0xA0, 0x1680, 0x2028, 0x2029, 0x202F, 0x205F,
    0x3000, 0xFEFF]) || decide (0x2000 ≤ c.toNat ∧ c.toNat ≤ 0x200A)

/-- `trim`. -/
def trim (s : String) : String :=
  String.ofList ((s.toList.dropWhile isSpace).reverse.dropWhile isSpace).reverse

/-- The `where` of `findAll`.  How the database compares texts with `contains` in the mode
`'insensitive'` is a parameter. -/
def Products.listed (contains : String → String → Bool) (user : JwtPayload)
    (query : QueryProductsDto) (p : Product) : Bool :=
  decide (p.idMerchant = user.idMerchant) &&
    (query.isActive.all fun isActive => decide (p.isActive = isActive)) &&
    match query.search.map trim with
    | none | some "" => true
    | some search => contains p.name search || contains p.sku search

/-- `ProductsService.findAll`. -/
def Products.findAll (contains : String → String → Bool) (db : Db) (user : JwtPayload)
    (query : QueryProductsDto) : Listing FoundProduct :=
  let limit := query.limit.getD 50
  let cursor := query.cursor.filter Ident.truthy
  -- the row that the cursor names is skipped
  let skip := if cursor.isSome then 1 else 0
  let found := findMany (·.createdAt) (·.idProduct)
    (db.products.rows.filter (Products.listed contains user query)) cursor skip (limit + 1)
  let items := found.map fun p => ⟨p, db.inventories.findUnique (.product p.idProduct)⟩
  if limit < items.length then
    ⟨items.dropLast, items.getLast?.map (·.product.idProduct), limit⟩
  else ⟨items, none, limit⟩

/-! ## Transactions -/

structure QueryTransactionsDto where
  status : Option TransactionStatus
  syncStatus : Option SyncStatus
  idDevice : Option Ident
  startDate : Option DateText
  endDate : Option DateText
  cursor : Option Ident
  limit : Option ℕ

/-- A date of the query, when there is one. -/
def queryDate (d : Option DateText) : Except Err (Option DateTime) :=
  match d with
  | none => return none
  | some d => return some (← toDate "created_at" d)

/-- The `where` of `findAll`. -/
def Transactions.listed (user : JwtPayload) (query : QueryTransactionsDto)
    (startDate endDate : Option DateTime) (t : Transaction) : Bool :=
  decide (t.idMerchant = user.idMerchant) &&
    (query.status.all fun status => decide (t.status = status)) &&
    (query.syncStatus.all fun syncStatus => decide (t.syncStatus = syncStatus)) &&
    ((query.idDevice.filter Ident.truthy).all fun idDevice => decide (t.idDevice = idDevice)) &&
    (startDate.all fun gte => decide (gte ≤ t.createdAt)) &&
    (endDate.all fun lte => decide (t.createdAt ≤ lte))

/-- `TransactionsService.findAll`. -/
def Transactions.findAll (db : Db) (user : JwtPayload) (query : QueryTransactionsDto) :
    Except Err (Listing FoundTransaction) := do
  let limit := query.limit.getD 10
  let startDate ← queryDate query.startDate
  let endDate ← queryDate query.endDate
  let found := findMany (·.createdAt) (·.idTransaction)
    (db.transactions.rows.filter (Transactions.listed user query startDate endDate))
    (query.cursor.filter Ident.truthy) 0 (limit + 1)
  let transactions := found.map fun t =>
    ⟨t, db.detailsOf t.idTransaction, db.payments.findUnique (.transaction t.idTransaction)⟩
  if limit < transactions.length then
    let nextItem := transactions.getLast?
    return ⟨transactions.dropLast, (nextItem.map (·.row.idTransaction)).filter Ident.truthy, limit⟩
  else
    return ⟨transactions, none, limit⟩

/-! ## The pages of the products -/

section ProductPages

variable {contains : String → String → Bool} {db : Db} {user : JwtPayload}
  {query : QueryProductsDto} {cursor : Option Ident}

/-- The page that `findAll` answers to a cursor. -/
def Products.page (contains : String → String → Bool) (db : Db) (user : JwtPayload)
    (query : QueryProductsDto) (cursor : Option Ident) : Page Product Ident :=
  let listing := Products.findAll contains db user { query with cursor }
  ⟨listing.items.map (·.product), listing.nextCursor⟩

/-- What `findAll` finds when it is called again and again, first without a cursor and then
with the `next_cursor` of the answer before. -/
def Products.walk (contains : String → String → Bool) (db : Db) (user : JwtPayload)
    (query : QueryProductsDto) (calls : ℕ) : Option (List Product) :=
  Paging.walk (fun _ cursor => some (Products.page contains db user query cursor)) calls 0 none

/-- The calls come to an end, and they show the products asked for, each of them once and the
newest first. -/
def ProductsListed (contains : String → String → Bool) (db : Db) (user : JwtPayload)
    (query : QueryProductsDto) : Prop :=
  ∃ calls items, Products.walk contains db user query calls = some items ∧
    items.Pairwise (fun p q => q.createdAt < p.createdAt) ∧
    ∀ p, p ∈ items ↔ p ∈ db.products.rows ∧ Products.listed contains user query p = true

/-- The products asked for, the newest first. -/
def Products.newestFirst (contains : String → String → Bool) (db : Db) (user : JwtPayload)
    (query : QueryProductsDto) : List Product :=
  Paging.descending (·.createdAt) (db.products.rows.filter (Products.listed contains user query))

theorem mem_newestFirst {p : Product} : p ∈ Products.newestFirst contains db user query ↔
    p ∈ db.products.rows ∧ Products.listed contains user query p = true := by
  unfold Products.newestFirst
  rw [Paging.mem_descending, List.mem_filter]

/-- A page is cut off the rows after the one that the cursor names. -/
theorem Products.page_eq : Products.page contains db user query cursor =
    Paging.cut (·.idProduct) (query.limit.getD 50)
      ((Paging.fromCursor (·.idProduct) (Products.newestFirst contains db user query)
        (cursor.filter Ident.truthy)).drop
          (if (cursor.filter Ident.truthy).isSome then 1 else 0)) := by
  -- the filter does not look at the cursor
  have hlisted : Products.listed contains user { query with cursor := cursor }
      = Products.listed contains user query := rfl
  rw [← Paging.popped_eq_cut]
  unfold Products.page Products.findAll findMany Products.newestFirst
  dsimp only
  rw [hlisted]
  generalize List.take _ _ = found
  rw [List.length_map]
  by_cases h : query.limit.getD 50 < found.length
  · rw [if_pos h, if_pos h]
    dsimp only
    rw [← List.map_dropLast, List.getLast?_map, List.map_map, Option.map_map]
    exact congrArg₂ Page.mk (List.map_id _) rfl
  · rw [if_neg h, if_neg h]
    dsimp only
    rw [List.map_map]
    exact congrArg₂ Page.mk (List.map_id _) rfl

/-- The products of a merchant that were created at different times can be put in order. -/
theorem newestFirst_desc (hdistinct : (db.products.rows.filter fun p =>
      decide (p.idMerchant = user.idMerchant)).Pairwise fun p q => p.createdAt ≠ q.createdAt) :
    Paging.Desc (·.createdAt) (Products.newestFirst contains db user query) := by
  apply Paging.desc_descending
  have hsub : (db.products.rows.filter (Products.listed contains user query)).Sublist
      (db.products.rows.filter fun p => decide (p.idMerchant = user.idMerchant)) := by
    apply List.monotone_filter_right
    intro p hp
    unfold Products.listed at hp
    simp only [Bool.and_eq_true] at hp
    exact hp.1.1
  exact hdistinct.sublist hsub

theorem newestFirst_ids : (Products.newestFirst contains db user query).Pairwise fun p q =>
    p.idProduct ≠ q.idProduct := by
  refine Paging.descending_ne ?_
  refine (db.products.apart.imp fun {p q} hpq hid => ?_).sublist List.filter_sublist
  exact hpq (.id p.idProduct) (product_id_mem_keys.mpr rfl) (product_id_mem_keys.mpr hid.symm)

/-- With more products than a page holds, the one after the first page is never shown. -/
theorem length_le_of_productsListed (hdistinct : (db.products.rows.filter fun p =>
      decide (p.idMerchant = user.idMerchant)).Pairwise fun p q => p.createdAt ≠ q.createdAt)
    (h : ProductsListed contains db user query) :
    (db.products.rows.filter (Products.listed contains user query)).length
      ≤ query.limit.getD 50 := by
  obtain ⟨calls, items, hwalk, -, hitems⟩ := h
  by_contra hmore
  have hlength : query.limit.getD 50 < (Products.newestFirst contains db user query).length := by
    unfold Products.newestFirst
    rw [Paging.length_descending]
    omega
  have hlost := List.getElem?_eq_getElem hlength
  refine Paging.not_mem_of_walk_exclusive (newestFirst_desc hdistinct) newestFirst_ids hlost
    (fun i => ?_) (fun i c hc => ?_) calls 0 none items nofun hwalk ?_
  · rw [Products.page_eq]
    rfl
  · rw [Products.page_eq]
    cases hcursor : c.idProduct.truthy with
    | true => exact Or.inr (by simp [Option.filter, hcursor])
    | false =>
      -- an empty cursor begins again
      refine Or.inl (by simp [Option.filter, hcursor, Paging.fromCursor])
  · rw [hitems, ← mem_newestFirst]
    exact List.getElem_mem hlength

/-- **When the pages show all products**: when one page holds them. -/
theorem products_listed_iff (hdistinct : (db.products.rows.filter fun p =>
      decide (p.idMerchant = user.idMerchant)).Pairwise fun p q => p.createdAt ≠ q.createdAt) :
    ProductsListed contains db user query ↔
      (db.products.rows.filter (Products.listed contains user query)).length
        ≤ query.limit.getD 50 := by
  refine ⟨length_le_of_productsListed hdistinct, fun hlength => ?_⟩
  have hpage : Products.page contains db user query none
      = ⟨Products.newestFirst contains db user query, none⟩ := by
    have hlength' : (Products.newestFirst contains db user query).length
        ≤ query.limit.getD 50 := by
      unfold Products.newestFirst
      rw [Paging.length_descending]
      exact hlength
    rw [Products.page_eq]
    unfold Paging.cut
    show Page.mk (List.take _ (Products.newestFirst contains db user query))
      (Option.map _ (Products.newestFirst contains db user query)[query.limit.getD 50]?) = _
    rw [List.take_of_length_le hlength', List.getElem?_eq_none hlength']
    rfl
  refine ⟨1, Products.newestFirst contains db user query, ?_, newestFirst_desc hdistinct,
    fun p => mem_newestFirst⟩
  unfold Products.walk Paging.walk
  rw [hpage]

end ProductPages

/-- The shop with a second product. -/
def twoProducts : Db := after shop [.createProduct shopOwner coffee .noFile 1]

/-- A page that holds both products shows them. -/
theorem products_listed_both :
    ProductsListed (fun _ _ => true) twoProducts shopOwner ⟨none, none, some 2, none⟩ :=
  (products_listed_iff (by decide +kernel)).mpr (by decide +kernel)

/-- **A product is lost**: the second of two pages begins after it. -/
theorem products_lost : ¬ ∀ (contains : String → String → Bool) (db : Db) (user : JwtPayload)
    (query : QueryProductsDto), 1 ≤ query.limit.getD 50 →
      ((db.products.rows.filter fun p => decide (p.idMerchant = user.idMerchant)).Pairwise
        fun p q => p.createdAt ≠ q.createdAt) →
      ProductsListed contains db user query := by
  intro h
  have hdistinct : (twoProducts.products.rows.filter fun p =>
      decide (p.idMerchant = shopOwner.idMerchant)).Pairwise
        fun p q => p.createdAt ≠ q.createdAt := by decide +kernel
  have hlisted := h (fun _ _ => true) twoProducts shopOwner ⟨none, none, some 1, none⟩
    (by decide) hdistinct
  exact absurd (length_le_of_productsListed hdistinct hlisted) (by decide +kernel)

/-! ## The pages of the transactions -/

/-- The transactions that the calls find, the call number `i` those of `db i`: no transaction
goes away, from some call on none comes, and those of the merchant were created at different
times.  No `id_transaction` is empty, as they are generated. -/
structure SalesArrive (db : ℕ → Db) (idMerchant : Ident) : Prop where
  keep : ∀ i, ∀ t ∈ (db i).transactions.rows, t ∈ (db (i + 1)).transactions.rows
  last : ∃ n, ∀ i, ∀ t ∈ (db i).transactions.rows, t ∈ (db n).transactions.rows
  distinct : ∀ i, ((db i).transactions.rows.filter fun t =>
    decide (t.idMerchant = idMerchant)).Pairwise fun t u => t.createdAt ≠ u.createdAt
  truthy : ∀ i, ∀ t ∈ (db i).transactions.rows, t.idTransaction.truthy = true

section TransactionPages

variable {user : JwtPayload} {limit : Option ℕ}

/-- The page that `findAll` answers to a cursor when it is asked for nothing else. -/
def Transactions.page (db : Db) (user : JwtPayload) (limit : Option ℕ) (cursor : Option Ident) :
    Option (Page Transaction Ident) :=
  match Transactions.findAll db user ⟨none, none, none, none, none, cursor, limit⟩ with
  | .ok listing => some ⟨listing.items.map (·.row), listing.nextCursor⟩
  | .error _ => none

/-- What `findAll` finds when it is called again and again, first without a cursor and then
with the `next_cursor` of the answer before. -/
def Transactions.walk (db : ℕ → Db) (user : JwtPayload) (limit : Option ℕ) (calls : ℕ) :
    Option (List Transaction) :=
  Paging.walk (fun i => Transactions.page (db i) user limit) calls 0 none

/-- The transactions of the merchant, the newest first. -/
def Transactions.newestFirst (db : Db) (user : JwtPayload) : List Transaction :=
  Paging.descending (·.createdAt)
    (db.transactions.rows.filter fun t => decide (t.idMerchant = user.idMerchant))

theorem mem_transactions_newestFirst {db : Db} {t : Transaction} :
    t ∈ Transactions.newestFirst db user ↔
      t ∈ db.transactions.rows ∧ t.idMerchant = user.idMerchant := by
  unfold Transactions.newestFirst
  rw [Paging.mem_descending, List.mem_filter, decide_eq_true_iff]

/-- A page is cut off the rows from the one on that the cursor names. -/
theorem Transactions.page_eq {db : Db} {cursor : Option Ident}
    (htruthy : ∀ t ∈ db.transactions.rows, t.idTransaction.truthy = true) :
    Transactions.page db user limit cursor = some (Paging.cut (·.idTransaction)
      (limit.getD 10) (Paging.fromCursor (·.idTransaction) (Transactions.newestFirst db user)
        (cursor.filter Ident.truthy))) := by
  -- without any other filter, only the merchant is compared
  have hlisted : Transactions.listed user ⟨none, none, none, none, none, cursor, limit⟩ none none
      = fun t => decide (t.idMerchant = user.idMerchant) := by
    funext t
    simp [Transactions.listed]
  have hmem : ∀ t ∈ Paging.fromCursor (·.idTransaction) (Transactions.newestFirst db user)
      (cursor.filter Ident.truthy), t.idTransaction.truthy = true := fun t ht =>
    htruthy t (mem_transactions_newestFirst.mp (Paging.mem_of_mem_fromCursor ht)).1
  have hfound : Transactions.findAll db user ⟨none, none, none, none, none, cursor, limit⟩ =
      let found := (Paging.fromCursor (·.idTransaction) (Transactions.newestFirst db user)
        (cursor.filter Ident.truthy)).take (limit.getD 10 + 1)
      let transactions : List FoundTransaction := found.map fun t => ⟨t,
        db.detailsOf t.idTransaction, db.payments.findUnique (.transaction t.idTransaction)⟩
      if limit.getD 10 < transactions.length then
        .ok ⟨transactions.dropLast,
          (transactions.getLast?.map (·.row.idTransaction)).filter Ident.truthy, limit.getD 10⟩
      else .ok ⟨transactions, none, limit.getD 10⟩ := by
    unfold Transactions.newestFirst
    rw [← hlisted]
    rfl
  unfold Transactions.page
  rw [hfound, ← Paging.popped_eq_cut]
  generalize Paging.fromCursor (fun t : Transaction => t.idTransaction)
    (Transactions.newestFirst db user) (cursor.filter Ident.truthy) = rest at hmem ⊢
  dsimp only
  rw [List.length_map]
  by_cases h : limit.getD 10 < (rest.take (limit.getD 10 + 1)).length
  · rw [if_pos h, if_pos h]
    dsimp only
    rw [← List.map_dropLast, List.getLast?_map, List.map_map, Option.map_map]
    refine congrArg some (congrArg₂ Page.mk (List.map_id _) ?_)
    show (((rest.take (limit.getD 10 + 1)).getLast?).map (·.idTransaction)).filter _ = _
    cases hlast : (rest.take (limit.getD 10 + 1)).getLast? with
    | none => rfl
    | some t =>
      have ht := hmem t (List.mem_of_mem_take (List.mem_of_getLast? hlast))
      exact if_pos ht
  · rw [if_neg h, if_neg h]
    dsimp only
    rw [List.map_map]
    exact congrArg some (congrArg₂ Page.mk (List.map_id _) rfl)

theorem transactions_newestFirst_ids (db : Db) (user : JwtPayload) :
    (Transactions.newestFirst db user).Pairwise fun t u => t.idTransaction ≠ u.idTransaction := by
  refine Paging.descending_ne ?_
  refine (db.transactions.apart.imp fun {t u} htu hid => ?_).sublist List.filter_sublist
  exact htu (.id t.idTransaction) (id_mem_keys.mpr rfl) (id_mem_keys.mpr hid.symm)

section Arrivals

variable {db : ℕ → Db} {i : ℕ} {t : Transaction}

theorem SalesArrive.desc (h : SalesArrive db user.idMerchant) (i : ℕ) :
    Paging.Desc (·.createdAt) (Transactions.newestFirst (db i) user) :=
  Paging.desc_descending (h.distinct i)

/-- No transaction of the merchant goes away. -/
theorem SalesArrive.mem_succ (h : SalesArrive db user.idMerchant)
    (ht : t ∈ Transactions.newestFirst (db i) user) :
    t ∈ Transactions.newestFirst (db (i + 1)) user := by
  obtain ⟨ht, hm⟩ := mem_transactions_newestFirst.mp ht
  exact mem_transactions_newestFirst.mpr ⟨h.keep i t ht, hm⟩

/-- A page that begins at a transaction. -/
theorem SalesArrive.page_eq (h : SalesArrive db user.idMerchant)
    (ht : t ∈ Transactions.newestFirst (db i) user) :
    Transactions.page (db i) user limit (some t.idTransaction) = some (Paging.cut
      (·.idTransaction) (limit.getD 10) (Paging.fromCursor (·.idTransaction)
        (Transactions.newestFirst (db i) user) (some t.idTransaction))) := by
  have hcursor : (some t.idTransaction).filter Ident.truthy = some t.idTransaction :=
    if_pos (h.truthy i t (mem_transactions_newestFirst.mp ht).1)
  rw [Transactions.page_eq (h.truthy i), hcursor]

/-- **The pages show every transaction** that was there at the first call, once, and every one
that they show once, whatever sales arrive in between. -/
theorem transactions_listed (hlimit : 1 ≤ limit.getD 10)
    (harrive : SalesArrive db user.idMerchant) :
    ∃ calls items, Transactions.walk db user limit calls = some items ∧
      items.Pairwise (fun t u => u.createdAt < t.createdAt) ∧
      (items.map (·.idTransaction)).Nodup ∧
      (∀ t ∈ (db 0).transactions.rows, t.idMerchant = user.idMerchant → t ∈ items) ∧
      ∀ t ∈ items, t.idMerchant = user.idMerchant ∧ ∃ i, t ∈ (db i).transactions.rows := by
  obtain ⟨n, hlast⟩ := harrive.last
  have hend : ∀ i, ∀ t ∈ Transactions.newestFirst (db i) user,
      t ∈ Transactions.newestFirst (db n) user := by
    intro i t ht
    obtain ⟨ht, hm⟩ := mem_transactions_newestFirst.mp ht
    exact mem_transactions_newestFirst.mpr ⟨hlast i t ht, hm⟩
  obtain ⟨items, hwalk, hitems, hcomplete, hsound⟩ := Paging.walk_inclusive harrive.desc
    (fun i => transactions_newestFirst_ids (db i) user) (fun _ _ => harrive.mem_succ) hend hlimit
    (Transactions.page_eq (harrive.truthy 0)) fun _ _ => harrive.page_eq
  refine ⟨_, items, hwalk, hitems, ?_, fun t ht hm => ?_, fun t ht => ?_⟩
  · rw [List.nodup_iff_pairwise_ne, List.pairwise_map]
    refine hitems.imp_of_mem fun {t u} ht hu hlt hid => ?_
    -- one id names one row of the last table
    obtain ⟨i, hi⟩ := hsound t ht
    obtain ⟨j, hj⟩ := hsound u hu
    have htu := row_unique (mem_transactions_newestFirst.mp (hend i t hi)).1
      (mem_transactions_newestFirst.mp (hend j u hj)).1 hid
    rw [htu] at hlt
    exact lt_irrefl _ hlt
  · exact hcomplete t (mem_transactions_newestFirst.mpr ⟨ht, hm⟩)
  · obtain ⟨i, hi⟩ := hsound t ht
    obtain ⟨hrow, hm⟩ := mem_transactions_newestFirst.mp hi
    exact ⟨hm, i, hrow⟩

end Arrivals

end TransactionPages

/-- Two sales of one piece, then a third one. -/
def threeSales : List Op :=
  [.sync (shopQueued shopDevice "a" [1]) (.served 1),
   .sync (shopQueued shopDevice "b" [1]) (.served 2),
   .sync (shopQueued shopDevice "c" [1]) (.served 3)]

/-- The third sale arrives after the first call. -/
def thirdArrives : ℕ → Db
  | 0 => after shop (threeSales.take 2)
  | _ + 1 => after shop threeSales

theorem thirdArrives_arrive : SalesArrive thirdArrives shopMerchant where
  keep
    | 0 => by decide +kernel
    | _ + 1 => fun _ ht => ht
  last := ⟨1, fun
    | 0 => by decide +kernel
    | _ + 1 => fun _ ht => ht⟩
  distinct
    | 0 => by decide +kernel
    | _ + 1 => by
      show ((after shop threeSales).transactions.rows.filter fun t =>
        decide (t.idMerchant = shopMerchant)).Pairwise fun t u => t.createdAt ≠ u.createdAt
      decide +kernel
  truthy
    | 0 => fun t ht => ((reachable_after_shop _).wired.transactions t ht).1.truthy
    | _ + 1 => fun t ht => ((reachable_after_shop _).wired.transactions t ht).1.truthy

/-- Both sales of the first call are shown in pages of one. -/
theorem transactions_listed_thirdArrives :
    (thirdArrives 0).transactions.rows.length = 2 ∧
    ∃ calls items, Transactions.walk thirdArrives shopOwner (some 1) calls = some items ∧
      items.Pairwise (fun t u => u.createdAt < t.createdAt) ∧
      (items.map (·.idTransaction)).Nodup ∧
      (∀ t ∈ (thirdArrives 0).transactions.rows, t.idMerchant = shopOwner.idMerchant →
        t ∈ items) ∧
      ∀ t ∈ items, t.idMerchant = shopOwner.idMerchant ∧
        ∃ i, t ∈ (thirdArrives i).transactions.rows :=
  ⟨by decide +kernel, transactions_listed le_rfl thirdArrives_arrive⟩

end KPos
