/-
# The catalogue of a shop

Merchants, products and inventories in every state that calls reach: their identifiers were
generated, each product has a merchant and an inventory, and each inventory has its product.

* `SameCatalogue` : what a call keeps that registers no merchant and creates no product;
* `Stocked` : the invariant (`Reachable.stocked`).
-/
import KPos.References

namespace KPos

section Catalogue

variable {db db' db₁ db₂ db₃ : Db}

/-! ## What most calls keep -/

/-- The merchants, the products with their merchants, and the inventories are the same. -/
structure SameCatalogue (db db' : Db) : Prop where
  merchants : db'.merchants = db.merchants := by rfl
  products : ∀ i, db'.productMerchant i = db.productMerchant i := by exact fun _ => rfl
  inventories : ∀ k, db'.inventories.has k = db.inventories.has k := by exact fun _ => rfl

theorem SameCatalogue.refl (db : Db) : SameCatalogue db db := {}

theorem SameCatalogue.trans (h₁ : SameCatalogue db₁ db₂) (h₂ : SameCatalogue db₂ db₃) :
    SameCatalogue db₁ db₃ where
  merchants := h₂.merchants.trans h₁.merchants
  products := fun i => (h₂.products i).trans (h₁.products i)
  inventories := fun k => (h₂.inventories k).trans (h₁.inventories k)

/-- An update of a product keeps its id and its merchant. -/
theorem updateProduct_sameCatalogue {i : Ident} {f : Product → Product}
    (h : db.updateProduct i f = .ok db')
    (hf : ∀ p, (f p).idProduct = p.idProduct ∧ (f p).idMerchant = p.idMerchant) :
    SameCatalogue db db' := by
  obtain ⟨-, ps, -, -, hps, rfl⟩ := updateProduct_eq_ok.mp h
  refine { products := fun j => ?_ }
  have hkeys : ∀ p, ProductKey.id j ∈ UniqueKeys.keys (f p).stored ↔
      .id j ∈ UniqueKeys.keys p := by
    intro p
    rw [product_id_mem_keys, product_id_mem_keys]
    exact iff_of_eq (congrArg (· = j) (hf p).1)
  show (ps.findUnique (.id j)).map (·.idMerchant) = _
  rw [Table.findUnique_replace hps hkeys, Option.map_map]
  unfold Db.productMerchant
  congr 1
  funext p
  simp only [Function.comp]
  split
  · exact (hf p).2
  · rfl

/-- A loop of adjustments keeps the catalogue. -/
theorem StockMoved.sameCatalogue {hs : List StockHistory} (h : StockMoved db db' hs) :
    SameCatalogue db db' where
  merchants := by rw [h.frame]
  products := fun i => by
    unfold Db.productMerchant
    rw [h.frame]
  inventories := h.has

theorem updateTransaction_sameCatalogue {i : Ident} {v : Option Ident} {f : Rewrite Transaction}
    (h : db.updateTransaction i v f = .ok db') : SameCatalogue db db' := by
  obtain ⟨-, -, rfl⟩ := updateTransaction_eq_ok.mp h
  exact {}

theorem createReconciliation_sameCatalogue {row : Reconciliation}
    (h : db.createReconciliation row = .ok db') : SameCatalogue db db' := by
  obtain ⟨-, -, rs, -, rfl⟩ := createReconciliation_eq_ok.mp h
  exact {}

theorem updateDevice_sameCatalogue {i : Ident} {f : Device → Device}
    (h : db.updateDevice i f = .ok db') : SameCatalogue db db' := by
  obtain ⟨-, ds, -, rfl⟩ := updateDevice_eq_ok.mp h
  exact {}

theorem StoredSale.sameCatalogue {data : QueuedTransaction} {hasConflict : Bool} {now : DateTime}
    {d : Device} {createdAtLocal : DateTime}
    (h : StoredSale db db' data hasConflict now d createdAtLocal) : SameCatalogue db db' where
  merchants := by rw [h.frame]
  products := fun i => by
    unfold Db.productMerchant
    rw [h.frame]
  inventories := h.has

theorem handleItem_sameCatalogue (db : Db) (data : QueuedTransaction) (outcome : ItemOutcome) :
    SameCatalogue db (handleItem db data outcome) := by
  obtain ⟨db₁, h₁, h₂⟩ := handleItem_cases db data outcome
  have hsale : SameCatalogue db db₁ := by
    rcases h₁ with rfl | h₁
    · exact .refl db₁
    · obtain ⟨-, d, created, hstored⟩ := processTransaction_stored h₁
      exact hstored.sameCatalogue
  rcases h₂ with h₂ | ⟨_, h₂⟩
  · rw [h₂]
    exact hsale
  · refine hsale.trans ?_
    obtain ⟨-, -, qs, -, hdb⟩ := createSyncQueue_eq_ok.mp h₂
    rw [hdb]
    exact {}

theorem resolveConflictWrite_sameCatalogue {user : JwtPayload} {t : FoundTransaction}
    {dto : ResolveConflictDto} {now : DateTime}
    (h : Transactions.resolveConflictWrite db user t dto now = .ok db') :
    SameCatalogue db db' := by
  unfold Transactions.resolveConflictWrite at h
  split at h
  · obtain ⟨db₁, h₁, h₂⟩ := bind_eq_ok.mp h
    exact (adjustEach_moved h₁).sameCatalogue.trans (updateTransaction_sameCatalogue h₂)
  · exact updateTransaction_sameCatalogue h

theorem clonePayment_sameCatalogue {t : FoundTransaction} {i : Ident} {x : ℚ} {now : DateTime}
    (h : clonePayment db t i x now = .ok db') : SameCatalogue db db' := by
  obtain ⟨ps, n, -, rfl⟩ := clonePayment_frame h
  exact {}

theorem correctTransactionWrite_sameCatalogue {user : JwtPayload} {t : FoundTransaction}
    {dto : CorrectTransactionDto} {now : DateTime}
    (h : Transactions.correctTransactionWrite db user t dto now = .ok db') :
    SameCatalogue db db' := by
  obtain ⟨db₁, db₃, db₄, ts, cs, h₁, -, h₃, h₄, -, rfl⟩ := correctTransactionWrite_steps h
  have hrows : SameCatalogue db₁ { db₁ with
      transactions := ts
      details := db₁.details ++ correctionDetails dto db₁.newId now
      seq := db₁.seq + 1 } := {}
  have hold := (adjustEach_moved h₁).sameCatalogue.trans hrows
  have hnew := (adjustEach_moved h₃).sameCatalogue.trans (clonePayment_sameCatalogue h₄)
  exact (hold.trans hnew).trans {}

theorem resolveWrite_sameCatalogue {id : Ident} {user : JwtPayload} {r : FoundReconciliation}
    {dto : ResolveReconciliationDto} {now : DateTime}
    (h : Reconciliations.resolveWrite db id user r dto now = .ok db') : SameCatalogue db db' := by
  obtain ⟨_, _, _, rfl⟩ := resolveWrite_frame h
  exact {}

/-- Whether a call adds to the catalogue. -/
def Op.addsToCatalogue : Op → Bool
  | .register .. | .createProduct .. => true
  | _ => false

/-- **Every other call keeps the catalogue.** -/
theorem exec_sameCatalogue {op : Op} (hop : op.addsToCatalogue = false) :
    SameCatalogue db (exec db op) := by
  cases op with
  | register | createProduct => cases hop
  | createUser owner dto hashed =>
    refine commit_rule (.refl db) fun db' h => ?_
    obtain ⟨us, rfl⟩ := users_create_eq_ok h
    exact {}
  | updateUserStatus target owner isActive =>
    refine commit_rule (.refl db) fun db' h => ?_
    obtain ⟨us, rfl⟩ := updateStatus_eq_ok h
    exact {}
  | createDevice m u name code now =>
    refine commit_rule (.refl db) fun db' h => ?_
    obtain ⟨-, -, ds, -, rfl⟩ := createDevice_eq_ok.mp h
    exact {}
  | pairDevice code hash =>
    refine commit_rule (.refl db) fun db' h => ?_
    obtain ⟨d, -, -, h⟩ := pairDevice_eq_ok h
    exact updateDevice_sameCatalogue h
  | removeDevice i m =>
    refine commit_rule (.refl db) fun db' h => ?_
    obtain ⟨d, -, -, -, -, h⟩ := removeDevice_eq_ok h
    exact updateDevice_sameCatalogue h
  | updateProduct user productId dto upload =>
    refine commit_rule (.refl db) fun db' h => ?_
    obtain ⟨_, h⟩ := products_update_eq_ok h
    exact updateProduct_sameCatalogue h fun _ => ⟨rfl, rfl⟩
  | removeProduct user productId =>
    refine commit_rule (.refl db) fun db' h => ?_
    exact updateProduct_sameCatalogue (products_remove_eq_ok h) fun _ => ⟨rfl, rfl⟩
  | adjustStock user productId dto now =>
    show SameCatalogue db (Products.afterAdjustStock db user productId dto now)
    rcases afterAdjustStock_cases db user productId dto now with ⟨h, -⟩ | ⟨_, -, -, h⟩
    · rw [h]
      exact .refl db
    · exact (adjustInventoryAndHistory_moved h).sameCatalogue
  | sync data outcome => exact handleItem_sameCatalogue db data outcome
  | voidTransaction user id reason now =>
    refine commit_rule (.refl db) fun db' h => ?_
    obtain ⟨_, -, h⟩ := bind_eq_ok.mp h
    exact updateTransaction_sameCatalogue h
  | resolveConflict user id dto now =>
    refine commit_rule (.refl db) fun db' h => ?_
    obtain ⟨_, -, h⟩ := bind_eq_ok.mp h
    exact resolveConflictWrite_sameCatalogue h
  | correctTransaction user id dto now =>
    refine commit_rule (.refl db) fun db' h => ?_
    obtain ⟨_, -, h⟩ := bind_eq_ok.mp h
    exact correctTransactionWrite_sameCatalogue h
  | createReconciliation user dto now =>
    refine commit_rule (.refl db) fun db' h => ?_
    obtain ⟨_, -, h⟩ := bind_eq_ok.mp h
    exact createReconciliation_sameCatalogue h
  | reconcilePayment user paymentId dto now =>
    refine commit_rule (.refl db) fun db' h => ?_
    obtain ⟨_, -, h⟩ := bind_eq_ok.mp h
    exact createReconciliation_sameCatalogue h
  | resolveReconciliation id user dto now =>
    refine commit_rule (.refl db) fun db' h => ?_
    obtain ⟨_, -, h⟩ := bind_eq_ok.mp h
    exact resolveWrite_sameCatalogue h

/-! ## The invariant -/

/-- The identifiers of the catalogue are old; a product has a merchant and an inventory, an
inventory a product. -/
structure Stocked (db : Db) : Prop where
  merchants : ∀ m, db.merchants.has (.id m) = true → db.Old m
  products : ∀ p m, db.productMerchant p = some m →
    db.Old p ∧ db.merchants.has (.id m) = true ∧ db.inventories.has (.product p) = true
  inventories : ∀ i, db.inventories.has (.id i) = true → db.Old i
  inventoried : ∀ p, db.inventories.has (.product p) = true → db.products.has (.id p) = true

theorem stocked_withUsers (us : Table User) : Stocked (Db.withUsers us) where
  merchants := nofun
  products := nofun
  inventories := nofun
  inventoried := nofun

theorem productMerchant_isSome {i : Ident} :
    db.products.has (.id i) = true ↔ (db.productMerchant i).isSome := by
  unfold Table.has Db.productMerchant
  rw [Option.isSome_map]

theorem Stocked.same (hdb : Stocked db) (h : SameCatalogue db db') (hseq : db.seq ≤ db'.seq) :
    Stocked db' where
  merchants := by
    intro m hm
    rw [h.merchants] at hm
    exact (hdb.merchants m hm).mono hseq
  products := by
    intro p m hp
    rw [h.products] at hp
    rw [h.merchants, h.inventories]
    obtain ⟨hold, hm, hinv⟩ := hdb.products p m hp
    exact ⟨hold.mono hseq, hm, hinv⟩
  inventories := by
    intro i hi
    rw [h.inventories] at hi
    exact (hdb.inventories i hi).mono hseq
  inventoried := by
    intro p hp
    rw [h.inventories] at hp
    rw [productMerchant_isSome, h.products, ← productMerchant_isSome]
    exact hdb.inventoried p hp

theorem Stocked.register (hdb : Stocked db) {dto : RegisterDto} {hashed : String}
    (h : Auth.register db dto hashed = .ok db') : Stocked db' := by
  obtain ⟨ms, us, hms, rfl⟩ := register_eq_ok h
  refine ⟨fun m hm => ?_, fun p m hp => ?_, fun i hi => ?_, hdb.inventoried⟩
  · rcases (Table.has_of_insert hms).mp hm with hm | hm
    · exact (hdb.merchants m hm).mono (Nat.le_add_right _ 2)
    · obtain rfl : m = db.newId := by simpa [UniqueKeys.keys] using hm
      exact ⟨db.seq, Nat.lt_add_of_pos_right Nat.two_pos, rfl⟩
  · obtain ⟨hold, hm, hinv⟩ := hdb.products p m hp
    exact ⟨hold.mono (Nat.le_add_right _ 2), Table.has_insert_mono hms hm, hinv⟩
  · exact (hdb.inventories i hi).mono (Nat.le_add_right _ 2)

/-- A new product comes with its inventory. -/
theorem Stocked.createRows (hdb : Stocked db) {user : JwtPayload} {dto : CreateProductDto}
    {sku : String} {now : DateTime} (h : Products.createRows db user dto sku now = .ok db') :
    Stocked db' := by
  obtain ⟨-, hmerchant, -, ps, is, hps, -, his, rfl⟩ := createProductWithInventory_eq_ok.mp h
  have hseq : db.seq ≤ db.seq + 2 := Nat.le_add_right _ 2
  refine ⟨fun m hm => (hdb.merchants m hm).mono hseq, fun p m hp => ?_, fun i hi => ?_,
    fun p hp => ?_⟩
  · obtain ⟨q, hq, rfl, rfl⟩ := productMerchant_eq_some.mp hp
    rcases (Table.mem_insert hps).mp hq with hq | rfl
    · obtain ⟨hold, hm, hinv⟩ := hdb.products _ _ (productMerchant_eq_some.mpr ⟨q, hq, rfl, rfl⟩)
      exact ⟨hold.mono hseq, hm, Table.has_insert_mono his hinv⟩
    · refine ⟨⟨db.seq, Nat.lt_add_of_pos_right Nat.two_pos, rfl⟩, hmerchant, ?_⟩
      rw [Table.has_of_insert his]
      simp [UniqueKeys.keys, Product.stored]
  · rcases (Table.has_of_insert his).mp hi with hi | hi
    · exact (hdb.inventories i hi).mono hseq
    · obtain rfl : i = .cuid (db.seq + 1) := by simpa [UniqueKeys.keys] using hi
      exact ⟨db.seq + 1, Nat.lt_succ_self _, rfl⟩
  · rcases (Table.has_of_insert his).mp hp with hp | hp
    · exact Table.has_insert_mono hps (hdb.inventoried p hp)
    · obtain rfl : p = db.newId := by simpa [UniqueKeys.keys] using hp
      rw [Table.has_of_insert hps]
      simp [UniqueKeys.keys, Product.stored]

/-- A call keeps the invariant. -/
theorem Stocked.exec (hdb : Stocked db) (op : Op) : Stocked (KPos.exec db op) := by
  have hsame : op.addsToCatalogue = false → Stocked (KPos.exec db op) := fun hop =>
    hdb.same (exec_sameCatalogue hop) (exec_grows db op).seq
  cases op with
  | register dto hashed => exact commit_rule hdb fun _ => hdb.register
  | createProduct user dto upload now =>
    show Stocked (Products.create db user dto upload now).1
    rcases products_create_cases db user dto upload now with h | ⟨db₁, h₁, h | ⟨_, h⟩⟩
    · rw [h]
      exact hdb
    · rw [h]
      exact hdb.createRows h₁
    · have hupdated := updateProduct_sameCatalogue h fun _ => ⟨rfl, rfl⟩
      have hwrite := Write.updateProduct h fun _ => ⟨rfl, rfl⟩
      exact (hdb.createRows h₁).same hupdated hwrite.grows.seq
  | _ => exact hsame rfl

/-- The invariant holds in every reachable state. -/
theorem Reachable.stocked {us : Table User} (h : Reachable us db) : Stocked db :=
  h.invariant_total Stocked (stocked_withUsers us) fun _ op hdb => hdb.exec op

/-- The identifiers that come next are free in the catalogue. -/
theorem Stocked.has_newId (hdb : Stocked db) : db.products.has (.id db.newId) = false ∧
    db.inventories.has (.id (.cuid (db.seq + 1))) = false ∧
    db.inventories.has (.product db.newId) = false := by
  have hproduct : db.products.has (.id db.newId) = false := by
    rw [Bool.eq_false_iff]
    intro hhas
    rw [productMerchant_isSome] at hhas
    obtain ⟨m, hm⟩ := Option.isSome_iff_exists.mp hhas
    exact not_old_newId db (hdb.products _ m hm).1
  refine ⟨hproduct, ?_, ?_⟩
  · rw [Bool.eq_false_iff]
    intro hhas
    obtain ⟨n, hn, heq⟩ := hdb.inventories _ hhas
    have : db.seq + 1 = n := Ident.cuid.inj heq
    omega
  · rw [Bool.eq_false_iff]
    intro hhas
    rw [hdb.inventoried _ hhas] at hproduct
    cases hproduct

end Catalogue

end KPos
