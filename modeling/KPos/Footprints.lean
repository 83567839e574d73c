/-
# The tables that a call writes

For every call of a service, the tables that it may write; whatever the call does, the other
tables are as before.

* `Db.OnlyIn` : two databases differ in some tables only;
* `Op.tables` : the tables of a call;
* `exec_onlyIn` : a call writes no other ones.
-/
import KPos.Calls
import KPos.DeadLetters

namespace KPos

/-! ## Tables -/

/-- The tables that the services write. -/
inductive TableName where
  | merchant | user | refreshToken | device | product | inventory | stockHistory | transaction
  | detailTransaction | payment | transactionCorrection | syncQueue | reconciliation
  deriving DecidableEq

/-- The table is the same in both databases. -/
def SameTable (db db' : Db) : TableName → Prop
  | .merchant => db'.merchants = db.merchants
  | .user => db'.users = db.users
  | .refreshToken => db'.refreshTokens = db.refreshTokens
  | .device => db'.devices = db.devices
  | .product => db'.products = db.products
  | .inventory => db'.inventories = db.inventories
  | .stockHistory => db'.stockHistories = db.stockHistories
  | .transaction => db'.transactions = db.transactions
  | .detailTransaction => db'.details = db.details
  | .payment => db'.payments = db.payments
  | .transactionCorrection => db'.corrections = db.corrections
  | .syncQueue => db'.syncQueues = db.syncQueues
  | .reconciliation => db'.reconciliations = db.reconciliations

theorem SameTable.refl (db : Db) (t : TableName) : SameTable db db t := by
  cases t <;> rfl

theorem SameTable.trans {db₁ db₂ db₃ : Db} {t : TableName} (h₁ : SameTable db₁ db₂ t)
    (h₂ : SameTable db₂ db₃ t) : SameTable db₁ db₃ t := by
  cases t <;> exact Eq.trans h₂ h₁

/-- The databases differ in these tables only. -/
def Db.OnlyIn (ts : List TableName) (db db' : Db) : Prop := ∀ t, t ∉ ts → SameTable db db' t

section OnlyIn

variable {db db' db₁ db₂ db₃ : Db} {ts us : List TableName}

theorem Db.OnlyIn.refl (ts : List TableName) (db : Db) : db.OnlyIn ts db :=
  fun t _ => SameTable.refl db t

theorem Db.OnlyIn.trans (h₁ : db₁.OnlyIn ts db₂) (h₂ : db₂.OnlyIn ts db₃) : db₁.OnlyIn ts db₃ :=
  fun t ht => (h₁ t ht).trans (h₂ t ht)

theorem Db.OnlyIn.mono (h : db.OnlyIn ts db') (hsub : ts ⊆ us) : db.OnlyIn us db' :=
  fun t ht => h t fun hmem => ht (hsub hmem)

/-- Databases that are equal up to some tables differ in these only. -/
theorem onlyIn_users (db : Db) (us : Table User) (n : ℕ) :
    db.OnlyIn [.user] { db with users := us, seq := n } := by
  intro t ht
  cases t with
  | user => exact absurd (by decide) ht
  | _ => rfl

theorem onlyIn_merchants (db : Db) (ms : Table Merchant) (us : Table User) (n : ℕ) :
    db.OnlyIn [.merchant, .user] { db with merchants := ms, users := us, seq := n } := by
  intro t ht
  cases t with
  | merchant | user => exact absurd (by decide) ht
  | _ => rfl

theorem onlyIn_devices (db : Db) (ds : Table Device) (n : ℕ) :
    db.OnlyIn [.device] { db with devices := ds, seq := n } := by
  intro t ht
  cases t with
  | device => exact absurd (by decide) ht
  | _ => rfl

theorem onlyIn_products (db : Db) (ps : Table Product) (is : Table Inventory) (n : ℕ) :
    db.OnlyIn [.product, .inventory] { db with products := ps, inventories := is, seq := n } := by
  intro t ht
  cases t with
  | product | inventory => exact absurd (by decide) ht
  | _ => rfl

theorem onlyIn_product (db : Db) (ps : Table Product) :
    db.OnlyIn [.product] { db with products := ps } := by
  intro t ht
  cases t with
  | product => exact absurd (by decide) ht
  | _ => rfl

theorem onlyIn_stock (db : Db) (is : Table Inventory) (hs : List StockHistory) :
    db.OnlyIn [.inventory, .stockHistory] { db with inventories := is, stockHistories := hs } := by
  intro t ht
  cases t with
  | inventory | stockHistory => exact absurd (by decide) ht
  | _ => rfl

theorem onlyIn_transactions (db : Db) (ts : Table Transaction) (is : Table Inventory)
    (hs : List StockHistory) : db.OnlyIn [.transaction, .inventory, .stockHistory]
      { db with transactions := ts, inventories := is, stockHistories := hs } := by
  intro t ht
  cases t with
  | transaction | inventory | stockHistory => exact absurd (by decide) ht
  | _ => rfl

theorem onlyIn_transaction (db : Db) (ts : Table Transaction) :
    db.OnlyIn [.transaction] { db with transactions := ts } := by
  intro t ht
  cases t with
  | transaction => exact absurd (by decide) ht
  | _ => rfl

theorem onlyIn_sale (db : Db) (ts : Table Transaction) (ds : List DetailTransaction)
    (ps : Table Payment) (cs : Table TransactionCorrection) (is : Table Inventory)
    (hs : List StockHistory) (n : ℕ) :
    db.OnlyIn [.transaction, .detailTransaction, .payment, .transactionCorrection, .inventory,
      .stockHistory]
      { db with
        transactions := ts
        details := ds
        payments := ps
        corrections := cs
        inventories := is
        stockHistories := hs
        seq := n } := by
  intro t ht
  cases t with
  | transaction | detailTransaction | payment | transactionCorrection | inventory
  | stockHistory => exact absurd (by decide) ht
  | _ => rfl

theorem onlyIn_syncQueues (db : Db) (qs : Table SyncQueue) (n : ℕ) :
    db.OnlyIn [.syncQueue] { db with syncQueues := qs, seq := n } := by
  intro t ht
  cases t with
  | syncQueue => exact absurd (by decide) ht
  | _ => rfl

theorem onlyIn_cases (db : Db) (rs : Table Reconciliation) (ps : Table Payment)
    (ts : Table Transaction) : db.OnlyIn [.reconciliation, .payment, .transaction]
      { db with reconciliations := rs, payments := ps, transactions := ts } := by
  intro t ht
  cases t with
  | reconciliation | payment | transaction => exact absurd (by decide) ht
  | _ => rfl

theorem createReconciliation_onlyIn {row : Reconciliation}
    (h : db.createReconciliation row = .ok db') : db.OnlyIn [.reconciliation] db' := by
  obtain ⟨-, -, rs, -, rfl⟩ := createReconciliation_eq_ok.mp h
  intro t ht
  cases t with
  | reconciliation => exact absurd (by decide) ht
  | _ => rfl

end OnlyIn

/-! ## The tables of a call -/

/-- The tables that a call may write. -/
def Op.tables : Op → List TableName
  | .register .. => [.merchant, .user]
  | .createUser .. | .updateUserStatus .. => [.user]
  | .createDevice .. | .pairDevice .. | .removeDevice .. => [.device]
  | .createProduct .. => [.product, .inventory]
  | .updateProduct .. | .removeProduct .. => [.product]
  | .adjustStock .. => [.inventory, .stockHistory]
  | .sync .. =>
      [.transaction, .detailTransaction, .payment, .inventory, .stockHistory, .syncQueue]
  | .voidTransaction .. => [.transaction]
  | .resolveConflict .. => [.transaction, .inventory, .stockHistory]
  | .correctTransaction .. =>
      [.transaction, .detailTransaction, .payment, .transactionCorrection, .inventory,
        .stockHistory]
  | .createReconciliation .. | .reconcilePayment .. => [.reconciliation]
  | .resolveReconciliation .. => [.reconciliation, .payment, .transaction]

section Calls

variable {db db' : Db}

theorem updateProduct_onlyIn {i : Ident} {f : Product → Product}
    (h : db.updateProduct i f = .ok db') : db.OnlyIn [.product] db' := by
  obtain ⟨_, ps, -, -, -, rfl⟩ := updateProduct_eq_ok.mp h
  exact onlyIn_product db ps

theorem updateDevice_onlyIn {i : Ident} {f : Device → Device}
    (h : db.updateDevice i f = .ok db') : db.OnlyIn [.device] db' := by
  obtain ⟨-, ds, -, rfl⟩ := updateDevice_eq_ok.mp h
  exact onlyIn_devices db ds db.seq

theorem products_create_onlyIn (db : Db) (user : JwtPayload) (dto : CreateProductDto)
    (upload : Upload) (now : DateTime) :
    db.OnlyIn [.product, .inventory] (Products.create db user dto upload now).1 := by
  rcases products_create_cases db user dto upload now with h | ⟨db₁, h₁, h⟩
  · rw [h]
    exact .refl _ db
  · have hrows : db.OnlyIn [.product, .inventory] db₁ := by
      obtain ⟨-, -, -, ps, is, -, -, -, rfl⟩ := createProductWithInventory_eq_ok.mp h₁
      exact onlyIn_products db ps is _
    rcases h with h | ⟨_, h⟩
    · rw [h]
      exact hrows
    · exact hrows.trans ((updateProduct_onlyIn h).mono (by decide))

/-- An item writes the rows of a sale, perhaps a row of `SyncQueue`. -/
theorem handleItem_onlyIn (db : Db) (data : QueuedTransaction) (outcome : ItemOutcome) :
    db.OnlyIn (Op.sync data outcome).tables (handleItem db data outcome) := by
  obtain ⟨db₁, h₁, h₂⟩ := handleItem_cases db data outcome
  have hsale : db.OnlyIn (Op.sync data outcome).tables db₁ := by
    rcases h₁ with rfl | h₁
    · exact .refl _ db₁
    · obtain ⟨-, d, created, hstored⟩ := processTransaction_stored h₁
      intro t ht
      rw [hstored.frame]
      cases t with
      | transaction | detailTransaction | payment | inventory | stockHistory | syncQueue =>
        exact absurd (by simp [Op.tables]) ht
      | _ => rfl
  rcases h₂ with h₂ | ⟨_, h₂⟩
  · rw [h₂]
    exact hsale
  · obtain ⟨-, -, qs, -, hdb⟩ := createSyncQueue_eq_ok.mp h₂
    rw [hdb]
    refine hsale.trans ((onlyIn_syncQueues db₁ qs _).mono ?_)
    intro t ht
    rw [List.mem_singleton.mp ht]
    simp [Op.tables]

/-- **A call writes no other tables.** -/
theorem exec_onlyIn (db : Db) (op : Op) : db.OnlyIn op.tables (exec db op) := by
  cases op with
  | register dto hashed =>
    refine commit_rule (.refl _ db) fun db' h => ?_
    obtain ⟨ms, us, -, rfl⟩ := register_eq_ok h
    exact onlyIn_merchants db ms us _
  | createUser owner dto hashed =>
    refine commit_rule (.refl _ db) fun db' h => ?_
    obtain ⟨us, rfl⟩ := users_create_eq_ok h
    exact onlyIn_users db us _
  | updateUserStatus target owner isActive =>
    refine commit_rule (.refl _ db) fun db' h => ?_
    obtain ⟨us, rfl⟩ := updateStatus_eq_ok h
    exact onlyIn_users db us db.seq
  | createDevice m u name code now =>
    refine commit_rule (.refl _ db) fun db' h => ?_
    obtain ⟨-, -, ds, -, rfl⟩ := createDevice_eq_ok.mp h
    exact onlyIn_devices db ds _
  | pairDevice code hash =>
    refine commit_rule (.refl _ db) fun db' h => ?_
    obtain ⟨d, -, -, h⟩ := pairDevice_eq_ok h
    exact updateDevice_onlyIn h
  | removeDevice i m =>
    refine commit_rule (.refl _ db) fun db' h => ?_
    obtain ⟨d, -, -, -, -, h⟩ := removeDevice_eq_ok h
    exact updateDevice_onlyIn h
  | createProduct user dto upload now => exact products_create_onlyIn db user dto upload now
  | updateProduct user productId dto upload =>
    refine commit_rule (.refl _ db) fun db' h => ?_
    obtain ⟨_, h⟩ := products_update_eq_ok h
    exact updateProduct_onlyIn h
  | removeProduct user productId =>
    exact commit_rule (.refl _ db) fun db' h => updateProduct_onlyIn (products_remove_eq_ok h)
  | adjustStock user productId dto now =>
    show db.OnlyIn _ (Products.afterAdjustStock db user productId dto now)
    rcases afterAdjustStock_cases db user productId dto now with ⟨h, -⟩ | ⟨_, -, -, h⟩
    · rw [h]
      exact .refl _ db
    · obtain ⟨is, heq⟩ := (adjustInventoryAndHistory_moved h).exists_eq
      rw [heq]
      exact onlyIn_stock db is _
  | sync data outcome => exact handleItem_onlyIn db data outcome
  | voidTransaction user id reason now =>
    refine commit_rule (.refl _ db) fun db' h => ?_
    obtain ⟨t, -, h⟩ := bind_eq_ok.mp h
    obtain ⟨-, -, rfl⟩ := updateTransaction_eq_ok.mp h
    exact onlyIn_transaction db _
  | resolveConflict user id dto now =>
    refine commit_rule (.refl _ db) fun db' h => ?_
    obtain ⟨t, -, h⟩ := bind_eq_ok.mp h
    obtain ⟨ts, is, hs, rfl⟩ := resolveConflictWrite_frame h
    exact onlyIn_transactions db ts is hs
  | correctTransaction user id dto now =>
    refine commit_rule (.refl _ db) fun db' h => ?_
    obtain ⟨t, -, h⟩ := bind_eq_ok.mp h
    rw [(correctTransactionWrite_corrected h).frame]
    exact onlyIn_sale db _ _ _ _ _ _ _
  | createReconciliation user dto now =>
    refine commit_rule (.refl _ db) fun db' h => ?_
    obtain ⟨_, -, h⟩ := bind_eq_ok.mp h
    exact createReconciliation_onlyIn h
  | reconcilePayment user paymentId dto now =>
    refine commit_rule (.refl _ db) fun db' h => ?_
    obtain ⟨_, -, h⟩ := bind_eq_ok.mp h
    exact createReconciliation_onlyIn h
  | resolveReconciliation id user dto now =>
    refine commit_rule (.refl _ db) fun db' h => ?_
    obtain ⟨_, -, h⟩ := bind_eq_ok.mp h
    obtain ⟨rs, ps, ts, rfl⟩ := resolveWrite_frame h
    exact onlyIn_cases db rs ps ts

theorem writeTerminalFailure_frame {data : QueuedTransaction} {existingEntry : Option SyncQueue}
    {now : DateTime} (h : writeTerminalFailure db data existingEntry now = .ok db') :
    ∃ qs n, db.seq ≤ n ∧ db' = { db with syncQueues := qs, seq := n } := by
  unfold writeTerminalFailure at h
  split at h
  · exact ⟨_, db.seq, Nat.le_refl _, (updateSyncQueue_eq_ok.mp h).2⟩
  · obtain ⟨-, -, qs, -, hdb⟩ := createSyncQueue_eq_ok.mp h
    exact ⟨qs, _, Nat.le_succ _, hdb⟩

/-- A terminal failure writes `SyncQueue`. -/
theorem recordTerminalFailure_frame (db : Db) (data : QueuedTransaction) (outcome : DlqOutcome) :
    ∃ qs n, db.seq ≤ n ∧
      recordTerminalFailure db data outcome = { db with syncQueues := qs, seq := n } := by
  unfold recordTerminalFailure
  split
  · rcases call_run_cases outcome.write db
      (writeTerminalFailure db data (db.findNoted data) outcome.now) with ⟨hdb, -⟩ | ⟨h, -⟩
    · exact ⟨db.syncQueues, db.seq, Nat.le_refl _, hdb⟩
    · exact writeTerminalFailure_frame h
  · exact ⟨db.syncQueues, db.seq, Nat.le_refl _, rfl⟩
  · exact ⟨db.syncQueues, db.seq, Nat.le_refl _, rfl⟩

end Calls

end KPos
