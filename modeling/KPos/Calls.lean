/-
# The writes of a call

Whatever a call does, it does by the writes of the Prisma client, with rows that get the
next generated identifiers, and with updates that leave identifiers and owners alone.
`exec_wrote` says so for every call, so what each write keeps, every call keeps.

* `Grows` : rows stay, with their owners, and the counter of identifiers never falls;
* `Wired` : generated identifiers are old, and the rows that a row names exist.
-/
import KPos.Effects
import Mathlib.Logic.Relation

namespace KPos

/-! ## Calls as sequences of writes -/

/-- One write of a service. -/
inductive Write (db db' : Db) : Prop
  | createMerchant {row : Merchant} (h : db.createMerchant row = .ok db')
  | createUser {row : User} (h : db.createUser row = .ok db') (hid : row.idUser = db.newId)
  | updateUser {i : Ident} {f : Rewrite User} (h : db.updateUser i f = .ok db')
  | createDevice {row : Device} (h : db.createDevice row = .ok db')
  | updateDevice {i : Ident} {f : Device → Device} (h : db.updateDevice i f = .ok db')
      (hf : ∀ d, (f d).idDevice = d.idDevice ∧ (f d).idMerchant = d.idMerchant ∧
        (f d).idUser = d.idUser)
  | createProduct {row : Product} {inv : Inventory}
      (h : db.createProductWithInventory row inv = .ok db')
  | updateProduct {i : Ident} {f : Product → Product} (h : db.updateProduct i f = .ok db')
      (hf : ∀ p, (f p).idProduct = p.idProduct ∧ (f p).idMerchant = p.idMerchant)
  | incrementStock {p : Ident} {n : ℤ} (h : db.incrementStock p n = .ok db')
  | createStockHistory {row : StockHistory} (h : db.createStockHistory row = .ok db')
  | createTransaction {row : Transaction} (h : db.createTransaction row = .ok db')
      (hid : row.idTransaction = db.newId)
  | updateTransaction {i : Ident} {v : Option Ident} {f : Rewrite Transaction}
      (h : db.updateTransaction i v f = .ok db')
      (hf : ∀ t, (f t).idMerchant = t.idMerchant ∧ (f t).idDevice = t.idDevice)
  | createManyDetails {rows : List DetailTransaction} (h : db.createManyDetails rows = .ok db')
  | createPayment {row : Payment} (h : db.createPayment row = .ok db')
      (hid : row.idPayment = db.newId)
  | updatePayment {i : Ident} {f : Rewrite Payment} (h : db.updatePayment i f = .ok db')
      (hf : ∀ p, (f p).idPayment = p.idPayment ∧ (f p).idTransaction = p.idTransaction)
  | createCorrection {row : TransactionCorrection} (h : db.createCorrection row = .ok db')
  | createSyncQueue {row : SyncQueue} (h : db.createSyncQueue row = .ok db')
      (hid : row.id = db.newId)
  | createReconciliation {row : Reconciliation} (h : db.createReconciliation row = .ok db')
  | updateReconciliation {i u : Ident} {f : Rewrite Reconciliation}
      (h : db.updateReconciliation i u f = .ok db')

/-- Any number of writes, one after the other. -/
def Wrote : Db → Db → Prop := Relation.ReflTransGen Write

namespace Wrote

variable {db db₁ db₂ : Db}

theorem refl (db : Db) : Wrote db db := Relation.ReflTransGen.refl

theorem one (h : Write db db₁) : Wrote db db₁ := Relation.ReflTransGen.single h

theorem trans (h₁ : Wrote db db₁) (h₂ : Wrote db₁ db₂) : Wrote db db₂ :=
  Relation.ReflTransGen.trans h₁ h₂

/-- What each write keeps, any number of writes keeps. -/
theorem invariant (h : Wrote db db₁) (I : Db → Prop) (h₀ : I db)
    (hstep : ∀ db db', I db → Write db db' → I db') : I db₁ := by
  induction h with
  | refl => exact h₀
  | tail _ hw ih => exact hstep _ _ ih hw

end Wrote

section Calls

variable {db db' : Db}

theorem adjustInventoryAndHistory_wrote {now : DateTime} {a : AdjustInventoryParams}
    (h : adjustInventoryAndHistory db now a = .ok db') : Wrote db db' := by
  obtain ⟨db₁, h₁, h₂⟩ := bind_eq_ok.mp h
  exact (Wrote.one (.incrementStock h₁)).trans (.one (.createStockHistory h₂))

theorem adjustEach_wrote {now : DateTime} {l : List AdjustInventoryParams}
    (h : adjustEach db now l = .ok db') : Wrote db db' :=
  foldlM_invariant (Wrote db)
    (fun _ _ _ _ hwrote hstep => hwrote.trans (adjustInventoryAndHistory_wrote hstep)) (.refl db) h

theorem register_wrote {dto : RegisterDto} {hashed : String}
    (h : Auth.register db dto hashed = .ok db') : Wrote db db' := by
  unfold Auth.register at h
  simp only [bind_eq_ok, require_eq_ok, exists_const] at h
  obtain ⟨-, db₁, h₁, h₂⟩ := h
  exact (Wrote.one (.createMerchant h₁)).trans (.one (.createUser h₂ rfl))

theorem products_create_wrote (db : Db) (user : JwtPayload) (dto : CreateProductDto)
    (upload : Upload) (now : DateTime) : Wrote db (Products.create db user dto upload now).1 := by
  rcases products_create_cases db user dto upload now with h | ⟨db₁, h₁, h | ⟨_, h⟩⟩
  · rw [h]
    exact .refl db
  · rw [h]
    exact .one (.createProduct h₁)
  · exact (Wrote.one (.createProduct h₁)).trans (.one (.updateProduct h fun _ => ⟨rfl, rfl⟩))

theorem storeTransaction_wrote {data : QueuedTransaction} {hasConflict : Bool} {now : DateTime}
    (h : storeTransaction db data hasConflict now = .ok db') : Wrote db db' := by
  unfold storeTransaction createTransactionHeader createTransactionDetails createPayment at h
  simp only [bind_eq_ok, orThrow_eq_ok] at h
  obtain ⟨d, -, db₁, ⟨_, -, h₁⟩, db₂, ⟨_, -, h₂⟩, db₃, h₃, h⟩ := h
  have hsale : Wrote db db₃ := (Wrote.one (.createTransaction h₁ rfl)).trans
    ((Wrote.one (.createManyDetails h₂)).trans (.one (.createPayment h₃ rfl)))
  split at h
  · obtain rfl := pure_eq_ok.mp h
    exact hsale
  · exact hsale.trans (adjustEach_wrote h)

theorem processTransaction_wrote {data : QueuedTransaction} {now : DateTime}
    (h : processTransaction db data now = .ok db') : Wrote db db' := by
  obtain ⟨_, -, h⟩ := bind_eq_ok.mp h
  exact storeTransaction_wrote h

theorem handleItem_wrote (db : Db) (data : QueuedTransaction) (outcome : ItemOutcome) :
    Wrote db (handleItem db data outcome) := by
  obtain ⟨db₁, h₁, h₂⟩ := handleItem_cases db data outcome
  have hsale : Wrote db db₁ := by
    rcases h₁ with rfl | h₁
    · exact .refl db₁
    · exact processTransaction_wrote h₁
  rcases h₂ with h₂ | ⟨_, h₂⟩
  · rw [h₂]
    exact hsale
  · exact hsale.trans (.one (.createSyncQueue h₂ rfl))

theorem resolveConflictWrite_wrote {user : JwtPayload} {t : FoundTransaction}
    {dto : ResolveConflictDto} {now : DateTime}
    (h : Transactions.resolveConflictWrite db user t dto now = .ok db') : Wrote db db' := by
  unfold Transactions.resolveConflictWrite at h
  split at h
  · obtain ⟨db₁, h₁, h₂⟩ := bind_eq_ok.mp h
    exact (adjustEach_wrote h₁).trans (.one (.updateTransaction h₂ fun _ => ⟨rfl, rfl⟩))
  · exact .one (.updateTransaction h fun _ => ⟨rfl, rfl⟩)

theorem clonePayment_wrote {t : FoundTransaction} {i : Ident} {x : ℚ} {now : DateTime}
    (h : clonePayment db t i x now = .ok db') : Wrote db db' := by
  unfold clonePayment at h
  split at h
  · cases h
    exact .refl db
  · exact .one (.createPayment h rfl)

theorem correctTransactionWrite_wrote {user : JwtPayload} {t : FoundTransaction}
    {dto : CorrectTransactionDto} {now : DateTime}
    (h : Transactions.correctTransactionWrite db user t dto now = .ok db') : Wrote db db' := by
  unfold Transactions.correctTransactionWrite createDetailsAndDeductStock
    markOldAsVoidedAndBridge at h
  simp only [bind_eq_ok] at h
  obtain ⟨db₁, h₁, db₂, h₂, db₃, ⟨_, -, db₄, h₄, h₃⟩, db₅, h₅, db₆, h₆, h₇⟩ := h
  exact (adjustEach_wrote h₁).trans ((Wrote.one (.createTransaction h₂ rfl)).trans
    ((Wrote.one (.createManyDetails h₄)).trans ((adjustEach_wrote h₃).trans
    ((clonePayment_wrote h₅).trans ((Wrote.one (.updateTransaction h₆ fun _ => ⟨rfl, rfl⟩)).trans
    (.one (.createCorrection h₇)))))))

theorem resolveWrite_wrote {id : Ident} {user : JwtPayload} {r : FoundReconciliation}
    {dto : ResolveReconciliationDto} {now : DateTime}
    (h : Reconciliations.resolveWrite db id user r dto now = .ok db') : Wrote db db' := by
  unfold Reconciliations.resolveWrite at h
  split at h
  · exact .one (.updateReconciliation h)
  · simp only [bind_eq_ok] at h
    obtain ⟨db₁, h₁, db₂, h₂, h⟩ := h
    have hfailed : Wrote db db₂ := (Wrote.one (.updateReconciliation h₁)).trans
      (.one (.updatePayment h₂ fun _ => ⟨rfl, rfl⟩))
    split at h
    · exact hfailed.trans (.one (.updateTransaction h fun _ => ⟨rfl, rfl⟩))
    · obtain rfl := pure_eq_ok.mp h
      exact hfailed

/-- **Every call is a sequence of writes.** -/
theorem exec_wrote (db : Db) (op : Op) : Wrote db (exec db op) := by
  cases op with
  | register dto hashed => exact commit_rule (.refl db) fun _ => register_wrote
  | createUser owner dto hashed =>
    refine commit_rule (.refl db) fun db' h => ?_
    obtain ⟨_, -, h⟩ := bind_eq_ok.mp h
    exact .one (.createUser h rfl)
  | updateUserStatus target owner isActive =>
    refine commit_rule (.refl db) fun db' h => ?_
    obtain ⟨_, -, h⟩ := bind_eq_ok.mp h
    obtain ⟨_, -, h⟩ := bind_eq_ok.mp h
    exact .one (.updateUser h)
  | createDevice m u name code now => exact commit_rule (.refl db) fun _ h => .one (.createDevice h)
  | pairDevice code hash =>
    refine commit_rule (.refl db) fun db' h => ?_
    obtain ⟨d, -, -, h⟩ := pairDevice_eq_ok h
    exact .one (.updateDevice h fun _ => ⟨rfl, rfl, rfl⟩)
  | removeDevice i m =>
    refine commit_rule (.refl db) fun db' h => ?_
    obtain ⟨d, -, -, -, -, h⟩ := removeDevice_eq_ok h
    exact .one (.updateDevice h fun _ => ⟨rfl, rfl, rfl⟩)
  | createProduct user dto upload now => exact products_create_wrote db user dto upload now
  | updateProduct user productId dto upload =>
    refine commit_rule (.refl db) fun db' h => ?_
    obtain ⟨_, h⟩ := products_update_eq_ok h
    exact .one (.updateProduct h fun _ => ⟨rfl, rfl⟩)
  | removeProduct user productId =>
    exact commit_rule (.refl db) fun _ h =>
      .one (.updateProduct (products_remove_eq_ok h) fun _ => ⟨rfl, rfl⟩)
  | adjustStock user productId dto now =>
    show Wrote db (Products.afterAdjustStock db user productId dto now)
    rcases afterAdjustStock_cases db user productId dto now with ⟨h, -⟩ | ⟨_, -, -, h⟩
    · rw [h]
      exact .refl db
    · exact adjustInventoryAndHistory_wrote h
  | sync data outcome => exact handleItem_wrote db data outcome
  | voidTransaction user id reason now =>
    refine commit_rule (.refl db) fun db' h => ?_
    obtain ⟨_, -, h⟩ := bind_eq_ok.mp h
    exact .one (.updateTransaction h fun _ => ⟨rfl, rfl⟩)
  | resolveConflict user id dto now =>
    refine commit_rule (.refl db) fun db' h => ?_
    obtain ⟨_, -, h⟩ := bind_eq_ok.mp h
    exact resolveConflictWrite_wrote h
  | correctTransaction user id dto now =>
    refine commit_rule (.refl db) fun db' h => ?_
    obtain ⟨_, -, h⟩ := bind_eq_ok.mp h
    exact correctTransactionWrite_wrote h
  | createReconciliation user dto now =>
    refine commit_rule (.refl db) fun db' h => ?_
    obtain ⟨_, -, h⟩ := bind_eq_ok.mp h
    exact .one (.createReconciliation h)
  | reconcilePayment user paymentId dto now =>
    refine commit_rule (.refl db) fun db' h => ?_
    obtain ⟨_, -, h⟩ := bind_eq_ok.mp h
    exact .one (.createReconciliation h)
  | resolveReconciliation id user dto now =>
    refine commit_rule (.refl db) fun db' h => ?_
    obtain ⟨_, -, h⟩ := bind_eq_ok.mp h
    exact resolveWrite_wrote h

end Calls

/-! ## Calls outside the sales -/

section Frames

variable {db db' : Db}

/-- Whether a call is about sales, payments or cases. -/
def Op.aboutSales : Op → Bool
  | .sync .. | .voidTransaction .. | .resolveConflict .. | .correctTransaction ..
  | .createReconciliation .. | .reconcilePayment .. | .resolveReconciliation .. => true
  | _ => false

/-- Whether a call is about an item that is synchronised. -/
def Op.isSync : Op → Bool
  | .sync _ _ => true
  | _ => false

/-- The sales, the payments, the cases and the failures are as before. -/
def OutsideSales (db db' : Db) : Prop :=
  db' = { db with
    merchants := db'.merchants
    users := db'.users
    devices := db'.devices
    products := db'.products
    inventories := db'.inventories
    stockHistories := db'.stockHistories
    seq := db'.seq }

theorem OutsideSales.refl (db : Db) : OutsideSales db db := rfl

theorem OutsideSales.trans {db₁ db₂ db₃ : Db} (h₁ : OutsideSales db₁ db₂)
    (h₂ : OutsideSales db₂ db₃) : OutsideSales db₁ db₃ := by
  unfold OutsideSales at h₁ h₂ ⊢
  rw [h₂, h₁]

theorem updateProduct_outsideSales {i : Ident} {f : Product → Product}
    (h : db.updateProduct i f = .ok db') : OutsideSales db db' := by
  obtain ⟨p, ps, -, -, -, rfl⟩ := updateProduct_eq_ok.mp h
  rfl

theorem updateDevice_outsideSales {i : Ident} {f : Device → Device}
    (h : db.updateDevice i f = .ok db') : OutsideSales db db' := by
  obtain ⟨-, ds, -, rfl⟩ := updateDevice_eq_ok.mp h
  rfl

/-- **A call that is not about sales leaves them as they are.** -/
theorem exec_outsideSales {op : Op} (hop : op.aboutSales = false) :
    OutsideSales db (exec db op) := by
  cases op with
  | register dto hashed =>
    refine commit_rule (.refl db) fun db' h => ?_
    obtain ⟨ms, us, -, rfl⟩ := register_eq_ok h
    rfl
  | createUser owner dto hashed =>
    refine commit_rule (.refl db) fun db' h => ?_
    obtain ⟨us, rfl⟩ := users_create_eq_ok h
    rfl
  | updateUserStatus target owner isActive =>
    refine commit_rule (.refl db) fun db' h => ?_
    obtain ⟨us, rfl⟩ := updateStatus_eq_ok h
    rfl
  | createDevice m u name code now =>
    refine commit_rule (.refl db) fun db' h => ?_
    obtain ⟨-, -, ds, -, rfl⟩ := createDevice_eq_ok.mp h
    rfl
  | pairDevice code hash =>
    refine commit_rule (.refl db) fun db' h => ?_
    obtain ⟨d, -, -, h⟩ := pairDevice_eq_ok h
    exact updateDevice_outsideSales h
  | removeDevice i m =>
    refine commit_rule (.refl db) fun db' h => ?_
    obtain ⟨d, -, -, -, -, h⟩ := removeDevice_eq_ok h
    exact updateDevice_outsideSales h
  | createProduct user dto upload now =>
    show OutsideSales db (Products.create db user dto upload now).1
    rcases products_create_cases db user dto upload now with h | ⟨db₁, h₁, h⟩
    · rw [h]
      exact .refl db
    · have hrows : OutsideSales db db₁ := by
        obtain ⟨-, -, -, ps, is, -, -, -, rfl⟩ := createProductWithInventory_eq_ok.mp h₁
        rfl
      rcases h with h | ⟨_, h⟩
      · rw [h]
        exact hrows
      · exact hrows.trans (updateProduct_outsideSales h)
  | updateProduct user productId dto upload =>
    refine commit_rule (.refl db) fun db' h => ?_
    obtain ⟨_, h⟩ := products_update_eq_ok h
    exact updateProduct_outsideSales h
  | removeProduct user productId =>
    exact commit_rule (.refl db) fun db' h =>
      updateProduct_outsideSales (products_remove_eq_ok h)
  | adjustStock user productId dto now =>
    show OutsideSales db (Products.afterAdjustStock db user productId dto now)
    rcases afterAdjustStock_cases db user productId dto now with ⟨h, -⟩ | ⟨_, -, -, h⟩
    · rw [h]
      exact .refl db
    · obtain ⟨is, heq⟩ := (adjustInventoryAndHistory_moved h).exists_eq
      rw [heq]
      rfl
  | _ => cases hop

theorem updateTransaction_syncQueues {i : Ident} {v : Option Ident} {f : Rewrite Transaction}
    (h : db.updateTransaction i v f = .ok db') : db'.syncQueues = db.syncQueues := by
  obtain ⟨-, -, rfl⟩ := updateTransaction_eq_ok.mp h
  rfl

theorem createReconciliation_syncQueues {row : Reconciliation}
    (h : db.createReconciliation row = .ok db') : db'.syncQueues = db.syncQueues := by
  obtain ⟨-, -, rs, -, rfl⟩ := createReconciliation_eq_ok.mp h
  rfl

theorem resolveWrite_syncQueues {id : Ident} {user : JwtPayload} {r : FoundReconciliation}
    {dto : ResolveReconciliationDto} {now : DateTime}
    (h : Reconciliations.resolveWrite db id user r dto now = .ok db') :
    db'.syncQueues = db.syncQueues := by
  obtain ⟨_, _, _, rfl⟩ := resolveWrite_frame h
  rfl

/-- **Only the synchronisation writes to `SyncQueue`.** -/
theorem exec_syncQueues {op : Op} (hop : op.isSync = false) :
    (exec db op).syncQueues = db.syncQueues := by
  cases op with
  | sync data outcome => cases hop
  | voidTransaction user id reason now =>
    refine commit_frame Db.syncQueues fun db' h => ?_
    obtain ⟨_, -, h⟩ := bind_eq_ok.mp h
    exact updateTransaction_syncQueues h
  | resolveConflict user id dto now =>
    refine commit_frame Db.syncQueues fun db' h => ?_
    obtain ⟨t, -, h⟩ := bind_eq_ok.mp h
    obtain ⟨_, _, _, rfl⟩ := resolveConflictWrite_frame h
    rfl
  | correctTransaction user id dto now =>
    refine commit_frame Db.syncQueues fun db' h => ?_
    obtain ⟨t, -, h⟩ := bind_eq_ok.mp h
    rw [(correctTransactionWrite_corrected h).frame]
  | createReconciliation user dto now =>
    refine commit_frame Db.syncQueues fun db' h => ?_
    obtain ⟨_, -, h⟩ := bind_eq_ok.mp h
    exact createReconciliation_syncQueues h
  | reconcilePayment user paymentId dto now =>
    refine commit_frame Db.syncQueues fun db' h => ?_
    obtain ⟨_, -, h⟩ := bind_eq_ok.mp h
    exact createReconciliation_syncQueues h
  | resolveReconciliation id user dto now =>
    refine commit_frame Db.syncQueues fun db' h => ?_
    obtain ⟨_, -, h⟩ := bind_eq_ok.mp h
    exact resolveWrite_syncQueues h
  | register | createUser | updateUserStatus | createDevice | pairDevice | removeDevice
  | createProduct | updateProduct | removeProduct | adjustStock =>
    rw [exec_outsideSales rfl]

end Frames

end KPos
