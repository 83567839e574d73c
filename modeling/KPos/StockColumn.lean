/-
# The column `current_stock`

A loop of adjustments adds to each row of the inventories what it moves of the product, and
every value that a call leaves there fits the column.

* `adjustEach_rows` : the rows after a loop of adjustments;
* `Db.StockInColumn` : every stock fits the column (`Reachable.stockInColumn`).
-/
import KPos.Catalogue
import KPos.Effects

namespace KPos

section StockColumn

variable {db db' db₁ : Db} {now : DateTime}

/-! ## A loop of adjustments -/

/-- An inventory with another stock. -/
def Inventory.moved (i : Inventory) (n : ℤ) : Inventory :=
  { i with currentStock := i.currentStock + n }

theorem Inventory.moved_zero (i : Inventory) : i.moved 0 = i := by
  unfold Inventory.moved
  rw [add_zero]

theorem Inventory.moved_moved (i : Inventory) (m n : ℤ) :
    (i.moved m).moved n = i.moved (m + n) := by
  unfold Inventory.moved
  rw [add_assoc]

/-- The rows after one increment. -/
theorem inventoriesWith_rows (p : Ident) (n : ℤ) :
    (db.inventoriesWith p n).rows =
      db.inventories.rows.map fun i => i.moved (if p = i.idProduct then n else 0) := by
  unfold Db.inventoriesWith
  rw [Table.rows_update]
  apply List.map_congr_left
  intro i _
  by_cases h : p = i.idProduct
  · have hkey : InventoryKey.product p ∈ UniqueKeys.keys i := by simp [UniqueKeys.keys, h]
    rw [if_pos hkey, if_pos h]
    rfl
  · have hkey : InventoryKey.product p ∉ UniqueKeys.keys i := by simp [UniqueKeys.keys, h]
    rw [if_neg hkey, if_neg h, Inventory.moved_zero]

/-- **The rows after a loop**: the stock of each product moved by what was entered for it. -/
theorem adjustEach_rows {l : List AdjustInventoryParams} (h : adjustEach db now l = .ok db') :
    db'.inventories.rows = db.inventories.rows.map fun i =>
      i.moved (movement i.idProduct (l.map (·.history now))) := by
  induction l generalizing db with
  | nil =>
    obtain rfl : db = db' := by simpa [adjustEach] using h
    symm
    rw [List.map_congr_left fun i _ => show i.moved (movement i.idProduct []) = i by
      simp [Inventory.moved_zero], List.map_id']
  | cons a l ih =>
    unfold adjustEach at h
    rw [List.foldlM_cons, bind_eq_ok] at h
    obtain ⟨db₁, h₁, h⟩ := h
    obtain ⟨-, -, rfl⟩ := adjustInventoryAndHistory_eq_ok.mp h₁
    rw [ih h, inventoriesWith_rows, List.map_map]
    apply List.map_congr_left
    intro i _
    show (i.moved _).moved (movement i.idProduct _) = i.moved _
    rw [Inventory.moved_moved, List.map_cons, ← List.singleton_append, movement_append,
      movement_singleton]
    rfl

/-! ## The invariant -/

/-- Every stock fits its column. -/
def Db.StockInColumn (db : Db) : Prop := ∀ p, fitsInt (db.stock p) = true

theorem stockInColumn_congr (h : ∀ p, db'.stock p = db.stock p) (hdb : db.StockInColumn) :
    db'.StockInColumn := by
  intro p
  rw [h]
  exact hdb p

/-- An adjustment is refused when the stock leaves the column. -/
theorem Db.StockInColumn.adjust (hdb : db.StockInColumn) {a : AdjustInventoryParams}
    (h : adjustInventoryAndHistory db now a = .ok db') : db'.StockInColumn := by
  obtain ⟨hadm, hfits, rfl⟩ := adjustInventoryAndHistory_eq_ok.mp h
  intro p
  have hstock := stock_inventoriesWith (n := a.quantityChange) hadm.1 p
  show fitsInt (Db.stock { db with inventories := _ } p) = true
  rw [hstock]
  split
  · rename_i hp
    rw [← hp]
    exact hfits
  · rw [add_zero]
    exact hdb p

theorem Db.StockInColumn.adjustEach (hdb : db.StockInColumn) {l : List AdjustInventoryParams}
    (h : adjustEach db now l = .ok db') : db'.StockInColumn := by
  induction l generalizing db with
  | nil =>
    obtain rfl : db = db' := by simpa [KPos.adjustEach] using h
    exact hdb
  | cons a l ih =>
    unfold KPos.adjustEach at h
    rw [List.foldlM_cons, bind_eq_ok] at h
    obtain ⟨db₁, h₁, h⟩ := h
    exact ih (hdb.adjust h₁) h

/-- Writes that leave the inventories leave the column. -/
theorem stockInColumn_of_inventories (h : db'.inventories = db.inventories)
    (hdb : db.StockInColumn) : db'.StockInColumn := by
  intro p
  unfold Db.stock
  rw [h]
  exact hdb p

theorem Db.StockInColumn.handleItem (hdb : db.StockInColumn) (data : QueuedTransaction)
    (outcome : ItemOutcome) : (handleItem db data outcome).StockInColumn := by
  obtain ⟨db₁, h₁, h₂⟩ := handleItem_cases db data outcome
  have hsale : db₁.StockInColumn := by
    rcases h₁ with rfl | h₁
    · exact hdb
    · unfold processTransaction at h₁
      simp only [bind_eq_ok, storeTransaction_eq_ok] at h₁
      obtain ⟨-, -, d, created, ts, ps, -, h₁⟩ := h₁
      have hstored : (withSale db data outcome.now ts ps).StockInColumn :=
        stockInColumn_of_inventories rfl hdb
      split at h₁
      · rw [h₁]
        exact hstored
      · exact hstored.adjustEach h₁
  rcases h₂ with h₂ | ⟨_, h₂⟩
  · rw [h₂]
    exact hsale
  · obtain ⟨-, -, qs, -, hdb'⟩ := createSyncQueue_eq_ok.mp h₂
    exact stockInColumn_of_inventories (by rw [hdb']) hsale

theorem updateTransaction_inventories {i : Ident} {v : Option Ident} {f : Rewrite Transaction}
    (h : db.updateTransaction i v f = .ok db') : db'.inventories = db.inventories := by
  obtain ⟨-, -, rfl⟩ := updateTransaction_eq_ok.mp h
  rfl

theorem Db.StockInColumn.resolveConflictWrite (hdb : db.StockInColumn) {user : JwtPayload}
    {t : FoundTransaction} {dto : ResolveConflictDto}
    (h : Transactions.resolveConflictWrite db user t dto now = .ok db') : db'.StockInColumn := by
  unfold Transactions.resolveConflictWrite at h
  split at h
  · obtain ⟨db₁, h₁, h₂⟩ := bind_eq_ok.mp h
    exact stockInColumn_of_inventories (updateTransaction_inventories h₂) (hdb.adjustEach h₁)
  · exact stockInColumn_of_inventories (updateTransaction_inventories h) hdb

theorem Db.StockInColumn.correctTransactionWrite (hdb : db.StockInColumn) {user : JwtPayload}
    {t : FoundTransaction} {dto : CorrectTransactionDto}
    (h : Transactions.correctTransactionWrite db user t dto now = .ok db') :
    db'.StockInColumn := by
  obtain ⟨db₁, db₃, db₄, ts, cs, h₁, -, h₃, h₄, -, rfl⟩ := correctTransactionWrite_steps h
  obtain ⟨ps, n, -, rfl⟩ := clonePayment_frame h₄
  -- only the two loops move stock
  have hback := hdb.adjustEach h₁
  have hreverted : Db.StockInColumn { db₁ with
      transactions := ts
      details := db₁.details ++ correctionDetails dto db₁.newId now
      seq := db₁.seq + 1 } := fun p => hback p
  have hdeducted := hreverted.adjustEach h₃
  exact fun p => hdeducted p

/-- Whether a call may move the stock. -/
def Op.movesStock : Op → Bool
  | .adjustStock .. | .sync .. | .resolveConflict .. | .correctTransaction .. => true
  | _ => false

/-- The other calls leave the stock. -/
theorem stock_eq_of_effect {op : Op} (h : Effect db op db') (hop : op.movesStock = false)
    (p : Ident) : db'.stock p = db.stock p := by
  cases h with
  | alone same => exact same.stock p
  | voided => rfl
  | invalidated _ _ _ rest => exact rest.stock p
  | adjusted | synced | confirmed | conflictVoided | corrected => cases hop

/-- **A call keeps it.** -/
theorem Db.StockInColumn.exec (hdb : db.StockInColumn) (op : Op) : (exec db op).StockInColumn := by
  have hother : op.movesStock = false → (KPos.exec db op).StockInColumn := fun hop =>
    stockInColumn_congr (stock_eq_of_effect (exec_effect db op) hop) hdb
  cases op with
  | adjustStock user productId dto now =>
    show (Products.afterAdjustStock db user productId dto now).StockInColumn
    rcases afterAdjustStock_cases db user productId dto now with ⟨h, -⟩ | ⟨_, -, -, h⟩
    · rw [h]
      exact hdb
    · exact hdb.adjust h
  | sync data outcome => exact hdb.handleItem data outcome
  | resolveConflict user id dto now =>
    refine commit_rule hdb fun db' h => ?_
    obtain ⟨_, -, h⟩ := bind_eq_ok.mp h
    exact hdb.resolveConflictWrite h
  | correctTransaction user id dto now =>
    refine commit_rule hdb fun db' h => ?_
    obtain ⟨_, -, h⟩ := bind_eq_ok.mp h
    exact hdb.correctTransactionWrite h
  | _ => exact hother rfl

theorem Reachable.stockInColumn {us : Table User} (h : Reachable us db) : db.StockInColumn := by
  have hempty : (Db.withUsers us).StockInColumn := fun _ => rfl
  exact h.invariant_total Db.StockInColumn hempty fun _ op hdb => hdb.exec op

end StockColumn

end KPos
