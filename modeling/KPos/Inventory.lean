/-
# Stock changes with their history (`inventory.util.ts`)

`adjustInventoryAndHistory` increments the stock of a product and writes one `StockHistory`
row with the same quantity.  Every service changes stock through it, one item at a time;
`adjustEach` is that loop.

* `adjustEach_moved` : what a loop that goes through leaves;
* `adjustEach_isOk` : exactly when it goes through.
-/
import KPos.Writes

namespace KPos

/-! ## The code -/

structure AdjustInventoryParams where
  idProduct : Ident
  idMerchant : Ident
  idUser : Ident
  idTransaction : Option Ident
  quantityChange : ℤ
  movementType : StockMovementType
  notes : String

/-- The `StockHistory` row that is written. -/
def AdjustInventoryParams.history (params : AdjustInventoryParams) (now : DateTime) :
    StockHistory where
  idProduct := params.idProduct
  idMerchant := some params.idMerchant
  idUser := some params.idUser
  movementType := params.movementType
  quantity := params.quantityChange
  idTransaction := params.idTransaction
  notes := some params.notes
  createdAt := now

def adjustInventoryAndHistory (db : Db) (now : DateTime) (params : AdjustInventoryParams) :
    Except Err Db := do
  let db ← db.incrementStock params.idProduct params.quantityChange
  db.createStockHistory (params.history now)

/-- `for (…) await adjustInventoryAndHistory(tx, …)`. -/
def adjustEach (db : Db) (now : DateTime) (l : List AdjustInventoryParams) : Except Err Db :=
  l.foldlM (fun db params => adjustInventoryAndHistory db now params) db

/-! ## Movements -/

/-- What `StockHistory` rows move of a product. -/
def movement (p : Ident) (hs : List StockHistory) : ℤ :=
  tally (fun h => decide (h.idProduct = p)) (·.quantity) hs

@[simp] theorem movement_nil (p : Ident) : movement p [] = 0 := rfl

@[simp] theorem movement_append (p : Ident) (hs hs' : List StockHistory) :
    movement p (hs ++ hs') = movement p hs + movement p hs' := Tally.tally_append _ _

theorem movement_singleton (p : Ident) (h : StockHistory) :
    movement p [h] = if h.idProduct = p then h.quantity else 0 := by
  unfold movement
  rw [Tally.tally_singleton]
  simp

/-- The stock after an increment. -/
theorem stock_inventoriesWith {db : Db} {p : Ident} {n : ℤ}
    (h : db.inventories.has (.product p) = true) (q : Ident) :
    Db.stock { db with inventories := db.inventoriesWith p n } q
      = db.stock q + if p = q then n else 0 := by
  unfold Db.stock stockIn Db.inventoriesWith
  rw [Table.findUnique_update]
  cases hq : db.inventories.findUnique (.product q) with
  | none =>
    have hpq : p ≠ q := by
      rintro rfl
      simp [Table.has, hq] at h
    simp [hpq]
  | some i =>
    have hi : i.idProduct = q := by
      have := (Table.findUnique_eq_some.mp hq).2
      simpa [UniqueKeys.keys, eq_comm] using this
    by_cases hpq : p = q
    · simp [UniqueKeys.keys, hi, hpq]
    · have hip : ¬ p = i.idProduct := fun h => hpq (h.trans hi)
      simp [UniqueKeys.keys, hpq, hip]

/-! ## What a loop leaves -/

/-- `db'` is `db` after the movements `hs`: the stock moved with them and nothing else
changed. -/
structure StockMoved (db db' : Db) (hs : List StockHistory) : Prop where
  histories : db'.stockHistories = db.stockHistories ++ hs
  stock : ∀ p, db'.stock p = db.stock p + movement p hs
  has : ∀ k, db'.inventories.has k = db.inventories.has k
  frame : db' = { db with
    inventories := db'.inventories
    stockHistories := db'.stockHistories }

theorem StockMoved.refl (db : Db) : StockMoved db db [] where
  histories := (List.append_nil _).symm
  stock := fun p => by simp
  has := fun _ => rfl
  frame := rfl

theorem StockMoved.trans {db₁ db₂ db₃ : Db} {hs hs' : List StockHistory}
    (h₁ : StockMoved db₁ db₂ hs) (h₂ : StockMoved db₂ db₃ hs') :
    StockMoved db₁ db₃ (hs ++ hs') where
  histories := by rw [h₂.histories, h₁.histories, List.append_assoc]
  stock := fun p => by rw [h₂.stock p, h₁.stock p, movement_append, add_assoc]
  has := fun k => (h₂.has k).trans (h₁.has k)
  frame := by
    rw [h₂.frame, h₁.frame]

theorem StockMoved.exists_eq {db db' : Db} {hs : List StockHistory} (h : StockMoved db db' hs) :
    ∃ is, db' = { db with inventories := is, stockHistories := db.stockHistories ++ hs } :=
  ⟨db'.inventories, by rw [← h.histories]; exact h.frame⟩

/-- What a call needs besides room in the column: the rows that its two writes name. -/
def Db.admits (db : Db) (a : AdjustInventoryParams) : Prop :=
  db.inventories.has (.product a.idProduct) = true ∧ fitsInt a.quantityChange = true ∧
    db.products.has (.id a.idProduct) = true ∧ db.merchants.has (.id a.idMerchant) = true ∧
    db.users.has (.id a.idUser) = true ∧
    ∀ t, a.idTransaction = some t → db.transactions.has (.id t) = true

theorem adjustInventoryAndHistory_eq_ok {db db' : Db} {now : DateTime}
    {a : AdjustInventoryParams} : adjustInventoryAndHistory db now a = .ok db' ↔
      db.admits a ∧ fitsInt (db.stock a.idProduct + a.quantityChange) = true ∧
        db' = { db with
          inventories := db.inventoriesWith a.idProduct a.quantityChange
          stockHistories := db.stockHistories ++ [a.history now] } := by
  simp only [adjustInventoryAndHistory, bind_eq_ok, incrementStock_eq_ok,
    createStockHistory_eq_ok, AdjustInventoryParams.history, Option.all_some, Db.admits]
  constructor
  · rintro ⟨_, ⟨hinv, hfit, rfl⟩, hq, hp, hm, hu, ht, rfl⟩
    refine ⟨⟨hinv, hq, hp, hm, hu, fun t hat => ?_⟩, hfit, rfl⟩
    simpa [hat] using ht
  · rintro ⟨⟨hinv, hq, hp, hm, hu, ht⟩, hfit, rfl⟩
    refine ⟨_, ⟨hinv, hfit, rfl⟩, hq, hp, hm, hu, ?_, rfl⟩
    cases hat : a.idTransaction with
    | none => rfl
    | some t => exact ht t hat

/-- One call moves the stock by one row. -/
theorem adjustInventoryAndHistory_moved {db db' : Db} {now : DateTime}
    {a : AdjustInventoryParams} (h : adjustInventoryAndHistory db now a = .ok db') :
    StockMoved db db' [a.history now] := by
  obtain ⟨hadm, -, rfl⟩ := adjustInventoryAndHistory_eq_ok.mp h
  refine ⟨rfl, fun p => ?_, fun k => ?_, rfl⟩
  · rw [movement_singleton]
    exact stock_inventoriesWith hadm.1 p
  · show (db.inventoriesWith a.idProduct a.quantityChange).has k = db.inventories.has k
    exact Table.has_update

/-- **What a loop leaves**: one row for each of its calls, in order. -/
theorem adjustEach_moved {db db' : Db} {now : DateTime} {l : List AdjustInventoryParams}
    (h : adjustEach db now l = .ok db') : StockMoved db db' (l.map (·.history now)) := by
  -- by induction on the calls: each enters one row and moves the stock by it
  induction l generalizing db with
  | nil =>
    obtain rfl : db = db' := by simpa [adjustEach] using h
    exact .refl db
  | cons a l ih =>
    unfold adjustEach at h
    rw [List.foldlM_cons, bind_eq_ok] at h
    obtain ⟨db₁, h₁, h⟩ := h
    exact (adjustInventoryAndHistory_moved h₁).trans (ih h)

/-! ## When a loop goes through -/

/-- The stock stays in its column after each call of the loop. -/
def Db.StockFits (db : Db) (now : DateTime) (l : List AdjustInventoryParams) : Prop :=
  ∀ l₁ a l₂, l = l₁ ++ a :: l₂ →
    fitsInt (db.stock a.idProduct + movement a.idProduct ((l₁ ++ [a]).map (·.history now)))
      = true

/-- A call needs the same rows after the stock moved. -/
theorem StockMoved.admits_iff {db db' : Db} {hs : List StockHistory}
    (h : StockMoved db db' hs) (a : AdjustInventoryParams) : db'.admits a ↔ db.admits a := by
  have hp : db'.products = db.products := by rw [h.frame]
  have hm : db'.merchants = db.merchants := by rw [h.frame]
  have hu : db'.users = db.users := by rw [h.frame]
  have ht : db'.transactions = db.transactions := by rw [h.frame]
  unfold Db.admits
  rw [h.has, hp, hm, hu, ht]

theorem stockFits_cons {db db₁ : Db} {now : DateTime} {a : AdjustInventoryParams}
    {l : List AdjustInventoryParams} (h : StockMoved db db₁ [a.history now]) :
    db.StockFits now (a :: l) ↔
      fitsInt (db.stock a.idProduct + a.quantityChange) = true ∧ db₁.StockFits now l := by
  have hself : movement a.idProduct [a.history now] = a.quantityChange := by
    rw [movement_singleton]
    exact if_pos rfl
  constructor
  · intro hfits
    refine ⟨?_, fun l₁ b l₂ hl => ?_⟩
    · have := hfits [] a l rfl
      rwa [List.nil_append, List.map_singleton, hself] at this
    · have := hfits (a :: l₁) b l₂ (by rw [hl, List.cons_append])
      rwa [List.cons_append, List.map_cons, ← List.singleton_append, movement_append,
        ← add_assoc, ← h.stock] at this
  · rintro ⟨hfit, hfits⟩ l₁ b l₂ hl
    cases l₁ with
    | nil =>
      obtain ⟨rfl, rfl⟩ := List.cons.inj hl
      rwa [List.nil_append, List.map_singleton, hself]
    | cons c l₁ =>
      obtain ⟨rfl, rfl⟩ := List.cons.inj hl
      rw [List.cons_append, List.map_cons, ← List.singleton_append, movement_append,
        ← add_assoc, ← h.stock]
      exact hfits l₁ b l₂ rfl

/-- **When a loop goes through**: every call finds its rows, and the stock stays in its
column. -/
theorem adjustEach_isOk {db : Db} {now : DateTime} {l : List AdjustInventoryParams} :
    (∃ db', adjustEach db now l = .ok db') ↔
      (∀ a ∈ l, db.admits a) ∧ db.StockFits now l := by
  induction l generalizing db with
  | nil =>
    constructor
    · intro _
      refine ⟨fun _ ha => (nomatch ha), fun l₁ a l₂ h => ?_⟩
      simp at h
    · intro _
      exact ⟨db, rfl⟩
  | cons a l ih =>
    -- the loop goes through when its first call does and the rest does after it
    have hstep : (∃ db', adjustEach db now (a :: l) = .ok db') ↔
        ∃ db₁, adjustInventoryAndHistory db now a = .ok db₁ ∧
          ∃ db', adjustEach db₁ now l = .ok db' := by
      unfold adjustEach
      simp only [List.foldlM_cons, bind_eq_ok]
      constructor
      · rintro ⟨db', db₁, h₁, h⟩
        exact ⟨db₁, h₁, db', h⟩
      · rintro ⟨db₁, h₁, db', h⟩
        exact ⟨db', db₁, h₁, h⟩
    rw [hstep, List.forall_mem_cons]
    constructor
    · rintro ⟨db₁, h₁, h⟩
      have hmoved := adjustInventoryAndHistory_moved h₁
      obtain ⟨hadm, hfit, -⟩ := adjustInventoryAndHistory_eq_ok.mp h₁
      obtain ⟨hall, hfits⟩ := ih.mp h
      exact ⟨⟨hadm, fun b hb => (hmoved.admits_iff b).mp (hall b hb)⟩,
        (stockFits_cons hmoved).mpr ⟨hfit, hfits⟩⟩
    · rintro ⟨⟨hadm, hall⟩, hfits⟩
      have hfit : fitsInt (db.stock a.idProduct + a.quantityChange) = true := by
        have := hfits [] a l rfl
        rw [List.nil_append, List.map_singleton, movement_singleton] at this
        simpa [AdjustInventoryParams.history] using this
      obtain ⟨db₁, h₁⟩ : ∃ db₁, adjustInventoryAndHistory db now a = .ok db₁ :=
        ⟨_, adjustInventoryAndHistory_eq_ok.mpr ⟨hadm, hfit, rfl⟩⟩
      have hmoved := adjustInventoryAndHistory_moved h₁
      exact ⟨db₁, h₁, ih.mpr ⟨fun b hb => (hmoved.admits_iff b).mpr (hall b hb),
        ((stockFits_cons hmoved).mp hfits).2⟩⟩

end KPos
