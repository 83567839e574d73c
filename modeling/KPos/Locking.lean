/-
# Concurrent runs of `processTransaction` (`sync-consumer.service.ts`)

Each run checks its lines one after the other, with `SELECT … FOR UPDATE`, and holds the lock
of every row that it was given until its database transaction ends.  What it writes is seen
by the others from the commit on, so the writes are one step with it; a row that is locked
is changed by no other run.

* `Locking.next` : the system of such runs;
* `committed_serial` : the database is what the committed runs leave one after the other;
* `no_oversell` : when no stock becomes negative;
* `oversell` : two lines of one product that become negative together.
-/
import KPos.Lib.RowLock
import KPos.Storing

namespace KPos

/-! ## The system -/

/-- A run of `processTransaction`: the lines that it has selected with the rows it was given,
the last one first, the lines that it has not selected yet, and what it knows of conflicts. -/
structure Processing where
  data : QueuedTransaction
  now : DateTime
  selected : List (SyncItemDto × Option InventoryData)
  rest : List SyncItemDto
  hasConflict : Bool

/-- A run whose arithmetic is right. -/
def Processing.start (data : QueuedTransaction) (now : DateTime) : Processing :=
  ⟨data, now, [], data.items, false⟩

/-- The run after one round of the loop of `checkStockAvailability`. -/
def Processing.select (pr : Processing) (item : SyncItemDto) (rest : List SyncItemDto)
    (row : Option InventoryData) : Processing :=
  { pr with
    selected := (item, row) :: pr.selected
    rest := rest
    hasConflict := item.conflictsWith row }

/-- The stock check is over: a line conflicts, or there are no more lines. -/
def Processing.checked (pr : Processing) : Bool := pr.hasConflict || pr.rest.isEmpty

/-- What the run was given, by product. -/
def Processing.reads (pr : Processing) : List (Ident × Option InventoryData) :=
  pr.selected.map fun x => (x.1.idProduct, x.2)

/-- The database, the runs under way, who holds the lock of a product's rows, and the runs that
have committed. -/
structure Locking where
  db : Db
  running : ℕ → Option Processing
  owner : Ident → Option ℕ
  committed : List Processing

inductive LockingAction where
  | begin (i : ℕ) (data : QueuedTransaction) (now : DateTime)
  | select (i : ℕ)
  | commit (i : ℕ)
  | abort (i : ℕ)

def Locking.start (db : Db) : Locking := ⟨db, fun _ => none, fun _ => none, []⟩

/-- The run `i` has ended: its locks are free. -/
def Locking.release (σ : Locking) (i : ℕ) : Locking :=
  { σ with
    running := Function.update σ.running i none
    owner := fun p => if σ.owner p = some i then none else σ.owner p }

/-- The run `i` selects the rows of a line.  It waits as long as another one holds them; there
is nothing to lock where there is no row. -/
def Locking.selectLine (σ : Locking) (i : ℕ) (pr : Processing) (item : SyncItemDto)
    (rest : List SyncItemDto) : Option Locking :=
  let row := σ.db.selectForUpdate item.idProduct
  let selected := Function.update σ.running i (some (pr.select item rest row))
  if row = none then
    some { σ with running := selected }
  else if σ.owner item.idProduct = none ∨ σ.owner item.idProduct = some i then
    some { σ with
      running := selected
      owner := Function.update σ.owner item.idProduct (some i) }
  else none

def Locking.next (σ : Locking) : LockingAction → Option Locking
  | .begin i data now =>
      match σ.running i, validateArithmetic data.toSyncTransactionDto with
      | none, .ok _ =>
          some { σ with running := Function.update σ.running i (some (.start data now)) }
      | _, _ => none
  | .select i => (σ.running i).bind fun pr =>
      match pr.hasConflict, pr.rest with
      | false, item :: rest => σ.selectLine i pr item rest
      | _, _ => none
  | .commit i => (σ.running i).bind fun pr =>
      if pr.checked then
        (storeTransaction σ.db pr.data pr.hasConflict pr.now).toOption.map fun db =>
          { σ.release i with db := db, committed := σ.committed ++ [pr] }
      else none
  | .abort i => (σ.running i).map fun _ => σ.release i

/-! ## Rows and stock -/

section Rows

variable {db db' : Db} {p : Ident}

/-- The row of a product, by the stock and the product. -/
theorem selectForUpdate_eq (db : Db) (p : Ident) : db.selectForUpdate p =
    if db.inventories.has (.product p) then
      (db.products.findUnique (.id p)).map fun q => ⟨db.stock p, q.isActive⟩
    else none := by
  unfold Db.selectForUpdate Table.has Db.stock stockIn
  cases hi : db.inventories.findUnique (.product p) with
  | none => rfl
  | some i =>
    have hip : i.idProduct = p := by
      have := (Table.findUnique_eq_some.mp hi).2
      simpa [UniqueKeys.keys, eq_comm] using this
    subst hip
    cases hq : db.products.findUnique (.id i.idProduct) with
    | none => simp [hq]
    | some q => simp [hq]

section Sale

variable {data : QueuedTransaction} {hasConflict : Bool} {now created : DateTime} {d : Device}
  (h : StoredSale db db' data hasConflict now d created)

include h

/-- The stock after a sale: less its lines, if it is confirmed. -/
theorem StoredSale.stock_eq (p : Ident) :
    db'.stock p = db.stock p - if hasConflict then 0 else demand p data.items := by
  rw [h.entered.stock]
  cases hasConflict with
  | true => simp
  | false =>
    show _ + movement p (saleHistories data db.newId d.idMerchant now) = _
    unfold saleHistories
    rw [movement_saleHistories]
    exact (sub_eq_add_neg _ _).symm

/-- The rows of a product whose stock stays are as they were. -/
theorem StoredSale.selectForUpdate_eq (hp : db'.stock p = db.stock p) :
    db'.selectForUpdate p = db.selectForUpdate p := by
  have hproducts : db'.products = db.products := by rw [h.frame]
  rw [KPos.selectForUpdate_eq, KPos.selectForUpdate_eq, h.has, hp, hproducts]

/-- A sale creates no rows of products. -/
theorem StoredSale.selectForUpdate_none (hp : db.selectForUpdate p = none) :
    db'.selectForUpdate p = none := by
  have hproducts : db'.products = db.products := by rw [h.frame]
  rw [KPos.selectForUpdate_eq] at hp ⊢
  rw [h.has, hproducts]
  split
  · rename_i hhas
    rw [if_pos hhas, Option.map_eq_none_iff] at hp
    rw [hp]
    rfl
  · rfl

end Sale

/-- A product without lines is not asked for. -/
theorem demand_eq_zero {items : List SyncItemDto} (h : ∀ item ∈ items, item.idProduct ≠ p) :
    demand p items = 0 := by
  apply Tally.tally_eq_zero
  intro item hitem
  exact decide_eq_false (h item hitem)

end Rows

/-! ## Reads under locks -/

/-- The database as a store of rows under locks. -/
def Locking.view (σ : Locking) : LockView Ident InventoryData ℕ where
  row := σ.db.selectForUpdate
  owner := σ.owner
  reads := fun i => ((σ.running i).map Processing.reads).getD []

/-- What a run knows of its lines. -/
structure Processing.Sound (pr : Processing) : Prop where
  arithmetic : pr.data.Arithmetic
  lines : pr.data.items = (pr.selected.map (·.1)).reverse ++ pr.rest
  fits : pr.hasConflict = false → ∀ x ∈ pr.selected, x.1.conflictsWith x.2 = false
  conflicts : pr.hasConflict = true → ∃ x ∈ pr.selected, x.1.conflictsWith x.2 = true

section Reads

variable {σ : Locking} {i : ℕ} {pr : Processing}

/-- The reads after a run changed. -/
theorem reads_update (σ : Locking) (i : ℕ) (o : Option Processing) :
    (fun j => ((Function.update σ.running i o j).map Processing.reads).getD [])
      = Function.update σ.view.reads i ((o.map Processing.reads).getD []) := by
  funext j
  by_cases hj : j = i
  · rw [hj, Function.update_self, Function.update_self]
  · rw [Function.update_of_ne hj, Function.update_of_ne hj]
    rfl

/-- A row that a run was given is still the row of its product. -/
theorem select_current (hv : σ.view.Valid) (hpr : σ.running i = some pr)
    {x : SyncItemDto × Option InventoryData} (hx : x ∈ pr.selected) :
    σ.db.selectForUpdate x.1.idProduct = x.2 ∧
      (x.2 ≠ none → σ.owner x.1.idProduct = some i) := by
  apply hv i
  show _ ∈ ((σ.running i).map Processing.reads).getD []
  rw [hpr]
  exact List.mem_map_of_mem hx

theorem Processing.Sound.mem_items (hs : pr.Sound) {x : SyncItemDto × Option InventoryData}
    (hx : x ∈ pr.selected) : x.1 ∈ pr.data.items := by
  rw [hs.lines]
  exact List.mem_append_left _ (List.mem_reverse.mpr (List.mem_map_of_mem hx))

/-- A run without a conflict has selected all of its lines when its check is over. -/
theorem Processing.Sound.exists_row (hs : pr.Sound) (hchecked : pr.checked = true)
    (hfree : pr.hasConflict = false) {item : SyncItemDto} (hitem : item ∈ pr.data.items) :
    ∃ row, (item, row) ∈ pr.selected := by
  have hrest : pr.rest = [] := by
    simpa [Processing.checked, hfree] using hchecked
  rw [hs.lines, hrest, List.append_nil, List.mem_reverse] at hitem
  obtain ⟨x, hx, rfl⟩ := List.mem_map.mp hitem
  exact ⟨x.2, hx⟩

/-- **The outcome of the stock check is current**: the check would end so on the database as it
is by now. -/
theorem check_current (hv : σ.view.Valid) (hpr : σ.running i = some pr) (hs : pr.Sound)
    (hchecked : pr.checked = true) :
    checkStockAvailability σ.db pr.data.items = pr.hasConflict := by
  cases hconflict : pr.hasConflict with
  | false =>
    rw [checkStockAvailability_eq_false]
    intro item hitem
    obtain ⟨row, hrow⟩ := hs.exists_row hchecked hconflict hitem
    rw [(select_current hv hpr hrow).1]
    exact hs.fits hconflict _ hrow
  | true =>
    obtain ⟨x, hx, hxconflict⟩ := hs.conflicts hconflict
    by_contra hne
    have hcheck := Bool.eq_false_of_not_eq_true hne
    have hfits := checkStockAvailability_eq_false.mp hcheck x.1 (hs.mem_items hx)
    rw [(select_current hv hpr hx).1, hxconflict] at hfits
    cases hfits

/-- **A commit does what `processTransaction` does** on the database as it is by then. -/
theorem commit_processTransaction {db : Db} (hv : σ.view.Valid) (hpr : σ.running i = some pr)
    (hs : pr.Sound) (hchecked : pr.checked = true)
    (h : storeTransaction σ.db pr.data pr.hasConflict pr.now = .ok db) :
    processTransaction σ.db pr.data pr.now = .ok db := by
  unfold processTransaction
  rw [bind_eq_ok]
  refine ⟨(), validateArithmetic_eq_ok.mpr hs.arithmetic, ?_⟩
  show storeTransaction σ.db pr.data (checkStockAvailability σ.db pr.data.items) pr.now = _
  rw [check_current hv hpr hs hchecked]
  exact h

/-- A commit changes no row that the run does not hold. -/
theorem commit_row {db : Db} {d : Device} {created : DateTime} {p : Ident} (hv : σ.view.Valid)
    (hpr : σ.running i = some pr) (hs : pr.Sound) (hchecked : pr.checked = true)
    (h : StoredSale σ.db db pr.data pr.hasConflict pr.now d created) (hp : σ.owner p ≠ some i) :
    db.selectForUpdate p = σ.db.selectForUpdate p := by
  apply h.selectForUpdate_eq
  rw [h.stock_eq]
  cases hconflict : pr.hasConflict with
  | true => simp
  | false =>
    have hdemand : demand p pr.data.items = 0 := by
      refine demand_eq_zero fun item hitem heq => ?_
      obtain ⟨row, hrow⟩ := hs.exists_row hchecked hconflict hitem
      obtain ⟨inv, hinv, -⟩ := conflictsWith_eq_false.mp (hs.fits hconflict _ hrow)
      have howner := (select_current hv hpr hrow).2 (by rw [hinv]; exact Option.some_ne_none inv)
      rw [heq] at howner
      exact hp howner
    simp [hdemand]

end Reads

/-! ## Steps -/

section Steps

variable {σ τ : Locking} {a : LockingAction}

/-- **What a step can do.** -/
theorem Locking.next_cases (h : Locking.next σ a = some τ) :
    (∃ i data now, a = .begin i data now ∧ σ.running i = none ∧ data.Arithmetic ∧
      τ = { σ with running := Function.update σ.running i (some (.start data now)) }) ∨
    (∃ i pr item rest, σ.running i = some pr ∧ pr.hasConflict = false ∧
      pr.rest = item :: rest ∧ σ.selectLine i pr item rest = some τ) ∨
    (∃ i pr db, a = .commit i ∧ σ.running i = some pr ∧ pr.checked = true ∧
      storeTransaction σ.db pr.data pr.hasConflict pr.now = .ok db ∧
      τ = { σ.release i with db := db, committed := σ.committed ++ [pr] }) ∨
    (∃ i, τ = σ.release i) := by
  cases a with
  | begin i data now =>
    simp only [Locking.next] at h
    split at h
    · rename_i hnone harith
      obtain rfl := Option.some.inj h
      exact Or.inl ⟨i, data, now, rfl, hnone, validateArithmetic_eq_ok.mp harith, rfl⟩
    · cases h
  | select i =>
    obtain ⟨pr, hpr, h⟩ := Option.bind_eq_some_iff.mp h
    split at h
    · rename_i item rest hconflict hrest
      exact Or.inr (Or.inl ⟨i, pr, item, rest, hpr, hconflict, hrest, h⟩)
    · cases h
  | commit i =>
    obtain ⟨pr, hpr, h⟩ := Option.bind_eq_some_iff.mp h
    split at h
    · rename_i hchecked
      obtain ⟨db, hdb, rfl⟩ := Option.map_eq_some_iff.mp h
      exact Or.inr (Or.inr (Or.inl ⟨i, pr, db, rfl, hpr, hchecked, toOption_eq_some hdb, rfl⟩))
    · cases h
  | abort i =>
    obtain ⟨pr, -, rfl⟩ := Option.map_eq_some_iff.mp h
    exact Or.inr (Or.inr (Or.inr ⟨i, rfl⟩))

/-- The rows of a line, selected: what a run was given is the row of the product, and its lock is
the run's if there is a row. -/
theorem Locking.selectLine_cases {i : ℕ} {pr : Processing} {item : SyncItemDto}
    {rest : List SyncItemDto} (h : σ.selectLine i pr item rest = some τ) :
    τ.db = σ.db ∧ τ.committed = σ.committed ∧
      τ.running = Function.update σ.running i
        (some (pr.select item rest (σ.db.selectForUpdate item.idProduct))) ∧
      (σ.db.selectForUpdate item.idProduct = none ∧ τ.owner = σ.owner ∨
        σ.db.selectForUpdate item.idProduct ≠ none ∧
          (σ.owner item.idProduct = none ∨ σ.owner item.idProduct = some i) ∧
          τ.owner = Function.update σ.owner item.idProduct (some i)) := by
  unfold Locking.selectLine at h
  dsimp only at h
  split at h
  · rename_i hrow
    obtain rfl := Option.some.inj h
    exact ⟨rfl, rfl, rfl, Or.inl ⟨hrow, rfl⟩⟩
  · rename_i hrow
    split at h
    · rename_i hfree
      obtain rfl := Option.some.inj h
      exact ⟨rfl, rfl, rfl, Or.inr ⟨hrow, hfree, rfl⟩⟩
    · cases h

theorem Locking.view_release (σ : Locking) (i : ℕ) (db : Db) (c : List Processing) :
    Locking.view { σ.release i with db := db, committed := c }
      = { row := db.selectForUpdate
          owner := fun p => if σ.view.owner p = some i then none else σ.view.owner p
          reads := Function.update σ.view.reads i [] } := by
  unfold Locking.view Locking.release
  congr 1
  exact reads_update σ i none

/-- **Every step keeps to the locking discipline.** -/
theorem Locking.next_lockStep (hv : σ.view.Valid)
    (hs : ∀ i pr, σ.running i = some pr → pr.Sound) (h : Locking.next σ a = some τ) :
    τ.view = σ.view ∨ LockView.LockStep σ.view τ.view := by
  rcases Locking.next_cases h with ⟨i, data, now, -, hnone, -, rfl⟩ |
    ⟨i, pr, item, rest, hpr, -, -, hsel⟩ | ⟨i, pr, db, -, hpr, hchecked, hstore, rfl⟩ | ⟨i, rfl⟩
  · -- nothing is read at the start
    left
    have hreads : Function.update σ.view.reads i [] = σ.view.reads := by
      rw [Function.update_eq_self_iff]
      show [] = ((σ.running i).map Processing.reads).getD []
      rw [hnone]
      rfl
    unfold Locking.view
    congr 1
    exact (reads_update σ i _).trans hreads
  · right
    obtain ⟨hdb, -, hrunning, howner⟩ := Locking.selectLine_cases hsel
    have hreads : τ.view.reads = Function.update σ.view.reads i
        ((item.idProduct, σ.view.row item.idProduct) :: σ.view.reads i) := by
      have hold : σ.view.reads i = pr.reads := by
        show ((σ.running i).map Processing.reads).getD [] = _
        rw [hpr]
        rfl
      rw [hold]
      unfold Locking.view
      rw [hrunning]
      exact reads_update σ i _
    have hview : τ.view = ⟨σ.view.row, τ.owner, τ.view.reads⟩ := by
      unfold Locking.view
      rw [hdb]
    rw [hview, hreads]
    rcases howner with ⟨hrow, howner⟩ | ⟨hrow, hfree, howner⟩
    · have hnone : σ.view.row item.idProduct = none := hrow
      rw [howner, hnone]
      exact .miss i item.idProduct hrow
    · rw [howner]
      exact .lock i item.idProduct hfree hrow
  · right
    obtain ⟨d, created, hsale⟩ := storeTransaction_stored hstore
    rw [Locking.view_release]
    -- the rows that a commit changes were selected, so they are locked
    refine .finish i db.selectForUpdate (fun p hp => ?_) fun p hp => ?_
    · exact commit_row hv hpr (hs i pr hpr) hchecked hsale hp
    · exact hsale.selectForUpdate_none hp
  · right
    have hview : (σ.release i).view = _ := Locking.view_release σ i σ.db σ.committed
    rw [hview]
    exact .finish i _ (fun _ _ => rfl) fun _ hp => hp

end Steps

/-! ## Concurrent runs are serial -/

theorem Processing.sound_start {data : QueuedTransaction} (h : data.Arithmetic) (now : DateTime) :
    (Processing.start data now).Sound where
  arithmetic := h
  lines := rfl
  fits := fun _ _ hx => nomatch hx
  conflicts := fun hconflict => nomatch hconflict

theorem Processing.Sound.select {pr : Processing} {item : SyncItemDto} {rest : List SyncItemDto}
    (hs : pr.Sound) (hfree : pr.hasConflict = false) (hrest : pr.rest = item :: rest)
    (row : Option InventoryData) : (pr.select item rest row).Sound where
  arithmetic := hs.arithmetic
  lines := by
    show pr.data.items = (item :: pr.selected.map (·.1)).reverse ++ rest
    rw [hs.lines, hrest, List.reverse_cons, List.append_assoc]
    rfl
  fits := by
    intro hconflict x hx
    rcases List.mem_cons.mp hx with rfl | hx
    · exact hconflict
    · exact hs.fits hfree x hx
  conflicts := fun hconflict => ⟨(item, row), List.mem_cons_self, hconflict⟩

/-- What was read is still so, and the runs under way know their lines. -/
structure Locking.Locked (σ : Locking) : Prop where
  valid : σ.view.Valid
  sound : ∀ i pr, σ.running i = some pr → pr.Sound

theorem Locking.locked_start (db : Db) : (Locking.start db).Locked where
  valid := LockView.valid_of_reads_nil fun _ => rfl
  sound := fun _ _ h => nomatch h

section Locked

variable {σ τ : Locking} {i : ℕ}

/-- The runs under way stay sound when one of them changes. -/
theorem Locking.Locked.sound_update (hσ : σ.Locked) {o : Option Processing}
    (ho : ∀ pr, o = some pr → pr.Sound) :
    ∀ j pr, Function.update σ.running i o j = some pr → pr.Sound := by
  intro j pr hpr
  by_cases hj : j = i
  · rw [hj, Function.update_self] at hpr
    exact ho pr hpr
  · rw [Function.update_of_ne hj] at hpr
    exact hσ.sound j pr hpr

/-- The runs under way stay sound when one of them ends. -/
theorem Locking.Locked.sound_release (hσ : σ.Locked) (i : ℕ) :
    ∀ j pr, (σ.release i).running j = some pr → pr.Sound :=
  hσ.sound_update (o := none) fun _ h => nomatch h

theorem Locking.Locked.next {a : LockingAction} (hσ : σ.Locked)
    (h : Locking.next σ a = some τ) : τ.Locked := by
  have hvalid : τ.view.Valid := by
    rcases Locking.next_lockStep hσ.valid hσ.sound h with hview | hstep
    · rw [hview]
      exact hσ.valid
    · exact hstep.valid hσ.valid
  rcases Locking.next_cases h with ⟨i, data, now, -, -, harith, rfl⟩ |
    ⟨i, pr, item, rest, hpr, hfree, hrest, hsel⟩ | ⟨i, pr, db, rfl, hpr, hchecked, hstore, rfl⟩ |
    ⟨i, rfl⟩
  · refine ⟨hvalid, hσ.sound_update fun pr hpr => ?_⟩
    rw [← Option.some.inj hpr]
    exact Processing.sound_start harith now
  · obtain ⟨-, -, hrunning, -⟩ := Locking.selectLine_cases hsel
    refine ⟨hvalid, ?_⟩
    rw [hrunning]
    refine hσ.sound_update fun pr' hpr' => ?_
    rw [← Option.some.inj hpr']
    exact (hσ.sound i pr hpr).select hfree hrest _
  · exact ⟨hvalid, hσ.sound_release i⟩
  · exact ⟨hvalid, hσ.sound_release i⟩

/-- A run that runs alone. -/
def processAlone (db : Db) (pr : Processing) : Except Err Db :=
  processTransaction db pr.data pr.now

/-- **Concurrent runs are serial**: the database is what the committed runs leave when each of
them runs alone, in the order of their commits. -/
theorem committed_serial {db : Db} {σ : Locking}
    (h : Runs.Reaches Locking.next (Locking.start db) σ) :
    σ.committed.foldlM processAlone db = .ok σ.db := by
  have hall : σ.Locked ∧
      σ.committed.foldlM processAlone db = .ok σ.db := by
    refine h.invariant (fun σ => σ.Locked ∧
      σ.committed.foldlM processAlone db = .ok σ.db)
      ⟨Locking.locked_start db, rfl⟩ ?_
    rintro σ a τ ⟨hσ, hserial⟩ hstep
    refine ⟨hσ.next hstep, ?_⟩
    rcases Locking.next_cases hstep with ⟨i, data, now, -, -, -, rfl⟩ |
      ⟨i, pr, item, rest, -, -, -, hsel⟩ | ⟨i, pr, db', rfl, hpr, hchecked, hstore, rfl⟩ |
      ⟨i, rfl⟩
    · exact hserial
    · obtain ⟨hdb, hcommitted, -⟩ := Locking.selectLine_cases hsel
      rw [hdb, hcommitted]
      exact hserial
    · -- the check is still right, so the commit is a whole run of its own
      have hprocess := commit_processTransaction hσ.valid hpr (hσ.sound i pr hpr) hchecked hstore
      show (σ.committed ++ [pr]).foldlM processAlone db = .ok db'
      rw [List.foldlM_append, bind_eq_ok]
      refine ⟨σ.db, hserial, ?_⟩
      rw [List.foldlM_cons, bind_eq_ok]
      exact ⟨db', hprocess, rfl⟩
    · exact hserial
  exact hall.2

end Locked

/-! ## Overselling -/

/-- The lines fit one by one, but those of a product with more than one line do not fit
together. -/
def SplitOverdraw (db : Db) (items : List SyncItemDto) : Prop :=
  checkStockAvailability db items = false ∧ ∃ item ∈ items,
    1 < (items.filter fun x => decide (x.idProduct = item.idProduct)).length ∧
      db.stock item.idProduct < demand item.idProduct items

instance (db : Db) (items : List SyncItemDto) : Decidable (SplitOverdraw db items) :=
  inferInstanceAs (Decidable (_ ∧ _))

/-- A single line is all that is asked for of its product. -/
theorem demand_eq_quantity {items : List SyncItemDto} {item : SyncItemDto} (hitem : item ∈ items)
    (hone : (items.filter fun x => decide (x.idProduct = item.idProduct)).length ≤ 1) :
    demand item.idProduct items = item.quantity := by
  have hmem : item ∈ items.filter fun x => decide (x.idProduct = item.idProduct) :=
    List.mem_filter.mpr ⟨hitem, decide_eq_true rfl⟩
  unfold demand tally
  cases hlines : items.filter fun x => decide (x.idProduct = item.idProduct) with
  | nil =>
    rw [hlines] at hmem
    cases hmem
  | cons x xs =>
    rw [hlines] at hmem hone
    have hxs : xs = [] := by
      rw [← List.length_eq_zero_iff]
      simpa using hone
    subst hxs
    obtain rfl := List.mem_singleton.mp hmem
    simp

/-- **When lines that fit one by one fit together.** -/
theorem demand_le_stock_iff {db : Db} {items : List SyncItemDto}
    (hcheck : checkStockAvailability db items = false) :
    (∀ item ∈ items, demand item.idProduct items ≤ db.stock item.idProduct) ↔
      ¬ SplitOverdraw db items := by
  constructor
  · rintro hfits ⟨-, item, hitem, -, hover⟩
    exact absurd (hfits item hitem) (not_le.mpr hover)
  · intro hsplit item hitem
    -- a product with one line was compared with its stock
    by_cases hone : (items.filter fun x => decide (x.idProduct = item.idProduct)).length ≤ 1
    · rw [demand_eq_quantity hitem hone]
      obtain ⟨inv, hsel, -, hle⟩ :=
        conflictsWith_eq_false.mp (checkStockAvailability_eq_false.mp hcheck item hitem)
      rw [(selectForUpdate_eq_some hsel).1]
      exact hle
    · by_contra hover
      exact hsplit ⟨hcheck, item, hitem, not_le.mp hone, not_le.mp hover⟩

/-- No run commits lines that fit one by one and not together. -/
def Locking.NoSplitOverdraw (σ : Locking) : LockingAction → Prop
  | .commit i => ∀ pr ∈ σ.running i, ¬ SplitOverdraw σ.db pr.data.items
  | _ => True

instance (σ : Locking) : (a : LockingAction) → Decidable (σ.NoSplitOverdraw a)
  | .begin _ _ _ => .isTrue trivial
  | .select _ => .isTrue trivial
  | .commit i =>
      inferInstanceAs (Decidable (∀ pr ∈ σ.running i, ¬ SplitOverdraw σ.db pr.data.items))
  | .abort _ => .isTrue trivial

/-- A run was given a row for each of its lines, with a stock that covers all lines of the
product. -/
def Processing.Covered (pr : Processing) : Prop :=
  (∀ item ∈ pr.data.items, ∃ inv, (item.idProduct, some inv) ∈ pr.reads) ∧
    ∀ p inv, (p, some inv) ∈ pr.reads → demand p pr.data.items ≤ inv.currentStock

/-- No stock is negative, and what was committed as CONFIRMED was covered. -/
structure Locking.Safe (σ : Locking) : Prop where
  locked : σ.Locked
  nonneg : ∀ p, 0 ≤ σ.db.stock p
  covered : ∀ pr ∈ σ.committed, pr.hasConflict = false → pr.Covered

theorem Locking.safe_start {db : Db} (hdb : ∀ p, 0 ≤ db.stock p) : (Locking.start db).Safe where
  locked := Locking.locked_start db
  nonneg := hdb
  covered := fun _ h => nomatch h

section Runs

variable {σ τ : Locking} {i : ℕ} {pr : Processing}

/-- The stock after a commit of lines that fit together. -/
theorem Locking.Safe.commit_nonneg (hσ : σ.Safe) {db : Db} {d : Device} {created : DateTime}
    (hcheck : checkStockAvailability σ.db pr.data.items = pr.hasConflict)
    (hsplit : ¬ SplitOverdraw σ.db pr.data.items)
    (hsale : StoredSale σ.db db pr.data pr.hasConflict pr.now d created) (p : Ident) :
    0 ≤ db.stock p := by
  have hp := hσ.nonneg p
  rw [hsale.stock_eq]
  cases hconflict : pr.hasConflict with
  | true => simpa using hp
  | false =>
    rw [hconflict] at hcheck
    have hfits := (demand_le_stock_iff hcheck).mpr hsplit
    by_cases hline : ∃ item ∈ pr.data.items, item.idProduct = p
    · obtain ⟨item, hitem, rfl⟩ := hline
      have := hfits item hitem
      simp only [Bool.false_eq_true, if_false]
      omega
    · have hdemand : demand p pr.data.items = 0 :=
        demand_eq_zero fun item hitem heq => hline ⟨item, hitem, heq⟩
      rw [hdemand]
      simpa using hp

/-- What a run was given covers lines that fit together. -/
theorem Locking.Safe.commit_covered (hσ : σ.Safe) (hpr : σ.running i = some pr)
    (hchecked : pr.checked = true) (hfree : pr.hasConflict = false)
    (hsplit : ¬ SplitOverdraw σ.db pr.data.items) : pr.Covered := by
  have hs := hσ.locked.sound i pr hpr
  have hcheck := check_current hσ.locked.valid hpr hs hchecked
  rw [hfree] at hcheck
  constructor
  · intro item hitem
    obtain ⟨row, hrow⟩ := hs.exists_row hchecked hfree hitem
    obtain ⟨inv, rfl, -⟩ := conflictsWith_eq_false.mp (hs.fits hfree _ hrow)
    exact ⟨inv, List.mem_map_of_mem hrow⟩
  · intro p inv hread
    obtain ⟨x, hx, heq⟩ := List.mem_map.mp hread
    obtain ⟨rfl, hrow⟩ := Prod.mk.inj heq
    have hcurrent := (select_current hσ.locked.valid hpr hx).1
    rw [hrow] at hcurrent
    rw [← (selectForUpdate_eq_some hcurrent).1]
    exact (demand_le_stock_iff hcheck).mpr hsplit x.1 (hs.mem_items hx)

/-- **Every step under the condition keeps the system safe.** -/
theorem Locking.Safe.next {a : LockingAction} (hσ : σ.Safe) (ha : σ.NoSplitOverdraw a)
    (h : Locking.next σ a = some τ) : τ.Safe := by
  have hlocked := hσ.locked.next h
  rcases Locking.next_cases h with ⟨i, data, now, -, -, -, rfl⟩ |
    ⟨i, pr, item, rest, -, -, -, hsel⟩ |
    ⟨i, pr, db, rfl, hpr, hchecked, hstore, rfl⟩ | ⟨i, rfl⟩
  · exact ⟨hlocked, hσ.nonneg, hσ.covered⟩
  · obtain ⟨hdb, hcommitted, -⟩ := Locking.selectLine_cases hsel
    refine ⟨hlocked, ?_, ?_⟩
    · rw [hdb]
      exact hσ.nonneg
    · rw [hcommitted]
      exact hσ.covered
  · obtain ⟨d, created, hsale⟩ := storeTransaction_stored hstore
    have hsplit := ha pr hpr
    have hcheck := check_current hσ.locked.valid hpr (hσ.locked.sound i pr hpr) hchecked
    refine ⟨hlocked, hσ.commit_nonneg hcheck hsplit hsale, fun c hc hfree => ?_⟩
    rcases List.mem_append.mp hc with hc | hc
    · exact hσ.covered c hc hfree
    · obtain rfl := List.mem_singleton.mp hc
      exact hσ.commit_covered hpr hchecked hfree hsplit
  · exact ⟨hlocked, hσ.nonneg, hσ.covered⟩

end Runs

/-- **No oversell by synchronisation**, if no run commits several lines of a product that fit
one by one and not together: no stock becomes negative, and the stock that a CONFIRMED run was
given covers all of its lines. -/
theorem no_oversell {db : Db} {as : List LockingAction} {σ : Locking}
    (hdb : ∀ p, 0 ≤ db.stock p)
    (h : Runs.Run Locking.next Locking.NoSplitOverdraw (Locking.start db) as σ) :
    (∀ p, 0 ≤ σ.db.stock p) ∧ ∀ pr ∈ σ.committed, pr.hasConflict = false → pr.Covered := by
  have hσ := h.invariant Locking.Safe (Locking.safe_start hdb) fun _ _ _ hσ ha hn => hσ.next ha hn
  exact ⟨hσ.nonneg, hσ.covered⟩

theorem stock_nonneg {db : Db} (h : ∀ i ∈ db.inventories.rows, 0 ≤ i.currentStock) (p : Ident) :
    0 ≤ db.stock p := by
  unfold Db.stock stockIn
  cases hi : db.inventories.findUnique (.product p) with
  | none => exact le_rfl
  | some i => exact h i (Table.findUnique_eq_some.mp hi).1

theorem stock_nonneg_shop (p : Ident) : 0 ≤ shop.stock p :=
  stock_nonneg (by decide +kernel) p

/-- Two tills' sales: the second has to wait for the lock, and conflicts then. -/
def waiting : List LockingAction :=
  [.begin 0 (shopQueued shopDevice "a" [3, 4]) 1, .begin 1 (shopQueued shopDevice "b" [4]) 1,
   .select 0, .select 0, .commit 0, .select 1, .commit 1]

/-- The first sale is CONFIRMED, and leaves too few pieces for the second. -/
theorem no_oversell_waiting : ∃ σ : Locking,
    σ.committed.map (·.hasConflict) = [false, true] ∧ σ.db.stock shopProduct = 3 ∧
      (∀ p, 0 ≤ σ.db.stock p) ∧ ∀ pr ∈ σ.committed, pr.hasConflict = false → pr.Covered := by
  have hcheck : (Runs.runs Locking.next (fun σ a => decide (σ.NoSplitOverdraw a))
      (Locking.start shop) waiting).any (fun σ => decide
        (σ.committed.map (·.hasConflict) = [false, true] ∧ σ.db.stock shopProduct = 3))
      = true := by decide +kernel
  obtain ⟨σ, hrun, hstate⟩ := Runs.exists_run_of_runs hcheck
  have hrun := hrun.weaken fun _ _ h => of_decide_eq_true h
  obtain ⟨hcommitted, hstock⟩ := of_decide_eq_true hstate
  exact ⟨σ, hcommitted, hstock, no_oversell stock_nonneg_shop hrun⟩

/-- One sale with two lines of six pieces each. -/
def twoLines : List LockingAction :=
  [.begin 0 (shopQueued shopDevice "a" [6, 6]) 1, .select 0, .select 0, .commit 0]

/-- **Synchronisation oversells**: each of the two lines fits the ten pieces. -/
theorem oversell : ¬ ∀ (db : Db) (as : List LockingAction) (σ : Locking),
    (∀ p, 0 ≤ db.stock p) → db.users.has (.id systemSync) = true →
      Runs.Run Locking.next Runs.anyStep (Locking.start db) as σ →
      (∀ p, 0 ≤ σ.db.stock p) ∧ ∀ pr ∈ σ.committed, pr.hasConflict = false → pr.Covered := by
  intro h
  have hcheck : (Runs.runs Locking.next (fun _ _ => true) (Locking.start shop) twoLines).any
      (fun σ => decide (σ.db.stock shopProduct = -2)) = true := by decide +kernel
  obtain ⟨σ, hrun, hstock⟩ := Runs.exists_run_of_runs hcheck
  have hnonneg := (h shop twoLines σ stock_nonneg_shop (by decide +kernel)
    (hrun.weaken fun _ _ _ => trivial)).1 shopProduct
  rw [of_decide_eq_true hstock] at hnonneg
  omega

end KPos
