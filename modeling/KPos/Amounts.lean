/-
# Whether a stored sale adds up (`sync-consumer.service.ts`)

`validateArithmetic` compares the numbers of the payload, which may have any number of
decimals.  The money columns keep two decimals, and each value is rounded by itself.  The
check computes with doubles; the payloads here are those whose numbers are exactly right
(`ExactArithmetic`), so that only the columns round.

* `roundCents_eq_iff` : a number is rounded to the amounts less than half a cent away;
* `AddsUp`, `SaleAddsUp` : the stored lines multiply and sum up to the stored totals;
* `RoundsTogether` : the rounding errors of a payload stay below half a cent;
* `sale_adds_up_iff` : a stored sale adds up exactly when they do;
* `sale_rounded_apart` : a sale whose prices have three decimals.
-/
import KPos.Effects
import Mathlib.Algebra.Order.BigOperators.Group.List

namespace KPos

/-! ## Rounding errors -/

/-- A whole number of cents. -/
def Cents (y : ℚ) : Prop := ∃ n : ℤ, y = n / 100

/-- An error that rounding to cents takes back. -/
def HalfCent (e : ℚ) : Prop := -(1 / 200) ≤ e ∧ e < 1 / 200

instance (e : ℚ) : Decidable (HalfCent e) := inferInstanceAs (Decidable (_ ∧ _))

/-- What rounding takes off a number. -/
def roundingError (x : ℚ) : ℚ := x - roundCents x

/-- The rounding of a number that is not negative. -/
theorem roundHalfAway_eq_iff {x : ℚ} (hx : 0 ≤ x) {n : ℤ} :
    roundHalfAway x = n ↔ -(1 / 2) ≤ x - n ∧ x - n < 1 / 2 := by
  unfold roundHalfAway
  rw [if_pos hx, Int.floor_eq_iff]
  constructor
  · rintro ⟨hle, hlt⟩
    constructor <;> linarith
  · rintro ⟨hle, hlt⟩
    constructor <;> linarith

/-- **A number is rounded to the amounts less than half a cent away**, and up when it is just
between two. -/
theorem roundCents_eq_iff {x y : ℚ} (hx : 0 ≤ x) (hy : Cents y) :
    roundCents x = y ↔ HalfCent (x - y) := by
  obtain ⟨n, rfl⟩ := hy
  have hround : roundCents x = (n : ℚ) / 100 ↔ roundHalfAway (x * 100) = n := by
    unfold roundCents
    rw [div_left_inj' (by norm_num : (100 : ℚ) ≠ 0), Int.cast_inj]
  rw [hround, roundHalfAway_eq_iff (by linarith)]
  unfold HalfCent
  constructor
  · rintro ⟨hle, hlt⟩
    constructor <;> linarith
  · rintro ⟨hle, hlt⟩
    constructor <;> linarith

theorem cents_roundCents (x : ℚ) : Cents (roundCents x) := ⟨_, rfl⟩

theorem Cents.int_mul {y : ℚ} (hy : Cents y) (q : ℤ) : Cents (q * y) := by
  obtain ⟨n, rfl⟩ := hy
  refine ⟨q * n, ?_⟩
  push_cast
  ring

theorem cents_sum {l : List ℚ} (h : ∀ y ∈ l, Cents y) : Cents l.sum := by
  induction l with
  | nil => exact ⟨0, by simp⟩
  | cons y l ih =>
    obtain ⟨n, hn⟩ := h y List.mem_cons_self
    obtain ⟨m, hm⟩ := ih fun z hz => h z (List.mem_cons_of_mem _ hz)
    refine ⟨n + m, ?_⟩
    rw [List.sum_cons, hn, hm]
    push_cast
    ring

/-- Pieces at a stored price are a stored subtotal when they are less than half a cent away. -/
theorem mul_eq_roundCents_iff {q : ℤ} {price subtotal : ℚ} (h : 0 ≤ subtotal) :
    (q : ℚ) * roundCents price = roundCents subtotal ↔
      HalfCent (subtotal - q * roundCents price) := by
  rw [eq_comm, roundCents_eq_iff h ((cents_roundCents price).int_mul q)]

/-- So are stored subtotals that sum up to a stored total. -/
theorem sum_eq_roundCents_iff {l : List ℚ} {total : ℚ} (h : 0 ≤ total) :
    (l.map roundCents).sum = roundCents total ↔ HalfCent (total - (l.map roundCents).sum) := by
  have hcents : Cents (l.map roundCents).sum := by
    apply cents_sum
    rw [List.forall_mem_map]
    exact fun x _ => cents_roundCents x
  rw [eq_comm, roundCents_eq_iff h hcents]

/-! ## Sales that add up -/

/-- Each line is its quantity times its price, and the lines sum up to the transaction. -/
structure AddsUp (t : Transaction) (ds : List DetailTransaction) : Prop where
  lines : ∀ d ∈ ds, (d.quantity : ℚ) * d.unitPrice = d.subtotal
  subtotal : (ds.map (·.subtotal)).sum = t.subtotal
  total : (ds.map (·.subtotal)).sum = t.total

/-- A transaction was stored with lines that add up. -/
def SaleAddsUp (db db' : Db) : Prop :=
  ∃ t ds, db'.transactions.rows = db.transactions.rows ++ [t] ∧ db'.details = db.details ++ ds ∧
    AddsUp t ds

/-- What the lines lose by rounding is less than half a cent, for each line by its price and for
all lines by their subtotals. -/
structure RoundsTogether (items : List SyncItemDto) : Prop where
  lines : ∀ item ∈ items, HalfCent (item.quantity * roundingError item.unitPrice)
  sum : HalfCent (items.map fun item => roundingError item.subtotal).sum

section Sale

variable {db db' : Db} {data : QueuedTransaction} {now : DateTime}

/-- The rounded subtotals of lines. -/
theorem sum_saleDetails (txId : Ident) : ((saleDetails data txId now).map (·.subtotal)).sum
    = ((data.items.map (·.subtotal)).map roundCents).sum := by
  unfold saleDetails
  simp only [List.map_map]
  rfl

theorem sum_roundingError (items : List SyncItemDto) :
    (items.map fun item => roundingError item.subtotal).sum
      = (items.map (·.subtotal)).sum - ((items.map (·.subtotal)).map roundCents).sum := by
  induction items with
  | nil => simp
  | cons item items ih =>
    simp only [List.map_cons, List.sum_cons]
    rw [ih]
    unfold roundingError
    ring

/-- A line is stored as a product when its price loses less than half a cent in all. -/
theorem line_iff {item : SyncItemDto} (hvalid : item.Valid)
    (hline : (item.quantity : ℚ) * item.unitPrice = item.subtotal) :
    (item.quantity : ℚ) * roundCents item.unitPrice = roundCents item.subtotal ↔
      HalfCent (item.quantity * roundingError item.unitPrice) := by
  obtain ⟨-, -, -, hsub, -⟩ := hvalid
  have herror : item.subtotal - item.quantity * roundCents item.unitPrice
      = item.quantity * roundingError item.unitPrice := by
    unfold roundingError
    rw [← hline]
    ring
  rw [mul_eq_roundCents_iff hsub, herror]

/-- The lines sum up to the transaction when they lose less than half a cent in all. -/
theorem sum_iff (hvalid : ∀ item ∈ data.items, item.Valid) {total : ℚ}
    (htotal : (data.items.map (·.subtotal)).sum = total) :
    ((data.items.map (·.subtotal)).map roundCents).sum = roundCents total ↔
      HalfCent (data.items.map fun item => roundingError item.subtotal).sum := by
  have hnonneg : 0 ≤ total := by
    rw [← htotal]
    apply List.sum_nonneg
    rw [List.forall_mem_map]
    exact fun item hitem => (hvalid item hitem).2.2.2.1
  rw [sum_eq_roundCents_iff hnonneg, sum_roundingError, htotal]

/-- The rows of a sale add up exactly when the payload's rounding errors do not show. -/
theorem addsUp_iff (hvalid : data.Valid) (harith : data.ExactArithmetic) {d : Device}
    {hasConflict : Bool} {createdAtLocal : DateTime} (txId : Ident) :
    AddsUp (headerRow db data d hasConflict createdAtLocal now).stored
      (saleDetails data txId now) ↔ RoundsTogether data.items := by
  have hitems : ∀ item ∈ data.items, item.Valid := hvalid.2.2.2.2.2.2.1
  have hlines : (∀ d ∈ saleDetails data txId now, (d.quantity : ℚ) * d.unitPrice = d.subtotal) ↔
      ∀ item ∈ data.items, HalfCent (item.quantity * roundingError item.unitPrice) := by
    unfold saleDetails
    rw [List.forall_mem_map, List.forall_mem_map]
    exact forall₂_congr fun item hitem => line_iff (hitems item hitem) (harith.items item hitem)
  constructor
  · rintro ⟨lines, subtotal, -⟩
    rw [sum_saleDetails] at subtotal
    exact ⟨hlines.mp lines, (sum_iff hitems harith.subtotal).mp subtotal⟩
  · rintro ⟨lines, sum⟩
    refine ⟨hlines.mpr lines, ?_, ?_⟩
    · rw [sum_saleDetails]
      exact (sum_iff hitems harith.subtotal).mpr sum
    · rw [sum_saleDetails]
      exact (sum_iff hitems harith.total).mpr sum

end Sale

/-- **A stored sale adds up exactly when its rounding errors stay below half a cent**: those of
each price times its quantity, and those of the subtotals together. -/
theorem sale_adds_up_iff {db db' : Db} {data : QueuedTransaction} {now : DateTime}
    (hvalid : data.Valid) (harith : data.ExactArithmetic)
    (h : processTransaction db data now = .ok db') :
    SaleAddsUp db db' ↔ RoundsTogether data.items := by
  obtain ⟨-, d, created, sale⟩ := processTransaction_stored h
  have hrows := (Table.insert_eq_some.mp sale.insertable.header).2
  rw [← addsUp_iff hvalid harith db.newId]
  constructor
  · rintro ⟨t, ds, hts, hds, hadds⟩
    obtain rfl := List.singleton_inj.mp (List.append_cancel_left (hts.symm.trans hrows))
    obtain rfl := List.append_cancel_left (hds.symm.trans sale.entered.details)
    exact hadds
  · intro hadds
    exact ⟨_, _, hrows, sale.entered.details, hadds⟩

/-- A sale of some pieces of the shop's product at a price. -/
def pricedSale (quantity : ℤ) (price : ℚ) : QueuedTransaction where
  offlineUuid := .text "a"
  createdAtLocal := ⟨"2026-01-01", some 0⟩
  subtotal := quantity * price
  total := quantity * price
  notes := none
  items := [⟨shopProduct, quantity, price, quantity * price, "Tea", "TEA", ⟨"2026-01-01", some 0⟩⟩]
  payment := ⟨.CASH, quantity * price, none, none, none, none⟩
  idDevice := shopDevice
  payloadHash := none
  retryAttempt := none

theorem pricedSale_valid {quantity : ℤ} (hq : 1 ≤ quantity) {price : ℚ} (hp : 0 ≤ price) :
    (pricedSale quantity price).Valid := by
  have hprod : 0 ≤ (quantity : ℚ) * price := by
    have : (0 : ℚ) ≤ quantity := by exact_mod_cast (by omega : 0 ≤ quantity)
    positivity
  refine ⟨nofun, by simp [pricedSale], by simp [pricedSale], hprod, hprod, List.cons_ne_nil _ _, ?_,
    hprod, nofun, nofun⟩
  intro item hitem
  obtain rfl := List.mem_singleton.mp hitem
  exact ⟨nofun, hq, hp, hprod, by simp, by simp, by simp⟩

theorem pricedSale_exact (quantity : ℤ) (price : ℚ) :
    (pricedSale quantity price).ExactArithmetic := by
  have hsum : ((pricedSale quantity price).items.map (·.subtotal)).sum = quantity * price :=
    List.sum_singleton
  refine ⟨fun item hitem => ?_, hsum, hsum⟩
  obtain rfl := List.mem_singleton.mp hitem
  rfl

/-- A price with three decimals whose line is stored all the same. -/
theorem sale_adds_up_iff_oneThousandth : ∃ db',
    processTransaction shop (pricedSale 4 (1 / 1000)) 1 = .ok db' ∧ SaleAddsUp shop db' := by
  have hok : (processTransaction shop (pricedSale 4 (1 / 1000)) 1).toOption.isSome = true := by
    decide +kernel
  obtain ⟨db', hdb'⟩ := Option.isSome_iff_exists.mp hok
  have h := toOption_eq_some hdb'
  exact ⟨db', h, (sale_adds_up_iff (pricedSale_valid (by omega) (by norm_num))
    (pricedSale_exact _ _) h).mpr ⟨by decide +kernel, by decide +kernel⟩⟩

/-- **Two pieces at 0.335 are stored as 2 × 0.34 = 0.67.** -/
theorem sale_rounded_apart : ¬ ∀ (us : Table User) (db db' : Db) (data : QueuedTransaction)
    (now : DateTime), Reachable us db → data.Valid → data.ExactArithmetic →
      processTransaction db data now = .ok db' → SaleAddsUp db db' := by
  intro hall
  have hcheck : (processTransaction shop (pricedSale 2 (335 / 1000)) 1).toOption.any (fun db' =>
      db'.details.any fun d => decide ((d.quantity : ℚ) * d.unitPrice ≠ d.subtotal)) = true := by
    decide +kernel
  obtain ⟨db', hdb', hlost⟩ := (Option.any_eq_true _ _).mp hcheck
  have hok := toOption_eq_some hdb'
  obtain ⟨t, ds, -, hds, hadds⟩ := hall _ shop db' _ 1 (reachable_shopWith systemUsers)
    (pricedSale_valid (by omega) (by norm_num)) (pricedSale_exact _ _) hok
  -- the shop has no other lines
  have hnone : shop.details.isEmpty = true := by decide +kernel
  rw [List.isEmpty_iff.mp hnone, List.nil_append] at hds
  obtain ⟨d, hd, hne⟩ := List.any_eq_true.mp hlost
  exact of_decide_eq_true hne (hadds.lines d (hds ▸ hd))

end KPos
