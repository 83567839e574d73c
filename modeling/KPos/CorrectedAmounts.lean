/-
# Whether a corrected sale adds up (`transactions.service.ts`)

`correctTransaction` stores the numbers of its dto as they are: there is no counterpart of
`validateArithmetic` on this way to a CONFIRMED transaction.  Quantities lose their decimals
in the columns, and amounts are rounded to cents.

* `EnforcesArithmetic` : whatever is asked for, a correction that goes through has a dto that adds
  up, and creates a CONFIRMED transaction that does;
* `TakesCorrection` : a correction of the transaction can go through at all;
* `CorrectTransactionDto.AddsUpInCents` : the numbers of a dto add up once they are stored;
* `corrections_add_up` : if those of every correction do, so do all corrected transactions, along
  any run;
* `enforces_arithmetic_iff` : which corrections enforce the arithmetic, and which add up;
* `correction_not_checked` : a correction with wrong numbers.
-/
import KPos.Acceptance
import KPos.Amounts

namespace KPos

/-! ## What should hold, and when -/

/-- The decorators of `CorrectTransactionDto`. -/
structure CorrectTransactionDto.Valid (dto : CorrectTransactionDto) : Prop where
  reason : 10 ≤ dto.reason.length
  items : ∀ item ∈ dto.items, item.idProduct ≠ .text "" ∧ 0 < item.quantity ∧
    0 < item.unitPrice ∧ 0 < item.subtotal
  subtotal : 0 < dto.subtotal
  total : 0 < dto.total
  notes : dto.notes ≠ some ""

/-- What `validateArithmetic` demands of a transaction at exact arithmetic, asked of a
correction. -/
structure CorrectTransactionDto.ExactArithmetic (dto : CorrectTransactionDto) : Prop where
  items : ∀ item ∈ dto.items, item.quantity * item.unitPrice = item.subtotal
  subtotal : (dto.items.map (·.subtotal)).sum = dto.subtotal
  total : (dto.items.map (·.subtotal)).sum = dto.total

/-- The transaction that a correction created is CONFIRMED and adds up. -/
def CorrectionAddsUp (db db' : Db) : Prop :=
  ∃ t ∈ db'.transactions.rows, t.idTransaction = db.newId ∧ t.status = .CONFIRMED ∧
    AddsUp t (db'.detailsOf db.newId)

/-- A correction of the transaction goes through only with numbers that add up, in the dto and in
the rows that it creates. -/
def EnforcesArithmetic (db : Db) (user : JwtPayload) (id : Ident) (now : DateTime) : Prop :=
  ∀ dto : CorrectTransactionDto, dto.Valid → ∀ db',
    Transactions.correctTransaction db user id dto now = .ok db' →
      dto.ExactArithmetic ∧ CorrectionAddsUp db db'

/-- What the lines of a transaction need to be put back, and its payment to be copied. -/
structure Returnable (db : Db) (user : JwtPayload) (t : FoundTransaction) (now : DateTime) :
    Prop where
  account : db.users.has (.id user.sub) = true
  merchant : db.merchants.has (.id t.row.idMerchant) = true
  seller : db.users.has (.id t.row.idUser) = true
  details : ∀ d ∈ t.details, fitsInt d.quantity = true ∧
    db.products.has (.id d.idProduct) = true ∧ db.inventories.has (.product d.idProduct) = true
  stock : db.StockFits now (t.details.map (revertMovement t user.sub ""))
  payment : ∀ p, t.payment = some p → p.Copied db.users

/-- A correction by the user can go through: the id names a CONFIRMED transaction of their
merchant whose lines can be put back. -/
def TakesCorrection (db : Db) (user : JwtPayload) (id : Ident) (now : DateTime) : Prop :=
  ∃ t, db.findTransaction id = some t ∧ t.row.idMerchant = user.idMerchant ∧
    t.row.status = .CONFIRMED ∧ Returnable db user t now

/-- The numbers of a dto add up once quantities are without decimals and amounts in cents. -/
structure CorrectTransactionDto.AddsUpInCents (dto : CorrectTransactionDto) : Prop where
  lines : ∀ item ∈ dto.items,
    HalfCent (item.subtotal - truncate item.quantity * roundCents item.unitPrice)
  subtotal : HalfCent (dto.subtotal - ((dto.items.map (·.subtotal)).map roundCents).sum)
  total : HalfCent (dto.total - ((dto.items.map (·.subtotal)).map roundCents).sum)

/-- Every transaction that a correction has created adds up. -/
def Db.CorrectionsAddUp (db : Db) : Prop :=
  ∀ c ∈ db.corrections.rows, ∃ t ∈ db.transactions.rows,
    t.idTransaction = c.idNewTransaction ∧ AddsUp t (db.detailsOf t.idTransaction)

/-- A correction that is accepted has numbers that add up once they are stored. -/
def correctsInCents (db : Db) : Op → Prop
  | .correctTransaction user id dto now =>
      dto.Valid ∧ (AcceptsCorrection db user id dto now → dto.AddsUpInCents)
  | _ => True

/-! ## Whether a correction can go through -/

/-- Whether the stock stays in its column depends on the products and the quantities only. -/
theorem Db.StockFits.of_map {α : Type} {db : Db} {now : DateTime} {l : List α}
    {f g : α → AdjustInventoryParams} (h : db.StockFits now (l.map f))
    (hproduct : ∀ x, (f x).idProduct = (g x).idProduct)
    (hquantity : ∀ x, (f x).quantityChange = (g x).quantityChange) :
    db.StockFits now (l.map g) := by
  have hmovement : ∀ p (xs : List α), movement p ((xs.map f).map (·.history now))
      = movement p ((xs.map g).map (·.history now)) := by
    intro p xs
    unfold movement
    rw [Tally.tally_map, Tally.tally_map, Tally.tally_map, Tally.tally_map]
    refine Tally.tally_congr (fun x _ => ?_) fun x _ _ => hquantity x
    show decide ((f x).idProduct = p) = decide ((g x).idProduct = p)
    rw [hproduct]
  intro pre a post hl
  obtain ⟨xs, rest, rfl, rfl, hrest⟩ := List.map_eq_append_iff.mp hl
  obtain ⟨x, ys, rfl, rfl, -⟩ := List.map_eq_cons_iff.mp hrest
  have hfits := h (xs.map f) (f x) (ys.map f) (by rw [List.map_append, List.map_cons])
  have hend := hmovement (g x).idProduct (xs ++ [x])
  simp only [List.map_append, List.map_cons, List.map_nil] at hfits hend ⊢
  rwa [hproduct, hend] at hfits

section Corrections

variable {db db' : Db} {user : JwtPayload} {t : FoundTransaction} {dto : CorrectTransactionDto}
  {id : Ident} {now : DateTime}

/-- What a correction needs lets the old lines be put back. -/
theorem CorrectionNeeds.returnable (h : CorrectionNeeds db user t dto now) :
    Returnable db user t now :=
  ⟨h.account, h.merchant, h.seller, h.details,
    h.stock.left.of_map (fun _ => rfl) fun _ => rfl, h.payment⟩

theorem AcceptsCorrection.takes (h : AcceptsCorrection db user id dto now) :
    TakesCorrection db user id now := by
  obtain ⟨t, hfind, hmerchant, hstatus, hneeds⟩ := h
  exact ⟨t, hfind, hmerchant, hstatus, hneeds.returnable⟩

/-- No lines, and totals that differ. -/
def toNoLines : CorrectTransactionDto := ⟨"miscounted", [], 1, 2, none⟩

theorem toNoLines_valid : toNoLines.Valid where
  reason := by
    show 10 ≤ "miscounted".length
    decide
  items := fun _ hitem => nomatch hitem
  subtotal := by
    show (0 : ℚ) < 1
    norm_num
  total := by
    show (0 : ℚ) < 2
    norm_num
  notes := nofun

/-- Where a correction can go through, one to no lines does. -/
theorem TakesCorrection.accepts (h : TakesCorrection db user id now) :
    AcceptsCorrection db user id toNoLines now := by
  obtain ⟨t, hfind, hmerchant, hstatus, hreturn⟩ := h
  have hvalues : toNoLines.ValuesFit :=
    ⟨by decide +kernel, by decide +kernel, fun _ hitem => nomatch hitem⟩
  refine ⟨t, hfind, hmerchant, hstatus, hreturn.account, hreturn.merchant, hreturn.seller,
    hvalues, hreturn.details, (fun _ hitem => nomatch hitem), ?_, hreturn.payment⟩
  show db.StockFits now (t.details.map (revertMovement t user.sub "miscounted") ++ [])
  rw [List.append_nil]
  exact hreturn.stock.of_map (fun _ => rfl) fun _ => rfl

/-- **The arithmetic is enforced only where no correction can go through.** -/
theorem enforcesArithmetic_iff {us : Table User} (hreach : Reachable us db) :
    EnforcesArithmetic db user id now ↔ ¬ TakesCorrection db user id now := by
  constructor
  · intro henforces htakes
    obtain ⟨db', hok⟩ := (correctTransaction_isOk hreach id).mpr htakes.accepts
    -- nothing is not one
    have hsum := (henforces _ toNoLines_valid db' hok).1.subtotal
    have hwrong : (toNoLines.items.map (·.subtotal)).sum ≠ toNoLines.subtotal := by decide +kernel
    exact hwrong hsum
  · intro hnone dto _ db' hok
    exact absurd ((correctTransaction_isOk hreach id).mp ⟨db', hok⟩).takes hnone

/-! ## The rows of a correction -/

/-- The lines that a correction stores add up exactly when its numbers do in cents. -/
theorem addsUp_corrected (hvalid : dto.Valid) (i : Ident) :
    AddsUp (correctedRow db t dto now).stored (correctionDetails dto i now) ↔
      dto.AddsUpInCents := by
  have hlines : (∀ d ∈ correctionDetails dto i now, (d.quantity : ℚ) * d.unitPrice = d.subtotal) ↔
      ∀ item ∈ dto.items,
        HalfCent (item.subtotal - truncate item.quantity * roundCents item.unitPrice) := by
    unfold correctionDetails
    rw [List.map_map, List.forall_mem_map]
    exact forall₂_congr fun item hitem => mul_eq_roundCents_iff (hvalid.items item hitem).2.2.2.le
  have hsum : ((correctionDetails dto i now).map (·.subtotal)).sum
      = ((dto.items.map (·.subtotal)).map roundCents).sum := by
    unfold correctionDetails
    simp only [List.map_map]
    rfl
  constructor
  · rintro ⟨lines, subtotal, total⟩
    rw [hsum] at subtotal total
    exact ⟨hlines.mp lines, (sum_eq_roundCents_iff hvalid.subtotal.le).mp subtotal,
      (sum_eq_roundCents_iff hvalid.total.le).mp total⟩
  · rintro ⟨lines, subtotal, total⟩
    refine ⟨hlines.mpr lines, ?_, ?_⟩
    · rw [hsum]
      exact (sum_eq_roundCents_iff hvalid.subtotal.le).mpr subtotal
    · rw [hsum]
      exact (sum_eq_roundCents_iff hvalid.total.le).mpr total

/-- The transaction that a correction creates, and its lines. -/
theorem Corrected.created {us : Table User} (h : Corrected db db' user t dto now)
    (hreach : Reachable us db) (ht : t.row ∈ db.transactions.rows) :
    (correctedRow db t dto now).stored ∈ db'.transactions.rows ∧
      db'.detailsOf db.newId = correctionDetails dto db.newId now := by
  obtain ⟨off, hbooked⟩ := hreach.booked
  obtain ⟨ts, hins, hts⟩ := h.transactions
  constructor
  · rw [hts]
    refine Table.mem_update_of_not_mem ((Table.mem_insert hins).mpr (Or.inr rfl)) fun hkey => ?_
    exact ne_newId hreach.wired ht (id_mem_keys.mp hkey).symm
  · have hold : db.details.filter (fun d => decide (d.idTransaction = db.newId)) = [] := by
      rw [List.filter_eq_nil_iff]
      intro d hd hid
      obtain ⟨s, hs, hsid⟩ := mem_docs_ledger.mp
        (hbooked.balanced.lines_mem d.line (List.mem_map_of_mem hd))
      exact ne_newId hreach.wired hs (hsid.trans (of_decide_eq_true hid))
    unfold Db.detailsOf
    rw [h.entered.details, List.filter_append, hold, List.nil_append, List.filter_eq_self]
    exact fun d hd => decide_eq_true (correctionDetails_named d hd)

/-- **The created transaction adds up exactly when the numbers of the dto do in cents.** -/
theorem correctionAddsUp_iff {us : Table User} (hreach : Reachable us db) (hvalid : dto.Valid)
    (h : Transactions.correctTransaction db user id dto now = .ok db') :
    CorrectionAddsUp db db' ↔ dto.AddsUpInCents := by
  obtain ⟨t, hread, hwrite⟩ := bind_eq_ok.mp h
  have hcur := (correctTransactionRead_eq_ok hread).1
  obtain ⟨hrow, hlines⟩ := (correctTransactionWrite_corrected hwrite).created hreach hcur.row
  have hcents : AddsUp (correctedRow db t dto now).stored (correctionDetails dto db.newId now) ↔
      dto.AddsUpInCents := addsUp_corrected hvalid db.newId
  unfold CorrectionAddsUp
  rw [← hcents, hlines]
  constructor
  · rintro ⟨s, hs, hid, -, hadds⟩
    obtain rfl := row_unique hs hrow hid
    exact hadds
  · exact fun hadds => ⟨_, hrow, rfl, rfl, hadds⟩

/-! ## Runs -/

/-- What was sold still adds up when a transaction moves in its life. -/
theorem AddsUp.moved {s s' : Transaction} {ds : List DetailTransaction} (hmoved : s.Moved s')
    (h : AddsUp s ds) : AddsUp s' ds := by
  refine ⟨h.lines, ?_, ?_⟩
  · rw [h.subtotal, hmoved]
  · rw [h.total, hmoved]

/-- **A call keeps it.** -/
theorem Db.CorrectionsAddUp.exec {us : Table User} (hdb : db.CorrectionsAddUp)
    (hreach : Reachable us db) {op : Op} (hop : correctsInCents db op) :
    (exec db op).CorrectionsAddUp := by
  -- the transactions of the corrections that are there
  have hold : ∀ c ∈ db.corrections.rows, ∃ s ∈ (KPos.exec db op).transactions.rows,
      s.idTransaction = c.idNewTransaction ∧
        AddsUp s ((KPos.exec db op).detailsOf s.idTransaction) := by
    intro c hc
    obtain ⟨s, hs, hid, hadds⟩ := hdb c hc
    obtain ⟨s', hs', hmoved⟩ := exec_moved db op hs
    have hid' : s'.idTransaction = s.idTransaction := by rw [hmoved]
    refine ⟨s', hs', hid'.trans hid, ?_⟩
    rw [hid', exec_detailsOf hreach.wired op hs]
    exact hadds.moved hmoved
  have hsettles := exec_settles db op
  generalize KPos.exec db op = db' at hold hsettles ⊢
  intro c hc
  cases hsettles with
  | alone _ _ hcs | sold _ _ _ _ _ _ hcs | moved _ _ _ _ _ hcs | failed _ _ _ _ hcs =>
    rw [hcs] at hc
    exact hold c hc
  | @corrected user id dto now _ t read write =>
    obtain ⟨row, hins, -, hnew⟩ := correctTransactionWrite_row write
    rcases (Table.mem_insert hins).mp hc with hc | rfl
    · exact hold c hc
    · -- the correction itself
      obtain ⟨hvalid, hcents⟩ := hop
      have hok : Transactions.correctTransaction db user id dto now = .ok db' :=
        bind_eq_ok.mpr ⟨t, read, write⟩
      have haccepts := (correctTransaction_isOk hreach id).mp ⟨db', hok⟩
      obtain ⟨s, hs, hid, -, hadds⟩ := (correctionAddsUp_iff hreach hvalid hok).mpr
        (hcents haccepts)
      refine ⟨s, hs, hid.trans hnew.symm, ?_⟩
      rw [hid]
      exact hadds

/-- **Corrected transactions add up** along every run whose corrections do in cents. -/
theorem corrections_add_up {us : Table User} (hreach : Reachable us db) {ops : List Op}
    (h : Runs.Run next correctsInCents db ops db') (hdb : db.CorrectionsAddUp) :
    db'.CorrectionsAddUp := by
  have hinv : Reachable us db' ∧ db'.CorrectionsAddUp := by
    refine h.invariant_total (fun db => Reachable us db ∧ db.CorrectionsAddUp)
      ⟨hreach, hdb⟩ fun db₁ op hdb₁ hop => ?_
    have hstep : next db₁ op = some (exec db₁ op) := rfl
    exact ⟨hdb₁.1.step hstep, hdb₁.2.exec hdb₁.1 hop⟩
  exact hinv.2

end Corrections

/-- **Which corrections enforce the arithmetic**: of a transaction that can be corrected, not all
that go through; the transaction that one creates adds up exactly when its own numbers do in cents,
and along runs in which those of every correction do, all of them stay so. -/
theorem enforces_arithmetic_iff {us : Table User} {db : Db} (h : Reachable us db)
    (user : JwtPayload) (id : Ident) (now : DateTime) :
    (EnforcesArithmetic db user id now ↔ ¬ TakesCorrection db user id now) ∧
      (∀ (dto : CorrectTransactionDto) (db' : Db), dto.Valid →
        Transactions.correctTransaction db user id dto now = .ok db' →
          (CorrectionAddsUp db db' ↔ dto.AddsUpInCents)) ∧
      ∀ (ops : List Op) (db' : Db), Runs.Run next correctsInCents db ops db' →
        db.CorrectionsAddUp → db'.CorrectionsAddUp :=
  ⟨enforcesArithmetic_iff h, fun _ _ hvalid hok => correctionAddsUp_iff h hvalid hok,
    fun _ _ hrun hdb => corrections_add_up h hrun hdb⟩

/-- The sale of three pieces, corrected to two at a total of the user's choice. -/
def toTwoFor (total : ℚ) : CorrectTransactionDto :=
  ⟨"miscounted", [⟨shopProduct, 2, 2, 4, none⟩], 4, total, none⟩

theorem toTwoFor_valid {total : ℚ} (h : 0 < total) : (toTwoFor total).Valid where
  reason := by
    show 10 ≤ "miscounted".length
    decide
  items := by
    intro item hitem
    obtain rfl := List.mem_singleton.mp hitem
    exact ⟨nofun, by norm_num, by norm_num, by norm_num⟩
  subtotal := by
    show (0 : ℚ) < 4
    norm_num
  total := h
  notes := nofun

theorem toTwoFor_addsUp : (toTwoFor 4).AddsUpInCents where
  lines := by decide +kernel
  subtotal := by decide +kernel
  total := by decide +kernel

/-- At the right total the correction creates a transaction that adds up. -/
theorem enforces_arithmetic_iff_toTwo : ∃ db',
    Transactions.correctTransaction soldThree shopOwner (.cuid 5) (toTwoFor 4) 2 = .ok db' ∧
      CorrectionAddsUp soldThree db' ∧ db'.CorrectionsAddUp := by
  have hok : (Transactions.correctTransaction soldThree shopOwner (.cuid 5) (toTwoFor 4)
      2).toOption.isSome = true := by decide +kernel
  obtain ⟨db', hdb'⟩ := Option.isSome_iff_exists.mp hok
  have hok := toOption_eq_some hdb'
  have hvalid := toTwoFor_valid (by norm_num : (0 : ℚ) < 4)
  have hall := enforces_arithmetic_iff reachable_soldThree shopOwner (.cuid 5) 2
  have hnone : soldThree.corrections.rows.isEmpty = true := by decide +kernel
  refine ⟨db', hok, (hall.2.1 _ _ hvalid hok).mpr toTwoFor_addsUp, ?_⟩
  refine hall.2.2 [.correctTransaction shopOwner (.cuid 5) (toTwoFor 4) 2] db' ?_ ?_
  · refine Runs.Run.step .start ⟨hvalid, fun _ => toTwoFor_addsUp⟩ ?_
    show some (commit soldThree _) = some db'
    rw [hok]
    rfl
  · intro c hc
    rw [List.isEmpty_iff.mp hnone] at hc
    cases hc

/-- **A correction is stored whose lines do not sum up to its total**: two pieces at 2, for 999. -/
theorem correction_not_checked : ¬ ∀ (us : Table User) (db : Db) (user : JwtPayload) (id : Ident)
    (now : DateTime), Reachable us db → EnforcesArithmetic db user id now := by
  intro h
  have hok : (Transactions.correctTransaction soldThree shopOwner (.cuid 5) (toTwoFor 999)
      2).toOption.isSome = true := by decide +kernel
  obtain ⟨db', hdb'⟩ := Option.isSome_iff_exists.mp hok
  have harith := (h _ _ shopOwner (.cuid 5) 2 reachable_soldThree (toTwoFor 999)
    (toTwoFor_valid (by norm_num)) db' (toOption_eq_some hdb')).1
  have hwrong : ((toTwoFor 999).items.map (·.subtotal)).sum ≠ (toTwoFor 999).total := by
    decide +kernel
  exact hwrong harith.total

end KPos
