/-
# Corrections side by side (`transactions.service.ts`)

`correctTransaction` reads the transaction and checks its status, and writes in a database
transaction of its own.  Any number of calls may have read before the first one writes.

* `correcting` : the calls as requests that check first and act later;
* `corrected_once` : if a transaction is still CONFIRMED whenever a call writes, each is
  corrected at most once, and its stock returned at most once;
* `corrected_twice` : two calls that both read first.
-/
import KPos.Books
import KPos.Lib.TwoStep

namespace KPos

/-- A call of `correctTransaction`. -/
structure CorrectCall where
  user : JwtPayload
  id : Ident
  dto : CorrectTransactionDto
  now : DateTime

/-- `correctTransaction` as a request: the lookup with the test, and the database
transaction. -/
def correcting : TwoStep Db CorrectCall FoundTransaction where
  read db c := (Transactions.correctTransactionRead db c.user c.id).toOption
  write db c t := (Transactions.correctTransactionWrite db c.user t c.dto c.now).toOption

/-- The transaction that a call has read is still CONFIRMED. -/
def StillConfirmed (db : Db) (_ : CorrectCall) (t : FoundTransaction) : Prop :=
  db.statusOf t.row.idTransaction = some .CONFIRMED

instance (db : Db) (c : CorrectCall) (t : FoundTransaction) : Decidable (StillConfirmed db c t) :=
  inferInstanceAs (Decidable (_ = _))

section Writes

variable {db db' : Db} {user : JwtPayload} {t : FoundTransaction} {dto : CorrectTransactionDto}
  {now : DateTime} {i : Ident}

/-- The database of a correction after the new transaction and before the old one is
voided. -/
theorem Corrected.exists_mid (h : Corrected db db' user t dto now) :
    ∃ db₁ : Db, db.transactions.insert (correctedRow db t dto now).stored = some db₁.transactions ∧
      db'.transactions = (db₁.relabel t.row.idTransaction
        (Transaction.voided user (correctedReason dto.reason db.newId) now)).transactions := by
  obtain ⟨ts, hins, hts⟩ := h.transactions
  exact ⟨{ db with transactions := ts }, hins, hts⟩

/-- The corrected transaction is VOIDED. -/
theorem Corrected.statusOf_old (h : Corrected db db' user t dto now)
    (ht : t.row.idTransaction ∈ db.ledger.docs) :
    db'.statusOf t.row.idTransaction = some .VOIDED := by
  obtain ⟨db₁, hins, hts⟩ := h.exists_mid
  obtain ⟨s, hs, hid⟩ := mem_docs_ledger.mp ht
  have hs₁ : s ∈ db₁.transactions.rows := (Table.mem_insert hins).mpr (Or.inl hs)
  rw [statusOf_congr hts, statusOf_relabel_self hs₁ hid]
  rfl

/-- The others have the status they had. -/
theorem Corrected.statusOf_other (h : Corrected db db' user t dto now)
    (hi : i ≠ t.row.idTransaction) (hnew : i ≠ db.newId) : db'.statusOf i = db.statusOf i := by
  obtain ⟨db₁, hins, hts⟩ := h.exists_mid
  rw [statusOf_congr hts, statusOf_relabel_of_ne hi]
  exact statusOf_insert_of_ne hins hnew

/-- The transaction that a correction creates was not there. -/
theorem Corrected.newId_not_mem (h : Corrected db db' user t dto now) :
    db.newId ∉ db.ledger.docs := by
  obtain ⟨db₁, hins, -⟩ := h.exists_mid
  exact fresh_id_of_insert hins

/-- What was read of a transaction lasts when another call writes. -/
theorem Corrected.lasting {t' : FoundTransaction} (h : Corrected db db' user t dto now)
    (ht' : t'.Lasting db) : t'.Lasting db' where
  exists_row := by
    obtain ⟨db₁, hins, hts⟩ := h.exists_mid
    show _ ∈ db'.transactions.rows.map (·.idTransaction)
    rw [hts]
    show _ ∈ (db₁.relabel _ _).ledger.docs
    rw [ledger_relabel]
    show _ ∈ db₁.transactions.rows.map (·.idTransaction)
    rw [docs_insert hins]
    exact List.mem_append_left _ ht'.exists_row
  details := by
    have hne : t'.row.idTransaction ≠ db.newId :=
      fun heq => h.newId_not_mem (heq ▸ ht'.exists_row)
    rw [ht'.details]
    refine (h.entered.detailsOf_eq fun d hd => ?_).symm
    rw [correctionDetails_named d hd]
    exact hne.symm

end Writes

/-! ## At most once -/

/-- The books stay in order, and what the calls have read lasts. -/
theorem correcting_discipline (off : List Ident) :
    TwoStep.Discipline correcting (fun _ _ => True) StillConfirmed (fun db => Booked db off)
      (fun db _ t => t.Lasting db) where
  read := by
    intro db c t _ _ hread
    exact (correctTransactionRead_eq_ok (toOption_eq_some hread)).1.lasting
  write := by
    intro db c t db' hb ht hstill hwrite
    obtain ⟨s, hs, hid, hstatus⟩ := exists_of_statusOf hstill
    exact hb.corrected hs hid hstatus ht.details
      (correctTransactionWrite_corrected (toOption_eq_some hwrite))
  stable := by
    intro db c t db' c' t' _ _ _ hwrite ht'
    exact (correctTransactionWrite_corrected (toOption_eq_some hwrite)).lasting ht'

/-- A transaction may be corrected: it is CONFIRMED, or it is still to come. -/
def Correctable (db : Db) (i : Ident) : Prop :=
  db.statusOf i = some .CONFIRMED ∨ db.statusOf i = none

/-- **Each transaction is corrected at most once**, if it is still CONFIRMED whenever a call
writes: at most one call for it succeeds, it is the old transaction of at most one
correction, and its movements are its deductions or cancel out. -/
theorem corrected_once {us : Table User} {db : Db} {as : List (TwoStep.Action CorrectCall)}
    {σ : TwoStep.Session Db CorrectCall FoundTransaction} (hdb : Reachable us db)
    (h : Runs.Run correcting.next (TwoStep.Meets (fun _ _ => True) StillConfirmed)
      (TwoStep.start db) as σ) :
    (∀ i, TwoStep.writesOf (fun t : FoundTransaction => t.row.idTransaction) σ i ≤ 1) ∧
      (σ.store.corrections.rows.map (·.idOldTransaction)).Nodup ∧
      ∀ i p, σ.store.net i p = -σ.store.sold i p ∨ σ.store.net i p = 0 := by
  obtain ⟨off, hb⟩ := hdb.booked
  have hd := correcting_discipline off
  refine ⟨fun i => ?_, (hd.session hb h).1.settled.once, fun i p => ?_⟩
  · refine (hd.writes_once (fun t => t.row.idTransaction) Correctable ?_ hb h i).1
    intro db c t db' _ ht hstill hwrite
    have hcorr := correctTransactionWrite_corrected (toOption_eq_some hwrite)
    refine ⟨Or.inl hstill, ?_, fun j hj => ?_⟩
    · unfold Correctable
      rw [hcorr.statusOf_old ht.exists_row]
      simp
    · -- the old transaction was open; the new one was not there
      by_cases hjt : j = t.row.idTransaction
      · rw [hjt]
        exact Or.inl hstill
      · by_cases hjn : j = db.newId
        · rw [hjn]
          exact Or.inr (statusOf_eq_none.mpr hcorr.newId_not_mem)
        · unfold Correctable at hj ⊢
          rwa [hcorr.statusOf_other hjt hjn] at hj
  · have hmoved := (hd.session hb h).1.balanced.moved i p
    rw [movedBy_ledger, listedBy_ledger] at hmoved
    rw [hmoved]
    split
    · exact Or.inl rfl
    · exact Or.inr rfl

/-- The shop after a sale of three pieces. -/
def soldThree : Db := after shop [shopSync "a" [3]]

/-- The sale is corrected to two pieces. -/
def toTwoPieces : CorrectCall :=
  ⟨shopOwner, .cuid 5, ⟨"miscounted", [⟨shopProduct, 2, 2, 4, none⟩], 4, 4, none⟩, 2⟩

theorem reachable_soldThree : Reachable systemUsers soldThree := reachable_after_shop _

/-- Two calls, of which the second reads before the first one writes; it never writes. -/
def oneWrites : List (TwoStep.Action CorrectCall) :=
  [.read toTwoPieces, .read toTwoPieces, .write 0, .drop 0]

/-- One of the two calls corrects the sale. -/
theorem corrected_once_soldThree : ∃ σ : TwoStep.Session Db CorrectCall FoundTransaction,
    σ.done.length = 1 ∧
      (∀ i, TwoStep.writesOf (fun t : FoundTransaction => t.row.idTransaction) σ i ≤ 1) := by
  have hcheck : (Runs.runs correcting.next
      (fun σ a => decide (TwoStep.Meets (fun _ _ => True) StillConfirmed σ a))
      (TwoStep.start soldThree) oneWrites).any (fun σ => decide (σ.done.length = 1)) = true := by
    decide +kernel
  obtain ⟨σ, hrun, hlen⟩ := Runs.exists_run_of_runs hcheck
  have hrun := hrun.weaken fun _ _ h => of_decide_eq_true h
  exact ⟨σ, of_decide_eq_true hlen, (corrected_once reachable_soldThree hrun).1⟩

/-- Both calls write. -/
def bothWrite : List (TwoStep.Action CorrectCall) :=
  [.read toTwoPieces, .read toTwoPieces, .write 0, .write 0]

/-- **A transaction is corrected twice**: both calls read before the first one writes. -/
theorem corrected_twice : ¬ ∀ (us : Table User) (db : Db)
    (as : List (TwoStep.Action CorrectCall))
    (σ : TwoStep.Session Db CorrectCall FoundTransaction), Reachable us db →
      Runs.Run correcting.next Runs.anyStep (TwoStep.start db) as σ →
      ∀ i, TwoStep.writesOf (fun t : FoundTransaction => t.row.idTransaction) σ i ≤ 1 := by
  intro h
  have hcheck : (Runs.runs correcting.next (fun _ _ => true) (TwoStep.start soldThree)
      bothWrite).any (fun σ => decide
        (TwoStep.writesOf (fun t : FoundTransaction => t.row.idTransaction) σ (.cuid 5) = 2))
      = true := by decide +kernel
  obtain ⟨σ, hrun, htwice⟩ := Runs.exists_run_of_runs hcheck
  have honce := h _ _ _ σ reachable_soldThree (hrun.weaken fun _ _ _ => trivial) (.cuid 5)
  rw [of_decide_eq_true htwice] at honce
  omega

end KPos
