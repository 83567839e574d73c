/-
# Conflict resolutions side by side (`transactions.service.ts`)

`voidTransaction` and `resolveConflict` read a PENDING transaction and check it first, and
write later, whatever has become of it by then.

* `settling` : the calls as requests that check first and act later;
* `settled_once` : if a transaction is still PENDING whenever a call writes, each is settled at
  most once, and its stock deducted once if it is CONFIRMED and not at all if it is VOIDED;
* `settled_twice` : two calls that both read first.
-/
import KPos.Books
import KPos.Lib.TwoStep

namespace KPos

/-- A call of `voidTransaction` or of `resolveConflict`. -/
inductive SettleCall where
  | voidTransaction (user : JwtPayload) (id : Ident) (voidReason : String) (now : DateTime)
  | resolveConflict (user : JwtPayload) (id : Ident) (dto : ResolveConflictDto) (now : DateTime)

/-- The lookup and the tests of a call. -/
def SettleCall.read (db : Db) : SettleCall → Except Err FoundTransaction
  | .voidTransaction user id _ _ => Transactions.voidTransactionRead db user id
  | .resolveConflict user id _ _ => Transactions.resolveConflictRead db user id

/-- The writes of a call. -/
def SettleCall.write (db : Db) (t : FoundTransaction) : SettleCall → Except Err Db
  | .voidTransaction user _ voidReason now =>
      Transactions.voidTransactionWrite db user t voidReason now
  | .resolveConflict user _ dto now => Transactions.resolveConflictWrite db user t dto now

/-- Both services as requests. -/
def settling : TwoStep Db SettleCall FoundTransaction where
  read db c := (c.read db).toOption
  write db c t := (c.write db t).toOption

/-- The transaction that a call has read is still PENDING. -/
def StillPending (db : Db) (_ : SettleCall) (t : FoundTransaction) : Prop :=
  db.statusOf t.row.idTransaction = some .PENDING

instance (db : Db) (c : SettleCall) (t : FoundTransaction) : Decidable (StillPending db c t) :=
  inferInstanceAs (Decidable (_ = _))

section Writes

variable {db db' : Db} {c : SettleCall} {t t' : FoundTransaction} {i : Ident}

theorem settling_read (h : settling.read db c = some t) : t.CurrentIn db := by
  have hread := toOption_eq_some h
  cases c with
  | voidTransaction user id reason now => exact (voidTransactionRead_eq_ok hread).1
  | resolveConflict user id dto now => exact (resolveConflictRead_eq_ok hread).1

/-- **What a write can do**: void the transaction, or confirm it by force. -/
theorem settling_write (h : settling.write db c t = some db') :
    (∃ f : Rewrite Transaction, (∀ s, (f s).status = .VOIDED) ∧
      db' = db.relabel t.row.idTransaction f) ∨
    ∃ user notes now, Forced db db' user t notes now := by
  have hwrite := toOption_eq_some h
  cases c with
  | voidTransaction user id reason now =>
    exact Or.inl ⟨_, fun _ => rfl, (updateTransaction_eq_ok.mp hwrite).2.2⟩
  | resolveConflict user id dto now =>
    cases haction : dto.action with
    | CONFIRM => exact Or.inr ⟨user, dto.notes, now, resolveConflictWrite_confirm haction hwrite⟩
    | VOID => exact Or.inl ⟨_, fun _ => rfl, resolveConflictWrite_void haction hwrite⟩

/-- After a write the transaction is not PENDING, and the others have the status they had. -/
theorem settling_statusOf (h : settling.write db c t = some db')
    (ht : t.row.idTransaction ∈ db.ledger.docs) :
    db'.statusOf t.row.idTransaction ≠ some .PENDING ∧
      ∀ i, i ≠ t.row.idTransaction → db'.statusOf i = db.statusOf i := by
  obtain ⟨s, hs, hid⟩ := mem_docs_ledger.mp ht
  rcases settling_write h with ⟨f, hf, rfl⟩ | ⟨user, notes, now, forced⟩
  · refine ⟨?_, fun i hi => statusOf_relabel_of_ne hi⟩
    rw [statusOf_relabel_self hs hid, hf s]
    simp
  · have hts : db'.transactions
        = (db.relabel t.row.idTransaction (Transaction.confirmed now)).transactions :=
      forced.transactions
    refine ⟨?_, fun i hi => (statusOf_congr hts).trans (statusOf_relabel_of_ne hi)⟩
    rw [statusOf_congr hts, statusOf_relabel_self hs hid]
    simp [Transaction.confirmed]

/-- What was read of a transaction lasts when another call writes. -/
theorem settling_lasting (h : settling.write db c t = some db') (ht' : t'.Lasting db) :
    t'.Lasting db' := by
  rcases settling_write h with ⟨f, -, rfl⟩ | ⟨user, notes, now, forced⟩
  · exact ⟨by rw [ledger_relabel]; exact ht'.exists_row, ht'.details⟩
  · constructor
    · show _ ∈ db'.transactions.rows.map (·.idTransaction)
      rw [forced.transactions]
      show _ ∈ (db.relabel t.row.idTransaction (Transaction.confirmed now)).ledger.docs
      rw [ledger_relabel]
      exact ht'.exists_row
    · have hds : db'.details = db.details := by
        rw [forced.entered.details, List.append_nil]
      rw [ht'.details]
      unfold Db.detailsOf
      rw [hds]

end Writes

/-! ## At most once -/

/-- The books stay in order, and what the calls have read lasts. -/
theorem settling_discipline (off : List Ident) :
    TwoStep.Discipline settling (fun _ _ => True) StillPending (fun db => Booked db off)
      (fun db _ t => t.Lasting db) where
  read := fun _ _ _ _ _ hread => (settling_read hread).lasting
  write := by
    intro db c t db' hb ht hstill hwrite
    obtain ⟨s, hs, hid, hstatus⟩ := exists_of_statusOf hstill
    have hopen : ¬ s.Closed := not_closed_of_status (by rw [hstatus]; decide)
    rcases settling_write hwrite with ⟨f, hf, rfl⟩ | ⟨user, notes, now, forced⟩
    · rw [← hid]
      refine hb.relabel hs hopen (fun _ => ?_) ?_
      · rw [hf s]
        decide
      · rw [hf s, hstatus]
        simp
    · exact hb.forced hs hid (by rw [hstatus]; decide) hopen ht.details forced
  stable := fun _ _ _ _ _ _ _ _ _ hwrite ht' => settling_lasting hwrite ht'

/-- **A conflict is settled at most once**, if it is still PENDING whenever a call writes: at
most one call for it succeeds, and what was deducted for it is its lines if it is
CONFIRMED, and nothing otherwise. -/
theorem settled_once {us : Table User} {db : Db} {as : List (TwoStep.Action SettleCall)}
    {σ : TwoStep.Session Db SettleCall FoundTransaction} (hdb : Reachable us db)
    (h : Runs.Run settling.next (TwoStep.Meets (fun _ _ => True) StillPending)
      (TwoStep.start db) as σ) :
    (∀ i, TwoStep.writesOf (fun t : FoundTransaction => t.row.idTransaction) σ i ≤ 1) ∧
      ∀ i p, db.statusOf i = some .PENDING → σ.store.net i p
        = if σ.store.statusOf i = some .CONFIRMED then -σ.store.sold i p else 0 := by
  obtain ⟨off, hb⟩ := hdb.booked
  have hd := settling_discipline off
  refine ⟨fun i => ?_, fun i p hpending => ?_⟩
  · refine (hd.writes_once (fun t => t.row.idTransaction)
      (fun db i => db.statusOf i = some .PENDING) ?_ hb h i).1
    intro db c t db' _ ht hstill hwrite
    obtain ⟨hclosed, hothers⟩ := settling_statusOf hwrite ht.exists_row
    refine ⟨hstill, hclosed, fun j hj => ?_⟩
    -- the write closes its own transaction and opens no other
    by_cases hjt : j = t.row.idTransaction
    · rw [hjt]
      exact hstill
    · rwa [hothers j hjt] at hj
  · -- a PENDING transaction was not written off
    obtain ⟨s, hs, hid, hstatus⟩ := exists_of_statusOf hpending
    have hoff : i ∉ off := by
      rw [← hid]
      exact hb.not_mem_off hs (not_closed_of_status (by rw [hstatus]; decide))
    have hmoved := (hd.session hb h).1.balanced.moved i p
    rw [movedBy_ledger, listedBy_ledger] at hmoved
    rw [hmoved]
    unfold Db.posted
    simp [hoff]

/-- The shop with a sale that asks for more than there is, and stock for it later. -/
def conflicting : Db :=
  after shop [shopSync "a" [20], .adjustStock shopOwner shopProduct ⟨90, none⟩ 2]

theorem reachable_conflicting : Reachable systemUsers conflicting := reachable_after_shop _

/-- The conflict is confirmed. -/
def confirmCall : SettleCall := .resolveConflict shopOwner (.cuid 5) ⟨.CONFIRM, none⟩ 3

/-- The transaction is voided. -/
def voidCall : SettleCall := .voidTransaction shopOwner (.cuid 5) "mistake" 3

/-- Both calls read, and one of them writes. -/
def oneSettles : List (TwoStep.Action SettleCall) :=
  [.read confirmCall, .read voidCall, .write 0, .drop 0]

/-- One of the two calls settles the conflict. -/
theorem settled_once_conflicting : ∃ σ : TwoStep.Session Db SettleCall FoundTransaction,
    σ.done.length = 1 ∧ σ.store.net (.cuid 5) shopProduct
      = if σ.store.statusOf (.cuid 5) = some .CONFIRMED
        then -σ.store.sold (.cuid 5) shopProduct else 0 := by
  have hcheck : (Runs.runs settling.next
      (fun σ a => decide (TwoStep.Meets (fun _ _ => True) StillPending σ a))
      (TwoStep.start conflicting) oneSettles).any (fun σ => decide (σ.done.length = 1))
      = true := by decide +kernel
  obtain ⟨σ, hrun, hlen⟩ := Runs.exists_run_of_runs hcheck
  have hrun := hrun.weaken fun _ _ h => of_decide_eq_true h
  have hpending : conflicting.statusOf (.cuid 5) = some .PENDING := by decide +kernel
  exact ⟨σ, of_decide_eq_true hlen,
    (settled_once reachable_conflicting hrun).2 (.cuid 5) shopProduct hpending⟩

/-- Two confirmations write. -/
def bothConfirm : List (TwoStep.Action SettleCall) :=
  [.read confirmCall, .read confirmCall, .write 0, .write 0]

/-- **A conflict is settled twice**, and its stock deducted twice. -/
theorem settled_twice : ¬ ∀ (us : Table User) (db : Db) (as : List (TwoStep.Action SettleCall))
    (σ : TwoStep.Session Db SettleCall FoundTransaction), Reachable us db →
      Runs.Run settling.next Runs.anyStep (TwoStep.start db) as σ →
      (∀ i, TwoStep.writesOf (fun t : FoundTransaction => t.row.idTransaction) σ i ≤ 1) ∧
        ∀ i p, db.statusOf i = some .PENDING → σ.store.net i p
          = if σ.store.statusOf i = some .CONFIRMED then -σ.store.sold i p else 0 := by
  intro h
  have hcheck : (Runs.runs settling.next (fun _ _ => true) (TwoStep.start conflicting)
      bothConfirm).any (fun σ => decide
        (TwoStep.writesOf (fun t : FoundTransaction => t.row.idTransaction) σ (.cuid 5) = 2))
      = true := by decide +kernel
  obtain ⟨σ, hrun, htwice⟩ := Runs.exists_run_of_runs hcheck
  have honce := (h _ _ _ σ reachable_conflicting (hrun.weaken fun _ _ _ => trivial)).1 (.cuid 5)
  rw [of_decide_eq_true htwice] at honce
  omega

end KPos
