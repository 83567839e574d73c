/-
# The books: stock, sales and movements

The database as a ledger: transactions are its documents, detail lines its lines,
`StockHistory` rows its moves.  A transaction is posted when it is CONFIRMED, or was
voided out of CONFIRMED because its payment was invalid.

* `Booked` : the invariant of the books, kept by every call (`Booked.exec`);
* `stock_accounts_iff` : when the stock of a product is what the accepted adjustments and the
  sales come to, and what the movements of each transaction net to;
* `stock_not_accounted` : an adjustment of one and a half pieces.
-/
import KPos.Lib.Ledger
import KPos.Effects

namespace KPos

/-! ## The database as a ledger -/

def DetailTransaction.line (d : DetailTransaction) : LedgerLine Ident Ident :=
  ⟨d.idTransaction, d.idProduct, d.quantity⟩

def StockHistory.move (h : StockHistory) : LedgerMove Ident Ident :=
  ⟨h.idTransaction, h.idProduct, h.quantity⟩

def Db.ledger (db : Db) : Ledger Ident Ident :=
  ⟨db.transactions.rows.map (·.idTransaction), db.details.map (·.line),
    db.stockHistories.map (·.move)⟩

/-- The detail quantities of a product in a transaction. -/
def Db.sold (db : Db) (t p : Ident) : ℤ :=
  tally (fun d => decide (d.idTransaction = t) && decide (d.idProduct = p)) (·.quantity) db.details

/-- What the history rows of a transaction net for a product. -/
def Db.net (db : Db) (t p : Ident) : ℤ :=
  tally (fun h => decide (h.idTransaction = some t) && decide (h.idProduct = p)) (·.quantity)
    db.stockHistories

theorem listedBy_ledger (db : Db) (t p : Ident) :
    Ledger.listedBy db.ledger.lines t p = db.sold t p := by
  unfold Ledger.listedBy Db.ledger Db.sold
  rw [Tally.tally_map]
  rfl

theorem movedBy_ledger (db : Db) (t p : Ident) :
    Ledger.movedBy db.ledger.moves t p = db.net t p := by
  unfold Ledger.movedBy Db.ledger Db.net
  rw [Tally.tally_map]
  rfl

theorem movedAll_ledger (db : Db) (p : Ident) :
    Ledger.movedAll db.ledger.moves p = movement p db.stockHistories := by
  unfold Ledger.movedAll Db.ledger movement
  rw [Tally.tally_map]
  rfl

/-- The lines of a document are those of the transaction. -/
theorem linesOf_ledger (db : Db) (t : Ident) :
    db.ledger.linesOf t = (db.detailsOf t).map (·.line) := by
  unfold Ledger.linesOf Db.ledger Db.detailsOf
  rw [List.filter_map]
  rfl

theorem mem_docs_ledger {db : Db} {t : Ident} :
    t ∈ db.ledger.docs ↔ ∃ s ∈ db.transactions.rows, s.idTransaction = t := List.mem_map

/-! ## The status of a transaction -/

/-- The status of the transaction with an id. -/
def Db.statusOf (db : Db) (t : Ident) : Option TransactionStatus :=
  (db.transactions.findUnique (.id t)).map (·.status)

@[simp] theorem id_mem_keys {s : Transaction} {t : Ident} :
    TransactionKey.id t ∈ UniqueKeys.keys s ↔ s.idTransaction = t := by
  simp [UniqueKeys.keys, eq_comm]

theorem offlineUuid_mem_keys {t : Transaction} {u : Ident} :
    TransactionKey.offlineUuid u ∈ UniqueKeys.keys t ↔ t.offlineUuid = some u := by
  simp [UniqueKeys.keys]

@[simp] theorem deviceUuid_mem_keys {t : Transaction} {d u : Ident} :
    TransactionKey.deviceUuid d u ∈ UniqueKeys.keys t ↔
      t.idDevice = d ∧ t.offlineUuid = some u := by
  simp only [UniqueKeys.keys, List.mem_append, List.mem_cons, reduceCtorEq, Option.mem_toList,
    Option.map_eq_some_iff, TransactionKey.deviceUuid.injEq, false_or, and_false, exists_false]
  constructor
  · rintro ⟨_, hu, hd, rfl⟩
    exact ⟨hd, hu⟩
  · rintro ⟨hd, hu⟩
    exact ⟨u, hu, hd, rfl⟩

theorem statusOf_of_mem {db : Db} {s : Transaction} (hs : s ∈ db.transactions.rows) :
    db.statusOf s.idTransaction = some s.status := by
  unfold Db.statusOf
  rw [Table.findUnique_eq_some.mpr ⟨hs, id_mem_keys.mpr rfl⟩]
  rfl

/-- The row with a known status. -/
theorem exists_of_statusOf {db : Db} {i : Ident} {status : TransactionStatus}
    (h : db.statusOf i = some status) :
    ∃ s ∈ db.transactions.rows, s.idTransaction = i ∧ s.status = status := by
  obtain ⟨s, hs, hstatus⟩ := Option.map_eq_some_iff.mp h
  obtain ⟨hmem, hid⟩ := Table.findUnique_eq_some.mp hs
  exact ⟨s, hmem, id_mem_keys.mp hid, hstatus⟩

theorem statusOf_eq_none {db : Db} {i : Ident} : db.statusOf i = none ↔ i ∉ db.ledger.docs := by
  unfold Db.statusOf
  rw [Option.map_eq_none_iff, Table.findUnique_eq_none, mem_docs_ledger]
  simp only [id_mem_keys, not_exists, not_and]

/-- The status that a table gives depends on the transactions alone. -/
theorem statusOf_congr {db db' : Db} {i : Ident} (h : db'.transactions = db.transactions) :
    db'.statusOf i = db.statusOf i := by
  unfold Db.statusOf
  rw [h]

/-- A rewriting that leaves the keys alone leaves the id alone. -/
theorem id_rewrite (f : Rewrite Transaction) (s : Transaction) :
    (f s).idTransaction = s.idTransaction := by
  have h : TransactionKey.id (f s).idTransaction ∈ UniqueKeys.keys s := by
    rw [← f.keys_eq s]
    exact id_mem_keys.mpr rfl
  exact (id_mem_keys.mp h).symm

section Relabel

variable {db : Db} {i : Ident} {f : Rewrite Transaction}

/-- The rows after a relabelling: the rewritten one and the others. -/
theorem mem_relabel {s : Transaction} : s ∈ (db.relabel i f).transactions.rows ↔
    (∃ r ∈ db.transactions.rows, r.idTransaction = i ∧ s = f r) ∨
      (s ∈ db.transactions.rows ∧ s.idTransaction ≠ i) := by
  show s ∈ (db.transactions.update (.id i) f).rows ↔ _
  rw [Table.mem_update_iff]
  simp only [id_mem_keys, ne_eq]

theorem statusOf_relabel_of_ne {t : Ident} (ht : t ≠ i) :
    (db.relabel i f).statusOf t = db.statusOf t := by
  show ((db.transactions.update (.id i) f).findUnique (.id t)).map (·.status) = _
  unfold Db.statusOf
  rw [Table.findUnique_update, Option.map_map]
  cases hfind : db.transactions.findUnique (.id t) with
  | none => rfl
  | some s =>
    have hs : s.idTransaction = t := id_mem_keys.mp (Table.findUnique_eq_some.mp hfind).2
    have hne : TransactionKey.id i ∉ UniqueKeys.keys s := by
      rw [id_mem_keys, hs]
      exact ht
    simp only [Option.map_some, Function.comp, if_neg hne]

theorem statusOf_relabel_self {s : Transaction} (hs : s ∈ db.transactions.rows)
    (hi : s.idTransaction = i) : (db.relabel i f).statusOf i = some (f s).status := by
  have hmem : f s ∈ (db.relabel i f).transactions.rows :=
    mem_relabel.mpr (Or.inl ⟨s, hs, hi, rfl⟩)
  have := statusOf_of_mem hmem
  rwa [id_rewrite f, hi] at this

/-- A relabelling leaves the ledger as it is. -/
theorem ledger_relabel : (db.relabel i f).ledger = db.ledger := by
  unfold Db.ledger
  have hids : (db.relabel i f).transactions.rows.map (·.idTransaction)
      = db.transactions.rows.map (·.idTransaction) := by
    show ((db.transactions.update (.id i) f).rows).map (·.idTransaction) = _
    rw [Table.rows_update, List.map_map]
    apply List.map_congr_left
    intro s _
    simp only [Function.comp]
    split
    · exact id_rewrite f s
    · rfl
  rw [hids]
  rfl

end Relabel

/-- What a call has read of a transaction besides its status is still so. -/
structure FoundTransaction.Lasting (t : FoundTransaction) (db : Db) : Prop where
  exists_row : t.row.idTransaction ∈ db.ledger.docs
  details : t.details = db.detailsOf t.row.idTransaction

theorem FoundTransaction.CurrentIn.lasting {t : FoundTransaction} {db : Db}
    (h : t.CurrentIn db) : t.Lasting db :=
  ⟨mem_docs_ledger.mpr ⟨t.row, h.row, rfl⟩, h.details⟩

/-! ## Open and closed transactions -/

/-- A transaction that nothing opens again. -/
def Transaction.Closed (t : Transaction) : Prop :=
  t.status = .VOIDED ∧ t.syncStatus ≠ .SYNC_CONFLICT

/-- The transaction with an id is closed. -/
def ClosedIn (ts : Table Transaction) (k : Ident) : Prop :=
  ∃ t ∈ ts.rows, t.idTransaction = k ∧ t.Closed

/-- A conflict is not CONFIRMED; what was written off or corrected is closed, and nothing
is corrected twice. -/
structure Settled (ts : Table Transaction) (cs : Table TransactionCorrection)
    (off : List Ident) : Prop where
  conflict : ∀ t ∈ ts.rows, t.syncStatus = .SYNC_CONFLICT → t.status ≠ .CONFIRMED
  written : ∀ k ∈ off, ClosedIn ts k
  corrected : ∀ c ∈ cs.rows, ClosedIn ts c.idOldTransaction
  once : (cs.rows.map (·.idOldTransaction)).Nodup

section Settled

variable {ts ts' : Table Transaction} {cs cs' : Table TransactionCorrection}
  {off : List Ident} {s t : Transaction} {k i : Ident}

/-- Rows with one id are one row. -/
theorem row_unique (hs : s ∈ ts.rows) (ht : t ∈ ts.rows)
    (h : s.idTransaction = t.idTransaction) : s = t :=
  Table.eq_of_key hs ht (id_mem_keys.mpr rfl) (id_mem_keys.mpr h.symm)

/-- A row that is not closed is none of the closed ones. -/
theorem ClosedIn.ne_of_open (hk : ClosedIn ts k) (hs : s ∈ ts.rows) (hopen : ¬ s.Closed) :
    k ≠ s.idTransaction := by
  rintro rfl
  obtain ⟨t, ht, heq, hclosed⟩ := hk
  rw [row_unique ht hs heq] at hclosed
  exact hopen hclosed

theorem ClosedIn.insert {r : Transaction} (hk : ClosedIn ts k) (h : ts.insert r = some ts') :
    ClosedIn ts' k := by
  obtain ⟨t, ht, heq, hclosed⟩ := hk
  exact ⟨t, (Table.mem_insert h).mpr (Or.inl ht), heq, hclosed⟩

/-- What is closed stays closed when an open transaction is rewritten. -/
theorem ClosedIn.update {f : Rewrite Transaction} (hk : ClosedIn ts k)
    (hs : s ∈ ts.rows) (hopen : ¬ s.Closed) :
    ClosedIn (ts.update (.id s.idTransaction) f) k := by
  have hne := hk.ne_of_open hs hopen
  obtain ⟨t, ht, heq, hclosed⟩ := hk
  refine ⟨t, Table.mem_update_of_not_mem ht ?_, heq, hclosed⟩
  rw [id_mem_keys, heq]
  exact hne

theorem Settled.update {f : Rewrite Transaction} (h : Settled ts cs off)
    (hs : s ∈ ts.rows) (hopen : ¬ s.Closed)
    (hconf : (f s).syncStatus = .SYNC_CONFLICT → (f s).status ≠ .CONFIRMED) :
    Settled (ts.update (.id s.idTransaction) f) cs off where
  conflict := by
    intro t ht
    rcases Table.mem_update_iff.mp ht with ⟨r, hr, hkey, rfl⟩ | ⟨ht, -⟩
    · obtain rfl := row_unique hr hs (id_mem_keys.mp hkey)
      exact hconf
    · exact h.conflict t ht
  written := fun k hk => (h.written k hk).update hs hopen
  corrected := fun c hc => (h.corrected c hc).update hs hopen
  once := h.once

theorem Settled.insert {r : Transaction} (h : Settled ts cs off)
    (hins : ts.insert r = some ts')
    (hconf : r.syncStatus = .SYNC_CONFLICT → r.status ≠ .CONFIRMED) : Settled ts' cs off where
  conflict := by
    intro t ht
    rcases (Table.mem_insert hins).mp ht with ht | rfl
    · exact h.conflict t ht
    · exact hconf
  written := fun k hk => (h.written k hk).insert hins
  corrected := fun c hc => (h.corrected c hc).insert hins
  once := h.once

/-- A closed transaction can be written off. -/
theorem Settled.writeOff (h : Settled ts cs off) (hk : ClosedIn ts k) :
    Settled ts cs (off ++ [k]) where
  conflict := h.conflict
  written := by
    intro j hj
    rcases List.mem_append.mp hj with hj | hj
    · exact h.written j hj
    · rw [List.mem_singleton.mp hj]
      exact hk
  corrected := h.corrected
  once := h.once

/-- A transaction that was just closed can be bridged to its correction. -/
theorem Settled.bridge {c : TransactionCorrection} (h : Settled ts cs off)
    (hins : cs.insert c = some cs') (hclosed : ClosedIn ts c.idOldTransaction)
    (hnew : ∀ d ∈ cs.rows, d.idOldTransaction ≠ c.idOldTransaction) : Settled ts cs' off where
  conflict := h.conflict
  written := h.written
  corrected := by
    intro d hd
    rcases (Table.mem_insert hins).mp hd with hd | rfl
    · exact h.corrected d hd
    · exact hclosed
  once := by
    rw [(Table.insert_eq_some.mp hins).2, List.map_append, List.map_singleton,
      ← List.concat_eq_append]
    refine List.Nodup.concat ?_ h.once
    intro hmem
    obtain ⟨d, hd, heq⟩ := List.mem_map.mp hmem
    exact hnew d hd heq

end Settled

/-! ## The invariant of the books -/

/-- Whether a transaction is posted: it is CONFIRMED, or among those written off. -/
def Db.posted (db : Db) (off : List Ident) (t : Ident) : Bool :=
  decide (db.statusOf t = some .CONFIRMED) || decide (t ∈ off)

/-- The books are in order; `off` are the transactions that were written off. -/
structure Booked (db : Db) (off : List Ident) : Prop where
  balanced : db.ledger.Balanced (db.posted off)
  stock : ∀ p, db.stock p = movement p db.stockHistories
  settled : Settled db.transactions db.corrections off

variable {db db' : Db} {off : List Ident}

/-- A transaction that is open and not CONFIRMED is not posted. -/
theorem Booked.posted_eq_false (hb : Booked db off) {t : Transaction}
    (ht : t ∈ db.transactions.rows) (hstatus : t.status ≠ .CONFIRMED) (hopen : ¬ t.Closed) :
    db.posted off t.idTransaction = false := by
  unfold Db.posted
  rw [statusOf_of_mem ht, Bool.or_eq_false_iff]
  constructor
  · simpa using hstatus
  · rw [decide_eq_false_iff_not]
    exact fun hmem => (hb.settled.written _ hmem).ne_of_open ht hopen rfl

/-- A CONFIRMED transaction is not among those written off. -/
theorem Booked.not_mem_off (hb : Booked db off) {t : Transaction}
    (ht : t ∈ db.transactions.rows) (hopen : ¬ t.Closed) : t.idTransaction ∉ off :=
  fun hmem => (hb.settled.written _ hmem).ne_of_open ht hopen rfl

theorem not_closed_of_status {t : Transaction} (h : t.status ≠ .VOIDED) : ¬ t.Closed :=
  fun hclosed => h hclosed.1

theorem not_closed_of_conflict {t : Transaction} (h : t.syncStatus = .SYNC_CONFLICT) :
    ¬ t.Closed := fun hclosed => hclosed.2 h

/-- Whether a transaction is posted depends on the transactions alone. -/
theorem posted_congr (h : db'.transactions = db.transactions) : db'.posted off = db.posted off := by
  funext t
  unfold Db.posted Db.statusOf
  rw [h]

/-- The books of a database with users and nothing else. -/
theorem booked_withUsers (us : Table User) : Booked (Db.withUsers us) [] where
  balanced := Ledger.balanced_empty
  stock := fun _ => rfl
  settled :=
    { conflict := fun _ h => nomatch h
      written := fun _ h => nomatch h
      corrected := fun _ h => nomatch h
      once := List.nodup_nil }

/-- What does not touch the sales does not touch the books. -/
theorem Booked.sameSales (hb : Booked db off) (h : SameSales db db') : Booked db' off := by
  have hledger : db'.ledger = db.ledger := by
    unfold Db.ledger
    rw [h.transactions, h.details, h.histories]
  refine ⟨?_, fun p => ?_, ?_⟩
  · rw [hledger, posted_congr h.transactions]
    exact hb.balanced
  · rw [h.stock, h.histories]
    exact hb.stock p
  · rw [h.transactions, h.corrections]
    exact hb.settled

/-- What enters movements keeps the stock equal to their sum. -/
theorem Entered.stock_eq {ds : List DetailTransaction} {hs : List StockHistory}
    (h : Entered db db' ds hs) (hstock : ∀ p, db.stock p = movement p db.stockHistories)
    (p : Ident) : db'.stock p = movement p db'.stockHistories := by
  rw [h.stock, h.histories, movement_append, hstock]

/-! ## What each call does to the books -/

/-- A manual adjustment. -/
theorem Booked.adjusted (hb : Booked db off) {user : JwtPayload} {product : Product}
    {dto : AdjustStockDto} {n : ℤ} {now : DateTime}
    (h : StockMoved db db' [(Products.adjustment user product dto n).history now]) :
    Booked db' off := by
  have hts : db'.transactions = db.transactions := by rw [h.frame]
  have hds : db'.details = db.details := by rw [h.frame]
  have hcs : db'.corrections = db.corrections := by rw [h.frame]
  have hledger : db'.ledger = db.ledger.enter [] [] [⟨none, product.idProduct, n⟩] := by
    unfold Db.ledger Ledger.enter
    rw [hts, hds, h.histories, List.map_append, List.append_nil, List.append_nil]
    rfl
  refine ⟨?_, h.entered.stock_eq hb.stock, ?_⟩
  · rw [hledger, posted_congr hts]
    exact hb.balanced.hand product.idProduct n
  · rw [hts, hcs]
    exact hb.settled

section Insert

variable {r : Transaction} (h : db.transactions.insert r = some db'.transactions)

include h

/-- The id of a new transaction is new. -/
theorem fresh_id_of_insert : r.idTransaction ∉ db.ledger.docs := by
  intro hmem
  obtain ⟨s, hs, heq⟩ := mem_docs_ledger.mp hmem
  exact Table.free_of_insert h hs (id_mem_keys.mpr rfl) (id_mem_keys.mpr heq)

theorem statusOf_insert_of_ne {t : Ident} (ht : t ≠ r.idTransaction) :
    db'.statusOf t = db.statusOf t := by
  unfold Db.statusOf
  rw [Table.findUnique_insert_of_not_mem h]
  rw [id_mem_keys]
  exact Ne.symm ht

theorem statusOf_insert_self : db'.statusOf r.idTransaction = some r.status :=
  statusOf_of_mem ((Table.mem_insert h).mpr (Or.inr rfl))

theorem docs_insert :
    db'.transactions.rows.map (·.idTransaction) = db.ledger.docs ++ [r.idTransaction] := by
  rw [(Table.insert_eq_some.mp h).2, List.map_append]
  rfl

end Insert

/-- The lines of a synchronised sale name it. -/
theorem doc_saleDetails {data : QueuedTransaction} {txId : Ident} {now : DateTime} :
    ∀ l ∈ (saleDetails data txId now).map (·.line), l.doc = txId := by
  intro l hl
  obtain ⟨d, hd, rfl⟩ := List.mem_map.mp hl
  exact saleDetails_named d hd

/-- The deductions of a synchronised sale take out what its lines list. -/
theorem moves_saleHistories {data : QueuedTransaction} {txId merchantId : Ident}
    {now : DateTime} : (saleHistories data txId merchantId now).map (·.move)
      = Ledger.takeOut txId ((saleDetails data txId now).map (·.line)) := by
  unfold saleHistories saleDetails Ledger.takeOut
  simp only [List.map_map]
  rfl

/-- A synchronised sale, as a draft or posted at once. -/
theorem Booked.stored (hb : Booked db off) {data : QueuedTransaction} {hasConflict : Bool}
    {now created : DateTime} {d : Device} (h : StoredSale db db' data hasConflict now d created) :
    Booked db' off := by
  have hins := h.insertable.header
  have hcs : db'.corrections = db.corrections := by rw [h.frame]
  have hfresh : db.newId ∉ db.ledger.docs := fresh_id_of_insert hins
  have hoff : db.newId ∉ off := by
    intro hmem
    obtain ⟨t, ht, heq, -⟩ := hb.settled.written _ hmem
    exact hfresh (mem_docs_ledger.mpr ⟨t, ht, heq⟩)
  -- the new id is none of the old ones, so nothing else changes its status
  have hothers : ∀ t ∈ db.ledger.docs, db'.posted off t = db.posted off t := by
    intro t ht
    have hne : t ≠ db.newId := fun heq => hfresh (heq ▸ ht)
    unfold Db.posted
    rw [statusOf_insert_of_ne hins hne]
  have hself : db'.statusOf db.newId = some (if hasConflict then .PENDING else .CONFIRMED) :=
    statusOf_insert_self hins
  have hdocs : db'.ledger.docs = db.ledger.docs ++ [db.newId] := docs_insert hins
  refine ⟨?_, h.entered.stock_eq hb.stock, ?_⟩
  · cases hasConflict with
    | true =>
      have hledger : db'.ledger
          = db.ledger.enter [db.newId] ((saleDetails data db.newId now).map (·.line)) [] := by
        unfold Ledger.enter
        rw [← hdocs]
        unfold Db.ledger
        rw [h.entered.details, h.entered.histories, List.map_append]
        simp
      rw [hledger]
      -- on a conflict the sale is a draft
      refine hb.balanced.openDraft hfresh doc_saleDetails ?_ hothers
      unfold Db.posted
      rw [hself]
      simpa using hoff
    | false =>
      have hledger : db'.ledger
          = db.ledger.enter [db.newId] ((saleDetails data db.newId now).map (·.line))
              (Ledger.takeOut db.newId ((saleDetails data db.newId now).map (·.line))) := by
        unfold Ledger.enter
        rw [← hdocs, ← moves_saleHistories]
        unfold Db.ledger
        rw [h.entered.details, h.entered.histories, List.map_append, List.map_append]
        rfl
      rw [hledger]
      -- without one it is posted at once
      refine hb.balanced.openPosted hfresh doc_saleDetails ?_ hothers
      unfold Db.posted
      rw [hself]
      simp
  · rw [hcs]
    apply hb.settled.insert hins
    cases hasConflict <;> simp [headerRow, Transaction.stored]

/-- A new status that is CONFIRMED exactly when the old one was. -/
theorem Booked.relabel (hb : Booked db off) {s : Transaction}
    (hs : s ∈ db.transactions.rows) {f : Rewrite Transaction} (hopen : ¬ s.Closed)
    (hconf : (f s).syncStatus = .SYNC_CONFLICT → (f s).status ≠ .CONFIRMED)
    (hstatus : (f s).status = .CONFIRMED ↔ s.status = .CONFIRMED) :
    Booked (db.relabel s.idTransaction f) off := by
  refine ⟨?_, hb.stock, hb.settled.update hs hopen hconf⟩
  rw [ledger_relabel]
  apply hb.balanced.congr
  intro k _
  unfold Db.posted
  by_cases hk : k = s.idTransaction
  · subst hk
    rw [statusOf_relabel_self hs rfl, statusOf_of_mem hs]
    simp only [Option.some.injEq, hstatus]
  · rw [statusOf_relabel_of_ne hk]

/-- A CONFIRMED transaction is voided and written off. -/
theorem Booked.writeOff (hb : Booked db off) {s : Transaction}
    (hs : s ∈ db.transactions.rows) {f : Rewrite Transaction} (hstatus : s.status = .CONFIRMED)
    (hclosed : (f s).Closed) :
    Booked (db.relabel s.idTransaction f) (off ++ [s.idTransaction]) := by
  have hopen : ¬ s.Closed := not_closed_of_status (by rw [hstatus]; decide)
  have hupdated : Settled (db.relabel s.idTransaction f).transactions db.corrections off :=
    hb.settled.update hs hopen fun h => absurd h hclosed.2
  refine ⟨?_, hb.stock, hupdated.writeOff ⟨f s, ?_, id_rewrite f s, hclosed⟩⟩
  · rw [ledger_relabel]
    apply hb.balanced.congr
    intro k _
    unfold Db.posted
    by_cases hk : k = s.idTransaction
    · subst hk
      rw [statusOf_of_mem hs, hstatus]
      simp
    · rw [statusOf_relabel_of_ne hk]
      simp [hk]
  · exact mem_relabel.mpr (Or.inl ⟨s, hs, rfl, rfl⟩)

/-- An open transaction is confirmed by force: its deductions are entered and it is posted. -/
theorem Booked.forced (hb : Booked db off) {user : JwtPayload} {t : FoundTransaction}
    {notes : Option String} {now : DateTime} {s : Transaction}
    (hs : s ∈ db.transactions.rows) (hid : s.idTransaction = t.row.idTransaction)
    (hstatus : s.status ≠ .CONFIRMED) (hopen : ¬ s.Closed)
    (hdet : t.details = db.detailsOf t.row.idTransaction)
    (h : Forced db db' user t notes now) : Booked db' off := by
  have hcs : db'.corrections = db.corrections := by rw [h.frame]
  have hts : db'.transactions
      = (db.relabel s.idTransaction (Transaction.confirmed now)).transactions := by
    rw [h.transactions, ← hid]
    rfl
  have hmoves : (forcedHistories t user.sub notes now).map (·.move)
      = Ledger.takeOut s.idTransaction (db.ledger.linesOf s.idTransaction) := by
    rw [linesOf_ledger, hid, ← hdet]
    unfold forcedHistories Ledger.takeOut
    simp only [List.map_map]
    rfl
  have hdocs : db'.transactions.rows.map (·.idTransaction) = db.ledger.docs := by
    rw [hts]
    exact congrArg Ledger.docs ledger_relabel
  have hledger : db'.ledger = db.ledger.enter [] []
      (Ledger.takeOut s.idTransaction (db.ledger.linesOf s.idTransaction)) := by
    unfold Ledger.enter
    rw [← hmoves, List.append_nil, List.append_nil, ← hdocs]
    unfold Db.ledger
    rw [h.entered.details, h.entered.histories, List.append_nil, List.map_append]
  refine ⟨?_, h.entered.stock_eq hb.stock, ?_⟩
  · rw [hledger, posted_congr hts]
    refine hb.balanced.post (mem_docs_ledger.mpr ⟨s, hs, rfl⟩)
      (hb.posted_eq_false hs hstatus hopen) ?_ ?_
    · unfold Db.posted
      rw [statusOf_relabel_self hs rfl]
      rfl
    · intro k _ hk
      unfold Db.posted
      rw [statusOf_relabel_of_ne hk]
  · rw [hts, hcs]
    apply hb.settled.update hs hopen
    intro hsynced
    cases hsynced

/-- The lines of a correction name the new transaction. -/
theorem doc_correctionDetails {dto : CorrectTransactionDto} {txId : Ident} {now : DateTime} :
    ∀ l ∈ (correctionDetails dto txId now).map (·.line), l.doc = txId := by
  intro l hl
  obtain ⟨d, hd, rfl⟩ := List.mem_map.mp hl
  exact correctionDetails_named d hd

/-- The movements of a correction put back the old lines and take out the new ones. -/
theorem moves_correctionHistories {user : JwtPayload} {t : FoundTransaction}
    {dto : CorrectTransactionDto} {txId : Ident} {now : DateTime} :
    (correctionHistories user t dto txId now).map (·.move)
      = Ledger.putBack t.row.idTransaction (t.details.map (·.line)) ++
        Ledger.takeOut txId ((correctionDetails dto txId now).map (·.line)) := by
  unfold correctionHistories correctionDetails Ledger.putBack Ledger.takeOut
  simp only [List.map_map, List.map_append]
  rfl

/-- A CONFIRMED transaction is corrected: it is taken back, and the new one is posted. -/
theorem Booked.corrected (hb : Booked db off) {user : JwtPayload} {t : FoundTransaction}
    {dto : CorrectTransactionDto} {now : DateTime} {s : Transaction}
    (hs : s ∈ db.transactions.rows) (hid : s.idTransaction = t.row.idTransaction)
    (hstatus : s.status = .CONFIRMED) (hdet : t.details = db.detailsOf t.row.idTransaction)
    (h : Corrected db db' user t dto now) : Booked db' off := by
  obtain ⟨ts, hins, hts⟩ := h.transactions
  obtain ⟨c, hold, -, hcs⟩ := h.corrections
  have hopen : ¬ s.Closed := not_closed_of_status (by rw [hstatus]; decide)
  -- the database with the new transaction and before the old one is voided
  let db₁ : Db := { db with transactions := ts }
  have hins₁ : db.transactions.insert (correctedRow db t dto now).stored
    = some db₁.transactions := hins
  have hs₁ : s ∈ db₁.transactions.rows := (Table.mem_insert hins₁).mpr (Or.inl hs)
  let f : Rewrite Transaction :=
    Transaction.voided user (correctedReason dto.reason db.newId) now
  have hts₁ : db'.transactions = (db₁.relabel s.idTransaction f).transactions := by
    rw [hts, ← hid]
    rfl
  have hfresh : db.newId ∉ db.ledger.docs := fresh_id_of_insert hins₁
  have hne : ∀ k ∈ db.ledger.docs, k ≠ db.newId := fun k hk heq => hfresh (heq ▸ hk)
  have hsdoc : s.idTransaction ∈ db.ledger.docs := mem_docs_ledger.mpr ⟨s, hs, rfl⟩
  have hdocs : db'.ledger.docs = db.ledger.docs ++ [db.newId] := by
    show db'.transactions.rows.map (·.idTransaction) = _
    rw [hts₁]
    exact (congrArg Ledger.docs ledger_relabel).trans (docs_insert hins₁)
  have hledger : db'.ledger
      = (db.ledger.enter [] []
          (Ledger.putBack s.idTransaction (db.ledger.linesOf s.idTransaction))).enter [db.newId]
          ((correctionDetails dto db.newId now).map (·.line))
          (Ledger.takeOut db.newId ((correctionDetails dto db.newId now).map (·.line))) := by
    unfold Ledger.enter
    rw [List.append_nil, ← hdocs, linesOf_ledger, hid, ← hdet, List.append_nil,
      List.append_assoc, ← moves_correctionHistories]
    unfold Db.ledger
    rw [h.entered.details, h.entered.histories, List.map_append, List.map_append]
  -- the old transaction is taken back first
  have hmid : (db.ledger.enter [] [] (Ledger.putBack s.idTransaction
      (db.ledger.linesOf s.idTransaction))).Balanced
        fun k => if k = s.idTransaction then false else db.posted off k := by
    refine hb.balanced.unpost hsdoc ?_ (if_pos rfl) fun k _ hk => if_neg hk
    unfold Db.posted
    rw [statusOf_of_mem hs, hstatus]
    rfl
  refine ⟨?_, h.entered.stock_eq hb.stock, ?_⟩
  · rw [hledger, posted_congr hts₁]
    refine hmid.openPosted (by simpa [Ledger.enter] using hfresh) doc_correctionDetails ?_ ?_
    · unfold Db.posted
      rw [statusOf_relabel_of_ne (hne _ hsdoc).symm]
      have hself : db₁.statusOf db.newId = some .CONFIRMED := statusOf_insert_self hins₁
      rw [hself]
      rfl
    · intro k hk
      have hk' : k ∈ db.ledger.docs := by simpa [Ledger.enter] using hk
      unfold Db.posted
      by_cases hks : k = s.idTransaction
      · subst hks
        rw [if_pos rfl, statusOf_relabel_self hs₁ rfl]
        simpa [f, Transaction.voided] using hb.not_mem_off hs hopen
      · rw [if_neg hks, statusOf_relabel_of_ne hks, statusOf_insert_of_ne hins₁ (hne k hk')]
  · rw [hts₁]
    have hinserted : Settled ts db.corrections off := by
      apply hb.settled.insert hins
      intro hsync
      cases hsync
    -- a CONFIRMED transaction has no conflict, so the void closes it
    have hsync : s.syncStatus ≠ .SYNC_CONFLICT := fun h => hb.settled.conflict s hs h hstatus
    refine (hinserted.update hs₁ hopen fun h => absurd h hsync).bridge hcs ?_ ?_
    · refine ⟨f s, mem_relabel.mpr (Or.inl ⟨s, hs₁, rfl, rfl⟩), ?_, rfl, hsync⟩
      rw [hold, ← hid]
      rfl
    · intro d hd
      rw [hold, ← hid]
      exact (hb.settled.corrected d hd).ne_of_open hs hopen

/-- **Every call keeps the books in order**, when what it writes off is noted. -/
theorem Booked.exec (hb : Booked db off) (op : Op) :
    Booked (exec db op) (off ++ writeOffsOf db op) := by
  have heffect := exec_effect db op
  generalize KPos.exec db op = db' at heffect
  cases heffect with
  | alone same _ hoff =>
    rw [hoff, List.append_nil]
    exact hb.sameSales same
  | adjusted product _ moved _ =>
    rw [show writeOffsOf db (.adjustStock _ _ _ _) = [] from rfl, List.append_nil]
    exact hb.adjusted moved
  | synced d t sale rest =>
    rw [show writeOffsOf db (.sync _ _) = [] from rfl, List.append_nil]
    exact (hb.stored sale).sameSales rest
  | voided t read =>
    obtain ⟨hcur, -, hstatus⟩ := voidTransactionRead_eq_ok read
    rw [show writeOffsOf db (.voidTransaction _ _ _ _) = [] from rfl, List.append_nil]
    refine hb.relabel hcur.row (not_closed_of_status (by rw [hstatus]; decide)) ?_ ?_
    · intro _ h
      cases h
    · rw [hstatus]
      simp [Transaction.voided]
  | confirmed t read forced =>
    obtain ⟨hcur, -, hsync⟩ := resolveConflictRead_eq_ok read
    rw [show writeOffsOf db (.resolveConflict _ _ _ _) = [] from rfl, List.append_nil]
    exact hb.forced hcur.row rfl (hb.settled.conflict _ hcur.row hsync)
      (not_closed_of_conflict hsync) hcur.details forced
  | conflictVoided t read =>
    obtain ⟨hcur, -, hsync⟩ := resolveConflictRead_eq_ok read
    rw [show writeOffsOf db (.resolveConflict _ _ _ _) = [] from rfl, List.append_nil]
    refine hb.relabel hcur.row (not_closed_of_conflict hsync) ?_ ?_
    · intro _ h
      cases h
    · have := hb.settled.conflict _ hcur.row hsync
      simp [Transaction.conflictVoided, this]
  | corrected t read written =>
    obtain ⟨hcur, -, hstatus⟩ := correctTransactionRead_eq_ok read
    rw [show writeOffsOf db (.correctTransaction _ _ _ _) = [] from rfl, List.append_nil]
    exact hb.corrected hcur.row rfl hstatus hcur.details written
  | @invalidated id user dto now db₁ r found live rest entered =>
    have hb₁ := hb.sameSales rest
    have hrow : r.transaction ∈ db₁.transactions.rows := by
      rw [rest.transactions]
      exact (findReconciliation_eq_some found).2.2
    rw [entered]
    split
    · rename_i hstatus
      exact hb₁.writeOff hrow hstatus
        ⟨rfl, fun h => hb₁.settled.conflict _ hrow h hstatus⟩
    · rename_i hstatus
      rw [List.append_nil]
      refine hb₁.relabel hrow (not_closed_of_status live) ?_ ?_
      · intro _ h
        cases h
      · simp [Transaction.voided, hstatus]

/-! ## What the stock of a product is -/

/-- A database with the adjustments that its calls have accepted, as they were asked for, and
what they have written off. -/
structure Books where
  db : Db
  adjustments : List (Ident × ℚ)
  writtenOff : List Ident

/-- The books before the first call. -/
def Books.start (us : Table User) : Books := ⟨Db.withUsers us, [], []⟩

/-- The books after a call. -/
def Books.step (b : Books) (op : Op) : Books where
  db := KPos.exec b.db op
  adjustments := b.adjustments ++ adjustmentsOf b.db op
  writtenOff := b.writtenOff ++ writeOffsOf b.db op

/-- The books after calls made one after the other. -/
def Books.after (us : Table User) (ops : List Op) : Books := ops.foldl Books.step (Books.start us)

/-- The books are about the database that the calls lead to. -/
theorem db_booksAfter (us : Table User) (ops : List Op) :
    (Books.after us ops).db = KPos.after (Db.withUsers us) ops := by
  have hstep : ∀ b : Books, (ops.foldl Books.step b).db = KPos.after b.db ops := by
    induction ops with
    | nil => exact fun b => rfl
    | cons op ops ih => exact fun b => ih (b.step op)
  exact hstep (Books.start us)

/-- What manual adjustments add up to for a product. -/
def adjusted (adjustments : List (Ident × ℚ)) (p : Ident) : ℚ :=
  ((adjustments.filter fun a => decide (a.1 = p)).map (·.2)).sum

/-- What they move of it: whole pieces. -/
def adjustedPieces (adjustments : List (Ident × ℚ)) (p : Ident) : ℤ :=
  tally (fun a => decide (a.1 = p)) (fun a => truncate a.2) adjustments

/-- The decimals that are cut off from them. -/
def cutOff (adjustments : List (Ident × ℚ)) (p : Ident) : ℚ :=
  ((adjustments.filter fun a => decide (a.1 = p)).map fun a => (a.2 - truncate a.2 : ℚ)).sum

theorem adjusted_eq (adjustments : List (Ident × ℚ)) (p : Ident) :
    adjusted adjustments p = adjustedPieces adjustments p + cutOff adjustments p := by
  unfold adjusted adjustedPieces cutOff tally
  induction adjustments.filter fun a => decide (a.1 = p) with
  | nil => simp
  | cons a as ih =>
    simp only [List.map_cons, List.sum_cons, ih]
    push_cast
    ring

/-- Nothing is cut off from whole numbers. -/
theorem cutOff_eq_zero {adjustments : List (Ident × ℚ)} {p : Ident}
    (h : ∀ a ∈ adjustments, a.1 = p → (truncate a.2 : ℚ) = a.2) : cutOff adjustments p = 0 := by
  unfold cutOff
  apply List.sum_eq_zero
  intro x hx
  obtain ⟨a, ha, rfl⟩ := List.mem_map.mp hx
  obtain ⟨hmem, hp⟩ := List.mem_filter.mp ha
  rw [h a hmem (of_decide_eq_true hp), sub_self]

/-- The movements that no transaction is named for. -/
def Db.byHand (db : Db) (p : Ident) : ℤ := Ledger.movedByHand db.ledger.moves p

/-- Movements that all name a transaction leave the others as they are. -/
theorem Entered.byHand_eq {ds : List DetailTransaction} {hs : List StockHistory}
    (h : Entered db db' ds hs) (hhs : ∀ r ∈ hs, r.idTransaction ≠ none) (p : Ident) :
    db'.byHand p = db.byHand p := by
  have hnew : Ledger.movedByHand (hs.map (·.move)) p = 0 := by
    apply Tally.tally_eq_zero
    intro m hm
    obtain ⟨r, hr, rfl⟩ := List.mem_map.mp hm
    rw [Bool.and_eq_false_iff]
    exact Or.inr (decide_eq_false (hhs r hr))
  show Ledger.movedByHand (db'.stockHistories.map (·.move)) p = _
  rw [h.histories, List.map_append, Ledger.movedByHand_append, hnew, add_zero]
  rfl

/-- A call moves by hand the whole pieces of the adjustment that it accepts. -/
theorem byHand_exec (db : Db) (op : Op) (p : Ident) :
    (KPos.exec db op).byHand p = db.byHand p + adjustedPieces (adjustmentsOf db op) p := by
  have heffect := exec_effect db op
  generalize KPos.exec db op = db' at heffect
  -- only a manual adjustment enters anything
  have hnone : db'.byHand p = db.byHand p → adjustmentsOf db op = [] →
      db'.byHand p = db.byHand p + adjustedPieces (adjustmentsOf db op) p := by
    intro h h0
    rw [h, h0]
    exact (add_zero _).symm
  cases heffect with
  | alone same hadj _ =>
    exact hnone (same.entered.byHand_eq (fun _ h => nomatch h) p) hadj
  | @adjusted user productId dto now _ product own moved accepted =>
    have hid : product.idProduct = productId := by
      have := List.find?_some own
      simp only [decide_eq_true_eq] at this
      exact this.1
    rw [accepted]
    show Ledger.movedByHand (db'.stockHistories.map (·.move)) p = _
    rw [moved.histories, List.map_append, Ledger.movedByHand_append]
    congr 1
    show tally _ _ [(⟨none, product.idProduct, truncate dto.quantity⟩ :
      LedgerMove Ident Ident)] = tally _ _ _
    rw [Tally.tally_singleton, Tally.tally_singleton, hid]
    simp
  | synced d t sale rest =>
    have hsale := sale.entered.byHand_eq (p := p) (by
      split
      · exact fun _ h => nomatch h
      · exact fun r hr => by rw [saleHistories_named r hr]; exact Option.some_ne_none _)
    exact hnone ((rest.entered.byHand_eq (fun _ h => nomatch h) p).trans hsale) rfl
  | voided t read => exact hnone rfl rfl
  | confirmed t read forced =>
    refine hnone (forced.entered.byHand_eq (fun r hr => ?_) p) rfl
    rw [forcedHistories_named r hr]
    exact Option.some_ne_none _
  | conflictVoided t read => exact hnone rfl rfl
  | corrected t read written =>
    refine hnone (written.entered.byHand_eq (fun r hr => ?_) p) rfl
    rcases correctionHistories_named r hr with h | h <;> rw [h] <;> exact Option.some_ne_none _
  | invalidated r found live rest entered =>
    exact hnone (rest.entered.byHand_eq (fun _ h => nomatch h) p) rfl

/-- The books are in order after any calls, and what was moved by hand are the whole pieces of
what was adjusted. -/
theorem booked_after (us : Table User) (ops : List Op) :
    Booked (Books.after us ops).db (Books.after us ops).writtenOff ∧
      ∀ p, (Books.after us ops).db.byHand p
        = adjustedPieces (Books.after us ops).adjustments p := by
  refine List.foldlRecOn (motive := fun b : Books => Booked b.db b.writtenOff ∧
    ∀ p, b.db.byHand p = adjustedPieces b.adjustments p) ops Books.step
    ⟨booked_withUsers us, fun _ => rfl⟩ ?_
  rintro b ⟨hb, hhand⟩ op -
  refine ⟨hb.exec op, fun p => ?_⟩
  show (KPos.exec b.db op).byHand p = adjustedPieces (b.adjustments ++ adjustmentsOf b.db op) p
  rw [byHand_exec, hhand p]
  exact (Tally.tally_append _ _).symm

/-- The books of a reachable state are in order. -/
theorem Reachable.booked {us : Table User} (h : Reachable us db) : ∃ off, Booked db off := by
  refine h.invariant_total (fun db => ∃ off, Booked db off) ⟨[], booked_withUsers us⟩ ?_
  rintro db₁ op ⟨off, hb⟩
  exact ⟨_, hb.exec op⟩

/-- Whether the sale of a transaction has its stock taken out: it is CONFIRMED, or it was
voided out of CONFIRMED because its payment was invalid. -/
def Books.counts (b : Books) (t : Transaction) : Bool :=
  decide (t.status = .CONFIRMED) || decide (t.idTransaction ∈ b.writtenOff)

/-- The counting transactions are the posted ones. -/
theorem posted_eq_counts {b : Books} {t : Transaction} (ht : t ∈ b.db.transactions.rows) :
    b.db.posted b.writtenOff t.idTransaction = b.counts t := by
  unfold Db.posted Books.counts
  rw [statusOf_of_mem ht]
  simp only [Option.some.injEq]

/-- What the counting transactions sold of a product. -/
def Books.soldOut (b : Books) (p : Ident) : ℤ :=
  ((b.db.transactions.rows.filter b.counts).map fun t => b.db.sold t.idTransaction p).sum

/-- The stock is the whole pieces adjusted by hand less what was sold. -/
theorem stock_after (us : Table User) (ops : List Op) (p : Ident) :
    (Books.after us ops).db.stock p
      = adjustedPieces (Books.after us ops).adjustments p - (Books.after us ops).soldOut p := by
  obtain ⟨hb, hhand⟩ := booked_after us ops
  generalize Books.after us ops = b at hb hhand
  -- the posted documents are the counting transactions
  have hsold : (b.db.ledger.docs.filter (b.db.posted b.writtenOff)).map
        (fun k => Ledger.listedBy b.db.ledger.lines k p)
      = (b.db.transactions.rows.filter b.counts).map fun t => b.db.sold t.idTransaction p := by
    show ((b.db.transactions.rows.map (·.idTransaction)).filter _).map _ = _
    rw [List.filter_map, List.map_map]
    unfold Function.comp
    rw [List.filter_congr fun t ht => posted_eq_counts ht]
    apply List.map_congr_left
    intro t _
    exact listedBy_ledger b.db t.idTransaction p
  calc b.db.stock p = Ledger.movedAll b.db.ledger.moves p := by
        rw [hb.stock p, movedAll_ledger]
    _ = b.db.byHand p - _ := hb.balanced.balance_eq p
    _ = _ := by rw [hhand p, hsold, Books.soldOut]

/-- **Stock accounts for the sales** after any calls exactly when no decimals are lost from the
adjustments that they accept; the movements of each transaction always net to what it sold if it
counts, and to nothing if it does not. -/
theorem stock_accounts_iff (us : Table User) (ops : List Op) (p : Ident) :
    let b := Books.after us ops
    ((b.db.stock p : ℚ) = adjusted b.adjustments p - b.soldOut p
        ↔ cutOff b.adjustments p = 0) ∧
      ((∀ a ∈ b.adjustments, a.1 = p → (truncate a.2 : ℚ) = a.2) →
        (b.db.stock p : ℚ) = adjusted b.adjustments p - b.soldOut p) ∧
      ∀ t ∈ b.db.transactions.rows, b.db.net t.idTransaction p
        = if b.counts t then -b.db.sold t.idTransaction p else 0 := by
  intro b
  have hiff : (b.db.stock p : ℚ) = adjusted b.adjustments p - b.soldOut p
      ↔ cutOff b.adjustments p = 0 := by
    have hstock : b.db.stock p = adjustedPieces b.adjustments p - b.soldOut p :=
      stock_after us ops p
    rw [hstock, adjusted_eq]
    push_cast
    constructor <;> intro h <;> linarith
  refine ⟨hiff, fun hwhole => hiff.mpr (cutOff_eq_zero hwhole), fun t ht => ?_⟩
  have hb : Booked b.db b.writtenOff := (booked_after us ops).1
  rw [← movedBy_ledger, ← listedBy_ledger, hb.balanced.moved, posted_eq_counts ht]

/-- The stock accounts for a sale of three pieces of ten. -/
theorem stock_accounts_shop :
    (((Books.after systemUsers (shopOpening ++ [shopSync "a" [3]])).db.stock shopProduct : ℤ) : ℚ)
      = adjusted (Books.after systemUsers (shopOpening ++ [shopSync "a" [3]])).adjustments
          shopProduct
        - (Books.after systemUsers (shopOpening ++ [shopSync "a" [3]])).soldOut shopProduct :=
  (stock_accounts_iff systemUsers (shopOpening ++ [shopSync "a" [3]]) shopProduct).2.1
    (by decide +kernel)

/-- **Stock does not account for every adjustment**: one and a half pieces raise it by one. -/
theorem stock_not_accounted : ¬ ∀ (us : Table User) (ops : List Op) (p : Ident),
    ((Books.after us ops).db.stock p : ℚ)
      = adjusted (Books.after us ops).adjustments p - (Books.after us ops).soldOut p := by
  intro h
  have hwrong := h systemUsers
    (shopOpening ++ [.adjustStock shopOwner shopProduct ⟨3 / 2, none⟩ 1]) shopProduct
  revert hwrong
  decide +kernel

end KPos
