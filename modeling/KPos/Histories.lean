/-
# The history of a correction (`transactions.service.ts`)

`getTransactionHistory` goes back from correction to correction to the first transaction and
then forward to the last one.  Neither loop has a bound of its own: that they end, and see the
whole line, rests on what all calls together make of the corrections.

* `Transactions.getTransactionHistory` : the service, each loop with a bound on its rounds;
* `Bridges` : a correction leads from an older transaction to a newer one of the same merchant;
* `Db.succession` : so the corrections are lines of succession;
* `WholeHistory` : what a history should be;
* `exists_lineFrom` : every transaction is on a line, which the loops walk to its ends;
* `history_complete` : what `getTransactionHistory` finds, in every reachable state.
-/
import KPos.Lib.Lineage
import KPos.DeadLetters
import KPos.Openings
import KPos.Tenants

namespace KPos

/-! ## The service -/

/-- The `correction_metadata` of an entry. -/
structure CorrectionMetadata where
  reason : String
  correctedAt : DateTime
  correctedBy : Ident

/-- An entry of a history. -/
structure HistoryEntry where
  transaction : FoundTransaction
  correctionMetadata : Option CorrectionMetadata

/-- What an entry says of the correction of its transaction. -/
def TransactionCorrection.metadata (c : TransactionCorrection) : CorrectionMetadata where
  reason := c.reason
  correctedAt := c.createdAt
  correctedBy := c.correctedBy

/-- The correction that led to a transaction. -/
def Db.correctionTo (db : Db) (newId : Ident) : Option TransactionCorrection :=
  db.corrections.rows.find? fun c => decide (c.idNewTransaction = newId)

/-- The correction of a transaction. -/
def Db.correctionOf (db : Db) (oldId : Ident) : Option TransactionCorrection :=
  db.corrections.rows.find? fun c => decide (c.idOldTransaction = oldId)

/-- The first loop: `rootId` goes back from correction to correction. -/
def findRoot (db : Db) : ℕ → Ident → Option Ident
  | 0, _ => none
  | fuel + 1, rootId =>
    match db.correctionTo rootId with
    | none => some rootId
    | some prev => findRoot db fuel prev.idOldTransaction

/-- The entry of a transaction. -/
def Db.historyEntry (db : Db) (t : Transaction) : HistoryEntry where
  transaction := ⟨t, db.detailsOf t.idTransaction,
    db.payments.findUnique (.transaction t.idTransaction)⟩
  correctionMetadata := (db.correctionOf t.idTransaction).map (·.metadata)

/-- The second loop: `currentId` goes forward until there is no correction. -/
def collectHistory (db : Db) : ℕ → Option Ident → Option (List HistoryEntry)
  | 0, _ => none
  | fuel + 1, currentId =>
    match currentId.filter Ident.truthy with
    | none => some []
    | some id =>
      match db.transactions.findUnique (.id id) with
      | none => some []
      | some t =>
        let nextCorrection := db.correctionOf id
        (collectHistory db fuel (nextCorrection.map (·.idNewTransaction))).map
          (⟨⟨t, db.detailsOf t.idTransaction,
              db.payments.findUnique (.transaction t.idTransaction)⟩,
            nextCorrection.map (·.metadata)⟩ :: ·)

/-- `getTransactionHistory`, with at most `fuel` rounds of each loop; the result is `none` when
they are not enough. -/
def Transactions.getTransactionHistory (db : Db) (user : JwtPayload) (id : Ident) (fuel : ℕ) :
    Except Err (Option (List HistoryEntry)) := do
  let initialTx ← Transactions.findOne db user id
  return (findRoot db fuel initialTx.row.idTransaction).bind fun rootId =>
    collectHistory db fuel (some rootId)

/-! ## What the corrections link -/

/-- The number of a generated identifier. -/
def Ident.number : Ident → ℕ
  | .cuid n => n
  | .text _ => 0

/-- A correction leads from an older transaction to a newer one of the same merchant. -/
def Bridges (db : Db) : Prop :=
  ∀ c ∈ db.corrections.rows, db.Old c.idOldTransaction ∧ db.Old c.idNewTransaction ∧
    c.idOldTransaction.number < c.idNewTransaction.number ∧
    ∃ m, db.transactionMerchant c.idOldTransaction = some m ∧
      db.transactionMerchant c.idNewTransaction = some m

section Bridges

variable {db db' : Db}

theorem bridges_withUsers (us : Table User) : Bridges (Db.withUsers us) :=
  fun _ hc => nomatch hc

/-- Corrections that are there still lead to newer transactions after a call. -/
theorem Bridges.grows (hdb : Bridges db) (hgrows : Grows db db') {c : TransactionCorrection}
    (hc : c ∈ db.corrections.rows) : db'.Old c.idOldTransaction ∧ db'.Old c.idNewTransaction ∧
      c.idOldTransaction.number < c.idNewTransaction.number ∧
      ∃ m, db'.transactionMerchant c.idOldTransaction = some m ∧
        db'.transactionMerchant c.idNewTransaction = some m := by
  obtain ⟨hold, hnew, hlt, m, hm, hm'⟩ := hdb c hc
  exact ⟨hold.mono hgrows.seq, hnew.mono hgrows.seq, hlt, m, hgrows.sellers _ m hm,
    hgrows.sellers _ m hm'⟩

/-- **A call keeps it.** -/
theorem Bridges.exec (hdb : Bridges db) (hwired : Wired db) (op : Op) : Bridges (exec db op) := by
  have hwired' := hwired.exec op
  have hgrows := exec_grows db op
  have hcorrections := (exec_settles db op).corrections_cases
  generalize KPos.exec db op = db' at hwired' hgrows hcorrections
  intro c hc
  rcases hcorrections with hsame | ⟨_, _, _, _, t, read, write⟩
  · rw [hsame] at hc
    exact hdb.grows hgrows hc
  · have hwritten := correctTransactionWrite_corrected write
    obtain ⟨hcur, -, -⟩ := correctTransactionRead_eq_ok read
    obtain ⟨ts, hins, hts⟩ := hwritten.transactions
    obtain ⟨row, hold, hnew, hcs⟩ := hwritten.corrections
    rcases (Table.mem_insert hcs).mp hc with hc | rfl
    · exact hdb.grows hgrows hc
    · -- the new transaction gets the next identifier, the merchant of the old one
      obtain ⟨m, hm, hid⟩ := (hwired.transactions t.row hcur.row).1
      have hmerchant : db'.transactionMerchant db.newId = some t.row.idMerchant := by
        unfold Db.transactionMerchant
        rw [hts]
        exact Table.map_findUnique_update (fun _ => rfl) (merchant_insert hins)
      obtain ⟨s, hs, hsid, -⟩ := transactionMerchant_eq_some.mp hmerchant
      have hseller : db.transactionMerchant t.row.idTransaction = some t.row.idMerchant :=
        transactionMerchant_eq_some.mpr ⟨t.row, hcur.row, rfl, rfl⟩
      rw [hold, hnew]
      refine ⟨(hwired.transactions t.row hcur.row).1.mono hgrows.seq, ?_, ?_, t.row.idMerchant,
        hgrows.sellers _ _ hseller, hmerchant⟩
      · rw [← hsid]
        exact (hwired'.transactions s hs).1
      · rw [hid]
        exact hm

/-- Nothing is corrected twice. -/
def Once (db : Db) : Prop := (db.corrections.rows.map (·.idOldTransaction)).Nodup

/-- A search by a key that no two rows share. -/
theorem find?_key_eq_some {R : Type} {rows : List R} {key : R → Ident}
    (hkey : ∀ r ∈ rows, ∀ s ∈ rows, key r = key s → r = s) {i : Ident} {r : R} :
    rows.find? (fun r => decide (key r = i)) = some r ↔ r ∈ rows ∧ key r = i := by
  constructor
  · intro h
    exact ⟨List.mem_of_find?_eq_some h, by simpa using List.find?_some h⟩
  · rintro ⟨hr, rfl⟩
    cases hfind : rows.find? fun s => decide (key s = key r) with
    | none =>
      have := List.find?_eq_none.mp hfind r hr
      simp at this
    | some s =>
      have hsr : key s = key r := by simpa using List.find?_some hfind
      rw [hkey s (List.mem_of_find?_eq_some hfind) r hr hsr]

theorem correctionOf_eq_some (honce : Once db) {i : Ident} {c : TransactionCorrection} :
    db.correctionOf i = some c ↔ c ∈ db.corrections.rows ∧ c.idOldTransaction = i :=
  find?_key_eq_some fun _ hc _ hd h => List.inj_on_of_nodup_map honce hc hd h

theorem correctionTo_eq_some {i : Ident} {c : TransactionCorrection} :
    db.correctionTo i = some c ↔ c ∈ db.corrections.rows ∧ c.idNewTransaction = i := by
  have hkey : ∀ b : TransactionCorrection,
      CorrectionKey.newTransaction b.idNewTransaction ∈ UniqueKeys.keys b := by
    intro b
    simp [UniqueKeys.keys]
  refine find?_key_eq_some fun b hb d hd (h : b.idNewTransaction = d.idNewTransaction) => ?_
  have hd' := hkey d
  rw [← h] at hd'
  exact Table.eq_of_key hb hd (hkey b) hd'

/-- **The corrections are lines of succession**, with the numbers of the transactions as ranks. -/
def Db.succession (db : Db) (hdb : Bridges db) (honce : Once db) : Lineage.Succession Ident where
  next i := (db.correctionOf i).map (·.idNewTransaction)
  prev i := (db.correctionTo i).map (·.idOldTransaction)
  inverse i j := by
    simp only [Option.map_eq_some_iff, correctionOf_eq_some honce, correctionTo_eq_some]
    constructor
    · rintro ⟨c, ⟨hc, rfl⟩, rfl⟩
      exact ⟨c, ⟨hc, rfl⟩, rfl⟩
    · rintro ⟨c, ⟨hc, rfl⟩, rfl⟩
      exact ⟨c, ⟨hc, rfl⟩, rfl⟩
  rank := Ident.number
  bound := db.seq
  rank_lt i j h := by
    obtain ⟨c, hc, rfl⟩ := Option.map_eq_some_iff.mp h
    obtain ⟨hmem, rfl⟩ := (correctionOf_eq_some honce).mp hc
    obtain ⟨-, ⟨n, hn, hid⟩, hlt, -⟩ := hdb c hmem
    refine ⟨hlt, ?_⟩
    rw [hid]
    exact hn

theorem succession_next (hdb : Bridges db) (honce : Once db) (i : Ident) :
    (db.succession hdb honce).next i = (db.correctionOf i).map (·.idNewTransaction) := rfl

theorem succession_prev (hdb : Bridges db) (honce : Once db) (i : Ident) :
    (db.succession hdb honce).prev i = (db.correctionTo i).map (·.idOldTransaction) := rfl

/-- The first loop is the walk back. -/
theorem findRoot_eq (hdb : Bridges db) (honce : Once db) (fuel : ℕ) :
    ∀ i, findRoot db fuel i = Lineage.root (db.succession hdb honce).prev fuel i := by
  induction fuel with
  | zero => exact fun _ => rfl
  | succ fuel ih =>
    intro i
    unfold findRoot Lineage.root
    rw [succession_prev]
    cases db.correctionTo i with
    | none => rfl
    | some c => exact ih c.idOldTransaction

/-- A round of the second loop. -/
theorem collectHistory_succ (hwired : Wired db) {t : Transaction}
    (ht : t ∈ db.transactions.rows) (fuel : ℕ) :
    collectHistory db (fuel + 1) (some t.idTransaction) = (collectHistory db fuel
      ((db.correctionOf t.idTransaction).map (·.idNewTransaction))).map
        (db.historyEntry t :: ·) := by
  have htruthy : (some t.idTransaction).filter Ident.truthy = some t.idTransaction :=
    if_pos (hwired.transactions t ht).1.truthy
  have hrow : db.transactions.findUnique (.id t.idTransaction) = some t :=
    Table.findUnique_eq_some.mpr ⟨ht, id_mem_keys.mpr rfl⟩
  rw [collectHistory, htruthy]
  dsimp only
  rw [hrow]
  rfl

/-- The second loop takes the entries of the walk on, when each transaction on it is there. -/
theorem collectHistory_eq (hdb : Bridges db) (honce : Once db) (hwired : Wired db) (fuel : ℕ) :
    ∀ i l, Lineage.line (db.succession hdb honce).next fuel i = some l →
      (∀ j ∈ l, ∃ t ∈ db.transactions.rows, t.idTransaction = j) →
      ∃ ts : List Transaction, ts.map (·.idTransaction) = l ∧ (∀ t ∈ ts, t ∈ db.transactions.rows) ∧
        ∀ more, fuel < more → collectHistory db more (some i) = some (ts.map db.historyEntry) := by
  induction fuel with
  | zero =>
    intro i l hline
    cases hline
  | succ fuel ih =>
    intro i l hline hfound
    unfold Lineage.line at hline
    cases hnext : db.correctionOf i with
    | none =>
      rw [succession_next, hnext] at hline
      obtain rfl := Option.some.inj hline
      obtain ⟨t, ht, rfl⟩ := hfound i List.mem_cons_self
      refine ⟨[t], rfl, fun s hs => ?_, fun more hmore => ?_⟩
      · rw [List.mem_singleton.mp hs]
        exact ht
      · obtain ⟨n, rfl⟩ : ∃ n, more = n + 2 := ⟨more - 2, by omega⟩
        rw [collectHistory_succ hwired ht, hnext]
        rfl
    | some c =>
      rw [succession_next, hnext] at hline
      obtain ⟨l', hline', rfl⟩ := Option.map_eq_some_iff.mp hline
      obtain ⟨t, ht, rfl⟩ := hfound i List.mem_cons_self
      obtain ⟨ts, hids, hrows, hcollect⟩ := ih c.idNewTransaction l' hline'
        fun j hj => hfound j (List.mem_cons_of_mem _ hj)
      refine ⟨t :: ts, by rw [List.map_cons, hids], fun s hs => ?_, fun more hmore => ?_⟩
      · rcases List.mem_cons.mp hs with rfl | hs
        · exact ht
        · exact hrows s hs
      · obtain ⟨n, rfl⟩ : ∃ n, more = n + 1 := ⟨more - 1, by omega⟩
        rw [collectHistory_succ hwired ht, hnext]
        show (collectHistory db n (some c.idNewTransaction)).map _ = _
        rw [hcollect n (by omega)]
        rfl

/-- A line of succession stays with one merchant. -/
theorem leads_merchant (hdb : Bridges db) (honce : Once db) {i j : Ident}
    (h : (db.succession hdb honce).Leads i j) :
    db.transactionMerchant i = db.transactionMerchant j := by
  induction h with
  | refl => rfl
  | tail _ hnext ih =>
    rw [succession_next] at hnext
    obtain ⟨c, hc, rfl⟩ := Option.map_eq_some_iff.mp hnext
    obtain ⟨hmem, rfl⟩ := (correctionOf_eq_some honce).mp hc
    obtain ⟨-, -, -, m, hold, hnew⟩ := hdb c hmem
    rw [ih, hold, hnew]

end Bridges

/-! ## What a history should be -/

/-- A history is the whole line of corrections of `t`: it holds `t`, no transaction twice, and
begins with one that replaces none; each entry carries the correction that leads to the next
one; all but the last are VOIDED, and the last one was not corrected. -/
structure WholeHistory (db : Db) (t : Transaction) (history : List HistoryEntry) : Prop where
  stored : ∀ e ∈ history, e.transaction.CurrentIn db
  holds : ∃ e ∈ history, e.transaction.row = t
  distinct : (history.map (·.transaction.row.idTransaction)).Nodup
  first : ∀ e, history.head? = some e → ∀ c ∈ db.corrections.rows,
    c.idNewTransaction ≠ e.transaction.row.idTransaction
  linked : history.IsChain fun e f => ∃ c ∈ db.corrections.rows,
    c.idOldTransaction = e.transaction.row.idTransaction ∧
      c.idNewTransaction = f.transaction.row.idTransaction ∧ e.correctionMetadata = some c.metadata
  voided : ∀ e ∈ history.dropLast, e.transaction.row.status = .VOIDED
  last : ∀ e, history.getLast? = some e → e.correctionMetadata = none ∧
    ∀ c ∈ db.corrections.rows, c.idOldTransaction ≠ e.transaction.row.idTransaction

/-- Both loops of `getTransactionHistory` end, and this is the result. -/
def HistoryIs (db : Db) (user : JwtPayload) (x : Ident) (history : List HistoryEntry) : Prop :=
  ∃ rounds, ∀ fuel, rounds ≤ fuel →
    Transactions.getTransactionHistory db user x fuel = .ok (some history)

section History

variable {db : Db} {user : JwtPayload} {t u : Transaction} {ts : List Transaction} {r x : Ident}
  {hdb : Bridges db} {honce : Once db}

/-- The transactions of a whole line of corrections from its root on, as the second loop
collects them. -/
structure LineFrom (db : Db) (hdb : Bridges db) (honce : Once db) (r : Ident)
    (ts : List Transaction) : Prop where
  head : (ts.map (·.idTransaction)).head? = some r
  rows : ∀ t ∈ ts, t ∈ db.transactions.rows
  root : (db.succession hdb honce).prev r = none
  leads : ∀ t ∈ ts, (db.succession hdb honce).Leads r t.idTransaction
  chain : (ts.map (·.idTransaction)).IsChain fun a b => (db.succession hdb honce).next a = some b
  last : ∀ z, (ts.map (·.idTransaction)).getLast? = some z →
    (db.succession hdb honce).next z = none
  collected : ∃ rounds, ∀ fuel, rounds ≤ fuel →
    collectHistory db fuel (some r) = some (ts.map db.historyEntry)

/-- **Every transaction is on a line.** -/
theorem exists_lineFrom (hdb : Bridges db) (honce : Once db) (hwired : Wired db)
    (ht : t ∈ db.transactions.rows) : ∃ r ts, LineFrom db hdb honce r ts ∧ t ∈ ts := by
  let s := db.succession hdb honce
  obtain ⟨r, -, hroot, hleads⟩ := s.exists_root (s.rank t.idTransaction + 1) t.idTransaction
    (Nat.lt_succ_self _)
  obtain ⟨l, hline, hchain, hlast, hmem⟩ := s.exists_line (s.bound - s.rank r + 1) r
    (Nat.lt_succ_self _)
  -- what is on the line has a merchant, so it is there
  have hseller : db.transactionMerchant t.idTransaction = some t.idMerchant :=
    transactionMerchant_eq_some.mpr ⟨t, ht, rfl, rfl⟩
  have hthere : ∀ j ∈ r :: l, ∃ u ∈ db.transactions.rows, u.idTransaction = j := by
    intro j hj
    have hsame := leads_merchant hdb honce ((hmem j).mp hj)
    rw [leads_merchant hdb honce hleads, hseller] at hsame
    obtain ⟨u, hu, hid, -⟩ := transactionMerchant_eq_some.mp hsame.symm
    exact ⟨u, hu, hid⟩
  obtain ⟨ts, hids, hrows, hcollect⟩ := collectHistory_eq hdb honce hwired _ r _ hline hthere
  refine ⟨r, ts, ⟨by rw [hids]; rfl, hrows, hroot, fun u hu => ?_, hids ▸ hchain, hids ▸ hlast,
    ⟨_, fun fuel hfuel => hcollect fuel (Nat.lt_of_succ_le hfuel)⟩⟩, ?_⟩
  · exact (hmem _).mp (hids ▸ List.mem_map_of_mem hu)
  · have htid : t.idTransaction ∈ ts.map (·.idTransaction) := hids ▸ (hmem _).mpr hleads
    obtain ⟨u, hu, hid⟩ := List.mem_map.mp htid
    rw [← row_unique (hrows u hu) ht hid]
    exact hu

/-- A line is of one merchant. -/
theorem LineFrom.merchant (h : LineFrom db hdb honce r ts) (ht : t ∈ ts) (hu : u ∈ ts) :
    t.idMerchant = u.idMerchant := by
  have hseller : ∀ t ∈ ts, db.transactionMerchant r = some t.idMerchant := by
    intro t ht
    rw [leads_merchant hdb honce (h.leads t ht)]
    exact transactionMerchant_eq_some.mpr ⟨t, h.rows t ht, rfl, rfl⟩
  exact Option.some.inj ((hseller t ht).symm.trans (hseller u hu))

/-- The entries of a line are a whole history. -/
theorem LineFrom.wholeHistory (h : LineFrom db hdb honce r ts)
    (hclosed : ∀ c ∈ db.corrections.rows, ClosedIn db.transactions c.idOldTransaction)
    (ht : t ∈ ts) : WholeHistory db t (ts.map db.historyEntry) where
  stored := by
    rw [List.forall_mem_map]
    exact fun s hs => ⟨h.rows s hs, rfl, rfl⟩
  holds := ⟨db.historyEntry t, List.mem_map_of_mem ht, rfl⟩
  distinct := by
    rw [List.map_map]
    exact (db.succession hdb honce).nodup_line h.chain
  first := by
    intro e he c hc hnew
    have hfirst : e.transaction.row.idTransaction = r := by
      rw [List.head?_map] at he
      obtain ⟨s, hs, rfl⟩ := Option.map_eq_some_iff.mp he
      have hhead := h.head
      rw [List.head?_map, hs] at hhead
      exact Option.some.inj hhead
    have hroot := h.root
    rw [succession_prev, (correctionTo_eq_some).mpr ⟨hc, hnew.trans hfirst⟩] at hroot
    cases hroot
  linked := by
    have hchain := h.chain
    rw [List.isChain_map] at hchain ⊢
    refine hchain.imp fun s u hsu => ?_
    rw [succession_next] at hsu
    obtain ⟨c, hc, hnew⟩ := Option.map_eq_some_iff.mp hsu
    obtain ⟨hmem, hold⟩ := (correctionOf_eq_some honce).mp hc
    refine ⟨c, hmem, hold, hnew, ?_⟩
    show (db.correctionOf s.idTransaction).map _ = _
    rw [hc]
    rfl
  voided := by
    intro e he
    rw [← List.map_dropLast] at he
    obtain ⟨s, hs, rfl⟩ := List.mem_map.mp he
    have hs' : s.idTransaction ∈ (ts.map (·.idTransaction)).dropLast := by
      rw [← List.map_dropLast]
      exact List.mem_map_of_mem hs
    obtain ⟨b, hb⟩ := (db.succession hdb honce).exists_next h.chain hs'
    rw [succession_next] at hb
    obtain ⟨c, hc, -⟩ := Option.map_eq_some_iff.mp hb
    obtain ⟨hmem, hold⟩ := (correctionOf_eq_some honce).mp hc
    -- what was corrected is closed
    obtain ⟨u, hu, huid, hvoided⟩ := hclosed c hmem
    rw [hold] at huid
    rw [row_unique hu (h.rows s (List.dropLast_subset _ hs)) huid] at hvoided
    exact hvoided.1
  last := by
    intro e he
    rw [List.getLast?_map] at he
    obtain ⟨s, hs, rfl⟩ := Option.map_eq_some_iff.mp he
    have hnone := h.last s.idTransaction (by rw [List.getLast?_map, hs]; rfl)
    rw [succession_next, Option.map_eq_none_iff] at hnone
    refine ⟨?_, fun c hc hold => ?_⟩
    · show (db.correctionOf s.idTransaction).map _ = none
      rw [hnone]
      rfl
    · have hsome := (correctionOf_eq_some honce).mpr ⟨hc, hold⟩
      exact absurd (hnone.symm.trans hsome) nofun

/-- The user's own transaction is found under either of its names. -/
theorem findOne_named (haddr : Addressed db) (hwired : Wired db) (ht : t ∈ db.transactions.rows)
    (hm : t.idMerchant = user.idMerchant) (hx : t.idTransaction = x ∨ t.offlineUuid = some x) :
    Transactions.findOne db user x = .ok ⟨t, db.detailsOf t.idTransaction,
      db.payments.findUnique (.transaction t.idTransaction)⟩ := by
  unfold Transactions.findOne
  rw [findTransaction_eq haddr hwired ht hx]
  simp [orThrow, require, hm]

/-- The history of every transaction on a line is the one of the line. -/
theorem LineFrom.historyIs (h : LineFrom db hdb honce r ts) (haddr : Addressed db)
    (hwired : Wired db) (ht : t ∈ ts) (hm : t.idMerchant = user.idMerchant)
    (hx : t.idTransaction = x ∨ t.offlineUuid = some x) :
    HistoryIs db user x (ts.map db.historyEntry) := by
  obtain ⟨rounds, hcollected⟩ := h.collected
  -- enough for the way back, and enough for the way on
  let s := db.succession hdb honce
  refine ⟨s.rank t.idTransaction + 1 + rounds, fun fuel hfuel => ?_⟩
  have hroot : findRoot db fuel t.idTransaction = some r := by
    rw [findRoot_eq hdb honce]
    exact s.root_eq h.root (h.leads t ht) fuel (by omega)
  unfold Transactions.getTransactionHistory
  rw [findOne_named haddr hwired (h.rows t ht) hm hx]
  show Except.ok ((findRoot db fuel t.idTransaction).bind _) = _
  rw [hroot]
  exact congrArg Except.ok (hcollected fuel (by omega))

/-- **The history is complete, and both loops end**: in every state that items from the
validation pipe lead to, the history of a transaction of the user's merchant is its whole line
of corrections, and the history of every transaction on it is the same. -/
theorem history_complete {us : Table User} {ops : List Op}
    (h : Runs.Run next validated (Db.withUsers us) ops db) (ht : t ∈ db.transactions.rows)
    (hm : t.idMerchant = user.idMerchant) (hx : t.idTransaction = x ∨ t.offlineUuid = some x) :
    ∃ history, HistoryIs db user x history ∧ WholeHistory db t history ∧
      ∀ e ∈ history, ∀ y, (e.transaction.row.idTransaction = y ∨
        e.transaction.row.offlineUuid = some y) → HistoryIs db user y history := by
  obtain ⟨hwired, haddr, hdb⟩ : Wired db ∧ Addressed db ∧ Bridges db := by
    refine h.invariant_total (fun db => Wired db ∧ Addressed db ∧ Bridges db)
      ⟨wired_withUsers us, addressed_withUsers us, bridges_withUsers us⟩ fun db₁ op hdb hop => ?_
    exact ⟨hdb.1.exec op, hdb.2.1.exec hdb.1 hop, hdb.2.2.exec hdb.1 op⟩
  have hreach : Reachable us db := h.reaches
  obtain ⟨off, hbooked⟩ := hreach.booked
  have honce : Once db := hbooked.settled.once
  obtain ⟨r, ts, hline, hin⟩ := exists_lineFrom hdb honce hwired ht
  refine ⟨ts.map db.historyEntry, hline.historyIs haddr hwired hin hm hx,
    hline.wholeHistory hbooked.settled.corrected hin, ?_⟩
  rw [List.forall_mem_map]
  intro u hu y hy
  exact hline.historyIs haddr hwired hu ((hline.merchant hu hin).trans hm) hy

end History

/-- The sale of three pieces is corrected to two, and that to one. -/
def twoCorrections : List Op :=
  [.correctTransaction shopOwner (.cuid 5)
    ⟨"miscounted", [⟨shopProduct, 2, 2, 4, none⟩], 4, 4, none⟩ 2,
   .correctTransaction shopOwner (.cuid 7)
    ⟨"miscounted", [⟨shopProduct, 1, 2, 2, none⟩], 2, 2, none⟩ 3]

theorem run_twoCorrections : Runs.Run next validated (Db.withUsers systemUsers)
    ((shopOpening ++ [shopSync "a" [3]]) ++ twoCorrections) (after soldThree twoCorrections) :=
  run_soldThree.append ((Runs.Run.start.step trivial rfl).step trivial rfl)

/-- The sale and its two corrections. -/
theorem history_complete_twoCorrections :
    (after soldThree twoCorrections).corrections.rows.length = 2 ∧
    ∃ t ∈ (after soldThree twoCorrections).transactions.rows, ∃ history,
      HistoryIs (after soldThree twoCorrections) shopOwner (.text "a") history ∧
      WholeHistory (after soldThree twoCorrections) t history ∧
      ∀ e ∈ history, ∀ y, (e.transaction.row.idTransaction = y ∨
        e.transaction.row.offlineUuid = some y) →
          HistoryIs (after soldThree twoCorrections) shopOwner y history := by
  obtain ⟨t, ht, hm, hx⟩ : ∃ t ∈ (after soldThree twoCorrections).transactions.rows,
      t.idMerchant = shopOwner.idMerchant ∧ t.offlineUuid = some (.text "a") := by decide +kernel
  exact ⟨by decide +kernel, t, ht, history_complete run_twoCorrections ht hm (Or.inr hx)⟩

end KPos
