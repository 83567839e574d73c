/-
# Whether an invalid payment leaves the books (`reconciliations.service.ts`)

A case that is resolved as invalid fails its payment and voids the payment's transaction.  A
correction made before copies the payment, as it is then, to the transaction that replaces
the old one, and the resolution does not look there.

* `LeavesTheBooks` : what should hold of every case that was resolved as invalid;
* `discardsWhole` : the condition on a resolution, that no replacement is still in the books;
* `invalid_leaves_books` : under the condition it holds in every run;
* `invalid_stays_in_books` : without it, it does not.
-/
import KPos.Lib.Replacement
import KPos.Payments
import KPos.References

namespace KPos

open Relation

/-! ## Cases and replacements -/

/-- The transaction is CONFIRMED and its payment VERIFIED. -/
def Db.Live (db : Db) (i : Ident) : Prop :=
  (∃ t ∈ db.transactions.rows, t.idTransaction = i ∧ t.status = .CONFIRMED) ∧
    ∃ p ∈ db.payments.rows, p.idTransaction = i ∧ p.status = .VERIFIED

/-- A correction replaced the transaction `i` by `j`. -/
def Db.ReplacedBy (db : Db) (i j : Ident) : Prop :=
  ∃ c ∈ db.corrections.rows, c.idOldTransaction = i ∧ c.idNewTransaction = j

/-- The payment of the case is FAILED, and neither its transaction nor one that replaces it
through any number of corrections is in the books. -/
def LeavesTheBooks (db : Db) (r : Reconciliation) : Prop :=
  ∃ p ∈ db.payments.rows, p.idPayment = r.idPayment ∧ p.status = .FAILED ∧
    ∀ i, ReflTransGen db.ReplacedBy p.idTransaction i → ¬ db.Live i

/-- A case that is resolved as invalid has no replacement in the books. -/
def discardsWhole (db : Db) : Op → Prop
  | .resolveReconciliation id user dto _ =>
      dto.newStatus = .RESOLVED_INVALID → db.users.has (.id user.sub) = true →
        ∀ r, Reconciliations.resolveRead db id user = .ok r →
          ∀ i, TransGen db.ReplacedBy r.transaction.idTransaction i → ¬ db.Live i
  | _ => True

/-- The transactions as documents, discarded by invalid cases. -/
def Db.replacements (db : Db) : Replacements Ident where
  live := db.Live
  known i := db.transactions.has (.id i) = true
  replacedBy := db.ReplacedBy
  discarded i := ∃ r ∈ db.reconciliations.rows, r.status = .RESOLVED_INVALID ∧
    ∃ p ∈ db.payments.rows, p.idPayment = r.idPayment ∧ p.idTransaction = i

/-- No invalid payment is in the books, and what could bring one back is excluded: a
replacement has no conflict to resolve. -/
structure Accounted (db : Db) : Prop where
  clean : db.replacements.Clean
  failed : ∀ r ∈ db.reconciliations.rows, r.status = .RESOLVED_INVALID →
    ∃ p ∈ db.payments.rows, p.idPayment = r.idPayment ∧ p.status = .FAILED
  synced : ∀ i j, db.ReplacedBy i j → ∀ t ∈ db.transactions.rows, t.idTransaction = j →
    t.syncStatus ≠ .SYNC_CONFLICT

@[simp] theorem payment_id_mem_keys {p : Payment} {i : Ident} :
    PaymentKey.id i ∈ UniqueKeys.keys p ↔ p.idPayment = i := by
  simp [UniqueKeys.keys, eq_comm]

@[simp] theorem payment_transaction_mem_keys {p : Payment} {i : Ident} :
    PaymentKey.transaction i ∈ UniqueKeys.keys p ↔ p.idTransaction = i := by
  simp [UniqueKeys.keys, eq_comm]

@[simp] theorem reconciliation_id_mem_keys {r : Reconciliation} {i : Ident} :
    ReconciliationKey.id i ∈ UniqueKeys.keys r ↔ r.idReconciliation = i := by
  simp [UniqueKeys.keys, eq_comm]

theorem known_iff {db : Db} {i : Ident} :
    db.replacements.known i ↔ ∃ t ∈ db.transactions.rows, t.idTransaction = i := by
  show db.transactions.has (.id i) = true ↔ _
  simp only [Table.has_iff, id_mem_keys]

section Payments

variable {db : Db} {p q : Payment}

/-- Payments with one id are one payment. -/
theorem payment_unique (hp : p ∈ db.payments.rows) (hq : q ∈ db.payments.rows)
    (h : p.idPayment = q.idPayment) : p = q :=
  Table.eq_of_key hp hq (payment_id_mem_keys.mpr h) (payment_id_mem_keys.mpr rfl)

/-- Payments of one transaction are one payment. -/
theorem payment_unique_of_transaction (hp : p ∈ db.payments.rows) (hq : q ∈ db.payments.rows)
    (h : p.idTransaction = q.idTransaction) : p = q :=
  Table.eq_of_key hp hq (payment_transaction_mem_keys.mpr h) (payment_transaction_mem_keys.mpr rfl)

end Payments

/-- What the invariant says of a case. -/
theorem Accounted.leavesTheBooks {db : Db} (h : Accounted db) {r : Reconciliation}
    (hr : r ∈ db.reconciliations.rows) (hinvalid : r.status = .RESOLVED_INVALID) :
    LeavesTheBooks db r := by
  obtain ⟨p, hp, hid, hfailed⟩ := h.failed r hr hinvalid
  exact ⟨p, hp, hid, hfailed, h.clean.out p.idTransaction ⟨r, hr, hinvalid, p, hp, hid, rfl⟩⟩

/-- The payment of a discarded transaction is FAILED. -/
theorem Accounted.failed_of_discarded {db : Db} (h : Accounted db) {i : Ident}
    (hd : db.replacements.discarded i) {q : Payment} (hq : q ∈ db.payments.rows)
    (hqi : q.idTransaction = i) : q.status = .FAILED := by
  obtain ⟨r, hr, hinvalid, p, hp, hid, hpi⟩ := hd
  obtain ⟨p', hp', hid', hfailed⟩ := h.failed r hr hinvalid
  obtain rfl := payment_unique hp hp' (hid.trans hid'.symm)
  rw [payment_unique_of_transaction hq hp (hqi.trans hpi.symm)]
  exact hfailed

/-! ## What each write keeps -/

section Writes

variable {db db' : Db}

/-- Nothing that the books rest on changed. -/
structure Quiet (db db' : Db) : Prop where
  transactions : db'.transactions = db.transactions
  payments : db'.payments = db.payments
  corrections : db'.corrections = db.corrections
  reconciliations : db'.reconciliations = db.reconciliations

theorem Quiet.refl (db : Db) : Quiet db db := ⟨rfl, rfl, rfl, rfl⟩

theorem Quiet.trans {db₁ db₂ db₃ : Db} (h₁ : Quiet db₁ db₂) (h₂ : Quiet db₂ db₃) :
    Quiet db₁ db₃ where
  transactions := h₂.transactions.trans h₁.transactions
  payments := h₂.payments.trans h₁.payments
  corrections := h₂.corrections.trans h₁.corrections
  reconciliations := h₂.reconciliations.trans h₁.reconciliations

theorem Quiet.accounted (h : Quiet db db') (hdb : Accounted db) : Accounted db' := by
  have hdocs : db'.replacements = db.replacements := by
    unfold Db.replacements Db.Live Db.ReplacedBy
    rw [h.transactions, h.payments, h.corrections, h.reconciliations]
  refine ⟨by rw [hdocs]; exact hdb.clean, ?_, ?_⟩
  · rw [h.reconciliations, h.payments]
    exact hdb.failed
  · unfold Db.ReplacedBy
    rw [h.corrections, h.transactions]
    exact hdb.synced

/-- The cases are those there were, and the payments that there were are there. -/
theorem discarded_of_payments (hdb : Accounted db)
    (hrs : db'.reconciliations = db.reconciliations)
    (hps : ∀ p ∈ db.payments.rows, p ∈ db'.payments.rows) (i : Ident)
    (hd : db'.replacements.discarded i) : db.replacements.discarded i := by
  obtain ⟨r, hr, hinvalid, p, hp, hid, hi⟩ := hd
  rw [hrs] at hr
  obtain ⟨q, hq, hidq, -⟩ := hdb.failed r hr hinvalid
  obtain rfl := payment_unique hp (hps q hq) (hid.trans hidq.symm)
  exact ⟨r, hr, hinvalid, p, hq, hid, hi⟩

/-- **A sale is stored** with a payment of its own. -/
theorem Accounted.stored (hdb : Accounted db) {row : Transaction} {payment : Payment}
    (hts : db.transactions.insert row = some db'.transactions)
    (hps : db.payments.insert payment = some db'.payments)
    (hpay : payment.idTransaction = row.idTransaction)
    (hcs : db'.corrections = db.corrections) (hrs : db'.reconciliations = db.reconciliations) :
    Accounted db' := by
  have hkept : ∀ p ∈ db.payments.rows, p ∈ db'.payments.rows :=
    fun p hp => (Table.mem_insert hps).mpr (Or.inl hp)
  have hnew : ¬ db.replacements.known row.idTransaction := by
    rw [known_iff]
    rintro ⟨t, ht, hid⟩
    exact Table.free_of_insert hts ht (id_mem_keys.mpr rfl) (id_mem_keys.mpr hid)
  have hwithin : Replacements.Within db'.replacements db.replacements := by
    refine ⟨fun i => Table.has_insert_mono hts, fun i j h => ?_,
      discarded_of_payments hdb hrs hkept⟩
    show db.ReplacedBy i j
    unfold Db.ReplacedBy
    rw [← hcs]
    exact h
  refine ⟨hdb.clean.add hwithin hnew fun i hi => ?_, fun r hr hinvalid => ?_, ?_⟩
  · obtain ⟨⟨t, ht, hti, hconf⟩, p, hp, hpi, hver⟩ := hi
    by_cases hin : i = row.idTransaction
    · exact Or.inr hin
    · left
      rcases (Table.mem_insert hts).mp ht with ht | rfl
      · rcases (Table.mem_insert hps).mp hp with hp | rfl
        · exact ⟨⟨t, ht, hti, hconf⟩, p, hp, hpi, hver⟩
        · exact absurd (hpi.symm.trans hpay) hin
      · exact absurd hti.symm hin
  · rw [hrs] at hr
    obtain ⟨p, hp, hid, hfailed⟩ := hdb.failed r hr hinvalid
    exact ⟨p, hkept p hp, hid, hfailed⟩
  · intro i j hij t ht htj
    have hij := hwithin.replacedBy i j hij
    rcases (Table.mem_insert hts).mp ht with ht | rfl
    · exact hdb.synced i j hij t ht htj
    · exact absurd (htj ▸ (hdb.clean.links i j hij).2) hnew

/-- **A transaction is relabelled**: it does not become CONFIRMED, unless it was in conflict. -/
theorem Accounted.relabelled (hdb : Accounted db) {i : Ident} {f : Rewrite Transaction}
    (hts : db'.transactions = db.transactions.update (.id i) f)
    (hps : db'.payments = db.payments) (hcs : db'.corrections = db.corrections)
    (hrs : db'.reconciliations = db.reconciliations)
    (hsync : ∀ t, (f t).syncStatus = .SYNC_CONFLICT → t.syncStatus = .SYNC_CONFLICT)
    (hconf : ∀ t ∈ db.transactions.rows, t.idTransaction = i → (f t).status = .CONFIRMED →
      t.syncStatus = .SYNC_CONFLICT) : Accounted db' := by
  have hrows : ∀ t ∈ db'.transactions.rows, (∃ s ∈ db.transactions.rows, s.idTransaction = i ∧
      t = f s) ∨ t ∈ db.transactions.rows := by
    intro t ht
    rw [hts] at ht
    rcases mem_relabel.mp ht with ⟨s, hs, hsi, rfl⟩ | ⟨ht, -⟩
    · exact Or.inl ⟨s, hs, hsi, rfl⟩
    · exact Or.inr ht
  have hreplaced : ∀ a b, db'.ReplacedBy a b → db.ReplacedBy a b := by
    intro a b h
    unfold Db.ReplacedBy at h ⊢
    rwa [hcs] at h
  have hwithin : Replacements.Within db'.replacements db.replacements := by
    refine ⟨fun j hj => ?_, hreplaced, discarded_of_payments hdb hrs fun p hp => hps ▸ hp⟩
    show db'.transactions.has (.id j) = true
    rw [hts, Table.has_update]
    exact hj
  refine ⟨hdb.clean.restore hwithin fun j hj => ?_, ?_, ?_⟩
  · obtain ⟨⟨t, ht, htj, htc⟩, p, hp, hpj, hver⟩ := hj
    rw [hps] at hp
    rcases hrows t ht with ⟨s, hs, hsi, rfl⟩ | ht
    · -- it was in conflict, so it replaces nothing, and its payment is not FAILED
      have hsj : s.idTransaction = j := (id_rewrite f s).symm.trans htj
      have hconflict := hconf s hs hsi htc
      refine Or.inr ⟨fun a ha => hdb.synced a j ha s hs hsj hconflict, fun hd => ?_⟩
      have := hdb.failed_of_discarded hd hp hpj
      rw [hver] at this
      cases this
    · exact Or.inl ⟨⟨t, ht, htj, htc⟩, p, hp, hpj, hver⟩
  · rw [hrs, hps]
    exact hdb.failed
  · intro a b hab t ht htb
    rcases hrows t ht with ⟨s, hs, hsi, rfl⟩ | ht
    · intro hc
      exact hdb.synced a b (hreplaced a b hab) s hs ((id_rewrite f s).symm.trans htb) (hsync s hc)
    · exact hdb.synced a b (hreplaced a b hab) t ht htb

/-- A correction copies the payment to the new transaction, as it is, or has none to copy. -/
theorem correctTransactionWrite_payments {user : JwtPayload} {t : FoundTransaction}
    {dto : CorrectTransactionDto} {now : DateTime}
    (h : Transactions.correctTransactionWrite db user t dto now = .ok db') :
    db'.payments = db.payments ∨ ∃ p q, t.payment = some p ∧
      db.payments.insert q = some db'.payments ∧ q.idTransaction = db.newId ∧
      q.status = p.status := by
  rcases correctTransactionWrite_cloned h with ⟨-, hps⟩ | ⟨p, mid, hp, hps⟩
  · exact Or.inl hps
  · exact Or.inr ⟨p, _, hp, hps, rfl, rfl⟩

/-- What a correction does to the books: the transaction `n` is new and replaces `o`. -/
structure Bridged (db db' : Db) (o n : Ident) : Prop where
  old : ∃ t ∈ db.transactions.rows, t.idTransaction = o ∧ t.status = .CONFIRMED
  fresh : db.transactions.has (.id n) = false
  has : ∀ i, db'.transactions.has (.id i) = true ↔
    db.transactions.has (.id i) = true ∨ i = n
  rows : ∀ s ∈ db'.transactions.rows, s.idTransaction = n ∧ s.syncStatus = .SYNCED ∨
    ∃ r ∈ db.transactions.rows, s.idTransaction = r.idTransaction ∧
      (s.status = .CONFIRMED → r.status = .CONFIRMED) ∧ s.syncStatus = r.syncStatus
  links : ∀ a b, db'.ReplacedBy a b → db.ReplacedBy a b ∨ a = o ∧ b = n
  kept : ∀ p ∈ db.payments.rows, p ∈ db'.payments.rows
  payments : ∀ q ∈ db'.payments.rows, q ∈ db.payments.rows ∨ q.idTransaction = n ∧
    ∃ p ∈ db.payments.rows, p.idTransaction = o ∧ q.status = p.status
  reconciliations : db'.reconciliations = db.reconciliations

theorem correctTransactionWrite_bridged {user : JwtPayload} {t : FoundTransaction}
    {dto : CorrectTransactionDto} {now : DateTime} (hcur : t.CurrentIn db)
    (hstatus : t.row.status = .CONFIRMED)
    (h : Transactions.correctTransactionWrite db user t dto now = .ok db') :
    Bridged db db' t.row.idTransaction db.newId := by
  have hw := correctTransactionWrite_corrected h
  have hps := correctTransactionWrite_payments h
  obtain ⟨ts, hins, hts⟩ := hw.transactions
  obtain ⟨c, hold, hnew, hcs⟩ := hw.corrections
  refine ⟨⟨t.row, hcur.row, rfl, hstatus⟩, ?_, fun i => ?_, fun s hs => ?_, ?_, ?_, ?_, ?_⟩
  · exact Table.insert_isSome_iff.mp (hins ▸ Option.isSome_some) _ List.mem_cons_self
  · rw [hts, Table.has_update, Table.has_of_insert hins, id_mem_keys]
    exact or_congr_right eq_comm
  · rw [hts] at hs
    rcases Table.mem_update_iff.mp hs with ⟨r, hr, -, rfl⟩ | ⟨hs, -⟩
    · rcases (Table.mem_insert hins).mp hr with hr | rfl
      · refine Or.inr ⟨r, hr, id_rewrite _ r, fun hc => ?_, rfl⟩
        cases hc
      · exact Or.inl ⟨rfl, rfl⟩
    · rcases (Table.mem_insert hins).mp hs with hs | rfl
      · exact Or.inr ⟨s, hs, rfl, id, rfl⟩
      · exact Or.inl ⟨rfl, rfl⟩
  · rintro a b ⟨x, hx, hxa, hxb⟩
    rcases (Table.mem_insert hcs).mp hx with hx | rfl
    · exact Or.inl ⟨x, hx, hxa, hxb⟩
    · exact Or.inr ⟨hxa.symm.trans hold, hxb.symm.trans hnew⟩
  · intro p hp
    rcases hps with hps | ⟨_, q, -, hps, -, -⟩
    · rw [hps]
      exact hp
    · exact (Table.mem_insert hps).mpr (Or.inl hp)
  · intro q hq
    rcases hps with hps | ⟨p, r, hp, hps, htx, hcopy⟩
    · exact Or.inl (hps ▸ hq)
    · rcases (Table.mem_insert hps).mp hq with hq | rfl
      · exact Or.inl hq
      · -- the payment that was read is the old transaction's
        rw [hcur.payment, Table.findUnique_eq_some, payment_transaction_mem_keys] at hp
        exact Or.inr ⟨htx, p, hp.1, hp.2, hcopy⟩
  · rw [hw.frame]

/-- **A transaction is corrected**: its replacement is in the books only if it was. -/
theorem Bridged.accounted {o n : Ident} (h : Bridged db db' o n) (hwired : Wired db)
    (hdb : Accounted db) : Accounted db' := by
  have hfresh : ¬ db.replacements.known n := by
    show ¬ db.transactions.has (.id n) = true
    rw [h.fresh]
    exact Bool.false_ne_true
  obtain ⟨t, ht, hto, hstatus⟩ := h.old
  have hold : db.replacements.known o := known_iff.mpr ⟨t, ht, hto⟩
  have hon : o ≠ n := fun heq => hfresh (heq ▸ hold)
  -- the old payments are not the new transaction's
  have hpaid : ∀ p ∈ db.payments.rows, p.idTransaction ≠ n := by
    intro p hp heq
    exact hfresh (heq ▸ (hwired.payments p hp).2)
  refine ⟨hdb.clean.replace hfresh hold (fun i hi => (h.has i).mpr (Or.inl hi))
    ((h.has n).mpr (Or.inr rfl)) h.links
    (discarded_of_payments hdb h.reconciliations h.kept) fun i hi => ?_, ?_, ?_⟩
  · obtain ⟨⟨s, hs, hsi, hconf⟩, q, hq, hqi, hver⟩ := hi
    rcases h.payments q hq with hq | ⟨hqn, p, hp, hpo, hcopy⟩
    · have hin : i ≠ n := fun heq => hpaid q hq (hqi.trans heq)
      rcases h.rows s hs with ⟨hsn, -⟩ | ⟨r, hr, hid, hconf', -⟩
      · exact absurd (hsi.symm.trans hsn) hin
      · exact Or.inl ⟨⟨⟨r, hr, hid.symm.trans hsi, hconf' hconf⟩, q, hq, hqi, hver⟩, hin⟩
    · refine Or.inr ⟨hqi.symm.trans hqn, ⟨t, ht, hto, hstatus⟩, p, hp, hpo, ?_⟩
      exact hcopy.symm.trans hver
  · rw [h.reconciliations]
    intro r hr hinvalid
    obtain ⟨p, hp, hid, hfailed⟩ := hdb.failed r hr hinvalid
    exact ⟨p, h.kept p hp, hid, hfailed⟩
  · intro a b hab s hs hsb
    rcases h.rows s hs with ⟨-, hsync⟩ | ⟨r, hr, hid, -, hsync⟩
    · rw [hsync]
      decide
    · rw [hsync]
      rcases h.links a b hab with hab | ⟨-, hbn⟩
      · exact hdb.synced a b hab r hr (hid.symm.trans hsb)
      · exact absurd (known_iff.mpr ⟨r, hr, hid.symm.trans (hsb.trans hbn)⟩) hfresh

/-- **A case is opened**, or resolved as valid. -/
theorem Accounted.cases (hdb : Accounted db) (hts : db'.transactions = db.transactions)
    (hps : db'.payments = db.payments) (hcs : db'.corrections = db.corrections)
    (hrs : ∀ r ∈ db'.reconciliations.rows, r.status = .RESOLVED_INVALID →
      r ∈ db.reconciliations.rows) : Accounted db' := by
  have hreplaced : ∀ a b, db'.ReplacedBy a b → db.ReplacedBy a b := by
    intro a b h
    unfold Db.ReplacedBy at h ⊢
    rwa [hcs] at h
  have hwithin : Replacements.Within db'.replacements db.replacements := by
    refine ⟨fun i hi => ?_, hreplaced, ?_⟩
    · show db'.transactions.has (.id i) = true
      rw [hts]
      exact hi
    · rintro i ⟨r, hr, hinvalid, p, hp, hpi⟩
      exact ⟨r, hrs r hr hinvalid, hinvalid, p, hps ▸ hp, hpi⟩
  refine ⟨hdb.clean.withdraw hwithin fun i hi => ?_, ?_, ?_⟩
  · show db.Live i
    unfold Db.Live
    rw [← hts, ← hps]
    exact hi
  · rw [hps]
    exact fun r hr hinvalid => hdb.failed r (hrs r hr hinvalid) hinvalid
  · rw [hts]
    exact fun i j hij => hdb.synced i j (hreplaced i j hij)

/-- What an invalid case does to the books: the payment `p` fails. -/
structure Discarding (db db' : Db) (p : Payment) : Prop where
  found : p ∈ db.payments.rows
  has : ∀ i, db'.transactions.has (.id i) = db.transactions.has (.id i)
  rows : ∀ s ∈ db'.transactions.rows, ∃ t ∈ db.transactions.rows,
    s.idTransaction = t.idTransaction ∧ (s.status = .CONFIRMED → t.status = .CONFIRMED) ∧
      s.syncStatus = t.syncStatus
  payments : ∀ q ∈ db'.payments.rows, ∃ o ∈ db.payments.rows, q.idPayment = o.idPayment ∧
    q.idTransaction = o.idTransaction ∧ (q.status = .VERIFIED → o.status = .VERIFIED ∧ o ≠ p)
  failed : ∀ o ∈ db.payments.rows, o.status = .FAILED ∨ o = p →
    ∃ q ∈ db'.payments.rows, q.idPayment = o.idPayment ∧ q.status = .FAILED
  corrections : db'.corrections = db.corrections
  reconciliations : ∀ r ∈ db'.reconciliations.rows, r.status = .RESOLVED_INVALID →
    r.idPayment = p.idPayment ∨ r ∈ db.reconciliations.rows

/-- The rows that a case includes belong together. -/
theorem findReconciliation_links {id : Ident} {r : FoundReconciliation}
    (h : db.findReconciliation id = some r) : r.row.idReconciliation = id ∧
      r.payment.idPayment = r.row.idPayment ∧
      r.transaction.idTransaction = r.payment.idTransaction := by
  obtain ⟨row, hrow, h⟩ := Option.bind_eq_some_iff.mp h
  obtain ⟨payment, hpay, h⟩ := Option.bind_eq_some_iff.mp h
  obtain ⟨tx, htx, h⟩ := Option.bind_eq_some_iff.mp h
  obtain rfl : (⟨row, payment, tx⟩ : FoundReconciliation) = r := Option.some.inj h
  exact ⟨reconciliation_id_mem_keys.mp (Table.findUnique_eq_some.mp hrow).2,
    payment_id_mem_keys.mp (Table.findUnique_eq_some.mp hpay).2,
    id_mem_keys.mp (Table.findUnique_eq_some.mp htx).2⟩

theorem resolveWrite_discarding {id : Ident} {user : JwtPayload} {r : FoundReconciliation}
    {dto : ResolveReconciliationDto} {now : DateTime} (hfound : db.findReconciliation id = some r)
    (hinvalid : dto.newStatus = .RESOLVED_INVALID)
    (h : Reconciliations.resolveWrite db id user r dto now = .ok db') :
    Discarding db db' r.payment := by
  obtain ⟨hrow, hpay, -⟩ := findReconciliation_eq_some hfound
  obtain ⟨hid, hpid, -⟩ := findReconciliation_links hfound
  have hpayments : ∀ q ∈ (db.payments.update (.id r.row.idPayment) Payment.failed).rows,
      ∃ o ∈ db.payments.rows, q.idPayment = o.idPayment ∧
        q.idTransaction = o.idTransaction ∧
        (q.status = .VERIFIED → o.status = .VERIFIED ∧ o ≠ r.payment) := by
    intro q hq
    rcases Table.mem_update_iff.mp hq with ⟨o, ho, -, rfl⟩ | ⟨hq, hkey⟩
    · refine ⟨o, ho, rfl, rfl, fun hver => ?_⟩
      cases hver
    · refine ⟨q, hq, rfl, rfl, fun hver => ⟨hver, ?_⟩⟩
      rintro rfl
      exact hkey (payment_id_mem_keys.mpr hpid)
  have hfailed : ∀ o ∈ db.payments.rows, o.status = .FAILED ∨ o = r.payment →
      ∃ q ∈ (db.payments.update (.id r.row.idPayment) Payment.failed).rows,
        q.idPayment = o.idPayment ∧ q.status = .FAILED := by
    intro o ho hcase
    by_cases hkey : PaymentKey.id r.row.idPayment ∈ UniqueKeys.keys o
    · exact ⟨_, Table.mem_update_iff.mpr (Or.inl ⟨o, ho, hkey, rfl⟩), rfl, rfl⟩
    · rcases hcase with hfail | rfl
      · exact ⟨o, Table.mem_update_of_not_mem ho hkey, rfl, hfail⟩
      · exact absurd (payment_id_mem_keys.mpr hpid) hkey
  have hcases : ∀ c ∈ (db.reconciliations.update (.id id)
      (Reconciliation.resolved user dto now)).rows, c.status = .RESOLVED_INVALID →
        c.idPayment = r.payment.idPayment ∨ c ∈ db.reconciliations.rows := by
    intro c hc _
    rcases Table.mem_update_iff.mp hc with ⟨o, ho, hkey, rfl⟩ | ⟨hc, -⟩
    · left
      have heq : o = r.row := Table.eq_of_key ho hrow hkey (reconciliation_id_mem_keys.mpr hid)
      rw [heq]
      exact hpid.symm
    · exact Or.inr hc
  obtain ⟨-, ⟨hvalid, -⟩ | ⟨-, -, rfl⟩ | ⟨-, -, rfl⟩⟩ := resolveWrite_cases h
  · rw [hinvalid] at hvalid
    cases hvalid
  · exact ⟨hpay, fun _ => rfl, fun s hs => ⟨s, hs, rfl, fun hc => hc, rfl⟩, hpayments, hfailed,
      rfl, hcases⟩
  · refine ⟨hpay, fun i => Table.has_update, fun s hs => ?_, hpayments, hfailed, rfl, hcases⟩
    rcases Table.mem_update_iff.mp hs with ⟨t, ht, -, rfl⟩ | ⟨hs, -⟩
    · refine ⟨t, ht, id_rewrite _ t, fun hc => ?_, rfl⟩
      cases hc
    · exact ⟨s, hs, rfl, fun hc => hc, rfl⟩

/-- **A case is resolved as invalid** when no replacement is in the books. -/
theorem Discarding.accounted {p : Payment} (h : Discarding db db' p) (hwired : Wired db)
    (hdb : Accounted db)
    (hout : ∀ i, TransGen db.ReplacedBy p.idTransaction i → ¬ db.Live i) : Accounted db' := by
  have hreplaced : ∀ a b, db'.ReplacedBy a b → db.ReplacedBy a b := by
    intro a b hab
    unfold Db.ReplacedBy at hab ⊢
    rwa [h.corrections] at hab
  -- what is still in the books was there, and is not the payment's transaction
  have hlive : ∀ i, db'.Live i → db.Live i ∧ i ≠ p.idTransaction := by
    rintro i ⟨⟨s, hs, hsi, hconf⟩, q, hq, hqi, hver⟩
    obtain ⟨t, ht, hst, hconf', -⟩ := h.rows s hs
    obtain ⟨o, ho, -, htx, hver'⟩ := h.payments q hq
    obtain ⟨hover, hop⟩ := hver' hver
    have hoi : o.idTransaction = i := htx.symm.trans hqi
    refine ⟨⟨⟨t, ht, hst.symm.trans hsi, hconf' hconf⟩, o, ho, hoi, hover⟩, fun heq => ?_⟩
    exact hop (payment_unique_of_transaction ho h.found (hoi.trans heq))
  refine ⟨hdb.clean.discard (hwired.payments p h.found).2 (fun i hi => (h.has i).trans hi)
    hreplaced ?_ (fun i hi => (hlive i hi).1) ?_, ?_, ?_⟩
  · rintro x ⟨r, hr, hinvalid, q, hq, hid, rfl⟩
    obtain ⟨o, ho, hqo, htx, -⟩ := h.payments q hq
    rcases h.reconciliations r hr hinvalid with hrp | hr
    · right
      rw [htx, payment_unique ho h.found (hqo.symm.trans (hid.trans hrp))]
    · exact Or.inl ⟨r, hr, hinvalid, o, ho, hqo.symm.trans hid, htx.symm⟩
  · intro i hc hi
    obtain ⟨hi, hne⟩ := hlive i hi
    rcases reflTransGen_iff_eq_or_transGen.mp hc with heq | hc
    · exact hne heq
    · exact hout i hc hi
  · intro r hr hinvalid
    rcases h.reconciliations r hr hinvalid with hrp | hr
    · obtain ⟨q, hq, hid, hfail⟩ := h.failed p h.found (Or.inr rfl)
      exact ⟨q, hq, hid.trans hrp.symm, hfail⟩
    · obtain ⟨o, ho, hid, hfail⟩ := hdb.failed r hr hinvalid
      obtain ⟨q, hq, hqo, hfail⟩ := h.failed o ho (Or.inl hfail)
      exact ⟨q, hq, hqo.trans hid, hfail⟩
  · intro a b hab s hs hsb
    obtain ⟨t, ht, hst, -, hsync⟩ := h.rows s hs
    rw [hsync]
    exact hdb.synced a b (hreplaced a b hab) t ht (hst.symm.trans hsb)

end Writes

/-! ## Every call -/

section Calls

variable {db db' : Db}

theorem createSyncQueue_quiet {row : SyncQueue} (h : db.createSyncQueue row = .ok db') :
    Quiet db db' := by
  obtain ⟨-, -, qs, -, rfl⟩ := createSyncQueue_eq_ok.mp h
  exact ⟨rfl, rfl, rfl, rfl⟩

/-- **The other calls leave the books alone.** -/
theorem exec_quiet {op : Op} (hop : op.aboutSales = false) : Quiet db (exec db op) := by
  rw [exec_outsideSales hop]
  exact ⟨rfl, rfl, rfl, rfl⟩

/-- An item that is handled leaves the books accounted for. -/
theorem Accounted.handleItem (hdb : Accounted db) (data : QueuedTransaction)
    (outcome : ItemOutcome) : Accounted (handleItem db data outcome) := by
  obtain ⟨db₁, h₁, h₂⟩ := handleItem_cases db data outcome
  have hsale : Accounted db₁ := by
    rcases h₁ with rfl | h₁
    · exact hdb
    · obtain ⟨-, d, created, sale⟩ := processTransaction_stored h₁
      have hframe := sale.frame
      exact hdb.stored sale.insertable.header sale.insertable.payment rfl (by rw [hframe])
        (by rw [hframe])
  rcases h₂ with h₂ | ⟨_, h₂⟩
  · rw [h₂]
    exact hsale
  · exact (createSyncQueue_quiet h₂).accounted hsale

/-- A case that is opened is not invalid. -/
theorem Accounted.createReconciliation (hdb : Accounted db) {user : JwtPayload}
    {payment : Payment} {dto : CreateReconciliationDto} {now : DateTime}
    (h : Reconciliations.createWrite db user payment dto now = .ok db') : Accounted db' := by
  obtain ⟨-, -, rs, hrs, rfl⟩ := createReconciliation_eq_ok.mp h
  refine hdb.cases rfl rfl rfl fun r hr hinvalid => ?_
  rcases (Table.mem_insert hrs).mp hr with hr | rfl
  · exact hr
  · cases hinvalid

/-- A case that is resolved as valid is not invalid. -/
theorem Accounted.resolvedValid (hdb : Accounted db) {id : Ident} {user : JwtPayload}
    {r : FoundReconciliation} {dto : ResolveReconciliationDto} {now : DateTime}
    (hnew : dto.newStatus = .RESOLVED_VALID)
    (h : Reconciliations.resolveWrite db id user r dto now = .ok db') : Accounted db' := by
  obtain rfl := resolveWrite_of_valid hnew h
  refine hdb.cases rfl rfl rfl fun c hc hinvalid => ?_
  rcases Table.mem_update_iff.mp hc with ⟨o, -, -, rfl⟩ | ⟨hc, -⟩
  · have hvalid : (Reconciliation.resolved user dto now o).status = .RESOLVED_VALID :=
      congrArg Resolution.status hnew
    rw [hvalid] at hinvalid
    cases hinvalid
  · exact hc

/-- **A call under the condition keeps invalid payments out of the books.** -/
theorem Accounted.exec (hdb : Accounted db) (hwired : Wired db) {op : Op}
    (hop : discardsWhole db op) : Accounted (exec db op) := by
  cases op with
  | sync data outcome => exact hdb.handleItem data outcome
  | voidTransaction user id reason now =>
    refine commit_rule hdb fun db' h => ?_
    obtain ⟨t, -, hwrite⟩ := bind_eq_ok.mp h
    obtain ⟨-, -, rfl⟩ := updateTransaction_eq_ok.mp hwrite
    refine hdb.relabelled rfl rfl rfl rfl (fun _ h => h) fun _ _ _ hconf => ?_
    cases hconf
  | resolveConflict user id dto now =>
    refine commit_rule hdb fun db' h => ?_
    obtain ⟨t, hread, hwrite⟩ := bind_eq_ok.mp h
    obtain ⟨hcur, -, hconflict⟩ := resolveConflictRead_eq_ok hread
    cases haction : dto.action with
    | CONFIRM =>
      have hforced := resolveConflictWrite_confirm haction hwrite
      have hframe := hforced.frame
      refine hdb.relabelled hforced.transactions (by rw [hframe]) (by rw [hframe])
        (by rw [hframe]) (fun _ hc => ?_) fun s hs hid _ => ?_
      · cases hc
      · rw [row_unique hs hcur.row hid]
        exact hconflict
    | VOID =>
      rw [resolveConflictWrite_void haction hwrite]
      refine hdb.relabelled rfl rfl rfl rfl (fun _ hc => ?_) fun _ _ _ hconf => ?_
      · cases hc
      · cases hconf
  | correctTransaction user id dto now =>
    refine commit_rule hdb fun db' h => ?_
    obtain ⟨t, hread, hwrite⟩ := bind_eq_ok.mp h
    obtain ⟨hcur, -, hstatus⟩ := correctTransactionRead_eq_ok hread
    exact (correctTransactionWrite_bridged hcur hstatus hwrite).accounted hwired hdb
  | createReconciliation user dto now =>
    refine commit_rule hdb fun db' h => ?_
    obtain ⟨_, -, hwrite⟩ := bind_eq_ok.mp h
    exact hdb.createReconciliation hwrite
  | reconcilePayment user paymentId dto now =>
    refine commit_rule hdb fun db' h => ?_
    obtain ⟨_, -, hwrite⟩ := bind_eq_ok.mp h
    exact hdb.createReconciliation hwrite
  | resolveReconciliation id user dto now =>
    refine commit_rule hdb fun db' h => ?_
    obtain ⟨r, hread, hwrite⟩ := bind_eq_ok.mp h
    cases hnew : dto.newStatus with
    | RESOLVED_VALID => exact hdb.resolvedValid hnew hwrite
    | RESOLVED_INVALID =>
      have hfound := resolveRead_found hread
      have hout := hop hnew (resolveWrite_cases hwrite).1 r hread
      rw [(findReconciliation_links hfound).2.2] at hout
      exact (resolveWrite_discarding hfound hnew hwrite).accounted hwired hdb hout
  | _ => exact (exec_quiet rfl).accounted hdb

end Calls

/-- The books of a database without rows. -/
theorem accounted_withUsers (us : Table User) : Accounted (Db.withUsers us) where
  clean :=
    { links := by
        rintro _ _ ⟨c, hc, -⟩
        cases hc
      discarded := by
        rintro _ ⟨r, hr, -⟩
        cases hr
      out := by
        rintro _ ⟨r, hr, -⟩
        cases hr }
  failed := fun _ hr => nomatch hr
  synced := fun _ _ _ _ ht => nomatch ht

/-- **An invalid payment leaves the books** in every run whose resolutions meet the condition. -/
theorem invalid_leaves_books {us : Table User} {ops : List Op} {db : Db}
    (h : Runs.Run next discardsWhole (Db.withUsers us) ops db) {r : Reconciliation}
    (hr : r ∈ db.reconciliations.rows) (hinvalid : r.status = .RESOLVED_INVALID) :
    LeavesTheBooks db r := by
  have hsound : Wired db ∧ Accounted db := by
    refine h.invariant_total (fun db => Wired db ∧ Accounted db)
      ⟨wired_withUsers us, accounted_withUsers us⟩ fun db₁ op hdb hop => ?_
    exact ⟨hdb.1.exec op, hdb.2.exec hdb.1 hop⟩
  exact hsound.2.leavesTheBooks hr hinvalid

/-- Calls that meet a condition in every state make a run under it. -/
theorem run_after {C : Db → Op → Prop} {ops : List Op} (h : ∀ op ∈ ops, ∀ db, C db op) (db : Db) :
    Runs.Run next C db ops (after db ops) := by
  induction ops generalizing db with
  | nil => exact .start
  | cons op ops ih =>
    refine .cons (h op List.mem_cons_self db) rfl ?_
    exact ih (fun o ho => h o (List.mem_cons_of_mem _ ho)) (exec db op)

/-- The shop is opened under any condition on calls about sales. -/
theorem run_shop {C : Db → Op → Prop} (hC : ∀ db op, op.aboutSales = false → C db op) :
    Runs.Run next C (Db.withUsers systemUsers) shopOpening shop := by
  apply run_after
  intro op hop db
  apply hC
  simp only [shopOpening, List.mem_cons, List.not_mem_nil, or_false] at hop
  rcases hop with rfl | rfl | rfl | rfl | rfl <;> rfl

/-- A sale, and a case about its payment. -/
def disputing : List Op :=
  [shopSync "a" [3], .createReconciliation shopOwner ⟨.cuid 5, "unpaid", none⟩ 2]

/-- The case is resolved as invalid. -/
def foundInvalid : Op :=
  .resolveReconciliation (.cuid 7) shopOwner ⟨"unpaid", some .RESOLVED_INVALID⟩ 4

/-- The shop with the case open. -/
def disputed : Db := after (Db.withUsers systemUsers) (shopOpening ++ disputing)

/-- The sale of the case that is resolved leaves the books. -/
theorem invalid_leaves_books_shop : ∃ r ∈ (exec disputed foundInvalid).reconciliations.rows,
    r.status = .RESOLVED_INVALID ∧ LeavesTheBooks (exec disputed foundInvalid) r := by
  have hopen : Runs.Run next discardsWhole (Db.withUsers systemUsers)
      (shopOpening ++ disputing) disputed := by
    apply run_after
    intro op hop db
    simp only [shopOpening, disputing, List.cons_append, List.nil_append, List.mem_cons,
      List.not_mem_nil, or_false] at hop
    rcases hop with rfl | rfl | rfl | rfl | rfl | rfl | rfl <;> trivial
  have hnone : disputed.corrections.rows.isEmpty = true := by decide +kernel
  have hcond : discardsWhole disputed foundInvalid := by
    intro _ _ r _ i hchain
    -- nothing was corrected
    obtain ⟨j, ⟨c, hc, -⟩, -⟩ := TransGen.head'_iff.mp hchain
    rw [List.isEmpty_iff.mp hnone] at hc
    cases hc
  have hinvalid : ∃ r ∈ (exec disputed foundInvalid).reconciliations.rows,
      r.status = .RESOLVED_INVALID := by decide +kernel
  obtain ⟨r, hr, hstatus⟩ := hinvalid
  exact ⟨r, hr, hstatus, invalid_leaves_books (hopen.step hcond rfl) hr hstatus⟩

/-- The sale is corrected while the case is open. -/
def correctedDispute : Db :=
  after disputed [.correctTransaction shopOwner (.cuid 5)
    ⟨"miscounted", [⟨shopProduct, 2, 2, 4, none⟩], 4, 4, none⟩ 3, foundInvalid]

/-- **An invalid payment stays in the books**: a correction copied it. -/
theorem invalid_stays_in_books : ¬ ∀ (us : Table User) (db : Db) (r : Reconciliation),
    Reachable us db → r ∈ db.reconciliations.rows → r.status = .RESOLVED_INVALID →
      LeavesTheBooks db r := by
  intro h
  have hreach : Reachable systemUsers correctedDispute :=
    (reaches_after _ _).trans (reaches_after _ _)
  have hinvalid : ∃ r ∈ correctedDispute.reconciliations.rows,
      r.status = .RESOLVED_INVALID := by decide +kernel
  have hpaid : ∀ r ∈ correctedDispute.reconciliations.rows, ∀ p ∈ correctedDispute.payments.rows,
      p.idPayment = r.idPayment → p.idTransaction = .cuid 5 := by decide +kernel
  have hlink : correctedDispute.ReplacedBy (.cuid 5) (.cuid 8) := by
    unfold Db.ReplacedBy
    decide +kernel
  have hlive : correctedDispute.Live (.cuid 8) := by
    unfold Db.Live
    decide +kernel
  obtain ⟨r, hr, hstatus⟩ := hinvalid
  obtain ⟨p, hp, hid, -, hout⟩ := h systemUsers correctedDispute r hreach hr hstatus
  rw [hpaid r hr p hp hid] at hout
  exact hout _ (.single hlink) hlive

end KPos
