/-
# What a call can do to the payments

A payment comes with a synchronised sale or is the copy that a correction makes; after that
only its status changes, when a case finds it invalid.  A transaction that is there keeps what
was sold, and only its lifecycle moves.

* `Transaction.Moved` : only lifecycle columns changed;
* `correctTransactionWrite_cloned` : the payment that a correction writes;
* `exec_settles` : every call does one of the things listed in `Settles`;
* `exec_moved`, `exec_detailsOf` : a transaction keeps what was sold, and its lines;
* `Db.Paired.exec` : what a call keeps of payments and their transactions.
-/
import KPos.References

namespace KPos

/-! ## Lifecycle columns -/

/-- Only lifecycle columns of the transaction changed. -/
def Transaction.Moved (t t' : Transaction) : Prop :=
  t' = { t with
    status := t'.status
    syncStatus := t'.syncStatus
    confirmedAt := t'.confirmedAt
    syncedAt := t'.syncedAt
    voidedAt := t'.voidedAt
    voidedBy := t'.voidedBy
    voidReason := t'.voidReason }

theorem Transaction.Moved.refl (t : Transaction) : t.Moved t := rfl

theorem Transaction.Moved.trans {t₁ t₂ t₃ : Transaction} (h₁ : t₁.Moved t₂)
    (h₂ : t₂.Moved t₃) : t₁.Moved t₃ := by
  unfold Transaction.Moved at h₁ h₂ ⊢
  rw [h₂, h₁]

theorem moved_voided {user : JwtPayload} {reason : String} {now : DateTime} (t : Transaction) :
    t.Moved (Transaction.voided user reason now t) := rfl

/-! ## The payment of a correction -/

/-- A correction writes a copy of the payment that was read, for the new transaction and its
total, or no payment when none was read. -/
theorem correctTransactionWrite_cloned {db db' : Db} {user : JwtPayload} {t : FoundTransaction}
    {dto : CorrectTransactionDto} {now : DateTime}
    (h : Transactions.correctTransactionWrite db user t dto now = .ok db') :
    t.payment = none ∧ db'.payments = db.payments ∨ ∃ p mid, t.payment = some p ∧
      db.payments.insert (clonedPayment mid t p db.newId dto.total now).stored
        = some db'.payments := by
  obtain ⟨db₁, db₃, db₄, ts, cs, h₁, -, h₃, h₄, -, rfl⟩ := correctTransactionWrite_steps h
  -- the stock moves before and after, and leaves the payments alone
  obtain ⟨is₁, rfl⟩ := (adjustEach_moved h₁).exists_eq
  obtain ⟨is₃, rfl⟩ := (adjustEach_moved h₃).exists_eq
  unfold clonePayment at h₄
  split at h₄
  · rename_i hnone
    cases h₄
    exact Or.inl ⟨hnone, rfl⟩
  · rename_i p hp
    obtain ⟨-, -, -, -, -, -, ps, hps, rfl⟩ := createPayment_eq_ok.mp h₄
    exact Or.inr ⟨p, _, hp, hps⟩

/-! ## All calls -/

/-- **What a call can do** to the transactions, the payments and the corrections. -/
inductive Settles (db : Db) : Op → Db → Prop
  /-- Nothing. -/
  | alone {op : Op} {db' : Db} (transactions : db'.transactions = db.transactions)
      (payments : db'.payments = db.payments) (corrections : db'.corrections = db.corrections) :
      Settles db op db'
  /-- A sale is stored with its payment. -/
  | sold {data : QueuedTransaction} {outcome : ItemOutcome} {db₁ db' : Db} (d : Device)
      (createdAtLocal : DateTime)
      (stored : processTransaction db data outcome.now = .ok db₁)
      (sale : StoredSale db db₁ data (checkStockAvailability db data.items) outcome.now d
        createdAtLocal)
      (transactions : db'.transactions = db₁.transactions)
      (payments : db'.payments = db₁.payments) (corrections : db'.corrections = db.corrections) :
      Settles db (.sync data outcome) db'
  /-- A transaction moves in its lifecycle. -/
  | moved {op : Op} {db' : Db} (i : Ident) (f : Rewrite Transaction)
      (hf : ∀ t : Transaction, t.Moved (f t))
      (transactions : db'.transactions = db.transactions.update (.id i) f)
      (payments : db'.payments = db.payments) (corrections : db'.corrections = db.corrections) :
      Settles db op db'
  /-- A transaction is corrected. -/
  | corrected {user : JwtPayload} {id : Ident} {dto : CorrectTransactionDto} {now : DateTime}
      {db' : Db} (t : FoundTransaction)
      (read : Transactions.correctTransactionRead db user id = .ok t)
      (write : Transactions.correctTransactionWrite db user t dto now = .ok db') :
      Settles db (.correctTransaction user id dto now) db'
  /-- A payment fails, and its transaction is voided or was. -/
  | failed {id : Ident} {user : JwtPayload} {dto : ResolveReconciliationDto} {now : DateTime}
      {db' : Db} (r : FoundReconciliation) (found : db.findReconciliation id = some r)
      (transactions : db'.transactions = db.transactions ∨
        db'.transactions = db.transactions.update (.id r.transaction.idTransaction)
          (Transaction.voided user (invalidReason id) now))
      (payments : db'.payments = db.payments.update (.id r.row.idPayment) Payment.failed)
      (corrections : db'.corrections = db.corrections) :
      Settles db (.resolveReconciliation id user dto now) db'

section Calls

variable {db db' : Db}

/-- Whatever leaves the sales alone and the payments settles nothing. -/
theorem SameSales.settles {op : Op} (h : SameSales db db')
    (hpayments : db'.payments = db.payments) : Settles db op db' :=
  .alone h.transactions hpayments h.corrections

/-- Only `correctTransaction` writes to the corrections. -/
theorem Settles.corrections_cases {op : Op} (h : Settles db op db') :
    db'.corrections = db.corrections ∨ ∃ user id dto now t,
      Transactions.correctTransactionRead db user id = .ok t ∧
        Transactions.correctTransactionWrite db user t dto now = .ok db' := by
  cases h with
  | alone _ _ hcs => exact Or.inl hcs
  | sold _ _ _ _ _ _ hcs => exact Or.inl hcs
  | moved _ _ _ _ _ hcs => exact Or.inl hcs
  | failed _ _ _ _ hcs => exact Or.inl hcs
  | corrected t read write => exact Or.inr ⟨_, _, _, _, t, read, write⟩

theorem createSyncQueue_payments {row : SyncQueue} (h : db.createSyncQueue row = .ok db') :
    db'.payments = db.payments := by
  obtain ⟨-, -, qs, -, rfl⟩ := createSyncQueue_eq_ok.mp h
  rfl

theorem createReconciliation_settles {op : Op} {row : Reconciliation}
    (h : db.createReconciliation row = .ok db') : Settles db op db' := by
  obtain ⟨-, -, rs, -, rfl⟩ := createReconciliation_eq_ok.mp h
  exact .alone rfl rfl rfl

/-- What a resolution does. -/
theorem resolveWrite_settles {id : Ident} {user : JwtPayload} {r : FoundReconciliation}
    {dto : ResolveReconciliationDto} {now : DateTime} (hfound : db.findReconciliation id = some r)
    (h : Reconciliations.resolveWrite db id user r dto now = .ok db') :
    Settles db (.resolveReconciliation id user dto now) db' := by
  obtain ⟨-, ⟨-, rfl⟩ | ⟨-, -, rfl⟩ | ⟨-, -, rfl⟩⟩ := resolveWrite_cases h
  · exact .alone rfl rfl rfl
  · exact .failed r hfound (Or.inl rfl) rfl rfl
  · exact .failed r hfound (Or.inr rfl) rfl rfl

theorem resolveRead_found {id : Ident} {user : JwtPayload} {r : FoundReconciliation}
    (h : Reconciliations.resolveRead db id user = .ok r) : db.findReconciliation id = some r := by
  unfold Reconciliations.resolveRead at h
  simp only [bind_eq_ok, orThrow_eq_ok, require_eq_ok, pure_eq_ok, exists_const] at h
  obtain ⟨_, hr, -, -, rfl⟩ := h
  exact hr

/-- **The inversion of a call**, for the payments. -/
theorem exec_settles (db : Db) (op : Op) : Settles db op (exec db op) := by
  cases op with
  | sync data outcome =>
    show Settles db _ (handleItem db data outcome)
    obtain ⟨db₁, h₁, h₂⟩ := handleItem_cases db data outcome
    have hrest : (handleItem db data outcome).payments = db₁.payments ∧
        SameSales db₁ (handleItem db data outcome) := by
      rcases h₂ with h₂ | ⟨e, h₂⟩
      · rw [h₂]
        exact ⟨rfl, .refl db₁⟩
      · exact ⟨createSyncQueue_payments h₂, createSyncQueue_sameSales h₂⟩
    rcases h₁ with rfl | h₁
    · exact hrest.2.settles hrest.1
    · obtain ⟨-, d, created, sale⟩ := processTransaction_stored h₁
      refine .sold d created h₁ sale hrest.2.transactions hrest.1 ?_
      rw [hrest.2.corrections, sale.frame]
  | voidTransaction user id reason now =>
    refine commit_rule (.alone rfl rfl rfl) fun db' h => ?_
    obtain ⟨t, -, h⟩ := bind_eq_ok.mp h
    obtain ⟨-, -, rfl⟩ := updateTransaction_eq_ok.mp h
    exact .moved t.row.idTransaction _ moved_voided rfl rfl rfl
  | resolveConflict user id dto now =>
    refine commit_rule (.alone rfl rfl rfl) fun db' h => ?_
    obtain ⟨t, -, h⟩ := bind_eq_ok.mp h
    cases haction : dto.action with
    | CONFIRM =>
      have hforced := resolveConflictWrite_confirm haction h
      exact .moved t.row.idTransaction (Transaction.confirmed now) (fun _ => rfl)
        hforced.transactions (by rw [hforced.frame]) (by rw [hforced.frame])
    | VOID =>
      rw [resolveConflictWrite_void haction h]
      exact .moved t.row.idTransaction (Transaction.conflictVoided user dto.notes now)
        (fun _ => rfl) rfl rfl rfl
  | correctTransaction user id dto now =>
    refine commit_rule (.alone rfl rfl rfl) fun db' h => ?_
    obtain ⟨t, hread, h⟩ := bind_eq_ok.mp h
    exact .corrected t hread h
  | createReconciliation user dto now =>
    refine commit_rule (.alone rfl rfl rfl) fun db' h => ?_
    obtain ⟨_, -, h⟩ := bind_eq_ok.mp h
    exact createReconciliation_settles h
  | reconcilePayment user paymentId dto now =>
    refine commit_rule (.alone rfl rfl rfl) fun db' h => ?_
    obtain ⟨_, -, h⟩ := bind_eq_ok.mp h
    exact createReconciliation_settles h
  | resolveReconciliation id user dto now =>
    refine commit_rule (.alone rfl rfl rfl) fun db' h => ?_
    obtain ⟨r, hread, h⟩ := bind_eq_ok.mp h
    exact resolveWrite_settles (resolveRead_found hread) h
  | register | createUser | updateUserStatus | createDevice | pairDevice | removeDevice
  | createProduct | updateProduct | removeProduct | adjustStock =>
    rw [exec_outsideSales rfl]
    exact .alone rfl rfl rfl

/-! ## What was sold -/

/-- A call enters lines of the next transaction only. -/
theorem exec_details (db : Db) (op : Op) : ∃ ds, (exec db op).details = db.details ++ ds ∧
    ∀ d ∈ ds, d.idTransaction = db.newId := by
  have heffect := exec_effect db op
  generalize exec db op = db' at heffect
  cases heffect with
  | alone same => exact ⟨[], same.entered.details, fun _ h => nomatch h⟩
  | adjusted product own moved => exact ⟨[], moved.entered.details, fun _ h => nomatch h⟩
  | synced d created sale rest =>
    exact ⟨_, rest.details.trans sale.entered.details, saleDetails_named⟩
  | voided t read => exact ⟨[], (List.append_nil _).symm, fun _ h => nomatch h⟩
  | confirmed t read forced => exact ⟨[], forced.entered.details, fun _ h => nomatch h⟩
  | conflictVoided t read => exact ⟨[], (List.append_nil _).symm, fun _ h => nomatch h⟩
  | corrected t read written => exact ⟨_, written.entered.details, correctionDetails_named⟩
  | invalidated r found live rest =>
    exact ⟨[], rest.details.trans (List.append_nil _).symm, fun _ h => nomatch h⟩

/-- The next id is not that of a transaction. -/
theorem ne_newId (hwired : Wired db) {t : Transaction} (ht : t ∈ db.transactions.rows) :
    t.idTransaction ≠ db.newId := by
  intro h
  have hold := (hwired.transactions t ht).1
  rw [h] at hold
  exact not_old_newId db hold

/-- The lines of the transactions that are there stay as they are. -/
theorem exec_detailsOf (hwired : Wired db) (op : Op) {t : Transaction}
    (ht : t ∈ db.transactions.rows) :
    (exec db op).detailsOf t.idTransaction = db.detailsOf t.idTransaction := by
  obtain ⟨ds, hds, hnamed⟩ := exec_details db op
  unfold Db.detailsOf
  rw [hds, List.filter_append, List.append_right_eq_self, List.filter_eq_nil_iff]
  intro d hd
  rw [hnamed d hd, decide_eq_true_eq]
  exact (ne_newId hwired ht).symm

/-- A transaction that is there only moves in its lifecycle. -/
theorem exec_moved (db : Db) (op : Op) {t : Transaction} (ht : t ∈ db.transactions.rows) :
    ∃ t' ∈ (exec db op).transactions.rows, t.Moved t' := by
  have hupdate : ∀ {ts : Table Transaction} {i : Ident} {f : Rewrite Transaction},
      (∀ s : Transaction, s.Moved (f s)) → t ∈ ts.rows →
        ∃ t' ∈ (ts.update (.id i) f).rows, t.Moved t' := by
    intro ts i f hf hmem
    by_cases hkey : TransactionKey.id i ∈ UniqueKeys.keys t
    · exact ⟨f t, Table.mem_update_iff.mpr (Or.inl ⟨t, hmem, hkey, rfl⟩), hf t⟩
    · exact ⟨t, Table.mem_update_of_not_mem hmem hkey, .refl t⟩
  have hsettles := exec_settles db op
  generalize exec db op = db' at hsettles
  cases hsettles with
  | alone hts =>
    rw [hts]
    exact ⟨t, ht, .refl t⟩
  | sold d created stored sale hts =>
    rw [hts]
    exact ⟨t, (Table.mem_insert sale.insertable.header).mpr (Or.inl ht), .refl t⟩
  | moved i f hf hts =>
    rw [hts]
    exact hupdate hf ht
  | corrected s read write =>
    obtain ⟨ts, hins, hts⟩ := (correctTransactionWrite_corrected write).transactions
    rw [hts]
    exact hupdate moved_voided ((Table.mem_insert hins).mpr (Or.inl ht))
  | failed r found hts =>
    rcases hts with hts | hts
    · rw [hts]
      exact ⟨t, ht, .refl t⟩
    · rw [hts]
      exact hupdate moved_voided ht

end Calls

/-! ## Payments and their transactions -/

/-- `R` holds of each payment and its transaction. -/
def Db.Paired (R : Payment → Transaction → Prop) (db : Db) : Prop :=
  ∀ p ∈ db.payments.rows, ∀ t ∈ db.transactions.rows, t.idTransaction = p.idTransaction → R p t

section Paired

variable {R : Payment → Transaction → Prop} {db db' : Db}

/-- A transaction moves in its lifecycle. -/
theorem Db.Paired.moved (hdb : db.Paired R) (hR : ∀ p t t', t.Moved t' → R p t → R p t')
    {i : Ident} {f : Rewrite Transaction} (hf : ∀ t : Transaction, t.Moved (f t))
    (hts : db'.transactions = db.transactions.update (.id i) f)
    (hps : db'.payments = db.payments) : db'.Paired R := by
  intro p hp t ht hpt
  rw [hps] at hp
  rw [hts] at ht
  rcases Table.mem_update_iff.mp ht with ⟨s, hs, -, rfl⟩ | ⟨ht, -⟩
  · refine hR p s _ (hf s) (hdb p hp s hs ?_)
    rw [← hpt, hf s]
  · exact hdb p hp t ht hpt

/-- A payment fails. -/
theorem Db.Paired.failed (hdb : db.Paired R) (hR : ∀ p t, R p t → R (Payment.failed p) t)
    {i : Ident} (hts : db'.transactions = db.transactions)
    (hps : db'.payments = db.payments.update (.id i) Payment.failed) : db'.Paired R := by
  intro p hp t ht hpt
  rw [hps] at hp
  rw [hts] at ht
  rcases Table.mem_update_iff.mp hp with ⟨q, hq, -, rfl⟩ | ⟨hp, -⟩
  · exact hR q t (hdb q hq t ht hpt)
  · exact hdb p hp t ht hpt

/-- A new transaction is added, perhaps with its payment. -/
theorem Db.Paired.added (hdb : db.Paired R) (hwired : Wired db) {row : Transaction}
    (hts : db.transactions.insert row = some db'.transactions)
    (hps : db'.payments = db.payments ∨ ∃ q, db.payments.insert q = some db'.payments ∧
      q.idTransaction = row.idTransaction ∧ R q row) : db'.Paired R := by
  have hfresh : ∀ t ∈ db.transactions.rows, t.idTransaction ≠ row.idTransaction := by
    intro t ht heq
    exact Table.free_of_insert hts ht List.mem_cons_self (id_mem_keys.mpr heq)
  -- the old payments are of old transactions
  have hold : ∀ p ∈ db.payments.rows, p.idTransaction ≠ row.idTransaction := by
    intro p hp heq
    obtain ⟨t, ht, hid⟩ := Table.has_iff.mp (hwired.payments p hp).2
    exact hfresh t ht ((id_mem_keys.mp hid).trans heq)
  have hpays : ∀ p ∈ db'.payments.rows, p ∈ db.payments.rows ∨
      p.idTransaction = row.idTransaction ∧ R p row := by
    intro p hp
    rcases hps with hps | ⟨q, hps, hq⟩
    · exact Or.inl (hps ▸ hp)
    · rcases (Table.mem_insert hps).mp hp with hp | rfl
      · exact Or.inl hp
      · exact Or.inr hq
  intro p hp t ht hpt
  rcases (Table.mem_insert hts).mp ht with ht | rfl
  · rcases hpays p hp with hp | ⟨hid, -⟩
    · exact hdb p hp t ht hpt
    · exact absurd (hpt.trans hid) (hfresh t ht)
  · rcases hpays p hp with hp | ⟨-, hR⟩
    · exact absurd hpt.symm (hold p hp)
    · exact hR

/-- The payment of a sale or of a correction, and its transaction. -/
inductive NewlyPaid (db : Db) : Op → Payment → Transaction → Prop
  | sold {data : QueuedTransaction} {outcome : ItemOutcome} (mid : Db) (d : Device)
      (hasConflict : Bool) (createdAtLocal : DateTime)
      (stored : ∃ db', processTransaction db data outcome.now = .ok db') :
      NewlyPaid db (.sync data outcome)
        (paymentRow mid db.newId d.idMerchant data.payment outcome.now).stored
        (headerRow db data d hasConflict createdAtLocal outcome.now).stored
  | corrected {user : JwtPayload} {id : Ident} {dto : CorrectTransactionDto} {now : DateTime}
      (mid : Db) (t : FoundTransaction) (p : Payment)
      (read : Transactions.correctTransactionRead db user id = .ok t)
      (write : ∃ db', Transactions.correctTransactionWrite db user t dto now = .ok db')
      (payment : t.payment = some p) :
      NewlyPaid db (.correctTransaction user id dto now)
        (clonedPayment mid t p db.newId dto.total now).stored (correctedRow db t dto now).stored

/-- **What a call keeps of payments and their transactions**: what lifecycles do not change, if it
holds of a new payment and its transaction. -/
theorem Db.Paired.exec (hdb : db.Paired R) (hwired : Wired db) {op : Op}
    (hmoved : ∀ p t t', t.Moved t' → R p t → R p t')
    (hfailed : ∀ p t, R p t → R (Payment.failed p) t)
    (hnew : ∀ p t, NewlyPaid db op p t → R p t) : (exec db op).Paired R := by
  have hsettles := exec_settles db op
  generalize KPos.exec db op = db' at hsettles
  cases hsettles with
  | alone hts hps hcs =>
    unfold Db.Paired
    rw [hts, hps]
    exact hdb
  | moved i f hf hts hps hcs => exact hdb.moved hmoved hf hts hps
  | failed r found hts hps hcs =>
    have hrejected : Db.Paired R { db with payments := db'.payments } := hdb.failed hfailed rfl hps
    rcases hts with hts | hts
    · unfold Db.Paired
      rw [hts]
      exact hrejected
    · exact hrejected.moved hmoved moved_voided hts rfl
  | sold d created stored sale hts hps hcs =>
    have hins := sale.insertable.header
    have hpay := sale.insertable.payment
    rw [← hts] at hins
    rw [← hps] at hpay
    exact hdb.added hwired hins (Or.inr ⟨_, hpay, rfl, hnew _ _ (.sold _ d _ created ⟨_, stored⟩)⟩)
  | @corrected user id dto now _ t hread hwrite =>
    obtain ⟨ts, hins, hts⟩ := (correctTransactionWrite_corrected hwrite).transactions
    have hadded : Db.Paired R { db with transactions := ts, payments := db'.payments } := by
      refine hdb.added hwired hins ?_
      rcases correctTransactionWrite_cloned hwrite with ⟨-, hps⟩ | ⟨p, mid, hp, hps⟩
      · exact Or.inl hps
      · exact Or.inr ⟨_, hps, rfl, hnew _ _ (.corrected mid t p hread ⟨db', hwrite⟩ hp)⟩
    exact hadded.moved hmoved moved_voided hts rfl

end Paired

end KPos
