/-
# Rows of one merchant refer to rows of the same merchant

The services look rows up by ids that come from elsewhere, and include what the foreign keys
lead to.  That this stays within one merchant is an invariant of the server: it rests on what
the guards and the pipe let in, and on the tests of every service together.

* `Db.Employs`, `Db.paymentMerchant` : whose accounts and whose payments;
* `Separate` : the rows that include each other are of one merchant;
* `Separate.exec` : what a call keeps, `ServerReaches.separate` : what holds of a server.
-/
import KPos.Histories
import KPos.Invalidations
import KPos.Sessions

namespace KPos

/-! ## Owners -/

/-- The merchant has an account with the id. -/
def Db.Employs (db : Db) (m i : Ident) : Prop :=
  ∃ u ∈ db.users.rows, u.idUser = i ∧ u.idMerchant = some m

/-- The merchant of a payment. -/
def Db.paymentMerchant (db : Db) (i : Ident) : Option Ident :=
  (db.payments.findUnique (.id i)).map (·.idMerchant)

/-- The payment of a case is a merchant's, and so are the users who opened and resolved it. -/
def Db.CaseOwned (db : Db) (r : Reconciliation) : Prop :=
  ∃ m, db.paymentMerchant r.idPayment = some m ∧ db.Employs m r.openedBy ∧
    ∀ i, r.resolvedBy = some i → db.Employs m i

/-- Rows that include each other are of one merchant: payments and their transactions,
corrections and what they link, cases with their payments and their users.  Lines and failures
have the transaction and the device that they name. -/
structure Separate (db : Db) : Prop where
  wired : Wired db
  addressed : Addressed db
  bridges : Bridges db
  cases : ∀ r ∈ db.reconciliations.rows, db.CaseOwned r
  details : ∀ d ∈ db.details, db.transactions.has (.id d.idTransaction) = true
  failures : ∀ q ∈ db.syncQueues.rows, db.devices.has (.id q.idDevice) = true

/-- A call about a case is made by an account of the merchant, and an item has passed the
validation pipe. -/
def wellSent (db : Db) : Op → Prop
  | .sync data _ => data.Valid
  | .createReconciliation user _ _ | .reconcilePayment user _ _ _
  | .resolveReconciliation _ user _ _ => db.Employs user.idMerchant user.sub
  | _ => True

section Calls

variable {db db' : Db} {m i : Ident}

theorem paymentMerchant_of_mem {p : Payment} (hp : p ∈ db.payments.rows) :
    db.paymentMerchant p.idPayment = some p.idMerchant := by
  unfold Db.paymentMerchant
  rw [Table.findUnique_eq_some.mpr ⟨hp, payment_id_mem_keys.mpr rfl⟩]
  rfl

/-! ## What stays -/

/-- Accounts stay, with their ids, roles and merchants. -/
theorem exec_accounts (db : Db) (op : Op) {u : User} (hu : u ∈ db.users.rows) :
    ∃ v ∈ (exec db op).users.rows, v.payload = u.payload := by
  cases op with
  | register dto hashed =>
    rcases register_rows db dto hashed with hsame | ⟨ms, us, -, hus, hdb⟩
    · rw [hsame]
      exact ⟨u, hu, rfl⟩
    · rw [hdb]
      exact ⟨u, (Table.mem_insert hus).mpr (Or.inl hu), rfl⟩
  | createUser owner dto hashed =>
    rcases createUser_users db owner dto hashed with hsame | hinsert
    · rw [hsame]
      exact ⟨u, hu, rfl⟩
    · exact ⟨u, (Table.mem_insert hinsert).mpr (Or.inl hu), rfl⟩
  | updateUserStatus target owner isActive =>
    rcases updateStatus_users db target owner isActive with hsame | ⟨_, -, -, -, hupdate⟩
    · rw [hsame]
      exact ⟨u, hu, rfl⟩
    · rw [hupdate]
      by_cases hkey : UserKey.id target ∈ UniqueKeys.keys u
      · exact ⟨_, Table.mem_update_iff.mpr (Or.inl ⟨u, hu, hkey, rfl⟩), rfl⟩
      · exact ⟨u, Table.mem_update_of_not_mem hu hkey, rfl⟩
  | _ =>
    refine ⟨u, ?_, rfl⟩
    rw [exec_onlyIn _ _ .user (by simp [Op.tables])]
    exact hu

theorem Db.Employs.exec (h : db.Employs m i) (op : Op) : (exec db op).Employs m i := by
  obtain ⟨u, hu, rfl, hm⟩ := h
  obtain ⟨v, hv, hpayload⟩ := exec_accounts db op hu
  exact ⟨v, hv, congrArg TokenPayload.sub hpayload,
    (congrArg TokenPayload.idMerchant hpayload).trans hm⟩

/-- Payments stay with their merchants. -/
theorem exec_paymentMerchant (h : db.paymentMerchant i = some m) (op : Op) :
    (exec db op).paymentMerchant i = some m := by
  have hsettles := exec_settles db op
  generalize exec db op = db' at hsettles
  unfold Db.paymentMerchant at h ⊢
  cases hsettles with
  | alone hts hps hcs => rwa [hps]
  | moved j f hf hts hps hcs => rwa [hps]
  | failed r found hts hps hcs =>
    rw [hps]
    exact Table.map_findUnique_update (fun _ => rfl) h
  | sold d created stored sale hts hps hcs =>
    rw [hps]
    exact Table.map_findUnique_insert sale.insertable.payment h
  | corrected t read write =>
    rcases correctTransactionWrite_cloned write with ⟨-, hps⟩ | ⟨p, mid, -, hps⟩
    · rwa [hps]
    · exact Table.map_findUnique_insert hps h

theorem Db.CaseOwned.exec {r : Reconciliation} (h : db.CaseOwned r) (op : Op) :
    (exec db op).CaseOwned r := by
  obtain ⟨m, hpay, hopened, hresolved⟩ := h
  exact ⟨m, exec_paymentMerchant hpay op, hopened.exec op, fun i hi => (hresolved i hi).exec op⟩

/-- The merchant of the new transaction of a correction. -/
theorem Corrected.seller {user : JwtPayload} {t : FoundTransaction} {dto : CorrectTransactionDto}
    {now : DateTime} (written : Corrected db db' user t dto now) :
    db'.transactionMerchant db.newId = some t.row.idMerchant := by
  obtain ⟨ts, hins, hts⟩ := written.transactions
  unfold Db.transactionMerchant
  rw [hts]
  exact Table.map_findUnique_update (fun _ => rfl) (merchant_insert hins)

/-! ## Cases -/

/-- The payment of a case that is opened through its transaction. -/
theorem createRead_payment (hdb : Addressed db) {user : JwtPayload} {dto : CreateReconciliationDto}
    {p : Payment} (h : Reconciliations.createRead db user dto = .ok p) :
    p ∈ db.payments.rows ∧ p.idMerchant = user.idMerchant := by
  unfold Reconciliations.createRead at h
  simp only [bind_eq_ok, orThrow_eq_ok, require_eq_ok, pure_eq_ok, decide_eq_true_eq,
    exists_const] at h
  obtain ⟨t, hfound, hm, q, hq, -, rfl⟩ := h
  obtain ⟨hcur, -⟩ := findTransaction_eq_some hfound
  rw [hcur.payment] at hq
  obtain ⟨hmem, hkey⟩ := Table.findUnique_eq_some.mp hq
  have hid : q.idTransaction = t.row.idTransaction := by
    simpa [UniqueKeys.keys, eq_comm] using hkey
  exact ⟨hmem, (hdb.merchants q hmem t.row hcur.row hid.symm).symm.trans hm⟩

/-- The payment of a case that is opened directly. -/
theorem reconcileRead_payment {user : JwtPayload} {paymentId : Ident} {p : Payment}
    (h : Payments.reconcileRead db user paymentId = .ok p) :
    p ∈ db.payments.rows ∧ p.idMerchant = user.idMerchant := by
  unfold Payments.reconcileRead at h
  simp only [bind_eq_ok, orThrow_eq_ok, require_eq_ok, pure_eq_ok, decide_eq_true_eq,
    exists_const] at h
  obtain ⟨q, hq, hm, -, rfl⟩ := h
  exact ⟨(Table.findUnique_eq_some.mp hq).1, hm⟩

/-- The case that is opened is the payment's and the user's. -/
theorem opened_caseOwned {user : JwtPayload} {p : Payment} {dto : CreateReconciliationDto}
    {now : DateTime} (hp : p ∈ db.payments.rows ∧ p.idMerchant = user.idMerchant)
    (huser : db.Employs user.idMerchant user.sub) :
    db.CaseOwned (openCase db user p.idPayment dto now) := by
  refine ⟨user.idMerchant, ?_, huser, fun _ h => nomatch h⟩
  rw [← hp.2]
  exact paymentMerchant_of_mem hp.1

/-- A case that is inserted by a call. -/
theorem cases_insert (hdb : ∀ r ∈ db.reconciliations.rows, db.CaseOwned r) {row : Reconciliation}
    (hrow : db.CaseOwned row) (h : db.createReconciliation row = .ok db') :
    ∀ r ∈ db'.reconciliations.rows, db.CaseOwned r := by
  obtain ⟨-, -, rs, hrs, rfl⟩ := createReconciliation_eq_ok.mp h
  intro r hr
  rcases (Table.mem_insert hrs).mp hr with hr | rfl
  · exact hdb r hr
  · exact hrow

theorem resolveRead_merchant {id : Ident} {user : JwtPayload} {r : FoundReconciliation}
    (h : Reconciliations.resolveRead db id user = .ok r) :
    r.payment.idMerchant = user.idMerchant := by
  unfold Reconciliations.resolveRead at h
  simp only [bind_eq_ok, orThrow_eq_ok, require_eq_ok, pure_eq_ok, decide_eq_true_eq,
    exists_const] at h
  obtain ⟨_, -, hm, -, rfl⟩ := h
  exact hm

/-- A case that is resolved by an account of the merchant. -/
theorem cases_resolve (hdb : ∀ r ∈ db.reconciliations.rows, db.CaseOwned r) {id : Ident}
    {user : JwtPayload} {r : FoundReconciliation} {dto : ResolveReconciliationDto}
    {now : DateTime} (huser : db.Employs user.idMerchant user.sub)
    (hread : Reconciliations.resolveRead db id user = .ok r)
    (h : Reconciliations.resolveWrite db id user r dto now = .ok db') :
    ∀ r ∈ db'.reconciliations.rows, db.CaseOwned r := by
  intro s hs
  rw [resolveWrite_reconciliations h] at hs
  rcases Table.mem_update_iff.mp hs with ⟨old, hold, hkey, rfl⟩ | ⟨hs, -⟩
  · -- the row that is written is the one that was read
    have hfound := resolveRead_found hread
    obtain ⟨hid, hpay, -⟩ := findReconciliation_links hfound
    obtain ⟨hrow, hpayment, -⟩ := findReconciliation_eq_some hfound
    obtain rfl : old = r.row :=
      Table.eq_of_key hold hrow hkey (reconciliation_id_mem_keys.mpr hid)
    obtain ⟨m, hm, hopened, -⟩ := hdb r.row hrow
    have hown : db.paymentMerchant r.row.idPayment = some user.idMerchant := by
      rw [← hpay, paymentMerchant_of_mem hpayment, resolveRead_merchant hread]
    obtain rfl : user.idMerchant = m := Option.some.inj (hown.symm.trans hm)
    refine ⟨user.idMerchant, hm, hopened, fun i hi => ?_⟩
    obtain rfl := Option.some.inj hi
    exact huser
  · exact hdb s hs

/-- **Cases stay within a merchant.** -/
theorem cases_exec (hdb : ∀ r ∈ db.reconciliations.rows, db.CaseOwned r) (haddr : Addressed db)
    {op : Op} (hop : wellSent db op) : ∀ r ∈ (exec db op).reconciliations.rows, db.CaseOwned r := by
  cases op with
  | createReconciliation user dto now =>
    refine commit_rule (P := fun db' => ∀ r ∈ db'.reconciliations.rows, db.CaseOwned r) hdb
      fun db' h => ?_
    obtain ⟨p, hread, h⟩ := bind_eq_ok.mp h
    exact cases_insert hdb (opened_caseOwned (createRead_payment haddr hread) hop) h
  | reconcilePayment user paymentId dto now =>
    refine commit_rule (P := fun db' => ∀ r ∈ db'.reconciliations.rows, db.CaseOwned r) hdb
      fun db' h => ?_
    obtain ⟨p, hread, h⟩ := bind_eq_ok.mp h
    exact cases_insert hdb (opened_caseOwned (reconcileRead_payment hread) hop) h
  | resolveReconciliation id user dto now =>
    refine commit_rule (P := fun db' => ∀ r ∈ db'.reconciliations.rows, db.CaseOwned r) hdb
      fun db' h => ?_
    obtain ⟨r, hread, h⟩ := bind_eq_ok.mp h
    exact cases_resolve hdb hop hread h
  | _ =>
    rw [exec_reconciliations rfl]
    exact hdb

/-! ## Lines and failures -/

/-- Lines are entered with the transaction that they name. -/
theorem details_exec (hdb : ∀ d ∈ db.details, db.transactions.has (.id d.idTransaction) = true)
    (op : Op) :
    ∀ d ∈ (exec db op).details, (exec db op).transactions.has (.id d.idTransaction) = true := by
  have hgrows := exec_grows db op
  have heffect := exec_effect db op
  generalize exec db op = db' at hgrows heffect
  have hold : ∀ d ∈ db.details, db'.transactions.has (.id d.idTransaction) = true :=
    fun d hd => hgrows.transactions _ (hdb d hd)
  cases heffect with
  | alone same _ _ =>
    rw [same.details]
    exact hold
  | adjusted product _ moved _ =>
    rw [moved.entered.details, List.append_nil]
    exact hold
  | @synced data outcome db₁ _ d created sale rest =>
    rw [rest.details, sale.entered.details, rest.transactions]
    rw [rest.transactions] at hold
    intro d' hd'
    rcases List.mem_append.mp hd' with hd' | hd'
    · exact hold d' hd'
    · rw [saleDetails_named d' hd']
      exact (Table.has_of_insert sale.insertable.header).mpr (Or.inr (id_mem_keys.mpr rfl))
  | voided t read => exact hold
  | confirmed t read forced =>
    rw [forced.entered.details, List.append_nil]
    exact hold
  | conflictVoided t read => exact hold
  | @corrected user id dto now _ t read written =>
    rw [written.entered.details]
    intro d' hd'
    rcases List.mem_append.mp hd' with hd' | hd'
    · exact hold d' hd'
    · rw [correctionDetails_named d' hd']
      obtain ⟨ts, hins, hts⟩ := written.transactions
      rw [hts, Table.has_update]
      exact (Table.has_of_insert hins).mpr (Or.inr (id_mem_keys.mpr rfl))
  | invalidated r found live rest _ =>
    show ∀ d ∈ _, _
    rw [show (Db.relabel _ _ _).details = db.details from rest.details]
    exact hold

/-- Failures are noted for devices that exist. -/
theorem failures_exec (hdb : ∀ q ∈ db.syncQueues.rows, db.devices.has (.id q.idDevice) = true)
    (op : Op) :
    ∀ q ∈ (exec db op).syncQueues.rows, (exec db op).devices.has (.id q.idDevice) = true := by
  intro q hq
  refine (exec_grows db op).has_device ?_
  cases op with
  | sync data outcome =>
    have hq : q ∈ (handleItem db data outcome).syncQueues.rows := hq
    obtain ⟨db₁, h₁, h₂⟩ := handleItem_cases db data outcome
    have hsame : db₁.syncQueues = db.syncQueues ∧ db₁.devices = db.devices := by
      rcases h₁ with rfl | h₁
      · exact ⟨rfl, rfl⟩
      · obtain ⟨-, d, created, hstored⟩ := processTransaction_stored h₁
        rw [hstored.frame]
        exact ⟨rfl, rfl⟩
    rcases h₂ with h₂ | ⟨_, h₂⟩
    · rw [h₂, hsame.1] at hq
      exact hdb q hq
    · obtain ⟨hdevice, -, qs, hqs, hdb'⟩ := createSyncQueue_eq_ok.mp h₂
      rw [hdb'] at hq
      rcases (Table.mem_insert hqs).mp hq with hq | rfl
      · rw [hsame.1] at hq
        exact hdb q hq
      · rw [hsame.2] at hdevice
        exact hdevice
  | _ =>
    rw [exec_syncQueues rfl] at hq
    exact hdb q hq

/-- **What a call keeps.** -/
theorem Separate.exec (hdb : Separate db) {op : Op} (hop : wellSent db op) :
    Separate (exec db op) where
  wired := hdb.wired.exec op
  addressed := by
    refine hdb.addressed.exec hdb.wired ?_
    cases op with
    | sync data outcome => exact hop
    | _ => trivial
  bridges := hdb.bridges.exec hdb.wired op
  cases := fun r hr => (cases_exec hdb.cases hdb.addressed hop r hr).exec op
  details := details_exec hdb.details op
  failures := failures_exec hdb.failures op

theorem separate_withUsers (us : Table User) : Separate (Db.withUsers us) where
  wired := wired_withUsers us
  addressed := addressed_withUsers us
  bridges := bridges_withUsers us
  cases := fun _ hr => nomatch hr
  details := fun _ hd => nomatch hd
  failures := fun _ hq => nomatch hq

/-- What is about tokens and failures alone keeps the rest. -/
theorem Separate.frame (hdb : Separate db) {rts : Table RefreshToken} {qs : Table SyncQueue} {n : ℕ}
    (hn : db.seq ≤ n) (hqs : ∀ q ∈ qs.rows, (∃ r ∈ db.syncQueues.rows, r.id = q.id ∧
      r.idDevice = q.idDevice) ∨
        q.id = db.newId ∧ db.seq < n ∧ db.devices.has (.id q.idDevice) = true) :
    Separate { db with refreshTokens := rts, syncQueues := qs, seq := n } where
  wired :=
    { devices := hdb.wired.devices
      transactions := fun t ht =>
        ⟨(hdb.wired.transactions t ht).1.mono hn, (hdb.wired.transactions t ht).2⟩
      payments := fun p hp => ⟨(hdb.wired.payments p hp).1.mono hn, (hdb.wired.payments p hp).2⟩
      syncQueues := by
        intro q hq
        rcases hqs q hq with ⟨r, hr, hid, -⟩ | ⟨hid, hseq, -⟩
        · rw [← hid]
          exact (hdb.wired.syncQueues r hr).mono hn
        · rw [hid]
          exact old_newId hseq }
  addressed := ⟨hdb.addressed.merchants, hdb.addressed.uuids⟩
  bridges := by
    intro c hc
    obtain ⟨hold, hnew, hrest⟩ := hdb.bridges c hc
    exact ⟨hold.mono hn, hnew.mono hn, hrest⟩
  cases := hdb.cases
  details := hdb.details
  failures := by
    intro q hq
    rcases hqs q hq with ⟨r, hr, -, hdevice⟩ | ⟨-, -, hdevice⟩
    · rw [← hdevice]
      exact hdb.failures r hr
    · exact hdevice

/-- The failures after a terminal failure: those that were there, perhaps a new one. -/
theorem recordTerminalFailure_rows (db : Db) (data : QueuedTransaction) (outcome : DlqOutcome) :
    ∀ q ∈ (recordTerminalFailure db data outcome).syncQueues.rows,
      (∃ r ∈ db.syncQueues.rows, r.id = q.id ∧ r.idDevice = q.idDevice) ∨
        q.id = db.newId ∧ db.seq < (recordTerminalFailure db data outcome).seq ∧
          db.devices.has (.id q.idDevice) = true := by
  unfold recordTerminalFailure
  split
  · rcases call_run_cases outcome.write db
      (writeTerminalFailure db data (db.findNoted data) outcome.now) with ⟨hdb, -⟩ | ⟨h, -⟩
    · rw [hdb]
      exact fun q hq => Or.inl ⟨q, hq, rfl, rfl⟩
    · generalize (outcome.write.run db _).1 = db' at h
      unfold writeTerminalFailure at h
      intro q hq
      split at h
      · obtain ⟨-, rfl⟩ := updateSyncQueue_eq_ok.mp h
        rcases Table.mem_update_iff.mp hq with ⟨r, hr, -, rfl⟩ | ⟨hq, -⟩
        · exact Or.inl ⟨r, hr, rfl, rfl⟩
        · exact Or.inl ⟨q, hq, rfl, rfl⟩
      · obtain ⟨hdevice, -, qs, hqs, rfl⟩ := createSyncQueue_eq_ok.mp h
        rcases (Table.mem_insert hqs).mp hq with hq | rfl
        · exact Or.inl ⟨q, hq, rfl, rfl⟩
        · exact Or.inr ⟨rfl, Nat.lt_succ_self _, hdevice⟩
  · exact fun q hq => Or.inl ⟨q, hq, rfl, rfl⟩
  · exact fun q hq => Or.inl ⟨q, hq, rfl, rfl⟩

end Calls

/-! ## Runs of the server -/

section Server

variable {env : ServerEnv} {us : Table User} {σ : Server} {a : ServerAction} {db' : Db}

/-- A user whose request was let in has an account in the merchant. -/
theorem Server.Genuine.employs (hσ : σ.Genuine env) {i : ℕ} {user : JwtPayload} {request : Request}
    (hi : σ.pending[i]? = some (user, request)) : σ.db.Employs user.idMerchant user.sub := by
  obtain ⟨⟨u, hu, hpayload⟩, -⟩ := hσ.pending _ (List.mem_of_getElem? hi)
  exact ⟨u, hu, congrArg TokenPayload.sub hpayload, congrArg TokenPayload.idMerchant hpayload⟩

/-- **What a step of the server keeps.** -/
theorem Server.Change.separate (h : σ.Change env a db') (hσ : σ.Genuine env)
    (hdb : Separate σ.db) : Separate db' := by
  cases h with
  | tokens write =>
    rw [write.frame]
    exact hdb.frame write.seq fun q hq => Or.inl ⟨q, hq, rfl, rfl⟩
  | registered => exact hdb.exec trivial
  | paired => exact hdb.exec trivial
  | served user request op hpending hop =>
    refine hdb.exec ?_
    have hemploys := hσ.employs hpending
    cases request with
    | syncTransactions idDevice batch publish => cases hop
    | createReconciliation dto | reconcile id dto | resolveReconciliation id dto =>
      obtain rfl := Option.some.inj hop
      exact hemploys
    | _ =>
      obtain rfl := Option.some.inj hop
      trivial
  | consumed item hpublished =>
    exact hdb.exec (hσ.published item (List.mem_of_getElem? hpublished))
  | @givenUp i retryAttempt outcome item hpublished =>
    have hrows := recordTerminalFailure_rows σ.db { item with retryAttempt := retryAttempt } outcome
    obtain ⟨qs, n, hn, heq⟩ := recordTerminalFailure_frame σ.db
      { item with retryAttempt := retryAttempt } outcome
    rw [heq] at hrows ⊢
    exact hdb.frame hn hrows

/-- **Rows stay with their merchants**, in every state of a server. -/
theorem ServerReaches.separate (h : ServerReaches env us σ) : Separate σ.db := by
  obtain ⟨_, hrun⟩ := h
  have hinv := hrun.invariant (fun σ => σ.Genuine env ∧ Separate σ.db)
    ⟨.start env us, separate_withUsers us⟩ fun _ _ _ hσ hunforged hnext =>
      ⟨hσ.1.next hunforged hnext, (Server.next_change hnext).separate hσ.1 hσ.2⟩
  exact hinv.2

end Server

end KPos
