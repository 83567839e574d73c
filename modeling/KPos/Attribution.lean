/-
# Who did it (the columns `id_user`, `voided_by`, `corrected_by`, `opened_by`, `resolved_by`)

The rows name the users who entered them, voided them and resolved them.  What they name is
taken from the access token of the request, and a till's sale names the user who created the
till.  That these columns can be relied on is an invariant of the server: whoever is named has an
account of the row's merchant, in a role that may do what is said of him.

* `Db.HasAccount` : accounts of a merchant in given roles;
* `Attributed` : every row names those who may have done it;
* `sanctioned` : a call is made by an account that may make it;
* `Attributed.exec` : what a call keeps, `attributed_reached` : what holds of a server.
-/
import KPos.Lifecycles
import KPos.Separation

namespace KPos

/-! ## Accounts -/

/-- The merchant has an account with the id, in one of the roles. -/
def Db.HasAccount (db : Db) (m : Ident) (roles : List UserRole) (i : Ident) : Prop :=
  ∃ u ∈ db.users.rows, u.idUser = i ∧ u.idMerchant = some m ∧ u.role ∈ roles

/-- The roles that enter a movement of stock by hand. -/
def StockMovementType.roles : StockMovementType → List UserRole
  | .SALE | .CORRECTION => [.OWNER]
  | .ADJUSTMENT => [.OWNER, .ENTRY]
  | .RETURN => []

/-! ## Rows -/

/-- The merchant of a till, and the user who created it. -/
def Db.tillOwner (db : Db) (i : Ident) : Option (Ident × Ident) :=
  (db.devices.findUnique (.id i)).map fun d => (d.idMerchant, d.idUser)

/-- A transaction names the user who created the till that it came from, the owner of its
merchant; a voided one names an account that may void. -/
structure Db.TransactionAttributed (db : Db) (t : Transaction) : Prop where
  till : db.tillOwner t.idDevice = some (t.idMerchant, t.idUser)
  user : db.HasAccount t.idMerchant [.OWNER] t.idUser
  voided : t.status = .VOIDED → t.voidedBy.isSome = true
  voidedBy : ∀ i, t.voidedBy = some i → db.HasAccount t.idMerchant [.OWNER, .OPERATOR] i

/-- The owner of the merchant made the correction. -/
def Db.CorrectionAttributed (db : Db) (c : TransactionCorrection) : Prop :=
  ∃ m, db.transactionMerchant c.idOldTransaction = some m ∧
    db.HasAccount m [.OWNER] c.correctedBy

/-- An account of the payment's merchant opened the case; once it is closed, it names the owner. -/
def Db.CaseAttributed (db : Db) (r : Reconciliation) : Prop :=
  ∃ m, db.paymentMerchant r.idPayment = some m ∧
    db.HasAccount m [.OWNER, .OPERATOR] r.openedBy ∧
    (r.status ≠ .OPEN → r.resolvedBy.isSome = true) ∧
    ∀ i, r.resolvedBy = some i → db.HasAccount m [.OWNER] i

/-- A movement is of the merchant of its transaction; it was entered by an account that may, or
it is a sale that the consumer entered. -/
def Db.MovementAttributed (db : Db) (h : StockHistory) : Prop :=
  ∃ m i, h.idMerchant = some m ∧ h.idUser = some i ∧
    (∀ t, h.idTransaction = some t → db.transactionMerchant t = some m) ∧
    (db.HasAccount m h.movementType.roles i ∨
      h.movementType = .SALE ∧ h.idTransaction.isSome = true ∧ i = systemSync)

/-- **Every row names those who may have done it.** -/
structure Attributed (db : Db) : Prop where
  devices : ∀ d ∈ db.devices.rows, db.HasAccount d.idMerchant [.OWNER] d.idUser
  transactions : ∀ t ∈ db.transactions.rows, db.TransactionAttributed t
  corrections : ∀ c ∈ db.corrections.rows, db.CorrectionAttributed c
  cases : ∀ r ∈ db.reconciliations.rows, db.CaseAttributed r
  movements : ∀ h ∈ db.stockHistories, db.MovementAttributed h

/-- The call is made by an account that may make it. -/
def sanctioned (db : Db) : Op → Prop
  | .createDevice m u _ _ _ => db.HasAccount m [.OWNER] u
  | .adjustStock user _ _ _ => db.HasAccount user.idMerchant [.OWNER, .ENTRY] user.sub
  | .voidTransaction user _ _ _ | .createReconciliation user _ _ =>
      db.HasAccount user.idMerchant [.OWNER, .OPERATOR] user.sub
  | .resolveConflict user _ _ _ | .correctTransaction user _ _ _ | .reconcilePayment user _ _ _
  | .resolveReconciliation _ user _ _ => db.HasAccount user.idMerchant [.OWNER] user.sub
  | _ => True

section Calls

variable {db db' : Db} {m i : Ident} {roles : List UserRole}

/-! ## What stays -/

/-- Accounts stay in their roles. -/
theorem Db.HasAccount.exec (h : db.HasAccount m roles i) (op : Op) :
    (exec db op).HasAccount m roles i := by
  obtain ⟨u, hu, rfl, hm, hrole⟩ := h
  obtain ⟨v, hv, hpayload⟩ := exec_accounts db op hu
  refine ⟨v, hv, congrArg TokenPayload.sub hpayload,
    (congrArg TokenPayload.idMerchant hpayload).trans hm, ?_⟩
  rw [show v.role = u.role from congrArg TokenPayload.role hpayload]
  exact hrole

theorem Db.HasAccount.mono {roles' : List UserRole} (h : db.HasAccount m roles i)
    (hsub : roles ⊆ roles') : db.HasAccount m roles' i := by
  obtain ⟨u, hu, hid, hm, hrole⟩ := h
  exact ⟨u, hu, hid, hm, hsub hrole⟩

/-- An update of a till keeps who created tills. -/
theorem tillOwner_update {f : Device → Device} {j : Ident} {x : Ident × Ident}
    (h : db.updateDevice j f = .ok db') (hid : ∀ d, (f d).idDevice = d.idDevice)
    (howner : ∀ d, ((f d).idMerchant, (f d).idUser) = (d.idMerchant, d.idUser))
    (hx : db.tillOwner i = some x) : db'.tillOwner i = some x := by
  obtain ⟨-, ds, hds, rfl⟩ := updateDevice_eq_ok.mp h
  refine Table.map_findUnique_replace hds (fun d => ?_) howner hx
  rw [device_id_mem_keys, device_id_mem_keys, hid]

/-- A till stays with the merchant and the user who created it. -/
theorem tillOwner_exec {x : Ident × Ident} (hx : db.tillOwner i = some x) (op : Op) :
    (exec db op).tillOwner i = some x := by
  cases op with
  | createDevice m u name code now =>
    refine commit_rule (P := fun db' => db'.tillOwner i = some x) hx fun db' h => ?_
    obtain ⟨-, -, ds, hds, rfl⟩ := createDevice_eq_ok.mp h
    exact Table.map_findUnique_insert hds hx
  | pairDevice code hash =>
    refine commit_rule (P := fun db' => db'.tillOwner i = some x) hx fun db' h => ?_
    obtain ⟨d, -, -, h⟩ := pairDevice_eq_ok h
    exact tillOwner_update h (fun _ => rfl) (fun _ => rfl) hx
  | removeDevice j m =>
    refine commit_rule (P := fun db' => db'.tillOwner i = some x) hx fun db' h => ?_
    obtain ⟨d, -, rfl, -, -, h⟩ := removeDevice_eq_ok h
    exact tillOwner_update h (fun _ => rfl) (fun _ => rfl) hx
  | _ =>
    unfold Db.tillOwner
    rw [exec_onlyIn _ _ .device (by simp [Op.tables])]
    exact hx

theorem Db.TransactionAttributed.exec {t : Transaction} (h : db.TransactionAttributed t) (op : Op) :
    (exec db op).TransactionAttributed t :=
  ⟨tillOwner_exec h.till op, h.user.exec op, h.voided, fun i hi => (h.voidedBy i hi).exec op⟩

theorem Db.CorrectionAttributed.exec {c : TransactionCorrection} (h : db.CorrectionAttributed c)
    (op : Op) : (exec db op).CorrectionAttributed c := by
  obtain ⟨m, hm, hby⟩ := h
  exact ⟨m, (exec_grows db op).sellers _ m hm, hby.exec op⟩

theorem Db.CaseAttributed.exec {r : Reconciliation} (h : db.CaseAttributed r) (op : Op) :
    (exec db op).CaseAttributed r := by
  obtain ⟨m, hm, hopened, hclosed, hresolved⟩ := h
  exact ⟨m, exec_paymentMerchant hm op, hopened.exec op, hclosed,
    fun i hi => (hresolved i hi).exec op⟩

theorem Db.MovementAttributed.exec {h : StockHistory} (hdb : db.MovementAttributed h) (op : Op) :
    (exec db op).MovementAttributed h := by
  obtain ⟨m, i, hm, hi, hseller, hby⟩ := hdb
  exact ⟨m, i, hm, hi, fun t ht => (exec_grows db op).sellers t m (hseller t ht),
    hby.imp_left fun hby => hby.exec op⟩

/-! ## Tills -/

/-- An update of a till keeps who created it. -/
theorem devices_update {f : Device → Device} {d : Device}
    (hdb : ∀ d ∈ db.devices.rows, db.HasAccount d.idMerchant [.OWNER] d.idUser)
    (hd : d ∈ db.devices.rows) (hm : (f d).idMerchant = d.idMerchant)
    (hu : (f d).idUser = d.idUser) (h : db.updateDevice d.idDevice f = .ok db') :
    ∀ d ∈ db'.devices.rows, db.HasAccount d.idMerchant [.OWNER] d.idUser := by
  obtain ⟨-, ds, hds, rfl⟩ := updateDevice_eq_ok.mp h
  refine Table.forall_replace hds hdb hd (device_id_mem_keys.mpr rfl) ?_
  rw [hm, hu]
  exact hdb d hd

/-- **Tills are the owner's.** -/
theorem devices_exec (hdb : ∀ d ∈ db.devices.rows, db.HasAccount d.idMerchant [.OWNER] d.idUser)
    {op : Op} (hop : sanctioned db op) :
    ∀ d ∈ (exec db op).devices.rows, db.HasAccount d.idMerchant [.OWNER] d.idUser := by
  cases op with
  | createDevice m u name code now =>
    refine commit_rule (P := fun db' =>
      ∀ d ∈ db'.devices.rows, db.HasAccount d.idMerchant [.OWNER] d.idUser) hdb fun db' h => ?_
    obtain ⟨-, -, ds, hds, rfl⟩ := createDevice_eq_ok.mp h
    exact Table.forall_insert hds hdb hop
  | pairDevice code hash =>
    refine commit_rule (P := fun db' =>
      ∀ d ∈ db'.devices.rows, db.HasAccount d.idMerchant [.OWNER] d.idUser) hdb fun db' h => ?_
    obtain ⟨d, hd, -, h⟩ := pairDevice_eq_ok h
    exact devices_update hdb (Table.findUnique_eq_some.mp hd).1 rfl rfl h
  | removeDevice i m =>
    refine commit_rule (P := fun db' =>
      ∀ d ∈ db'.devices.rows, db.HasAccount d.idMerchant [.OWNER] d.idUser) hdb fun db' h => ?_
    obtain ⟨d, hd, rfl, -, -, h⟩ := removeDevice_eq_ok h
    exact devices_update hdb hd rfl rfl h
  | _ =>
    rw [exec_onlyIn _ _ .device (by simp [Op.tables])]
    exact hdb

/-! ## Transactions -/

/-- A transaction is voided by an account that may void it. -/
theorem Db.TransactionAttributed.void {t s : Transaction} (h : db.TransactionAttributed t)
    (hd : s.idDevice = t.idDevice) (hm : s.idMerchant = t.idMerchant) (hu : s.idUser = t.idUser)
    (hby : s.voidedBy = some i)
    (hi : db.HasAccount t.idMerchant [.OWNER, .OPERATOR] i) : db.TransactionAttributed s where
  till := by
    rw [hd, hm, hu]
    exact h.till
  user := by
    rw [hm, hu]
    exact h.user
  voided := fun _ => by rw [hby]; rfl
  voidedBy := by
    intro j hj
    obtain rfl : i = j := Option.some.inj (hby.symm.trans hj)
    rw [hm]
    exact hi

/-- A synchronised sale is entered for the owner who created the till. -/
theorem sale_attributed (hdb : Attributed db) {data : QueuedTransaction} {hasConflict : Bool}
    {now created : DateTime} {d : Device}
    (sale : StoredSale db db' data hasConflict now d created) :
    ∀ t ∈ db'.transactions.rows, db.TransactionAttributed t := by
  refine Table.forall_insert sale.insertable.header hdb.transactions ?_
  have hdevice := sale.insertable.device
  refine ⟨?_, hdb.devices d (Table.findUnique_eq_some.mp hdevice).1, fun h => ?_,
    fun _ h => nomatch h⟩
  · show (db.devices.findUnique (.id data.idDevice)).map _ = some (d.idMerchant, d.idUser)
    rw [hdevice]
    rfl
  · -- a sale that comes in is PENDING or CONFIRMED
    change (if hasConflict then TransactionStatus.PENDING else .CONFIRMED) = .VOIDED at h
    split at h <;> cases h

/-- A correction takes the owner of the till over, and voids the old transaction. -/
theorem correction_attributed (hdb : Attributed db) {user : JwtPayload} {t : FoundTransaction}
    {dto : CorrectTransactionDto} {now : DateTime} (hcur : t.CurrentIn db)
    (huser : db.HasAccount t.row.idMerchant [.OWNER, .OPERATOR] user.sub)
    (written : Corrected db db' user t dto now) :
    ∀ t ∈ db'.transactions.rows, db.TransactionAttributed t := by
  have hrow := hdb.transactions t.row hcur.row
  obtain ⟨ts, hins, hts⟩ := written.transactions
  have hnew : ∀ t ∈ ts.rows, db.TransactionAttributed t :=
    Table.forall_insert hins hdb.transactions
      ⟨hrow.till, hrow.user, fun h => (nomatch h), fun _ h => nomatch h⟩
  rw [hts]
  exact Table.forall_update hnew ((Table.mem_insert hins).mpr (Or.inl hcur.row))
    (id_mem_keys.mpr rfl) (hrow.void rfl rfl rfl rfl huser)

/-- The transaction of an invalid payment is voided by an account of its merchant. -/
theorem resolution_attributed (hdb : Attributed db) (haddr : Addressed db) {id : Ident}
    {user : JwtPayload} {r : FoundReconciliation} {dto : ResolveReconciliationDto}
    {now : DateTime} (huser : db.HasAccount user.idMerchant [.OWNER, .OPERATOR] user.sub)
    (hread : Reconciliations.resolveRead db id user = .ok r)
    (h : Reconciliations.resolveWrite db id user r dto now = .ok db') :
    ∀ t ∈ db'.transactions.rows, db.TransactionAttributed t := by
  have hfound := resolveRead_found hread
  obtain ⟨-, hpayment, htransaction⟩ := findReconciliation_eq_some hfound
  obtain ⟨-, -, htid⟩ := findReconciliation_links hfound
  have hm : r.transaction.idMerchant = user.idMerchant :=
    (haddr.merchants r.payment hpayment r.transaction htransaction htid).trans
      (resolveRead_merchant hread)
  obtain ⟨-, ⟨-, rfl⟩ | ⟨-, -, rfl⟩ | ⟨-, -, rfl⟩⟩ := resolveWrite_cases h
  · exact hdb.transactions
  · exact hdb.transactions
  · refine Table.forall_update hdb.transactions htransaction (id_mem_keys.mpr rfl) ?_
    refine (hdb.transactions r.transaction htransaction).void rfl rfl rfl rfl ?_
    rw [hm]
    exact huser

/-- **Transactions name the owner who created the till, and who voided them.** -/
theorem transactions_exec (hdb : Attributed db) (haddr : Addressed db) {op : Op}
    (hop : sanctioned db op) :
    ∀ t ∈ (exec db op).transactions.rows, db.TransactionAttributed t := by
  have howner : ∀ {m : Ident} {i : Ident}, db.HasAccount m [.OWNER] i →
      db.HasAccount m [.OWNER, .OPERATOR] i := fun h => h.mono (by decide)
  cases op with
  | sync data outcome =>
    show ∀ t ∈ (handleItem db data outcome).transactions.rows, _
    obtain ⟨db₁, h₁, h₂⟩ := handleItem_cases db data outcome
    have hsale : ∀ t ∈ db₁.transactions.rows, db.TransactionAttributed t := by
      rcases h₁ with rfl | h₁
      · exact hdb.transactions
      · obtain ⟨-, d, created, sale⟩ := processTransaction_stored h₁
        exact sale_attributed hdb sale
    rcases h₂ with h₂ | ⟨_, h₂⟩
    · rw [h₂]
      exact hsale
    · rw [(createSyncQueue_sameSales h₂).transactions]
      exact hsale
  | voidTransaction user id reason now =>
    refine commit_rule (P := fun db' => ∀ t ∈ db'.transactions.rows, db.TransactionAttributed t)
      hdb.transactions fun db' h => ?_
    obtain ⟨t, hread, h⟩ := bind_eq_ok.mp h
    obtain ⟨hcur, hm, -⟩ := voidTransactionRead_eq_ok hread
    obtain ⟨-, -, rfl⟩ := updateTransaction_eq_ok.mp h
    refine Table.forall_update hdb.transactions hcur.row (id_mem_keys.mpr rfl) ?_
    refine (hdb.transactions t.row hcur.row).void rfl rfl rfl rfl ?_
    rw [hm]
    exact hop
  | resolveConflict user id dto now =>
    refine commit_rule (P := fun db' => ∀ t ∈ db'.transactions.rows, db.TransactionAttributed t)
      hdb.transactions fun db' h => ?_
    obtain ⟨t, hread, h⟩ := bind_eq_ok.mp h
    obtain ⟨hcur, hm, -⟩ := resolveConflictRead_eq_ok hread
    have hrow := hdb.transactions t.row hcur.row
    cases haction : dto.action with
    | CONFIRM =>
      rw [(resolveConflictWrite_confirm haction h).transactions]
      exact Table.forall_update hdb.transactions hcur.row (id_mem_keys.mpr rfl)
        ⟨hrow.till, hrow.user, fun h => (nomatch h), hrow.voidedBy⟩
    | VOID =>
      rw [resolveConflictWrite_void haction h]
      refine Table.forall_update hdb.transactions hcur.row (id_mem_keys.mpr rfl) ?_
      refine hrow.void rfl rfl rfl rfl ?_
      rw [hm]
      exact howner hop
  | correctTransaction user id dto now =>
    refine commit_rule (P := fun db' => ∀ t ∈ db'.transactions.rows, db.TransactionAttributed t)
      hdb.transactions fun db' h => ?_
    obtain ⟨t, hread, h⟩ := bind_eq_ok.mp h
    obtain ⟨hcur, hm, -⟩ := correctTransactionRead_eq_ok hread
    refine correction_attributed hdb hcur ?_ (correctTransactionWrite_corrected h)
    rw [hm]
    exact howner hop
  | resolveReconciliation id user dto now =>
    refine commit_rule (P := fun db' => ∀ t ∈ db'.transactions.rows, db.TransactionAttributed t)
      hdb.transactions fun db' h => ?_
    obtain ⟨r, hread, h⟩ := bind_eq_ok.mp h
    exact resolution_attributed hdb haddr (howner hop) hread h
  | _ =>
    rw [exec_onlyIn _ _ .transaction (by simp [Op.tables])]
    exact hdb.transactions

/-! ## Corrections and cases -/

/-- The row that links a correction names the user. -/
theorem correctTransactionWrite_bridge {user : JwtPayload} {t : FoundTransaction}
    {dto : CorrectTransactionDto} {now : DateTime}
    (h : Transactions.correctTransactionWrite db user t dto now = .ok db') :
    ∃ c, c.idOldTransaction = t.row.idTransaction ∧ c.correctedBy = user.sub ∧
      db.corrections.insert c = some db'.corrections := by
  obtain ⟨db₁, db₃, db₄, ts, cs, steps⟩ := correctTransactionWrite_steps h
  obtain ⟨is₁, rfl⟩ := (adjustEach_moved steps.revert).exists_eq
  obtain ⟨is₃, rfl⟩ := (adjustEach_moved steps.deduct).exists_eq
  obtain ⟨ps, n, -, rfl⟩ := clonePayment_frame steps.clone
  rw [steps.result]
  exact ⟨_, rfl, rfl, steps.bridge⟩

/-- **Corrections name the owner.** -/
theorem corrections_exec (hdb : ∀ c ∈ db.corrections.rows, db.CorrectionAttributed c) {op : Op}
    (hop : sanctioned db op) :
    ∀ c ∈ (exec db op).corrections.rows, db.CorrectionAttributed c := by
  cases op with
  | correctTransaction user id dto now =>
    refine commit_rule (P := fun db' => ∀ c ∈ db'.corrections.rows, db.CorrectionAttributed c)
      hdb fun db' h => ?_
    obtain ⟨t, hread, h⟩ := bind_eq_ok.mp h
    obtain ⟨hcur, hm, -⟩ := correctTransactionRead_eq_ok hread
    obtain ⟨c, hold, hby, hinsert⟩ := correctTransactionWrite_bridge h
    refine Table.forall_insert hinsert hdb ⟨t.row.idMerchant, ?_, ?_⟩
    · rw [hold]
      exact transactionMerchant_eq_some.mpr ⟨t.row, hcur.row, rfl, rfl⟩
    · rw [hby, hm]
      exact hop
  | _ =>
    rw [exec_onlyIn _ _ .transactionCorrection (by simp [Op.tables])]
    exact hdb

/-- A case that is opened names the user. -/
theorem opened_attributed (hdb : ∀ r ∈ db.reconciliations.rows, db.CaseAttributed r)
    {user : JwtPayload} {p : Payment} {dto : CreateReconciliationDto} {now : DateTime}
    (hp : p ∈ db.payments.rows ∧ p.idMerchant = user.idMerchant)
    (huser : db.HasAccount user.idMerchant [.OWNER, .OPERATOR] user.sub)
    (h : Reconciliations.createWrite db user p dto now = .ok db') :
    ∀ r ∈ db'.reconciliations.rows, db.CaseAttributed r := by
  obtain ⟨-, -, rs, hrs, rfl⟩ := createReconciliation_eq_ok.mp h
  refine Table.forall_insert hrs hdb ⟨user.idMerchant, ?_, huser, fun h => absurd rfl h,
    fun _ h => nomatch h⟩
  rw [← hp.2]
  exact paymentMerchant_of_mem hp.1

/-- A case that is resolved names the owner. -/
theorem resolved_attributed (hdb : ∀ r ∈ db.reconciliations.rows, db.CaseAttributed r)
    {id : Ident} {user : JwtPayload} {r : FoundReconciliation} {dto : ResolveReconciliationDto}
    {now : DateTime} (huser : db.HasAccount user.idMerchant [.OWNER] user.sub)
    (hread : Reconciliations.resolveRead db id user = .ok r)
    (h : Reconciliations.resolveWrite db id user r dto now = .ok db') :
    ∀ r ∈ db'.reconciliations.rows, db.CaseAttributed r := by
  have hfound := resolveRead_found hread
  obtain ⟨hid, hpay, -⟩ := findReconciliation_links hfound
  obtain ⟨hrow, hpayment, -⟩ := findReconciliation_eq_some hfound
  obtain ⟨m, hm, hopened, -⟩ := hdb r.row hrow
  have hown : db.paymentMerchant r.row.idPayment = some user.idMerchant := by
    rw [← hpay, paymentMerchant_of_mem hpayment, resolveRead_merchant hread]
  obtain rfl : user.idMerchant = m := Option.some.inj (hown.symm.trans hm)
  rw [resolveWrite_reconciliations h]
  refine Table.forall_update hdb hrow (reconciliation_id_mem_keys.mpr hid)
    ⟨user.idMerchant, hm, hopened, fun _ => rfl, fun i hi => ?_⟩
  obtain rfl := Option.some.inj hi
  exact huser

/-- **Cases name those who opened and resolved them.** -/
theorem caseworkers_exec (hdb : ∀ r ∈ db.reconciliations.rows, db.CaseAttributed r)
    (haddr : Addressed db) {op : Op} (hop : sanctioned db op) :
    ∀ r ∈ (exec db op).reconciliations.rows, db.CaseAttributed r := by
  cases op with
  | createReconciliation user dto now =>
    refine commit_rule (P := fun db' => ∀ r ∈ db'.reconciliations.rows, db.CaseAttributed r)
      hdb fun db' h => ?_
    obtain ⟨p, hread, h⟩ := bind_eq_ok.mp h
    exact opened_attributed hdb (createRead_payment haddr hread) hop h
  | reconcilePayment user paymentId dto now =>
    refine commit_rule (P := fun db' => ∀ r ∈ db'.reconciliations.rows, db.CaseAttributed r)
      hdb fun db' h => ?_
    obtain ⟨p, hread, h⟩ := bind_eq_ok.mp h
    exact opened_attributed hdb (reconcileRead_payment hread) (hop.mono (by decide)) h
  | resolveReconciliation id user dto now =>
    refine commit_rule (P := fun db' => ∀ r ∈ db'.reconciliations.rows, db.CaseAttributed r)
      hdb fun db' h => ?_
    obtain ⟨r, hread, h⟩ := bind_eq_ok.mp h
    exact resolved_attributed hdb hop hread h
  | _ =>
    rw [exec_onlyIn _ _ .reconciliation (by simp [Op.tables])]
    exact hdb

/-! ## Movements -/

/-- The movements of a loop for a transaction of the merchant. -/
theorem movements_of_map {α : Type} {l : List α} {f : α → AdjustInventoryParams}
    {now : DateTime} {t : Ident} (hf : ∀ a, (f a).idMerchant = m ∧ (f a).idUser = i ∧
      (f a).idTransaction = some t)
    (hseller : db.transactionMerchant t = some m)
    (hby : ∀ a, db.HasAccount m (f a).movementType.roles i ∨
      (f a).movementType = .SALE ∧ i = systemSync) :
    ∀ h ∈ (l.map f).map (·.history now), db.MovementAttributed h := by
  intro h hh
  rw [List.map_map] at hh
  obtain ⟨a, -, rfl⟩ := List.mem_map.mp hh
  obtain ⟨hm, hi, ht⟩ := hf a
  refine ⟨m, i, congrArg some hm, congrArg some hi, fun s hs => ?_,
    (hby a).imp_right fun hby => ⟨hby.1, ?_, hby.2⟩⟩
  · obtain rfl : t = s := Option.some.inj (ht.symm.trans hs)
    exact hseller
  · exact congrArg Option.isSome ht

/-- **Movements name who entered them.** -/
theorem movements_exec (hdb : ∀ h ∈ db.stockHistories, db.MovementAttributed h) {op : Op}
    (hop : sanctioned db op) :
    ∀ h ∈ (exec db op).stockHistories, (exec db op).MovementAttributed h := by
  have hkept : ∀ h ∈ db.stockHistories, (exec db op).MovementAttributed h :=
    fun h hh => (hdb h hh).exec op
  have haccount : ∀ {m : Ident} {roles : List UserRole} {i : Ident}, db.HasAccount m roles i →
      (exec db op).HasAccount m roles i := fun h => h.exec op
  have hsellers := (exec_grows db op).sellers
  have heffect := exec_effect db op
  generalize exec db op = db' at hkept haccount hsellers heffect
  have happend : ∀ {hs : List StockHistory}, db'.stockHistories = db.stockHistories ++ hs →
      (∀ h ∈ hs, db'.MovementAttributed h) →
      ∀ h ∈ db'.stockHistories, db'.MovementAttributed h := by
    intro hs heq hnew h hh
    rw [heq] at hh
    exact (List.mem_append.mp hh).elim (hkept h) (hnew h)
  cases heffect with
  | alone same =>
    rw [same.histories]
    exact hkept
  | @adjusted user productId dto now _ product own moved entered =>
    refine happend moved.histories fun h hh => ?_
    obtain rfl := List.mem_singleton.mp hh
    exact ⟨user.idMerchant, user.sub, rfl, rfl, fun _ h => (nomatch h), Or.inl (haccount hop)⟩
  | @synced data outcome db₁ _ d created sale rest =>
    refine happend (rest.histories.trans sale.entered.histories) fun h hh => ?_
    split at hh
    · cases hh
    · have hseller : db'.transactionMerchant db.newId = some d.idMerchant := by
        unfold Db.transactionMerchant
        rw [rest.transactions]
        exact merchant_insert sale.insertable.header
      exact movements_of_map (f := saleMovement data db.newId d.idMerchant)
        (fun _ => ⟨rfl, rfl, rfl⟩) hseller (fun _ => Or.inr ⟨rfl, rfl⟩) h hh
  | voided t read => exact hkept
  | @confirmed user id dto now _ t read forced =>
    refine happend forced.entered.histories fun h hh => ?_
    obtain ⟨hcur, hm, -⟩ := resolveConflictRead_eq_ok read
    exact movements_of_map (f := forcedMovement t user.sub dto.notes) (fun _ => ⟨hm, rfl, rfl⟩)
      (hsellers _ _ (transactionMerchant_eq_some.mpr ⟨t.row, hcur.row, rfl, hm⟩))
      (fun _ => Or.inl (haccount hop)) h hh
  | conflictVoided t read => exact hkept
  | @corrected user id dto now _ t read written =>
    refine happend written.entered.histories fun h hh => ?_
    obtain ⟨hcur, hm, -⟩ := correctTransactionRead_eq_ok read
    have hby : db'.HasAccount user.idMerchant [.OWNER] user.sub := haccount hop
    -- the old lines are put back for the old transaction, the new ones taken out for the new one
    rcases List.mem_append.mp hh with hh | hh
    · exact movements_of_map (f := revertMovement t user.sub dto.reason)
        (fun _ => ⟨hm, rfl, rfl⟩)
        (hsellers _ _ (transactionMerchant_eq_some.mpr ⟨t.row, hcur.row, rfl, hm⟩))
        (fun _ => Or.inl hby) h hh
    · exact movements_of_map
        (f := correctedMovement db.newId t.row.idMerchant user.sub dto.reason)
        (fun _ => ⟨hm, rfl, rfl⟩) (written.seller.trans (congrArg some hm))
        (fun _ => Or.inl hby) h hh
  | invalidated r found live rest entered =>
    exact happend (rest.histories.trans (List.append_nil _).symm) fun _ h => nomatch h

/-- **What a call keeps.** -/
theorem Attributed.exec (hdb : Attributed db) (haddr : Addressed db) {op : Op}
    (hop : sanctioned db op) : Attributed (exec db op) where
  devices := fun d hd => (devices_exec hdb.devices hop d hd).exec op
  transactions := fun t ht => (transactions_exec hdb haddr hop t ht).exec op
  corrections := fun c hc => (corrections_exec hdb.corrections hop c hc).exec op
  cases := fun r hr => (caseworkers_exec hdb.cases haddr hop r hr).exec op
  movements := movements_exec hdb.movements hop

/-- What is about tokens and failures alone keeps it. -/
theorem Attributed.frame (hdb : Attributed db) {rts : Table RefreshToken} {qs : Table SyncQueue}
    {n : ℕ} : Attributed { db with refreshTokens := rts, syncQueues := qs, seq := n } where
  devices := hdb.devices
  transactions := fun t ht =>
    ⟨(hdb.transactions t ht).till, (hdb.transactions t ht).user, (hdb.transactions t ht).voided,
      (hdb.transactions t ht).voidedBy⟩
  corrections := hdb.corrections
  cases := hdb.cases
  movements := hdb.movements

end Calls

/-! ## Runs of the server -/

section Server

variable {env : ServerEnv} {us : Table User} {σ : Server} {a : ServerAction} {db' : Db}

/-- A request that was let in is made by an account that may make it. -/
theorem Server.Genuine.sanctioned (hσ : σ.Genuine env) {j : ℕ} {user : JwtPayload}
    {request : Request} {now : DateTime} {op : Op} (hj : σ.pending[j]? = some (user, request))
    (hop : request.op user now = some op) : sanctioned σ.db op := by
  obtain ⟨⟨u, hu, hpayload⟩, hrole, -⟩ := hσ.pending _ (List.mem_of_getElem? hj)
  have haccount : σ.db.HasAccount user.idMerchant request.access.roles user.sub := by
    refine ⟨u, hu, congrArg TokenPayload.sub hpayload,
      congrArg TokenPayload.idMerchant hpayload, ?_⟩
    rw [show u.role = user.role from congrArg TokenPayload.role hpayload]
    exact hrole
  cases request with
  | createDevice | adjustStock | voidTransaction | createReconciliation | resolveConflict
  | correctTransaction | reconcile | resolveReconciliation =>
    obtain rfl := Option.some.inj hop
    exact haccount
  | syncTransactions idDevice batch publish => cases hop
  | _ =>
    obtain rfl := Option.some.inj hop
    trivial

/-- **What a step of the server keeps.** -/
theorem Server.Change.attributed (h : σ.Change env a db') (hσ : σ.Genuine env)
    (haddr : Addressed σ.db) (hdb : Attributed σ.db) : Attributed db' := by
  cases h with
  | tokens write =>
    rw [write.frame]
    exact hdb.frame
  | registered => exact hdb.exec haddr trivial
  | paired => exact hdb.exec haddr trivial
  | served user request op hpending hop => exact hdb.exec haddr (hσ.sanctioned hpending hop)
  | consumed item hpublished => exact hdb.exec haddr trivial
  | @givenUp i retryAttempt outcome item hpublished =>
    obtain ⟨qs, n, -, heq⟩ := recordTerminalFailure_frame σ.db
      { item with retryAttempt := retryAttempt } outcome
    rw [heq]
    exact hdb.frame

/-- **The books say who did it**: in every state of the server, every till, transaction, correction,
case and movement of stock names accounts of its merchant whose roles allow what they are named
for; a transaction that is VOIDED and a case that is closed name somebody. -/
theorem attributed_reached (hσ : ServerReaches env us σ) : Attributed σ.db := by
  obtain ⟨_, hrun⟩ := hσ
  have hinv := hrun.invariant
    (fun σ => σ.Genuine env ∧ Separate σ.db ∧ Attributed σ.db)
    ⟨.start env us, separate_withUsers us, fun _ hd => (nomatch hd), fun _ ht => (nomatch ht),
      fun _ hc => (nomatch hc), fun _ hr => (nomatch hr), fun _ hh => nomatch hh⟩ ?_
  · exact hinv.2.2
  · rintro σ a τ ⟨hgenuine, hseparate, hattributed⟩ hunforged hnext
    have hchange := Server.next_change hnext
    exact ⟨hgenuine.next hunforged hnext, hchange.separate hgenuine hseparate,
      hchange.attributed hgenuine hseparate.addressed hattributed⟩

/-- An employee voids a sale that is in conflict. -/
theorem attributed_reached_operator : ∃ σ : Server, ServerReaches plainTokens .empty σ ∧
    σ.db.transactions.rows.map (·.voidedBy) = [some (.cuid 8)] ∧ Attributed σ.db := by
  have hcheck : (Runs.runs (Server.next plainTokens) (unforgedTest plainTokens)
      (Server.start .empty) (voidRequest ++ [.handle 0 0])).any (fun σ =>
        decide (σ.db.transactions.rows.map (·.voidedBy) = [some (.cuid 8)])) = true := by
    decide +kernel
  obtain ⟨σ, hσ, hend⟩ := exists_serverReaches hcheck
  exact ⟨σ, hσ, of_decide_eq_true hend, attributed_reached hσ⟩

end Server

end KPos
