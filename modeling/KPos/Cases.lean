/-
# Cases side by side (`reconciliations.service.ts`, `payments.service.ts`)

Both services that open a case look for one first and insert later, and no constraint of the
table backs them.  A resolution tests the status of its case first and writes later, whatever
has become of the case by then.

* `casework` : the calls of both services as requests that check first and act later;
* `one_open_case` : if a payment has no open case whenever one is inserted, none ever has two;
* `two_open_cases` : two calls that both look first;
* `resolving` : the resolutions of one case;
* `resolved_once` : if a case is still OPEN whenever a resolution writes, it is resolved once
  and for good;
* `resolved_twice` : two resolutions that both read first.
-/
import KPos.Corrections
import KPos.Invalidations

namespace KPos

/-! ## Opening and resolving -/

/-- A call that opens or resolves a case. -/
inductive CaseCall where
  | create (user : JwtPayload) (dto : CreateReconciliationDto) (now : DateTime)
  | reconcile (user : JwtPayload) (paymentId : Ident) (dto : CreateReconciliationDto)
      (now : DateTime)
  | resolve (id : Ident) (user : JwtPayload) (dto : ResolveReconciliationDto) (now : DateTime)

/-- What a call goes on to write, with what it has read. -/
inductive CaseWrite where
  | insert (user : JwtPayload) (payment : Payment) (dto : CreateReconciliationDto)
      (now : DateTime)
  | settle (id : Ident) (user : JwtPayload) (reconciliation : FoundReconciliation)
      (dto : ResolveReconciliationDto) (now : DateTime)

/-- The lookups and the tests of a call. -/
def CaseCall.read (db : Db) : CaseCall → Except Err CaseWrite
  | .create user dto now => do
      let payment ← Reconciliations.createRead db user dto
      return .insert user payment dto now
  | .reconcile user paymentId dto now => do
      let payment ← Payments.reconcileRead db user paymentId
      return .insert user payment dto now
  | .resolve id user dto now => do
      let reconciliation ← Reconciliations.resolveRead db id user
      return .settle id user reconciliation dto now

/-- The writes of a call. -/
def CaseWrite.write (db : Db) : CaseWrite → Except Err Db
  | .insert user payment dto now => Reconciliations.createWrite db user payment dto now
  | .settle id user reconciliation dto now =>
      Reconciliations.resolveWrite db id user reconciliation dto now

/-- The calls as requests. -/
def casework : TwoStep Db CaseCall CaseWrite where
  read db c := (c.read db).toOption
  write db _ w := (w.write db).toOption

/-- How many cases of a payment are OPEN. -/
def Db.openCases (db : Db) (idPayment : Ident) : ℕ :=
  db.reconciliations.rows.countP fun r => decide (r.idPayment = idPayment ∧ r.status = .OPEN)

/-- Every payment has at most one open case. -/
def Db.OneOpenCase (db : Db) : Prop := ∀ p, db.openCases p ≤ 1

/-- The payment of a case that is inserted has no open case. -/
def NoOpenCase (db : Db) (_ : CaseCall) : CaseWrite → Prop
  | .insert _ payment _ _ => db.openCases payment.idPayment = 0
  | .settle .. => True

instance decidableNoOpenCase (db : Db) (c : CaseCall) :
    (w : CaseWrite) → Decidable (NoOpenCase db c w)
  | .insert .. => inferInstanceAs (Decidable (_ = _))
  | .settle .. => .isTrue trivial

section Writes

variable {db db' : Db} {id : Ident} {user : JwtPayload} {r : FoundReconciliation}
  {dto : ResolveReconciliationDto} {now : DateTime}

/-- A resolution rewrites its case, whatever else it writes. -/
theorem resolveWrite_reconciliations
    (h : Reconciliations.resolveWrite db id user r dto now = .ok db') :
    db'.reconciliations
      = db.reconciliations.update (.id id) (Reconciliation.resolved user dto now) := by
  obtain ⟨-, ⟨-, rfl⟩ | ⟨-, -, rfl⟩ | ⟨-, -, rfl⟩⟩ := resolveWrite_cases h
  · rfl
  · rfl
  · rfl

/-- A case that is inserted is one more open case of its payment. -/
theorem openCases_insert {payment : Payment} {dto : CreateReconciliationDto}
    (h : Reconciliations.createWrite db user payment dto now = .ok db') (p : Ident) :
    db'.openCases p = db.openCases p + if payment.idPayment = p then 1 else 0 := by
  obtain ⟨-, -, rs, hrs, rfl⟩ := createReconciliation_eq_ok.mp h
  unfold Db.openCases
  rw [(Table.insert_eq_some.mp hrs).2, List.countP_append, List.countP_singleton]
  simp [openCase]

/-- A resolution opens no case. -/
theorem openCases_settle (h : Reconciliations.resolveWrite db id user r dto now = .ok db')
    (p : Ident) : db'.openCases p ≤ db.openCases p := by
  unfold Db.openCases
  rw [resolveWrite_reconciliations h, Table.rows_update, List.countP_map]
  refine List.countP_mono_left fun c _ hc => ?_
  simp only [Function.comp_apply, decide_eq_true_eq] at hc ⊢
  split at hc
  · -- the case is no longer OPEN
    have hclosed : dto.newStatus.status ≠ .OPEN := by cases dto.newStatus <;> decide
    exact absurd hc.2 hclosed
  · exact hc

/-- Where no case is open, one may be inserted. -/
theorem Db.OneOpenCase.insert (hdb : db.OneOpenCase) {payment : Payment}
    {dto : CreateReconciliationDto} (hnone : db.openCases payment.idPayment = 0)
    (h : Reconciliations.createWrite db user payment dto now = .ok db') : db'.OneOpenCase := by
  intro p
  rw [openCases_insert h]
  by_cases hp : payment.idPayment = p
  · rw [if_pos hp, ← hp, hnone]
  · rw [if_neg hp]
    exact hdb p

theorem Db.OneOpenCase.settle (hdb : db.OneOpenCase)
    (h : Reconciliations.resolveWrite db id user r dto now = .ok db') : db'.OneOpenCase :=
  fun p => Nat.le_trans (openCases_settle h p) (hdb p)

end Writes

/-! ## Calls one after the other -/

section Calls

variable {db db' : Db} {user : JwtPayload}

/-- A call of `create` finds no case of the payment. -/
theorem createRead_openCases {dto : CreateReconciliationDto} {payment : Payment}
    (h : Reconciliations.createRead db user dto = .ok payment) :
    db.openCases payment.idPayment = 0 := by
  unfold Reconciliations.createRead at h
  simp only [bind_eq_ok, orThrow_eq_ok, require_eq_ok, pure_eq_ok, exists_const,
    List.all_eq_true, decide_eq_true_eq] at h
  obtain ⟨_, -, -, _, -, hnone, rfl⟩ := h
  refine List.countP_eq_zero.mpr fun r hr => ?_
  simp [hnone r hr]

/-- A call of `reconcile` finds no open case of the payment. -/
theorem reconcileRead_openCases {paymentId : Ident} {payment : Payment}
    (h : Payments.reconcileRead db user paymentId = .ok payment) :
    db.openCases payment.idPayment = 0 := by
  unfold Payments.reconcileRead at h
  simp only [bind_eq_ok, orThrow_eq_ok, require_eq_ok, pure_eq_ok, exists_const,
    List.all_eq_true] at h
  obtain ⟨p, hfind, -, hnone, rfl⟩ := h
  have hid : p.idPayment = paymentId :=
    payment_id_mem_keys.mp (Table.findUnique_eq_some.mp hfind).2
  refine List.countP_eq_zero.mpr fun r hr => ?_
  have hnot := hnone r hr
  rw [Bool.not_eq_true', decide_eq_false_iff_not] at hnot
  rw [hid, decide_eq_true_eq]
  exact hnot

/-- Whether a call opens or resolves a case. -/
def Op.aboutCases : Op → Bool
  | .createReconciliation .. | .reconcilePayment .. | .resolveReconciliation .. => true
  | _ => false

/-- **Only the calls about cases write to the cases.** -/
theorem exec_reconciliations {op : Op} (hop : op.aboutCases = false) :
    (exec db op).reconciliations = db.reconciliations := by
  cases op with
  | sync data outcome =>
    show (handleItem db data outcome).reconciliations = db.reconciliations
    obtain ⟨db₁, h₁, h₂⟩ := handleItem_cases db data outcome
    have hsale : db₁.reconciliations = db.reconciliations := by
      rcases h₁ with rfl | h₁
      · rfl
      · obtain ⟨-, d, created, sale⟩ := processTransaction_stored h₁
        rw [sale.frame]
    rcases h₂ with h₂ | ⟨_, h₂⟩
    · rw [h₂]
      exact hsale
    · exact (createSyncQueue_quiet h₂).reconciliations.trans hsale
  | voidTransaction user id reason now =>
    refine commit_frame Db.reconciliations fun db' h => ?_
    obtain ⟨_, -, h⟩ := bind_eq_ok.mp h
    obtain ⟨-, -, rfl⟩ := updateTransaction_eq_ok.mp h
    rfl
  | resolveConflict user id dto now =>
    refine commit_frame Db.reconciliations fun db' h => ?_
    obtain ⟨t, -, h⟩ := bind_eq_ok.mp h
    obtain ⟨_, _, _, rfl⟩ := resolveConflictWrite_frame h
    rfl
  | correctTransaction user id dto now =>
    refine commit_frame Db.reconciliations fun db' h => ?_
    obtain ⟨t, -, h⟩ := bind_eq_ok.mp h
    rw [(correctTransactionWrite_corrected h).frame]
  | createReconciliation | reconcilePayment | resolveReconciliation => cases hop
  | register | createUser | updateUserStatus | createDevice | pairDevice | removeDevice
  | createProduct | updateProduct | removeProduct | adjustStock =>
    rw [exec_outsideSales rfl]

/-- A call that runs to completion leaves at most one open case. -/
theorem Db.OneOpenCase.exec (hdb : db.OneOpenCase) (op : Op) : (exec db op).OneOpenCase := by
  cases op with
  | createReconciliation user dto now =>
    refine commit_rule hdb fun db' h => ?_
    obtain ⟨payment, hread, hwrite⟩ := bind_eq_ok.mp h
    exact hdb.insert (createRead_openCases hread) hwrite
  | reconcilePayment user p dto now =>
    refine commit_rule hdb fun db' h => ?_
    obtain ⟨payment, hread, hwrite⟩ := bind_eq_ok.mp h
    exact hdb.insert (reconcileRead_openCases hread) hwrite
  | resolveReconciliation id user dto now =>
    refine commit_rule hdb fun db' h => ?_
    obtain ⟨r, -, hwrite⟩ := bind_eq_ok.mp h
    exact hdb.settle hwrite
  | _ =>
    intro p
    unfold Db.openCases
    rw [exec_reconciliations rfl]
    exact hdb p

theorem Reachable.oneOpenCase {us : Table User} (h : Reachable us db) : db.OneOpenCase :=
  h.invariant_total Db.OneOpenCase (fun _ => Nat.zero_le 1) fun _ op hdb => hdb.exec op

end Calls

/-! ## At most one open case -/

theorem casework_discipline : TwoStep.Discipline casework (fun _ _ => True) NoOpenCase
    Db.OneOpenCase fun _ _ _ => True where
  read := fun _ _ _ _ _ _ => trivial
  write := by
    intro db c w db' hdb _ hnone hwrite
    have hwrite := toOption_eq_some hwrite
    cases w with
    | insert user payment dto now => exact hdb.insert hnone hwrite
    | settle id user r dto now => exact hdb.settle hwrite
  stable := fun _ _ _ _ _ _ _ _ _ _ _ => trivial

/-- **A payment has at most one open case**, in every state that calls side by side reach, if the
payment has none whenever a case is inserted. -/
theorem one_open_case {us : Table User} {db : Db} {as : List (TwoStep.Action CaseCall)}
    {σ : TwoStep.Session Db CaseCall CaseWrite} (hdb : Reachable us db)
    (h : Runs.Run casework.next (TwoStep.Meets (fun _ _ => True) NoOpenCase)
      (TwoStep.start db) as σ) : σ.store.OneOpenCase :=
  (casework_discipline.session hdb.oneOpenCase h).1

/-- A case about the sale, opened through its transaction. -/
def openByTransaction : CaseCall := .create shopOwner ⟨.cuid 5, "unpaid", none⟩ 2

/-- A case about the sale, opened through its payment. -/
def openByPayment : CaseCall := .reconcile shopOwner (.cuid 6) ⟨.cuid 5, "unpaid", none⟩ 2

/-- A case is opened, resolved, and opened again. -/
def openedAgain : List (TwoStep.Action CaseCall) :=
  [.read openByTransaction, .read openByPayment, .write 0, .drop 0,
   .read (.resolve (.cuid 7) shopOwner ⟨"paid", some .RESOLVED_VALID⟩ 3), .write 0,
   .read openByPayment, .write 0]

/-- Two cases were opened, one of which is open. -/
theorem one_open_case_again : ∃ σ : TwoStep.Session Db CaseCall CaseWrite,
    σ.store.reconciliations.rows.length = 2 ∧ σ.store.OneOpenCase := by
  have hcheck : (Runs.runs casework.next
      (fun σ a => decide (TwoStep.Meets (fun _ _ => True) NoOpenCase σ a))
      (TwoStep.start soldThree) openedAgain).any
      (fun σ => decide (σ.store.reconciliations.rows.length = 2)) = true := by decide +kernel
  obtain ⟨σ, hrun, hlen⟩ := Runs.exists_run_of_runs hcheck
  have hrun := hrun.weaken fun _ _ h => of_decide_eq_true h
  exact ⟨σ, of_decide_eq_true hlen, one_open_case reachable_soldThree hrun⟩

/-- Both ways look first, and both insert. -/
def bothInsert : List (TwoStep.Action CaseCall) :=
  [.read openByTransaction, .read openByPayment, .write 0, .write 0]

/-- **A payment has two open cases.** -/
theorem two_open_cases : ¬ ∀ (us : Table User) (db : Db) (as : List (TwoStep.Action CaseCall))
    (σ : TwoStep.Session Db CaseCall CaseWrite), Reachable us db →
      Runs.Run casework.next Runs.anyStep (TwoStep.start db) as σ → σ.store.OneOpenCase := by
  intro h
  have hcheck : (Runs.runs casework.next (fun _ _ => true) (TwoStep.start soldThree)
      bothInsert).any (fun σ => decide (σ.store.openCases (.cuid 6) = 2)) = true := by
    decide +kernel
  obtain ⟨σ, hrun, htwo⟩ := Runs.exists_run_of_runs hcheck
  have hone := h _ _ _ σ reachable_soldThree (hrun.weaken fun _ _ _ => trivial) (.cuid 6)
  rw [of_decide_eq_true htwo] at hone
  omega

/-! ## Resolutions of one case -/

/-- A call of `resolve`. -/
structure ResolveCall where
  user : JwtPayload
  dto : ResolveReconciliationDto
  now : DateTime

/-- The resolutions of the case `id` as requests. -/
def resolving (id : Ident) : TwoStep Db ResolveCall FoundReconciliation where
  read db c := (Reconciliations.resolveRead db id c.user).toOption
  write db c r := (Reconciliations.resolveWrite db id c.user r c.dto c.now).toOption

/-- The status of a case. -/
def Db.caseStatus (db : Db) (id : Ident) : Option ReconciliationStatus :=
  (db.reconciliations.findUnique (.id id)).map (·.status)

/-- The case is still OPEN. -/
def StillOpen (id : Ident) (db : Db) (_ : ResolveCall) (_ : FoundReconciliation) : Prop :=
  db.caseStatus id = some .OPEN

instance (id : Ident) (db : Db) (c : ResolveCall) (r : FoundReconciliation) :
    Decidable (StillOpen id db c r) := inferInstanceAs (Decidable (_ = _))

/-- What should hold of the case `id` in a session that began on `db`, whose steps meet `C`: one
call at most has succeeded, what it decided stands, and a valid case has cost its payment and
its transaction nothing. -/
structure ResolvedOnce (id : Ident)
    (C : TwoStep.Session Db ResolveCall FoundReconciliation → TwoStep.Action ResolveCall → Prop)
    (db : Db) (σ : TwoStep.Session Db ResolveCall FoundReconciliation) : Prop where
  once : σ.done.length ≤ 1
  stands : σ.store.caseStatus id ≠ some .OPEN → ∀ as τ,
    Runs.Run (resolving id).next C σ as τ → τ.store.caseStatus id = σ.store.caseStatus id
  harmless : σ.store.caseStatus id = some .RESOLVED_VALID →
    σ.store.payments = db.payments ∧ σ.store.transactions = db.transactions

section Resolutions

variable {db db' : Db} {id : Ident} {user : JwtPayload} {r : FoundReconciliation}
  {dto : ResolveReconciliationDto} {now : DateTime}

/-- A resolution gives its case the status that it names. -/
theorem resolveWrite_caseStatus
    (h : Reconciliations.resolveWrite db id user r dto now = .ok db') :
    db'.caseStatus id = (db.caseStatus id).map fun _ => dto.newStatus.status := by
  unfold Db.caseStatus
  rw [resolveWrite_reconciliations h, Table.findUnique_update, Option.map_map, Option.map_map]
  cases hfind : db.reconciliations.findUnique (.id id) with
  | none => rfl
  | some c =>
    have hid := (Table.findUnique_eq_some.mp hfind).2
    simp only [Option.map_some, Function.comp_apply, if_pos hid]
    rfl

/-- A resolution as valid leaves the payments and the transactions alone. -/
theorem resolveWrite_valid (hvalid : dto.newStatus = .RESOLVED_VALID)
    (h : Reconciliations.resolveWrite db id user r dto now = .ok db') :
    db'.payments = db.payments ∧ db'.transactions = db.transactions := by
  rw [resolveWrite_of_valid hvalid h]
  exact ⟨rfl, rfl⟩

/-- Once its case is not OPEN, a resolution that meets the condition does not write. -/
theorem store_eq_of_closed {σ τ : TwoStep.Session Db ResolveCall FoundReconciliation}
    {as : List (TwoStep.Action ResolveCall)} (hσ : σ.store.caseStatus id ≠ some .OPEN)
    (h : Runs.Run (resolving id).next (TwoStep.Meets (fun _ _ => True) (StillOpen id)) σ as τ) :
    τ.store = σ.store := by
  refine h.invariant (fun τ => τ.store = σ.store) rfl fun ρ a τ hρ ha hstep => ?_
  rcases TwoStep.next_cases hstep with ⟨c, v, rfl, -, rfl⟩ | ⟨i, c, v, s, rfl, hcv, -, rfl⟩ |
    ⟨i, rfl, rfl⟩
  · exact hρ
  · -- the write would find the case OPEN
    have hopen : ρ.store.caseStatus id = some .OPEN := ha c v hcv
    rw [hρ] at hopen
    exact absurd hopen hσ
  · exact hρ

/-- One resolution has closed the case `id` of a session that began on `db`; if it found the
payment valid, payments and transactions are those of `db`. -/
structure Decided (id : Ident) (db : Db)
    (σ : TwoStep.Session Db ResolveCall FoundReconciliation) : Prop where
  once : σ.done.length = 1
  closed : σ.store.caseStatus id ≠ some .OPEN
  harmless : σ.store.caseStatus id = some .RESOLVED_VALID →
    σ.store.payments = db.payments ∧ σ.store.transactions = db.transactions

/-- The first resolution decides an OPEN case. -/
theorem decided_write (hopen : db.caseStatus id = some .OPEN) {c : ResolveCall}
    {pending : List (ResolveCall × FoundReconciliation)}
    (h : Reconciliations.resolveWrite db id c.user r c.dto c.now = .ok db') :
    Decided id db ⟨db', pending, [(c, r)]⟩ := by
  have hstatus : db'.caseStatus id = some c.dto.newStatus.status := by
    rw [resolveWrite_caseStatus h, hopen]
    rfl
  refine ⟨rfl, ?_, fun hvalid => ?_⟩
  · show db'.caseStatus id ≠ some .OPEN
    rw [hstatus]
    cases c.dto.newStatus <;> decide
  · have hnew : some c.dto.newStatus.status = some ReconciliationStatus.RESOLVED_VALID :=
      hstatus.symm.trans hvalid
    cases hcase : c.dto.newStatus with
    | RESOLVED_VALID => exact resolveWrite_valid hcase h
    | RESOLVED_INVALID =>
      rw [hcase] at hnew
      cases hnew

/-- What a step keeps: nothing was written yet, or the case is decided. -/
theorem decided_next {σ τ : TwoStep.Session Db ResolveCall FoundReconciliation}
    {a : TwoStep.Action ResolveCall} (hσ : (σ.store = db ∧ σ.done = []) ∨ Decided id db σ)
    (ha : TwoStep.Meets (fun _ _ => True) (StillOpen id) σ a)
    (hstep : (resolving id).next σ a = some τ) :
    (τ.store = db ∧ τ.done = []) ∨ Decided id db τ := by
  rcases TwoStep.next_cases hstep with ⟨c, v, rfl, -, rfl⟩ | ⟨i, c, v, s, rfl, hcv, hs, rfl⟩ |
    ⟨i, rfl, rfl⟩
  · exact hσ.imp_right fun h => ⟨h.once, h.closed, h.harmless⟩
  · have hopen : σ.store.caseStatus _ = some .OPEN := ha c v hcv
    rcases hσ with ⟨rfl, hdone⟩ | hdecided
    · rw [hdone]
      exact Or.inr (decided_write hopen (toOption_eq_some hs))
    · exact absurd hopen hdecided.closed
  · exact hσ.imp_right fun h => ⟨h.once, h.closed, h.harmless⟩

end Resolutions

/-- **A case is resolved once and for good**, if it is still OPEN whenever a resolution writes. -/
theorem resolved_once {id : Ident} {db : Db} {as : List (TwoStep.Action ResolveCall)}
    {σ : TwoStep.Session Db ResolveCall FoundReconciliation}
    (h : Runs.Run (resolving id).next (TwoStep.Meets (fun _ _ => True) (StillOpen id))
      (TwoStep.start db) as σ) :
    ResolvedOnce id (TwoStep.Meets (fun _ _ => True) (StillOpen id)) db σ := by
  have hsession : (σ.store = db ∧ σ.done = []) ∨ Decided id db σ :=
    h.invariant (fun σ => (σ.store = db ∧ σ.done = []) ∨ Decided id db σ) (Or.inl ⟨rfl, rfl⟩)
      fun _ _ _ hσ ha hstep => decided_next hσ ha hstep
  refine ⟨?_, fun hclosed as τ hrun => ?_, fun hvalid => ?_⟩
  · rcases hsession with ⟨-, hdone⟩ | hdecided
    · rw [hdone]
      exact Nat.zero_le 1
    · exact Nat.le_of_eq hdecided.once
  · rw [store_eq_of_closed hclosed hrun]
  · rcases hsession with ⟨hstore, -⟩ | hdecided
    · rw [hstore]
      exact ⟨rfl, rfl⟩
    · exact hdecided.harmless hvalid

/-- The sale with a case open about its payment. -/
def soldDisputed : Db :=
  after soldThree [.createReconciliation shopOwner ⟨.cuid 5, "unpaid", none⟩ 2]

/-- The payment is found invalid. -/
def asInvalid : ResolveCall := ⟨shopOwner, ⟨"unpaid", some .RESOLVED_INVALID⟩, 3⟩

/-- The payment is found valid. -/
def asValid : ResolveCall := ⟨shopOwner, ⟨"paid", some .RESOLVED_VALID⟩, 4⟩

/-- Both resolutions read, and one writes. -/
def oneResolves : List (TwoStep.Action ResolveCall) :=
  [.read asInvalid, .read asValid, .write 1, .drop 0]

/-- The one that finds the payment valid decides. -/
theorem resolved_once_valid : ∃ σ : TwoStep.Session Db ResolveCall FoundReconciliation,
    σ.store.caseStatus (.cuid 7) = some .RESOLVED_VALID ∧
      ResolvedOnce (.cuid 7) (TwoStep.Meets (fun _ _ => True) (StillOpen (.cuid 7)))
        soldDisputed σ := by
  have hcheck : (Runs.runs (resolving (.cuid 7)).next
      (fun σ a => decide (TwoStep.Meets (fun _ _ => True) (StillOpen (.cuid 7)) σ a))
      (TwoStep.start soldDisputed) oneResolves).any
      (fun σ => decide (σ.store.caseStatus (.cuid 7) = some .RESOLVED_VALID)) = true := by
    decide +kernel
  obtain ⟨σ, hrun, hvalid⟩ := Runs.exists_run_of_runs hcheck
  have hrun := hrun.weaken fun _ _ h => of_decide_eq_true h
  exact ⟨σ, of_decide_eq_true hvalid, resolved_once hrun⟩

/-- Both resolutions write, the invalid one first. -/
def bothResolve : List (TwoStep.Action ResolveCall) :=
  [.read asInvalid, .read asValid, .write 0, .write 0]

/-- **A case is resolved twice**: it ends as valid, and its payment has failed. -/
theorem resolved_twice : ¬ ∀ (us : Table User) (id : Ident) (db : Db)
    (as : List (TwoStep.Action ResolveCall))
    (σ : TwoStep.Session Db ResolveCall FoundReconciliation), Reachable us db →
      Runs.Run (resolving id).next Runs.anyStep (TwoStep.start db) as σ →
      ResolvedOnce id Runs.anyStep db σ := by
  intro h
  have hreach : Reachable systemUsers soldDisputed := reachable_soldThree.trans (reaches_after _ _)
  have hcheck : (Runs.runs (resolving (.cuid 7)).next (fun _ _ => true)
      (TwoStep.start soldDisputed) bothResolve).any
      (fun σ => decide (σ.done.length = 2 ∧ σ.store.caseStatus (.cuid 7) = some .RESOLVED_VALID ∧
        ∃ p ∈ σ.store.payments.rows, p.status = .FAILED)) = true := by decide +kernel
  obtain ⟨σ, hrun, htwice⟩ := Runs.exists_run_of_runs hcheck
  have honce := (h _ _ _ _ σ hreach (hrun.weaken fun _ _ _ => trivial)).once
  rw [(of_decide_eq_true htwice).1] at honce
  omega

end KPos
