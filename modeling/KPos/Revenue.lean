/-
# What the verified payments add up to (`payments.service.ts`, `transactions.service.ts`)

The payments of a merchant are listed by their own status, whatever became of their
transactions.  A correction voids the old transaction and copies its payment, with its status,
to the new one; the old payment stays as it is.

* `CountsOnce` : of the transactions that corrections link, one at most has a VERIFIED payment;
* `correctsUnverified` : the condition, that no VERIFIED payment is copied;
* `verified_once` : under the condition it holds in every run;
* `verified_twice` : a sale that is corrected counts twice.
-/
import KPos.Invalidations

namespace KPos

open Relation

/-! ## Listing payments -/

/-- The columns of a transaction that a listed payment includes. -/
structure ListedTransaction where
  idTransaction : Ident
  offlineUuid : Option Ident
  status : TransactionStatus
  syncStatus : SyncStatus
  createdAtLocal : Option DateTime

/-- The columns of a case that a listed payment includes. -/
structure ListedCase where
  idReconciliation : Ident
  status : ReconciliationStatus
  reason : String
  createdAt : DateTime

structure ListedPayment where
  row : Payment
  transaction : Option ListedTransaction
  reconciliations : List ListedCase

/-- A payment with what `findAll` includes. -/
def Db.listedPayment (db : Db) (p : Payment) : ListedPayment where
  row := p
  transaction := (db.transactions.findUnique (.id p.idTransaction)).map fun t =>
    ⟨t.idTransaction, t.offlineUuid, t.status, t.syncStatus, t.createdAtLocal⟩
  reconciliations :=
    (db.reconciliations.rows.filter fun r => decide (r.idPayment = p.idPayment)).map fun r =>
      ⟨r.idReconciliation, r.status, r.reason, r.createdAt⟩

/-- `findAll`: the payments of the merchant, of the given status if there is one, the newest
first. -/
def Payments.findAll (db : Db) (user : JwtPayload) (status : Option PaymentStatus) :
    List ListedPayment :=
  ((db.payments.rows.filter fun p => decide (p.idMerchant = user.idMerchant ∧
      ∀ s ∈ status, p.status = s)).map db.listedPayment).mergeSort fun a b =>
    decide (b.row.createdAt ≤ a.row.createdAt)

/-! ## Counting a sale once -/

/-- The payment of the transaction is VERIFIED. -/
def Db.Verified (db : Db) (i : Ident) : Prop :=
  ∃ p ∈ db.payments.rows, p.idTransaction = i ∧ p.status = .VERIFIED

/-- Corrections link the transactions, through any number of them. -/
abbrev Db.SameSale (db : Db) : Ident → Ident → Prop := EqvGen db.ReplacedBy

/-- A sale has one VERIFIED payment at most, however often it was corrected, and so no two of
the VERIFIED payments that a merchant lists are of one sale. -/
structure CountsOnce (db : Db) : Prop where
  chains : ∀ i j, db.SameSale i j → db.Verified i → db.Verified j → i = j
  listed : ∀ user, (Payments.findAll db user (some .VERIFIED)).Pairwise fun a b =>
    ¬ db.SameSale a.row.idTransaction b.row.idTransaction

/-- A correction that goes through finds no VERIFIED payment. -/
def correctsUnverified (db : Db) : Op → Prop
  | .correctTransaction user id dto now => ∀ t db',
      Transactions.correctTransactionRead db user id = .ok t →
        Transactions.correctTransactionWrite db user t dto now = .ok db' →
          ∀ p, t.payment = some p → p.status ≠ .VERIFIED
  | _ => True

/-- The transactions as documents, live while their payment is VERIFIED. -/
def Db.verifiedSales (db : Db) : Replacements Ident where
  live := db.Verified
  known i := db.transactions.has (.id i) = true
  replacedBy := db.ReplacedBy
  discarded _ := False

section Counting

variable {db db' : Db}

/-- What is listed as VERIFIED is a VERIFIED payment. -/
theorem mem_findAll {user : JwtPayload} {status : Option PaymentStatus} {a : ListedPayment} :
    a ∈ Payments.findAll db user status ↔ ∃ p ∈ db.payments.rows, p.idMerchant = user.idMerchant ∧
      (∀ s ∈ status, p.status = s) ∧ db.listedPayment p = a := by
  unfold Payments.findAll
  rw [List.mem_mergeSort, List.mem_map]
  simp only [List.mem_filter, decide_eq_true_eq, and_assoc]

/-- The rows listed are rows of different transactions. -/
theorem pairwise_findAll (user : JwtPayload) (status : Option PaymentStatus) :
    (Payments.findAll db user status).Pairwise fun a b =>
      a.row.idTransaction ≠ b.row.idTransaction := by
  unfold Payments.findAll
  rw [(List.mergeSort_perm _ _).pairwise_iff fun h => h.symm, List.pairwise_map]
  refine (db.payments.apart.filter _).imp fun {p q} hpq heq => ?_
  exact hpq _ (payment_transaction_mem_keys.mpr heq) (payment_transaction_mem_keys.mpr rfl)

/-- One VERIFIED payment a sale is one that is listed. -/
theorem countsOnce_of_single (h : db.verifiedSales.Single) : CountsOnce db where
  chains := h.single
  listed := by
    intro user
    refine (pairwise_findAll user (some .VERIFIED)).imp_of_mem fun {a b} ha hb hne hlinked => ?_
    obtain ⟨p, hp, -, hpv, rfl⟩ := mem_findAll.mp ha
    obtain ⟨q, hq, -, hqv, rfl⟩ := mem_findAll.mp hb
    exact hne (h.single _ _ hlinked ⟨p, hp, rfl, hpv _ rfl⟩ ⟨q, hq, rfl, hqv _ rfl⟩)

/-- The rows after a call are linked as before when the corrections are. -/
theorem replacedBy_of_corrections (h : db'.corrections = db.corrections) {a b : Ident}
    (hab : db'.ReplacedBy a b) : db.ReplacedBy a b := by
  unfold Db.ReplacedBy at hab ⊢
  rwa [h] at hab

/-- A call that settles something without a correction links nothing. -/
theorem within_verifiedSales
    (hhas : ∀ k, db.transactions.has k = true → db'.transactions.has k = true)
    (hcs : db'.corrections = db.corrections) :
    Replacements.Within db'.verifiedSales db.verifiedSales where
  known := fun i => hhas (.id i)
  replacedBy := fun _ _ => replacedBy_of_corrections hcs
  discarded := fun _ h => h

/-- A correction of a transaction whose payment is not VERIFIED adds none that is. -/
theorem verified_of_cloned {user : JwtPayload} {t : FoundTransaction}
    {dto : CorrectTransactionDto} {now : DateTime}
    (h : Transactions.correctTransactionWrite db user t dto now = .ok db')
    (hcond : ∀ p, t.payment = some p → p.status ≠ .VERIFIED) {i : Ident} (hi : db'.Verified i) :
    db.Verified i := by
  obtain ⟨q, hq, hqi, hver⟩ := hi
  rcases correctTransactionWrite_cloned h with ⟨-, hps⟩ | ⟨p, mid, hp, hps⟩
  · rw [hps] at hq
    exact ⟨q, hq, hqi, hver⟩
  · rcases (Table.mem_insert hps).mp hq with hq | rfl
    · exact ⟨q, hq, hqi, hver⟩
    · -- the copy has the status of what was copied
      exact absurd hver (hcond p hp)

/-- **A call under the condition leaves each sale with one VERIFIED payment.** -/
theorem single_exec (hdb : db.verifiedSales.Single) {op : Op} (hop : correctsUnverified db op) :
    (exec db op).verifiedSales.Single := by
  have hsettles := exec_settles db op
  have hgrows := (exec_grows db op).transactions
  generalize exec db op = db' at hsettles hgrows
  cases hsettles with
  | alone hts hps hcs =>
    refine hdb.withdraw (within_verifiedSales hgrows hcs) fun i hi => ?_
    show db.Verified i
    unfold Db.Verified
    rw [← hps]
    exact hi
  | moved i f hf hts hps hcs =>
    refine hdb.withdraw (within_verifiedSales hgrows hcs) fun i hi => ?_
    show db.Verified i
    unfold Db.Verified
    rw [← hps]
    exact hi
  | failed r found hts hps hcs =>
    refine hdb.withdraw (within_verifiedSales hgrows hcs) fun i hi => ?_
    obtain ⟨q, hq, hqi, hver⟩ := hi
    rw [hps] at hq
    rcases Table.mem_update_iff.mp hq with ⟨p, hp, -, rfl⟩ | ⟨hq, -⟩
    · cases hver
    · exact ⟨q, hq, hqi, hver⟩
  | sold d created stored sale hts hps hcs =>
    have hins := sale.insertable.header
    rw [← hts] at hins
    have hfresh : ¬ db.verifiedSales.known db.newId := by
      show ¬ db.transactions.has (.id db.newId) = true
      rw [Table.has_iff]
      rintro ⟨t, ht, hid⟩
      exact Table.free_of_insert hins ht List.mem_cons_self hid
    refine hdb.add (within_verifiedSales hgrows hcs) hfresh
      ((Table.has_of_insert hins).mpr (Or.inr List.mem_cons_self)) fun i hi => ?_
    obtain ⟨q, hq, hqi, hver⟩ := hi
    rw [hps] at hq
    rcases (Table.mem_insert sale.insertable.payment).mp hq with hq | rfl
    · exact Or.inl ⟨q, hq, hqi, hver⟩
    · exact Or.inr hqi.symm
  | corrected t hread hwrite =>
    obtain ⟨hcur, -, hstatus⟩ := correctTransactionRead_eq_ok hread
    have hbridged := correctTransactionWrite_bridged hcur hstatus hwrite
    obtain ⟨o, ho, hoi, -⟩ := hbridged.old
    refine hdb.replace ?_ (Table.has_of_mem ho (id_mem_keys.mpr hoi)) (fun i => hgrows (.id i))
      ((hbridged.has _).mpr (Or.inr rfl)) hbridged.links
      fun i hi => verified_of_cloned hwrite (hop t db' hread hwrite) hi
    show ¬ db.transactions.has (.id db.newId) = true
    rw [hbridged.fresh]
    exact Bool.false_ne_true

end Counting

/-- **Each sale has one VERIFIED payment at most**, in every run whose corrections copy none. -/
theorem verified_once {us : Table User} {ops : List Op} {db : Db}
    (h : Runs.Run next correctsUnverified (Db.withUsers us) ops db) : CountsOnce db := by
  have hsingle : db.verifiedSales.Single := by
    refine h.invariant_total (fun db => db.verifiedSales.Single) ?_ fun db₁ op hdb hop => ?_
    · constructor
      · rintro a b ⟨c, hc, -⟩
        cases hc
      · rintro d ⟨p, hp, -⟩
        cases hp
      · rintro a b - ⟨p, hp, -⟩
        cases hp
    · exact single_exec hdb hop
  exact countsOnce_of_single hsingle

/-- A sale in conflict whose payment is found invalid, and which is confirmed all the same. -/
def confirmedUnpaid : List Op :=
  [shopSync "a" [20], .createReconciliation shopOwner ⟨.cuid 5, "unpaid", none⟩ 2, foundInvalid,
   .resolveConflict shopOwner (.cuid 5) ⟨.CONFIRM, none⟩ 5]

/-- The sale is corrected to two pieces. -/
def correctedToTwo : Op :=
  .correctTransaction shopOwner (.cuid 5)
    ⟨"miscounted", [⟨shopProduct, 2, 2, 4, none⟩], 4, 4, none⟩ 6

/-- The shop before the correction. -/
def unpaidSale : Db := after (Db.withUsers systemUsers) (shopOpening ++ confirmedUnpaid)

/-- A payment that is not VERIFIED is copied. -/
theorem verified_once_unpaid : (exec unpaidSale correctedToTwo).payments.rows.length = 2 ∧
    CountsOnce (exec unpaidSale correctedToTwo) := by
  have hsold : Runs.Run next correctsUnverified (Db.withUsers systemUsers)
      (shopOpening ++ confirmedUnpaid) unpaidSale := by
    apply run_after
    intro op hop db
    simp only [shopOpening, confirmedUnpaid, List.cons_append, List.nil_append, List.mem_cons,
      List.not_mem_nil, or_false] at hop
    rcases hop with rfl | rfl | rfl | rfl | rfl | rfl | rfl | rfl | rfl <;> trivial
  have hfailed : ∀ p ∈ unpaidSale.payments.rows, p.status ≠ .VERIFIED := by decide +kernel
  have hcond : correctsUnverified unpaidSale correctedToTwo := by
    intro t db' hread _ p hp
    rw [(correctTransactionRead_eq_ok hread).1.payment] at hp
    exact hfailed p (Table.findUnique_eq_some.mp hp).1
  exact ⟨by decide +kernel, verified_once (hsold.step hcond rfl)⟩

/-- The shop after a sale and its correction. -/
def correctedSale : Db := after shop [shopSync "a" [3], correctedToTwo]

/-- **A sale counts twice** once it is corrected: both payments are VERIFIED. -/
theorem verified_twice : ¬ ∀ (us : Table User) (db : Db), Reachable us db → CountsOnce db := by
  intro h
  have hreach : Reachable systemUsers correctedSale := reachable_after_shop _
  have hlink : correctedSale.ReplacedBy (.cuid 5) (.cuid 7) := by
    unfold Db.ReplacedBy
    decide +kernel
  have hold : correctedSale.Verified (.cuid 5) := by
    unfold Db.Verified
    decide +kernel
  have hnew : correctedSale.Verified (.cuid 7) := by
    unfold Db.Verified
    decide +kernel
  have heq := (h systemUsers correctedSale hreach).chains _ _ (.rel _ _ hlink) hold hnew
  cases heq

end KPos
