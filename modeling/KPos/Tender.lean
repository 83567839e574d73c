/-
# Whether payments match their transactions (`sync-consumer.service.ts`, `transactions.service.ts`)

The amounts of a payment come from the till and are compared with nothing; a correction copies
the cash and the change of the old payment beside a new amount.

* `Db.TendersMatch` : amounts are totals, and cash less change is the amount;
* `tendersExactly` : what tills and corrections would have to send for it;
* `tenders_match` : then they do, in every run;
* `corrected_change` : the cash and the change of a corrected sale.
-/
import KPos.CorrectedAmounts
import KPos.Recording

namespace KPos

/-! ## Amounts, cash and change -/

/-- A payment has the amount of its transaction, and cash less change is the amount. -/
structure Payment.Matches (p : Payment) (t : Transaction) : Prop where
  amount : p.amount = t.total
  change : ∀ c ∈ p.cashReceived, ∀ r ∈ p.changeAmount, c - r = p.amount

/-- Every payment has a transaction that it matches. -/
def Db.TendersMatch (db : Db) : Prop :=
  ∀ p ∈ db.payments.rows, ∃ t ∈ db.transactions.rows, t.idTransaction = p.idTransaction ∧
    p.Matches t

/-- What a till sends of a payment matches a total, once it is rounded to cents. -/
structure SyncPaymentDto.Covers (p : SyncPaymentDto) (total : ℚ) : Prop where
  amount : roundCents p.amount = roundCents total
  change : ∀ c ∈ p.cashReceived, ∀ r ∈ p.changeAmount,
    roundCents c - roundCents r = roundCents p.amount

/-- A sale that is acceptable is covered by its payment, and a correction that is accepted has
the total that the old payment's cash and change make, if it has both. -/
def tendersExactly (db : Db) : Op → Prop
  | .sync data _ => Acceptable db data → data.payment.Covers data.total
  | .correctTransaction user id dto now => AcceptsCorrection db user id dto now →
      ∀ t p, db.findTransaction id = some t → t.payment = some p →
        ∀ c ∈ p.cashReceived, ∀ r ∈ p.changeAmount, c - r = roundCents dto.total
  | _ => True

section Tender

variable {db : Db}

/-- Lifecycles leave totals alone. -/
theorem Payment.Matches.moved {p : Payment} {t t' : Transaction} (hmoved : t.Moved t')
    (h : p.Matches t) : p.Matches t' := by
  refine ⟨?_, h.change⟩
  rw [h.amount, hmoved]

/-- A payment is stored once. -/
theorem Payment.stored_stored (p : Payment) : p.stored.stored = p.stored := by
  have htwice : roundCents ∘ roundCents = roundCents := funext roundCents_roundCents
  simp only [Payment.stored, Option.map_map, roundCents_roundCents, htwice]

/-- The payment of a till is stored as it was sent, up to rounding. -/
theorem SyncPaymentDto.Covers.matches {dto : SyncPaymentDto} {t : Transaction}
    (h : dto.Covers t.total) (mid : Db) (txId merchantId : Ident) (now : DateTime) :
    (paymentRow mid txId merchantId dto now).stored.Matches t.stored := by
  refine ⟨h.amount, ?_⟩
  intro c hc r hr
  obtain ⟨x, hx, rfl⟩ := Option.mem_map.mp hc
  obtain ⟨y, hy, rfl⟩ := Option.mem_map.mp hr
  exact h.change x hx y hy

/-- The copy of a payment has the cash and the change that are stored. -/
theorem Payment.matches_cloned {p : Payment} {t : FoundTransaction} {dto : CorrectTransactionDto}
    (hstored : p.stored = p)
    (h : ∀ c ∈ p.cashReceived, ∀ r ∈ p.changeAmount, c - r = roundCents dto.total) (mid : Db)
    (txId : Ident) (now : DateTime) : (clonedPayment mid t p txId dto.total now).stored.Matches
      (correctedRow db t dto now).stored := by
  have hcash : p.cashReceived.map roundCents = p.cashReceived :=
    congrArg Payment.cashReceived hstored
  have hchange : p.changeAmount.map roundCents = p.changeAmount :=
    congrArg Payment.changeAmount hstored
  refine ⟨rfl, ?_⟩
  intro c hc r hr
  exact h c (hcash ▸ hc) r (hchange ▸ hr)

theorem correctTransactionRead_found {user : JwtPayload} {id : Ident} {t : FoundTransaction}
    (h : Transactions.correctTransactionRead db user id = .ok t) :
    db.findTransaction id = some t := by
  unfold Transactions.correctTransactionRead Transactions.findOne at h
  simp only [bind_eq_ok, orThrow_eq_ok, require_eq_ok, pure_eq_ok, exists_const] at h
  obtain ⟨_, ⟨_, hfind, -, rfl⟩, -, rfl⟩ := h
  exact hfind

/-- The invariant: payments match their transactions and are stored in cents. -/
def Tendered (p : Payment) (t : Transaction) : Prop := p.Matches t ∧ p.stored = p

/-- **A call keeps it.** -/
theorem tendered_exec {us : Table User} (hreach : Reachable us db) (hdb : db.Paired Tendered)
    {op : Op} (hop : tendersExactly db op) : (exec db op).Paired Tendered := by
  have hwired := hreach.wired
  refine hdb.exec hwired ?_ ?_ ?_
  · exact fun p t t' hmoved h => ⟨h.1.moved hmoved, h.2⟩
  · intro p t h
    exact ⟨⟨h.1.amount, h.1.change⟩, congrArg Payment.failed.toFun h.2⟩
  · intro p t hnew
    cases hnew with
    | sold mid d hasConflict created stored =>
      obtain ⟨db', hok⟩ := stored
      have hcovers := hop (acceptable_of_ok hok)
      exact ⟨SyncPaymentDto.Covers.matches (t := headerRow db _ d hasConflict created _) hcovers
        mid _ _ _, Payment.stored_stored _⟩
    | corrected mid t p hread hwrite hp =>
      obtain ⟨db', hwrite⟩ := hwrite
      have haccepts := (correctTransaction_isOk hreach _).mp
        ⟨db', bind_eq_ok.mpr ⟨t, hread, hwrite⟩⟩
      have hcur := (correctTransactionRead_eq_ok hread).1
      -- the payment that was read is stored, so it is stored in cents
      have hfound := hcur.payment.symm.trans hp
      rw [Table.findUnique_eq_some, payment_transaction_mem_keys] at hfound
      have hstored := (hdb p hfound.1 t.row hcur.row hfound.2.symm).2
      have hchange := hop haccepts t p (correctTransactionRead_found hread) hp
      exact ⟨Payment.matches_cloned hstored hchange mid _ _, Payment.stored_stored _⟩

end Tender

/-- **Payments match their transactions** in every state that is reached when tills send payments
that cover their sales and corrections have the total of the old cash and change. -/
theorem tenders_match {us : Table User} {ops : List Op} {db : Db}
    (h : Runs.Run next tendersExactly (Db.withUsers us) ops db) : db.TendersMatch := by
  have hinv : Reachable us db ∧ db.Paired Tendered := by
    refine h.invariant_total (fun db => Reachable us db ∧ db.Paired Tendered)
      ⟨.refl _, fun _ hp => nomatch hp⟩ fun db₁ op hdb hop => ?_
    obtain ⟨hreach, hpaired⟩ := hdb
    have hstep : next db₁ op = some (exec db₁ op) := rfl
    exact ⟨hreach.step hstep, tendered_exec hreach hpaired hop⟩
  obtain ⟨hreach, hpaired⟩ := hinv
  intro p hp
  obtain ⟨t, ht, hkey⟩ := Table.has_iff.mp (hreach.wired.payments p hp).2
  have hid := id_mem_keys.mp hkey
  exact ⟨t, ht, hid, (hpaired p hp t ht hid).1⟩

/-- A sale of three pieces, paid with ten and four back. -/
def paidWithTen : QueuedTransaction :=
  { shopQueued shopDevice "a" [3] with payment := ⟨.CASH, 6, some 10, some 4, none, none⟩ }

/-- The shop after the sale. -/
def paidShop : Db := after shop [.sync paidWithTen (.served 1)]

/-- The sale is corrected to two pieces, at a total. -/
def correctedFor (total : ℚ) : Op :=
  .correctTransaction shopOwner (.cuid 5) (toTwoFor total) 2

theorem run_paidShop : Runs.Run next tendersExactly (Db.withUsers systemUsers)
    (shopOpening ++ [.sync paidWithTen (.served 1)]) paidShop := by
  have hshop : Runs.Run next tendersExactly (Db.withUsers systemUsers) shopOpening shop := by
    apply run_shop
    intro db op hop
    cases op <;> trivial
  have hcovers : paidWithTen.payment.Covers paidWithTen.total := by
    refine ⟨by decide +kernel, ?_⟩
    rintro c hc r hr
    obtain rfl := Option.some.inj hc
    obtain rfl := Option.some.inj hr
    decide +kernel
  exact hshop.step (fun _ => hcovers) rfl

/-- A correction that keeps the total keeps cash and change right. -/
theorem tenders_match_sameTotal : (exec paidShop (correctedFor 6)).payments.rows.length = 2 ∧
    (exec paidShop (correctedFor 6)).TendersMatch := by
  have hpaid : ∀ p ∈ paidShop.payments.rows, ∀ c ∈ p.cashReceived, ∀ r ∈ p.changeAmount,
      c - r = roundCents 6 := by decide +kernel
  have hcond : tendersExactly paidShop (correctedFor 6) := by
    intro _ t p hfind hp
    rw [(findTransaction_eq_some hfind).1.payment] at hp
    exact hpaid p (Table.findUnique_eq_some.mp hp).1
  exact ⟨by decide +kernel, tenders_match (run_paidShop.step hcond rfl)⟩

/-- Whatever is sent has passed the validation pipe. -/
def sentValid (_ : Db) : Op → Prop
  | .sync data _ => data.Valid
  | .correctTransaction _ _ dto _ => dto.Valid
  | _ => True

/-- **The change of a corrected sale is wrong**: ten received, four back, for a total of four. -/
theorem corrected_change : ¬ ∀ (us : Table User) (ops : List Op) (db : Db),
    Runs.Run next sentValid (Db.withUsers us) ops db → db.TendersMatch := by
  intro h
  have hshop : Runs.Run next sentValid (Db.withUsers systemUsers) shopOpening shop := by
    apply run_shop
    intro db op hop
    cases op <;> trivial
  have hvalid : paidWithTen.Valid := by
    obtain ⟨hid, hid', hcreated, hsub, htot, hne, hitems, -⟩ : (shopSale "a" [3]).Valid :=
      oneSale.valid _ (List.mem_singleton_self _)
    have hpay : paidWithTen.payment.Valid := by
      refine ⟨by decide +kernel, ?_, ?_⟩
      · exact fun x hx => Option.some.inj hx ▸ by norm_num
      · exact fun x hx => Option.some.inj hx ▸ by norm_num
    exact ⟨hid, hid', hcreated, hsub, htot, hne, hitems, hpay⟩
  have hsync : sentValid shop (.sync paidWithTen (.served 1)) := hvalid
  have hcorrect : sentValid paidShop (correctedFor 4) := toTwoFor_valid (by norm_num)
  have hmatch := h _ _ _ ((hshop.step hsync rfl).step hcorrect rfl)
  have hwrong : ∃ p ∈ (exec paidShop (correctedFor 4)).payments.rows, ∃ c ∈ p.cashReceived,
      ∃ r ∈ p.changeAmount, c - r ≠ p.amount := by decide +kernel
  obtain ⟨p, hp, c, hc, r, hr, hne⟩ := hwrong
  obtain ⟨t, -, -, hp⟩ := hmatch p hp
  exact hne (hp.change c hc r hr)

end KPos
