/-
# Whether a void is final (`transactions.service.ts`, `reconciliations.service.ts`)

A VOIDED transaction should stay as it is.  Every service but one looks at the status before
it writes; `resolveConflict` looks at `sync_status` alone, and `voidTransaction`
leaves that at SYNC_CONFLICT.

* `keepsVoids` : the condition on a call, that it does not resolve such a transaction;
* `voided_is_final` : under the condition a void is final in every run;
* `voided_not_final` : without it, it is not.
-/
import KPos.Books

namespace KPos

/-- The history rows of a transaction. -/
def Db.historiesOf (db : Db) (idTransaction : Ident) : List StockHistory :=
  db.stockHistories.filter fun h => decide (h.idTransaction = some idTransaction)

/-- The call does not resolve the conflict of a transaction that is VOIDED. -/
def keepsVoids (db : Db) : Op → Bool
  | .resolveConflict user id _ _ =>
      match Transactions.resolveConflictRead db user id with
      | .ok t => decide (t.row.status ≠ .VOIDED)
      | .error _ => true
  | _ => true

/-- The void of `t` is as it was: its status, its columns, and no movement is new. -/
structure VoidKept (t : Transaction) (db db' : Db) : Prop where
  row : ∃ t' ∈ db'.transactions.rows, t'.idTransaction = t.idTransaction ∧
    t'.status = .VOIDED ∧ t'.voidedAt = t.voidedAt ∧ t'.voidedBy = t.voidedBy ∧
    t'.voidReason = t.voidReason
  histories : db'.historiesOf t.idTransaction = db.historiesOf t.idTransaction

section Steps

variable {db db' : Db} {t : Transaction}

/-- Movements for other transactions leave those of `k` as they are. -/
theorem Entered.historiesOf_eq {ds : List DetailTransaction} {hs : List StockHistory} {k : Ident}
    (h : Entered db db' ds hs) (hhs : ∀ r ∈ hs, r.idTransaction ≠ some k) :
    db'.historiesOf k = db.historiesOf k := by
  have hnew : hs.filter (fun r => decide (r.idTransaction = some k)) = [] := by
    rw [List.filter_eq_nil_iff]
    intro r hr
    simpa using hhs r hr
  unfold Db.historiesOf
  rw [h.histories, List.filter_append, hnew, List.append_nil]

/-- A row is left alone when another one is rewritten. -/
theorem mem_update_of_ne {ts : Table Transaction} {i : Ident} {f : Rewrite Transaction}
    (ht : t ∈ ts.rows) (hi : t.idTransaction ≠ i) : t ∈ (ts.update (.id i) f).rows :=
  Table.mem_update_of_not_mem ht fun hkey => hi (id_mem_keys.mp hkey)

/-- Rows with different statuses have different ids. -/
theorem id_ne_of_status {s : Transaction} (ht : t ∈ db.transactions.rows)
    (hs : s ∈ db.transactions.rows) (hv : t.status = .VOIDED) (hne : s.status ≠ .VOIDED) :
    t.idTransaction ≠ s.idTransaction := by
  intro heq
  rw [row_unique ht hs heq] at hv
  exact hne hv

/-- The id of a row is none that is new. -/
theorem id_ne_newId {r : Transaction} {ts : Table Transaction}
    (ht : t ∈ db.transactions.rows) (h : db.transactions.insert r = some ts) :
    t.idTransaction ≠ r.idTransaction := fun heq =>
  Table.free_of_insert h ht (id_mem_keys.mpr rfl) (id_mem_keys.mpr heq)

/-- **A call under the condition leaves a VOIDED transaction alone.** -/
theorem exec_keeps_void (ht : t ∈ db.transactions.rows) (hv : t.status = .VOIDED) {op : Op}
    (hop : keepsVoids db op = true) : t ∈ (exec db op).transactions.rows ∧
      (exec db op).historiesOf t.idTransaction = db.historiesOf t.idTransaction := by
  have heffect := exec_effect db op
  generalize exec db op = db' at heffect
  cases heffect with
  | alone same _ _ =>
    rw [same.transactions]
    exact ⟨ht, same.entered.historiesOf_eq fun _ h => nomatch h⟩
  | adjusted product _ moved _ =>
    have hts : db'.transactions = db.transactions := by rw [moved.frame]
    rw [hts]
    refine ⟨ht, moved.entered.historiesOf_eq fun r hr => ?_⟩
    rw [List.mem_singleton.mp hr]
    exact nofun
  | @synced data outcome db₁ _ d created sale rest =>
    have hins := sale.insertable.header
    have hne := id_ne_newId ht hins
    rw [rest.transactions, rest.entered.historiesOf_eq fun _ h => nomatch h]
    refine ⟨(Table.mem_insert hins).mpr (Or.inl ht), sale.entered.historiesOf_eq fun r hr => ?_⟩
    split at hr
    · cases hr
    · rw [saleHistories_named r hr]
      exact fun heq => hne (Option.some.inj heq).symm
  | voided s read =>
    obtain ⟨hcur, -, hstatus⟩ := voidTransactionRead_eq_ok read
    exact ⟨mem_update_of_ne ht (id_ne_of_status ht hcur.row hv (by rw [hstatus]; decide)), rfl⟩
  | @confirmed user id dto now _ s read forced =>
    obtain ⟨hcur, -, -⟩ := resolveConflictRead_eq_ok read
    -- here the condition is needed: the read tests the conflict alone
    have hlive : s.row.status ≠ .VOIDED := by simpa [keepsVoids, read] using hop
    have hne := id_ne_of_status ht hcur.row hv hlive
    rw [forced.transactions]
    refine ⟨mem_update_of_ne ht hne, forced.entered.historiesOf_eq fun r hr => ?_⟩
    rw [forcedHistories_named r hr]
    exact fun heq => hne (Option.some.inj heq).symm
  | @conflictVoided user id dto now s read =>
    obtain ⟨hcur, -, -⟩ := resolveConflictRead_eq_ok read
    have hlive : s.row.status ≠ .VOIDED := by simpa [keepsVoids, read] using hop
    exact ⟨mem_update_of_ne ht (id_ne_of_status ht hcur.row hv hlive), rfl⟩
  | corrected s read written =>
    obtain ⟨hcur, -, hstatus⟩ := correctTransactionRead_eq_ok read
    obtain ⟨ts, hins, hts⟩ := written.transactions
    have hnew := id_ne_newId ht hins
    have hold := id_ne_of_status ht hcur.row hv (by rw [hstatus]; decide)
    rw [hts]
    refine ⟨mem_update_of_ne ((Table.mem_insert hins).mpr (Or.inl ht)) hold,
      written.entered.historiesOf_eq fun r hr => ?_⟩
    rcases correctionHistories_named r hr with h | h <;> rw [h]
    · exact fun heq => hold (Option.some.inj heq).symm
    · exact fun heq => hnew (Option.some.inj heq).symm
  | invalidated r found live rest _ =>
    have hne := id_ne_of_status ht (findReconciliation_eq_some found).2.2 hv live
    have hrest := rest.entered.historiesOf_eq (k := t.idTransaction) fun _ h => nomatch h
    rw [← rest.transactions] at ht
    exact ⟨mem_update_of_ne ht hne, hrest⟩

end Steps

/-- **A void is final** in every run whose calls meet the condition, from any state. -/
theorem voided_is_final {db db' : Db} {ops : List Op} {t : Transaction}
    (h : Runs.Run next (fun db op => keepsVoids db op = true) db ops db')
    (ht : t ∈ db.transactions.rows) (hv : t.status = .VOIDED) : VoidKept t db db' := by
  have hkept : t ∈ db'.transactions.rows ∧
      db'.historiesOf t.idTransaction = db.historiesOf t.idTransaction := by
    refine h.invariant_total (fun db' => t ∈ db'.transactions.rows ∧
      db'.historiesOf t.idTransaction = db.historiesOf t.idTransaction) ⟨ht, rfl⟩ ?_
    rintro db₁ op ⟨hmem, hhist⟩ hop
    obtain ⟨hmem', hhist'⟩ := exec_keeps_void hmem hv hop
    exact ⟨hmem', hhist'.trans hhist⟩
  exact ⟨⟨t, hkept.1, rfl, hv, rfl, rfl, rfl⟩, hkept.2⟩

/-- The shop after a sale that asks for more than there is, and its void. -/
def voidedSale : Db :=
  after shop [shopSync "a" [20], .voidTransaction shopOwner (.cuid 5) "mistake" 2]

/-- The voided sale is confirmed by force once there is stock for it. -/
def revival : List Op :=
  [.adjustStock shopOwner shopProduct ⟨20, none⟩ 3,
   .resolveConflict shopOwner (.cuid 5) ⟨.CONFIRM, none⟩ 4]

/-- Another sale that asks for more than there is, and is confirmed by force. -/
def otherConflict : List Op :=
  [shopSync "b" [30], .resolveConflict shopOwner (.text "b") ⟨.CONFIRM, none⟩ 3]

/-- A void is final in a run that resolves another conflict after it. -/
theorem voided_is_final_shop : (∃ s ∈ (after voidedSale otherConflict).transactions.rows,
      s.offlineUuid = some (.text "b") ∧ s.status = .CONFIRMED) ∧
    ∃ t ∈ voidedSale.transactions.rows, t.status = .VOIDED ∧
      VoidKept t voidedSale (after voidedSale otherConflict) := by
  have hvoided : ∃ t ∈ voidedSale.transactions.rows, t.status = .VOIDED := by decide +kernel
  obtain ⟨t, ht, hv⟩ := hvoided
  have hkeeps : keepsVoids (exec voidedSale (shopSync "b" [30]))
      (.resolveConflict shopOwner (.text "b") ⟨.CONFIRM, none⟩ 3) = true := by decide +kernel
  have hrun : Runs.Run next (fun db op => keepsVoids db op = true) voidedSale otherConflict
      (after voidedSale otherConflict) :=
    .cons rfl rfl (.cons hkeeps rfl .start)
  exact ⟨by decide +kernel, t, ht, hv, voided_is_final hrun ht hv⟩

/-- **A void is not final**: `resolveConflict` confirms a voided transaction. -/
theorem voided_not_final : ¬ ∀ (us : Table User) (db db' : Db) (t : Transaction),
    Reachable us db → Runs.Reaches next db db' → t ∈ db.transactions.rows →
      t.status = .VOIDED → VoidKept t db db' := by
  intro h
  have hreach : Reachable systemUsers voidedSale := reachable_after_shop _
  have hvoided : ∃ t ∈ voidedSale.transactions.rows, t.status = .VOIDED := by decide +kernel
  obtain ⟨t, ht, hv⟩ := hvoided
  have hconfirmed : ∀ t ∈ (after voidedSale revival).transactions.rows, t.status ≠ .VOIDED := by
    decide +kernel
  obtain ⟨t', ht', -, hv', -⟩ := (h _ _ _ t hreach (reaches_after _ revival) ht hv).row
  exact hconfirmed t' ht' hv'

end KPos
