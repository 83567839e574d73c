/-
# How a sale moves on (`transactions.service.ts`, `sync.service.ts`, `reconciliations.service.ts`)

A sale is stored as CONFIRMED, or as PENDING with a conflict.  A void leaves the conflict marked,
so the sale may still be resolved; a resolution clears the mark, and then all that can follow is
one more void.

* `SaleStage`, `SaleStage.Follows` : the stages of a transaction, and what may follow which;
* `Transaction.Onward` : what a call can do to a stored transaction;
* `transaction_moves_on` : in a run of the server a transaction changes its stage four times at
  most, its creation included;
* `status_moves_on` : what a till is told about a sale never goes back.
-/
import KPos.Lib.Lifecycle
import KPos.Disclosure
import KPos.Footprints
import KPos.Server

namespace KPos

open Relation

/-! ## Stages -/

/-- Where a transaction stands: its status and whether a conflict is marked. -/
inductive SaleStage where
  | conflict | abandoned | confirmed | voided
  deriving DecidableEq, Repr

/-- The stage of a transaction; other combinations do not occur. -/
def Transaction.stage (t : Transaction) : Option SaleStage :=
  match t.status, t.syncStatus with
  | .PENDING, .SYNC_CONFLICT => some .conflict
  | .VOIDED, .SYNC_CONFLICT => some .abandoned
  | .CONFIRMED, .SYNCED => some .confirmed
  | .VOIDED, .SYNCED => some .voided
  | _, _ => none

/-- The stage of a stored transaction; nothing when there is none. -/
def Db.stage (db : Db) (i : Ident) : Option SaleStage :=
  (db.transactions.findUnique (.id i)).bind Transaction.stage

/-- What may follow a stage. -/
inductive SaleStage.Follows : SaleStage → SaleStage → Prop
  /-- It is voided, or its payment is found invalid, before the conflict is resolved. -/
  | abandon : Follows .conflict .abandoned
  /-- The conflict is resolved. -/
  | confirm : Follows .conflict .confirmed
  | discard : Follows .conflict .voided
  /-- The conflict is resolved although the transaction is VOIDED. -/
  | revive : Follows .abandoned .confirmed
  | close : Follows .abandoned .voided
  /-- It is corrected, or its payment is found invalid. -/
  | reverse : Follows .confirmed .voided

def SaleStage.rank : SaleStage → ℕ
  | .conflict => 3
  | .abandoned => 2
  | .confirmed => 1
  | .voided => 0

/-- The life cycle of a transaction, from before it is stored. -/
inductive StageFollows : Option SaleStage → Option SaleStage → Prop
  /-- It is stored by the consumer, or by a correction. -/
  | stored : StageFollows none (some .conflict)
  | sold : StageFollows none (some .confirmed)
  | moved {s s' : SaleStage} (h : SaleStage.Follows s s') : StageFollows (some s) (some s')

def transactionLifecycle : Runs.Lifecycle (Option SaleStage) where
  Follows := StageFollows
  rank
    | none => 4
    | some s => s.rank
  rank_lt := by
    intro b c h
    cases h with
    | stored => decide
    | sold => decide
    | moved h => cases h <;> decide

/-! ## What a call can do to a transaction -/

/-- What a call can do to a stored transaction. -/
structure Transaction.Onward (t t' : Transaction) : Prop where
  id : t'.idTransaction = t.idTransaction
  offlineUuid : t'.offlineUuid = t.offlineUuid
  syncStatus : t'.syncStatus = t.syncStatus ∨ t'.syncStatus = .SYNCED
  stage : ∀ s, t.stage = some s → ∃ s', t'.stage = some s' ∧ (s' = s ∨ SaleStage.Follows s s')

/-- The transaction is as a call stores it. -/
def Transaction.IsNew (t : Transaction) : Prop :=
  t.stage = some .conflict ∨ t.stage = some .confirmed

/-- The transactions stay, each moved on, and new ones are added. -/
structure MovedOn (ts ts' : Table Transaction) : Prop where
  kept : ∀ t ∈ ts.rows, ∃ t' ∈ ts'.rows, t.Onward t'
  added : ∀ t' ∈ ts'.rows, (∃ t ∈ ts.rows, t.Onward t') ∨ t'.IsNew

section Moves

variable {t : Transaction} {ts ts' : Table Transaction} {db db' : Db}

theorem Transaction.Onward.refl (t : Transaction) : t.Onward t where
  id := rfl
  offlineUuid := rfl
  syncStatus := Or.inl rfl
  stage := fun s hs => ⟨s, hs, Or.inl rfl⟩

/-- The combinations that are stages. -/
theorem stage_eq_some {s : SaleStage} : t.stage = some s ↔
    (t.status = .PENDING ∧ t.syncStatus = .SYNC_CONFLICT ∧ s = .conflict) ∨
      (t.status = .VOIDED ∧ t.syncStatus = .SYNC_CONFLICT ∧ s = .abandoned) ∨
      (t.status = .CONFIRMED ∧ t.syncStatus = .SYNCED ∧ s = .confirmed) ∨
      (t.status = .VOIDED ∧ t.syncStatus = .SYNCED ∧ s = .voided) := by
  unfold Transaction.stage
  cases t.status <;> cases t.syncStatus <;> simp [eq_comm]

/-- A void of a transaction that is not VOIDED. -/
theorem Transaction.Onward.voided (hlive : t.status ≠ .VOIDED) (user : JwtPayload) (reason : String)
    (now : DateTime) : t.Onward (Transaction.voided user reason now t) where
  id := rfl
  offlineUuid := rfl
  syncStatus := Or.inl rfl
  stage := by
    intro s hs
    rcases stage_eq_some.mp hs with ⟨-, hsync, rfl⟩ | ⟨hstatus, -, -⟩ | ⟨-, hsync, rfl⟩ |
      ⟨hstatus, -, -⟩
    · exact ⟨.abandoned, stage_eq_some.mpr (Or.inr (Or.inl ⟨rfl, hsync, rfl⟩)), Or.inr .abandon⟩
    · exact absurd hstatus hlive
    · exact ⟨.voided, stage_eq_some.mpr (Or.inr (Or.inr (Or.inr ⟨rfl, hsync, rfl⟩))),
        Or.inr .reverse⟩
    · exact absurd hstatus hlive

/-- A conflict that is marked is resolved with CONFIRM. -/
theorem Transaction.Onward.confirmed (hconflict : t.syncStatus = .SYNC_CONFLICT) (now : DateTime) :
    t.Onward (Transaction.confirmed now t) where
  id := rfl
  offlineUuid := rfl
  syncStatus := Or.inr rfl
  stage := by
    intro s hs
    refine ⟨.confirmed, stage_eq_some.mpr (Or.inr (Or.inr (Or.inl ⟨rfl, rfl, rfl⟩))), Or.inr ?_⟩
    rcases stage_eq_some.mp hs with ⟨-, -, rfl⟩ | ⟨-, -, rfl⟩ | ⟨-, hsync, -⟩ | ⟨-, hsync, -⟩
    · exact .confirm
    · exact .revive
    · exact absurd (hconflict.symm.trans hsync) (by decide)
    · exact absurd (hconflict.symm.trans hsync) (by decide)

/-- A conflict that is marked is resolved with VOID. -/
theorem Transaction.Onward.conflictVoided (hconflict : t.syncStatus = .SYNC_CONFLICT)
    (user : JwtPayload) (notes : Option String) (now : DateTime) :
    t.Onward (Transaction.conflictVoided user notes now t) where
  id := rfl
  offlineUuid := rfl
  syncStatus := Or.inr rfl
  stage := by
    intro s hs
    refine ⟨.voided, stage_eq_some.mpr (Or.inr (Or.inr (Or.inr ⟨rfl, rfl, rfl⟩))), Or.inr ?_⟩
    rcases stage_eq_some.mp hs with ⟨-, -, rfl⟩ | ⟨-, -, rfl⟩ | ⟨-, hsync, -⟩ | ⟨-, hsync, -⟩
    · exact .discard
    · exact .close
    · exact absurd (hconflict.symm.trans hsync) (by decide)
    · exact absurd (hconflict.symm.trans hsync) (by decide)

theorem MovedOn.refl (ts : Table Transaction) : MovedOn ts ts where
  kept := fun t ht => ⟨t, ht, .refl t⟩
  added := fun t ht => Or.inl ⟨t, ht, .refl t⟩

/-- A new transaction. -/
theorem MovedOn.insert {row : Transaction} (hnew : row.IsNew) (h : ts.insert row = some ts') :
    MovedOn ts ts' where
  kept := fun t ht => ⟨t, (Table.mem_insert h).mpr (Or.inl ht), .refl t⟩
  added := by
    intro t ht
    rcases (Table.mem_insert h).mp ht with ht | rfl
    · exact Or.inl ⟨t, ht, .refl t⟩
    · exact Or.inr hnew

/-- A stored transaction is moved on, perhaps after new ones were added. -/
theorem MovedOn.update {f : Rewrite Transaction} (h : MovedOn ts ts') (ht : t ∈ ts.rows)
    (ht' : t ∈ ts'.rows) (hf : t.Onward (f t)) :
    MovedOn ts (ts'.update (.id t.idTransaction) f) where
  kept := by
    intro r hr
    obtain ⟨r', hr', hmoved⟩ := h.kept r hr
    by_cases hid : r'.idTransaction = t.idTransaction
    · -- the row that is rewritten
      obtain rfl : r' = t := row_unique hr' ht' hid
      obtain rfl : r = r' := row_unique hr ht (hmoved.id.symm.trans rfl)
      exact ⟨f r, Table.mem_update_iff.mpr (Or.inl ⟨r, hr', id_mem_keys.mpr rfl, rfl⟩), hf⟩
    · exact ⟨r', Table.mem_update_of_not_mem hr' fun hkey => hid (id_mem_keys.mp hkey), hmoved⟩
  added := by
    intro r hr
    rcases Table.mem_update_iff.mp hr with ⟨r', hr', hkey, rfl⟩ | ⟨hr, -⟩
    · obtain rfl : r' = t := row_unique hr' ht' (id_mem_keys.mp hkey)
      exact Or.inl ⟨r', ht, hf⟩
    · exact h.added r hr

/-- **What a call does to the transactions.** -/
theorem exec_movedOn (db : Db) (op : Op) : MovedOn db.transactions (exec db op).transactions := by
  have heffect := exec_effect db op
  generalize exec db op = db' at heffect
  cases heffect with
  | alone same _ _ =>
    rw [same.transactions]
    exact .refl _
  | adjusted product _ moved _ =>
    rw [moved.frame]
    exact .refl _
  | @synced data outcome db₁ _ d created sale rest =>
    rw [rest.transactions]
    refine .insert ?_ sale.insertable.header
    unfold Transaction.IsNew
    cases checkStockAvailability db data.items with
    | true => exact Or.inl rfl
    | false => exact Or.inr rfl
  | voided s read =>
    obtain ⟨hcur, -, hstatus⟩ := voidTransactionRead_eq_ok read
    exact (MovedOn.refl _).update hcur.row hcur.row (.voided (by rw [hstatus]; decide) _ _ _)
  | confirmed s read forced =>
    obtain ⟨hcur, -, hsync⟩ := resolveConflictRead_eq_ok read
    rw [forced.transactions]
    exact (MovedOn.refl _).update hcur.row hcur.row (.confirmed hsync _)
  | conflictVoided s read =>
    obtain ⟨hcur, -, hsync⟩ := resolveConflictRead_eq_ok read
    exact (MovedOn.refl _).update hcur.row hcur.row (.conflictVoided hsync _ _ _)
  | corrected s read written =>
    obtain ⟨hcur, -, hstatus⟩ := correctTransactionRead_eq_ok read
    obtain ⟨ts, hins, hts⟩ := written.transactions
    rw [hts]
    exact (MovedOn.insert (Or.inr rfl) hins).update hcur.row
      ((Table.mem_insert hins).mpr (Or.inl hcur.row)) (.voided (by rw [hstatus]; decide) _ _ _)
  | @invalidated id user dto now db₁ r found live rest _ =>
    have hrow := (findReconciliation_eq_some found).2.2
    show MovedOn _ (db₁.transactions.update _ _)
    rw [rest.transactions]
    exact (MovedOn.refl _).update hrow hrow (.voided live _ _ _)

end Moves

/-! ## Runs of the server -/

section Runs

variable {env : ServerEnv} {us : Table User} {σ τ : Server} {a : ServerAction} {db' : Db}

/-- **What a step of the server does to the transactions.** -/
theorem Server.Change.movedOn (h : σ.Change env a db') :
    MovedOn σ.db.transactions db'.transactions := by
  cases h with
  | tokens write =>
    rw [write.frame]
    exact .refl _
  | registered => exact exec_movedOn _ _
  | paired => exact exec_movedOn _ _
  | served user request op _ _ => exact exec_movedOn _ _
  | consumed item _ => exact exec_movedOn _ _
  | @givenUp i retryAttempt outcome item _ =>
    obtain ⟨qs, n, -, hdb⟩ := recordTerminalFailure_frame σ.db
      { item with retryAttempt := retryAttempt } outcome
    rw [hdb]
    exact .refl _

/-- Every transaction is in a stage. -/
def Db.InStages (db : Db) : Prop := ∀ t ∈ db.transactions.rows, ∃ s, t.stage = some s

theorem Db.InStages.movedOn {db : Db} (h : db.InStages)
    (hmoved : MovedOn db.transactions db'.transactions) : db'.InStages := by
  intro t' ht'
  rcases hmoved.added t' ht' with ⟨t, ht, hmove⟩ | hnew | hnew
  · obtain ⟨s, hs⟩ := h t ht
    obtain ⟨s', hs', -⟩ := hmove.stage s hs
    exact ⟨s', hs'⟩
  · exact ⟨_, hnew⟩
  · exact ⟨_, hnew⟩

/-- A transaction stays in its stage, or moves on to one that follows it. -/
theorem stage_movedOn {db : Db} (h : db.InStages)
    (hmoved : MovedOn db.transactions db'.transactions) (i : Ident) :
    db'.stage i = db.stage i ∨ StageFollows (db.stage i) (db'.stage i) := by
  unfold Db.stage
  cases hfind : db.transactions.findUnique (.id i) with
  | none =>
    rw [Option.bind_none]
    cases hfind' : db'.transactions.findUnique (.id i) with
    | none => exact Or.inl rfl
    | some t' =>
      obtain ⟨ht', hid⟩ := Table.findUnique_eq_some.mp hfind'
      rw [Option.bind_some]
      rcases hmoved.added t' ht' with ⟨t, ht, hmove⟩ | hnew | hnew
      · -- the transaction would have been there before
        refine absurd (id_mem_keys.mpr ?_) (Table.findUnique_eq_none.mp hfind t ht)
        exact hmove.id.symm.trans (id_mem_keys.mp hid)
      · rw [hnew]
        exact Or.inr .stored
      · rw [hnew]
        exact Or.inr .sold
  | some t =>
    obtain ⟨ht, hid⟩ := Table.findUnique_eq_some.mp hfind
    obtain ⟨s, hs⟩ := h t ht
    obtain ⟨t', ht', hmove⟩ := hmoved.kept t ht
    obtain ⟨s', hs', hfollows⟩ := hmove.stage s hs
    have hfind' : db'.transactions.findUnique (.id i) = some t' :=
      Table.findUnique_eq_some.mpr ⟨ht', id_mem_keys.mpr (hmove.id.trans (id_mem_keys.mp hid))⟩
    rw [hfind', Option.bind_some, Option.bind_some, hs, hs']
    rcases hfollows with rfl | hfollows
    · exact Or.inl rfl
    · exact Or.inr (.moved hfollows)

end Runs

/-- **A transaction moves on, and not for ever**: in every state of the server every transaction
is in one of the four stages; and between two states of a run it goes along `StageFollows`, with
no more changes than the ranks allow, so four at most in its whole life. -/
theorem transaction_moves_on {env : ServerEnv} {us : Table User} {σ τ : Server}
    (hσ : Runs.Reaches (Server.next env) (Server.start us) σ) {as : List ServerAction}
    (hrun : Runs.Run (Server.next env) Runs.anyStep σ as τ) :
    τ.db.InStages ∧ ∀ i, ReflTransGen StageFollows (σ.db.stage i) (τ.db.stage i) ∧
      Runs.changes (Server.next env) (·.db.stage i) σ as + transactionLifecycle.rank (τ.db.stage i)
        ≤ transactionLifecycle.rank (σ.db.stage i) := by
  have hstages : σ.db.InStages := hσ.invariant (fun σ => σ.db.InStages)
    (fun t ht => absurd ht List.not_mem_nil)
    fun _ _ _ hI hn => hI.movedOn (Server.next_change hn).movedOn
  refine ⟨hrun.invariant (fun σ => σ.db.InStages) hstages fun _ _ _ hI _ hn =>
    hI.movedOn (Server.next_change hn).movedOn, fun i => ?_⟩
  refine transactionLifecycle.of_run (o := fun σ => σ.db.stage i) hrun (fun σ => σ.db.InStages)
    hstages ?_ ?_
  · exact fun _ _ _ hI _ hn => hI.movedOn (Server.next_change hn).movedOn
  · exact fun _ _ _ hI _ hn => stage_movedOn hI (Server.next_change hn).movedOn i

/-- The sale is voided, confirmed by force, and corrected. -/
def wholeLife : List ServerAction :=
  conflictSale ++ ownerRequest (.voidTransaction (.cuid 6) "mistake") ++
    ownerRequest (.resolveConflict (.cuid 6) ⟨.CONFIRM, none⟩) ++
    ownerRequest (.correctTransaction (.cuid 6) ⟨"typing mistake", [], 2, 2, none⟩)

/-- The bound is reached. -/
theorem transaction_moves_on_wholeLife : ∃ τ : Server,
    Runs.Run (Server.next plainTokens) Runs.anyStep (Server.start .empty) wholeLife τ ∧
      Runs.changes (Server.next plainTokens) (·.db.stage (.cuid 6)) (Server.start .empty) wholeLife
        = 4 ∧
      τ.db.InStages ∧
      ∀ i, ReflTransGen StageFollows ((Server.start .empty).db.stage i) (τ.db.stage i) ∧
        Runs.changes (Server.next plainTokens) (·.db.stage i) (Server.start .empty) wholeLife
            + transactionLifecycle.rank (τ.db.stage i)
          ≤ transactionLifecycle.rank ((Server.start .empty).db.stage i) := by
  have hcheck : (Runs.runs (Server.next plainTokens) (fun _ _ => true) (Server.start .empty)
      wholeLife).any (fun _ => true) = true := by
    decide +kernel
  obtain ⟨τ, hrun, -⟩ := Runs.exists_run_of_runs hcheck
  have hrun := hrun.weaken (D := Runs.anyStep) fun _ _ _ => trivial
  exact ⟨τ, hrun, by decide +kernel, transaction_moves_on (.refl _) hrun⟩

/-! ## What the tills are told -/

/-- How far the answer is from the last one. -/
def AnswerStatus.rank : AnswerStatus → ℕ
  | .UNKNOWN => 3
  | .FAILED => 2
  | .CONFLICT => 1
  | .SYNCED => 0

/-- The sales stay under their UUIDs, with no conflict that was not marked before; and so do the
failures. -/
structure Remembered (db db' : Db) : Prop where
  sales : ∀ t ∈ db.transactions.rows, ∃ t' ∈ db'.transactions.rows,
    t'.idTransaction = t.idTransaction ∧ t'.offlineUuid = t.offlineUuid ∧
      (t'.syncStatus = t.syncStatus ∨ t'.syncStatus = .SYNCED)
  failures : ∀ q ∈ db.syncQueues.rows, ∃ q' ∈ db'.syncQueues.rows,
    q'.offlineUuid = q.offlineUuid ∧ q'.idTransaction = q.idTransaction

section Answers

variable {env : ServerEnv} {σ τ : Server} {a : ServerAction} {db db' db₁ db₂ db₃ : Db}
  {u : Ident} {uuids : List Ident}

theorem Remembered.refl (db : Db) : Remembered db db where
  sales := fun t ht => ⟨t, ht, rfl, rfl, Or.inl rfl⟩
  failures := fun q hq => ⟨q, hq, rfl, rfl⟩

theorem Remembered.trans (h₁ : Remembered db₁ db₂) (h₂ : Remembered db₂ db₃) :
    Remembered db₁ db₃ where
  sales := by
    intro t ht
    obtain ⟨t', ht', hid, huuid, hsync⟩ := h₁.sales t ht
    obtain ⟨t'', ht'', hid', huuid', hsync'⟩ := h₂.sales t' ht'
    refine ⟨t'', ht'', hid'.trans hid, huuid'.trans huuid, ?_⟩
    rcases hsync' with hsync' | hsync'
    · rw [hsync']
      exact hsync
    · exact Or.inr hsync'
  failures := by
    intro q hq
    obtain ⟨q', hq', huuid, hid⟩ := h₁.failures q hq
    obtain ⟨q'', hq'', huuid', hid'⟩ := h₂.failures q' hq'
    exact ⟨q'', hq'', huuid'.trans huuid, hid'.trans hid⟩

theorem Remembered.of_movedOn (hmoved : MovedOn db.transactions db'.transactions)
    (hfailures : ∀ q ∈ db.syncQueues.rows, ∃ q' ∈ db'.syncQueues.rows,
      q'.offlineUuid = q.offlineUuid ∧ q'.idTransaction = q.idTransaction) :
    Remembered db db' where
  sales := by
    intro t ht
    obtain ⟨t', ht', hmove⟩ := hmoved.kept t ht
    exact ⟨t', ht', hmove.id, hmove.offlineUuid, hmove.syncStatus⟩
  failures := hfailures

theorem exec_remembered (db : Db) (op : Op) : Remembered db (exec db op) :=
  .of_movedOn (exec_movedOn db op) fun q hq =>
    ⟨q, (exec_grows db op).syncQueues q hq, rfl, rfl⟩

/-- A terminal failure keeps the failures under their UUIDs. -/
theorem recordTerminalFailure_remembered (db : Db) (data : QueuedTransaction)
    (outcome : DlqOutcome) : Remembered db (recordTerminalFailure db data outcome) := by
  unfold recordTerminalFailure
  split
  · rcases call_run_cases outcome.write db
      (writeTerminalFailure db data (db.findNoted data) outcome.now) with ⟨hdb, -⟩ | ⟨h, -⟩
    · rw [hdb]
      exact .refl db
    · generalize (outcome.write.run db _).1 = db' at h
      unfold writeTerminalFailure at h
      split at h
      · obtain ⟨-, rfl⟩ := updateSyncQueue_eq_ok.mp h
        refine .of_movedOn (.refl _) fun q hq => ?_
        rename_i entry _
        by_cases hkey : SyncQueueKey.id entry.id ∈ UniqueKeys.keys q
        · exact ⟨_, Table.mem_update_iff.mpr (Or.inl ⟨q, hq, hkey, rfl⟩), rfl, rfl⟩
        · exact ⟨q, Table.mem_update_of_not_mem hq hkey, rfl, rfl⟩
      · obtain ⟨-, -, qs, hqs, rfl⟩ := createSyncQueue_eq_ok.mp h
        exact .of_movedOn (.refl _) fun q hq =>
          ⟨q, (Table.mem_insert hqs).mpr (Or.inl hq), rfl, rfl⟩
  · exact .refl db
  · exact .refl db

/-- A step of the server remembers. -/
theorem Server.Change.remembered (h : σ.Change env a db') : Remembered σ.db db' := by
  cases h with
  | tokens write =>
    rw [write.frame]
    exact ⟨(Remembered.refl _).sales, (Remembered.refl _).failures⟩
  | registered => exact exec_remembered _ _
  | paired => exact exec_remembered _ _
  | served user request op _ _ => exact exec_remembered _ _
  | consumed item _ => exact exec_remembered _ _
  | givenUp item _ => exact recordTerminalFailure_remembered _ _ _

/-- The answer about one of the UUIDs asked for. -/
def Db.answerAbout (db : Db) (uuids : List Ident) (u : Ident) : StatusAnswer :=
  statusAnswer (db.transactions.rows.filter fun t => isIn uuids t.offlineUuid)
    (db.syncQueues.rows.filter fun q => isIn uuids q.offlineUuid || isIn uuids q.idTransaction) u

/-- A UUID of a failure. -/
def Db.Noted (db : Db) (u : Ident) : Prop :=
  ∃ q ∈ db.syncQueues.rows, q.offlineUuid = some u ∨ q.idTransaction = some u

/-- The answer about a sale that is not stored. -/
theorem answerAbout_not_stored (h : ∀ t ∈ db.transactions.rows, t.offlineUuid ≠ some u)
    (hmem : u ∈ uuids) : (db.answerAbout uuids u).offlineUuid = u ∧
      (db.answerAbout uuids u).transactionId = none ∧
      ((db.answerAbout uuids u).status = .FAILED ∧ db.Noted u ∨
        (db.answerAbout uuids u).status = .UNKNOWN ∧ ¬ db.Noted u) := by
  have hnone : (db.transactions.rows.filter fun t => isIn uuids t.offlineUuid).find?
      (fun t => decide (t.offlineUuid = some u)) = none := by
    rw [List.find?_eq_none]
    intro t ht
    rw [decide_eq_true_eq]
    exact h t (List.mem_filter.mp ht).1
  unfold Db.answerAbout statusAnswer
  rw [hnone]
  dsimp only
  split
  · rename_i q hq
    have huuid := List.find?_some hq
    have hrow := (List.mem_filter.mp (List.mem_of_find?_eq_some hq)).1
    exact ⟨rfl, rfl, Or.inl ⟨rfl, q, hrow, of_decide_eq_true huuid⟩⟩
  · rename_i hq
    refine ⟨rfl, rfl, Or.inr ⟨rfl, ?_⟩⟩
    rintro ⟨q, hrow, huuid⟩
    refine List.find?_eq_none.mp hq q (List.mem_filter.mpr ⟨hrow, ?_⟩) (decide_eq_true huuid)
    rcases huuid with huuid | huuid
    · rw [huuid, Bool.or_eq_true]
      exact Or.inl (decide_eq_true hmem)
    · rw [huuid, Bool.or_eq_true]
      exact Or.inr (decide_eq_true hmem)

/-- What may be answered after an answer. -/
structure StatusAnswer.Followed (x y : StatusAnswer) : Prop where
  offlineUuid : y.offlineUuid = x.offlineUuid
  rank : y.status.rank ≤ x.status.rank
  transactionId : ∀ i, x.transactionId = some i → y.transactionId = some i

/-- What is remembered is answered. -/
theorem Remembered.answer (h : Remembered db db') (hmem : u ∈ uuids) :
    (db.answerAbout uuids u).Followed (db'.answerAbout uuids u) := by
  by_cases hstored : ∃ t ∈ db.transactions.rows, t.offlineUuid = some u
  · obtain ⟨t, ht, hu⟩ := hstored
    obtain ⟨t', ht', hid, hu', hsync⟩ := h.sales t ht
    have hold : db.answerAbout uuids u = storedAnswer u t := statusAnswer_stored ht hu hmem _
    have hnew : db'.answerAbout uuids u = storedAnswer u t' :=
      statusAnswer_stored ht' (hu'.trans hu) hmem _
    rw [hold, hnew]
    refine ⟨rfl, ?_, fun i hi => ?_⟩
    · unfold storedAnswer
      rcases hsync with hsync | hsync
      · rw [hsync]
      · rw [hsync]
        exact Nat.zero_le _
    · show some t'.idTransaction = some i
      rw [hid]
      exact hi
  · have hnone : ∀ t ∈ db.transactions.rows, t.offlineUuid ≠ some u :=
      fun t ht hu => hstored ⟨t, ht, hu⟩
    obtain ⟨huuid, hid, hstatus⟩ := answerAbout_not_stored hnone hmem
    have hlate : 2 ≤ (db.answerAbout uuids u).status.rank := by
      rcases hstatus with ⟨hstatus, -⟩ | ⟨hstatus, -⟩ <;> (rw [hstatus]; decide)
    by_cases hstored' : ∃ t ∈ db'.transactions.rows, t.offlineUuid = some u
    · -- it is stored meanwhile
      obtain ⟨t', ht', hu'⟩ := hstored'
      have hnew : db'.answerAbout uuids u = storedAnswer u t' :=
        statusAnswer_stored ht' hu' hmem _
      rw [hnew]
      refine ⟨huuid.symm, ?_, fun i hi => ?_⟩
      · refine Nat.le_trans ?_ hlate
        unfold storedAnswer
        dsimp only
        split <;> decide
      · rw [hid] at hi
        cases hi
    · have hnone' : ∀ t ∈ db'.transactions.rows, t.offlineUuid ≠ some u :=
        fun t ht hu => hstored' ⟨t, ht, hu⟩
      obtain ⟨huuid', -, hstatus'⟩ := answerAbout_not_stored hnone' hmem
      refine ⟨huuid'.trans huuid.symm, ?_, fun i hi => ?_⟩
      · rcases hstatus with ⟨hstatus, q, hq, hkey⟩ | ⟨hstatus, -⟩
        · -- a failure stays one
          obtain ⟨q', hq', hquuid, hqid⟩ := h.failures q hq
          have hnoted : db'.Noted u := ⟨q', hq', by rw [hquuid, hqid]; exact hkey⟩
          rcases hstatus' with ⟨hstatus', -⟩ | ⟨-, hno⟩
          · rw [hstatus, hstatus']
          · exact absurd hnoted hno
        · rw [hstatus]
          rcases hstatus' with ⟨hstatus', -⟩ | ⟨hstatus', -⟩ <;> simp [hstatus', AnswerStatus.rank]
      · rw [hid] at hi
        cases hi

end Answers

/-- **What a till is told about its sales never goes back**: from any state, however the server
goes on, the answers to the same question follow UNKNOWN, FAILED, CONFLICT and SYNCED in this
order, and a transaction that was named stays the one that is named. -/
theorem status_moves_on {env : ServerEnv} {σ τ : Server} {as : List ServerAction}
    (hrun : Runs.Run (Server.next env) Runs.anyStep σ as τ) (uuids : List Ident) :
    List.Forall₂ StatusAnswer.Followed (Sync.getStatusByOfflineUuids σ.db uuids)
      (Sync.getStatusByOfflineUuids τ.db uuids) := by
  have hremembered : Remembered σ.db τ.db :=
    hrun.invariant (fun τ => Remembered σ.db τ.db) (.refl _) fun _ _ _ hI _ hn =>
      hI.trans (Server.next_change hn).remembered
  show List.Forall₂ _ (uuids.map (σ.db.answerAbout uuids)) (uuids.map (τ.db.answerAbout uuids))
  rw [List.forall₂_map_left_iff, List.forall₂_map_right_iff, List.forall₂_same]
  exact fun u hu => hremembered.answer hu

/-- A conflict is answered, and then that it is settled. -/
theorem status_moves_on_conflict : ∃ σ τ : Server,
    (Sync.getStatusByOfflineUuids σ.db [.text "a"]).map (·.status) = [.CONFLICT] ∧
      (Sync.getStatusByOfflineUuids τ.db [.text "a"]).map (·.status) = [.SYNCED] ∧
      List.Forall₂ StatusAnswer.Followed (Sync.getStatusByOfflineUuids σ.db [.text "a"])
        (Sync.getStatusByOfflineUuids τ.db [.text "a"]) := by
  have hcheck : (Runs.runs (Server.next plainTokens) (fun _ _ => true) (Server.start .empty)
      conflictSale).any (fun σ =>
        decide ((Sync.getStatusByOfflineUuids σ.db [.text "a"]).map (·.status) = [.CONFLICT]) &&
          (Runs.runs (Server.next plainTokens) (fun _ _ => true) σ
            (ownerRequest (.resolveConflict (.cuid 6) ⟨.VOID, none⟩))).any fun τ =>
              decide ((Sync.getStatusByOfflineUuids τ.db [.text "a"]).map (·.status)
                = [.SYNCED])) = true := by
    decide +kernel
  obtain ⟨σ, -, hend⟩ := Runs.exists_run_of_runs hcheck
  obtain ⟨hconflict, hrest⟩ := Bool.and_eq_true_iff.mp hend
  obtain ⟨τ, hrun, hsynced⟩ := Runs.exists_run_of_runs hrest
  exact ⟨σ, τ, of_decide_eq_true hconflict, of_decide_eq_true hsynced,
    status_moves_on (hrun.weaken fun _ _ _ => trivial) _⟩

end KPos
