/-
# Consumers side by side (`sync-consumer.service.ts`)

Several executions of `handleSyncTransactionBatch` run at a time.  The lookup of an item, its
database transaction and the write to `SyncQueue` are separate steps; a message is delivered
again when its consumer crashed before the acknowledgement; and other calls of the services run
in between.

* `Consumers.next` : the system of consumers;
* `Consumers.next_step` : what a step can do;
* `handleItem_as_steps` : a consumer that runs alone does what `handleItem` does;
* `sync_exactly_once` : each item has its effect at most once.
-/
import KPos.References

namespace KPos

/-! ## The system -/

/-- What a consumer does next with the first of its remaining items. -/
inductive Stage where
  | lookup
  | transact
  | record (error : Err)

/-- A consumer: the message that it was delivered, and the items that it has not finished. -/
structure Worker where
  message : List QueuedTransaction
  rest : List QueuedTransaction
  stage : Stage

/-- A consumer that has just been delivered a message. -/
def Worker.start (message : List QueuedTransaction) : Worker := ⟨message, message, .lookup⟩

/-- The consumer goes on to the next item. -/
def Worker.advance (w : Worker) : Worker := ⟨w.message, w.rest.tail, .lookup⟩

/-- The lookup of an item. -/
def Worker.lookup (w : Worker) (db : Db) (call : Call) : Option Worker :=
  match w.stage, w.rest with
  | .lookup, data :: _ =>
      match call with
      | .served => some (if db.isStored data then w.advance else { w with stage := .transact })
      | .failed message | .lost message => some { w with stage := .record (.raised message) }
  | _, _ => none

/-- The database transaction of an item. -/
def Worker.transact (w : Worker) (db : Db) (now : DateTime) (call : Call) :
    Option (Db × Worker) :=
  match w.stage, w.rest with
  | .transact, data :: _ =>
      match call.run db (processTransaction db data now) with
      | (db', none) => some (db', w.advance)
      | (db', some error) => some (db', { w with stage := .record error })
  | _, _ => none

/-- The write to `SyncQueue` of an item that failed. -/
def Worker.record (w : Worker) (db : Db) (now : DateTime) (call : Call) : Option (Db × Worker) :=
  match w.stage, w.rest with
  | .record error, data :: _ => some (handleFailure db data error now call, w.advance)
  | _, _ => none

/-- What the consumer's database transaction commits, when it does. -/
def Worker.commits (w : Worker) (db : Db) (now : DateTime) (call : Call) :
    List QueuedTransaction :=
  match w.stage, w.rest with
  | .transact, data :: _ =>
      if call.reaches && (processTransaction db data now).isOk then [data] else []
  | _, _ => []

/-- The database, all items ever published, all items ever committed, the messages that wait,
and the consumers at work. -/
structure Consumers where
  db : Db
  published : List QueuedTransaction
  committed : List QueuedTransaction
  queue : List (List QueuedTransaction)
  workers : List Worker

inductive ConsumerAction where
  /-- A call of another service. -/
  | call (op : Op)
  | publish (message : List QueuedTransaction)
  | deliver (i : ℕ)
  | lookup (i : ℕ) (call : Call)
  | transact (i : ℕ) (now : DateTime) (call : Call)
  | record (i : ℕ) (now : DateTime) (call : Call)
  /-- The consumer has finished its items: the message is gone. -/
  | acknowledge (i : ℕ)
  /-- The consumer dies: its message waits again. -/
  | crash (i : ℕ)

/-- Whether a batch is published. -/
def ConsumerAction.isPublish : ConsumerAction → Bool
  | .publish _ => true
  | _ => false

/-- A database with users, and no message yet. -/
def Consumers.start (us : Table User) : Consumers := ⟨Db.withUsers us, [], [], [], []⟩

/-- The system after the consumer `i` moved on and committed the items `cs`. -/
def Consumers.put (σ : Consumers) (i : ℕ) (cs : List QueuedTransaction) (r : Db × Worker) :
    Consumers :=
  { σ with db := r.1, committed := σ.committed ++ cs, workers := σ.workers.set i r.2 }

/-- A message is put into the queue. -/
def Consumers.enqueue (σ : Consumers) (message : List QueuedTransaction) : Consumers :=
  { σ with published := σ.published ++ message, queue := σ.queue ++ [message] }

def Consumers.next (σ : Consumers) : ConsumerAction → Option Consumers
  | .call op => if op.isSync then none else some { σ with db := exec σ.db op }
  | .publish message =>
      some { σ with published := σ.published ++ message, queue := σ.queue ++ [message] }
  | .deliver i => σ.queue[i]?.map fun message =>
      { σ with queue := σ.queue.eraseIdx i, workers := σ.workers ++ [.start message] }
  | .lookup i call => σ.workers[i]?.bind fun w =>
      (w.lookup σ.db call).map fun w' => σ.put i [] (σ.db, w')
  | .transact i now call => σ.workers[i]?.bind fun w =>
      (w.transact σ.db now call).map fun r => σ.put i (w.commits σ.db now call) r
  | .record i now call => σ.workers[i]?.bind fun w =>
      (w.record σ.db now call).map fun r => σ.put i [] r
  | .acknowledge i => σ.workers[i]?.bind fun w =>
      if w.rest.isEmpty then some { σ with workers := σ.workers.eraseIdx i } else none
  | .crash i => σ.workers[i]?.map fun w =>
      { σ with queue := σ.queue ++ [w.message], workers := σ.workers.eraseIdx i }

/-! ## What a consumer can do -/

/-- The consumer has the message that it had, and no new items to do. -/
structure Worker.Follows (w' w : Worker) : Prop where
  message : w'.message = w.message
  rest : ∀ data ∈ w'.rest, data ∈ w.rest

theorem Worker.follows_advance (w : Worker) : w.advance.Follows w :=
  ⟨rfl, fun _ h => List.mem_of_mem_tail h⟩

theorem Worker.follows_stage (w : Worker) (stage : Stage) :
    Worker.Follows { w with stage := stage } w := ⟨rfl, fun _ h => h⟩

section Steps

variable {w w' : Worker} {db db' : Db} {now : DateTime} {call : Call}

theorem Worker.lookup_cases (h : w.lookup db call = some w') : w'.Follows w := by
  unfold Worker.lookup at h
  split at h
  · split at h
    · obtain rfl := Option.some.inj h
      split
      · exact w.follows_advance
      · exact w.follows_stage _
    · obtain rfl := Option.some.inj h
      exact w.follows_stage _
    · obtain rfl := Option.some.inj h
      exact w.follows_stage _
  · cases h

/-- A database transaction is committed, or leaves the database as it was. -/
theorem Worker.transact_cases (h : w.transact db now call = some (db', w')) :
    w'.Follows w ∧ (db' = db ∧ w.commits db now call = [] ∨
      ∃ data ∈ w.rest, processTransaction db data now = .ok db' ∧
        w.commits db now call = [data]) := by
  unfold Worker.transact at h
  split at h
  · rename_i data rest hstage hrest
    have hcommits : w.commits db now call
        = if call.reaches && (processTransaction db data now).isOk then [data] else [] := by
      unfold Worker.commits
      rw [hstage, hrest]
    have hdata : data ∈ w.rest := by
      rw [hrest]
      exact List.mem_cons_self
    -- what the call leaves tells whether the item was committed
    have hends : ∀ db₁, (call.run db (processTransaction db data now)).1 = db₁ →
        db₁ = db ∧ w.commits db now call = [] ∨
          ∃ x ∈ w.rest, processTransaction db x now = .ok db₁ ∧ w.commits db now call = [x] := by
      rintro db₁ rfl
      rw [hcommits]
      rcases call_run_cases call db (processTransaction db data now) with
        ⟨hsame, hnone⟩ | ⟨hok, hsome⟩
      · exact Or.inl ⟨hsame, if_neg (by rw [hnone]; decide)⟩
      · exact Or.inr ⟨data, hdata, hok, if_pos hsome⟩
    split at h
    · rename_i db₁ heq
      obtain ⟨rfl, rfl⟩ := Prod.mk.inj (Option.some.inj h)
      exact ⟨w.follows_advance, hends _ (congrArg Prod.fst heq)⟩
    · rename_i db₁ error heq
      obtain ⟨rfl, rfl⟩ := Prod.mk.inj (Option.some.inj h)
      exact ⟨w.follows_stage _, hends _ (congrArg Prod.fst heq)⟩
  · cases h

/-- The write to `SyncQueue` leaves the sales alone. -/
theorem Worker.record_cases (h : w.record db now call = some (db', w')) :
    w'.Follows w ∧ SameSales db db' := by
  unfold Worker.record at h
  split at h
  · rename_i error data rest _ _
    obtain ⟨rfl, rfl⟩ := Prod.mk.inj (Option.some.inj h)
    refine ⟨w.follows_advance, ?_⟩
    rcases handleFailure_cases db data error now call with hsame | hwritten
    · rw [hsame]
      exact .refl db
    · exact createSyncQueue_sameSales hwritten
  · cases h

end Steps

/-- What an action of the system leads to. -/
inductive Consumers.Step (σ : Consumers) : ConsumerAction → Consumers → Prop
  | call {op : Op} (hop : op.isSync = false) : Step σ (.call op) { σ with db := exec σ.db op }
  | publish (message : List QueuedTransaction) : Step σ (.publish message) (σ.enqueue message)
  | deliver {i : ℕ} {message : List QueuedTransaction} (h : σ.queue[i]? = some message) :
      Step σ (.deliver i)
        { σ with queue := σ.queue.eraseIdx i, workers := σ.workers ++ [.start message] }
  | lookup {i : ℕ} {call : Call} {w w' : Worker} (hw : σ.workers[i]? = some w)
      (h : w.lookup σ.db call = some w') : Step σ (.lookup i call) (σ.put i [] (σ.db, w'))
  | transact {i : ℕ} {now : DateTime} {call : Call} {w w' : Worker} {db : Db}
      (hw : σ.workers[i]? = some w) (h : w.transact σ.db now call = some (db, w')) :
      Step σ (.transact i now call) (σ.put i (w.commits σ.db now call) (db, w'))
  | record {i : ℕ} {now : DateTime} {call : Call} {w w' : Worker} {db : Db}
      (hw : σ.workers[i]? = some w) (h : w.record σ.db now call = some (db, w')) :
      Step σ (.record i now call) (σ.put i [] (db, w'))
  | acknowledge (i : ℕ) : Step σ (.acknowledge i) { σ with workers := σ.workers.eraseIdx i }
  | crash {i : ℕ} {w : Worker} (hw : σ.workers[i]? = some w) :
      Step σ (.crash i)
        { σ with queue := σ.queue ++ [w.message], workers := σ.workers.eraseIdx i }

/-- **What a step can do.** -/
theorem Consumers.next_step {σ τ : Consumers} {a : ConsumerAction}
    (h : Consumers.next σ a = some τ) : Consumers.Step σ a τ := by
  cases a with
  | call op =>
    have h : (if op.isSync then none else some { σ with db := exec σ.db op }) = some τ := h
    split at h
    · cases h
    · rename_i hop
      obtain rfl := Option.some.inj h
      exact .call (Bool.eq_false_of_not_eq_true hop)
  | publish message =>
    obtain rfl := Option.some.inj h
    exact .publish message
  | deliver i =>
    obtain ⟨message, hmessage, rfl⟩ := Option.map_eq_some_iff.mp h
    exact .deliver hmessage
  | lookup i call =>
    obtain ⟨w, hw, h⟩ := Option.bind_eq_some_iff.mp h
    obtain ⟨w', hw', rfl⟩ := Option.map_eq_some_iff.mp h
    exact .lookup hw hw'
  | transact i now call =>
    obtain ⟨w, hw, h⟩ := Option.bind_eq_some_iff.mp h
    obtain ⟨⟨db, w'⟩, hw', rfl⟩ := Option.map_eq_some_iff.mp h
    exact .transact hw hw'
  | record i now call =>
    obtain ⟨w, hw, h⟩ := Option.bind_eq_some_iff.mp h
    obtain ⟨⟨db, w'⟩, hw', rfl⟩ := Option.map_eq_some_iff.mp h
    exact .record hw hw'
  | acknowledge i =>
    obtain ⟨w, -, h⟩ := Option.bind_eq_some_iff.mp h
    split at h
    · obtain rfl := Option.some.inj h
      exact .acknowledge i
    · cases h
  | crash i =>
    obtain ⟨w, hw, rfl⟩ := Option.map_eq_some_iff.mp h
    exact .crash hw

/-- **What a step does to the database**: a call of another service, an item that is committed,
or nothing that concerns the sales. -/
theorem Consumers.next_cases {σ τ : Consumers} {a : ConsumerAction}
    (h : Consumers.next σ a = some τ) :
    τ.committed = σ.committed ∧
        (SameSales σ.db τ.db ∨ ∃ op, op.isSync = false ∧ τ.db = exec σ.db op) ∨
      ∃ data now, processTransaction σ.db data now = .ok τ.db ∧
        τ.committed = σ.committed ++ [data] := by
  have hsame : τ.committed = σ.committed → τ.db = σ.db → τ.committed = σ.committed ∧
      (SameSales σ.db τ.db ∨ ∃ op, op.isSync = false ∧ τ.db = exec σ.db op) := by
    intro hcommitted hdb
    rw [hdb]
    exact ⟨hcommitted, Or.inl (.refl σ.db)⟩
  cases Consumers.next_step h with
  | @call op hop => exact Or.inl ⟨rfl, Or.inr ⟨op, hop, rfl⟩⟩
  | publish message => exact Or.inl (hsame rfl rfl)
  | deliver hmessage => exact Or.inl (hsame rfl rfl)
  | lookup hw hw' => exact Or.inl (hsame (List.append_nil _) rfl)
  | @transact i now call w w' db hw hw' =>
    obtain ⟨-, ⟨rfl, hnone⟩ | ⟨data, -, hok, hsome⟩⟩ := Worker.transact_cases hw'
    · refine Or.inl (hsame ?_ rfl)
      show σ.committed ++ w.commits σ.db now call = σ.committed
      rw [hnone, List.append_nil]
    · rw [hsome]
      exact Or.inr ⟨data, now, hok, rfl⟩
  | record hw hw' => exact Or.inl ⟨List.append_nil _, Or.inl (Worker.record_cases hw').2⟩
  | acknowledge i => exact Or.inl (hsame rfl rfl)
  | crash hw => exact Or.inl (hsame rfl rfl)

/-- What is published stays as it is, unless a message is published. -/
theorem Consumers.next_published {σ τ : Consumers} {a : ConsumerAction}
    (h : Consumers.next σ a = some τ) (ha : a.isPublish = false) :
    τ.published = σ.published := by
  cases Consumers.next_step h with
  | publish message => cases ha
  | call | deliver | lookup | transact | record | acknowledge | crash => rfl

/-! ## A consumer that runs alone -/

section Alone

variable {σ : Consumers} {i : ℕ} {w : Worker} {message rest : List QueuedTransaction}
  {data : QueuedTransaction}

theorem Consumers.put_workers (hw : σ.workers[i]? = some w) (cs : List QueuedTransaction)
    (db : Db) (w' : Worker) : (σ.put i cs (db, w')).workers[i]? = some w' := by
  have hi : i < σ.workers.length := (List.getElem?_eq_some_iff.mp hw).1
  exact List.getElem?_set_self hi

theorem Consumers.put_put (cs cs' : List QueuedTransaction) (r r' : Db × Worker) :
    (σ.put i cs r).put i cs' r' = σ.put i (cs ++ cs') r' := by
  unfold Consumers.put
  rw [List.set_set, List.append_assoc]

/-- The consumer `i` gets the database and itself to `r`. -/
def Consumers.Gets (σ : Consumers) (i : ℕ) (r : Db × Worker) : Prop :=
  ∃ cs, Runs.Reaches Consumers.next σ (σ.put i cs r)

/-- The consumer goes on from where it got. -/
theorem Consumers.Gets.trans {cs : List QueuedTransaction} {r r' : Db × Worker}
    (h : Runs.Reaches Consumers.next σ (σ.put i cs r)) (h' : (σ.put i cs r).Gets i r') :
    σ.Gets i r' := by
  obtain ⟨cs', h'⟩ := h'
  rw [Consumers.put_put] at h'
  exact ⟨cs ++ cs', h.trans h'⟩

/-- A failed item takes one more step. -/
theorem handleFailure_as_step {error : Err}
    (hw : σ.workers[i]? = some ⟨message, data :: rest, .record error⟩) (outcome : ItemOutcome) :
    σ.Gets i (handleFailure σ.db data error outcome.now outcome.create,
      ⟨message, rest, .lookup⟩) := by
  refine ⟨[], (Runs.Reaches.refl σ).step (a := .record i outcome.now outcome.create) ?_⟩
  show (σ.workers[i]?.bind fun w =>
    (w.record σ.db outcome.now outcome.create).map fun r => σ.put i [] r) = _
  rw [hw]
  rfl

/-- An item that was not found takes one more step, or two if it fails. -/
theorem processOrFail_as_steps
    (hw : σ.workers[i]? = some ⟨message, data :: rest, .transact⟩) (outcome : ItemOutcome) :
    σ.Gets i (processOrFail σ.db data outcome, ⟨message, rest, .lookup⟩) := by
  let w : Worker := ⟨message, data :: rest, .transact⟩
  have hstep : ∀ r, w.transact σ.db outcome.now outcome.transaction = some r →
      Runs.Reaches Consumers.next σ
        (σ.put i (w.commits σ.db outcome.now outcome.transaction) r) := by
    intro r hr
    refine (Runs.Reaches.refl σ).step (a := .transact i outcome.now outcome.transaction) ?_
    show (σ.workers[i]?.bind fun w => (w.transact σ.db outcome.now outcome.transaction).map
      fun r => σ.put i (w.commits σ.db outcome.now outcome.transaction) r) = _
    rw [hw, Option.bind_some, hr]
    rfl
  unfold processOrFail
  unfold Worker.transact at hstep
  cases hrun : outcome.transaction.run σ.db (processTransaction σ.db data outcome.now) with
  | mk db₁ error =>
    simp only [w, hrun] at hstep
    cases error with
    | none => exact ⟨_, hstep _ rfl⟩
    | some error =>
      refine Consumers.Gets.trans (hstep _ rfl) ?_
      exact handleFailure_as_step (Consumers.put_workers hw _ db₁ _) outcome

/-- **A consumer that runs alone handles an item as `handleItem` does.** -/
theorem handleItem_as_steps
    (hw : σ.workers[i]? = some ⟨message, data :: rest, .lookup⟩) (outcome : ItemOutcome) :
    σ.Gets i (handleItem σ.db data outcome, ⟨message, rest, .lookup⟩) := by
  let w : Worker := ⟨message, data :: rest, .lookup⟩
  have hstep : ∀ w', w.lookup σ.db outcome.lookup = some w' →
      Runs.Reaches Consumers.next σ (σ.put i [] (σ.db, w')) := by
    intro w' hw'
    refine (Runs.Reaches.refl σ).step (a := .lookup i outcome.lookup) ?_
    show (σ.workers[i]?.bind fun w =>
      (w.lookup σ.db outcome.lookup).map fun w' => σ.put i [] (σ.db, w')) = _
    rw [hw, Option.bind_some, hw']
    rfl
  -- a lookup that throws leads to the failure path
  have hfails : ∀ error, Runs.Reaches Consumers.next σ
        (σ.put i [] (σ.db, ⟨message, data :: rest, .record error⟩)) →
      σ.Gets i (handleFailure σ.db data error outcome.now outcome.create,
        ⟨message, rest, .lookup⟩) := fun error h =>
    .trans h (handleFailure_as_step (Consumers.put_workers hw _ σ.db _) outcome)
  unfold handleItem
  unfold Worker.lookup at hstep
  cases hlookup : outcome.lookup with
  | served =>
    simp only [w, hlookup] at hstep
    have hserved := hstep _ rfl
    by_cases hstored : σ.db.isStored data = true
    · rw [if_pos hstored] at hserved
      simp only [hstored, if_true]
      exact ⟨_, hserved⟩
    · rw [if_neg hstored] at hserved
      simp only [hstored]
      refine .trans hserved ?_
      exact processOrFail_as_steps (Consumers.put_workers hw _ σ.db _) outcome
  | failed message =>
    simp only [w, hlookup] at hstep
    exact hfails _ (hstep _ rfl)
  | lost message =>
    simp only [w, hlookup] at hstep
    exact hfails _ (hstep _ rfl)

/-- **A consumer that runs alone handles a batch as `handleSyncTransactionBatch` does.** -/
theorem handleBatch_as_steps (batch : List (QueuedTransaction × ItemOutcome))
    (hw : σ.workers[i]? = some ⟨message, batch.map (·.1), .lookup⟩) :
    σ.Gets i (handleSyncTransactionBatch σ.db batch, ⟨message, [], .lookup⟩) := by
  induction batch generalizing σ with
  | nil =>
    obtain ⟨hi, hget⟩ := List.getElem?_eq_some_iff.mp hw
    have hset : σ.workers.set i ⟨message, [], .lookup⟩ = σ.workers := by
      have hself : σ.workers[i] = ⟨message, [], .lookup⟩ := hget
      rw [← hself]
      exact List.set_getElem_self hi
    have hsame : σ.put i [] (σ.db, ⟨message, [], .lookup⟩) = σ := by
      unfold Consumers.put
      rw [hset, List.append_nil]
    refine ⟨[], ?_⟩
    show Runs.Reaches Consumers.next σ (σ.put i [] (σ.db, ⟨message, [], .lookup⟩))
    rw [hsame]
    exact .refl σ
  | cons item batch ih =>
    obtain ⟨cs, hitem⟩ := handleItem_as_steps hw item.2
    exact .trans hitem (ih (Consumers.put_workers hw cs _ _))

end Alone

/-! ## Sales and their keys -/

section Keys

variable {db db' : Db} {published : List QueuedTransaction}

/-- A rewriting leaves the key of a sale alone. -/
theorem deviceUuid_rewrite (f : Rewrite Transaction) {t : Transaction} {u : Ident}
    (h : (f t).offlineUuid = some u) :
    (f t).idDevice = t.idDevice ∧ t.offlineUuid = some u := by
  have hkey : TransactionKey.deviceUuid (f t).idDevice u ∈ UniqueKeys.keys t := by
    rw [← f.keys_eq t]
    exact deviceUuid_mem_keys.mpr ⟨rfl, h⟩
  obtain ⟨hd, hu⟩ := deviceUuid_mem_keys.mp hkey
  exact ⟨hd.symm, hu⟩

/-- The sales are those there were, each with its key and its lines. -/
structure KeepsSales (db db' : Db) : Prop where
  rows : ∀ t ∈ db'.transactions.rows, ∀ u, t.offlineUuid = some u →
    ∃ s ∈ db.transactions.rows, s.idTransaction = t.idTransaction ∧ s.idDevice = t.idDevice ∧
      s.offlineUuid = some u
  details : ∀ s ∈ db.transactions.rows,
    db'.detailsOf s.idTransaction = db.detailsOf s.idTransaction
  payments : ∀ k, db.payments.has k = true → db'.payments.has k = true

theorem SameSales.keepsSales (h : SameSales db db') : KeepsSales db db' where
  rows := by
    intro t ht u hu
    rw [h.transactions] at ht
    exact ⟨t, ht, rfl, rfl, hu⟩
  details := fun s _ => h.entered.detailsOf_eq fun _ hd => nomatch hd
  payments := h.payments

/-- Whatever keeps the sales still does so after a change of other tables. -/
theorem KeepsSales.after_same {db₁ : Db} (h : KeepsSales db₁ db') (hs : SameSales db db₁) :
    KeepsSales db db' where
  rows := by
    intro t ht u hu
    obtain ⟨s, hs', hid, hd, hu⟩ := h.rows t ht u hu
    rw [hs.transactions] at hs'
    exact ⟨s, hs', hid, hd, hu⟩
  details := by
    intro s hs'
    have hs₁ : s ∈ db₁.transactions.rows := by
      rw [hs.transactions]
      exact hs'
    exact (h.details s hs₁).trans (hs.keepsSales.details s hs')
  payments := fun k hk => h.payments k (hs.payments k hk)

theorem keepsSales_relabel (db : Db) (i : Ident) (f : Rewrite Transaction) :
    KeepsSales db (db.relabel i f) where
  rows := by
    intro t ht u hu
    rcases mem_relabel.mp ht with ⟨s, hs, -, rfl⟩ | ⟨ht, -⟩
    · -- the key of a row is among its unique columns, which no rewriting touches
      obtain ⟨hd, hu⟩ := deviceUuid_rewrite f hu
      exact ⟨s, hs, (id_rewrite f s).symm, hd.symm, hu⟩
    · exact ⟨t, ht, rfl, rfl, hu⟩
  details := fun _ _ => rfl
  payments := fun _ hk => hk

theorem Forced.keepsSales {user : JwtPayload} {t : FoundTransaction} {notes : Option String}
    {now : DateTime} (h : Forced db db' user t notes now) : KeepsSales db db' where
  rows := by
    intro s hs u hu
    rw [h.transactions] at hs
    exact (keepsSales_relabel db t.row.idTransaction _).rows s hs u hu
  details := fun s _ => h.entered.detailsOf_eq fun _ hd => nomatch hd
  payments := by
    rw [h.frame]
    exact fun _ hk => hk

/-- The transaction that a correction creates has no key. -/
theorem Corrected.keepsSales {user : JwtPayload} {t : FoundTransaction}
    {dto : CorrectTransactionDto} {now : DateTime} (h : Corrected db db' user t dto now) :
    KeepsSales db db' where
  rows := by
    intro s hs u hu
    obtain ⟨ts, hins, hts⟩ := h.transactions
    rw [hts] at hs
    obtain ⟨r, hr, hid, hd, hu⟩ := (keepsSales_relabel { db with transactions := ts }
      t.row.idTransaction _).rows s hs u hu
    rcases (Table.mem_insert hins).mp hr with hr | rfl
    · exact ⟨r, hr, hid, hd, hu⟩
    · cases hu
  details := by
    intro s hs
    obtain ⟨ts, hins, -⟩ := h.transactions
    let db₁ : Db := { db with transactions := ts }
    have hins₁ : db.transactions.insert (correctedRow db t dto now).stored
      = some db₁.transactions := hins
    have hfresh : db.newId ∉ db.ledger.docs := fresh_id_of_insert hins₁
    refine h.entered.detailsOf_eq fun d hd heq => ?_
    rw [correctionDetails_named d hd] at heq
    exact hfresh (mem_docs_ledger.mpr ⟨s, hs, heq.symm⟩)
  payments := h.payments

/-- Each sale has a payment, and the lines of a committed item with its key. -/
def Db.SoldFrom (db : Db) (committed : List QueuedTransaction) : Prop :=
  ∀ t ∈ db.transactions.rows, ∀ u, t.offlineUuid = some u →
    db.payments.has (.transaction t.idTransaction) = true ∧
      ∃ data ∈ committed, data.idDevice = t.idDevice ∧ data.offlineUuid = u ∧
        ∃ now, db.detailsOf t.idTransaction = saleDetails data t.idTransaction now

theorem KeepsSales.soldFrom {committed : List QueuedTransaction} (h : KeepsSales db db')
    (hs : db.SoldFrom committed) : db'.SoldFrom committed := by
  intro t ht u hu
  obtain ⟨s, hs', hid, hd, hu⟩ := h.rows t ht u hu
  obtain ⟨hpay, data, hdata, hdev, huuid, now, hdet⟩ := hs s hs' u hu
  rw [← hid, ← hd]
  exact ⟨h.payments _ hpay, data, hdata, hdev, huuid, now, (h.details s hs').trans hdet⟩

/-- A call of another service leaves the sales and their lines. -/
theorem exec_keepsSales {op : Op} (hop : op.isSync = false) : KeepsSales db (exec db op) := by
  have heffect := exec_effect db op
  generalize exec db op = db' at heffect
  cases heffect with
  | alone same _ _ => exact same.keepsSales
  | adjusted product _ moved _ =>
    refine ⟨?_, ?_, ?_⟩
    · rw [moved.frame]
      exact fun t ht u hu => ⟨t, ht, rfl, rfl, hu⟩
    · exact fun s _ => moved.entered.detailsOf_eq fun _ hd => nomatch hd
    · rw [moved.frame]
      exact fun _ hk => hk
  | synced => cases hop
  | voided t read => exact keepsSales_relabel db _ _
  | confirmed t read forced => exact forced.keepsSales
  | conflictVoided t read => exact keepsSales_relabel db _ _
  | corrected t read written => exact written.keepsSales
  | @invalidated _ _ _ _ db₁ r found live rest entered =>
    exact (keepsSales_relabel db₁ _ _).after_same rest

/-- What a committed item leaves: its sale, with a payment and the lines of the item. -/
theorem StoredSale.soldFrom {committed : List QueuedTransaction} {off : List Ident}
    {data : QueuedTransaction} {hasConflict : Bool} {now created : DateTime} {d : Device}
    (hb : Booked db off) (h : StoredSale db db' data hasConflict now d created)
    (hs : db.SoldFrom committed) : db'.SoldFrom (committed ++ [data]) := by
  have hfresh : db.newId ∉ db.ledger.docs := fresh_id_of_insert h.insertable.header
  intro t ht u hu
  rcases (Table.mem_insert h.insertable.header).mp ht with ht | rfl
  · obtain ⟨hpay, x, hx, hdev, huuid, now, hdet⟩ := hs t ht u hu
    have hpay' := Table.has_insert_mono h.insertable.payment hpay
    refine ⟨hpay', x, List.mem_append_left _ hx, hdev, huuid, now, ?_⟩
    rw [← hdet]
    refine h.entered.detailsOf_eq fun l hl heq => ?_
    rw [saleDetails_named l hl] at heq
    exact hfresh (mem_docs_ledger.mpr ⟨t, ht, heq.symm⟩)
  · refine ⟨?_, data, List.mem_append_right _ (List.mem_singleton_self data), rfl,
      Option.some.inj hu, now, ?_⟩
    · rw [Table.has_of_insert h.insertable.payment]
      exact Or.inr (List.mem_cons_of_mem _ List.mem_cons_self)
    · -- no line names the new transaction yet
      have hold : db.details.filter (fun l => decide (l.idTransaction = db.newId)) = [] := by
        rw [List.filter_eq_nil_iff]
        intro l hl heq
        apply hfresh
        rw [← of_decide_eq_true heq]
        exact hb.balanced.lines_mem l.line (List.mem_map_of_mem hl)
      have hnew : (saleDetails data db.newId now).filter
          (fun l => decide (l.idTransaction = db.newId)) = saleDetails data db.newId now := by
        rw [List.filter_eq_self]
        intro l hl
        exact decide_eq_true (saleDetails_named l hl)
      show db'.details.filter (fun l => decide (l.idTransaction = db.newId)) = _
      rw [h.entered.details, List.filter_append, hold, hnew]
      rfl

end Keys

/-! ## The invariant of the system -/

/-- The key of an item. -/
def QueuedTransaction.key (data : QueuedTransaction) : Ident × Ident :=
  (data.idDevice, data.offlineUuid)

/-- The books are in order; each sale was committed, each committed item is stored, and no
two of them have one key; and nothing is handled that was not published. -/
structure Consumers.Safe (σ : Consumers) : Prop where
  booked : ∃ off, Booked σ.db off
  sold : σ.db.SoldFrom σ.committed
  stored : ∀ data ∈ σ.committed, σ.db.isStored data = true
  once : (σ.committed.map (·.key)).Nodup
  committed : ∀ data ∈ σ.committed, data ∈ σ.published
  queue : ∀ message ∈ σ.queue, ∀ data ∈ message, data ∈ σ.published
  workers : ∀ w ∈ σ.workers, (∀ data ∈ w.message, data ∈ σ.published) ∧
    ∀ data ∈ w.rest, data ∈ σ.published

theorem Consumers.safe_start (us : Table User) : (Consumers.start us).Safe where
  booked := ⟨[], booked_withUsers us⟩
  sold := fun _ h => nomatch h
  stored := fun _ h => nomatch h
  once := List.nodup_nil
  committed := fun _ h => nomatch h
  queue := fun _ h => nomatch h
  workers := fun _ h => nomatch h

section Safe

variable {σ : Consumers} {i : ℕ} {w w' : Worker} {db : Db}

/-- The items of a consumer that moved on were published. -/
theorem Consumers.Safe.put_workers (hσ : σ.Safe) (hw : σ.workers[i]? = some w)
    (hfollows : w'.Follows w) : ∀ v ∈ σ.workers.set i w',
      (∀ data ∈ v.message, data ∈ σ.published) ∧ ∀ data ∈ v.rest, data ∈ σ.published := by
  intro v hv
  obtain ⟨hmessage, hrest⟩ := hσ.workers w (List.mem_of_getElem? hw)
  rcases List.mem_or_eq_of_mem_set hv with hv | rfl
  · exact hσ.workers v hv
  · refine ⟨?_, fun data hdata => hrest data (hfollows.rest data hdata)⟩
    rw [hfollows.message]
    exact hmessage

/-- A consumer that moves on without a commit. -/
theorem Consumers.Safe.put_same (hσ : σ.Safe) (hw : σ.workers[i]? = some w)
    (hfollows : w'.Follows w) (hsame : SameSales σ.db db) : (σ.put i [] (db, w')).Safe := by
  have hcommitted : (σ.put i [] (db, w')).committed = σ.committed := List.append_nil _
  obtain ⟨off, hb⟩ := hσ.booked
  refine ⟨⟨off, hb.sameSales hsame⟩, ?_, ?_, ?_, ?_, hσ.queue, hσ.put_workers hw hfollows⟩
  · rw [hcommitted]
    exact hsame.keepsSales.soldFrom hσ.sold
  · rw [hcommitted]
    intro data hdata
    show db.transactions.has _ = true
    rw [hsame.transactions]
    exact hσ.stored data hdata
  · rw [hcommitted]
    exact hσ.once
  · rw [hcommitted]
    exact hσ.committed

/-- A consumer that commits an item. -/
theorem Consumers.Safe.put_commit (hσ : σ.Safe) (hw : σ.workers[i]? = some w)
    (hfollows : w'.Follows w) {data : QueuedTransaction} (hdata : data ∈ w.rest) {now : DateTime}
    (h : processTransaction σ.db data now = .ok db) : (σ.put i [data] (db, w')).Safe := by
  obtain ⟨-, d, created, hsale⟩ := processTransaction_stored h
  obtain ⟨off, hb⟩ := hσ.booked
  have hins := hsale.insertable.header
  have hkey : TransactionKey.deviceUuid data.idDevice data.offlineUuid ∈
      UniqueKeys.keys (headerRow σ.db data d (checkStockAvailability σ.db data.items)
        created now).stored := deviceUuid_mem_keys.mpr ⟨rfl, rfl⟩
  -- the insertion went through, so the key was free
  have hnew : σ.db.isStored data = false := by
    unfold Db.isStored
    rw [Table.has_eq_false]
    intro s hs hmem
    exact Table.free_of_insert hins hs hkey hmem
  refine ⟨⟨off, hb.stored hsale⟩, hsale.soldFrom hb hσ.sold, ?_, ?_, ?_, hσ.queue,
    hσ.put_workers hw hfollows⟩
  · intro x hx
    show db.transactions.has _ = true
    rcases List.mem_append.mp hx with hx | hx
    · exact Table.has_insert_mono hins (hσ.stored x hx)
    · rw [List.mem_singleton.mp hx]
      exact (Table.has_of_insert hins).mpr (Or.inr hkey)
  · show ((σ.committed ++ [data]).map (·.key)).Nodup
    rw [List.map_append, List.map_singleton, ← List.concat_eq_append]
    refine List.Nodup.concat ?_ hσ.once
    intro hmem
    obtain ⟨x, hx, heq⟩ := List.mem_map.mp hmem
    have hstored := hσ.stored x hx
    obtain ⟨hd, hu⟩ := Prod.mk.inj heq
    unfold Db.isStored at hstored hnew
    rw [hd, hu, hnew] at hstored
    cases hstored
  · intro x hx
    rcases List.mem_append.mp hx with hx | hx
    · exact hσ.committed x hx
    · rw [List.mem_singleton.mp hx]
      exact (hσ.workers w (List.mem_of_getElem? hw)).2 data hdata

end Safe

/-- **Every step keeps the system safe.** -/
theorem Consumers.Safe.next {σ τ : Consumers} {a : ConsumerAction} (hσ : σ.Safe)
    (h : Consumers.next σ a = some τ) : τ.Safe := by
  cases Consumers.next_step h with
  | @call op hop =>
    obtain ⟨off, hb⟩ := hσ.booked
    have hsold := (exec_keepsSales hop).soldFrom hσ.sold
    refine ⟨⟨_, hb.exec op⟩, hsold, ?_, hσ.once, hσ.committed, hσ.queue, hσ.workers⟩
    exact fun data hdata => (exec_grows σ.db op).transactions _ (hσ.stored data hdata)
  | publish message =>
    have hmore : ∀ data, data ∈ σ.published → data ∈ σ.published ++ message :=
      fun _ => List.mem_append_left _
    refine ⟨hσ.booked, hσ.sold, hσ.stored, hσ.once, fun data hd => hmore _ (hσ.committed data hd),
      ?_, ?_⟩
    · intro m hm data hdata
      rcases List.mem_append.mp hm with hm | hm
      · exact hmore _ (hσ.queue m hm data hdata)
      · rw [List.mem_singleton.mp hm] at hdata
        exact List.mem_append_right _ hdata
    · intro w hw
      exact ⟨fun data hd => hmore _ ((hσ.workers w hw).1 data hd),
        fun data hd => hmore _ ((hσ.workers w hw).2 data hd)⟩
  | @deliver i message hmessage =>
    refine ⟨hσ.booked, hσ.sold, hσ.stored, hσ.once, hσ.committed, ?_, ?_⟩
    · exact fun m hm => hσ.queue m (List.mem_of_mem_eraseIdx hm)
    · intro w hw
      rcases List.mem_append.mp hw with hw | hw
      · exact hσ.workers w hw
      · rw [List.mem_singleton.mp hw]
        have hpub := hσ.queue message (List.mem_of_getElem? hmessage)
        exact ⟨hpub, hpub⟩
  | lookup hw hw' => exact hσ.put_same hw (Worker.lookup_cases hw') (.refl σ.db)
  | transact hw hw' =>
    obtain ⟨hfollows, ⟨rfl, hnone⟩ | ⟨data, hdata, hok, hsome⟩⟩ := Worker.transact_cases hw'
    · rw [hnone]
      exact hσ.put_same hw hfollows (.refl σ.db)
    · rw [hsome]
      exact hσ.put_commit hw hfollows hdata hok
  | record hw hw' =>
    obtain ⟨hfollows, hsame⟩ := Worker.record_cases hw'
    exact hσ.put_same hw hfollows hsame
  | acknowledge i =>
    exact ⟨hσ.booked, hσ.sold, hσ.stored, hσ.once, hσ.committed, hσ.queue,
      fun v hv => hσ.workers v (List.mem_of_mem_eraseIdx hv)⟩
  | @crash i w hw =>
    refine ⟨hσ.booked, hσ.sold, hσ.stored, hσ.once, hσ.committed, ?_,
      fun v hv => hσ.workers v (List.mem_of_mem_eraseIdx hv)⟩
    intro m hm
    rcases List.mem_append.mp hm with hm | hm
    · exact hσ.queue m hm
    · rw [List.mem_singleton.mp hm]
      exact (hσ.workers w (List.mem_of_getElem? hw)).1

/-! ## Exactly once -/

/-- The system stays safe in every run. -/
theorem Consumers.safe_of_reaches {us : Table User} {σ : Consumers}
    (h : Runs.Reaches Consumers.next (Consumers.start us) σ) : σ.Safe :=
  h.invariant Consumers.Safe (safe_start us) fun _ _ _ hσ hstep => hσ.next hstep

/-- What the books say of one transaction: its movements are its deductions or cancel out;
they are its deductions if it is CONFIRMED, and cancel out if it is PENDING. -/
theorem Booked.net_cases {db : Db} {off : List Ident} (hb : Booked db off) {t : Transaction}
    (ht : t ∈ db.transactions.rows) (p : Ident) :
    (db.net t.idTransaction p = -db.sold t.idTransaction p ∨ db.net t.idTransaction p = 0) ∧
      (t.status = .CONFIRMED → db.net t.idTransaction p = -db.sold t.idTransaction p) ∧
      (t.status = .PENDING → db.net t.idTransaction p = 0) := by
  have hmoved := hb.balanced.moved t.idTransaction p
  rw [movedBy_ledger, listedBy_ledger] at hmoved
  refine ⟨?_, fun hstatus => ?_, fun hstatus => ?_⟩
  · rw [hmoved]
    split
    · exact Or.inl rfl
    · exact Or.inr rfl
  · rw [hmoved, if_pos]
    unfold Db.posted
    rw [statusOf_of_mem ht, hstatus]
    rfl
  · have hopen : ¬ t.Closed := not_closed_of_status (by rw [hstatus]; decide)
    rw [hmoved, hb.posted_eq_false ht (by rw [hstatus]; decide) hopen]
    rfl

/-- **Each item has its effect at most once.**  In every state that consumers reach side by
side, with redeliveries, crashes and calls of other services in between: the database
transaction of an item was committed at most once for each key; at most one transaction has a
key; it has one payment and the lines of the committed item; and its movements, of which
the stock is the sum, take out its lines once, or not at all, as its status says. -/
theorem sync_exactly_once {us : Table User} {σ : Consumers}
    (h : Runs.Reaches Consumers.next (Consumers.start us) σ) :
    (∀ data ∈ σ.committed, data ∈ σ.published) ∧
    (σ.committed.map (·.key)).Nodup ∧
    (∀ d u, (σ.db.transactions.rows.filter
      fun t => decide (t.idDevice = d ∧ t.offlineUuid = some u)).length ≤ 1) ∧
    (∀ t ∈ σ.db.transactions.rows, ∀ u, t.offlineUuid = some u →
      (σ.db.payments.rows.filter fun p => decide (p.idTransaction = t.idTransaction)).length = 1 ∧
      (∃ data ∈ σ.committed, data.key = (t.idDevice, u) ∧
        ∃ now, σ.db.detailsOf t.idTransaction = saleDetails data t.idTransaction now) ∧
      ∀ p, (σ.db.net t.idTransaction p = -σ.db.sold t.idTransaction p ∨
          σ.db.net t.idTransaction p = 0) ∧
        (t.status = .CONFIRMED → σ.db.net t.idTransaction p = -σ.db.sold t.idTransaction p) ∧
        (t.status = .PENDING → σ.db.net t.idTransaction p = 0)) ∧
    ∀ p, σ.db.stock p = movement p σ.db.stockHistories := by
  have hσ := Consumers.safe_of_reaches h
  obtain ⟨off, hb⟩ := hσ.booked
  refine ⟨hσ.committed, hσ.once, fun d u => ?_, fun t ht u hu => ?_, hb.stock⟩
  · refine Table.length_filter_le_one σ.db.transactions (k := .deviceUuid d u) fun t ht => ?_
    exact deviceUuid_mem_keys.mpr (of_decide_eq_true ht)
  · obtain ⟨hpay, data, hdata, hdev, huuid, hlines⟩ := hσ.sold t ht u hu
    refine ⟨?_, ⟨data, hdata, Prod.ext hdev huuid, hlines⟩, hb.net_cases ht⟩
    have hkey : ∀ p : Payment, PaymentKey.transaction t.idTransaction ∈ UniqueKeys.keys p ↔
        p.idTransaction = t.idTransaction := by
      simp [UniqueKeys.keys, eq_comm]
    apply Nat.le_antisymm
    · refine Table.length_filter_le_one σ.db.payments (k := .transaction t.idTransaction) ?_
      exact fun p hp => (hkey p).mpr (of_decide_eq_true hp)
    · obtain ⟨p, hp, hpt⟩ := Table.has_iff.mp hpay
      apply List.length_pos_of_mem
      exact List.mem_filter.mpr ⟨hp, decide_eq_true ((hkey p).mp hpt)⟩

/-- Two consumers have looked for one item before the first stores it; the second fails on
the unique key; the first dies before it acknowledges, and its message is delivered again. -/
def redelivered : List ConsumerAction :=
  let sale := shopQueued shopDevice "a" [3]
  shopOpening.map .call ++
    [.publish [sale, sale], .publish [sale], .deliver 0, .deliver 0,
     .lookup 0 .served, .lookup 1 .served, .transact 0 1 .served, .transact 1 1 .served,
     .record 1 1 .served, .acknowledge 1, .crash 0, .deliver 0,
     .lookup 0 .served, .lookup 0 .served, .acknowledge 0]

/-- The item of the three deliveries is sold once. -/
theorem sync_exactly_once_redelivered : ∃ σ : Consumers, σ.published.length = 3 ∧
    σ.db.transactions.rows.length = 1 ∧ σ.db.stock shopProduct = 7 ∧
      (σ.committed.map (·.key)).Nodup ∧
      ∀ d u, (σ.db.transactions.rows.filter
        fun t => decide (t.idDevice = d ∧ t.offlineUuid = some u)).length ≤ 1 := by
  have hcheck : (Runs.runs Consumers.next (fun _ _ => true) (Consumers.start systemUsers)
      redelivered).any (fun σ => decide (σ.published.length = 3 ∧
        σ.db.transactions.rows.length = 1 ∧ σ.db.stock shopProduct = 7)) = true := by
    decide +kernel
  obtain ⟨σ, hrun, hstate⟩ := Runs.exists_run_of_runs hcheck
  obtain ⟨hpublished, hone, hstock⟩ := of_decide_eq_true hstate
  have honce := sync_exactly_once hrun.reaches
  exact ⟨σ, hpublished, hone, hstock, honce.2.1, honce.2.2.1⟩

end KPos
