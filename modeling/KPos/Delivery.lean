/-
# The delivery of items (`sync-consumer.service.ts`, `sync-producer.service.ts`)

The main queue with its consumers, the dead-letter queue with its consumers, and the retry
queues, side by side.  Each database call and each publication is a step of its own.  A message
that is delivered may be acknowledged, delivered again, or dead-lettered.

* `Delivery.next` : the system, and `Delivery.next_step` : what a step can do;
* `handleDlqEntry_as_steps` : a dead-letter consumer that runs alone does what
  `handleDlqEntry` does;
* `Delivery.next_cases` : what a step does to the sales and to `SyncQueue`.
-/
import KPos.Consumers
import KPos.DeadLetters

namespace KPos

/-! ## Attempts -/

/-- How an attempt to handle an item ended: the item is stored, a `SyncConflictException` was
thrown, or another error was. -/
inductive AttemptResult where
  | stored | conflict | failed
  deriving DecidableEq, Repr

/-- An attempt at the item with a key. -/
structure Attempt where
  key : Ident × Ident
  result : AttemptResult
  deriving DecidableEq

/-- `error instanceof SyncConflictException`. -/
def Err.isConflict : Err → Bool
  | .syncConflict _ _ => true
  | _ => false

/-- How an attempt ends that throws. -/
def Err.attemptResult (error : Err) : AttemptResult :=
  if error.isConflict then .conflict else .failed

/-- The attempt that ends when a consumer moves on from `w` to `w'`. -/
def Worker.attempt (w w' : Worker) : List Attempt :=
  match w.rest, w'.stage with
  | data :: _, .lookup => [⟨data.key, .stored⟩]
  | data :: _, .record error => [⟨data.key, error.attemptResult⟩]
  | _, _ => []

/-- The items that the consumer has not attempted yet. -/
def Worker.unfinished (w : Worker) : List QueuedTransaction :=
  match w.stage with
  | .lookup | .transact => w.rest
  | .record _ => w.rest.tail

/-- The item that `handleFailure` is about to record, with its error. -/
def Worker.failure (w : Worker) : Option (QueuedTransaction × Err) :=
  match w.stage, w.rest with
  | .record error, data :: _ => some (data, error)
  | _, _ => none

/-- The attempt that ends with a step of the consumers. -/
def Consumers.attempt (σ τ : Consumers) : ConsumerAction → List Attempt
  | .lookup i _ | .transact i _ _ =>
      match σ.workers[i]?, τ.workers[i]? with
      | some w, some w' => w.attempt w'
      | _, _ => []
  | _ => []

/-! ## Consumers of the dead-letter queue -/

/-- What a dead-letter consumer does next with the first of its remaining entries: decide about
it, or write its terminal failure after `findFirst` returned. -/
inductive DlqStage where
  | entry
  | write (existingEntry : Option SyncQueue)

/-- A dead-letter consumer: the message that it took, and the entries that it has not
handled. -/
structure DlqWorker where
  message : List QueuedTransaction
  rest : List QueuedTransaction
  stage : DlqStage

/-- A dead-letter consumer that has just taken a message. -/
def DlqWorker.start (message : List QueuedTransaction) : DlqWorker where
  message := message
  rest := message.filter fun t => t.offlineUuid.truthy && t.idDevice.truthy
  stage := .entry

/-- The consumer goes on to the next entry. -/
def DlqWorker.advance (w : DlqWorker) : DlqWorker := ⟨w.message, w.rest.tail, .entry⟩

/-- An entry is published to a retry queue. -/
def DlqWorker.publish (w : DlqWorker) (retries : List Retry) (call : Call) :
    Option (List Retry × DlqWorker) :=
  match w.stage, w.rest with
  | .entry, data :: _ =>
      if data.attempt ≤ maxRetries then
        some (publishToRetry retries [data.retried] data.attempt call, w.advance)
      else none
  | _, _ => none

/-- `findFirst` for an entry whose failure is terminal. -/
def DlqWorker.find (w : DlqWorker) (db : Db) (call : Call) : Option DlqWorker :=
  match w.stage, w.rest with
  | .entry, data :: _ =>
      if data.attempt ≤ maxRetries then none
      else
        match call with
        | .served => some { w with stage := .write (db.findNoted data) }
        | .failed _ | .lost _ => some w.advance
  | _, _ => none

/-- The write of a terminal failure. -/
def DlqWorker.write (w : DlqWorker) (db : Db) (now : DateTime) (call : Call) :
    Option (Db × DlqWorker) :=
  match w.stage, w.rest with
  | .write existingEntry, data :: _ =>
      some ((call.run db (writeTerminalFailure db data existingEntry now)).1, w.advance)
  | _, _ => none

/-- The entry whose terminal failure is about to be written. -/
def DlqWorker.terminal (w : DlqWorker) : Option QueuedTransaction :=
  match w.stage, w.rest with
  | .write _, data :: _ => some data
  | _, _ => none

/-! ## The system -/

/-- The main queue with its consumers, the dead letters that wait, the dead-letter consumers at
work, the messages in the retry queues, and all attempts so far. -/
structure Delivery where
  consumers : Consumers
  dlq : List (List QueuedTransaction)
  dlqWorkers : List DlqWorker
  retries : List Retry
  attempts : List Attempt

inductive DeliveryAction where
  /-- A batch is published, as `publishBatch` does. -/
  | submit (message : List QueuedTransaction)
  /-- A step of the consumers of the main queue, or a call of another service. -/
  | consumer (a : ConsumerAction)
  /-- The message of the consumer `i` is dead-lettered. -/
  | reject (i : ℕ)
  | takeDlq (i : ℕ)
  | publishRetry (j : ℕ) (call : Call)
  | findFirst (j : ℕ) (call : Call)
  | writeTerminal (j : ℕ) (now : DateTime) (call : Call)
  /-- The dead-letter consumer has handled its entries: the message is gone. -/
  | acknowledgeDlq (j : ℕ)
  /-- The dead-letter consumer dies: its message waits again. -/
  | crashDlq (j : ℕ)
  /-- The time of the message `r` in a retry queue is up. -/
  | expire (r : ℕ)

/-- A database with users, and no message yet. -/
def Delivery.start (us : Table User) : Delivery := ⟨.start us, [], [], [], []⟩

abbrev Delivery.db (σ : Delivery) : Db := σ.consumers.db

/-- The dead-letter consumer `j` is now `w`. -/
def Delivery.setDlq (σ : Delivery) (j : ℕ) (w : DlqWorker) : Delivery :=
  { σ with dlqWorkers := σ.dlqWorkers.set j w }

/-- The database is now `db`. -/
def Delivery.withDb (σ : Delivery) (db : Db) : Delivery :=
  { σ with consumers := { σ.consumers with db := db } }

/-- The consumer `i` loses its message `w` to the dead-letter queue. -/
def Delivery.deadLetter (σ : Delivery) (i : ℕ) (w : Worker) : Delivery :=
  { σ with
    consumers := { σ.consumers with workers := σ.consumers.workers.eraseIdx i }
    dlq := σ.dlq ++ [w.message]
    -- what was not attempted yet has failed with the message
    attempts := σ.attempts ++ w.unfinished.map fun data => ⟨data.key, .failed⟩ }

def Delivery.next (σ : Delivery) : DeliveryAction → Option Delivery
  | .submit message =>
      if message.all (·.retryAttempt.isNone) then
        some { σ with consumers := σ.consumers.enqueue message }
      else none
  | .consumer a =>
      if a.isPublish then none
      else (Consumers.next σ.consumers a).map fun c =>
        { σ with consumers := c, attempts := σ.attempts ++ σ.consumers.attempt c a }
  | .reject i => σ.consumers.workers[i]?.map (σ.deadLetter i)
  | .takeDlq i => σ.dlq[i]?.map fun message =>
      { σ with dlq := σ.dlq.eraseIdx i, dlqWorkers := σ.dlqWorkers ++ [.start message] }
  | .publishRetry j call => σ.dlqWorkers[j]?.bind fun w =>
      (w.publish σ.retries call).map fun r => { σ.setDlq j r.2 with retries := r.1 }
  | .findFirst j call => σ.dlqWorkers[j]?.bind fun w => (w.find σ.db call).map (σ.setDlq j)
  | .writeTerminal j now call => σ.dlqWorkers[j]?.bind fun w =>
      (w.write σ.db now call).map fun r => (σ.setDlq j r.2).withDb r.1
  | .acknowledgeDlq j => σ.dlqWorkers[j]?.bind fun w =>
      if w.rest.isEmpty then some { σ with dlqWorkers := σ.dlqWorkers.eraseIdx j } else none
  | .crashDlq j => σ.dlqWorkers[j]?.map fun w =>
      { σ with dlq := σ.dlq ++ [w.message], dlqWorkers := σ.dlqWorkers.eraseIdx j }
  | .expire r => σ.retries[r]?.map fun retry =>
      { σ with
        consumers := σ.consumers.enqueue retry.message
        retries := σ.retries.eraseIdx r }

/-! ## A dead-letter consumer that runs alone -/

section Alone

variable {σ : Delivery} {j : ℕ} {message rest : List QueuedTransaction}
  {data : QueuedTransaction}

/-- The system after the dead-letter consumer `j` got to `w` with the effects `s`. -/
def Delivery.effect (σ : Delivery) (j : ℕ) (w : DlqWorker) (s : DlqEffects) : Delivery :=
  { (σ.setDlq j w).withDb s.db with retries := s.retries }

theorem Delivery.effect_dlqWorkers {w : DlqWorker} (hw : σ.dlqWorkers[j]? = some w)
    (w' : DlqWorker) (s : DlqEffects) : (σ.effect j w' s).dlqWorkers[j]? = some w' := by
  have hj : j < σ.dlqWorkers.length := (List.getElem?_eq_some_iff.mp hw).1
  exact List.getElem?_set_self hj

theorem Delivery.effect_effect (w w' : DlqWorker) (s s' : DlqEffects) :
    (σ.effect j w s).effect j w' s' = σ.effect j w' s' := by
  unfold Delivery.effect Delivery.setDlq Delivery.withDb
  rw [List.set_set]

/-- **A dead-letter consumer that runs alone handles an entry as `handleDlqEntry` does.** -/
theorem handleDlqEntry_as_steps
    (hw : σ.dlqWorkers[j]? = some ⟨message, data :: rest, .entry⟩) (outcome : DlqOutcome) :
    Runs.Reaches Delivery.next σ (σ.effect j ⟨message, rest, .entry⟩
      (handleDlqEntry ⟨σ.db, σ.retries⟩ data outcome)) := by
  let w : DlqWorker := ⟨message, data :: rest, .entry⟩
  unfold handleDlqEntry
  split
  · rename_i hle
    refine (Runs.Reaches.refl σ).step (a := .publishRetry j outcome.publish) ?_
    show (σ.dlqWorkers[j]?.bind fun w => (w.publish σ.retries outcome.publish).map
      fun r => { σ.setDlq j r.2 with retries := r.1 }) = _
    rw [hw, Option.bind_some]
    simp only [DlqWorker.publish, hle, if_true]
    rfl
  · rename_i hlt
    have hfind : ∀ w', w.find σ.db outcome.find = some w' →
        Runs.Reaches Delivery.next σ (σ.effect j w' ⟨σ.db, σ.retries⟩) := by
      intro w' hw'
      refine (Runs.Reaches.refl σ).step (a := .findFirst j outcome.find) ?_
      show (σ.dlqWorkers[j]?.bind fun w => (w.find σ.db outcome.find).map (σ.setDlq j)) = _
      rw [hw, Option.bind_some, hw']
      rfl
    unfold DlqWorker.find at hfind
    simp only [w, hlt, if_false] at hfind
    unfold recordTerminalFailure
    cases houtcome : outcome.find with
    | served =>
      simp only [houtcome] at hfind
      have hfound := hfind _ rfl
      have hw' := Delivery.effect_dlqWorkers hw
        ⟨message, data :: rest, .write (σ.db.findNoted data)⟩ ⟨σ.db, σ.retries⟩
      rw [← Delivery.effect_effect ⟨message, data :: rest, .write (σ.db.findNoted data)⟩ _
        ⟨σ.db, σ.retries⟩]
      refine hfound.step (a := .writeTerminal j outcome.now outcome.write) ?_
      show (Option.bind _ fun w : DlqWorker => _) = _
      rw [hw']
      rfl
    | failed error =>
      simp only [houtcome] at hfind
      exact hfind _ rfl
    | lost error =>
      simp only [houtcome] at hfind
      exact hfind _ rfl

/-- **A dead-letter consumer that runs alone handles its entries as `handleDlqMessage`
does.** -/
theorem handleDlqEntries_as_steps (entries : List (QueuedTransaction × DlqOutcome))
    (hw : σ.dlqWorkers[j]? = some ⟨message, entries.map (·.1), .entry⟩) :
    Runs.Reaches Delivery.next σ (σ.effect j ⟨message, [], .entry⟩
      (entries.foldl (fun s e => handleDlqEntry s e.1 e.2) ⟨σ.db, σ.retries⟩)) := by
  induction entries generalizing σ with
  | nil =>
    obtain ⟨hj, hget⟩ := List.getElem?_eq_some_iff.mp hw
    have hset : σ.dlqWorkers.set j ⟨message, [], .entry⟩ = σ.dlqWorkers := by
      have hself : σ.dlqWorkers[j] = ⟨message, [], .entry⟩ := hget
      rw [← hself]
      exact List.set_getElem_self hj
    have hsame : σ.effect j ⟨message, [], .entry⟩ ⟨σ.db, σ.retries⟩ = σ := by
      unfold Delivery.effect Delivery.setDlq Delivery.withDb
      rw [hset]
    rw [List.foldl_nil, hsame]
    exact .refl σ
  | cons e entries ih =>
    have hentry := handleDlqEntry_as_steps hw e.2
    have hrest := ih (Delivery.effect_dlqWorkers hw _
      (handleDlqEntry ⟨σ.db, σ.retries⟩ e.1 e.2))
    rw [Delivery.effect_effect] at hrest
    exact hentry.trans hrest

end Alone

/-! ## What a step writes -/

/-- A row of `SyncQueue` that is new, or has the key of an old one. -/
structure NotesFailure (db db' : Db) (data : QueuedTransaction) : Prop where
  transactions : db'.transactions = db.transactions
  rows : ∀ r ∈ db'.syncQueues.rows, r.status = .SYNC_FAILED ∧ r.idDevice = data.idDevice ∧
      r.offlineUuid = some data.offlineUuid ∧ db.devices.has (.id data.idDevice) = true ∨
    ∃ q ∈ db.syncQueues.rows, q.idDevice = r.idDevice ∧ q.offlineUuid = r.offlineUuid ∧
      (r.status = .SYNC_FAILED ∨ r.status = q.status)

section Writes

variable {db db' : Db} {data : QueuedTransaction}

/-- A row that is created for an item. -/
theorem notesFailure_create {row : SyncQueue} (hdev : row.idDevice = data.idDevice)
    (huuid : row.offlineUuid = some data.offlineUuid) (hstatus : row.status = .SYNC_FAILED)
    (h : db.createSyncQueue row = .ok db') : NotesFailure db db' data := by
  obtain ⟨hhas, -, qs, hqs, rfl⟩ := createSyncQueue_eq_ok.mp h
  refine ⟨rfl, fun r hr => ?_⟩
  rcases (Table.mem_insert hqs).mp hr with hr | rfl
  · exact Or.inr ⟨r, hr, rfl, rfl, Or.inr rfl⟩
  · rw [hdev] at hhas
    exact Or.inl ⟨hstatus, hdev, huuid, hhas⟩

theorem notesFailure_terminal {existingEntry : Option SyncQueue} {now : DateTime}
    (h : writeTerminalFailure db data existingEntry now = .ok db') :
    NotesFailure db db' data := by
  unfold writeTerminalFailure at h
  split at h
  · obtain ⟨-, rfl⟩ := updateSyncQueue_eq_ok.mp h
    refine ⟨rfl, fun r hr => ?_⟩
    rcases Table.mem_update_iff.mp hr with ⟨q, hq, -, rfl⟩ | ⟨hr, -⟩
    · exact Or.inr ⟨q, hq, rfl, rfl, Or.inl rfl⟩
    · exact Or.inr ⟨r, hr, rfl, rfl, Or.inr rfl⟩
  · exact notesFailure_create rfl rfl rfl h

/-- What is committed is the item in hand. -/
theorem Worker.commits_eq_singleton {w : Worker} {now : DateTime} {call : Call}
    (h : w.commits db now call = [data]) :
    call.reaches = true ∧ w.rest.head? = some data := by
  unfold Worker.commits at h
  split at h
  · rename_i x rest hstage hrest
    split at h
    · rename_i hok
      obtain rfl := List.singleton_inj.mp h
      rw [hrest]
      exact ⟨(Bool.and_eq_true_iff.mp hok).1, rfl⟩
    · cases h
  · cases h

/-- The write to `SyncQueue` notes the item in hand, or leaves the database as it was. -/
theorem Worker.record_notes {w w' : Worker} {now : DateTime} {call : Call}
    (h : w.record db now call = some (db', w')) : db' = db ∨
      call.reaches = true ∧ ∃ data error, w.failure = some (data, error) ∧
        NotesFailure db db' data := by
  unfold Worker.record handleFailure at h
  split at h
  · rename_i error data rest hstage hrest
    obtain ⟨hdb, -⟩ := Prod.mk.inj (Option.some.inj h)
    rcases call_run_cases call db (db.createSyncQueue (failureRow db data error now)) with
      ⟨hsame, -⟩ | ⟨hok, hreaches⟩
    · exact Or.inl (hdb.symm.trans hsame)
    · rw [hdb] at hok
      refine Or.inr ⟨(Bool.and_eq_true_iff.mp hreaches).1, data, error, ?_,
        notesFailure_create rfl rfl rfl hok⟩
      simp only [Worker.failure, hstage, hrest]
  · cases h

theorem DlqWorker.write_notes {w w' : DlqWorker} {now : DateTime} {call : Call}
    (h : w.write db now call = some (db', w')) : db' = db ∨
      call.reaches = true ∧ ∃ data, w.terminal = some data ∧ NotesFailure db db' data := by
  unfold DlqWorker.write at h
  split at h
  · rename_i existingEntry data rest hstage hrest
    obtain ⟨hdb, -⟩ := Prod.mk.inj (Option.some.inj h)
    rcases call_run_cases call db (writeTerminalFailure db data existingEntry now) with
      ⟨hsame, -⟩ | ⟨hok, hreaches⟩
    · exact Or.inl (hdb.symm.trans hsame)
    · rw [hdb] at hok
      refine Or.inr ⟨(Bool.and_eq_true_iff.mp hreaches).1, data, ?_, notesFailure_terminal hok⟩
      simp only [DlqWorker.terminal, hstage, hrest]
  · cases h

end Writes

/-- The item of a database transaction that reaches the database. -/
def Delivery.committing (σ : Delivery) : DeliveryAction → Option QueuedTransaction
  | .consumer (.transact i _ call) =>
      if call.reaches then σ.consumers.workers[i]?.bind (·.rest.head?) else none
  | _ => none

/-- The item of a write to `SyncQueue` that reaches the database. -/
def Delivery.noting (σ : Delivery) : DeliveryAction → Option QueuedTransaction
  | .consumer (.record i _ call) =>
      if call.reaches then (σ.consumers.workers[i]?.bind (·.failure)).map (·.1) else none
  | .writeTerminal j _ call =>
      if call.reaches then σ.dlqWorkers[j]?.bind (·.terminal) else none
  | _ => none

/-- What an action of the system leads to. -/
inductive Delivery.Step (σ : Delivery) : DeliveryAction → Delivery → Prop
  | submit {message : List QueuedTransaction}
      (hfresh : ∀ data ∈ message, data.retryAttempt = none) :
      Step σ (.submit message) { σ with consumers := σ.consumers.enqueue message }
  | consumer {a : ConsumerAction} {c : Consumers} (ha : a.isPublish = false)
      (hc : Consumers.Step σ.consumers a c) : Step σ (.consumer a)
        { σ with consumers := c, attempts := σ.attempts ++ σ.consumers.attempt c a }
  | reject {i : ℕ} {w : Worker} (hw : σ.consumers.workers[i]? = some w) :
      Step σ (.reject i) (σ.deadLetter i w)
  | takeDlq {i : ℕ} {message : List QueuedTransaction} (hmessage : σ.dlq[i]? = some message) :
      Step σ (.takeDlq i)
        { σ with dlq := σ.dlq.eraseIdx i, dlqWorkers := σ.dlqWorkers ++ [.start message] }
  | publishRetry {j : ℕ} {call : Call} {w w' : DlqWorker} {retries : List Retry}
      (hw : σ.dlqWorkers[j]? = some w) (hw' : w.publish σ.retries call = some (retries, w')) :
      Step σ (.publishRetry j call) { σ.setDlq j w' with retries := retries }
  | findFirst {j : ℕ} {call : Call} {w w' : DlqWorker} (hw : σ.dlqWorkers[j]? = some w)
      (hw' : w.find σ.db call = some w') : Step σ (.findFirst j call) (σ.setDlq j w')
  | writeTerminal {j : ℕ} {now : DateTime} {call : Call} {w w' : DlqWorker} {db : Db}
      (hw : σ.dlqWorkers[j]? = some w) (hw' : w.write σ.db now call = some (db, w')) :
      Step σ (.writeTerminal j now call) ((σ.setDlq j w').withDb db)
  | acknowledgeDlq (j : ℕ) :
      Step σ (.acknowledgeDlq j) { σ with dlqWorkers := σ.dlqWorkers.eraseIdx j }
  | crashDlq {j : ℕ} {w : DlqWorker} (hw : σ.dlqWorkers[j]? = some w) : Step σ (.crashDlq j)
      { σ with dlq := σ.dlq ++ [w.message], dlqWorkers := σ.dlqWorkers.eraseIdx j }
  | expire {r : ℕ} {retry : Retry} (hretry : σ.retries[r]? = some retry) : Step σ (.expire r)
      { σ with
        consumers := σ.consumers.enqueue retry.message
        retries := σ.retries.eraseIdx r }

/-- **What a step can do.** -/
theorem Delivery.next_step {σ τ : Delivery} {a : DeliveryAction} (h : σ.next a = some τ) :
    Delivery.Step σ a τ := by
  cases a with
  | submit message =>
    have h : (if message.all (·.retryAttempt.isNone) then
      some { σ with consumers := σ.consumers.enqueue message } else none) = some τ := h
    split at h
    · rename_i hall
      obtain rfl := Option.some.inj h
      refine .submit fun data hdata => ?_
      exact Option.isNone_iff_eq_none.mp (List.all_eq_true.mp hall data hdata)
    · cases h
  | consumer a =>
    have h : (if a.isPublish then none else (Consumers.next σ.consumers a).map fun c =>
      { σ with consumers := c, attempts := σ.attempts ++ σ.consumers.attempt c a }) = some τ := h
    split at h
    · cases h
    · rename_i hpublish
      obtain ⟨c, hc, rfl⟩ := Option.map_eq_some_iff.mp h
      exact .consumer (Bool.eq_false_of_not_eq_true hpublish) (Consumers.next_step hc)
  | reject i =>
    obtain ⟨w, hw, rfl⟩ := Option.map_eq_some_iff.mp h
    exact .reject hw
  | takeDlq i =>
    obtain ⟨message, hmessage, rfl⟩ := Option.map_eq_some_iff.mp h
    exact .takeDlq hmessage
  | publishRetry j call =>
    obtain ⟨w, hw, h⟩ := Option.bind_eq_some_iff.mp h
    obtain ⟨⟨retries, w'⟩, hw', rfl⟩ := Option.map_eq_some_iff.mp h
    exact .publishRetry hw hw'
  | findFirst j call =>
    obtain ⟨w, hw, h⟩ := Option.bind_eq_some_iff.mp h
    obtain ⟨w', hw', rfl⟩ := Option.map_eq_some_iff.mp h
    exact .findFirst hw hw'
  | writeTerminal j now call =>
    obtain ⟨w, hw, h⟩ := Option.bind_eq_some_iff.mp h
    obtain ⟨⟨db, w'⟩, hw', rfl⟩ := Option.map_eq_some_iff.mp h
    exact .writeTerminal hw hw'
  | acknowledgeDlq j =>
    obtain ⟨w, -, h⟩ := Option.bind_eq_some_iff.mp h
    split at h
    · obtain rfl := Option.some.inj h
      exact .acknowledgeDlq j
    · cases h
  | crashDlq j =>
    obtain ⟨w, hw, rfl⟩ := Option.map_eq_some_iff.mp h
    exact .crashDlq hw
  | expire r =>
    obtain ⟨retry, hretry, rfl⟩ := Option.map_eq_some_iff.mp h
    exact .expire hretry

/-- **What a step writes**: nothing that concerns keys, the sale of an item, or a failure. -/
theorem Delivery.next_cases {σ τ : Delivery} {a : DeliveryAction} (h : σ.next a = some τ) :
    (τ.db.syncQueues = σ.db.syncQueues ∧ KeepsSales σ.db τ.db) ∨
    (∃ data, σ.committing a = some data ∧
      ∃ now, processTransaction σ.db data now = .ok τ.db) ∨
    ∃ data, σ.noting a = some data ∧ NotesFailure σ.db τ.db data := by
  have hsame : τ.db = σ.db →
      τ.db.syncQueues = σ.db.syncQueues ∧ KeepsSales σ.db τ.db := by
    intro hdb
    rw [hdb]
    exact ⟨rfl, (SameSales.refl σ.db).keepsSales⟩
  cases Delivery.next_step h with
  | consumer ha hc =>
    cases hc with
    | call hop => exact Or.inl ⟨exec_syncQueues hop, exec_keepsSales hop⟩
    | @transact i now call w w' db hw hw' =>
      obtain ⟨-, ⟨rfl, -⟩ | ⟨data, -, hok, hcommits⟩⟩ := Worker.transact_cases hw'
      · exact Or.inl (hsame rfl)
      · refine Or.inr (Or.inl ⟨data, ?_, now, hok⟩)
        obtain ⟨hreaches, hhead⟩ := Worker.commits_eq_singleton hcommits
        simp only [Delivery.committing, hreaches, if_true, hw, Option.bind_some]
        exact hhead
    | record hw hw' =>
      rcases Worker.record_notes hw' with rfl | ⟨hreaches, data, error, hfailure, hnotes⟩
      · exact Or.inl (hsame rfl)
      · refine Or.inr (Or.inr ⟨data, ?_, hnotes⟩)
        simp only [Delivery.noting, hreaches, if_true, hw, Option.bind_some, hfailure]
        rfl
    | publish | deliver | lookup | acknowledge | crash => exact Or.inl (hsame rfl)
  | writeTerminal hw hw' =>
    rcases DlqWorker.write_notes hw' with rfl | ⟨hreaches, data, hterminal, hnotes⟩
    · exact Or.inl (hsame rfl)
    · refine Or.inr (Or.inr ⟨data, ?_, hnotes⟩)
      simp only [Delivery.noting, hreaches, if_true, hw, Option.bind_some, hterminal]
  | submit | reject | takeDlq | publishRetry | findFirst | acknowledgeDlq | crashDlq | expire =>
    exact Or.inl (hsame rfl)

/-! ## Steps of the shop -/

/-- The opening of the shop, with no message yet. -/
def openingSteps : List DeliveryAction := shopOpening.map fun op => .consumer (.call op)

/-- The steps of a consumer that is delivered the first message that waits, and does the only
item of it: how its lookup ends, and what it does after. -/
def delivered (lookup : Call) (next : ConsumerAction) : List DeliveryAction :=
  [.deliver 0, .lookup 0 lookup, next, .acknowledge 0].map .consumer

end KPos
