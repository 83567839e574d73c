/-
# Handling a batch (`sync-consumer.service.ts`)

`handleSyncTransactionBatch` looks each item up by its key, processes it if it is new, and
writes a `SyncQueue` row for it when something throws.  The message is acknowledged at the
end, whatever happened to the items.

Every database call can end in its own way: an `ItemOutcome` says how the three calls made
for an item end.
-/
import KPos.SyncConsumer

namespace KPos

/-! ## The failure path -/

/-- The last line of a message that is not blank, or the message. -/
def cleanMessage (message : String) : String :=
  let lines := (message.splitOn "\n").filter fun line => !line.all Char.isWhitespace
  lines.getLast?.getD message

/-- The JSON text that `handleFailure` builds. -/
def errorPayload (error : Err) : LastError :=
  match error with
  | .syncConflict code message => .json (toString code) message
  | error =>
      let message := cleanMessage error.message
      let isForeignKey := decide (1 < (message.splitOn "Foreign key constraint violated").length)
      let fallbackCode : SyncErrorCode :=
        if isForeignKey then .SYNC_CONSTRAINT_VIOLATION else .SYNC_UNKNOWN_ERROR
      .json (toString fallbackCode) message

/-- The row that `handleFailure` creates. -/
def failureRow (db : Db) (data : QueuedTransaction) (error : Err) (now : DateTime) :
    SyncQueue where
  id := db.newId
  idDevice := data.idDevice
  idTransaction := none
  offlineUuid := some data.offlineUuid
  operation := "SYNC_BATCH_REJECTED"
  payload := data
  lastError := errorPayload error
  status := .SYNC_FAILED
  createdAt := now
  updatedAt := now

/-- `handleFailure`: whatever its own write throws is caught and logged. -/
def handleFailure (db : Db) (data : QueuedTransaction) (error : Err) (now : DateTime)
    (create : Call) : Db :=
  (create.run db (db.createSyncQueue (failureRow db data error now))).1

/-! ## Items and batches -/

/-- When an item is handled, and how the lookup, the database transaction and the write to
`SyncQueue` end. -/
structure ItemOutcome where
  now : DateTime
  lookup : Call
  transaction : Call
  create : Call

/-- All calls are served. -/
def ItemOutcome.served (now : DateTime) : ItemOutcome := ⟨now, .served, .served, .served⟩

/-- The lookup by `id_device_offline_uuid`. -/
def Db.isStored (db : Db) (data : QueuedTransaction) : Bool :=
  db.transactions.has (.deviceUuid data.idDevice data.offlineUuid)

/-- An item that was not found is processed, and recorded as failed if that throws. -/
def processOrFail (db : Db) (data : QueuedTransaction) (outcome : ItemOutcome) : Db :=
  match outcome.transaction.run db (processTransaction db data outcome.now) with
  | (db', none) => db'
  | (db', some error) => handleFailure db' data error outcome.now outcome.create

/-- One round of the loop of `handleSyncTransactionBatch`. -/
def handleItem (db : Db) (data : QueuedTransaction) (outcome : ItemOutcome) : Db :=
  match outcome.lookup with
  | .served => if db.isStored data then db else processOrFail db data outcome
  | .failed message | .lost message =>
      handleFailure db data (.raised message) outcome.now outcome.create

/-- `handleSyncTransactionBatch`, up to the acknowledgement. -/
def handleSyncTransactionBatch (db : Db) (batch : List (QueuedTransaction × ItemOutcome)) : Db :=
  batch.foldl (fun db item => handleItem db item.1 item.2) db

/-! ## What an item leaves -/

/-- How a call of the database ends: without its effect, or with it. -/
theorem call_run_cases (call : Call) (db : Db) (r : Except Err Db) :
    (call.run db r).1 = db ∧ (call.reaches && r.isOk) = false ∨
      r = .ok (call.run db r).1 ∧ (call.reaches && r.isOk) = true := by
  cases call with
  | served =>
    cases r with
    | error e => exact Or.inl ⟨rfl, rfl⟩
    | ok db' => exact Or.inr ⟨rfl, rfl⟩
  | failed message => exact Or.inl ⟨rfl, rfl⟩
  | lost message =>
    cases r with
    | error e => exact Or.inl ⟨rfl, rfl⟩
    | ok db' => exact Or.inr ⟨rfl, rfl⟩

theorem handleFailure_cases (db : Db) (data : QueuedTransaction) (error : Err)
    (now : DateTime) (create : Call) :
    handleFailure db data error now create = db ∨
      db.createSyncQueue (failureRow db data error now)
        = .ok (handleFailure db data error now create) :=
  (call_run_cases _ _ _).imp And.left And.left

/-- **What an item leaves**: its transaction is committed or not, and after that a
`SyncQueue` row is written for it or not. -/
theorem handleItem_cases (db : Db) (data : QueuedTransaction) (outcome : ItemOutcome) :
    ∃ db₁, (db₁ = db ∨ processTransaction db data outcome.now = .ok db₁) ∧
      (handleItem db data outcome = db₁ ∨
        ∃ error, db₁.createSyncQueue (failureRow db₁ data error outcome.now)
          = .ok (handleItem db data outcome)) := by
  have hlater : ∃ db₁, (db₁ = db ∨ processTransaction db data outcome.now = .ok db₁) ∧
      (processOrFail db data outcome = db₁ ∨
        ∃ error, db₁.createSyncQueue (failureRow db₁ data error outcome.now)
          = .ok (processOrFail db data outcome)) := by
    unfold processOrFail
    have hrun := (call_run_cases outcome.transaction db
      (processTransaction db data outcome.now)).imp And.left And.left
    rcases hcall : outcome.transaction.run db (processTransaction db data outcome.now)
      with ⟨db₁, _ | error⟩
    · rw [hcall] at hrun
      exact ⟨db₁, hrun, Or.inl rfl⟩
    · rw [hcall] at hrun
      refine ⟨db₁, hrun, ?_⟩
      rcases handleFailure_cases db₁ data error outcome.now outcome.create with h | h
      · exact Or.inl h
      · exact Or.inr ⟨error, h⟩
  have hfail : ∀ message, ∃ db₁, (db₁ = db ∨ processTransaction db data outcome.now = .ok db₁) ∧
      (handleFailure db data (.raised message) outcome.now outcome.create = db₁ ∨
        ∃ error, db₁.createSyncQueue (failureRow db₁ data error outcome.now)
          = .ok (handleFailure db data (.raised message) outcome.now outcome.create)) := by
    intro message
    refine ⟨db, Or.inl rfl, ?_⟩
    rcases handleFailure_cases db data (.raised message) outcome.now outcome.create with h | h
    · exact Or.inl h
    · exact Or.inr ⟨_, h⟩
  unfold handleItem
  split
  · split
    · exact ⟨db, Or.inl rfl, Or.inl rfl⟩
    · exact hlater
  · exact hfail _
  · exact hfail _

end KPos
