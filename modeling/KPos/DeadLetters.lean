/-
# Dead letters (`sync-consumer.service.ts`, `sync-producer.service.ts`)

`handleDlqMessage` sends each transaction of a dead letter to a retry queue, or records it as
failed when it was retried often enough.  Both `publishToRetry` and `recordTerminalFailure`
catch and log whatever they throw, and the dead letter is acknowledged at the end.

* `recordTerminalFailure_cases` : what a terminal failure leaves;
* `dlq_conserves_iff` : when every entry of a dead letter is kept;
* `dlq_drops` : a dead letter with an entry that is dropped.
-/
import KPos.Recording

namespace KPos

/-! ## Retry queues -/

/-- `MAX_RETRIES`. -/
def maxRetries : ℕ := 3

/-- `sync.retry.5s`, `sync.retry.30s` and `sync.retry.120s`. -/
inductive RetryQueue where
  | retry5s | retry30s | retry120s
  deriving DecidableEq, Repr

/-- A message in a retry queue. -/
structure Retry where
  queue : RetryQueue
  message : List QueuedTransaction
  deriving DecidableEq

/-- The queue of an attempt. -/
def retryQueue (attempt : ℕ) : RetryQueue :=
  if attempt = 1 then .retry5s else if attempt = 2 then .retry30s else .retry120s

/-- `publishToRetry`: whatever the publication throws is caught and logged. -/
def publishToRetry (retries : List Retry) (transactions : List QueuedTransaction) (attempt : ℕ)
    (publish : Call) : List Retry :=
  if publish.reaches then retries ++ [⟨retryQueue attempt, transactions⟩] else retries

/-! ## Terminal failures -/

/-- The row that `recordTerminalFailure` creates. -/
def terminalRow (db : Db) (data : QueuedTransaction) (now : DateTime) : SyncQueue where
  id := db.newId
  idDevice := data.idDevice
  idTransaction := none
  offlineUuid := some data.offlineUuid
  operation := "SYNC_BATCH_PERMANENTLY_FAILED"
  payload := data
  lastError := .plain s!"Exceeded {maxRetries} retry attempts"
  status := .SYNC_FAILED
  createdAt := now
  updatedAt := now

/-- The update of a row that `recordTerminalFailure` found. -/
def SyncQueue.exceeded (now : DateTime) : Rewrite SyncQueue where
  toFun q := { q with
    status := .SYNC_FAILED
    lastError := .plain s!"Exceeded {maxRetries} retry attempts"
    updatedAt := now }
  keys_eq _ := rfl

/-- How the calls made for an entry of a dead letter end: the publication, or `findFirst` and
the write after it. -/
structure DlqOutcome where
  now : DateTime
  publish : Call
  find : Call
  write : Call

/-- `syncQueue.findFirst` by the key of an item, in the order of the table. -/
def Db.findNoted (db : Db) (data : QueuedTransaction) : Option SyncQueue :=
  db.syncQueues.rows.find? fun q =>
    decide (q.idDevice = data.idDevice ∧ q.offlineUuid = some data.offlineUuid)

/-- The write of `recordTerminalFailure`, after `findFirst` returned `existingEntry`. -/
def writeTerminalFailure (db : Db) (data : QueuedTransaction) (existingEntry : Option SyncQueue)
    (now : DateTime) : Except Err Db :=
  match existingEntry with
  | some existingEntry => db.updateSyncQueue existingEntry.id (SyncQueue.exceeded now)
  | none => db.createSyncQueue (terminalRow db data now)

/-- `recordTerminalFailure`: whatever its calls throw is caught and logged. -/
def recordTerminalFailure (db : Db) (data : QueuedTransaction) (outcome : DlqOutcome) : Db :=
  match outcome.find with
  | .served =>
      (outcome.write.run db (writeTerminalFailure db data (db.findNoted data) outcome.now)).1
  | .failed _ | .lost _ => db

/-! ## Dead letters -/

/-- Whether a text is truthy. -/
def Ident.truthy : Ident → Bool
  | .cuid _ => true
  | .text s => decide (s ≠ "")

/-- A generated identifier is truthy. -/
theorem Db.Old.truthy {db : Db} {i : Ident} (h : db.Old i) : i.truthy = true := by
  obtain ⟨n, -, rfl⟩ := h
  rfl

/-- `_retryAttempt` of an entry, increased. -/
def QueuedTransaction.attempt (data : QueuedTransaction) : ℕ := data.retryAttempt.getD 0 + 1

/-- The entry as it is retried. -/
def QueuedTransaction.retried (data : QueuedTransaction) : QueuedTransaction :=
  { data with retryAttempt := some data.attempt }

/-- The database, and the messages that `handleDlqMessage` brought into the retry queues. -/
structure DlqEffects where
  db : Db
  retries : List Retry

/-- One round of the loop of `handleDlqMessage`. -/
def handleDlqEntry (s : DlqEffects) (data : QueuedTransaction) (outcome : DlqOutcome) :
    DlqEffects :=
  if data.attempt ≤ maxRetries then
    { s with retries := publishToRetry s.retries [data.retried] data.attempt outcome.publish }
  else
    { s with db := recordTerminalFailure s.db data outcome }

/-- The entries that are objects with an `offline_uuid` and an `id_device`.  An entry that is no
object is `none`, and an absent field is the empty text. -/
def validTransactions (transactions : List (Option QueuedTransaction × DlqOutcome)) :
    List (QueuedTransaction × DlqOutcome) :=
  transactions.filterMap fun e => e.1.bind fun t =>
    if t.offlineUuid.truthy && t.idDevice.truthy then some (t, e.2) else none

/-- `handleDlqMessage`; a payload that is no array is `none`. -/
def handleDlqMessage (db : Db)
    (transactions : Option (List (Option QueuedTransaction × DlqOutcome))) : DlqEffects :=
  match transactions with
  | none => ⟨db, []⟩
  | some transactions =>
      (validTransactions transactions).foldl (fun s e => handleDlqEntry s e.1 e.2) ⟨db, []⟩

/-! ## What a terminal failure leaves -/

/-- A `SyncQueue` row with the key of an item has the status SYNC_FAILED. -/
def Db.isFailed (db : Db) (data : QueuedTransaction) : Bool :=
  db.syncQueues.rows.any fun q => decide (q.idDevice = data.idDevice ∧
    q.offlineUuid = some data.offlineUuid ∧ q.status = .SYNC_FAILED)

/-- The item is recorded as failed, and what is noted of other items is as before. -/
structure Fails (db db' : Db) (data : QueuedTransaction) : Prop where
  devices : db'.devices = db.devices
  wired : Wired db'
  noted : ∀ y, db'.isNoted y = true ↔ db.isNoted y = true ∨ data.SameKey y
  failed : ∀ y, db'.isFailed y = true ↔ db.isFailed y = true ∨ data.SameKey y

section Terminal

variable {db db' : Db} {data y : QueuedTransaction}

theorem isFailed_iff : db.isFailed data = true ↔
    ∃ q ∈ db.syncQueues.rows, q.idDevice = data.idDevice ∧
      q.offlineUuid = some data.offlineUuid ∧ q.status = .SYNC_FAILED := by
  simp [Db.isFailed]

theorem findNoted_eq_some {q : SyncQueue} (h : db.findNoted data = some q) :
    q ∈ db.syncQueues.rows ∧ q.idDevice = data.idDevice ∧
      q.offlineUuid = some data.offlineUuid := by
  have hkey := List.find?_some h
  exact ⟨List.mem_of_find?_eq_some h, of_decide_eq_true hkey⟩

theorem findNoted_eq_none (h : db.findNoted data = none) : ¬ db.isNoted data = true := by
  rw [isNoted_iff]
  rintro ⟨q, hq, hkey⟩
  have := List.find?_eq_none.mp h q hq
  exact this (decide_eq_true hkey)

/-- The row that is created. -/
theorem createTerminal_fails (hdb : Wired db) {now : DateTime}
    (h : db.createSyncQueue (terminalRow db data now) = .ok db') : Fails db db' data := by
  have hwired := hdb.write (.createSyncQueue h rfl)
  obtain ⟨-, -, qs, hqs, rfl⟩ := createSyncQueue_eq_ok.mp h
  refine ⟨rfl, hwired, fun y => isNoted_insert hqs rfl rfl y, fun y => ?_⟩
  rw [isFailed_iff, isFailed_iff]
  simp only [Table.mem_insert hqs]
  constructor
  · rintro ⟨q, hq | rfl, hd, hu, hs⟩
    · exact Or.inl ⟨q, hq, hd, hu, hs⟩
    · exact Or.inr ⟨hd, Option.some.inj hu⟩
  · rintro (⟨q, hq, hd, hu, hs⟩ | ⟨hd, hu⟩)
    · exact ⟨q, Or.inl hq, hd, hu, hs⟩
    · exact ⟨_, Or.inr rfl, hd, congrArg some hu, rfl⟩

/-- The rows after the update of the row `q`. -/
theorem mem_updateSyncQueue {q r : SyncQueue} (hq : q ∈ db.syncQueues.rows)
    (f : Rewrite SyncQueue) : r ∈ (db.syncQueues.update (.id q.id) f).rows ↔
      r = f q ∨ r ∈ db.syncQueues.rows ∧ r.id ≠ q.id := by
  have hid : ∀ s : SyncQueue, SyncQueueKey.id q.id ∈ UniqueKeys.keys s ↔ s.id = q.id := by
    simp [UniqueKeys.keys, eq_comm]
  rw [Table.mem_update_iff]
  constructor
  · rintro (⟨s, hs, hk, rfl⟩ | ⟨hr, hk⟩)
    · rw [Table.eq_of_key hs hq hk ((hid q).mpr rfl)]
      exact Or.inl rfl
    · exact Or.inr ⟨hr, fun heq => hk ((hid r).mpr heq)⟩
  · rintro (rfl | ⟨hr, hne⟩)
    · exact Or.inl ⟨q, hq, (hid q).mpr rfl, rfl⟩
    · exact Or.inr ⟨hr, fun hk => hne ((hid r).mp hk)⟩

/-- The row that is updated. -/
theorem updateTerminal_fails (hdb : Wired db) {q : SyncQueue} {now : DateTime}
    (hq : db.findNoted data = some q)
    (h : db.updateSyncQueue q.id (SyncQueue.exceeded now) = .ok db') : Fails db db' data := by
  obtain ⟨hmem, hd, hu⟩ := findNoted_eq_some hq
  obtain ⟨-, rfl⟩ := updateSyncQueue_eq_ok.mp h
  refine ⟨rfl, ⟨hdb.devices, hdb.transactions, hdb.payments, ?_⟩, fun y => ?_, fun y => ?_⟩
  · intro r hr
    rcases (mem_updateSyncQueue hmem _).mp hr with rfl | ⟨hr, -⟩
    · exact hdb.syncQueues q hmem
    · exact hdb.syncQueues r hr
  · rw [isNoted_iff, isNoted_iff]
    simp only [mem_updateSyncQueue hmem]
    constructor
    · rintro ⟨r, rfl | ⟨hr, -⟩, hrd, hru⟩
      · exact Or.inr ⟨hd.symm.trans hrd, Option.some.inj (hu.symm.trans hru)⟩
      · exact Or.inl ⟨r, hr, hrd, hru⟩
    · rintro (⟨r, hr, hrd, hru⟩ | ⟨hkd, hku⟩)
      · by_cases heq : r.id = q.id
        · obtain rfl : r = q := Table.eq_of_key (k := .id q.id) hr hmem
            (by simp [UniqueKeys.keys, heq]) (by simp [UniqueKeys.keys])
          exact ⟨_, Or.inl rfl, hrd, hru⟩
        · exact ⟨r, Or.inr ⟨hr, heq⟩, hrd, hru⟩
      · exact ⟨_, Or.inl rfl, hd.trans hkd, hu.trans (congrArg some hku)⟩
  · rw [isFailed_iff, isFailed_iff]
    simp only [mem_updateSyncQueue hmem]
    constructor
    · rintro ⟨r, rfl | ⟨hr, -⟩, hrd, hru, hrs⟩
      · exact Or.inr ⟨hd.symm.trans hrd, Option.some.inj (hu.symm.trans hru)⟩
      · exact Or.inl ⟨r, hr, hrd, hru, hrs⟩
    · rintro (⟨r, hr, hrd, hru, hrs⟩ | ⟨hkd, hku⟩)
      · by_cases heq : r.id = q.id
        · obtain rfl : r = q := Table.eq_of_key (k := .id q.id) hr hmem
            (by simp [UniqueKeys.keys, heq]) (by simp [UniqueKeys.keys])
          exact ⟨_, Or.inl rfl, hrd, hru, rfl⟩
        · exact ⟨r, Or.inr ⟨hr, heq⟩, hrd, hru, hrs⟩
      · exact ⟨_, Or.inl rfl, hd.trans hkd, hu.trans (congrArg some hku), rfl⟩

/-- The write of a terminal failure goes through when the item is in `SyncQueue` already, or
its device exists. -/
theorem writeTerminalFailure_isOk (hdb : Wired db) (data : QueuedTransaction) (now : DateTime) :
    (∃ db', writeTerminalFailure db data (db.findNoted data) now = .ok db') ↔
      (db.isNoted data = true ∨ db.devices.has (.id data.idDevice) = true) := by
  unfold writeTerminalFailure
  cases hfind : db.findNoted data with
  | some q =>
    obtain ⟨hq, hd, hu⟩ := findNoted_eq_some hfind
    have hhas : db.syncQueues.has (.id q.id) = true :=
      Table.has_of_mem hq (by simp [UniqueKeys.keys])
    constructor
    · intro _
      exact Or.inl (isNoted_iff.mpr ⟨q, hq, hd, hu⟩)
    · intro _
      exact ⟨_, updateSyncQueue_eq_ok.mpr ⟨hhas, rfl⟩⟩
  | none =>
    have hnew := findNoted_eq_none hfind
    show (∃ db', db.createSyncQueue (terminalRow db data now) = .ok db') ↔ _
    rw [createSyncQueue_isOk_iff hdb rfl rfl]
    constructor
    · exact Or.inr
    · rintro (hnoted | hdev)
      · exact absurd hnoted hnew
      · exact hdev

theorem writeTerminalFailure_fails (hdb : Wired db) {now : DateTime}
    (h : writeTerminalFailure db data (db.findNoted data) now = .ok db') : Fails db db' data := by
  unfold writeTerminalFailure at h
  cases hfind : db.findNoted data with
  | some q =>
    rw [hfind] at h
    exact updateTerminal_fails hdb hfind h
  | none =>
    rw [hfind] at h
    exact createTerminal_fails hdb h

/-- What a terminal failure needs to be recorded. -/
def Recordable (db : Db) (data : QueuedTransaction) (outcome : DlqOutcome) : Prop :=
  outcome.find = .served ∧ outcome.write.reaches = true ∧
    (db.isNoted data = true ∨ db.devices.has (.id data.idDevice) = true)

/-- **What a terminal failure leaves**: the item is recorded as failed, or nothing happened. -/
theorem recordTerminalFailure_cases (hdb : Wired db) (data : QueuedTransaction)
    (outcome : DlqOutcome) :
    Recordable db data outcome ∧ Fails db (recordTerminalFailure db data outcome) data ∨
      ¬ Recordable db data outcome ∧ recordTerminalFailure db data outcome = db := by
  have hwrites := writeTerminalFailure_isOk hdb data outcome.now
  unfold recordTerminalFailure
  cases hfind : outcome.find with
  | served =>
    rcases call_run_cases outcome.write db
      (writeTerminalFailure db data (db.findNoted data) outcome.now) with
      ⟨hsame, hno⟩ | ⟨hok, hreaches⟩
    · refine Or.inr ⟨?_, hsame⟩
      rintro ⟨-, hreaches, hpossible⟩
      obtain ⟨db', hdb'⟩ := hwrites.mpr hpossible
      rw [hreaches, hdb'] at hno
      cases hno
    · refine Or.inl ⟨⟨hfind, ?_, hwrites.mp ⟨_, hok⟩⟩, writeTerminalFailure_fails hdb hok⟩
      exact (Bool.and_eq_true_iff.mp hreaches).1
  | failed message =>
    refine Or.inr ⟨?_, rfl⟩
    rintro ⟨hserved, -⟩
    rw [hfind] at hserved
    cases hserved
  | lost message =>
    refine Or.inr ⟨?_, rfl⟩
    rintro ⟨hserved, -⟩
    rw [hfind] at hserved
    cases hserved

end Terminal

/-! ## What a dead letter leaves -/

section Conservation

variable {s : DlqEffects} {l : List (QueuedTransaction × DlqOutcome)} {y : QueuedTransaction}

theorem mem_publishToRetry {retries : List Retry} {transactions : List QueuedTransaction}
    {attempt : ℕ} {publish : Call} {r : Retry} :
    r ∈ publishToRetry retries transactions attempt publish ↔
      r ∈ retries ∨ publish.reaches = true ∧ r = ⟨retryQueue attempt, transactions⟩ := by
  unfold publishToRetry
  cases publish.reaches with
  | true => simp
  | false => simp

/-- The messages that the loop brings into the retry queues. -/
theorem mem_retries {r : Retry} :
    r ∈ (l.foldl (fun s e => handleDlqEntry s e.1 e.2) s).retries ↔
      r ∈ s.retries ∨ ∃ e ∈ l, e.1.attempt ≤ maxRetries ∧ e.2.publish.reaches = true ∧
        r = ⟨retryQueue e.1.attempt, [e.1.retried]⟩ := by
  induction l generalizing s with
  | nil => simp
  | cons e l ih =>
    rw [List.foldl_cons, ih]
    have hentry : r ∈ (handleDlqEntry s e.1 e.2).retries ↔ r ∈ s.retries ∨
        e.1.attempt ≤ maxRetries ∧ e.2.publish.reaches = true ∧
          r = ⟨retryQueue e.1.attempt, [e.1.retried]⟩ := by
      unfold handleDlqEntry
      split
      · rename_i hle
        rw [mem_publishToRetry]
        simp only [hle, true_and]
      · rename_i hlt
        simp only [hlt, false_and, or_false]
    rw [hentry, or_assoc]
    simp only [List.mem_cons, exists_eq_or_imp]

/-- An entry is retried too often, and its terminal failure can be recorded. -/
def Exhausts (db : Db) (e : QueuedTransaction × DlqOutcome) : Prop :=
  maxRetries < e.1.attempt ∧ Recordable db e.1 e.2

/-- An entry leaves the database as it was, or is recorded as failed. -/
theorem handleDlqEntry_cases (hdb : Wired s.db) (e : QueuedTransaction × DlqOutcome) :
    Exhausts s.db e ∧ Fails s.db (handleDlqEntry s e.1 e.2).db e.1 ∨
      ¬ Exhausts s.db e ∧ (handleDlqEntry s e.1 e.2).db = s.db := by
  unfold handleDlqEntry Exhausts
  split
  · rename_i hle
    exact Or.inr ⟨fun h => absurd h.1 (Nat.not_lt.mpr hle), rfl⟩
  · rename_i hlt
    rcases recordTerminalFailure_cases hdb e.1 e.2 with ⟨hrec, hfails⟩ | ⟨hno, hsame⟩
    · exact Or.inl ⟨⟨Nat.not_le.mp hlt, hrec⟩, hfails⟩
    · exact Or.inr ⟨fun h => hno h.2, hsame⟩

/-- Whether a terminal failure can be recorded stays as it was, for items that are not recorded
themselves. -/
theorem Fails.recordable {db db' : Db} {data x : QueuedTransaction} {outcome : DlqOutcome}
    (h : Fails db db' data) (hx : ¬ data.SameKey x) :
    Recordable db' x outcome ↔ Recordable db x outcome := by
  unfold Recordable
  rw [h.devices, h.noted x]
  simp only [hx, or_false]

/-- The items that the loop records as failed. -/
theorem isFailed_loop (hdb : Wired s.db) :
    (l.foldl (fun s e => handleDlqEntry s e.1 e.2) s).db.isFailed y = true ↔
      s.db.isFailed y = true ∨ ∃ e ∈ l, e.1.SameKey y ∧ Exhausts s.db e := by
  induction l generalizing s with
  | nil => simp
  | cons e l ih =>
    rw [List.foldl_cons]
    rcases handleDlqEntry_cases hdb e with ⟨hex, hfails⟩ | ⟨hno, hsame⟩
    · rw [ih hfails.wired, hfails.failed y]
      constructor
      · rintro ((hfailed | hkey) | ⟨x, hx, hkey, hexx⟩)
        · exact Or.inl hfailed
        · exact Or.inr ⟨e, List.mem_cons_self, hkey, hex⟩
        · by_cases hex' : e.1.SameKey x.1
          · have hey : e.1.SameKey y := ⟨hex'.1.trans hkey.1, hex'.2.trans hkey.2⟩
            exact Or.inr ⟨e, List.mem_cons_self, hey, hex⟩
          · refine Or.inr ⟨x, List.mem_cons_of_mem _ hx, hkey, hexx.1, ?_⟩
            exact (hfails.recordable hex').mp hexx.2
      · rintro (hfailed | ⟨x, hx, hkey, hexx⟩)
        · exact Or.inl (Or.inl hfailed)
        · by_cases hey : e.1.SameKey y
          · exact Or.inl (Or.inr hey)
          · have hex' : ¬ e.1.SameKey x.1 := fun h =>
              hey ⟨h.1.trans hkey.1, h.2.trans hkey.2⟩
            rcases List.mem_cons.mp hx with rfl | hx
            · exact absurd hkey hey
            · exact Or.inr ⟨x, hx, hkey, hexx.1, (hfails.recordable hex').mpr hexx.2⟩
    · have hwired : Wired (handleDlqEntry s e.1 e.2).db := by
        rw [hsame]
        exact hdb
      rw [ih hwired, hsame]
      simp only [List.mem_cons, exists_eq_or_imp, hno, and_false, false_or]

/-- The loop keeps the invariant of the database. -/
theorem wired_loop (hdb : Wired s.db) :
    Wired (l.foldl (fun s e => handleDlqEntry s e.1 e.2) s).db := by
  induction l generalizing s with
  | nil => exact hdb
  | cons e l ih =>
    rw [List.foldl_cons]
    apply ih
    rcases handleDlqEntry_cases hdb e with ⟨-, hfails⟩ | ⟨-, hsame⟩
    · exact hfails.wired
    · rw [hsame]
      exact hdb

theorem wired_handleDlqMessage {db : Db} (hdb : Wired db)
    (transactions : Option (List (Option QueuedTransaction × DlqOutcome))) :
    Wired (handleDlqMessage db transactions).db := by
  cases transactions with
  | none => exact hdb
  | some transactions => exact wired_loop hdb

end Conservation

/-! ## Conservation -/

/-- The entry is in a retry queue with its counter increased, or recorded as SYNC_FAILED. -/
def Kept (s : DlqEffects) (data : QueuedTransaction) : Prop :=
  (∃ r ∈ s.retries, r.message = [data.retried]) ∨ s.db.isFailed data = true

/-- The entry `e` may be retried and its publication reaches the broker, with the same message
as for `data`. -/
def Retries (e : QueuedTransaction × DlqOutcome) (data : QueuedTransaction) : Prop :=
  e.1.attempt ≤ maxRetries ∧ e.2.publish.reaches = true ∧ e.1.retried = data.retried

/-- What keeps an entry of a dead letter. -/
theorem kept_iff {db : Db} (hdb : Wired db)
    (transactions : List (Option QueuedTransaction × DlqOutcome)) (data : QueuedTransaction) :
    Kept (handleDlqMessage db (some transactions)) data ↔ db.isFailed data = true ∨
      ∃ e ∈ validTransactions transactions,
        Retries e data ∨ e.1.SameKey data ∧ Exhausts db e := by
  have hretried : (∃ r ∈ (handleDlqMessage db (some transactions)).retries,
      r.message = [data.retried]) ↔ ∃ e ∈ validTransactions transactions, Retries e data := by
    unfold handleDlqMessage
    simp only [mem_retries, List.not_mem_nil, false_or]
    constructor
    · rintro ⟨r, ⟨e, he, hle, hreaches, rfl⟩, hmessage⟩
      exact ⟨e, he, hle, hreaches, List.singleton_inj.mp hmessage⟩
    · rintro ⟨e, he, hle, hreaches, heq⟩
      exact ⟨_, ⟨e, he, hle, hreaches, rfl⟩, List.singleton_inj.mpr heq⟩
  have hfailed : (handleDlqMessage db (some transactions)).db.isFailed data = true ↔
      db.isFailed data = true ∨
        ∃ e ∈ validTransactions transactions, e.1.SameKey data ∧ Exhausts db e :=
    isFailed_loop hdb
  unfold Kept
  rw [hretried, hfailed]
  constructor
  · rintro (⟨e, he, hretries⟩ | hfailed | ⟨e, he, hex⟩)
    · exact Or.inr ⟨e, he, Or.inl hretries⟩
    · exact Or.inl hfailed
    · exact Or.inr ⟨e, he, Or.inr hex⟩
  · rintro (hfailed | ⟨e, he, hretries | hex⟩)
    · exact Or.inr (Or.inl hfailed)
    · exact Or.inl ⟨e, he, hretries⟩
    · exact Or.inr (Or.inr ⟨e, he, hex⟩)

/-- What happens to the database: a call of a service, or the handling of a dead letter. -/
inductive DlqEvent where
  | call (op : Op)
  | deadLetter (transactions : Option (List (Option QueuedTransaction × DlqOutcome)))

/-- The database after an event. -/
def DlqEvent.next (db : Db) : DlqEvent → Option Db
  | .call op => some (exec db op)
  | .deadLetter transactions => some (handleDlqMessage db transactions).db

/-- The invariant of the database holds whatever calls and dead letters come. -/
theorem wired_of_events {us : Table User} {db : Db}
    (h : Runs.Reaches DlqEvent.next (Db.withUsers us) db) : Wired db := by
  refine h.invariant Wired (wired_withUsers us) fun db₁ event db₂ hdb hstep => ?_
  cases event with
  | call op =>
    obtain rfl := Option.some.inj hstep
    exact hdb.exec op
  | deadLetter transactions =>
    obtain rfl := Option.some.inj hstep
    exact wired_handleDlqMessage hdb transactions

/-- **When a dead letter is handled without loss**: each of its valid entries is recorded as
failed before; or the publication of the entry, or of a copy of it, reaches the broker; or the
entry or another one with its key has no attempt left, the two calls of its terminal failure
are answered and reach the database, and it is in `SyncQueue` already or its device exists. -/
theorem dlq_conserves_iff {us : Table User} {db : Db}
    (h : Runs.Reaches DlqEvent.next (Db.withUsers us) db)
    (transactions : List (Option QueuedTransaction × DlqOutcome)) :
    (∀ e ∈ validTransactions transactions,
      Kept (handleDlqMessage db (some transactions)) e.1) ↔
    ∀ e ∈ validTransactions transactions, db.isFailed e.1 = true ∨
      ∃ x ∈ validTransactions transactions,
        Retries x e.1 ∨ x.1.SameKey e.1 ∧ Exhausts db x := by
  refine forall_congr' fun e => imp_congr_right fun _ => ?_
  exact kept_iff (wired_of_events h) transactions e.1

/-! ## Dead letters of the shop -/

/-- All calls are served. -/
def DlqOutcome.served : DlqOutcome := ⟨1, .served, .served, .served⟩

/-- A sale that was never retried, a sale that was retried three times, and no object. -/
def deadLetter : List (Option QueuedTransaction × DlqOutcome) :=
  [(some (shopQueued shopDevice "a" [3]), .served),
   (some { shopQueued shopDevice "b" [3] with retryAttempt := some 3 }, .served),
   (none, .served)]

theorem reaches_shopEvents :
    Runs.Reaches DlqEvent.next (Db.withUsers systemUsers) shop := by
  refine ⟨shopOpening.map .call, ?_⟩
  have hrun : Runs.runs DlqEvent.next (fun _ _ => true) (Db.withUsers systemUsers)
      (shopOpening.map .call) = some shop := rfl
  exact (Runs.run_of_runs hrun).weaken fun _ _ _ => trivial

/-- Both sales are kept. -/
theorem dlq_conserves_iff_deadLetter : (validTransactions deadLetter).length = 2 ∧
    ∀ e ∈ validTransactions deadLetter, Kept (handleDlqMessage shop (some deadLetter)) e.1 := by
  have hdev : shop.devices.has (.id shopDevice) = true := by decide +kernel
  refine ⟨rfl, (dlq_conserves_iff reaches_shopEvents deadLetter).mpr fun e he => Or.inr ⟨e, he, ?_⟩⟩
  rcases List.mem_cons.mp he with rfl | he
  · exact Or.inl ⟨by decide, rfl, rfl⟩
  · rw [List.mem_singleton.mp he]
    exact Or.inr ⟨⟨rfl, rfl⟩, by decide, rfl, rfl, Or.inr hdev⟩

/-- The broker does not take the message. -/
def droppedLetter : List (Option QueuedTransaction × DlqOutcome) :=
  [(some (shopQueued shopDevice "a" [3]), ⟨1, .failed "timed out", .served, .served⟩)]

/-- **A dead letter drops a transaction**: it is neither retried nor recorded. -/
theorem dlq_drops : ¬ ∀ (us : Table User) (db : Db)
    (transactions : List (Option QueuedTransaction × DlqOutcome)),
      Runs.Reaches DlqEvent.next (Db.withUsers us) db →
        ∀ e ∈ validTransactions transactions,
          Kept (handleDlqMessage db (some transactions)) e.1 := by
  intro h
  have hkept := h systemUsers shop droppedLetter reaches_shopEvents _ List.mem_cons_self
  have hnotFailed : (handleDlqMessage shop (some droppedLetter)).db.isFailed
      (shopQueued shopDevice "a" [3]) = false := by decide +kernel
  rcases hkept with ⟨r, hr, -⟩ | hfailed
  · cases hr
  · rw [hnotFailed] at hfailed
    cases hfailed

end KPos
