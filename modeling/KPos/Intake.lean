/-
# From acceptance to storage (`sync.controller.ts`, `sync.service.ts`, `devices.service.ts`)

`POST /sync` publishes the items of a batch; the consumer stores them later, in any order
and any number of times.  In between devices are created, paired and removed.  A stored
transaction should belong to the merchant who submitted it, and its device should have been
live at that time.  Neither `POST /sync` nor the consumer looks at either.

* `Intake.next` : the system of device calls, submissions and the consumer;
* `namesLiveDevice` : the condition on a submission;
* `intake_authorized` : under the condition what is stored is as it should be;
* `intake_not_authorized` : without it, it is not.
-/
import KPos.References
import KPos.SyncService

namespace KPos

/-! ## The system -/

/-- What was so when an item was accepted: the merchant of the user who submitted it, and the
device that the header named. -/
structure Acceptance where
  merchant : Ident
  device : Option Device

/-- The database, the items published and not yet acknowledged, and the transactions stored
for items, each with its acceptance. -/
structure Intake where
  db : Db
  queue : List (QueuedTransaction × Acceptance)
  stored : List (Transaction × Acceptance)

/-- A step: a call about devices, a request to `POST /sync`, an item of the queue handled, or
an item acknowledged. -/
inductive IntakeAction where
  | createDevice (idMerchant idUser : Ident) (name pairingCode : String) (now : DateTime)
  | pairDevice (pairingCode deviceIdHash : String)
  | removeDevice (idDevice idMerchant : Ident)
  | submit (user : JwtPayload) (idDevice : Ident) (batch : SyncBatchDto) (publish : Call)
  | consume (i : ℕ) (outcome : ItemOutcome)
  | acknowledge (i : ℕ)

/-- The transactions of `db'` that `db` does not have; rows are added at the end. -/
def newRows (db db' : Db) : List Transaction :=
  db'.transactions.rows.drop db.transactions.rows.length

/-- Nothing has been submitted yet. -/
def Intake.start (db : Db) : Intake := ⟨db, [], []⟩

/-- The system after a call about devices. -/
def Intake.call (σ : Intake) (op : Op) : Intake := { σ with db := exec σ.db op }

/-- The system after a batch was accepted. -/
def Intake.accept (σ : Intake) (a : Acceptance) (items : List QueuedTransaction) : Intake :=
  { σ with queue := σ.queue ++ items.map (·, a) }

/-- The system after an item was handled. -/
def Intake.handle (σ : Intake) (item : QueuedTransaction × Acceptance)
    (outcome : ItemOutcome) : Intake :=
  let db' := handleItem σ.db item.1 outcome
  { σ with db := db', stored := σ.stored ++ (newRows σ.db db').map (·, item.2) }

/-- The system after a step. -/
def Intake.next (hash : PayloadHash) (σ : Intake) : IntakeAction → Option Intake
  | .createDevice idMerchant idUser name pairingCode now =>
      some (σ.call (.createDevice idMerchant idUser name pairingCode now))
  | .pairDevice pairingCode deviceIdHash => some (σ.call (.pairDevice pairingCode deviceIdHash))
  | .removeDevice idDevice idMerchant => some (σ.call (.removeDevice idDevice idMerchant))
  | .submit user idDevice batch publish =>
      match Sync.syncTransactions hash σ.db idDevice batch publish with
      | .ok items =>
          some (σ.accept ⟨user.idMerchant, σ.db.devices.findUnique (.id idDevice)⟩ items)
      | .error _ => some σ
  | .consume i outcome => σ.queue[i]?.map fun item => σ.handle item outcome
  | .acknowledge i => σ.queue[i]?.map fun _ => { σ with queue := σ.queue.eraseIdx i }

/-! ## The condition -/

/-- A device that may sync. -/
def Device.live (d : Device) : Bool := decide (d.status = .PAIRED) && d.isActive

/-- A submission names a live device of the submitting user's merchant, or none at all; and no
device is created under an id that a queued item names. -/
def namesLiveDevice (σ : Intake) : IntakeAction → Bool
  | .submit user idDevice _ _ =>
      (σ.db.devices.findUnique (.id idDevice)).all fun d =>
        decide (d.idMerchant = user.idMerchant) && d.live
  | .createDevice _ _ _ _ _ => σ.queue.all fun item => decide (item.1.idDevice ≠ σ.db.newId)
  | _ => true

/-- The transaction belongs to the merchant who submitted it, and its device was live when
it was accepted. -/
def Authorized (x : Transaction × Acceptance) : Prop :=
  x.1.idMerchant = x.2.merchant ∧
    ∃ d, x.2.device = some d ∧ d.idDevice = x.1.idDevice ∧ d.status = .PAIRED ∧ d.isActive = true

/-! ## What an item stores -/

section Handling

variable {db db' : Db} {data : QueuedTransaction} {outcome : ItemOutcome}

/-- What handling an item adds to the transactions. -/
theorem handleItem_rows (db : Db) (data : QueuedTransaction) (outcome : ItemOutcome) :
    (handleItem db data outcome).devices = db.devices ∧
      ((handleItem db data outcome).transactions = db.transactions ∨
        ∃ t d, (handleItem db data outcome).transactions.rows = db.transactions.rows ++ [t] ∧
          db.devices.findUnique (.id data.idDevice) = some d ∧
          t.idDevice = data.idDevice ∧ t.idMerchant = d.idMerchant) := by
  obtain ⟨db₁, h₁, h₂⟩ := handleItem_cases db data outcome
  have hqueue : (handleItem db data outcome).devices = db₁.devices ∧
      (handleItem db data outcome).transactions = db₁.transactions := by
    rcases h₂ with h₂ | ⟨e, h₂⟩
    · rw [h₂]
      exact ⟨rfl, rfl⟩
    · obtain ⟨-, -, qs, -, hdb⟩ := createSyncQueue_eq_ok.mp h₂
      rw [hdb]
      exact ⟨rfl, rfl⟩
  rw [hqueue.1, hqueue.2]
  rcases h₁ with rfl | h₁
  · exact ⟨rfl, Or.inl rfl⟩
  · obtain ⟨-, d, created, hstored⟩ := processTransaction_stored h₁
    have hrows := (Table.insert_eq_some.mp hstored.insertable.header).2
    have hdevices : db₁.devices = db.devices := by rw [hstored.frame]
    exact ⟨hdevices, Or.inr ⟨_, d, hrows, hstored.insertable.device, rfl, rfl⟩⟩

/-- A new transaction is of the item's device, and of that device's merchant. -/
theorem mem_newRows {t : Transaction} (ht : t ∈ newRows db (handleItem db data outcome)) :
    t.idDevice = data.idDevice ∧ db.deviceMerchant data.idDevice = some t.idMerchant := by
  obtain ⟨-, hsame | ⟨s, d, hrows, hd, hid, hm⟩⟩ := handleItem_rows db data outcome
  · unfold newRows at ht
    rw [hsame, List.drop_length] at ht
    cases ht
  · unfold newRows at ht
    rw [hrows, List.drop_left, List.mem_singleton] at ht
    subst ht
    refine ⟨hid, ?_⟩
    unfold Db.deviceMerchant
    rw [hd, hm]
    rfl

end Handling

/-! ## Devices that come and go -/

section Devices

variable {db db' : Db} {i : Ident}

/-- A new device has the next id. -/
theorem createDevice_has {m u : Ident} {name code : String} {now : DateTime}
    (hi : i ≠ db.newId) (h : db.devices.has (.id i) = false) :
    (exec db (.createDevice m u name code now)).devices.has (.id i) = false := by
  refine commit_rule (P := fun d => d.devices.has (.id i) = false) h fun db' hc => ?_
  obtain ⟨-, -, ds, hds, rfl⟩ := createDevice_eq_ok.mp hc
  rw [Bool.eq_false_iff, ne_eq, Table.has_of_insert hds, device_id_mem_keys]
  rintro (hhas | heq)
  · rw [h] at hhas
    cases hhas
  · exact hi heq.symm

/-- An update of a device leaves the ids as they are. -/
theorem updateDevice_has {j : Ident} {f : Device → Device} (h : db.updateDevice j f = .ok db')
    (hf : ∀ d, (f d).idDevice = d.idDevice) : db'.devices.has (.id i) = db.devices.has (.id i) := by
  obtain ⟨-, ds, hds, rfl⟩ := updateDevice_eq_ok.mp h
  show (ds.findUnique (.id i)).isSome = _
  rw [Table.findUnique_replace hds, Option.isSome_map]
  · rfl
  · intro d
    rw [device_id_mem_keys, device_id_mem_keys, hf d]

theorem pairDevice_has {code hash : String} :
    (exec db (.pairDevice code hash)).devices.has (.id i) = db.devices.has (.id i) := by
  refine commit_frame (fun d => d.devices.has (.id i)) fun db' hc => ?_
  obtain ⟨d, -, -, h⟩ := pairDevice_eq_ok hc
  exact updateDevice_has h fun _ => rfl

theorem removeDevice_has {j m : Ident} :
    (exec db (.removeDevice j m)).devices.has (.id i) = db.devices.has (.id i) := by
  refine commit_frame (fun d => d.devices.has (.id i)) fun db' hc => ?_
  obtain ⟨d, -, -, -, -, h⟩ := removeDevice_eq_ok hc
  exact updateDevice_has h fun _ => rfl

end Devices

/-! ## The invariant -/

/-- A queued item was accepted with a live device of the submitting merchant, which still is
that merchant's, or its device does not exist. -/
def Sound (db : Db) (x : QueuedTransaction × Acceptance) : Prop :=
  (db.deviceMerchant x.1.idDevice = some x.2.merchant ∧
    ∃ d, x.2.device = some d ∧ d.idDevice = x.1.idDevice ∧ d.status = .PAIRED ∧
      d.isActive = true) ∨
  db.devices.has (.id x.1.idDevice) = false

/-- Queued items are sound, and stored transactions are authorized. -/
structure Intake.Safe (σ : Intake) : Prop where
  queue : ∀ x ∈ σ.queue, Sound σ.db x
  stored : ∀ x ∈ σ.stored, Authorized x

section Invariant

variable {σ τ : Intake}

theorem Sound.mono {db db' : Db} {x : QueuedTransaction × Acceptance} (h : Sound db x)
    (hg : Grows db db')
    (hdev : db.devices.has (.id x.1.idDevice) = false →
      db'.devices.has (.id x.1.idDevice) = false) : Sound db' x := by
  rcases h with ⟨hm, hd⟩ | hno
  · exact Or.inl ⟨hg.devices _ _ hm, hd⟩
  · exact Or.inr (hdev hno)

/-- A call about devices keeps the items sound. -/
theorem Intake.Safe.call (h : σ.Safe) (op : Op)
    (hdev : ∀ x ∈ σ.queue, σ.db.devices.has (.id x.1.idDevice) = false →
      (exec σ.db op).devices.has (.id x.1.idDevice) = false) : (σ.call op).Safe where
  queue := fun x hx => (h.queue x hx).mono (exec_grows σ.db op) (hdev x hx)
  stored := h.stored

/-- The items of an accepted batch name the device of the header. -/
theorem syncTransactions_eq_ok {hash : PayloadHash} {db : Db} {idDevice : Ident}
    {batch : SyncBatchDto} {publish : Call} {items : List QueuedTransaction}
    (h : Sync.syncTransactions hash db idDevice batch publish = .ok items) :
    items = batch.transactions.map (SyncTransactionDto.queued hash idDevice) := by
  obtain ⟨_, -, h⟩ := bind_eq_ok.mp h
  obtain ⟨_, -, h⟩ := bind_eq_ok.mp h
  cases publish with
  | served => exact (pure_eq_ok.mp h).symm
  | failed message => cases h
  | lost message => cases h

/-- A batch accepted under the condition is sound. -/
theorem Intake.Safe.accept (h : σ.Safe) {user : JwtPayload} {idDevice : Ident}
    {items : List QueuedTransaction} (hitems : ∀ item ∈ items, item.idDevice = idDevice)
    (hlive : (σ.db.devices.findUnique (.id idDevice)).all fun d =>
      decide (d.idMerchant = user.idMerchant) && d.live) :
    (σ.accept ⟨user.idMerchant, σ.db.devices.findUnique (.id idDevice)⟩ items).Safe where
  stored := h.stored
  queue := by
    intro x hx
    rcases List.mem_append.mp hx with hx | hx
    · exact h.queue x hx
    · obtain ⟨item, hitem, rfl⟩ := List.mem_map.mp hx
      unfold Sound
      rw [hitems item hitem]
      cases hd : σ.db.devices.findUnique (.id idDevice) with
      | none =>
        right
        show σ.db.devices.has (.id idDevice) = false
        unfold Table.has
        rw [hd]
        rfl
      | some d =>
        left
        rw [hd] at hlive
        simp only [Option.all_some, Device.live, Bool.and_eq_true, decide_eq_true_eq] at hlive
        have hid := device_id_mem_keys.mp (Table.findUnique_eq_some.mp hd).2
        refine ⟨?_, d, rfl, hid, hlive.2.1, hlive.2.2⟩
        show σ.db.deviceMerchant idDevice = some user.idMerchant
        unfold Db.deviceMerchant
        rw [hd, Option.map_some, hlive.1]

/-- Handling a sound item stores what is authorized. -/
theorem Intake.Safe.handle (h : σ.Safe) {x : QueuedTransaction × Acceptance}
    (hx : x ∈ σ.queue) (outcome : ItemOutcome) : (σ.handle x outcome).Safe where
  queue := by
    intro y hy
    refine (h.queue y hy).mono (handleItem_wrote σ.db x.1 outcome).grows fun hno => ?_
    show (handleItem σ.db x.1 outcome).devices.has _ = false
    rw [(handleItem_rows σ.db x.1 outcome).1]
    exact hno
  stored := by
    intro y hy
    rcases List.mem_append.mp hy with hy | hy
    · exact h.stored y hy
    · obtain ⟨t, ht, rfl⟩ := List.mem_map.mp hy
      obtain ⟨hid, hm⟩ := mem_newRows ht
      rcases h.queue x hx with ⟨hown, hdevice⟩ | hno
      · refine ⟨Option.some.inj (hm.symm.trans hown), ?_⟩
        show ∃ d, x.2.device = some d ∧ d.idDevice = t.idDevice ∧ _
        rw [hid]
        exact hdevice
      · -- a device that does not exist has no merchant
        rw [← deviceMerchant_isSome, hm] at hno
        cases hno

/-- **A step under the condition keeps the invariant.** -/
theorem Intake.Safe.next (h : σ.Safe) {hash : PayloadHash} {a : IntakeAction}
    (ha : namesLiveDevice σ a = true) (hstep : σ.next hash a = some τ) : τ.Safe := by
  cases a with
  | createDevice m u name code now =>
    obtain rfl := Option.some.inj hstep
    -- a queued item without a device must not get one now
    refine h.call _ fun x hx => createDevice_has ?_
    simpa using List.all_eq_true.mp ha x hx
  | pairDevice code hash =>
    obtain rfl := Option.some.inj hstep
    exact h.call _ fun x _ => pairDevice_has.trans
  | removeDevice i m =>
    obtain rfl := Option.some.inj hstep
    exact h.call _ fun x _ => removeDevice_has.trans
  | submit user idDevice batch publish =>
    unfold Intake.next at hstep
    dsimp only at hstep
    split at hstep
    · rename_i items hitems
      obtain rfl := Option.some.inj hstep
      -- every item carries the device of the header
      refine h.accept (fun item hitem => ?_) ha
      rw [syncTransactions_eq_ok hitems] at hitem
      obtain ⟨tx, -, rfl⟩ := List.mem_map.mp hitem
      rfl
    · obtain rfl := Option.some.inj hstep
      exact h
  | consume i outcome =>
    obtain ⟨x, hx, rfl⟩ := Option.map_eq_some_iff.mp hstep
    exact h.handle (List.mem_of_getElem? hx) outcome
  | acknowledge i =>
    obtain ⟨x, -, rfl⟩ := Option.map_eq_some_iff.mp hstep
    exact ⟨fun y hy => h.queue y (List.mem_of_mem_eraseIdx hy), h.stored⟩

end Invariant

/-- **What is stored is authorized** in every run whose steps meet the condition. -/
theorem intake_authorized {hash : PayloadHash} {db : Db} {as : List IntakeAction} {σ : Intake}
    (h : Runs.Run (Intake.next hash) (fun σ a => namesLiveDevice σ a = true) (.start db) as σ) :
    ∀ x ∈ σ.stored, Authorized x := by
  have hsafe : σ.Safe := by
    refine h.invariant Intake.Safe ⟨fun _ h => (nomatch h), fun _ h => nomatch h⟩ ?_
    exact fun σ a τ hσ ha hstep => hσ.next ha hstep
  exact hsafe.stored

/-- Hashes play no part in the examples. -/
def noHash : PayloadHash := fun _ _ => ""

/-- A sale of the shop's paired till, submitted and stored. -/
def ownSubmission : List IntakeAction :=
  [.submit shopOwner shopDevice oneSale .served, .consume 0 (.served 1)]

/-- A sale is stored for the shop's till, as it should be. -/
theorem intake_authorized_ownSubmission : ∃ σ : Intake,
    σ.stored.length = 1 ∧ ∀ x ∈ σ.stored, Authorized x := by
  have hcheck : (Runs.runs (Intake.next noHash) namesLiveDevice (.start shop)
      ownSubmission).any (fun σ => decide (σ.stored.length = 1)) = true := by decide +kernel
  obtain ⟨σ, hrun, hlen⟩ := Runs.exists_run_of_runs hcheck
  exact ⟨σ, of_decide_eq_true hlen, intake_authorized hrun⟩

/-- A sale that the first merchant's user submits for the second one's till, which is not
even paired. -/
def foreignSubmission : List IntakeAction :=
  [.submit shopOwner otherDevice oneSale .served, .consume 0 (.served 1)]

/-- **What is stored is not authorized**: the transaction is the second merchant's, and its
device was not paired. -/
theorem intake_not_authorized : ¬ ∀ (hash : PayloadHash) (us : Table User) (db : Db)
    (as : List IntakeAction) (σ : Intake), Reachable us db →
      Runs.Run (Intake.next hash) Runs.anyStep (.start db) as σ → ∀ x ∈ σ.stored, Authorized x := by
  intro h
  have hcheck : (Runs.runs (Intake.next noHash) (fun _ _ => true) (.start twoShops)
      foreignSubmission).any (fun σ => σ.stored.any fun x =>
        decide (x.1.idMerchant ≠ x.2.merchant)) = true := by decide +kernel
  obtain ⟨σ, hrun, hstored⟩ := Runs.exists_run_of_runs hcheck
  obtain ⟨x, hx, hne⟩ := List.any_eq_true.mp hstored
  have hx := h noHash _ _ _ σ reachable_twoShops (hrun.weaken fun _ _ _ => trivial) x hx
  exact of_decide_eq_true hne hx.1

end KPos
