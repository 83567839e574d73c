/-
# Outstanding items (`sync-consumer.service.ts`, `sync-producer.service.ts`)

Whatever happened before, messages may wait in any of the queues and consumers may be in the
middle of their items.  From then on an item of a device that exists goes from one to the next
until it is stored or its failure is noted, as long as notes and publications get through.

* `Delivery.outstanding` : the items that wait or are in hand;
* `Delivery.next_retains` : what every step leaves in the database;
* `Delivery.next_minds` : an item stays outstanding or is recorded;
* `backlog_recorded` : whole runs.
-/
import KPos.Workload

namespace KPos

open Weights

/-! ## Items that wait or are in hand -/

/-- The items of the messages that wait, and those that a consumer has not finished. -/
def Delivery.outstanding (σ : Delivery) : List QueuedTransaction :=
  σ.consumers.queue.flatMap id ++ σ.consumers.workers.flatMap (·.rest) ++ σ.dlq.flatMap id ++
    σ.dlqWorkers.flatMap (·.rest) ++ σ.retries.flatMap (·.message)

/-- The items of an arriving batch. -/
def DeliveryAction.arriving : DeliveryAction → List QueuedTransaction
  | .submit message => message
  | _ => []

/-! ## What stays in the database -/

/-- Devices and recorded items stay, and what refers to rows is in order. -/
structure Retains (db db' : Db) : Prop where
  wired : Wired db → Wired db'
  device : ∀ i, db.devices.has (.id i) = true → db'.devices.has (.id i) = true
  recorded : ∀ y, db.isRecorded y = true → db'.isRecorded y = true

section Retains

variable {db db' : Db} {data y : QueuedTransaction} {now : DateTime}

theorem Retains.refl (db : Db) : Retains db db := ⟨id, fun _ => id, fun _ => id⟩

theorem Retains.trans {db'' : Db} (h : Retains db db') (h' : Retains db' db'') :
    Retains db db'' where
  wired := fun hdb => h'.wired (h.wired hdb)
  device := fun i hi => h'.device i (h.device i hi)
  recorded := fun y hy => h'.recorded y (h.recorded y hy)

theorem Wrote.retains (h : Wrote db db') : Retains db db' := by
  refine ⟨fun hdb => hdb.wrote h, fun i => h.grows.has_device, fun y hy => ?_⟩
  unfold Db.isRecorded at hy ⊢
  rcases (Bool.or_eq_true _ _).mp hy with hstored | hnoted
  · exact (Bool.or_eq_true _ _).mpr (Or.inl (h.grows.transactions _ hstored))
  · obtain ⟨q, hq, hkey⟩ := isNoted_iff.mp hnoted
    exact (Bool.or_eq_true _ _).mpr
      (Or.inr (isNoted_iff.mpr ⟨q, h.grows.syncQueues q hq, hkey⟩))

/-- The update of a row keeps its key, whichever row it is. -/
theorem updateTerminal_retains {i : Ident}
    (h : db.updateSyncQueue i (SyncQueue.exceeded now) = .ok db') : Retains db db' := by
  obtain ⟨-, rfl⟩ := updateSyncQueue_eq_ok.mp h
  refine ⟨fun hdb => ⟨hdb.devices, hdb.transactions, hdb.payments, fun r hr => ?_⟩,
    fun _ => id, fun y hy => ?_⟩
  · rcases Table.mem_update_iff.mp hr with ⟨q, hq, -, rfl⟩ | ⟨hr, -⟩
    · exact hdb.syncQueues q hq
    · exact hdb.syncQueues r hr
  · rcases (Bool.or_eq_true _ _).mp hy with hstored | hnoted
    · exact (Bool.or_eq_true _ _).mpr (Or.inl hstored)
    · obtain ⟨q, hq, hdevice, huuid⟩ := isNoted_iff.mp hnoted
      refine (Bool.or_eq_true _ _).mpr (Or.inr (isNoted_iff.mpr ?_))
      by_cases hkey : SyncQueueKey.id i ∈ UniqueKeys.keys q
      · exact ⟨_, Table.mem_update_iff.mpr (Or.inl ⟨q, hq, hkey, rfl⟩), hdevice, huuid⟩
      · exact ⟨q, Table.mem_update_of_not_mem hq hkey, hdevice, huuid⟩

theorem writeTerminalFailure_retains {existingEntry : Option SyncQueue}
    (h : writeTerminalFailure db data existingEntry now = .ok db') : Retains db db' := by
  unfold writeTerminalFailure at h
  split at h
  · exact updateTerminal_retains h
  · exact (Wrote.one (.createSyncQueue h rfl)).retains

/-- A call that is served keeps what its write keeps, and so does one that is not. -/
theorem call_run_retains {r : Except Err Db} (call : Call)
    (h : ∀ db', r = .ok db' → Retains db db') : Retains db (call.run db r).1 := by
  rcases call_run_cases call db r with ⟨hsame, -⟩ | ⟨hok, -⟩
  · rw [hsame]
    exact .refl db
  · exact h _ hok

theorem handleFailure_retains (db : Db) (data : QueuedTransaction) (error : Err)
    (now : DateTime) (create : Call) : Retains db (handleFailure db data error now create) :=
  call_run_retains create fun _ h => (Wrote.one (.createSyncQueue h rfl)).retains

/-- **Every step retains** devices and recorded items. -/
theorem Delivery.next_retains {σ τ : Delivery} {a : DeliveryAction} (h : σ.next a = some τ) :
    Retains σ.db τ.db := by
  cases Delivery.next_step h with
  | consumer ha hc =>
    cases hc with
    | @call op hop => exact (exec_wrote σ.db op).retains
    | transact hw hw' =>
      obtain ⟨-, ⟨rfl, -⟩ | ⟨data, -, hok, -⟩⟩ := Worker.transact_cases hw'
      · exact .refl σ.db
      · exact (processTransaction_wrote hok).retains
    | record hw hw' =>
      unfold Worker.record at hw'
      split at hw'
      · obtain ⟨rfl, -⟩ := Prod.mk.inj (Option.some.inj hw')
        exact handleFailure_retains _ _ _ _ _
      · cases hw'
    | publish | deliver | lookup | acknowledge | crash => exact .refl σ.db
  | writeTerminal hw hw' =>
    unfold DlqWorker.write at hw'
    split at hw'
    · obtain ⟨rfl, -⟩ := Prod.mk.inj (Option.some.inj hw')
      exact call_run_retains _ fun _ => writeTerminalFailure_retains
    · cases hw'
  | submit | reject | takeDlq | publishRetry | findFirst | acknowledgeDlq | crashDlq | expire =>
    exact .refl σ.db

end Retains

/-! ## What a dead-letter consumer found -/

/-- The entry in hand is recorded, if `findFirst` returned a row for it. -/
def DlqWorker.Found (v : DlqWorker) (db : Db) : Prop :=
  ∀ q data, v.stage = .write (some q) → v.rest.head? = some data → db.isRecorded data = true

section Found

variable {v v' : DlqWorker} {db db' : Db} {now : DateTime} {call : Call}

theorem isRecorded_of_isNoted {y : QueuedTransaction} (h : db.isNoted y = true) :
    db.isRecorded y = true := (Bool.or_eq_true _ _).mpr (Or.inr h)

theorem DlqWorker.found_entry (message rest : List QueuedTransaction) (db : Db) :
    DlqWorker.Found ⟨message, rest, .entry⟩ db := fun _ _ h => nomatch h

theorem DlqWorker.Found.retains (h : v.Found db) (hr : Retains db db') : v.Found db' :=
  fun q data hstage hhead => hr.recorded data (h q data hstage hhead)

theorem DlqWorker.publish_found {retries retries' : List Retry}
    (h : v.publish retries call = some (retries', v')) : v'.Found db := by
  unfold DlqWorker.publish at h
  split at h
  · split at h
    · obtain ⟨-, rfl⟩ := Prod.mk.inj (Option.some.inj h)
      exact DlqWorker.found_entry _ _ db
    · cases h
  · cases h

theorem DlqWorker.find_found (h : v.find db call = some v') : v'.Found db := by
  unfold DlqWorker.find at h
  split at h
  · rename_i data rest hstage hrest
    split at h
    · cases h
    · split at h
      · obtain rfl := Option.some.inj h
        intro q data' hwrite hhead
        have hfound : db.findNoted data = some q := DlqStage.write.inj hwrite
        have hhead : v.rest.head? = some data' := hhead
        rw [hrest] at hhead
        obtain rfl := Option.some.inj hhead
        exact isRecorded_of_isNoted (isNoted_iff.mpr ⟨q, findNoted_eq_some hfound⟩)
      · obtain rfl := Option.some.inj h
        exact DlqWorker.found_entry _ _ db
      · obtain rfl := Option.some.inj h
        exact DlqWorker.found_entry _ _ db
  · cases h

theorem DlqWorker.write_found (h : v.write db now call = some (db', v')) : v'.Found db := by
  unfold DlqWorker.write at h
  split at h
  · obtain ⟨-, rfl⟩ := Prod.mk.inj (Option.some.inj h)
    exact DlqWorker.found_entry _ _ db
  · cases h

end Found

/-- References are in order, and what the dead-letter consumers found is recorded. -/
structure Delivery.Grounded (σ : Delivery) : Prop where
  wired : Wired σ.db
  found : ∀ v ∈ σ.dlqWorkers, v.Found σ.db

theorem Delivery.grounded_start (us : Table User) : (Delivery.start us).Grounded where
  wired := wired_withUsers us
  found := fun _ h => nomatch h

section Grounded

variable {σ τ : Delivery} {a : DeliveryAction}

/-- **Every step keeps the invariant.** -/
theorem Delivery.Grounded.next (hσ : σ.Grounded) (h : σ.next a = some τ) :
    τ.Grounded := by
  have hr := Delivery.next_retains h
  refine ⟨hr.wired hσ.wired, fun v hv => ?_⟩
  suffices hfound : v.Found σ.db from hfound.retains hr
  have hset : ∀ {j : ℕ} {v' : DlqWorker}, v'.Found σ.db → v ∈ σ.dlqWorkers.set j v' →
      v.Found σ.db := by
    intro j v' hfound hv
    rcases List.mem_or_eq_of_mem_set hv with hv | rfl
    · exact hσ.found v hv
    · exact hfound
  cases Delivery.next_step h with
  | takeDlq hmessage =>
    rcases List.mem_append.mp hv with hv | hv
    · exact hσ.found v hv
    · rw [List.mem_singleton.mp hv]
      exact DlqWorker.found_entry _ _ _
  | publishRetry hw hw' => exact hset (DlqWorker.publish_found hw') hv
  | findFirst hw hw' => exact hset (DlqWorker.find_found hw') hv
  | writeTerminal hw hw' => exact hset (DlqWorker.write_found hw') hv
  | acknowledgeDlq j => exact hσ.found v (List.mem_of_mem_eraseIdx hv)
  | crashDlq hw => exact hσ.found v (List.mem_of_mem_eraseIdx hv)
  | submit | consumer | reject | expire => exact hσ.found v hv

theorem Delivery.grounded_of_reaches {us : Table User}
    (h : Runs.Reaches Delivery.next (Delivery.start us) σ) : σ.Grounded :=
  h.invariant Delivery.Grounded (Delivery.grounded_start us) fun _ _ _ hσ => hσ.next

end Grounded

/-! ## What a consumer does with an item -/

/-- An item with a UUID, of a device that exists. -/
structure Known (db : Db) (data : QueuedTransaction) : Prop where
  offlineUuid : data.offlineUuid.truthy = true
  idDevice : data.idDevice.truthy = true
  device : db.devices.has (.id data.idDevice) = true

section Items

variable {w w' : Worker} {v v' : DlqWorker} {db db' : Db} {now : DateTime} {call : Call}
  {y z : QueuedTransaction}

theorem QueuedTransaction.SameKey.trans {x : QueuedTransaction} (h : x.SameKey y)
    (h' : y.SameKey z) : x.SameKey z := ⟨h.1.trans h'.1, h.2.trans h'.2⟩

theorem Known.sameKey (h : Known db y) (hkey : y.SameKey z) : Known db z := by
  obtain ⟨huuid, hid, hdevice⟩ := h
  rw [hkey.2] at huuid
  rw [hkey.1] at hid hdevice
  exact ⟨huuid, hid, hdevice⟩

theorem Known.retains (h : Known db y) (hr : Retains db db') : Known db' y :=
  ⟨h.offlineUuid, h.idDevice, hr.device _ h.device⟩

/-- When the consumer goes on, it leaves only the item in hand behind. -/
theorem Worker.eq_or_mem_advance {data : QueuedTransaction} {rest : List QueuedTransaction}
    (hrest : w.rest = data :: rest) (hy : y ∈ w.rest) : y = data ∨ y ∈ w.advance.rest := by
  unfold Worker.advance
  rw [hrest] at hy ⊢
  exact List.mem_cons.mp hy

theorem DlqWorker.eq_or_mem_advance {data : QueuedTransaction} {rest : List QueuedTransaction}
    (hrest : v.rest = data :: rest) (hy : y ∈ v.rest) : y = data ∨ y ∈ v.advance.rest := by
  unfold DlqWorker.advance
  rw [hrest] at hy ⊢
  exact List.mem_cons.mp hy

theorem Worker.lookup_item (h : w.lookup db call = some w') (hy : y ∈ w.rest) :
    y ∈ w'.rest ∨ db.isRecorded y = true := by
  unfold Worker.lookup at h
  split at h
  · rename_i data rest hstage hrest
    split at h
    · obtain rfl := Option.some.inj h
      split
      · rename_i hstored
        rcases Worker.eq_or_mem_advance hrest hy with rfl | hy
        · exact Or.inr ((Bool.or_eq_true _ _).mpr (Or.inl hstored))
        · exact Or.inl hy
      · exact Or.inl hy
    · obtain rfl := Option.some.inj h
      exact Or.inl hy
    · obtain rfl := Option.some.inj h
      exact Or.inl hy
  · cases h

/-- A call that throws nothing had its effect. -/
theorem call_run_none {r : Except Err Db} (h : call.run db r = (db', none)) : r = .ok db' := by
  unfold Call.run at h
  split at h
  · exact congrArg Except.ok (Prod.mk.inj h).1
  all_goals cases (Prod.mk.inj h).2

/-- A call that reaches the database has the effect that it can have. -/
theorem call_run_ok (hcall : call.reaches = true) : (call.run db (.ok db')).1 = db' := by
  cases call with
  | served | lost message => rfl
  | failed message => cases hcall

/-- The sale of an item is stored, or the item is still in hand. -/
theorem Worker.transact_item (h : w.transact db now call = some (db', w')) (hy : y ∈ w.rest) :
    y ∈ w'.rest ∨ db'.isRecorded y = true := by
  unfold Worker.transact at h
  split at h
  · rename_i data rest hstage hrest
    split at h
    · rename_i db₁ hcall
      obtain ⟨rfl, rfl⟩ := Prod.mk.inj (Option.some.inj h)
      have hrecorded := processTransaction_isRecorded (y := y) (call_run_none hcall)
      rcases Worker.eq_or_mem_advance hrest hy with rfl | hy
      · exact Or.inr (hrecorded.mpr (Or.inr ⟨rfl, rfl⟩))
      · exact Or.inl hy
    · obtain ⟨-, rfl⟩ := Prod.mk.inj (Option.some.inj h)
      exact Or.inl hy
  · cases h

/-- The failure of an item is noted when the write gets through. -/
theorem Worker.record_item (hdb : Wired db) (hy : Known db y) (hcall : call.reaches = true)
    (h : w.record db now call = some (db', w')) (hmem : y ∈ w.rest) :
    y ∈ w'.rest ∨ db'.isRecorded y = true := by
  unfold Worker.record at h
  split at h
  · rename_i error data rest hstage hrest
    obtain ⟨rfl, rfl⟩ := Prod.mk.inj (Option.some.inj h)
    rcases Worker.eq_or_mem_advance hrest hmem with rfl | hmem
    · refine Or.inr ((handleFailure_isRecorded hdb y error now call).mpr ?_)
      exact Or.inr ⟨⟨rfl, rfl⟩, hy.device, hcall⟩
    · exact Or.inl hmem
  · cases h

/-- An entry is passed on when the publication gets through. -/
theorem DlqWorker.publish_item {retries retries' : List Retry} (hcall : call.reaches = true)
    (h : v.publish retries call = some (retries', v')) :
    (∀ r ∈ retries, r ∈ retries') ∧
      (y ∈ v.rest → y ∈ v'.rest ∨ ∃ r ∈ retries', ∃ z ∈ r.message, y.SameKey z) := by
  unfold DlqWorker.publish at h
  split at h
  · rename_i data rest hstage hrest
    split at h
    · obtain ⟨rfl, rfl⟩ := Prod.mk.inj (Option.some.inj h)
      refine ⟨fun r hr => mem_publishToRetry.mpr (Or.inl hr), fun hy => ?_⟩
      rcases DlqWorker.eq_or_mem_advance hrest hy with rfl | hy
      · refine Or.inr ⟨⟨retryQueue y.attempt, [y.retried]⟩,
          mem_publishToRetry.mpr (Or.inr ⟨hcall, rfl⟩), y.retried, ?_, rfl, rfl⟩
        exact List.mem_singleton_self _
      · exact Or.inl hy
    · cases h
  · cases h

/-- `findFirst` leaves the entry in hand when it is served. -/
theorem DlqWorker.find_item (h : v.find db .served = some v') : v'.rest = v.rest := by
  unfold DlqWorker.find at h
  split at h
  · split at h
    · cases h
    · obtain rfl := Option.some.inj h
      rfl
  · cases h

/-- A terminal failure is noted when the write gets through: the row is there, or is created. -/
theorem DlqWorker.write_item (hdb : Wired db) (hy : Known db y) (hcall : call.reaches = true)
    (hfound : v.Found db) (h : v.write db now call = some (db', v')) (hmem : y ∈ v.rest) :
    y ∈ v'.rest ∨ db'.isRecorded y = true := by
  unfold DlqWorker.write at h
  split at h
  · rename_i existingEntry data rest hstage hrest
    obtain ⟨rfl, rfl⟩ := Prod.mk.inj (Option.some.inj h)
    rcases DlqWorker.eq_or_mem_advance hrest hmem with rfl | hmem
    · refine Or.inr ?_
      cases existingEntry with
      | some q =>
        have hretains :
            Retains db (call.run db (writeTerminalFailure db y (some q) now)).1 :=
          call_run_retains call fun _ => writeTerminalFailure_retains
        exact hretains.recorded y (hfound q y hstage (congrArg List.head? hrest))
      | none =>
        obtain ⟨db₁, hcreate⟩ : ∃ db₁, db.createSyncQueue (terminalRow db y now) = .ok db₁ :=
          (createSyncQueue_isOk_iff hdb rfl rfl).mpr hy.device
        have hfails := createTerminal_fails hdb hcreate
        have hrun : (call.run db (writeTerminalFailure db y none now)).1 = db₁ := by
          show (call.run db (db.createSyncQueue (terminalRow db y now))).1 = db₁
          rw [hcreate]
          exact call_run_ok hcall
        rw [hrun]
        exact isRecorded_of_isNoted ((hfails.noted y).mpr (Or.inr ⟨rfl, rfl⟩))
    · exact Or.inl hmem
  · cases h

end Items

/-! ## An item stays outstanding or is recorded -/

section Lists

variable {α : Type*} {l : List α} {i : ℕ} {x y : α}

/-- An entry of a list is exchanged or stays. -/
theorem eq_or_mem_set (h : l[i]? = some x) (hy : y ∈ l) (b : α) : y = x ∨ y ∈ l.set i b := by
  obtain ⟨k, hk⟩ := List.mem_iff_getElem?.mp hy
  by_cases heq : i = k
  · subst heq
    exact Or.inl (Option.some.inj (hk.symm.trans h))
  · refine Or.inr (List.mem_iff_getElem?.mpr ⟨k, ?_⟩)
    rw [List.getElem?_set_ne heq]
    exact hk

/-- An entry of a list is removed or stays. -/
theorem eq_or_mem_eraseIdx (h : l[i]? = some x) (hy : y ∈ l) : y = x ∨ y ∈ l.eraseIdx i := by
  obtain ⟨k, hk⟩ := List.mem_iff_getElem?.mp hy
  by_cases heq : k = i
  · subst heq
    exact Or.inl (Option.some.inj (hk.symm.trans h))
  · exact Or.inr (List.mem_eraseIdx_iff_getElem?.mpr ⟨k, heq, hk⟩)

end Lists

/-- An item with the key is outstanding, or the key is recorded. -/
def Delivery.Minds (σ : Delivery) (y : QueuedTransaction) : Prop :=
  (∃ z ∈ σ.outstanding, y.SameKey z) ∨ σ.db.isRecorded y = true

/-- Where an item may be outstanding: a message or a consumer that has it stays, or the item is
minded otherwise. -/
structure Delivery.Passes (σ τ : Delivery) (y : QueuedTransaction) : Prop where
  queue : ∀ m ∈ σ.consumers.queue, y ∈ m → m ∈ τ.consumers.queue ∨ τ.Minds y := by
    exact fun _ h _ => Or.inl h
  workers : ∀ w ∈ σ.consumers.workers, y ∈ w.rest → w ∈ τ.consumers.workers ∨ τ.Minds y := by
    exact fun _ h _ => Or.inl h
  dlq : ∀ m ∈ σ.dlq, y ∈ m → m ∈ τ.dlq ∨ τ.Minds y := by exact fun _ h _ => Or.inl h
  dlqWorkers : ∀ v ∈ σ.dlqWorkers, y ∈ v.rest → v ∈ τ.dlqWorkers ∨ τ.Minds y := by
    exact fun _ h _ => Or.inl h
  retries : ∀ r ∈ σ.retries, y ∈ r.message → r ∈ τ.retries ∨ τ.Minds y := by
    exact fun _ h _ => Or.inl h

section Minds

variable {σ τ : Delivery} {a : DeliveryAction} {y : QueuedTransaction}

theorem Delivery.mem_outstanding : y ∈ σ.outstanding ↔ (∃ m ∈ σ.consumers.queue, y ∈ m) ∨
    (∃ w ∈ σ.consumers.workers, y ∈ w.rest) ∨ (∃ m ∈ σ.dlq, y ∈ m) ∨
      (∃ v ∈ σ.dlqWorkers, y ∈ v.rest) ∨ ∃ r ∈ σ.retries, y ∈ r.message := by
  unfold Delivery.outstanding
  simp only [List.mem_append, List.mem_flatMap, id_eq, or_assoc]

theorem Delivery.minds_outstanding (h : y ∈ σ.outstanding) : σ.Minds y :=
  Or.inl ⟨y, h, rfl, rfl⟩

theorem Delivery.minds_queue {m : List QueuedTransaction} (hm : m ∈ σ.consumers.queue)
    (hy : y ∈ m) : σ.Minds y :=
  Delivery.minds_outstanding (Delivery.mem_outstanding.mpr (Or.inl ⟨m, hm, hy⟩))

theorem Delivery.minds_worker {w : Worker} (hw : w ∈ σ.consumers.workers) (hy : y ∈ w.rest) :
    σ.Minds y :=
  Delivery.minds_outstanding (Delivery.mem_outstanding.mpr (Or.inr (Or.inl ⟨w, hw, hy⟩)))

theorem Delivery.minds_dlqWorker {v : DlqWorker} (hv : v ∈ σ.dlqWorkers) (hy : y ∈ v.rest) :
    σ.Minds y :=
  Delivery.minds_outstanding (Delivery.mem_outstanding.mpr
    (Or.inr (Or.inr (Or.inr (Or.inl ⟨v, hv, hy⟩)))))

theorem Delivery.minds_retry {r : Retry} {z : QueuedTransaction} (hr : r ∈ σ.retries)
    (hz : z ∈ r.message) (hkey : y.SameKey z) : σ.Minds y :=
  Or.inl ⟨z, Delivery.mem_outstanding.mpr (Or.inr (Or.inr (Or.inr (Or.inr ⟨r, hr, hz⟩)))), hkey⟩

theorem Delivery.Passes.minds (h : σ.Passes τ y) (hy : y ∈ σ.outstanding) : τ.Minds y := by
  rcases Delivery.mem_outstanding.mp hy with
    ⟨m, hm, hy⟩ | ⟨w, hw, hy⟩ | ⟨m, hm, hy⟩ | ⟨v, hv, hy⟩ | ⟨r, hr, hy⟩
  · exact (h.queue m hm hy).elim (fun hm => Delivery.minds_queue hm hy) id
  · exact (h.workers w hw hy).elim (fun hw => Delivery.minds_worker hw hy) id
  · refine (h.dlq m hm hy).elim (fun hm => ?_) id
    exact Delivery.minds_outstanding
      (Delivery.mem_outstanding.mpr (Or.inr (Or.inr (Or.inl ⟨m, hm, hy⟩))))
  · exact (h.dlqWorkers v hv hy).elim (fun hv => Delivery.minds_dlqWorker hv hy) id
  · exact (h.retries r hr hy).elim (fun hr => Delivery.minds_retry hr hy ⟨rfl, rfl⟩) id

/-- A consumer of the main queue moves on and does not drop the item. -/
theorem Delivery.kept_worker {i : ℕ} {w w' : Worker} (hw : σ.consumers.workers[i]? = some w)
    (hset : τ.consumers.workers = σ.consumers.workers.set i w')
    (hitem : y ∈ w.rest → y ∈ w'.rest ∨ τ.Minds y) :
    ∀ x ∈ σ.consumers.workers, y ∈ x.rest → x ∈ τ.consumers.workers ∨ τ.Minds y := by
  intro x hx hy
  rw [hset]
  rcases eq_or_mem_set hw hx w' with rfl | hx
  · refine Or.inr ((hitem hy).elim (fun hy => Delivery.minds_worker (w := w') ?_ hy) id)
    rw [hset]
    exact List.mem_set (List.getElem?_eq_some_iff.mp hw).1 w'
  · exact Or.inl hx

/-- A dead-letter consumer moves on and does not drop the item. -/
theorem Delivery.kept_dlqWorker {j : ℕ} {v v' : DlqWorker} (hv : σ.dlqWorkers[j]? = some v)
    (hset : τ.dlqWorkers = σ.dlqWorkers.set j v')
    (hitem : y ∈ v.rest → y ∈ v'.rest ∨ τ.Minds y) :
    ∀ x ∈ σ.dlqWorkers, y ∈ x.rest → x ∈ τ.dlqWorkers ∨ τ.Minds y := by
  intro x hx hy
  rw [hset]
  rcases eq_or_mem_set hv hx v' with rfl | hx
  · refine Or.inr ((hitem hy).elim (fun hy => Delivery.minds_dlqWorker (v := v') ?_ hy) id)
    rw [hset]
    exact List.mem_set (List.getElem?_eq_some_iff.mp hv).1 v'
  · exact Or.inl hx

/-- A step of the consumers of the main queue. -/
theorem Delivery.passes_consumer {c : ConsumerAction} (hσ : σ.Grounded) (hy : Known σ.db y)
    (ha : (DeliveryAction.consumer c).isLossless = true) (h : σ.next (.consumer c) = some τ) :
    σ.Passes τ y := by
  obtain ⟨hpublish, d, hd, rfl⟩ := Delivery.next_consumer h
  have hstep := Consumers.next_step hd
  cases c with
  | call op =>
    obtain ⟨-⟩ := hstep
    exact {}
  | publish message => cases hpublish
  | deliver i =>
    cases hstep with
    | @deliver _ message hmessage =>
      exact
        { queue := by
            intro m hm hy
            rcases eq_or_mem_eraseIdx hmessage hm with rfl | hm
            · refine Or.inr (Delivery.minds_worker (w := .start m) ?_ hy)
              exact List.mem_append_right _ (List.mem_singleton_self _)
            · exact Or.inl hm
          workers := fun w hw _ => Or.inl (List.mem_append_left _ hw) }
  | lookup i call =>
    cases hstep with
    | lookup hw hw' =>
      refine { workers := Delivery.kept_worker hw rfl fun hmem => ?_ }
      exact (Worker.lookup_item hw' hmem).imp_right Or.inr
  | transact i now call =>
    cases hstep with
    | transact hw hw' =>
      refine { workers := Delivery.kept_worker hw rfl fun hmem => ?_ }
      exact (Worker.transact_item hw' hmem).imp_right Or.inr
  | record i now call =>
    cases hstep with
    | record hw hw' =>
      refine { workers := Delivery.kept_worker hw rfl fun hmem => ?_ }
      exact (Worker.record_item hσ.wired hy ha hw' hmem).imp_right Or.inr
  | acknowledge i =>
    obtain ⟨w, hw, hrest, rfl⟩ := Consumers.next_acknowledge hd
    refine { workers := fun x hx hmem => ?_ }
    rcases eq_or_mem_eraseIdx hw hx with rfl | hx
    · rw [hrest] at hmem
      cases hmem
    · exact Or.inl hx
  | crash i => cases ha

/-- **A step passes a known item on**, or records it. -/
theorem Delivery.next_passes (hσ : σ.Grounded) (hy : Known σ.db y)
    (ha : a.isLossless = true) (h : σ.next a = some τ) : σ.Passes τ y := by
  cases a with
  | submit message =>
    obtain ⟨-⟩ := Delivery.next_step h
    exact { queue := fun m hm _ => Or.inl (List.mem_append_left _ hm) }
  | consumer c => exact Delivery.passes_consumer hσ hy ha h
  | reject i => cases ha
  | takeDlq i =>
    cases Delivery.next_step h with
    | takeDlq hmessage =>
      refine
        { dlq := ?_
          dlqWorkers := fun v hv _ => Or.inl (List.mem_append_left _ hv) }
      intro m hm hmem
      rcases eq_or_mem_eraseIdx hmessage hm with rfl | hm
      · refine Or.inr (Delivery.minds_dlqWorker (v := .start m)
          (List.mem_append_right _ (List.mem_singleton_self _)) (List.mem_filter.mpr ⟨hmem, ?_⟩))
        rw [hy.offlineUuid, hy.idDevice]
        rfl
      · exact Or.inl hm
  | publishRetry j call =>
    cases Delivery.next_step h with
    | publishRetry hv hv' =>
      obtain ⟨hkept, hitem⟩ := DlqWorker.publish_item (y := y) ha hv'
      refine
        { dlqWorkers := Delivery.kept_dlqWorker hv rfl fun hmem => (hitem hmem).imp_right ?_
          retries := fun r hr _ => Or.inl (hkept r hr) }
      rintro ⟨r, hr, z, hz, hkey⟩
      exact Delivery.minds_retry hr hz hkey
  | findFirst j call =>
    cases Delivery.next_step h with
    | findFirst hv hv' =>
      cases call with
      | served =>
        refine { dlqWorkers := Delivery.kept_dlqWorker hv rfl fun hmem => Or.inl ?_ }
        rw [DlqWorker.find_item hv']
        exact hmem
      | failed message | lost message => cases ha
  | writeTerminal j now call =>
    cases Delivery.next_step h with
    | writeTerminal hv hv' =>
      have hfound := hσ.found _ (List.mem_of_getElem? hv)
      refine { dlqWorkers := Delivery.kept_dlqWorker hv rfl fun hmem => ?_ }
      exact (DlqWorker.write_item hσ.wired hy ha hfound hv' hmem).imp_right Or.inr
  | acknowledgeDlq j =>
    obtain ⟨v, hv, hrest, rfl⟩ := Delivery.next_acknowledgeDlq h
    refine { dlqWorkers := fun x hx hmem => ?_ }
    rcases eq_or_mem_eraseIdx hv hx with rfl | hx
    · rw [hrest] at hmem
      cases hmem
    · exact Or.inl hx
  | crashDlq j => cases ha
  | expire r =>
    cases Delivery.next_step h with
    | expire hretry =>
      refine
        { queue := fun m hm _ => Or.inl (List.mem_append_left _ hm)
          retries := ?_ }
      intro x hx hmem
      rcases eq_or_mem_eraseIdx hretry hx with rfl | hx
      · refine Or.inr (Delivery.minds_queue (m := x.message) ?_ hmem)
        exact List.mem_append_right _ (List.mem_singleton_self _)
      · exact Or.inl hx

/-- **An item stays minded.** -/
theorem Delivery.next_minds (hσ : σ.Grounded) (hy : Known σ.db y) (ha : a.isLossless = true)
    (h : σ.next a = some τ) (hm : σ.Minds y) : τ.Minds y := by
  rcases hm with ⟨z, hz, hkey⟩ | hrecorded
  · rcases (Delivery.next_passes hσ (hy.sameKey hkey) ha h).minds hz with
      ⟨x, hx, hkey'⟩ | hrecorded
    · exact Or.inl ⟨x, hx, hkey.trans hkey'⟩
    · rw [← isRecorded_congr hkey] at hrecorded
      exact Or.inr hrecorded
  · exact Or.inr ((Delivery.next_retains h).recorded y hrecorded)

theorem Delivery.Idle.outstanding (h : σ.Idle) : σ.outstanding = [] := by
  unfold Delivery.outstanding
  rw [h.queue, h.workers, h.dlq, h.dlqWorkers, h.retries]
  rfl

end Minds

/-! ## Whole runs -/

section Runs

variable {us : Table User} {σ τ : Delivery} {as : List DeliveryAction}

/-- In a run, what is outstanding and what arrives stays minded. -/
theorem Delivery.minds_of_run
    (hrun : Runs.Run Delivery.next (fun _ a => a.isLossless = true) σ as τ)
    (hσ : σ.Grounded) : τ.Grounded ∧ Retains σ.db τ.db ∧
      ∀ data ∈ σ.outstanding ++ as.flatMap (·.arriving), Known σ.db data → τ.Minds data := by
  induction hrun with
  | start =>
    refine ⟨hσ, .refl σ.db, fun data hdata _ => ?_⟩
    rw [List.flatMap_nil, List.append_nil] at hdata
    exact Delivery.minds_outstanding hdata
  | @step as t u a _ ha hn ih =>
    obtain ⟨ht, hr, hminds⟩ := ih
    refine ⟨ht.next hn, hr.trans (Delivery.next_retains hn), fun data hdata hknown => ?_⟩
    rw [List.flatMap_append, ← List.append_assoc, List.flatMap_singleton] at hdata
    rcases List.mem_append.mp hdata with hdata | hdata
    · exact Delivery.next_minds ht (hknown.retains hr) ha hn (hminds data hdata hknown)
    · cases a with
      | submit message =>
        obtain ⟨-⟩ := Delivery.next_step hn
        exact Delivery.minds_queue
          (List.mem_append_right _ (List.mem_singleton_self message)) hdata
      | _ => cases hdata

/-- **A backlog is worked off, and no item of it is lost.**  From any state that the queues and
consumers reach, with whatever was lost before, and while batches arrive and other services are
called: unless a consumer is lost, a message is rejected, or a note of a failure does not get
through, the number of steps is bounded, the rest can always be worked off, and when nothing is
left each item that was outstanding or arrived, of a device that exists, has a `Transaction` row
or a `SyncQueue` row. -/
theorem backlog_recorded (h : Runs.Reaches Delivery.next (Delivery.start us) σ)
    (hrun : Runs.Run Delivery.next (fun _ a => a.isLossless = true) σ as τ) :
    as.countP (·.isWork) + τ.work ≤ σ.work + weight DeliveryAction.brings as ∧
    (∃ bs υ, Runs.Run Delivery.next (fun _ a => a.isLossless = true) τ bs υ ∧ υ.Idle ∧
      ∀ b ∈ bs, b.isWork = true) ∧
    (τ.Idle → ∀ data ∈ σ.outstanding ++ as.flatMap (·.arriving), Known σ.db data →
      τ.db.isRecorded data = true) := by
  refine ⟨Delivery.worksOff.bounded hrun, Delivery.worksOff.finishes τ, ?_⟩
  intro hidle data hdata hknown
  obtain ⟨-, -, hminds⟩ := Delivery.minds_of_run hrun (Delivery.grounded_of_reaches h)
  rcases hminds data hdata hknown with ⟨z, hz, -⟩ | hrecorded
  · rw [hidle.outstanding] at hz
    cases hz
  · exact hrecorded

end Runs

/-- A sale is dead-lettered because its lookup timed out. -/
def deadLettered : List DeliveryAction :=
  openingSteps ++ [.submit [shopQueued shopDevice "a" [3]], .consumer (.deliver 0),
    .consumer (.lookup 0 (.failed "timed out")), .reject 0]

/-- It is retried and stored; another sale arrives, fails and is noted. -/
def workedOff : List DeliveryAction :=
  [.takeDlq 0, .publishRetry 0 .served, .acknowledgeDlq 0, .expire 0,
    .submit [shopQueued shopDevice "b" [1]]] ++ delivered .served (.transact 0 1 .served) ++
    delivered (.failed "timed out") (.record 0 2 .served)

theorem backlog_recorded_workedOff : ∃ σ τ : Delivery,
    σ.outstanding = [shopQueued shopDevice "a" [3]] ∧ τ.Idle ∧
      τ.db.transactions.rows.length = 1 ∧
      τ.db.isRecorded (shopQueued shopDevice "a" [3]) = true ∧
      τ.db.isRecorded (shopQueued shopDevice "b" [1]) = true := by
  have hcheck : (Runs.runs Delivery.next (fun _ _ => true) (Delivery.start systemUsers)
      deadLettered).any (fun σ => decide (σ.outstanding = [shopQueued shopDevice "a" [3]] ∧
        σ.db.devices.has (.id shopDevice) = true) &&
        (Runs.runs Delivery.next (fun _ a => a.isLossless) σ workedOff).any (fun τ =>
          decide (τ.Idle ∧ τ.db.transactions.rows.length = 1))) = true := by decide +kernel
  obtain ⟨σ, hσ, hcheck⟩ := Runs.exists_run_of_runs hcheck
  obtain ⟨hdead, hcheck⟩ := Bool.and_eq_true_iff.mp hcheck
  obtain ⟨hout, hdevice⟩ := of_decide_eq_true hdead
  obtain ⟨τ, hτ, hidle⟩ := Runs.exists_run_of_runs hcheck
  obtain ⟨hidle, hrows⟩ := of_decide_eq_true hidle
  obtain ⟨-, -, hrecorded⟩ := backlog_recorded hσ.reaches hτ
  have hknown : ∀ u ≠ "", ∀ q, Known σ.db (shopQueued shopDevice u q) :=
    fun u hu q => ⟨decide_eq_true hu, rfl, hdevice⟩
  refine ⟨σ, τ, hout, hidle, hrows, ?_, ?_⟩
  · refine hrecorded hidle _ ?_ (hknown "a" (by decide) [3])
    rw [hout]
    exact List.mem_cons_self
  · refine hrecorded hidle _ ?_ (hknown "b" (by decide) [1])
    exact List.mem_append_right _ List.mem_cons_self

end KPos
