/-
# Attempts before a failure (`sync-consumer.service.ts`, `docs/architecture_justification.md`)

The retry queues give a transient failure time to pass: `handleDlqMessage` counts the rounds of
an item, and records its failure after `MAX_RETRIES`.  But `handleFailure` records whatever is
thrown in the main consumer, after the first attempt.

* `Delivery.Counted` : the invariant: no counter is ahead of the attempts at its item;
* `failed_after_retries` : the runs in which transient failures are retried;
* `failed_at_once` : a failure that is recorded after one attempt.
-/
import KPos.Delivery

namespace KPos

/-! ## Counting attempts -/

/-- How often the item with a key was attempted. -/
def attemptsOn (attempts : List Attempt) (key : Ident × Ident) : ℕ :=
  attempts.countP fun a => decide (a.key = key)

/-- The item with a key was attempted more than `MAX_RETRIES` times, or an attempt at it did not
end with a transient failure. -/
def MayFail (attempts : List Attempt) (key : Ident × Ident) : Prop :=
  maxRetries < attemptsOn attempts key ∨ ∃ a ∈ attempts, a.key = key ∧ a.result ≠ .failed

/-- The counter of an item is not ahead of its attempts. -/
def QueuedTransaction.Counted (data : QueuedTransaction) (attempts : List Attempt) : Prop :=
  data.retryAttempt.getD 0 ≤ attemptsOn attempts data.key

/-- The counter of an item is not ahead of its attempts after the next increase either. -/
def QueuedTransaction.Tried (data : QueuedTransaction) (attempts : List Attempt) : Prop :=
  data.attempt ≤ attemptsOn attempts data.key

section Counting

variable {attempts new : List Attempt} {key : Ident × Ident} {data : QueuedTransaction}

theorem attemptsOn_append (attempts new : List Attempt) (key : Ident × Ident) :
    attemptsOn (attempts ++ new) key = attemptsOn attempts key + attemptsOn new key :=
  List.countP_append

theorem attemptsOn_pos {a : Attempt} (h : a ∈ attempts) : 0 < attemptsOn attempts a.key :=
  List.countP_pos_iff.mpr ⟨a, h, decide_eq_true rfl⟩

theorem MayFail.append (h : MayFail attempts key) (new : List Attempt) :
    MayFail (attempts ++ new) key := by
  rcases h with hcount | ⟨a, ha, hkey⟩
  · left
    have happend := attemptsOn_append attempts new key
    omega
  · exact Or.inr ⟨a, List.mem_append_left _ ha, hkey⟩

theorem QueuedTransaction.Counted.append (h : data.Counted attempts) (new : List Attempt) :
    data.Counted (attempts ++ new) := by
  have happend := attemptsOn_append attempts new data.key
  unfold QueuedTransaction.Counted at h ⊢
  omega

theorem QueuedTransaction.Tried.append (h : data.Tried attempts) (new : List Attempt) :
    data.Tried (attempts ++ new) := by
  have happend := attemptsOn_append attempts new data.key
  unfold QueuedTransaction.Tried at h ⊢
  omega

theorem QueuedTransaction.Tried.counted (h : data.Tried attempts) : data.Counted attempts := by
  unfold QueuedTransaction.Tried QueuedTransaction.attempt at h
  unfold QueuedTransaction.Counted
  omega

/-- An item that is retried carries the attempts that it has had. -/
theorem QueuedTransaction.Tried.retried (h : data.Tried attempts) :
    data.retried.Counted attempts := h

/-- One more attempt. -/
theorem QueuedTransaction.Counted.tried (h : data.Counted attempts) {a : Attempt} (ha : a ∈ new)
    (hkey : a.key = data.key) : data.Tried (attempts ++ new) := by
  have happend := attemptsOn_append attempts new data.key
  have hpos := attemptsOn_pos ha
  rw [hkey] at hpos
  unfold QueuedTransaction.Counted at h
  unfold QueuedTransaction.Tried QueuedTransaction.attempt
  omega

end Counting

/-! ## Counted consumers -/

/-- Each item of the message was attempted in this round, or is still to be; and an error that
is no transient failure belongs to an attempt. -/
structure Worker.Counted (w : Worker) (attempts : List Attempt) : Prop where
  items : ∀ data ∈ w.message,
    data.Tried attempts ∨ data ∈ w.unfinished ∧ data.Counted attempts
  conflict : ∀ data error, w.failure = some (data, error) → error.isConflict = true →
    ∃ a ∈ attempts, a.key = data.key ∧ a.result ≠ .failed

/-- All entries of the message were attempted in this round, and those whose failure is terminal
in the rounds before. -/
structure DlqWorker.Counted (w : DlqWorker) (attempts : List Attempt) : Prop where
  message : ∀ data ∈ w.message, data.Tried attempts
  rest : ∀ data ∈ w.rest, data.Tried attempts
  terminal : ∀ data, w.terminal = some data → maxRetries < data.attempt

/-- A step of a consumer that attempts the first of its items. -/
inductive Worker.Attempts (w : Worker) : Worker → Prop
  | advance {data : QueuedTransaction} {rest : List QueuedTransaction} :
      w.unfinished = w.rest → w.rest = data :: rest → Attempts w w.advance
  | stage {data : QueuedTransaction} {rest : List QueuedTransaction} (stage : Stage) :
      w.unfinished = w.rest → w.rest = data :: rest → Attempts w { w with stage := stage }

section Workers

variable {w w' : Worker} {db db' : Db} {now : DateTime} {call : Call} {attempts : List Attempt}

theorem Worker.lookup_attempts (h : w.lookup db call = some w') : w.Attempts w' := by
  unfold Worker.lookup at h
  split at h
  · rename_i data rest hstage hrest
    have hunfinished : w.unfinished = w.rest := by simp only [Worker.unfinished, hstage]
    split at h
    · obtain rfl := Option.some.inj h
      split
      · exact .advance hunfinished hrest
      · exact .stage _ hunfinished hrest
    · obtain rfl := Option.some.inj h
      exact .stage _ hunfinished hrest
    · obtain rfl := Option.some.inj h
      exact .stage _ hunfinished hrest
  · cases h

theorem Worker.transact_attempts (h : w.transact db now call = some (db', w')) :
    w.Attempts w' := by
  unfold Worker.transact at h
  split at h
  · rename_i data rest hstage hrest
    have hunfinished : w.unfinished = w.rest := by simp only [Worker.unfinished, hstage]
    split at h
    · obtain ⟨-, rfl⟩ := Prod.mk.inj (Option.some.inj h)
      exact .advance hunfinished hrest
    · obtain ⟨-, rfl⟩ := Prod.mk.inj (Option.some.inj h)
      exact .stage _ hunfinished hrest
  · cases h

theorem Worker.counted_start {message : List QueuedTransaction}
    (h : ∀ data ∈ message, data.Counted attempts) : (Worker.start message).Counted attempts where
  items := fun data hdata => Or.inr ⟨hdata, h data hdata⟩
  conflict := fun _ _ hfailure => nomatch hfailure

/-- A consumer that goes on has no error in hand. -/
theorem Worker.counted_advance (h : ∀ data ∈ w.message,
      data.Tried attempts ∨ data ∈ w.advance.unfinished ∧ data.Counted attempts) :
    w.advance.Counted attempts where
  items := h
  conflict := fun _ _ hfailure => nomatch hfailure

theorem Worker.Counted.append (h : w.Counted attempts) (new : List Attempt) :
    w.Counted (attempts ++ new) where
  items := fun data hdata => (h.items data hdata).imp (·.append new)
    fun ⟨hunfinished, hcounted⟩ => ⟨hunfinished, hcounted.append new⟩
  conflict := fun data error hfailure hconflict =>
    have ⟨a, ha, hkey⟩ := h.conflict data error hfailure hconflict
    ⟨a, List.mem_append_left _ ha, hkey⟩

/-- A consumer that logged the attempt at its first item. -/
theorem Worker.Counted.logged (h : w.Counted attempts) {data : QueuedTransaction}
    {rest : List QueuedTransaction} (result : AttemptResult) (hunfinished : w.unfinished = w.rest)
    (hrest : w.rest = data :: rest) : ∀ x ∈ w.message,
      x.Tried (attempts ++ [⟨data.key, result⟩]) ∨
        x ∈ rest ∧ x.Counted (attempts ++ [⟨data.key, result⟩]) := by
  intro x hx
  rcases h.items x hx with htried | ⟨hmem, hcounted⟩
  · exact Or.inl (htried.append _)
  · rw [hunfinished, hrest] at hmem
    rcases List.mem_cons.mp hmem with rfl | hmem
    · exact Or.inl (hcounted.tried (List.mem_singleton_self _) rfl)
    · exact Or.inr ⟨hmem, hcounted.append _⟩

/-- **An attempt is counted.** -/
theorem Worker.Counted.attempted (hw : w.Counted attempts) (h : w.Attempts w') :
    w'.Counted (attempts ++ w.attempt w') := by
  cases h with
  | @advance data rest hunfinished hrest =>
    have hattempt : w.attempt w.advance = [⟨data.key, .stored⟩] := by
      simp only [Worker.attempt, Worker.advance, hrest]
    rw [hattempt]
    apply Worker.counted_advance
    intro x hx
    have hlogged := hw.logged .stored hunfinished hrest x hx
    simpa only [Worker.unfinished, Worker.advance, hrest, List.tail_cons] using hlogged
  | @stage data rest stage hunfinished hrest =>
    cases stage with
    | lookup | transact =>
      refine (Worker.Counted.append (w := { w with stage := _ }) ⟨fun x hx => ?_, ?_⟩ _)
      · have hitems := hw.items x hx
        rw [hunfinished] at hitems
        exact hitems
      · intro _ _ hfailure
        simp only [Worker.failure] at hfailure
        cases hfailure
    | record error =>
      have hattempt : w.attempt { w with stage := .record error }
          = [⟨data.key, error.attemptResult⟩] := by
        simp only [Worker.attempt, hrest]
      rw [hattempt]
      refine ⟨fun x hx => ?_, fun x e hfailure hconflict => ?_⟩
      · have hlogged := hw.logged error.attemptResult hunfinished hrest x hx
        simpa only [Worker.unfinished, hrest, List.tail_cons] using hlogged
      · -- the error of the attempt that is logged is the one in hand
        simp only [Worker.failure, hrest] at hfailure
        obtain ⟨rfl, rfl⟩ := Prod.mk.inj (Option.some.inj hfailure)
        refine ⟨_, List.mem_append_right _ (List.mem_singleton_self _), rfl, ?_⟩
        unfold Err.attemptResult
        rw [if_pos hconflict]
        have hne : AttemptResult.conflict ≠ .failed := by decide
        exact hne

/-- A consumer that recorded a failure goes on. -/
theorem Worker.Counted.record (hw : w.Counted attempts)
    (h : w.record db now call = some (db', w')) : w'.Counted attempts := by
  unfold Worker.record at h
  split at h
  · rename_i error data rest hstage hrest
    obtain ⟨-, rfl⟩ := Prod.mk.inj (Option.some.inj h)
    apply Worker.counted_advance
    intro x hx
    have hitems := hw.items x hx
    simpa only [Worker.unfinished, Worker.advance, hstage] using hitems
  · cases h

/-- The items of a message that is dead-lettered were all attempted. -/
theorem Worker.Counted.rejected (hw : w.Counted attempts) : ∀ data ∈ w.message,
    data.Tried (attempts ++ w.unfinished.map fun data => ⟨data.key, .failed⟩) := by
  intro data hdata
  rcases hw.items data hdata with htried | ⟨hunfinished, hcounted⟩
  · exact htried.append _
  · exact hcounted.tried (List.mem_map_of_mem hunfinished) rfl

/-- The items of a message that is delivered again are counted. -/
theorem Worker.Counted.crashed (hw : w.Counted attempts) :
    ∀ data ∈ w.message, data.Counted attempts := by
  intro data hdata
  rcases hw.items data hdata with htried | ⟨-, hcounted⟩
  · exact htried.counted
  · exact hcounted

end Workers

section DlqWorkers

variable {w w' : DlqWorker} {db db' : Db} {now : DateTime} {call : Call}
  {attempts : List Attempt} {retries retries' : List Retry}

theorem DlqWorker.counted_start {message : List QueuedTransaction}
    (h : ∀ data ∈ message, data.Tried attempts) : (DlqWorker.start message).Counted attempts where
  message := h
  rest := fun data hdata => h data (List.mem_of_mem_filter hdata)
  terminal := fun _ hterminal => nomatch hterminal

theorem DlqWorker.Counted.append (h : w.Counted attempts) (new : List Attempt) :
    w.Counted (attempts ++ new) where
  message := fun data hdata => (h.message data hdata).append new
  rest := fun data hdata => (h.rest data hdata).append new
  terminal := h.terminal

theorem DlqWorker.Counted.advance (h : w.Counted attempts) : w.advance.Counted attempts where
  message := h.message
  rest := fun data hdata => h.rest data (List.mem_of_mem_tail hdata)
  terminal := fun _ hterminal => nomatch hterminal

/-- What is published to a retry queue is counted. -/
theorem DlqWorker.Counted.publish (hw : w.Counted attempts)
    (h : w.publish retries call = some (retries', w')) : w'.Counted attempts ∧
      ∀ r ∈ retries', r ∈ retries ∨ ∀ data ∈ r.message, data.Counted attempts := by
  unfold DlqWorker.publish at h
  split at h
  · rename_i data rest hstage hrest
    split at h
    · obtain ⟨rfl, rfl⟩ := Prod.mk.inj (Option.some.inj h)
      refine ⟨hw.advance, fun r hr => ?_⟩
      rcases mem_publishToRetry.mp hr with hr | ⟨-, rfl⟩
      · exact Or.inl hr
      · right
        intro x hx
        rw [List.mem_singleton.mp hx]
        apply QueuedTransaction.Tried.retried
        apply hw.rest
        rw [hrest]
        exact List.mem_cons_self
    · cases h
  · cases h

/-- A failure is terminal after the last round. -/
theorem DlqWorker.Counted.find (hw : w.Counted attempts) (h : w.find db call = some w') :
    w'.Counted attempts := by
  unfold DlqWorker.find at h
  split at h
  · rename_i data rest hstage hrest
    split at h
    · cases h
    · rename_i hlt
      split at h
      · obtain rfl := Option.some.inj h
        refine ⟨hw.message, hw.rest, fun x hterminal => ?_⟩
        simp only [DlqWorker.terminal, hrest] at hterminal
        obtain rfl := Option.some.inj hterminal
        omega
      · obtain rfl := Option.some.inj h
        exact hw.advance
      · obtain rfl := Option.some.inj h
        exact hw.advance
  · cases h

theorem DlqWorker.Counted.write (hw : w.Counted attempts)
    (h : w.write db now call = some (db', w')) : w'.Counted attempts := by
  unfold DlqWorker.write at h
  split at h
  · obtain ⟨-, rfl⟩ := Prod.mk.inj (Option.some.inj h)
    exact hw.advance
  · cases h

/-- The entry of a terminal failure was attempted more than `MAX_RETRIES` times. -/
theorem DlqWorker.Counted.mayFail (hw : w.Counted attempts) {data : QueuedTransaction}
    (h : w.terminal = some data) : MayFail attempts data.key := by
  left
  have hlast := hw.terminal data h
  have htried : data.Tried attempts := by
    apply hw.rest
    unfold DlqWorker.terminal at h
    split at h
    · rename_i hrest
      obtain rfl := Option.some.inj h
      rw [hrest]
      exact List.mem_cons_self
    · cases h
  unfold QueuedTransaction.Tried at htried
  omega

end DlqWorkers

/-! ## The invariant of the system -/

/-- What waits, or is in hand, is counted. -/
structure Delivery.CountedBy (σ : Delivery) (attempts : List Attempt) : Prop where
  queue : ∀ m ∈ σ.consumers.queue, ∀ data ∈ m, data.Counted attempts
  workers : ∀ w ∈ σ.consumers.workers, w.Counted attempts
  dlq : ∀ m ∈ σ.dlq, ∀ data ∈ m, data.Tried attempts
  dlqWorkers : ∀ w ∈ σ.dlqWorkers, w.Counted attempts
  retries : ∀ r ∈ σ.retries, ∀ data ∈ r.message, data.Counted attempts

/-- What waits, or is in hand, is counted, and each row of `SyncQueue` is of an item that may
fail. -/
structure Delivery.Counted (σ : Delivery) : Prop where
  items : σ.CountedBy σ.attempts
  failures : ∀ q ∈ σ.db.syncQueues.rows, ∀ u, q.offlineUuid = some u →
    MayFail σ.attempts (q.idDevice, u)

/-- A step that does not record a transient failure of an item at once. -/
def Delivery.Patient (σ : Delivery) : DeliveryAction → Prop
  | .consumer (.record i _ call) => ∀ w, σ.consumers.workers[i]? = some w →
      ∀ data error, w.failure = some (data, error) → error.isConflict = false →
        call.reaches = true → σ.db.devices.has (.id data.idDevice) = true →
          MayFail σ.attempts data.key
  | _ => True

section Counted

variable {σ τ : Delivery} {attempts : List Attempt}

theorem Delivery.countedBy_start (us : Table User) : (Delivery.start us).CountedBy [] where
  queue := fun _ h => nomatch h
  workers := fun _ h => nomatch h
  dlq := fun _ h => nomatch h
  dlqWorkers := fun _ h => nomatch h
  retries := fun _ h => nomatch h

theorem Delivery.CountedBy.append (h : σ.CountedBy attempts) (new : List Attempt) :
    σ.CountedBy (attempts ++ new) where
  queue := fun m hm data hdata => (h.queue m hm data hdata).append new
  workers := fun w hw => (h.workers w hw).append new
  dlq := fun m hm data hdata => (h.dlq m hm data hdata).append new
  dlqWorkers := fun w hw => (h.dlqWorkers w hw).append new
  retries := fun r hr data hdata => (h.retries r hr data hdata).append new

/-- A message that comes into the main queue. -/
theorem Delivery.CountedBy.enqueue (h : σ.CountedBy attempts) {message : List QueuedTransaction}
    (hmessage : ∀ data ∈ message, data.Counted attempts) :
    ∀ m ∈ σ.consumers.queue ++ [message], ∀ data ∈ m, data.Counted attempts := by
  intro m hm
  rcases List.mem_append.mp hm with hm | hm
  · exact h.queue m hm
  · rw [List.mem_singleton.mp hm]
    exact hmessage

/-- A message that comes into the dead-letter queue. -/
theorem Delivery.CountedBy.toDlq (h : σ.CountedBy attempts) {message : List QueuedTransaction}
    (hmessage : ∀ data ∈ message, data.Tried attempts) :
    ∀ m ∈ σ.dlq ++ [message], ∀ data ∈ m, data.Tried attempts := by
  intro m hm
  rcases List.mem_append.mp hm with hm | hm
  · exact h.dlq m hm
  · rw [List.mem_singleton.mp hm]
    exact hmessage

/-- A consumer that moved on. -/
theorem Delivery.CountedBy.setWorker (h : σ.CountedBy attempts) (i : ℕ) {w : Worker}
    (hw : w.Counted attempts) : ∀ v ∈ σ.consumers.workers.set i w, v.Counted attempts := by
  intro v hv
  rcases List.mem_or_eq_of_mem_set hv with hv | rfl
  · exact h.workers v hv
  · exact hw

theorem Delivery.CountedBy.setDlq (h : σ.CountedBy attempts) (j : ℕ) {w : DlqWorker}
    (hw : w.Counted attempts) : ∀ v ∈ σ.dlqWorkers.set j w, v.Counted attempts := by
  intro v hv
  rcases List.mem_or_eq_of_mem_set hv with hv | rfl
  · exact h.dlqWorkers v hv
  · exact hw

/-- The attempt that a consumer's step logs. -/
theorem Consumers.attempt_put {c : Consumers} {i : ℕ} {w w' : Worker}
    (hw : c.workers[i]? = some w) {cs : List QueuedTransaction} {db : Db} {a : ConsumerAction}
    (ha : (∃ call, a = .lookup i call) ∨ ∃ now call, a = .transact i now call) :
    c.attempt (c.put i cs (db, w')) a = w.attempt w' := by
  rcases ha with ⟨call, rfl⟩ | ⟨now, call, rfl⟩
  · simp only [Consumers.attempt, hw, Consumers.put_workers hw]
  · simp only [Consumers.attempt, hw, Consumers.put_workers hw]

/-- A step of the consumers of the main queue. -/
theorem Delivery.CountedBy.consumer (hσ : σ.CountedBy attempts) {a : ConsumerAction}
    {c : Consumers} (hc : Consumers.Step σ.consumers a c) (ha : a.isPublish = false) :
    (∀ m ∈ c.queue, ∀ data ∈ m, data.Counted (attempts ++ σ.consumers.attempt c a)) ∧
      ∀ w ∈ c.workers, w.Counted (attempts ++ σ.consumers.attempt c a) := by
  have hold := hσ.append (σ.consumers.attempt c a)
  cases hc with
  | call hop => exact ⟨hold.queue, hold.workers⟩
  | publish message => cases ha
  | @deliver i message hmessage =>
    refine ⟨fun m hm => hold.queue m (List.mem_of_mem_eraseIdx hm), fun w hw => ?_⟩
    rcases List.mem_append.mp hw with hw | hw
    · exact hold.workers w hw
    · rw [List.mem_singleton.mp hw]
      exact Worker.counted_start (hold.queue message (List.mem_of_getElem? hmessage))
  | @lookup i call w w' hw hw' =>
    refine ⟨hold.queue, hold.setWorker i ?_⟩
    rw [Consumers.attempt_put hw (Or.inl ⟨call, rfl⟩)]
    exact (hσ.workers w (List.mem_of_getElem? hw)).attempted (Worker.lookup_attempts hw')
  | @transact i now call w w' db hw hw' =>
    refine ⟨hold.queue, hold.setWorker i ?_⟩
    rw [Consumers.attempt_put hw (Or.inr ⟨now, call, rfl⟩)]
    exact (hσ.workers w (List.mem_of_getElem? hw)).attempted (Worker.transact_attempts hw')
  | @record i now call w w' db hw hw' =>
    exact ⟨hold.queue, hold.setWorker i ((hold.workers w (List.mem_of_getElem? hw)).record hw')⟩
  | acknowledge i =>
    exact ⟨hold.queue, fun w hw => hold.workers w (List.mem_of_mem_eraseIdx hw)⟩
  | @crash i w hw =>
    refine ⟨hold.enqueue (hold.workers w (List.mem_of_getElem? hw)).crashed, fun w hw => ?_⟩
    exact hold.workers w (List.mem_of_mem_eraseIdx hw)

/-- **Every step keeps the counters behind the attempts**, whatever is recorded. -/
theorem Delivery.CountedBy.next {a : DeliveryAction} (hσ : σ.CountedBy σ.attempts)
    (h : σ.next a = some τ) : τ.CountedBy τ.attempts := by
  cases Delivery.next_step h with
  | submit hfresh =>
    refine ⟨hσ.enqueue fun data hdata => ?_, hσ.workers, hσ.dlq, hσ.dlqWorkers, hσ.retries⟩
    unfold QueuedTransaction.Counted
    rw [hfresh data hdata]
    exact Nat.zero_le _
  | @consumer a c ha hc =>
    have hold := hσ.append (σ.consumers.attempt c a)
    obtain ⟨hqueue, hworkers⟩ := hσ.consumer hc ha
    exact ⟨hqueue, hworkers, hold.dlq, hold.dlqWorkers, hold.retries⟩
  | @reject i w hw =>
    have hold := hσ.append (w.unfinished.map fun data => ⟨data.key, .failed⟩)
    refine ⟨hold.queue, fun v hv => hold.workers v (List.mem_of_mem_eraseIdx hv), ?_,
      hold.dlqWorkers, hold.retries⟩
    exact hold.toDlq (hσ.workers w (List.mem_of_getElem? hw)).rejected
  | @takeDlq i message hmessage =>
    refine ⟨hσ.queue, hσ.workers, fun m hm => hσ.dlq m (List.mem_of_mem_eraseIdx hm),
      fun w hw => ?_, hσ.retries⟩
    rcases List.mem_append.mp hw with hw | hw
    · exact hσ.dlqWorkers w hw
    · rw [List.mem_singleton.mp hw]
      exact DlqWorker.counted_start (hσ.dlq message (List.mem_of_getElem? hmessage))
  | @publishRetry j call w w' retries hw hw' =>
    obtain ⟨hcounted, hretries⟩ := (hσ.dlqWorkers w (List.mem_of_getElem? hw)).publish hw'
    refine ⟨hσ.queue, hσ.workers, hσ.dlq, hσ.setDlq j hcounted, fun r hr => ?_⟩
    rcases hretries r hr with hr | hr
    · exact hσ.retries r hr
    · exact hr
  | @findFirst j call w w' hw hw' =>
    have hcounted := (hσ.dlqWorkers w (List.mem_of_getElem? hw)).find hw'
    exact ⟨hσ.queue, hσ.workers, hσ.dlq, hσ.setDlq j hcounted, hσ.retries⟩
  | @writeTerminal j now call w w' db hw hw' =>
    have hcounted := (hσ.dlqWorkers w (List.mem_of_getElem? hw)).write hw'
    exact ⟨hσ.queue, hσ.workers, hσ.dlq, hσ.setDlq j hcounted, hσ.retries⟩
  | acknowledgeDlq j =>
    exact ⟨hσ.queue, hσ.workers, hσ.dlq,
      fun w hw => hσ.dlqWorkers w (List.mem_of_mem_eraseIdx hw), hσ.retries⟩
  | @crashDlq j w hw =>
    exact ⟨hσ.queue, hσ.workers, hσ.toDlq (hσ.dlqWorkers w (List.mem_of_getElem? hw)).message,
      fun w hw => hσ.dlqWorkers w (List.mem_of_mem_eraseIdx hw), hσ.retries⟩
  | @expire r retry hretry =>
    exact ⟨hσ.enqueue (hσ.retries retry (List.mem_of_getElem? hretry)), hσ.workers, hσ.dlq,
      hσ.dlqWorkers, fun r hr => hσ.retries r (List.mem_of_mem_eraseIdx hr)⟩

/-- No attempt is forgotten. -/
theorem Delivery.next_attempts {a : DeliveryAction} (h : σ.next a = some τ) :
    ∃ new, τ.attempts = σ.attempts ++ new := by
  cases Delivery.next_step h with
  | consumer ha hc => exact ⟨_, rfl⟩
  | reject hw => exact ⟨_, rfl⟩
  | submit | takeDlq | publishRetry | findFirst | writeTerminal | acknowledgeDlq | crashDlq
  | expire => exact ⟨[], (List.append_nil _).symm⟩

/-- **What a patient step notes** is a failure of an item that may fail. -/
theorem Delivery.Counted.noting (hσ : σ.Counted) {a : DeliveryAction} (ha : σ.Patient a)
    {data : QueuedTransaction} (h : σ.noting a = some data)
    (hdev : σ.db.devices.has (.id data.idDevice) = true) : MayFail σ.attempts data.key := by
  unfold Delivery.noting at h
  split at h
  · rename_i i now call
    split at h
    · rename_i hreaches
      obtain ⟨⟨x, error⟩, hfailure, rfl⟩ := Option.map_eq_some_iff.mp h
      obtain ⟨w, hw, hfailure⟩ := Option.bind_eq_some_iff.mp hfailure
      by_cases hconflict : error.isConflict = true
      · have hcounted := hσ.items.workers w (List.mem_of_getElem? hw)
        exact Or.inr (hcounted.conflict x error hfailure hconflict)
      · exact ha w hw x error hfailure (Bool.eq_false_of_not_eq_true hconflict) hreaches hdev
    · cases h
  · split at h
    · obtain ⟨w, hw, hterminal⟩ := Option.bind_eq_some_iff.mp h
      exact (hσ.items.dlqWorkers w (List.mem_of_getElem? hw)).mayFail hterminal
    · cases h
  · cases h

/-- **Every patient step keeps the system counted.** -/
theorem Delivery.Counted.next (hσ : σ.Counted) {a : DeliveryAction} (ha : σ.Patient a)
    (h : σ.next a = some τ) : τ.Counted := by
  refine ⟨hσ.items.next h, ?_⟩
  obtain ⟨new, hnew⟩ := Delivery.next_attempts h
  rw [hnew]
  have hsame : τ.db.syncQueues = σ.db.syncQueues → ∀ q ∈ τ.db.syncQueues.rows, ∀ u,
      q.offlineUuid = some u → MayFail (σ.attempts ++ new) (q.idDevice, u) := by
    intro hqueues
    rw [hqueues]
    exact fun q hq u hu => (hσ.failures q hq u hu).append new
  rcases Delivery.next_cases h with ⟨hqueues, -⟩ | ⟨data, -, now, hok⟩ | ⟨data, hdata, hnotes⟩
  · exact hsame hqueues
  · obtain ⟨-, d, created, hsale⟩ := processTransaction_stored hok
    exact hsame (by rw [hsale.frame])
  · intro r hr u hu
    rcases hnotes.rows r hr with ⟨-, hd, hr, hdev⟩ | ⟨q, hq, hd, hr, -⟩
    · obtain rfl := Option.some.inj (hr.symm.trans hu)
      rw [hd]
      exact (hσ.noting ha hdata hdev).append new
    · rw [← hd]
      exact (hσ.failures q hq u (hr.trans hu)).append new

end Counted

/-! ## Transient failures -/

/-- **An item whose attempts all ended with transient failures was attempted more than
`MAX_RETRIES` times when it is recorded as failed**, in every run without a step that records
such a failure at once. -/
theorem failed_after_retries {us : Table User} {as : List DeliveryAction} {σ : Delivery}
    (h : Runs.Run Delivery.next Delivery.Patient (.start us) as σ) :
    ∀ q ∈ σ.db.syncQueues.rows, q.status = .SYNC_FAILED → ∀ u, q.offlineUuid = some u →
      (∀ a ∈ σ.attempts, a.key = (q.idDevice, u) → a.result = .failed) →
        maxRetries < attemptsOn σ.attempts (q.idDevice, u) := by
  have hσ : σ.Counted := h.invariant Delivery.Counted
    ⟨Delivery.countedBy_start us, fun _ h => nomatch h⟩ fun _ _ _ hσ ha hstep => hσ.next ha hstep
  intro q hq _ u hu hfailed
  rcases hσ.failures q hq u hu with hcount | ⟨a, ha, hkey, hresult⟩
  · exact hcount
  · exact absurd (hfailed a ha hkey) hresult

/-- Whether a failure is recorded in the main consumer. -/
def DeliveryAction.isRecord : DeliveryAction → Bool
  | .consumer (.record _ _ _) => true
  | _ => false

theorem Delivery.patient_of_not_record {σ : Delivery} {a : DeliveryAction}
    (h : (!a.isRecord) = true) : σ.Patient a := by
  unfold Delivery.Patient
  split
  · cases h
  · trivial

/-- A message whose lookup times out is dead-lettered. -/
def timedOut : List DeliveryAction :=
  [.consumer (.deliver 0), .consumer (.lookup 0 (.failed "timed out")), .reject 0, .takeDlq 0]

/-- The item of a dead letter is retried. -/
def retriedOnce : List DeliveryAction := [.publishRetry 0 .served, .acknowledgeDlq 0, .expire 0]

/-- A sale times out, and again after each of its three retries. -/
def timedOutFourTimes : List DeliveryAction :=
  openingSteps ++ .submit [shopQueued shopDevice "a" [3]] ::
    (timedOut ++ retriedOnce ++ timedOut ++ retriedOnce ++ timedOut ++ retriedOnce ++ timedOut ++
      [.findFirst 0 .served, .writeTerminal 0 1 .served, .acknowledgeDlq 0])

/-- The item of a failed row was attempted four times. -/
theorem failed_after_retries_timedOutFourTimes : ∃ σ : Delivery,
    σ.db.syncQueues.rows.length = 1 ∧ σ.attempts.length = 4 ∧
      ∀ q ∈ σ.db.syncQueues.rows, q.status = .SYNC_FAILED → ∀ u, q.offlineUuid = some u →
        (∀ a ∈ σ.attempts, a.key = (q.idDevice, u) → a.result = .failed) →
          maxRetries < attemptsOn σ.attempts (q.idDevice, u) := by
  have hcheck : (Runs.runs Delivery.next (fun _ a => !a.isRecord) (.start .empty)
      timedOutFourTimes).any (fun σ => decide (σ.db.syncQueues.rows.length = 1 ∧
        σ.attempts.length = 4)) = true := by decide +kernel
  obtain ⟨σ, hrun, hstate⟩ := Runs.exists_run_of_runs hcheck
  obtain ⟨hrows, hattempts⟩ := of_decide_eq_true hstate
  exact ⟨σ, hrows, hattempts, failed_after_retries
    (hrun.weaken fun _ _ h => Delivery.patient_of_not_record h)⟩

/-- The lookup of a sale times out once. -/
def timedOutOnce : List DeliveryAction :=
  openingSteps ++ .submit [shopQueued shopDevice "a" [3]] ::
    delivered (.failed "timed out") (.record 0 1 .served)

/-- **A transient failure is recorded after one attempt.** -/
theorem failed_at_once : ¬ ∀ (us : Table User) (σ : Delivery),
    Runs.Reaches Delivery.next (.start us) σ →
      ∀ q ∈ σ.db.syncQueues.rows, q.status = .SYNC_FAILED → ∀ u, q.offlineUuid = some u →
        (∀ a ∈ σ.attempts, a.key = (q.idDevice, u) → a.result = .failed) →
          maxRetries < attemptsOn σ.attempts (q.idDevice, u) := by
  intro h
  have hcheck : (Runs.runs Delivery.next (fun _ _ => true) (.start .empty) timedOutOnce).any
      (fun σ => decide (attemptsOn σ.attempts (shopDevice, .text "a") = 1 ∧
        ∀ a ∈ σ.attempts, a.result = .failed) && σ.db.syncQueues.rows.any fun q =>
          decide (q.status = .SYNC_FAILED ∧ q.idDevice = shopDevice ∧
            q.offlineUuid = some (.text "a"))) = true := by decide +kernel
  obtain ⟨σ, hrun, hstate⟩ := Runs.exists_run_of_runs hcheck
  obtain ⟨hattempts, hrow⟩ := Bool.and_eq_true_iff.mp hstate
  obtain ⟨hone, hfailed⟩ := of_decide_eq_true hattempts
  obtain ⟨q, hq, hrow⟩ := List.any_eq_true.mp hrow
  obtain ⟨hstatus, hdev, hu⟩ := of_decide_eq_true hrow
  have hmany := h .empty σ hrun.reaches q hq hstatus _ hu fun a ha _ => hfailed a ha
  rw [hdev, hone] at hmany
  exact absurd hmany (by decide)

end KPos
