/-
# The work of the queues and the consumers (`sync-consumer.service.ts`)

How many steps the messages may take that wait or are in hand.  No consumer is lost and no
message is rejected here; lookups and sales may fail, batches arrive, and other services are
called.  As nothing is rejected, an entry that is retried does not come back, so the work of a
dead letter does not depend on its counters.

* `Delivery.work` : the steps that all messages may take;
* `Delivery.next_lowers` : each step of the queues and the consumers lowers the work;
* `Delivery.canWork` : what is not idle can go on;
* `Delivery.worksOff` : so the rules for a backlog apply.
-/
import KPos.Lib.Backlog
import KPos.Delivery

namespace KPos

open Weights

/-! ## Idle queues, and runs without losses -/

/-- Nothing waits, and no consumer is at work. -/
structure Delivery.Idle (σ : Delivery) : Prop where
  queue : σ.consumers.queue = []
  workers : σ.consumers.workers = []
  dlq : σ.dlq = []
  dlqWorkers : σ.dlqWorkers = []
  retries : σ.retries = []

instance (σ : Delivery) : Decidable σ.Idle :=
  decidable_of_iff (σ.consumers.queue = [] ∧ σ.consumers.workers = [] ∧ σ.dlq = [] ∧
    σ.dlqWorkers = [] ∧ σ.retries = [])
    ⟨fun ⟨queue, workers, dlq, dlqWorkers, retries⟩ => ⟨queue, workers, dlq, dlqWorkers, retries⟩,
      fun h => ⟨h.queue, h.workers, h.dlq, h.dlqWorkers, h.retries⟩⟩

/-- No consumer is lost and no message is rejected, and the calls that note a failure or pass an
entry on get through. -/
def DeliveryAction.isLossless : DeliveryAction → Bool
  | .consumer (.record _ _ call) | .publishRetry _ call | .writeTerminal _ _ call => call.reaches
  | .findFirst _ call =>
      match call with
      | .served => true
      | .failed _ | .lost _ => false
  | .consumer (.crash _) | .reject _ | .crashDlq _ => false
  | _ => true

/-- Whether a step is one of the queues or the consumers. -/
def DeliveryAction.isWork : DeliveryAction → Bool
  | .submit _ | .consumer (.call _) => false
  | _ => true

/-! ## The work -/

/-- The steps that a message of the main queue may take: it is delivered, each item takes three,
and it is acknowledged. -/
def messageWork (message : List QueuedTransaction) : ℕ := 3 * message.length + 2

/-- The steps that the item in hand may take from a stage on, and the acknowledgement. -/
def Stage.work : Stage → ℕ
  | .lookup => 4
  | .transact => 3
  | .record _ => 2

def Worker.work (w : Worker) : ℕ :=
  match w.rest with
  | [] => 1
  | _ :: rest => 3 * rest.length + w.stage.work

/-- The steps that a message in a retry queue may take. -/
def Retry.work (retry : Retry) : ℕ := messageWork retry.message + 1

/-- The steps that a dead letter may take: an entry that is retried takes one, and then the six of
a message with one item. -/
def deadLetterWork (message : List QueuedTransaction) : ℕ := 7 * message.length + 2

def DlqStage.work : DlqStage → ℕ
  | .entry => 8
  | .write _ => 7

def DlqWorker.work (w : DlqWorker) : ℕ :=
  match w.rest with
  | [] => 1
  | _ :: rest => 7 * rest.length + w.stage.work

def Consumers.work (σ : Consumers) : ℕ :=
  weight messageWork σ.queue + weight Worker.work σ.workers

/-- The steps that all messages may take. -/
def Delivery.work (σ : Delivery) : ℕ :=
  σ.consumers.work + weight deadLetterWork σ.dlq + weight DlqWorker.work σ.dlqWorkers +
    weight Retry.work σ.retries

/-- The steps that an arriving batch may take. -/
def DeliveryAction.brings : DeliveryAction → ℕ
  | .submit message => messageWork message
  | _ => 0

section Work

variable {w w' : Worker} {v v' : DlqWorker} {db db' : Db} {now : DateTime} {call : Call}
  {data : QueuedTransaction} {rest : List QueuedTransaction}

theorem Worker.work_cons (hrest : w.rest = data :: rest) :
    w.work = 3 * rest.length + w.stage.work := by
  unfold Worker.work
  rw [hrest]

theorem Worker.work_lookup (message rest : List QueuedTransaction) :
    Worker.work ⟨message, rest, .lookup⟩ = 3 * rest.length + 1 := by
  cases rest with
  | nil => rfl
  | cons data rest =>
    rw [Worker.work_cons rfl, List.length_cons]
    exact (Nat.add_assoc _ 3 1).symm

theorem Worker.work_advance (hrest : w.rest = data :: rest) :
    w.advance.work = 3 * rest.length + 1 := by
  unfold Worker.advance
  rw [Worker.work_lookup, hrest, List.tail_cons]

theorem Worker.work_pos (w : Worker) : 0 < w.work := by
  unfold Worker.work
  split
  · exact Nat.one_pos
  · cases w.stage <;> exact Nat.succ_pos _

theorem DlqWorker.work_cons (hrest : v.rest = data :: rest) :
    v.work = 7 * rest.length + v.stage.work := by
  unfold DlqWorker.work
  rw [hrest]

theorem DlqWorker.work_entry (message rest : List QueuedTransaction) :
    DlqWorker.work ⟨message, rest, .entry⟩ = 7 * rest.length + 1 := by
  cases rest with
  | nil => rfl
  | cons data rest =>
    rw [DlqWorker.work_cons rfl, List.length_cons]
    exact (Nat.add_assoc _ 7 1).symm

theorem DlqWorker.work_advance (hrest : v.rest = data :: rest) :
    v.advance.work = 7 * rest.length + 1 := by
  unfold DlqWorker.advance
  rw [DlqWorker.work_entry, hrest, List.tail_cons]

theorem DlqWorker.work_pos (v : DlqWorker) : 0 < v.work := by
  unfold DlqWorker.work
  split
  · exact Nat.one_pos
  · cases v.stage <;> exact Nat.succ_pos _

theorem Worker.lookup_lowers (h : w.lookup db call = some w') : w'.work < w.work := by
  unfold Worker.lookup at h
  split at h
  · rename_i data rest hstage hrest
    have hadvance := Worker.work_advance hrest
    have hwork := Worker.work_cons hrest
    rw [hstage, Stage.work] at hwork
    have hfailed : ∀ error, Worker.work { w with stage := .record error } < w.work := by
      intro error
      rw [Worker.work_cons (w := { w with stage := .record error }) hrest, Stage.work]
      omega
    split at h
    · obtain rfl := Option.some.inj h
      split
      · omega
      · rw [Worker.work_cons (w := { w with stage := .transact }) hrest, Stage.work]
        omega
    · obtain rfl := Option.some.inj h
      exact hfailed _
    · obtain rfl := Option.some.inj h
      exact hfailed _
  · cases h

theorem Worker.transact_lowers (h : w.transact db now call = some (db', w')) :
    w'.work < w.work := by
  unfold Worker.transact at h
  split at h
  · rename_i data rest hstage hrest
    have hwork := Worker.work_cons hrest
    rw [hstage, Stage.work] at hwork
    split at h
    · obtain ⟨-, rfl⟩ := Prod.mk.inj (Option.some.inj h)
      rw [Worker.work_advance hrest]
      omega
    · rename_i error _
      obtain ⟨-, rfl⟩ := Prod.mk.inj (Option.some.inj h)
      rw [Worker.work_cons (w := { w with stage := .record error }) hrest, Stage.work]
      omega
  · cases h

theorem Worker.record_lowers (h : w.record db now call = some (db', w')) :
    w'.work < w.work := by
  unfold Worker.record at h
  split at h
  · rename_i error data rest hstage hrest
    obtain ⟨-, rfl⟩ := Prod.mk.inj (Option.some.inj h)
    rw [Worker.work_advance hrest, Worker.work_cons hrest, hstage, Stage.work]
    omega
  · cases h

/-- A publication to a retry queue brings less work there than it saves. -/
theorem DlqWorker.publish_lowers {retries retries' : List Retry}
    (h : v.publish retries call = some (retries', v')) :
    weight Retry.work retries' + v'.work < weight Retry.work retries + v.work := by
  unfold DlqWorker.publish at h
  split at h
  · rename_i data rest hstage hrest
    split at h
    · obtain ⟨rfl, rfl⟩ := Prod.mk.inj (Option.some.inj h)
      have hpublished : weight Retry.work
          (publishToRetry retries [data.retried] data.attempt call)
            ≤ weight Retry.work retries + 6 := by
        unfold publishToRetry
        split
        · rw [weight_append, weight_cons, weight_nil]
          exact Nat.le_refl _
        · exact Nat.le_add_right _ _
      rw [DlqWorker.work_advance hrest, DlqWorker.work_cons hrest, hstage, DlqStage.work]
      omega
    · cases h
  · cases h

theorem DlqWorker.find_lowers (h : v.find db call = some v') : v'.work < v.work := by
  unfold DlqWorker.find at h
  split at h
  · rename_i data rest hstage hrest
    have hadvance := DlqWorker.work_advance hrest
    have hwork := DlqWorker.work_cons hrest
    rw [hstage, DlqStage.work] at hwork
    split at h
    · cases h
    · split at h
      · obtain rfl := Option.some.inj h
        rw [DlqWorker.work_cons (v := { v with stage := .write (db.findNoted data) }) hrest,
          DlqStage.work]
        omega
      · obtain rfl := Option.some.inj h
        omega
      · obtain rfl := Option.some.inj h
        omega
  · cases h

theorem DlqWorker.write_lowers (h : v.write db now call = some (db', v')) :
    v'.work < v.work := by
  unfold DlqWorker.write at h
  split at h
  · rename_i existingEntry data rest hstage hrest
    obtain ⟨-, rfl⟩ := Prod.mk.inj (Option.some.inj h)
    rw [DlqWorker.work_advance hrest, DlqWorker.work_cons hrest, hstage, DlqStage.work]
    omega
  · cases h

end Work

/-! ## What a step does to the work -/

section Lowers

variable {σ τ : Delivery} {a : DeliveryAction}

/-- A consumer acknowledges when it has finished its items. -/
theorem Consumers.next_acknowledge {σ τ : Consumers} {i : ℕ}
    (h : Consumers.next σ (.acknowledge i) = some τ) : ∃ w, σ.workers[i]? = some w ∧
      w.rest = [] ∧ τ = { σ with workers := σ.workers.eraseIdx i } := by
  obtain ⟨w, hw, h⟩ := Option.bind_eq_some_iff.mp h
  split at h
  · rename_i hempty
    exact ⟨w, hw, List.isEmpty_iff.mp hempty, (Option.some.inj h).symm⟩
  · cases h

/-- A step of the consumers of the main queue is one of `Consumers`. -/
theorem Delivery.next_consumer {c : ConsumerAction} (h : σ.next (.consumer c) = some τ) :
    c.isPublish = false ∧ ∃ d, Consumers.next σ.consumers c = some d ∧ τ = { σ with
      consumers := d, attempts := σ.attempts ++ σ.consumers.attempt d c } := by
  have h : (if c.isPublish then none else (Consumers.next σ.consumers c).map fun d =>
    { σ with consumers := d, attempts := σ.attempts ++ σ.consumers.attempt d c }) = some τ := h
  split at h
  · cases h
  · rename_i hpublish
    obtain ⟨d, hd, rfl⟩ := Option.map_eq_some_iff.mp h
    exact ⟨Bool.eq_false_of_not_eq_true hpublish, d, hd, rfl⟩

theorem Delivery.next_acknowledgeDlq {j : ℕ} (h : σ.next (.acknowledgeDlq j) = some τ) :
    ∃ w, σ.dlqWorkers[j]? = some w ∧ w.rest = [] ∧
      τ = { σ with dlqWorkers := σ.dlqWorkers.eraseIdx j } := by
  obtain ⟨w, hw, h⟩ := Option.bind_eq_some_iff.mp h
  split at h
  · rename_i hempty
    exact ⟨w, hw, List.isEmpty_iff.mp hempty, (Option.some.inj h).symm⟩
  · cases h

/-- The consumer `i` moves on. -/
theorem Consumers.put_work {σ : Consumers} {i : ℕ} {w w' : Worker} {db : Db}
    (hw : σ.workers[i]? = some w) (cs : List QueuedTransaction) (hlower : w'.work < w.work) :
    (σ.put i cs (db, w')).work < σ.work := by
  have hset := weight_set (b := w') Worker.work hw
  show weight messageWork σ.queue + weight Worker.work (σ.workers.set i w') < _
  unfold Consumers.work
  omega

theorem Consumers.next_lowers {σ τ : Consumers} {a : ConsumerAction}
    (hpublish : a.isPublish = false) (ha : (DeliveryAction.consumer a).isLossless = true)
    (h : Consumers.next σ a = some τ) :
    τ.work + (if (DeliveryAction.consumer a).isWork then 1 else 0) ≤ σ.work := by
  have hstep := Consumers.next_step h
  cases a with
  | call op =>
    obtain ⟨-⟩ := hstep
    exact Nat.le_refl _
  | publish message => cases hpublish
  | deliver i =>
    cases hstep with
    | @deliver _ message hmessage =>
      have herase := weight_eraseIdx messageWork hmessage
      have hstart : (Worker.start message).work = 3 * message.length + 1 :=
        Worker.work_lookup message message
      have hwork : messageWork message = 3 * message.length + 2 := rfl
      unfold Consumers.work
      rw [weight_append, weight_cons, weight_nil, hstart]
      simp only [DeliveryAction.isWork, if_true]
      omega
  | lookup i call =>
    cases hstep with
    | lookup hw hw' => exact Consumers.put_work hw _ (Worker.lookup_lowers hw')
  | transact i now call =>
    cases hstep with
    | transact hw hw' => exact Consumers.put_work hw _ (Worker.transact_lowers hw')
  | record i now call =>
    cases hstep with
    | record hw hw' => exact Consumers.put_work hw _ (Worker.record_lowers hw')
  | acknowledge i =>
    obtain ⟨w, hw, -, rfl⟩ := Consumers.next_acknowledge h
    have herase := weight_eraseIdx Worker.work hw
    have hpos := w.work_pos
    unfold Consumers.work
    simp only [DeliveryAction.isWork, if_true]
    omega
  | crash i => cases ha

/-- The dead-letter consumer `j` moves on. -/
theorem Delivery.setDlq_work {j : ℕ} {v v' : DlqWorker} (hv : σ.dlqWorkers[j]? = some v)
    (hlower : v'.work < v.work) : (σ.setDlq j v').work < σ.work := by
  have hset := weight_set (b := v') DlqWorker.work hv
  show σ.consumers.work + weight deadLetterWork σ.dlq +
    weight DlqWorker.work (σ.dlqWorkers.set j v') + weight Retry.work σ.retries < _
  unfold Delivery.work
  omega

/-- **A step of the queues or the consumers lowers the work**, and a batch brings its own. -/
theorem Delivery.next_lowers (ha : a.isLossless = true) (h : σ.next a = some τ) :
    τ.work + (if a.isWork then 1 else 0) ≤ σ.work + a.brings := by
  cases a with
  | submit message =>
    obtain ⟨-⟩ := Delivery.next_step h
    unfold Delivery.work Consumers.work Consumers.enqueue
    rw [weight_append, weight_cons, weight_nil]
    simp only [DeliveryAction.isWork, DeliveryAction.brings, Bool.false_eq_true, if_false]
    omega
  | consumer c =>
    obtain ⟨hpublish, d, hd, rfl⟩ := Delivery.next_consumer h
    have hlower := Consumers.next_lowers hpublish ha hd
    unfold Delivery.work
    dsimp only
    omega
  | reject i => cases ha
  | takeDlq i =>
    cases Delivery.next_step h with
    | @takeDlq _ message hmessage =>
      have herase := weight_eraseIdx deadLetterWork hmessage
      have hwork : deadLetterWork message = 7 * message.length + 2 := rfl
      have hfilter := List.length_filter_le
        (fun t : QueuedTransaction => t.offlineUuid.truthy && t.idDevice.truthy) message
      have hstart := DlqWorker.work_entry message
        (message.filter fun t => t.offlineUuid.truthy && t.idDevice.truthy)
      unfold Delivery.work
      rw [weight_append, weight_cons, weight_nil]
      unfold DlqWorker.start
      rw [hstart]
      simp only [DeliveryAction.isWork, if_true]
      omega
  | publishRetry j call =>
    cases Delivery.next_step h with
    | @publishRetry _ _ v v' retries hv hv' =>
      have hset := weight_set (b := v') DlqWorker.work hv
      have hlower := DlqWorker.publish_lowers hv'
      show σ.consumers.work + weight deadLetterWork σ.dlq +
        weight DlqWorker.work (σ.dlqWorkers.set j v') + weight Retry.work retries + 1 ≤ _
      unfold Delivery.work
      omega
  | findFirst j call =>
    cases Delivery.next_step h with
    | findFirst hv hv' => exact Delivery.setDlq_work hv (DlqWorker.find_lowers hv')
  | writeTerminal j now call =>
    cases Delivery.next_step h with
    | writeTerminal hv hv' => exact Delivery.setDlq_work hv (DlqWorker.write_lowers hv')
  | acknowledgeDlq j =>
    obtain ⟨v, hv, -, rfl⟩ := Delivery.next_acknowledgeDlq h
    have herase := weight_eraseIdx DlqWorker.work hv
    have hpos := v.work_pos
    unfold Delivery.work
    simp only [DeliveryAction.isWork, if_true]
    omega
  | crashDlq j => cases ha
  | expire r =>
    cases Delivery.next_step h with
    | @expire _ retry hretry =>
      have herase := weight_eraseIdx Retry.work hretry
      have hwork : retry.work = messageWork retry.message + 1 := rfl
      unfold Delivery.work Consumers.work Consumers.enqueue
      rw [weight_append, weight_cons, weight_nil]
      simp only [DeliveryAction.isWork, if_true]
      omega

end Lowers

/-! ## What can be done -/

section Progress

variable {σ : Delivery}

/-- A step that works is possible. -/
def Delivery.CanWork (σ : Delivery) : Prop :=
  ∃ a τ, a.isLossless = true ∧ σ.next a = some τ ∧ a.isWork = true ∧ a.brings = 0

theorem Delivery.canWork_of_isSome {a : DeliveryAction} (hlossless : a.isLossless = true)
    (hwork : a.isWork = true) (hbrings : a.brings = 0) (ha : (σ.next a).isSome = true) :
    σ.CanWork := by
  obtain ⟨τ, hτ⟩ := Option.isSome_iff_exists.mp ha
  exact ⟨a, τ, hlossless, hτ, hwork, hbrings⟩

theorem Delivery.canWork_consumer {c : ConsumerAction} (hpublish : c.isPublish = false)
    (hlossless : (DeliveryAction.consumer c).isLossless = true)
    (hwork : (DeliveryAction.consumer c).isWork = true)
    (hc : (Consumers.next σ.consumers c).isSome = true) : σ.CanWork := by
  refine Delivery.canWork_of_isSome (a := .consumer c) hlossless hwork rfl ?_
  rw [Delivery.next, hpublish, if_neg Bool.false_ne_true, Option.isSome_map]
  exact hc

/-- A consumer of the main queue can always go on. -/
theorem Delivery.canWork_worker {i : ℕ} {w : Worker} (hw : σ.consumers.workers[i]? = some w) :
    σ.CanWork := by
  obtain ⟨message, rest, stage⟩ := w
  cases rest with
  | nil =>
    refine Delivery.canWork_consumer (c := .acknowledge i) rfl rfl rfl ?_
    rw [Consumers.next, hw]
    rfl
  | cons data rest =>
    cases stage with
    | lookup =>
      refine Delivery.canWork_consumer (c := .lookup i .served) rfl rfl rfl ?_
      rw [Consumers.next, hw]
      rfl
    | transact =>
      refine Delivery.canWork_consumer (c := .transact i 0 .served) rfl rfl rfl ?_
      rw [Consumers.next, hw, Option.bind_some, Option.isSome_map, Worker.transact]
      dsimp only
      split <;> rfl
    | record error =>
      refine Delivery.canWork_consumer (c := .record i 0 .served) rfl rfl rfl ?_
      rw [Consumers.next, hw]
      rfl

/-- A dead-letter consumer can always go on. -/
theorem Delivery.canWork_dlqWorker {j : ℕ} {v : DlqWorker} (hv : σ.dlqWorkers[j]? = some v) :
    σ.CanWork := by
  obtain ⟨message, rest, stage⟩ := v
  cases rest with
  | nil =>
    refine Delivery.canWork_of_isSome (a := .acknowledgeDlq j) rfl rfl rfl ?_
    rw [Delivery.next, hv]
    rfl
  | cons data rest =>
    cases stage with
    | entry =>
      by_cases hattempt : data.attempt ≤ maxRetries
      · refine Delivery.canWork_of_isSome (a := .publishRetry j .served) rfl rfl rfl ?_
        rw [Delivery.next, hv, Option.bind_some, DlqWorker.publish]
        dsimp only
        rw [if_pos hattempt]
        rfl
      · refine Delivery.canWork_of_isSome (a := .findFirst j .served) rfl rfl rfl ?_
        rw [Delivery.next, hv, Option.bind_some, DlqWorker.find]
        dsimp only
        rw [if_neg hattempt]
        rfl
    | write existingEntry =>
      refine Delivery.canWork_of_isSome (a := .writeTerminal j 0 .served) rfl rfl rfl ?_
      rw [Delivery.next, hv]
      rfl

/-- **What is not idle can go on.** -/
theorem Delivery.canWork (h : ¬ σ.Idle) : σ.CanWork := by
  cases hqueue : σ.consumers.queue with
  | cons message queue =>
    refine Delivery.canWork_consumer (c := .deliver 0) rfl rfl rfl ?_
    rw [Consumers.next, hqueue]
    rfl
  | nil =>
    cases hworkers : σ.consumers.workers with
    | cons w workers =>
      exact Delivery.canWork_worker (i := 0) (congrArg (·[0]?) hworkers)
    | nil =>
      cases hdlq : σ.dlq with
      | cons message dlq =>
        refine Delivery.canWork_of_isSome (a := .takeDlq 0) rfl rfl rfl ?_
        rw [Delivery.next, hdlq]
        rfl
      | nil =>
        cases hdlqWorkers : σ.dlqWorkers with
        | cons v dlqWorkers =>
          exact Delivery.canWork_dlqWorker (j := 0) (congrArg (·[0]?) hdlqWorkers)
        | nil =>
          cases hretries : σ.retries with
          | cons retry retries =>
            refine Delivery.canWork_of_isSome (a := .expire 0) rfl rfl rfl ?_
            rw [Delivery.next, hretries]
            rfl
          | nil => exact absurd ⟨hqueue, hworkers, hdlq, hdlqWorkers, hretries⟩ h

end Progress

/-- **The queues and the consumers work off what is outstanding.** -/
theorem Delivery.worksOff : Runs.WorksOff Delivery.next (fun _ a => a.isLossless = true)
    Delivery.Idle Delivery.work DeliveryAction.isWork DeliveryAction.brings where
  lowers := fun _ _ _ => Delivery.next_lowers
  progress := fun _ => Delivery.canWork

end KPos
