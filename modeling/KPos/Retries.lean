/-
# The cycle of retries (`sync-consumer.service.ts`, `sync-producer.service.ts`)

A transaction that is dead-lettered again and again goes round from the dead-letter queue
through a retry queue to the main queue and back, with its counter in the message.  Here every
publication succeeds and messages stay as they are on their way; how the queues take their
turns, and whether the main consumer gets a message done, is left open.

* `Copy.route` : what `handleDlqMessage` does with one transaction;
* `handleDlqMessage_as_steps` : it does so with each transaction of a message;
* `RetryCycle.next_lowers` : every step lowers the measure;
* `bounded_retries` : at most `MAX_RETRIES` rounds, in the order of the queues.
-/
import KPos.Lib.Weights
import KPos.DeadLetters

namespace KPos

/-! ## Copies and their routes -/

/-- A transaction of a message: its place in the first dead letter, its body, and the retry
queues it was published to, each with the attempt. -/
structure Copy where
  origin : ℕ
  data : QueuedTransaction
  history : List (RetryQueue × ℕ)

/-- The retry queue for a copy and the copy as it is published there, unless its failure is
terminal. -/
def Copy.route (c : Copy) : Option (RetryQueue × Copy) :=
  let attempt := c.data.attempt
  if attempt ≤ maxRetries then
    some (retryQueue attempt,
      { c with data := c.data.retried, history := c.history ++ [(retryQueue attempt, attempt)] })
  else none

/-- `handleDlqMessage` sends a copy its route, or records its terminal failure. -/
theorem handleDlqEntry_route (s : DlqEffects) (c : Copy) {outcome : DlqOutcome}
    (hpublish : outcome.publish.reaches = true) :
    handleDlqEntry s c.data outcome = match c.route with
      | some (queue, c') => { s with retries := s.retries ++ [⟨queue, [c'.data]⟩] }
      | none => { s with db := recordTerminalFailure s.db c.data outcome } := by
  unfold handleDlqEntry Copy.route publishToRetry
  rw [hpublish]
  dsimp only
  split
  · rfl
  · rfl

/-! ## The cycle -/

/-- Where a message is: in a queue, or at the dead-letter consumer. -/
inductive Place where
  | main
  | retry (queue : RetryQueue)
  | dlq
  | handling
  deriving DecidableEq

/-- The messages, and the copies that went to `recordTerminalFailure`. -/
structure RetryCycle where
  messages : List (Place × List Copy)
  terminal : List Copy

inductive RetryAction where
  /-- The dead-letter consumer takes a message and selects the valid entries. -/
  | take (i : ℕ)
  /-- It handles the first of the entries left. -/
  | handle (i : ℕ)
  /-- It acknowledges a message without entries left. -/
  | acknowledge (i : ℕ)
  /-- The time of a message in a retry queue is up. -/
  | expire (i : ℕ)
  /-- The main consumer acknowledges a message. -/
  | consume (i : ℕ)
  /-- A message of the main queue is dead-lettered. -/
  | deadLetter (i : ℕ)

/-- A dead letter with the transactions of a payload. -/
def RetryCycle.start (payload : List QueuedTransaction) : RetryCycle where
  messages := [(.dlq, payload.zipIdx.map fun t => ⟨t.2, t.1, []⟩)]
  terminal := []

/-- The condition of `validTransactions`. -/
def Copy.valid (c : Copy) : Bool := c.data.offlineUuid.truthy && c.data.idDevice.truthy

/-- The message `i` is now `m`, at the place `p`. -/
def RetryCycle.move (σ : RetryCycle) (i : ℕ) (p : Place) (m : List Copy) : RetryCycle :=
  { σ with messages := σ.messages.set i (p, m) }

/-- The message `i` is gone. -/
def RetryCycle.drop (σ : RetryCycle) (i : ℕ) : RetryCycle :=
  { σ with messages := σ.messages.eraseIdx i }

/-- A copy is published to its retry queue, or its failure is terminal. -/
def RetryCycle.send (σ : RetryCycle) (c : Copy) (route : Option (RetryQueue × Copy)) :
    RetryCycle :=
  match route with
  | some (queue, c') => { σ with messages := σ.messages ++ [(.retry queue, [c'])] }
  | none => { σ with terminal := σ.terminal ++ [c] }

def RetryCycle.next (σ : RetryCycle) : RetryAction → Option RetryCycle
  | .take i =>
      match σ.messages[i]? with
      | some (.dlq, m) => some (σ.move i .handling (m.filter (·.valid)))
      | _ => none
  | .handle i =>
      match σ.messages[i]? with
      | some (.handling, c :: rest) => some ((σ.move i .handling rest).send c c.route)
      | _ => none
  | .acknowledge i =>
      match σ.messages[i]? with
      | some (.handling, []) => some (σ.drop i)
      | _ => none
  | .expire i =>
      match σ.messages[i]? with
      | some (.retry _, m) => some (σ.move i .main m)
      | _ => none
  | .consume i =>
      match σ.messages[i]? with
      | some (.main, _) => some (σ.drop i)
      | _ => none
  | .deadLetter i =>
      match σ.messages[i]? with
      | some (.main, m) => some (σ.move i .dlq m)
      | _ => none

/-! ## The cycle and the code -/

section Code

variable {σ : RetryCycle} {i : ℕ}

theorem RetryCycle.next_take {m : List Copy} (h : σ.messages[i]? = some (.dlq, m)) :
    σ.next (.take i) = some (σ.move i .handling (m.filter (·.valid))) := by
  simp only [RetryCycle.next, h]

theorem RetryCycle.next_handle {c : Copy} {rest : List Copy}
    (h : σ.messages[i]? = some (.handling, c :: rest)) :
    σ.next (.handle i) = some ((σ.move i .handling rest).send c c.route) := by
  simp only [RetryCycle.next, h]

theorem RetryCycle.getElem?_move {m : Place × List Copy} (h : σ.messages[i]? = some m)
    (p : Place) (l : List Copy) : (σ.move i p l).messages[i]? = some (p, l) := by
  have hi : i < σ.messages.length := (List.getElem?_eq_some_iff.mp h).1
  exact List.getElem?_set_self hi

/-- The cycle with the message `i` handled, the routes `sent` and the copies `ended`. -/
def RetryCycle.handled (σ : RetryCycle) (i : ℕ) (sent : List (RetryQueue × Copy))
    (ended : List Copy) : RetryCycle where
  messages := σ.messages.set i (.handling, []) ++ sent.map fun r => (.retry r.1, [r.2])
  terminal := σ.terminal ++ ended

theorem RetryCycle.handled_send {m : Place × List Copy} (h : σ.messages[i]? = some m)
    (l : List Copy) (c : Copy) (sent : List (RetryQueue × Copy)) (ended : List Copy) :
    ((σ.move i .handling l).send c c.route).handled i sent ended
      = σ.handled i (c.route.toList ++ sent) (if c.route.isNone then c :: ended else ended) := by
  have hi : i < σ.messages.length := (List.getElem?_eq_some_iff.mp h).1
  unfold RetryCycle.handled RetryCycle.send RetryCycle.move
  cases c.route with
  | none => simp
  | some r =>
    obtain ⟨queue, c'⟩ := r
    have hi' : i < (σ.messages.set i (Place.handling, l)).length := by
      rw [List.length_set]
      exact hi
    simp [List.set_append_left _ _ hi']

/-- The loop over the valid entries, one step for each. -/
theorem handleEntries_as_steps (l : List (Copy × DlqOutcome))
    (hm : σ.messages[i]? = some (.handling, l.map (·.1)))
    (hpublish : ∀ e ∈ l, e.2.publish.reaches = true) (s : DlqEffects) :
    ∃ sent ended, Runs.Reaches RetryCycle.next σ (σ.handled i sent ended) ∧
      (l.foldl (fun s e => handleDlqEntry s e.1.data e.2) s).retries
        = s.retries ++ sent.map fun r => ⟨r.1, [r.2.data]⟩ := by
  induction l generalizing σ s with
  | nil =>
    refine ⟨[], [], ?_, (List.append_nil _).symm⟩
    obtain ⟨hi, hget⟩ := List.getElem?_eq_some_iff.mp hm
    have hset : σ.messages.set i (.handling, []) = σ.messages := by
      have hself : σ.messages[i] = (Place.handling, []) := hget
      rw [← hself]
      exact List.set_getElem_self hi
    have hsame : σ.handled i [] [] = σ := by
      unfold RetryCycle.handled
      rw [hset, List.map_nil, List.append_nil, List.append_nil]
    rw [hsame]
    exact .refl σ
  | cons e l ih =>
    let τ := (σ.move i .handling (l.map (·.1))).send e.1 e.1.route
    have hstep : σ.next (.handle i) = some τ := RetryCycle.next_handle hm
    have hτ : τ.messages[i]? = some (.handling, l.map (·.1)) := by
      have hmoved := RetryCycle.getElem?_move hm .handling (l.map (·.1))
      show (RetryCycle.send _ e.1 e.1.route).messages[i]? = _
      unfold RetryCycle.send
      split
      · have hi := (List.getElem?_eq_some_iff.mp hmoved).1
        dsimp only
        rw [List.getElem?_append_left hi]
        exact hmoved
      · exact hmoved
    obtain ⟨sent, ended, hreach, hretries⟩ := ih hτ
      (fun x hx => hpublish x (List.mem_cons_of_mem e hx)) (handleDlqEntry s e.1.data e.2)
    refine ⟨e.1.route.toList ++ sent, if e.1.route.isNone then e.1 :: ended else ended, ?_, ?_⟩
    · rw [← RetryCycle.handled_send hm (l.map (·.1)) e.1 sent ended]
      exact ((Runs.Reaches.refl σ).step hstep).trans hreach
    · rw [List.foldl_cons, hretries, handleDlqEntry_route s e.1 (hpublish e List.mem_cons_self)]
      cases e.1.route with
      | none => rfl
      | some r => simp

/-- The valid entries of a message are its valid copies. -/
theorem validTransactions_copies (l : List (Copy × DlqOutcome)) :
    validTransactions (l.map fun e => (some e.1.data, e.2))
      = (l.filter (·.1.valid)).map fun e => (e.1.data, e.2) := by
  unfold validTransactions
  induction l with
  | nil => rfl
  | cons e l ih =>
    rw [List.map_cons, List.filterMap_cons, List.filter_cons, ih]
    unfold Copy.valid
    dsimp only [Option.bind_some]
    split <;> rename_i heq
    · split at heq
      · cases heq
      · rename_i hno
        rw [if_neg hno]
    · split at heq
      · rename_i hyes
        obtain rfl := Option.some.inj heq
        rw [if_pos hyes, List.map_cons]
      · cases heq

/-- **The cycle handles a dead letter as `handleDlqMessage` does.** -/
theorem handleDlqMessage_as_steps (db : Db) (l : List (Copy × DlqOutcome))
    (hm : σ.messages[i]? = some (.dlq, l.map (·.1)))
    (hpublish : ∀ e ∈ l, e.2.publish.reaches = true) :
    ∃ sent ended, Runs.Reaches RetryCycle.next σ (σ.handled i sent ended) ∧
      (handleDlqMessage db (some (l.map fun e => (some e.1.data, e.2)))).retries
        = sent.map fun r => ⟨r.1, [r.2.data]⟩ := by
  have hvalid : (l.map (·.1)).filter (·.valid) = (l.filter (·.1.valid)).map (·.1) := by
    rw [List.filter_map]
    rfl
  have htake := RetryCycle.next_take hm
  rw [hvalid] at htake
  obtain ⟨sent, ended, hreach, hretries⟩ := handleEntries_as_steps (l.filter (·.1.valid))
    (RetryCycle.getElem?_move hm _ _)
    (fun e he => hpublish e (List.mem_of_mem_filter he)) ⟨db, []⟩
  refine ⟨sent, ended, ?_, ?_⟩
  · have hsame : (σ.move i .handling ((l.filter (·.1.valid)).map (·.1))).handled i sent ended
        = σ.handled i sent ended := by
      unfold RetryCycle.handled RetryCycle.move
      rw [List.set_set]
    rw [← hsame]
    exact ((Runs.Reaches.refl σ).step htake).trans hreach
  · unfold handleDlqMessage
    dsimp only
    rw [validTransactions_copies, List.foldl_map]
    exact hretries

end Code

/-! ## What a step can do -/

/-- What happens to the message `i`. -/
inductive RetryCycle.Step (σ : RetryCycle) (i : ℕ) : RetryCycle → Prop
  | take {m : List Copy} (h : σ.messages[i]? = some (.dlq, m)) :
      Step σ i (σ.move i .handling (m.filter (·.valid)))
  | handle {c : Copy} {rest : List Copy} (h : σ.messages[i]? = some (.handling, c :: rest)) :
      Step σ i ((σ.move i .handling rest).send c c.route)
  | gone {p : Place} {m : List Copy} (h : σ.messages[i]? = some (p, m)) : Step σ i (σ.drop i)
  | expire {queue : RetryQueue} {m : List Copy} (h : σ.messages[i]? = some (.retry queue, m)) :
      Step σ i (σ.move i .main m)
  | deadLetter {m : List Copy} (h : σ.messages[i]? = some (.main, m)) :
      Step σ i (σ.move i .dlq m)

/-- **What a step can do.** -/
theorem RetryCycle.next_step {σ τ : RetryCycle} {a : RetryAction} (h : σ.next a = some τ) :
    ∃ i, RetryCycle.Step σ i τ := by
  unfold RetryCycle.next at h
  cases a with
  | take i =>
    dsimp only at h
    split at h
    · rename_i m hm
      obtain rfl := Option.some.inj h
      exact ⟨i, .take hm⟩
    · cases h
  | handle i =>
    dsimp only at h
    split at h
    · rename_i c rest hm
      obtain rfl := Option.some.inj h
      exact ⟨i, .handle hm⟩
    · cases h
  | acknowledge i =>
    dsimp only at h
    split at h
    · rename_i hm
      obtain rfl := Option.some.inj h
      exact ⟨i, .gone hm⟩
    · cases h
  | expire i =>
    dsimp only at h
    split at h
    · rename_i queue m hm
      obtain rfl := Option.some.inj h
      exact ⟨i, .expire hm⟩
    · cases h
  | consume i =>
    dsimp only at h
    split at h
    · rename_i m hm
      obtain rfl := Option.some.inj h
      exact ⟨i, .gone hm⟩
    · cases h
  | deadLetter i =>
    dsimp only at h
    split at h
    · rename_i m hm
      obtain rfl := Option.some.inj h
      exact ⟨i, .deadLetter hm⟩
    · cases h

/-! ## The measure -/

/-- The steps that a message has at most before it is handled, or is at the next place. -/
def Place.ahead : Place → ℕ
  | .retry _ => 4
  | .main => 3
  | .dlq => 2
  | .handling => 1

/-- Five steps for every round that is left, and one for the end. -/
def Copy.fuel (c : Copy) : ℕ := 5 * (maxRetries + 1 - c.data.retryAttempt.getD 0) + 1

/-- What a message may still do. -/
def messageFuel (m : Place × List Copy) : ℕ := m.1.ahead + weight Copy.fuel m.2

/-- What the cycle may still do. -/
def RetryCycle.fuel (σ : RetryCycle) : ℕ := weight messageFuel σ.messages

section Measure

open Weights

variable {σ τ : RetryCycle}

/-- A retry uses up one round. -/
theorem Copy.route_fuel {c c' : Copy} {queue : RetryQueue} (h : c.route = some (queue, c')) :
    c'.fuel + 5 = c.fuel := by
  unfold Copy.route at h
  dsimp only at h
  split at h
  · rename_i hle
    obtain ⟨-, rfl⟩ := Prod.mk.inj (Option.some.inj h)
    unfold Copy.fuel QueuedTransaction.retried
    unfold QueuedTransaction.attempt at hle ⊢
    dsimp only [Option.getD_some]
    omega
  · cases h

/-- **Every step lowers the measure.** -/
theorem RetryCycle.next_lowers {a : RetryAction} (h : σ.next a = some τ) : τ.fuel < σ.fuel := by
  obtain ⟨i, hstep⟩ := RetryCycle.next_step h
  unfold RetryCycle.fuel
  cases hstep with
  | @take m hm =>
    have hset := weight_set (b := (Place.handling, m.filter (·.valid))) messageFuel hm
    have hfilter := weight_filter_le Copy.fuel (·.valid) m
    unfold RetryCycle.move
    simp only [messageFuel, Place.ahead] at hset ⊢
    omega
  | @handle c rest hm =>
    have hset := weight_set (b := (Place.handling, rest)) messageFuel hm
    unfold RetryCycle.send RetryCycle.move
    cases hroute : c.route with
    | none =>
      have hfuel : 0 < c.fuel := Nat.succ_pos _
      simp only [messageFuel, Place.ahead, weight_cons] at hset ⊢
      omega
    | some r =>
      obtain ⟨queue, c'⟩ := r
      have hfuel := Copy.route_fuel hroute
      simp only [messageFuel, Place.ahead, weight_cons, weight_append, weight_nil] at hset ⊢
      omega
  | @gone p m hm =>
    have hdrop := weight_eraseIdx messageFuel hm
    have hpos : 0 < messageFuel (p, m) := by
      unfold messageFuel
      cases p <;> simp only [Place.ahead] <;> omega
    unfold RetryCycle.drop
    dsimp only
    omega
  | @expire queue m hm =>
    have hset := weight_set (b := (Place.main, m)) messageFuel hm
    unfold RetryCycle.move
    simp only [messageFuel, Place.ahead] at hset ⊢
    omega
  | @deadLetter m hm =>
    have hset := weight_set (b := (Place.dlq, m)) messageFuel hm
    unfold RetryCycle.move
    simp only [messageFuel, Place.ahead] at hset ⊢
    omega

end Measure

/-! ## The order of the queues -/

/-- The retry queues in their order, with the attempts. -/
def schedule : List (RetryQueue × ℕ) := [(.retry5s, 1), (.retry30s, 2), (.retry120s, 3)]

/-- A copy that has been through the first queues of the schedule, as its counter says. -/
structure Copy.OnSchedule (c : Copy) : Prop where
  rounds : c.data.retryAttempt.getD 0 ≤ maxRetries
  history : c.history = schedule.take (c.data.retryAttempt.getD 0)

/-- What the schedule says of a copy: its next queue, or its terminal failure. -/
def Copy.scheduled (c : Copy) : Option (RetryQueue × Copy) :=
  schedule[c.history.length]?.map fun (queue, attempt) => (queue,
    { c with
      data := { c.data with retryAttempt := some attempt }
      history := c.history ++ [(queue, attempt)] })

theorem schedule_getElem? (k : ℕ) : schedule[k]? =
    if k + 1 ≤ maxRetries then some (retryQueue (k + 1), k + 1) else none := by
  unfold maxRetries
  match k with
  | 0 => rfl
  | 1 => rfl
  | 2 => rfl
  | k + 3 =>
    rw [if_neg (by omega)]
    rfl

section Schedule

variable {c c' : Copy} {queue : RetryQueue}

theorem Copy.OnSchedule.length (h : c.OnSchedule) :
    c.history.length = c.data.retryAttempt.getD 0 := by
  have hrounds := h.rounds
  have hlength : schedule.length = maxRetries := rfl
  rw [h.history, List.length_take]
  omega

/-- **A copy on schedule does what the schedule says.** -/
theorem Copy.OnSchedule.route_eq (h : c.OnSchedule) : c.route = c.scheduled := by
  unfold Copy.route Copy.scheduled
  rw [h.length, schedule_getElem?]
  unfold QueuedTransaction.retried QueuedTransaction.attempt
  dsimp only
  split
  · rfl
  · rfl

/-- A copy that is retried stays on schedule. -/
theorem Copy.OnSchedule.route (h : c.OnSchedule) (hroute : c.route = some (queue, c')) :
    c'.OnSchedule := by
  unfold Copy.route at hroute
  dsimp only at hroute
  split at hroute
  · rename_i hle
    obtain ⟨-, rfl⟩ := Prod.mk.inj (Option.some.inj hroute)
    refine ⟨hle, ?_⟩
    have hnext := schedule_getElem? (c.data.retryAttempt.getD 0)
    unfold QueuedTransaction.attempt at hle
    rw [if_pos hle] at hnext
    show c.history ++ _ = schedule.take (c.data.retryAttempt.getD 0 + 1)
    rw [List.take_add_one, hnext, h.history]
    rfl
  · cases hroute

/-- A copy whose failure is terminal has been through all queues. -/
theorem Copy.OnSchedule.terminal (h : c.OnSchedule) (hroute : c.route = none) :
    c.history = schedule := by
  have hrounds := h.rounds
  unfold Copy.route QueuedTransaction.attempt at hroute
  dsimp only at hroute
  split at hroute
  · cases hroute
  · rename_i hlt
    have hall : c.data.retryAttempt.getD 0 = schedule.length := by
      show _ = maxRetries
      omega
    rw [h.history, hall, List.take_length]

end Schedule

/-! ## Where the copies are -/

/-- How many copies of the transaction `o` there are. -/
def copiesOf (o : ℕ) (m : List Copy) : ℕ := weight (fun c => if c.origin = o then 1 else 0) m

/-- How many copies of the transaction `o` there are, in messages and after their end. -/
def RetryCycle.copiesOf (σ : RetryCycle) (o : ℕ) : ℕ :=
  weight (fun m => KPos.copiesOf o m.2) σ.messages + KPos.copiesOf o σ.terminal

/-- Copies are on schedule, those in a retry queue alone in their message; those at their end
have been through all queues; and there is no more than one copy of a transaction. -/
structure RetryCycle.Safe (σ : RetryCycle) : Prop where
  messages : ∀ m ∈ σ.messages, ∀ c ∈ m.2, c.OnSchedule
  retries : ∀ queue m, (Place.retry queue, m) ∈ σ.messages →
    ∃ c, m = [c] ∧ c.history.getLast?.map (·.1) = some queue
  terminal : ∀ c ∈ σ.terminal, c.history = schedule
  once : ∀ o, σ.copiesOf o ≤ 1

section Safe

open Weights

variable {σ τ : RetryCycle}

/-- **A step makes no second copy** of a transaction. -/
theorem RetryCycle.Step.copiesOf_le {i : ℕ} (h : RetryCycle.Step σ i τ) (o : ℕ) :
    τ.copiesOf o ≤ σ.copiesOf o := by
  unfold RetryCycle.copiesOf
  let w : Place × List Copy → ℕ := fun m => KPos.copiesOf o m.2
  cases h with
  | @take m hm =>
    have hset := weight_set (b := (Place.handling, m.filter (·.valid))) w hm
    have hfilter : KPos.copiesOf o (m.filter (·.valid)) ≤ KPos.copiesOf o m :=
      weight_filter_le _ _ m
    unfold RetryCycle.move
    simp only [w] at hset ⊢
    omega
  | @handle c rest hm =>
    have hset := weight_set (b := (Place.handling, rest)) w hm
    have hsplit : KPos.copiesOf o (c :: rest) = KPos.copiesOf o [c] + KPos.copiesOf o rest :=
      weight_append _ [c] rest
    unfold RetryCycle.send RetryCycle.move
    cases hroute : c.route with
    | none =>
      have happend : KPos.copiesOf o (σ.terminal ++ [c])
          = KPos.copiesOf o σ.terminal + KPos.copiesOf o [c] := weight_append _ _ _
      simp only [w] at hset ⊢
      omega
    | some r =>
      obtain ⟨queue, c'⟩ := r
      have horigin : KPos.copiesOf o [c'] = KPos.copiesOf o [c] := by
        have heq : c'.origin = c.origin := by
          unfold Copy.route at hroute
          dsimp only at hroute
          split at hroute
          · obtain ⟨-, rfl⟩ := Prod.mk.inj (Option.some.inj hroute)
            rfl
          · cases hroute
        unfold KPos.copiesOf
        simp only [weight_cons, heq]
      simp only [w, weight_append, weight_cons, weight_nil] at hset ⊢
      omega
  | @gone p m hm =>
    have hdrop := weight_eraseIdx w hm
    unfold RetryCycle.drop
    simp only [w] at hdrop ⊢
    omega
  | @expire queue m hm =>
    have hset := weight_set (b := (Place.main, m)) w hm
    unfold RetryCycle.move
    simp only [w] at hset ⊢
    omega
  | @deadLetter m hm =>
    have hset := weight_set (b := (Place.dlq, m)) w hm
    unfold RetryCycle.move
    simp only [w] at hset ⊢
    omega

/-- A copy that is retried was published to its retry queue last. -/
theorem Copy.route_last {c c' : Copy} {queue : RetryQueue} (h : c.route = some (queue, c')) :
    c'.history.getLast?.map (·.1) = some queue := by
  unfold Copy.route at h
  dsimp only at h
  split at h
  · obtain ⟨rfl, rfl⟩ := Prod.mk.inj (Option.some.inj h)
    dsimp only
    rw [List.getLast?_concat]
    rfl
  · cases h

/-- A message that is moved, and not into a retry queue. -/
theorem RetryCycle.Safe.move (hσ : σ.Safe) {i : ℕ} {p : Place} {m : List Copy}
    (hp : ∀ queue, p ≠ .retry queue) (hm : ∀ c ∈ m, c.OnSchedule)
    (honce : ∀ o, (σ.move i p m).copiesOf o ≤ σ.copiesOf o) : (σ.move i p m).Safe where
  messages := by
    intro m' hm'
    rcases List.mem_or_eq_of_mem_set hm' with hm' | rfl
    · exact hσ.messages m' hm'
    · exact hm
  retries := by
    intro queue m' hm'
    rcases List.mem_or_eq_of_mem_set hm' with hm' | heq
    · exact hσ.retries queue m' hm'
    · exact absurd (Prod.mk.inj heq).1.symm (hp queue)
  terminal := hσ.terminal
  once := fun o => (honce o).trans (hσ.once o)

/-- **Every step keeps the cycle safe.** -/
theorem RetryCycle.Safe.step (hσ : σ.Safe) {i : ℕ} (h : RetryCycle.Step σ i τ) : τ.Safe := by
  have honce : ∀ o, τ.copiesOf o ≤ 1 := fun o => (h.copiesOf_le o).trans (hσ.once o)
  have hle := h.copiesOf_le
  have hmem : ∀ {m}, σ.messages[i]? = some m → m ∈ σ.messages := List.mem_of_getElem?
  cases h with
  | @take m hm =>
    apply hσ.move (by simp) _ hle
    exact fun c hc => hσ.messages _ (hmem hm) c (List.mem_of_mem_filter hc)
  | @handle c rest hm =>
    have hall := hσ.messages _ (hmem hm)
    have hc := hall c List.mem_cons_self
    have hold : ∀ m ∈ σ.messages.set i (Place.handling, rest), ∀ c ∈ m.2, c.OnSchedule := by
      intro m' hm' d hd
      rcases List.mem_or_eq_of_mem_set hm' with hm' | rfl
      · exact hσ.messages m' hm' d hd
      · exact hall d (List.mem_cons_of_mem _ hd)
    have hretries : ∀ queue m, (Place.retry queue, m) ∈ σ.messages.set i (Place.handling, rest) →
        ∃ d, m = [d] ∧ d.history.getLast?.map (·.1) = some queue := by
      intro queue m' hm'
      rcases List.mem_or_eq_of_mem_set hm' with hm' | heq
      · exact hσ.retries queue m' hm'
      · cases heq
    unfold RetryCycle.send RetryCycle.move at honce ⊢
    cases hroute : c.route with
    | none =>
      rw [hroute] at honce
      refine ⟨hold, hretries, fun d hd => ?_, honce⟩
      rcases List.mem_append.mp hd with hd | hd
      · exact hσ.terminal d hd
      · rw [List.mem_singleton.mp hd]
        exact hc.terminal hroute
    | some r =>
      obtain ⟨queue, c'⟩ := r
      rw [hroute] at honce
      refine ⟨fun m' hm' => ?_, fun q m' hm' => ?_, hσ.terminal, honce⟩
      · rcases List.mem_append.mp hm' with hm' | hm'
        · exact hold m' hm'
        · rw [List.mem_singleton.mp hm']
          intro d hd
          rw [List.mem_singleton.mp hd]
          exact hc.route hroute
      · rcases List.mem_append.mp hm' with hm' | hm'
        · exact hretries q m' hm'
        · obtain ⟨hq, rfl⟩ := Prod.mk.inj (List.mem_singleton.mp hm')
          obtain rfl := Place.retry.inj hq
          exact ⟨c', rfl, Copy.route_last hroute⟩
  | @gone p m hm =>
    refine ⟨fun m' hm' => ?_, fun queue m' hm' => ?_, hσ.terminal, honce⟩
    · exact hσ.messages m' (List.mem_of_mem_eraseIdx hm')
    · exact hσ.retries queue m' (List.mem_of_mem_eraseIdx hm')
  | @expire queue m hm => exact hσ.move (by simp) (hσ.messages _ (hmem hm)) hle
  | @deadLetter m hm => exact hσ.move (by simp) (hσ.messages _ (hmem hm)) hle

/-- The copies of a dead letter have different places. -/
theorem copiesOf_start_le (payload : List QueuedTransaction) (n o : ℕ) :
    copiesOf o ((payload.zipIdx n).map fun t => ⟨t.2, t.1, []⟩) ≤ if n ≤ o then 1 else 0 := by
  unfold copiesOf
  induction payload generalizing n with
  | nil => exact Nat.zero_le _
  | cons t payload ih =>
    have htail := ih (n + 1)
    rw [List.zipIdx_cons, List.map_cons, weight_cons]
    dsimp only at htail ⊢
    split at htail <;> split <;> split <;> omega

theorem RetryCycle.safe_start {payload : List QueuedTransaction}
    (h : ∀ t ∈ payload, t.retryAttempt = none) : (RetryCycle.start payload).Safe where
  messages := by
    intro m hm c hc
    rw [List.mem_singleton.mp hm] at hc
    obtain ⟨t, ht, rfl⟩ := List.mem_map.mp hc
    have hnone := h t.1 (List.fst_mem_of_mem_zipIdx ht)
    refine ⟨?_, ?_⟩
    · dsimp only
      rw [hnone]
      exact Nat.zero_le _
    · dsimp only
      rw [hnone]
      rfl
  retries := by
    intro queue m hm
    have heq := List.mem_singleton.mp hm
    cases (Prod.mk.inj heq).1
  terminal := fun _ hc => nomatch hc
  once := by
    intro o
    have hone := copiesOf_start_le payload 0 o
    unfold RetryCycle.copiesOf RetryCycle.start
    rw [if_pos (Nat.zero_le o)] at hone
    simp only [weight_cons, weight_nil]
    exact hone

/-- What is at its end stays there. -/
theorem RetryCycle.terminal_mono {a : RetryAction} (h : σ.next a = some τ) :
    ∀ c ∈ σ.terminal, c ∈ τ.terminal := by
  intro c hc
  obtain ⟨i, hstep⟩ := RetryCycle.next_step h
  cases hstep with
  | take hm => exact hc
  | @handle d rest hm =>
    unfold RetryCycle.send
    split
    · exact hc
    · exact List.mem_append_left _ hc
  | gone hm => exact hc
  | expire hm => exact hc
  | deadLetter hm => exact hc

/-- A copy at its end is the only one of its transaction. -/
theorem RetryCycle.Safe.origin_ne (hσ : σ.Safe) {c d : Copy} (hc : c ∈ σ.terminal)
    {m : Place × List Copy} (hm : m ∈ σ.messages) (hd : d ∈ m.2) : d.origin ≠ c.origin := by
  intro heq
  have hone := hσ.once c.origin
  have hterminal := le_weight_of_mem (fun d => if d.origin = c.origin then 1 else 0) hc
  have hmessage := le_weight_of_mem (fun d => if d.origin = c.origin then 1 else 0) hd
  have hmessages := le_weight_of_mem (fun m => KPos.copiesOf c.origin m.2) hm
  unfold RetryCycle.copiesOf KPos.copiesOf at hone
  unfold KPos.copiesOf at hmessages
  rw [if_pos rfl] at hterminal
  rw [if_pos heq] at hmessage
  omega

end Safe

/-! ## Bounded retries -/

/-- **Retries are bounded.**  In every run from a dead letter whose transactions carry no
counter: the run has at most 21 steps for each transaction, and two more; a copy has been
published to the first queues of the schedule, in their order, and each time alone; when its
turn comes it goes on to the next queue, or to its terminal failure after the last one, whatever
the others do; and from there it never returns to a queue. -/
theorem bounded_retries {payload : List QueuedTransaction} {as : List RetryAction}
    {σ : RetryCycle} (hfresh : ∀ t ∈ payload, t.retryAttempt = none)
    (h : Runs.Run RetryCycle.next Runs.anyStep (.start payload) as σ) :
    as.length ≤ 21 * payload.length + 2 ∧
    (∀ m ∈ σ.messages, ∀ c ∈ m.2, c.history <+: schedule) ∧
    (∀ queue m, (Place.retry queue, m) ∈ σ.messages →
      ∃ c, m = [c] ∧ c.history.getLast?.map (·.1) = some queue) ∧
    (∀ i c rest, σ.messages[i]? = some (.handling, c :: rest) →
      σ.next (.handle i) = some ((σ.move i .handling rest).send c c.scheduled)) ∧
    (∀ c ∈ σ.terminal, c.history = schedule) ∧
    ∀ τ, Runs.Reaches RetryCycle.next σ τ → ∀ c ∈ σ.terminal, c ∈ τ.terminal ∧
      ∀ m ∈ τ.messages, ∀ d ∈ m.2, d.origin ≠ c.origin := by
  have hkeeps : ∀ {s t}, Runs.Reaches RetryCycle.next s t → s.Safe → t.Safe := by
    intro s t hreach hs
    refine hreach.invariant RetryCycle.Safe hs fun s a t hs hstep => ?_
    obtain ⟨i, hstep⟩ := RetryCycle.next_step hstep
    exact hs.step hstep
  have hσ : σ.Safe := hkeeps h.reaches (RetryCycle.safe_start hfresh)
  refine ⟨?_, fun m hm c hc => ?_, hσ.retries, fun i c rest hm => ?_, hσ.terminal, ?_⟩
  · have hlength := h.length_add_le fun _ _ _ => RetryCycle.next_lowers
    have hfuel : (RetryCycle.start payload).fuel = 21 * payload.length + 2 := by
      have hcopies : ∀ c ∈ payload.zipIdx.map (fun t => Copy.mk t.2 t.1 []), c.fuel = 21 := by
        intro c hc
        obtain ⟨t, ht, rfl⟩ := List.mem_map.mp hc
        unfold Copy.fuel
        dsimp only
        rw [hfresh t.1 (List.fst_mem_of_mem_zipIdx ht)]
        rfl
      have hweight := Weights.weight_eq_mul Copy.fuel hcopies
      rw [List.length_map, List.length_zipIdx] at hweight
      unfold RetryCycle.fuel RetryCycle.start
      rw [Weights.weight_cons, Weights.weight_nil]
      unfold messageFuel Place.ahead
      dsimp only
      omega
    omega
  · rw [(hσ.messages m hm c hc).history]
    exact List.take_prefix _ _
  · have hc := hσ.messages _ (List.mem_of_getElem? hm) c List.mem_cons_self
    rw [RetryCycle.next_handle hm, hc.route_eq]
  · intro τ hτ c hc
    have hterminal : c ∈ τ.terminal :=
      hτ.invariant (fun σ => c ∈ σ.terminal) hc fun s a t hs hstep =>
        RetryCycle.terminal_mono hstep c hs
    exact ⟨hterminal, fun m hm d hd => (hkeeps hτ hσ).origin_ne hterminal hm hd⟩

/-- Two sales of the till. -/
def twoSales : List QueuedTransaction :=
  [shopQueued shopDevice "a" [3], shopQueued shopDevice "b" [1]]

/-- A round of the message `i`, from the retry queue to the dead-letter consumer, where its
transaction is handled. -/
def round (i : ℕ) : List RetryAction := [.expire i, .deadLetter i, .take i, .handle i]

/-- Both sales are retried; the second one is stored at once, and the first one fails again
after each of its three retries. -/
def threeRounds : List RetryAction :=
  [.take 0, .handle 0, .handle 0, .expire 2, .consume 2] ++ round 1 ++ round 2 ++ round 3

/-- The first sale is at its end, after the three retry queues. -/
theorem bounded_retries_threeRounds : ∃ σ : RetryCycle, σ.terminal.length = 1 ∧
    threeRounds.length ≤ 21 * twoSales.length + 2 ∧ ∀ c ∈ σ.terminal, c.history = schedule := by
  have hcheck : (Runs.runs RetryCycle.next (fun _ _ => true) (.start twoSales) threeRounds).any
      (fun σ => decide (σ.terminal.length = 1)) = true := by decide +kernel
  obtain ⟨σ, hrun, hterminal⟩ := Runs.exists_run_of_runs hcheck
  have hfresh : ∀ t ∈ twoSales, t.retryAttempt = none := by decide
  have hbounded := bounded_retries hfresh (hrun.weaken fun _ _ _ => trivial)
  exact ⟨σ, of_decide_eq_true hterminal, hbounded.1, hbounded.2.2.2.2.1⟩

end KPos
