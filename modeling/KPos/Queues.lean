/-
# The queues at the broker (`sync-producer.service.ts`, `sync-consumer.service.ts`, `main.ts`)

Each instance of the server opens three channels, and each of them declares first what it needs.
The instances start in any order, and a channel that was lost is set up again.  The broker is a
parameter: any that does what is documented of it.

* `SyncProducer.setup`, `SyncConsumer.setup`, `microserviceSetup` : what is declared where;
* `setups_agreed` : the setup of the producer covers all three, and nothing in it clashes;
* `setups_agree` : no declaration is ever refused, and messages go where the code expects them.
-/
import KPos.Lib.Broker
import KPos.DeadLetters

namespace KPos

open Brokers

/-! ## The setups -/

def RetryQueue.name : RetryQueue → String
  | .retry5s => "sync.retry.5s"
  | .retry30s => "sync.retry.30s"
  | .retry120s => "sync.retry.120s"

/-- `RETRY_DELAY_1`, `RETRY_DELAY_2` and `RETRY_DELAY_3`. -/
def RetryQueue.delay : RetryQueue → ℕ
  | .retry5s => 5000
  | .retry30s => 30000
  | .retry120s => 120000

/-- The options of a retry queue: what expires there goes to the main queue. -/
def RetryQueue.options (queue : RetryQueue) : QueueOptions where
  durable := true
  messageTtl := some queue.delay
  deadLetterExchange := some ""
  deadLetterRoutingKey := some "sync.transactions"

/-- The `setup` of `SyncProducerService`. -/
def SyncProducer.setup : List Declaration :=
  [.exchange "dlx_exchange" true,
    .queue "sync.dlq" ⟨true, none, none, none⟩,
    .bind "sync.dlq" "dlx_exchange" "sync.dlq.routingKey",
    .queue RetryQueue.retry5s.name RetryQueue.retry5s.options,
    .queue RetryQueue.retry30s.name RetryQueue.retry30s.options,
    .queue RetryQueue.retry120s.name RetryQueue.retry120s.options,
    .queue "sync.transactions" ⟨true, none, some "dlx_exchange", some "sync.dlq.routingKey"⟩]

/-- The `setup` of `SyncConsumerService`. -/
def SyncConsumer.setup : List Declaration := [.queue "sync.dlq" ⟨true, none, none, none⟩]

/-- The queue of `connectMicroservice`, which is declared before it is consumed from. -/
def microserviceSetup : List Declaration :=
  [.queue "sync.transactions" ⟨true, none, some "dlx_exchange", some "sync.dlq.routingKey"⟩]

/-- Who opens a channel. -/
inductive Party where
  | producer | dlqConsumer | microservice
  deriving DecidableEq

def Party.setup : Party → List Declaration
  | .producer => SyncProducer.setup
  | .dlqConsumer => SyncConsumer.setup
  | .microservice => microserviceSetup

/-- In each setup a queue and an exchange are declared before they are bound. -/
theorem Party.setup_rests (party : Party) (i : ℕ) (d : Declaration)
    (hd : party.setup[i]? = some d) : d.Rests (· ∈ party.setup.take i) := by
  have hall : ∀ party : Party, ∀ i < party.setup.length,
      (party.setup[i]?.all fun d => d.restsOn (party.setup.take i)) = true := by
    intro party
    cases party <;> decide +kernel
  have hi : i < party.setup.length := (List.getElem?_eq_some_iff.mp hd).1
  have hrests := hall party i hi
  rw [hd] at hrests
  exact restsOn_iff.mp hrests

/-- The consumers declare nothing that the producer does not, and nothing clashes. -/
theorem setups_agreed : Agreed Party.setup SyncProducer.setup where
  planned party := by cases party <;> decide
  rests := Party.setup_rests
  allowed := by decide +kernel
  distinct := by decide +kernel
  durable d hd := durableOn_iff.mp ((by decide +kernel :
    ∀ d ∈ SyncProducer.setup, d.durableOn SyncProducer.setup = true) d hd)

theorem main_mem_setup : Declaration.queue "sync.transactions"
    ⟨true, none, some "dlx_exchange", some "sync.dlq.routingKey"⟩ ∈ SyncProducer.setup := by
  decide

theorem retry_mem_setup (queue : RetryQueue) :
    Declaration.queue queue.name queue.options ∈ SyncProducer.setup := by
  cases queue <;> decide

/-! ## Where messages go -/

section Routes

variable {T : Type*} {B : Broker T} {t : T}

/-- A message that is sent to a queue gets there, and nowhere else. -/
theorem route_queue (hB : B.Documented) {name : String} {options : QueueOptions}
    (hname : B.declares t (.queue name options)) (target : String) :
    target ∈ B.route t "" name ↔ target = name := by
  rw [hB.default_exchange]
  exact and_iff_left ⟨options, hname⟩

/-- **A message that is rejected in the main queue goes to `sync.dlq`, and nowhere else.** -/
theorem deadLetters_main (hB : B.Documented) (ht : ∀ d, B.declares t d ↔ d ∈ SyncProducer.setup)
    (key target : String) :
    target ∈ B.deadLetters t "sync.transactions" key ↔ target = "sync.dlq" := by
  have hexchange : B.declares t (.exchange "dlx_exchange" true) := (ht _).mpr (by decide)
  rw [hB.dead_letters t _ _ key target ((ht _).mpr main_mem_setup)]
  simp only [Option.some.injEq, exists_eq_left', Option.getD_some]
  rw [hB.exchanges t _ _ _ _ (by decide) hexchange, ht]
  simp [SyncProducer.setup]

/-- **A message that expires in a retry queue goes to the main queue, and nowhere else.** -/
theorem deadLetters_retry (hB : B.Documented) (ht : ∀ d, B.declares t d ↔ d ∈ SyncProducer.setup)
    (queue : RetryQueue) (key target : String) :
    target ∈ B.deadLetters t queue.name key ↔ target = "sync.transactions" := by
  rw [hB.dead_letters t _ _ key target ((ht _).mpr (retry_mem_setup queue))]
  simp only [RetryQueue.options, Option.some.injEq, exists_eq_left', Option.getD_some]
  exact route_queue hB ((ht _).mpr main_mem_setup) target

end Routes

/-- **The setups agree.**  However the instances connect, declare, are lost and connect again,
and however often the broker restarts, no declaration is refused, and what a party has set up
stays.  Once a producer has set up, just its queues, its exchange and its binding are there: what
is sent to a queue gets there, what is rejected in the main queue goes to `sync.dlq`, and what
expires in a retry queue goes back to the main queue. -/
theorem setups_agree {T : Type*} {B : Broker T} (hB : B.Documented) {σ τ : Session T Party}
    (hσ : Runs.Reaches (Session.next B Party.setup) (Session.start B) σ)
    (hτ : Runs.Reaches (Session.next B Party.setup) σ τ) :
    τ.refused = [] ∧
      (∀ party, σ.Ready Party.setup party → ∀ d ∈ party.setup, B.declares τ.broker d) ∧
      (σ.Ready Party.setup .producer →
        (∀ d, B.declares τ.broker d ↔ d ∈ SyncProducer.setup) ∧
        (∀ name options, .queue name options ∈ SyncProducer.setup →
          ∀ target, target ∈ B.route τ.broker "" name ↔ target = name) ∧
        (∀ key target, target ∈ B.deadLetters τ.broker "sync.transactions" key ↔
          target = "sync.dlq") ∧
        ∀ (queue : RetryQueue) (key target : String),
          target ∈ B.deadLetters τ.broker queue.name key ↔ target = "sync.transactions") := by
  have hsound := (sound_of_reaches hB setups_agreed (sound_start hB) hσ).1
  obtain ⟨hτsound, hkept⟩ := sound_of_reaches hB setups_agreed hsound hτ
  have hready : ∀ party, σ.Ready Party.setup party → ∀ d ∈ party.setup, B.declares τ.broker d :=
    fun party h d hd => hkept d (hsound.declares_of_ready h d hd)
  refine ⟨hτsound.refused, hready, fun hproducer => ?_⟩
  have hdeclared : ∀ d, B.declares τ.broker d ↔ d ∈ SyncProducer.setup :=
    fun d => ⟨hτsound.planned d, hready .producer hproducer d⟩
  exact ⟨hdeclared, fun _ _ hmem => route_queue hB ((hdeclared _).mpr hmem),
    deadLetters_main hB hdeclared, deadLetters_retry hB hdeclared⟩

/-- The dead-letter consumer sets up, the broker restarts, and the channels are opened again. -/
theorem setups_agree_restarted : ∃ σ τ : Session Listing Party,
    Runs.Reaches (Session.next listBroker Party.setup) σ τ ∧ σ.Ready Party.setup .producer ∧
      τ.channels.length = 2 ∧ τ.refused = [] ∧ ∀ key target,
        target ∈ listBroker.deadLetters τ.broker "sync.transactions" key ↔ target = "sync.dlq" := by
  have hcheck : (Runs.runs (Session.next listBroker Party.setup) (fun _ _ => true)
      (Session.start listBroker) (.connect .producer :: List.replicate 7 (.declare 0))).any
        (fun σ => (σ.channels.any fun channel => decide (channel.party = .producer ∧
            channel.declared = (Party.setup .producer).length)) &&
          (Runs.runs (Session.next listBroker Party.setup) (fun _ _ => true) σ
            [.connect .dlqConsumer, .declare 1, .restart, .connect .microservice, .declare 0,
              .connect .producer, .declare 1]).any
                fun τ => decide (τ.channels.length = 2)) = true := by
    decide +kernel
  obtain ⟨σ, hσ, hend⟩ := Runs.exists_run_of_runs hcheck
  obtain ⟨hready, hrest⟩ := Bool.and_eq_true_iff.mp hend
  obtain ⟨channel, hmem, hchannel⟩ := List.any_eq_true.mp hready
  obtain ⟨τ, hτ, hlength⟩ := Runs.exists_run_of_runs hrest
  have hproducer : σ.Ready Party.setup .producer := ⟨channel, hmem, of_decide_eq_true hchannel⟩
  obtain ⟨hrefused, -, hroutes⟩ := setups_agree listBroker_documented hσ.reaches hτ.reaches
  exact ⟨σ, τ, hτ.reaches, hproducer, of_decide_eq_true hlength, hrefused,
    (hroutes hproducer).2.2.1⟩

end KPos
