/-
# Clients that set up a message broker

The clients of a broker declare exchanges, queues and bindings before they use them, and do so
again whenever they connect.  A declaration is refused when something else has the name.  The
broker is a parameter: what is relied on of it is `Broker.Documented`.

* `Declaration.Clashes`, `Declaration.Rests`, `Declaration.Durable` : declarations among others;
* `Broker`, `Broker.Documented` : a broker, and what is relied on of it;
* `Session` : the channels on which clients set it up, in any order;
* `Agreed` : the setups are parts of one plan;
* `Session.Sound.next`, `sound_of_reaches` : then no declaration is ever refused, and what was
  declared stays;
* `listBroker` : a broker that lists what is declared.
-/
import KPos.Lib.Runs
import Mathlib.Data.List.Basic
import Mathlib.Tactic.Common

namespace Brokers

/-! ## Declarations -/

/-- The options of a queue: whether it outlives a restart, how long a message may wait, and where
a message goes that dies in it. -/
structure QueueOptions where
  durable : Bool
  messageTtl : Option ℕ
  deadLetterExchange : Option String
  deadLetterRoutingKey : Option String
  deriving DecidableEq

/-- What a client declares.  The exchanges are direct ones. -/
inductive Declaration where
  | exchange (name : String) (durable : Bool)
  | queue (name : String) (options : QueueOptions)
  | bind (name source pattern : String)
  deriving DecidableEq

/-- The name may be given: it is not empty, and does not begin as those the broker keeps. -/
def Allowed (name : String) : Prop := name ≠ "" ∧ ¬ "amq.".toList <+: name.toList

instance (name : String) : Decidable (Allowed name) := inferInstanceAs (Decidable (_ ∧ _))

def Declaration.Allowed : Declaration → Prop
  | .exchange name _ | .queue name _ => Brokers.Allowed name
  | .bind .. => True

instance : (d : Declaration) → Decidable d.Allowed
  | .exchange .. | .queue .. => inferInstanceAs (Decidable (Brokers.Allowed _))
  | .bind .. => .isTrue trivial

/-- Two declarations give one name to different things. -/
def Declaration.Clashes : Declaration → Declaration → Prop
  | .exchange name durable, .exchange other durable' => name = other ∧ durable ≠ durable'
  | .queue name options, .queue other options' => name = other ∧ options ≠ options'
  | _, _ => False

instance : (d e : Declaration) → Decidable (d.Clashes e)
  | .exchange .., .exchange .. => inferInstanceAs (Decidable (_ ∧ _))
  | .queue .., .queue .. => inferInstanceAs (Decidable (_ ∧ _))
  | .exchange .., .queue .. | .exchange .., .bind .. | .queue .., .exchange .. | .queue .., .bind ..
  | .bind .., .exchange .. | .bind .., .queue .. | .bind .., .bind .. => .isFalse not_false

/-- The queue and the exchange of a binding are declared. -/
def Declaration.Rests (declared : Declaration → Prop) : Declaration → Prop
  | .bind name source _ =>
      (∃ options, declared (.queue name options)) ∧ ∃ durable, declared (.exchange source durable)
  | _ => True

/-- What is declared outlives a restart; a binding does with its queue and its exchange. -/
def Declaration.Durable (declared : Declaration → Prop) : Declaration → Prop
  | .exchange _ durable => durable = true
  | .queue _ options => options.durable = true
  | .bind name source _ =>
      (∃ options, declared (.queue name options) ∧ options.durable = true) ∧
        declared (.exchange source true)

theorem Declaration.Rests.mono {P Q : Declaration → Prop} {d : Declaration} (h : d.Rests P)
    (hPQ : ∀ e, P e → Q e) : d.Rests Q := by
  cases d with
  | bind name source pattern =>
    obtain ⟨⟨options, hqueue⟩, durable, hsource⟩ := h
    exact ⟨⟨options, hPQ _ hqueue⟩, durable, hPQ _ hsource⟩
  | _ => trivial

/-! ## Brokers -/

/-- A broker: what its clients have declared, what a declaration and a restart make of it, the
queues that an exchange sends a message to by its routing key, and the queues, of those that it
has not been in, that a message with a routing key goes on to when it dies in a queue. -/
structure Broker (T : Type*) where
  empty : T
  declares : T → Declaration → Prop
  declare : T → Declaration → Option T
  restart : T → T
  route : T → String → String → List String
  deadLetters : T → String → String → List String

variable {T Party : Type*}

/-- What is relied on of a broker.  It accepts what clashes with nothing and names what is there,
and keeps the rest; a restart keeps what is durable; the exchange without a name routes to the
queue that the key names, the others by their bindings; a message that dies in a queue goes by
the options of the queue. -/
structure Broker.Documented (B : Broker T) : Prop where
  empty : ∀ d, ¬ B.declares B.empty d
  accepts : ∀ t d, d.Allowed → (∀ e, B.declares t e → ¬ e.Clashes d) → d.Rests (B.declares t) →
    ∃ u, B.declare t d = some u ∧ ∀ e, B.declares u e ↔ B.declares t e ∨ e = d
  restart_keeps : ∀ t d, B.declares t d → d.Durable (B.declares t) → B.declares (B.restart t) d
  restart_adds : ∀ t d, B.declares (B.restart t) d → B.declares t d
  default_exchange : ∀ t key name,
    name ∈ B.route t "" key ↔ name = key ∧ ∃ options, B.declares t (.queue key options)
  exchanges : ∀ t source durable key name, source ≠ "" → B.declares t (.exchange source durable) →
    (name ∈ B.route t source key ↔ B.declares t (.bind name source key))
  dead_letters : ∀ t name options key target, B.declares t (.queue name options) →
    (target ∈ B.deadLetters t name key ↔ ∃ exchange, options.deadLetterExchange = some exchange ∧
      target ∈ B.route t exchange (options.deadLetterRoutingKey.getD key))

/-! ## Setting a broker up -/

/-- An open channel of a party, and how many declarations of its setup were made. -/
structure Channel (Party : Type*) where
  party : Party
  declared : ℕ

/-- The broker, the open channels, and the declarations that were refused so far. -/
structure Session (T Party : Type*) where
  broker : T
  channels : List (Channel Party)
  refused : List Declaration

inductive Action (Party : Type*) where
  | connect (party : Party)
  /-- The next declaration of the channel `c`; when it is refused the channel is closed. -/
  | declare (c : ℕ)
  | disconnect (c : ℕ)
  /-- The broker restarts, and all channels are lost. -/
  | restart

def Session.start (B : Broker T) : Session T Party := ⟨B.empty, [], []⟩

def Session.next (B : Broker T) (setup : Party → List Declaration) (σ : Session T Party) :
    Action Party → Option (Session T Party)
  | .connect party => some { σ with channels := σ.channels ++ [⟨party, 0⟩] }
  | .declare c => σ.channels[c]?.bind fun channel =>
      (setup channel.party)[channel.declared]?.map fun d =>
        match B.declare σ.broker d with
        | some t => { σ with
            broker := t
            channels := σ.channels.set c { channel with declared := channel.declared + 1 } }
        | none => { σ with
            channels := σ.channels.eraseIdx c
            refused := σ.refused ++ [d] }
  | .disconnect c => σ.channels[c]?.map fun _ => { σ with channels := σ.channels.eraseIdx c }
  | .restart => some { σ with broker := B.restart σ.broker, channels := [] }

/-- A channel of the party is set up. -/
def Session.Ready (setup : Party → List Declaration) (σ : Session T Party) (party : Party) :
    Prop :=
  ∃ channel ∈ σ.channels, channel.party = party ∧ channel.declared = (setup party).length

/-- The setups are parts of a plan without clashes, in which everything is durable and has a name
that it may have; in each of them a queue and an exchange are declared before they are bound. -/
structure Agreed (setup : Party → List Declaration) (plan : List Declaration) : Prop where
  planned : ∀ party, ∀ d ∈ setup party, d ∈ plan
  rests : ∀ party i (d : Declaration), (setup party)[i]? = some d →
    d.Rests (· ∈ (setup party).take i)
  allowed : ∀ d ∈ plan, d.Allowed
  distinct : ∀ d ∈ plan, ∀ e ∈ plan, ¬ d.Clashes e
  durable : ∀ d ∈ plan, d.Durable (· ∈ plan)

/-- The invariant: what is declared is planned and rests on what is declared, each channel has what
it declared, and nothing was refused. -/
structure Session.Sound (B : Broker T) (setup : Party → List Declaration)
    (plan : List Declaration) (σ : Session T Party) : Prop where
  planned : ∀ d, B.declares σ.broker d → d ∈ plan
  rests : ∀ d, B.declares σ.broker d → d.Rests (B.declares σ.broker)
  declared : ∀ channel ∈ σ.channels, ∀ d ∈ (setup channel.party).take channel.declared,
    B.declares σ.broker d
  refused : σ.refused = []

section Sound

variable {B : Broker T} {setup : Party → List Declaration} {plan : List Declaration}
  {σ τ : Session T Party} {c : ℕ}

theorem sound_start (hB : B.Documented) : (Session.start B).Sound B setup plan where
  planned d h := absurd h (hB.empty d)
  rests d h := absurd h (hB.empty d)
  declared _ h := absurd h List.not_mem_nil
  refused := rfl

/-- What is declared is durable, and so is what it rests on. -/
theorem Session.Sound.durable (h : σ.Sound B setup plan) (hagreed : Agreed setup plan)
    {d : Declaration} (hd : B.declares σ.broker d) : d.Durable (B.declares σ.broker) := by
  have hplan := hagreed.durable d (h.planned d hd)
  cases d with
  | bind name source pattern =>
    obtain ⟨⟨options, hqueue⟩, durable, hsource⟩ := h.rests _ hd
    obtain rfl : durable = true := hagreed.durable _ (h.planned _ hsource)
    exact ⟨⟨options, hqueue, hagreed.durable _ (h.planned _ hqueue)⟩, hsource⟩
  | _ => exact hplan

/-- A restart keeps all that is declared. -/
theorem Session.Sound.restart (hB : B.Documented) (hagreed : Agreed setup plan)
    (h : σ.Sound B setup plan) :
    Session.Sound B setup plan { σ with broker := B.restart σ.broker, channels := [] } ∧
      ∀ d, B.declares σ.broker d → B.declares (B.restart σ.broker) d := by
  have hkept : ∀ d, B.declares σ.broker d → B.declares (B.restart σ.broker) d :=
    fun d hd => hB.restart_keeps _ d hd (h.durable hagreed hd)
  refine ⟨⟨fun d hd => h.planned d (hB.restart_adds _ d hd), fun d hd => ?_,
    fun _ hmem => absurd hmem List.not_mem_nil, h.refused⟩, hkept⟩
  exact (h.rests d (hB.restart_adds _ d hd)).mono hkept

/-- **No declaration is refused**: the next one of a channel goes through, and adds itself. -/
theorem Session.Sound.declare (hB : B.Documented) (hagreed : Agreed setup plan)
    (h : σ.Sound B setup plan) (hnext : σ.next B setup (.declare c) = some τ) :
    τ.Sound B setup plan ∧ ∀ d, B.declares σ.broker d → B.declares τ.broker d := by
  obtain ⟨channel, hchannel, hnext⟩ := Option.bind_eq_some_iff.mp hnext
  obtain ⟨d, hd, rfl⟩ := Option.map_eq_some_iff.mp hnext
  have hdone := h.declared channel (List.mem_of_getElem? hchannel)
  have hplan : d ∈ plan := hagreed.planned channel.party d (List.mem_of_getElem? hd)
  have hrests : d.Rests (B.declares σ.broker) := (hagreed.rests _ _ d hd).mono hdone
  obtain ⟨t, ht, hdeclared⟩ := hB.accepts σ.broker d (hagreed.allowed d hplan)
    (fun e he => hagreed.distinct e (h.planned e he) d hplan) hrests
  have hkept : ∀ e, B.declares σ.broker e → B.declares t e := fun e he =>
    (hdeclared e).mpr (Or.inl he)
  rw [ht]
  refine ⟨⟨fun e he => ?_, fun e he => ?_, fun other hother e he => ?_, h.refused⟩, hkept⟩
  · rcases (hdeclared e).mp he with he | rfl
    · exact h.planned e he
    · exact hplan
  · rcases (hdeclared e).mp he with he | rfl
    · exact (h.rests e he).mono hkept
    · exact hrests.mono hkept
  · rcases List.mem_or_eq_of_mem_set hother with hother | rfl
    · exact hkept e (h.declared other hother e he)
    · -- the channel has one declaration more
      change e ∈ (setup channel.party).take (channel.declared + 1) at he
      rw [List.take_add_one, hd] at he
      rcases List.mem_append.mp he with he | he
      · exact hkept e (hdone e he)
      · exact (hdeclared e).mpr (Or.inr (List.mem_singleton.mp he))

/-- **A step keeps the invariant, and all that is declared.** -/
theorem Session.Sound.next (hB : B.Documented) (hagreed : Agreed setup plan)
    (h : σ.Sound B setup plan) {a : Action Party} (hnext : σ.next B setup a = some τ) :
    τ.Sound B setup plan ∧ ∀ d, B.declares σ.broker d → B.declares τ.broker d := by
  cases a with
  | connect party =>
    obtain rfl := Option.some.inj hnext
    refine ⟨⟨h.planned, h.rests, fun channel hmem d hd => ?_, h.refused⟩, fun _ hd => hd⟩
    rcases List.mem_append.mp hmem with hmem | hmem
    · exact h.declared channel hmem d hd
    · rw [List.mem_singleton.mp hmem] at hd
      exact absurd hd List.not_mem_nil
  | declare c => exact h.declare hB hagreed hnext
  | disconnect c =>
    obtain ⟨_, -, rfl⟩ := Option.map_eq_some_iff.mp hnext
    exact ⟨⟨h.planned, h.rests, fun channel hmem => h.declared channel
      (List.mem_of_mem_eraseIdx hmem), h.refused⟩, fun _ hd => hd⟩
  | restart =>
    obtain rfl := Option.some.inj hnext
    exact h.restart hB hagreed

/-- **So does a run.** -/
theorem sound_of_reaches (hB : B.Documented) (hagreed : Agreed setup plan)
    (h : σ.Sound B setup plan) (hτ : Runs.Reaches (Session.next B setup) σ τ) :
    τ.Sound B setup plan ∧ ∀ d, B.declares σ.broker d → B.declares τ.broker d := by
  refine hτ.invariant (fun τ => τ.Sound B setup plan ∧
    ∀ d, B.declares σ.broker d → B.declares τ.broker d) ⟨h, fun _ hd => hd⟩ ?_
  rintro τ a υ ⟨hτ, hkept⟩ hnext
  obtain ⟨hυ, hstep⟩ := hτ.next hB hagreed hnext
  exact ⟨hυ, fun d hd => hstep d (hkept d hd)⟩

/-- A party whose channel is set up has all of its setup declared. -/
theorem Session.Sound.declares_of_ready (h : σ.Sound B setup plan) {party : Party}
    (hready : σ.Ready setup party) : ∀ d ∈ setup party, B.declares σ.broker d := by
  obtain ⟨channel, hmem, rfl, hlength⟩ := hready
  have hall := h.declared channel hmem
  rwa [hlength, List.take_length] at hall

end Sound

/-! ## A broker -/

/-- A queue of the name is listed, with options that meet `p`. -/
def listsQueue (t : List Declaration) (name : String) (p : QueueOptions → Bool) : Bool :=
  t.any fun
    | .queue other options => decide (other = name) && p options
    | _ => false

def listsExchange (t : List Declaration) (name : String) (p : Bool → Bool) : Bool :=
  t.any fun
    | .exchange other durable => decide (other = name) && p durable
    | _ => false

def Declaration.restsOn (t : List Declaration) : Declaration → Bool
  | .bind name source _ => listsQueue t name (fun _ => true) && listsExchange t source fun _ => true
  | _ => true

def Declaration.durableOn (t : List Declaration) : Declaration → Bool
  | .exchange _ durable => durable
  | .queue _ options => options.durable
  | .bind name source _ => listsQueue t name QueueOptions.durable && listsExchange t source id

/-- The queues that an exchange routes to, as listed. -/
def listRoute (t : List Declaration) (source key : String) : List String :=
  if source = "" then (if listsQueue t key (fun _ => true) then [key] else [])
  else t.filterMap fun
    | .bind name other pattern => if other = source ∧ pattern = key then some name else none
    | _ => none

/-- The queues that a declaration sends a message on to that died in the queue `name`. -/
def listDeadLetters (t : List Declaration) (name key : String) : Declaration → List String
  | .queue other options =>
      if other = name then
        (options.deadLetterExchange.map fun exchange =>
          listRoute t exchange (options.deadLetterRoutingKey.getD key)).getD []
      else []
  | _ => []

theorem Declaration.not_clashes_self (d : Declaration) : ¬ d.Clashes d := by
  cases d with
  | bind => exact not_false
  | _ => exact fun h => h.2 rfl

theorem Declaration.Clashes.symm {d e : Declaration} (h : d.Clashes e) : e.Clashes d := by
  cases d <;> cases e <;> first | exact h.elim | exact ⟨h.1.symm, h.2.symm⟩

/-- What is listed, without clashes. -/
structure Listing where
  items : List Declaration
  distinct : ∀ d ∈ items, ∀ e ∈ items, ¬ d.Clashes e

def Listing.add (t : Listing) (d : Declaration) (hd : ∀ e ∈ t.items, ¬ e.Clashes d) : Listing where
  items := d :: t.items
  distinct := by
    intro e he f hf
    rcases List.mem_cons.mp he with he | he <;> rcases List.mem_cons.mp hf with hf | hf
    · exact he ▸ hf ▸ d.not_clashes_self
    · exact fun h => hd f hf (he ▸ h).symm
    · exact hf ▸ hd e he
    · exact t.distinct e he f hf

/-- What is left after a restart. -/
def Listing.restart (t : Listing) : Listing where
  items := t.items.filter (Declaration.durableOn t.items)
  distinct d hd e he := t.distinct d (List.mem_of_mem_filter hd) e (List.mem_of_mem_filter he)

/-- A broker that lists what is declared. -/
def listBroker : Broker Listing where
  empty := ⟨[], fun _ h => absurd h List.not_mem_nil⟩
  declares t d := d ∈ t.items
  declare t d :=
    if h : (∀ e ∈ t.items, ¬ e.Clashes d) ∧ d.Allowed ∧ d.restsOn t.items = true then
      some (t.add d h.1)
    else none
  restart := Listing.restart
  route t := listRoute t.items
  deadLetters t name key := t.items.flatMap (listDeadLetters t.items name key)

theorem listsQueue_iff {t : List Declaration} {name : String} {p : QueueOptions → Bool} :
    listsQueue t name p = true ↔
      ∃ options, Declaration.queue name options ∈ t ∧ p options = true := by
  unfold listsQueue
  rw [List.any_eq_true]
  constructor
  · rintro ⟨d, hd, h⟩
    cases d with
    | queue other options =>
      obtain ⟨hname, hp⟩ := Bool.and_eq_true_iff.mp h
      obtain rfl := of_decide_eq_true hname
      exact ⟨options, hd, hp⟩
    | _ => cases h
  · rintro ⟨options, hd, hp⟩
    exact ⟨_, hd, Bool.and_eq_true_iff.mpr ⟨decide_eq_true rfl, hp⟩⟩

theorem listsExchange_iff {t : List Declaration} {name : String} {p : Bool → Bool} :
    listsExchange t name p = true ↔
      ∃ durable, Declaration.exchange name durable ∈ t ∧ p durable = true := by
  unfold listsExchange
  rw [List.any_eq_true]
  constructor
  · rintro ⟨d, hd, h⟩
    cases d with
    | exchange other durable =>
      obtain ⟨hname, hp⟩ := Bool.and_eq_true_iff.mp h
      obtain rfl := of_decide_eq_true hname
      exact ⟨durable, hd, hp⟩
    | _ => cases h
  · rintro ⟨durable, hd, hp⟩
    exact ⟨_, hd, Bool.and_eq_true_iff.mpr ⟨decide_eq_true rfl, hp⟩⟩

theorem restsOn_iff {t : List Declaration} {d : Declaration} :
    d.restsOn t = true ↔ d.Rests (· ∈ t) := by
  cases d with
  | bind name source pattern =>
    simp [Declaration.restsOn, Declaration.Rests, listsQueue_iff, listsExchange_iff]
  | _ => exact iff_of_true rfl trivial

theorem durableOn_iff {t : List Declaration} {d : Declaration} :
    d.durableOn t = true ↔ d.Durable (· ∈ t) := by
  cases d with
  | bind name source pattern =>
    simp [Declaration.durableOn, Declaration.Durable, listsQueue_iff, listsExchange_iff]
  | _ => exact Iff.rfl

theorem mem_listRoute_default {t : List Declaration} {key name : String} :
    name ∈ listRoute t "" key ↔ name = key ∧ ∃ options, Declaration.queue key options ∈ t := by
  unfold listRoute
  rw [if_pos rfl]
  by_cases hkey : listsQueue t key (fun _ => true) = true
  · obtain ⟨options, hmem, -⟩ := listsQueue_iff.mp hkey
    rw [if_pos hkey, List.mem_singleton]
    exact ⟨fun h => ⟨h, options, hmem⟩, fun h => h.1⟩
  · rw [if_neg hkey]
    refine ⟨fun h => absurd h List.not_mem_nil, fun ⟨_, options, hmem⟩ => ?_⟩
    exact absurd (listsQueue_iff.mpr ⟨options, hmem, rfl⟩) hkey

theorem mem_listRoute {t : List Declaration} {source key name : String} (hsource : source ≠ "") :
    name ∈ listRoute t source key ↔ Declaration.bind name source key ∈ t := by
  unfold listRoute
  rw [if_neg hsource, List.mem_filterMap]
  constructor
  · rintro ⟨d, hd, h⟩
    cases d with
    | bind other source' pattern =>
      obtain ⟨⟨rfl, rfl⟩, hname⟩ := Option.ite_none_right_eq_some.mp h
      obtain rfl := Option.some.inj hname
      exact hd
    | _ => cases h
  · exact fun h => ⟨_, h, if_pos ⟨rfl, rfl⟩⟩

theorem mem_listDeadLetters {t : List Declaration} {name other key target : String}
    {options : QueueOptions} :
    target ∈ listDeadLetters t name key (.queue other options) ↔ other = name ∧
      ∃ exchange, options.deadLetterExchange = some exchange ∧
        target ∈ listRoute t exchange (options.deadLetterRoutingKey.getD key) := by
  simp only [listDeadLetters]
  by_cases hother : other = name
  · rw [if_pos hother]
    cases options.deadLetterExchange <;> simp [hother]
  · simp [hother]

theorem mem_deadLetters {t : Listing} {name key target : String} {options : QueueOptions}
    (hname : Declaration.queue name options ∈ t.items) :
    target ∈ listBroker.deadLetters t name key ↔
      ∃ exchange, options.deadLetterExchange = some exchange ∧
        target ∈ listRoute t.items exchange (options.deadLetterRoutingKey.getD key) := by
  refine List.mem_flatMap.trans ⟨?_, fun h => ⟨_, hname, mem_listDeadLetters.mpr ⟨rfl, h⟩⟩⟩
  rintro ⟨d, hd, h⟩
  cases d with
  | queue other options' =>
    obtain ⟨rfl, hexchange⟩ := mem_listDeadLetters.mp h
    -- no other options are listed under the name
    obtain rfl : options' = options := by
      by_contra hne
      exact t.distinct _ hd _ hname ⟨rfl, hne⟩
    exact hexchange
  | _ => exact absurd h List.not_mem_nil

/-- **The broker that lists does what is relied on.** -/
theorem listBroker_documented : listBroker.Documented where
  empty _ := List.not_mem_nil
  accepts t d hallowed hdistinct hrests :=
    ⟨t.add d hdistinct, dif_pos ⟨hdistinct, hallowed, restsOn_iff.mpr hrests⟩,
      fun _ => List.mem_cons.trans or_comm⟩
  restart_keeps _ _ hd hdurable := List.mem_filter.mpr ⟨hd, durableOn_iff.mpr hdurable⟩
  restart_adds _ _ hd := List.mem_of_mem_filter hd
  default_exchange _ _ _ := mem_listRoute_default
  exchanges _ _ _ _ _ hsource _ := mem_listRoute hsource
  dead_letters _ _ _ _ _ hname := mem_deadLetters hname

end Brokers
