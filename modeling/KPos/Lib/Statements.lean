/-
# Database transactions, statement by statement

A request first reads, query by query, and then makes its writes in one database transaction.
The transaction executes its statements one by one, each on the committed store with the
transaction's own writes on top of it; nobody else sees these before the commit.  It may abort
after any number of its statements.

* `Client.run` : all statements of a transaction;
* `Client.serial` : the store is what the committed transactions leave one after the other;
* `Client.invariant` : what every whole transaction keeps holds in every state.
-/
import KPos.Lib.Runs

/-- Requests, whose reads go on with a request or end with a transaction, and the statements
of a transaction that starts on a given store. -/
structure Client (S R B : Type*) where
  read : S → R → Option (R ⊕ B)
  statements : S → B → List (S → Option S)

namespace Client

variable {S R B : Type*}

/-- A request that reads, or a transaction with the number of statements it has executed. -/
inductive Stage (R B : Type*)
  | reading (r : R)
  | writing (b : B) (executed : ℕ)

/-- The committed store, the requests under way, and the transactions that have committed. -/
structure State (S R B : Type*) where
  store : S
  stages : ℕ → Option (Stage R B)
  committed : List B

/-- A step: a request comes, it makes its next query or statement, commits or aborts. -/
inductive Action (R : Type*)
  | request (i : ℕ) (r : R)
  | advance (i : ℕ)
  | commit (i : ℕ)
  | abort (i : ℕ)

def start (s : S) : State S R B := ⟨s, fun _ => none, []⟩

def State.put (σ : State S R B) (i : ℕ) (o : Option (Stage R B)) : State S R B :=
  { σ with stages := Function.update σ.stages i o }

/-- One statement after the other. -/
def runAll (l : List (S → Option S)) (s : S) : Option S := l.foldlM (fun s f => f s) s

theorem runAll_append (l l' : List (S → Option S)) (s : S) :
    runAll (l ++ l') s = (runAll l s).bind (runAll l') := List.foldlM_append

theorem runAll_cons (f : S → Option S) (l : List (S → Option S)) (s : S) :
    runAll (f :: l) s = (f s).bind (runAll l) := List.foldlM_cons

variable (P : Client S R B)

/-- All statements of a transaction. -/
def run (s : S) (b : B) : Option S := runAll (P.statements s b) s

/-- What a transaction sees after its first statements. -/
def view (s : S) (b : B) (executed : ℕ) : Option S :=
  runAll ((P.statements s b).take executed) s

/-- The next query of a request, or the next statement of a transaction. -/
def advance (s : S) : Stage R B → Option (Stage R B)
  | .reading r => (P.read s r).map (Sum.elim .reading fun b => .writing b 0)
  | .writing b n => (P.statements s b)[n]?.bind fun f =>
      ((P.view s b n).bind f).map fun _ => .writing b (n + 1)

/-- The store after the commit of a transaction whose statements are all executed. -/
def commit (s : S) : Stage R B → Option (S × B)
  | .reading _ => none
  | .writing b n =>
      if n = (P.statements s b).length then (P.view s b n).map fun s' => (s', b) else none

def next (σ : State S R B) : Action R → Option (State S R B)
  | .request i r =>
      match σ.stages i with
      | none => some (σ.put i (some (.reading r)))
      | some _ => none
  | .advance i => (σ.stages i).bind fun stage =>
      (P.advance σ.store stage).map fun stage' => σ.put i (some stage')
  | .commit i => (σ.stages i).bind fun stage =>
      (P.commit σ.store stage).map fun (s, b) =>
        { σ.put i none with store := s, committed := σ.committed ++ [b] }
  | .abort i => (σ.stages i).map fun _ => σ.put i none

variable {P} {σ τ : State S R B} {a : Action R} {s : S}

/-- **What a step can do to the store**: nothing, or all statements of a transaction. -/
theorem next_store (h : P.next σ a = some τ) :
    τ.store = σ.store ∧ τ.committed = σ.committed ∨
      ∃ b, P.run σ.store b = some τ.store ∧ τ.committed = σ.committed ++ [b] := by
  cases a with
  | request i r =>
    simp only [next] at h
    split at h
    · obtain rfl := Option.some.inj h
      exact Or.inl ⟨rfl, rfl⟩
    · cases h
  | advance i =>
    obtain ⟨stage, -, h⟩ := Option.bind_eq_some_iff.mp h
    obtain ⟨stage', -, rfl⟩ := Option.map_eq_some_iff.mp h
    exact Or.inl ⟨rfl, rfl⟩
  | commit i =>
    obtain ⟨stage, -, h⟩ := Option.bind_eq_some_iff.mp h
    obtain ⟨⟨s, b⟩, hcommit, rfl⟩ := Option.map_eq_some_iff.mp h
    refine Or.inr ⟨b, ?_, rfl⟩
    cases stage with
    | reading r => cases hcommit
    | writing b' n =>
      simp only [Client.commit] at hcommit
      split at hcommit
      · rename_i hall
        obtain ⟨s', hview, heq⟩ := Option.map_eq_some_iff.mp hcommit
        obtain ⟨rfl, rfl⟩ := Prod.mk.inj heq
        -- all statements are executed, so the view is the result
        unfold view at hview
        rw [hall, List.take_length] at hview
        exact hview
      · cases hcommit
  | abort i =>
    obtain ⟨stage, -, rfl⟩ := Option.map_eq_some_iff.mp h
    exact Or.inl ⟨rfl, rfl⟩

/-- **Transactions are all or nothing**: the store is what the committed ones leave when each of
them runs at once, in the order of their commits. -/
theorem serial (h : Runs.Reaches P.next (start s) σ) :
    σ.committed.foldlM P.run s = some σ.store := by
  refine h.invariant (fun σ => σ.committed.foldlM P.run s = some σ.store) rfl ?_
  intro σ a τ hσ hstep
  rcases next_store hstep with ⟨hstore, hcommitted⟩ | ⟨b, hrun, hcommitted⟩
  · rw [hstore, hcommitted]
    exact hσ
  · rw [hcommitted, List.foldlM_append, hσ]
    simpa using hrun

/-- **The invariant rule**: what every whole transaction keeps holds in every state. -/
theorem invariant {I : S → Prop} (h : Runs.Reaches P.next (start s) σ) (hs : I s)
    (hrun : ∀ s b s', I s → P.run s b = some s' → I s') : I σ.store := by
  refine h.invariant (fun σ => I σ.store) hs ?_
  intro σ a τ hσ hstep
  rcases next_store hstep with ⟨hstore, -⟩ | ⟨b, hb, -⟩
  · rw [hstore]
    exact hσ
  · exact hrun σ.store b τ.store hσ hb

end Client
