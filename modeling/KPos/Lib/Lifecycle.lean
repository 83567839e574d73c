/-
# Life cycles

A life cycle says which stage may follow which, with a rank that goes down at every change.
When what is observed of a system follows a life cycle step by step, the observation of a whole
run is a chain of stages, and the rank bounds how often it changes.

* `Lifecycle` : stages, what follows what, and the rank;
* `changes` : how many steps of a run change an observation;
* `Lifecycle.of_run` : the chain of a run and the bound.
-/
import Mathlib.Logic.Relation
import KPos.Lib.Runs

namespace Runs

/-- What may follow a stage, and a rank that goes down. -/
structure Lifecycle (B : Type*) where
  Follows : B → B → Prop
  rank : B → ℕ
  rank_lt : ∀ b c, Follows b c → rank c < rank b

section Changes

variable {S A B : Type*} [DecidableEq B] {next : S → A → Option S} {C : S → A → Prop}
  {o : S → B} {s t u : S} {as : List A} {a : A}

/-- How many of the actions, taken in order, change what `o` observes. -/
def changes (next : S → A → Option S) (o : S → B) (s : S) : List A → ℕ
  | [] => 0
  | a :: as =>
      match next s a with
      | none => 0
      | some t => (if o t = o s then 0 else 1) + changes next o t as

theorem changes_cons (h : next s a = some t) :
    changes next o s (a :: as) = (if o t = o s then 0 else 1) + changes next o t as := by
  rw [changes, h]

theorem changes_append {bs : List A} (h : Run next C s as t) :
    changes next o s (as ++ bs) = changes next o s as + changes next o t bs := by
  induction h generalizing bs with
  | start => rw [List.nil_append, changes, Nat.zero_add]
  | @step as t u a _ _ hn ih =>
    rw [List.append_assoc, ih, ih, List.singleton_append, changes_cons hn, changes_cons hn,
      changes]
    omega

/-- The last action of a run. -/
theorem changes_step (h : Run next C s as t) (hn : next t a = some u) :
    changes next o s (as ++ [a]) = changes next o s as + if o u = o t then 0 else 1 := by
  rw [changes_append h, changes_cons hn, changes, Nat.add_zero]

/-- **A run follows the life cycle**, and changes no more often than the rank goes down, when
every step leaves the stage as it is or goes on to one that follows it. -/
theorem Lifecycle.of_run (L : Lifecycle B) (h : Run next C s as t) (I : S → Prop) (hs : I s)
    (hI : ∀ t a u, I t → C t a → next t a = some u → I u)
    (hstep : ∀ t a u, I t → C t a → next t a = some u → o u = o t ∨ L.Follows (o t) (o u)) :
    Relation.ReflTransGen L.Follows (o s) (o t) ∧
      changes next o s as + L.rank (o t) ≤ L.rank (o s) := by
  induction h with
  | start => exact ⟨.refl, Nat.le_of_eq (Nat.zero_add _)⟩
  | @step as t u a hrun hc hn ih =>
    obtain ⟨hchain, hrank⟩ := ih
    have ht : I t := hrun.invariant I hs hI
    rw [changes_step hrun hn]
    rcases hstep t a u ht hc hn with hsame | hfollows
    · rw [if_pos hsame, hsame]
      exact ⟨hchain, hrank⟩
    · have hlt := L.rank_lt _ _ hfollows
      have hne : o u ≠ o t := fun heq => by
        rw [heq] at hlt
        exact Nat.lt_irrefl _ hlt
      rw [if_neg hne]
      exact ⟨hchain.tail hfollows, by omega⟩

end Changes

end Runs
