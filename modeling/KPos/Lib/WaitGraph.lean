/-
# Who waits for whom

Processes take resources one by one, each in the order of its own list, and keep what they
have taken.  A process waits for the one that has what it asks for next.  Whether such
processes can wait in a cycle is a question about their lists alone.

* `Crosses` : the lists admit a cycle;
* `not_crosses_of_follows` : they do not when all of them follow one order of the resources.
-/
import Mathlib.Data.List.Basic
import Mathlib.Logic.Relation

open Relation

namespace WaitGraph

variable {P K : Type*} {asked : P → List K} {held : P → ℕ} {i j : P}

/-- With the first `held` resources of each list taken, the next one on the list of `i` is taken
by `j`, and not by `i` itself. -/
def Waits (asked : P → List K) (held : P → ℕ) (i j : P) : Prop :=
  ∃ k, (asked i)[held i]? = some k ∧ k ∈ (asked j).take (held j) ∧ k ∉ (asked i).take (held i)

/-- No resource is taken by two processes. -/
def Exclusive (asked : P → List K) (held : P → ℕ) : Prop :=
  ∀ i j, i ≠ j → ∀ k ∈ (asked i).take (held i), k ∉ (asked j).take (held j)

/-- The processes can have taken so many of their resources that they wait in a cycle. -/
def Crosses (asked : P → List K) : Prop :=
  ∃ held, Exclusive asked held ∧ ∃ i, TransGen (Waits asked held) i i

/-- A list asks for each new resource after those that come before it in the order. -/
def Follows (r : K → K → Prop) (l : List K) : Prop :=
  ∀ n k, l[n]? = some k → k ∉ l.take n → ∀ k' ∈ l.take n, r k' k

/-- Of two waits in a row, the second one is for what comes later in the order. -/
theorem Waits.follows {r : K → K → Prop} (hr : ∀ i, Follows r (asked i)) {l : P} {k k' : K}
    (hk : (asked i)[held i]? = some k) (hij : Waits asked held i j)
    (hk' : (asked j)[held j]? = some k') (hjl : Waits asked held j l) : r k k' := by
  obtain ⟨x, hx, hmem, -⟩ := hij
  obtain rfl : k = x := Option.some.inj (hk.symm.trans hx)
  obtain ⟨y, hy, -, hnot⟩ := hjl
  obtain rfl : k' = y := Option.some.inj (hk'.symm.trans hy)
  exact hr j (held j) k' hk' hnot k hmem

/-- **Lists that follow one order do not cross.** -/
theorem not_crosses_of_follows {r : K → K → Prop} (htrans : ∀ a b c, r a b → r b c → r a c)
    (hirrefl : ∀ a, ¬ r a a) (hr : ∀ i, Follows r (asked i)) : ¬ Crosses asked := by
  rintro ⟨held, -, i, hcycle⟩
  -- what a process asks for next grows along a chain of waits
  have hgrows : ∀ j, TransGen (Waits asked held) i j → ∀ l, Waits asked held j l → ∀ k k',
      (asked i)[held i]? = some k → (asked j)[held j]? = some k' → r k k' := by
    intro j hij
    induction hij with
    | single hij =>
      intro l hjl k k' hk hk'
      exact hij.follows hr hk hk' hjl
    | @tail b c _ hbc ih =>
      intro l hcl k k' hk hk'
      obtain ⟨x, hx, -⟩ := id hbc
      exact htrans k x k' (ih c hbc k x hk hx) (hbc.follows hr hx hk' hcl)
  obtain ⟨j, hij, -⟩ := TransGen.head'_iff.mp hcycle
  obtain ⟨k, hk, -⟩ := id hij
  exact hirrefl k (hgrows i hcycle j hij k k hk hk)

/-- In a cycle every link leads to a point from which another one leads on. -/
theorem cycle_continues {r : P → P → Prop} (h : TransGen r i i) :
    TransGen (fun a b => r a b ∧ ∃ c, r b c) i i := by
  have hchain : ∀ a b, TransGen r a b → (∃ c, r b c) →
      TransGen (fun a b => r a b ∧ ∃ c, r b c) a b := by
    intro a b hab
    induction hab with
    | single hab => exact fun hb => .single ⟨hab, hb⟩
    | tail _ hlast ih => exact fun hb => (ih ⟨_, hlast⟩).tail ⟨hlast, hb⟩
  obtain ⟨j, hij, -⟩ := TransGen.head'_iff.mp h
  exact hchain i i h ⟨j, hij⟩

end WaitGraph
