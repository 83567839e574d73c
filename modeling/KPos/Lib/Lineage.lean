/-
# Lines of succession

Each thing is followed by one other at most and follows one other at most, and ranks grow from
a thing to the one that follows it.  So a walk back ends at a root, a walk on ends, and the
line that it passes is the same from wherever the root was looked for.

* `Succession` : who follows whom;
* `root`, `line` : the two walks, with a bound on their steps;
* `Succession.exists_root`, `Succession.root_eq` : the root is found from everywhere on its line;
* `Succession.exists_line` : the line ends and holds all that come after the root;
* `Succession.nodup_line` : no one comes twice on it.
-/
import Mathlib.Data.List.Chain
import Mathlib.Logic.Relation

namespace Lineage

open Relation

/-- Who follows whom; whoever follows has a higher rank, below a bound. -/
structure Succession (α : Type*) where
  next : α → Option α
  prev : α → Option α
  inverse : ∀ a b, next a = some b ↔ prev b = some a
  rank : α → ℕ
  bound : ℕ
  rank_lt : ∀ a b, next a = some b → rank a < rank b ∧ rank b < bound

variable {α : Type*}

/-- The walk back, to the first one. -/
def root (prev : α → Option α) : ℕ → α → Option α
  | 0, _ => none
  | fuel + 1, a =>
    match prev a with
    | none => some a
    | some b => root prev fuel b

/-- The walk on, to the last one. -/
def line (next : α → Option α) : ℕ → α → Option (List α)
  | 0, _ => none
  | fuel + 1, a =>
    match next a with
    | none => some [a]
    | some b => (line next fuel b).map (a :: ·)

namespace Succession

variable (s : Succession α) {a b r : α} {l : List α}

/-- `b` is `a` or comes after it. -/
abbrev Leads : α → α → Prop := ReflTransGen fun x y => s.next x = some y

/-- **The walk back ends** at a root. -/
theorem exists_root (fuel : ℕ) : ∀ a, s.rank a < fuel →
    ∃ r, root s.prev fuel a = some r ∧ s.prev r = none ∧ s.Leads r a := by
  induction fuel with
  | zero =>
    intro a ha
    omega
  | succ fuel ih =>
    intro a ha
    unfold root
    cases hprev : s.prev a with
    | none => exact ⟨a, rfl, hprev, .refl⟩
    | some b =>
      have hnext := (s.inverse b a).mpr hprev
      have hlt := (s.rank_lt b a hnext).1
      obtain ⟨r, hroot, hnone, hleads⟩ := ih b (by omega)
      exact ⟨r, hroot, hnone, hleads.tail hnext⟩

/-- A root is found from everywhere on its line. -/
theorem root_eq (hnone : s.prev r = none) (hleads : s.Leads r a) :
    ∀ fuel, s.rank a < fuel → root s.prev fuel a = some r := by
  induction hleads with
  | refl =>
    intro fuel hfuel
    obtain ⟨n, rfl⟩ : ∃ n, fuel = n + 1 := ⟨fuel - 1, by omega⟩
    unfold root
    rw [hnone]
  | @tail b c _ hnext ih =>
    intro fuel hfuel
    obtain ⟨n, rfl⟩ : ∃ n, fuel = n + 1 := ⟨fuel - 1, by omega⟩
    unfold root
    rw [(s.inverse b c).mp hnext]
    have hlt := (s.rank_lt b c hnext).1
    exact ih n (by omega)

/-- **The walk on ends**, and passes all that come after. -/
theorem exists_line (fuel : ℕ) : ∀ a, s.bound - s.rank a < fuel →
    ∃ l, line s.next fuel a = some (a :: l) ∧
      (a :: l).IsChain (fun x y => s.next x = some y) ∧
      (∀ z, (a :: l).getLast? = some z → s.next z = none) ∧
      ∀ b, b ∈ a :: l ↔ s.Leads a b := by
  induction fuel with
  | zero =>
    intro a ha
    omega
  | succ fuel ih =>
    intro a ha
    unfold line
    cases hnext : s.next a with
    | none =>
      refine ⟨[], rfl, .singleton a, fun z hz => ?_, fun b => ?_⟩
      · obtain rfl := Option.some.inj hz
        exact hnext
      · rw [List.mem_singleton]
        constructor
        · rintro rfl
          exact .refl
        · intro hleads
          rcases hleads.cases_head with heq | ⟨c, hc, -⟩
          · exact heq.symm
          · rw [hnext] at hc
            cases hc
    | some b =>
      obtain ⟨hlt, hbound⟩ := s.rank_lt a b hnext
      obtain ⟨l, hline, hchain, hlast, hmem⟩ := ih b (by omega)
      refine ⟨b :: l, ?_, hchain.cons_cons hnext, fun z hz => ?_, fun c => ?_⟩
      · show (line s.next fuel b).map _ = _
        rw [hline]
        rfl
      · rw [List.getLast?_cons_cons] at hz
        exact hlast z hz
      · rw [List.mem_cons, hmem c]
        constructor
        · rintro (rfl | hleads)
          · exact .refl
          · exact .head hnext hleads
        · intro hleads
          rcases hleads.cases_head with heq | ⟨d, hd, hleads⟩
          · exact Or.inl heq.symm
          · rw [hnext] at hd
            obtain rfl := Option.some.inj hd
            exact Or.inr hleads

/-- Ranks grow along a line, so no one comes twice. -/
theorem nodup_line (hchain : l.IsChain fun x y => s.next x = some y) : l.Nodup := by
  have htrans : IsTrans α fun x y => s.rank x < s.rank y := ⟨fun _ _ _ h h' => h.trans h'⟩
  have hranks : l.IsChain fun x y => s.rank x < s.rank y :=
    hchain.imp fun x y h => (s.rank_lt x y h).1
  have hpairs : l.Pairwise fun x y => s.rank x < s.rank y := List.isChain_iff_pairwise.mp hranks
  exact hpairs.imp fun h heq => by
    rw [heq] at h
    exact lt_irrefl _ h

/-- Whoever is not the last one on a line has a next one. -/
theorem exists_next (hchain : l.IsChain fun x y => s.next x = some y) (ha : a ∈ l.dropLast) :
    ∃ b, s.next a = some b := by
  induction l with
  | nil => cases ha
  | cons x l ih =>
    cases l with
    | nil => cases ha
    | cons y l =>
      obtain ⟨hxy, hchain⟩ := List.isChain_cons_cons.mp hchain
      rw [List.dropLast_cons_cons] at ha
      rcases List.mem_cons.mp ha with rfl | ha
      · exact ⟨y, hxy⟩
      · exact ih hchain ha

end Succession

end Lineage
