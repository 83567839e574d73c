/-
# Tallies: column sums over selected rows

`tally p q rows` is the sum of the column `q` over the rows that meet `p`.  Tables that
only grow change a tally by the tally of what was added (`tally_append`), and a
tally splits along a key that the rows carry (`tally_split`).
-/
import Mathlib.Algebra.BigOperators.Group.List.Basic
import Mathlib.Data.Int.Basic
import Mathlib.Tactic.Ring

/-- The sum of the column `q` over the rows that meet `p`. -/
def tally {R : Type*} (p : R → Bool) (q : R → ℤ) (rows : List R) : ℤ :=
  ((rows.filter p).map q).sum

namespace Tally

variable {R K : Type*} {p p' : R → Bool} {q q' : R → ℤ}

@[simp] theorem tally_nil : tally p q [] = 0 := rfl

theorem tally_cons (r : R) (rows : List R) :
    tally p q (r :: rows) = (if p r then q r else 0) + tally p q rows := by
  unfold tally
  rw [List.filter_cons]
  split <;> simp

@[simp] theorem tally_append (xs ys : List R) :
    tally p q (xs ++ ys) = tally p q xs + tally p q ys := by
  simp [tally]

theorem tally_singleton (r : R) : tally p q [r] = if p r then q r else 0 := by
  simp [tally_cons]

/-- Rows that do not meet the selection count for nothing. -/
theorem tally_eq_zero {rows : List R} (h : ∀ r ∈ rows, p r = false) : tally p q rows = 0 := by
  induction rows with
  | nil => rfl
  | cons r rows ih =>
      rw [tally_cons, h r List.mem_cons_self,
        ih fun s hs => h s (List.mem_cons_of_mem _ hs)]
      simp

/-- A tally depends only on what it selects and on the selected entries. -/
theorem tally_congr {rows : List R} (hp : ∀ r ∈ rows, p r = p' r)
    (hq : ∀ r ∈ rows, p r = true → q r = q' r) : tally p q rows = tally p' q' rows := by
  induction rows with
  | nil => rfl
  | cons r rows ih =>
      rw [tally_cons, tally_cons, ih (fun s hs => hp s (List.mem_cons_of_mem _ hs))
        fun s hs => hq s (List.mem_cons_of_mem _ hs), ← hp r List.mem_cons_self]
      cases h : p r
      · simp
      · simp [hq r List.mem_cons_self h]

/-- Fewer rows have a smaller tally when no entry is negative. -/
theorem tally_le_of_sublist {xs ys : List R} (h : xs.Sublist ys) (hq : ∀ r ∈ ys, 0 ≤ q r) :
    tally p q xs ≤ tally p q ys := by
  induction h with
  | slnil => exact le_rfl
  | @cons xs ys r _ ih =>
      have hrest := ih fun s hs => hq s (List.mem_cons_of_mem _ hs)
      have hr := hq r List.mem_cons_self
      rw [tally_cons]
      split <;> omega
  | @cons_cons xs ys r _ ih =>
      have hrest := ih fun s hs => hq s (List.mem_cons_of_mem _ hs)
      rw [tally_cons, tally_cons]
      omega

/-- The order of the rows does not matter. -/
theorem tally_perm {xs ys : List R} (h : xs.Perm ys) : tally p q xs = tally p q ys :=
  ((h.filter p).map q).sum_eq

/-- The tally of rows built from other rows. -/
theorem tally_map {R' : Type*} (f : R' → R) (rows : List R') :
    tally p q (rows.map f) = tally (fun r => p (f r)) (fun r => q (f r)) rows := by
  induction rows with
  | nil => rfl
  | cons r rows ih => rw [List.map_cons, tally_cons, tally_cons, ih]

theorem tally_neg (rows : List R) : tally p (fun r => -q r) rows = -tally p q rows := by
  induction rows with
  | nil => rfl
  | cons r rows ih =>
      rw [tally_cons, tally_cons, ih]
      split <;> ring

/-! ## Splitting along a key -/

/-- A sum with one nonzero place. -/
theorem sum_map_single [DecidableEq K] {ks : List K} (hks : ks.Nodup) {k : K} (hk : k ∈ ks)
    (x : ℤ) : (ks.map fun j => if k = j then x else 0).sum = x := by
  induction ks with
  | nil => cases hk
  | cons j ks ih =>
      rw [List.map_cons, List.sum_cons]
      rw [List.nodup_cons] at hks
      rcases List.mem_cons.mp hk with rfl | hk'
      · have hrest : (ks.map fun j => if k = j then x else 0) = ks.map fun _ => 0 := by
          apply List.map_congr_left
          intro j hj
          exact if_neg (by rintro rfl; exact hks.1 hj)
        rw [hrest]
        simp
      · have hne : ¬ k = j := by rintro rfl; exact hks.1 hk'
        rw [if_neg hne, ih hks.2 hk', zero_add]

/-- **Splitting a tally along an optional key.**  The rows without the key and, key by
key, the rows with it add up to the whole. -/
theorem tally_split [DecidableEq K] (key : R → Option K) {ks : List K} (hks : ks.Nodup)
    {rows : List R} (hrows : ∀ r ∈ rows, ∀ k, key r = some k → k ∈ ks) :
    tally p q rows = tally (fun r => p r && decide (key r = none)) q rows
      + (ks.map fun k => tally (fun r => p r && decide (key r = some k)) q rows).sum := by
  induction rows with
  | nil => simp
  | cons r rows ih =>
      have ih := ih fun s hs => hrows s (List.mem_cons_of_mem _ hs)
      simp only [tally_cons, List.sum_map_add]
      rw [ih]
      cases hkey : key r with
      | none =>
          simp only [reduceCtorEq, decide_true, decide_false, Bool.and_true, Bool.and_false,
            Bool.false_eq_true, if_false, List.map_const', List.sum_replicate, nsmul_zero]
          ring
      | some k =>
          have hk := hrows r List.mem_cons_self k hkey
          have hsingle := sum_map_single hks hk (if p r then q r else 0)
          have hplace : (ks.map fun j =>
                if (p r && decide (some k = some j)) = true then q r else 0)
              = ks.map fun j => if k = j then (if p r then q r else 0) else 0 := by
            apply List.map_congr_left
            intro j _
            by_cases hj : k = j <;> simp [hj]
          rw [hplace, hsingle]
          simp only [reduceCtorEq, decide_false, Bool.and_false, Bool.false_eq_true, if_false]
          ring

end Tally
