/-
# Weights of lists

The sum of the weights of the entries of a list, as the list changes in one place.  Two uses:
a measure of what is under way, and the number of entries of one kind (`countP`).

* `weight_set` : the entry at a place is exchanged;
* `weight_eraseIdx` : the entry at a place is removed.
-/
import Mathlib.Algebra.BigOperators.Group.List.Basic
import Mathlib.Algebra.Ring.Nat

variable {α : Type*}

/-- The sum of the weights of a list's entries. -/
def weight (w : α → ℕ) (l : List α) : ℕ := (l.map w).sum

namespace Weights

variable (w : α → ℕ) {l : List α} {a b : α} {i : ℕ}

@[simp] theorem weight_nil : weight w [] = 0 := rfl

@[simp] theorem weight_cons (a : α) (l : List α) : weight w (a :: l) = w a + weight w l := by
  unfold weight
  rw [List.map_cons, List.sum_cons]

@[simp] theorem weight_append (l l' : List α) :
    weight w (l ++ l') = weight w l + weight w l' := by
  unfold weight
  rw [List.map_append, List.sum_append]

/-- An entry at a place is exchanged for another one. -/
theorem weight_set (h : l[i]? = some a) :
    weight w (l.set i b) + w a = weight w l + w b := by
  induction l generalizing i with
  | nil => cases h
  | cons c l ih =>
    cases i with
    | zero =>
      obtain rfl := Option.some.inj h
      rw [List.set_cons_zero, weight_cons, weight_cons]
      omega
    | succ i =>
      have htail := ih (i := i) h
      rw [List.set_cons_succ, weight_cons, weight_cons]
      omega

/-- An entry at a place is removed. -/
theorem weight_eraseIdx (h : l[i]? = some a) :
    weight w (l.eraseIdx i) + w a = weight w l := by
  induction l generalizing i with
  | nil => cases h
  | cons c l ih =>
    cases i with
    | zero =>
      obtain rfl := Option.some.inj h
      rw [List.eraseIdx_cons_zero, weight_cons]
      omega
    | succ i =>
      have htail := ih (i := i) h
      rw [List.eraseIdx_cons_succ, weight_cons, weight_cons]
      omega

/-- The entries that a selection keeps weigh no more. -/
theorem weight_filter_le (p : α → Bool) (l : List α) : weight w (l.filter p) ≤ weight w l := by
  induction l with
  | nil => exact Nat.le_refl 0
  | cons a l ih =>
    rw [List.filter_cons, weight_cons]
    split
    · rw [weight_cons]
      omega
    · omega

/-- An entry weighs no more than the list. -/
theorem le_weight_of_mem (h : a ∈ l) : w a ≤ weight w l := by
  induction l with
  | nil => cases h
  | cons b l ih =>
    rw [weight_cons]
    rcases List.mem_cons.mp h with rfl | h
    · omega
    · have htail := ih h
      omega

/-- The weight of a list whose entries weigh the same. -/
theorem weight_eq_mul {n : ℕ} (h : ∀ a ∈ l, w a = n) : weight w l = n * l.length := by
  induction l with
  | nil => rfl
  | cons a l ih =>
    have htail := ih fun b hb => h b (List.mem_cons_of_mem a hb)
    rw [weight_cons, h a List.mem_cons_self, htail, List.length_cons, Nat.mul_succ]
    omega

end Weights
