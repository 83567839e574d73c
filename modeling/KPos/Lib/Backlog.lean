/-
# Working off a backlog

A system has work under way, measured by a number.  Actions that work lower it, other actions
may bring more, and as long as the system is not idle it can work.  Then a run works no more
often than the work allows that was there or was brought, and every run can be ended.

* `WorksOff` : the work of a system, and what its actions do to it;
* `WorksOff.bounded` : how often a run works;
* `WorksOff.finishes` : the rest can be worked off from any state.
-/
import KPos.Lib.Runs
import KPos.Lib.Weights

namespace Runs

open Weights

variable {S A : Type*}

/-- Under the condition `C`, each action that `works` lowers the measure `work`, another one adds
what it `brings` at most, and a state that is not idle allows an action that works and brings
nothing. -/
structure WorksOff (next : S → A → Option S) (C : S → A → Prop) (idle : S → Prop)
    (work : S → ℕ) (works : A → Bool) (brings : A → ℕ) : Prop where
  lowers : ∀ s a t, C s a → next s a = some t →
    work t + (if works a then 1 else 0) ≤ work s + brings a
  progress : ∀ s, ¬ idle s → ∃ a t, C s a ∧ next s a = some t ∧ works a = true ∧ brings a = 0

section

variable {next : S → A → Option S} {C : S → A → Prop} {idle : S → Prop} {work : S → ℕ}
  {works : A → Bool} {brings : A → ℕ} {s t : S} {as : List A}

/-- **A run works no more often** than the work allows that there was and that was brought. -/
theorem WorksOff.bounded (hw : WorksOff next C idle work works brings)
    (h : Run next C s as t) : as.countP works + work t ≤ work s + weight brings as := by
  induction h with
  | start => simp
  | @step as t u a _ hc hn ih =>
    have hlower := hw.lowers t a u hc hn
    rw [List.countP_append, List.countP_singleton, weight_append, weight_cons, weight_nil]
    omega

/-- **The backlog can be worked off** from any state, by actions that work. -/
theorem WorksOff.finishes (hw : WorksOff next C idle work works brings) (s : S) :
    ∃ as t, Run next C s as t ∧ idle t ∧ ∀ a ∈ as, works a = true := by
  -- by induction on the work that is left
  induction hn : work s using Nat.strong_induction_on generalizing s with
  | h n ih =>
    by_cases hidle : idle s
    · exact ⟨[], s, .start, hidle, fun _ ha => nomatch ha⟩
    · obtain ⟨a, t, hc, ht, hworks, hbrings⟩ := hw.progress s hidle
      have hlower := hw.lowers s a t hc ht
      rw [if_pos hworks, hbrings] at hlower
      obtain ⟨as, u, hrun, hu, has⟩ := ih (work t) (by omega) t rfl
      refine ⟨a :: as, u, .cons hc ht hrun, hu, fun b hb => ?_⟩
      rcases List.mem_cons.mp hb with rfl | hb
      · exact hworks
      · exact has b hb

end

end Runs
