/-
# Runs of a transition function

A system is a partial function `next : S → A → Option S`: `next s a = some t` says
that the action `a` is enabled in `s` and leads to `t`.  The file has the runs of such a
system under a condition on the steps, and the invariant rule.

* `Run next C s as t` : the actions `as` lead from `s` to `t`, and every one of them
  was taken in a state where `C` held of it;
* `Run.invariant` : what every step keeps, every run keeps (`Run.invariant_total` when every
  action is enabled);
* `Run.length_add_le` : a measure that every step lowers bounds the runs;
* `runs` : the run of a list of actions, computed.
-/
import Mathlib.Data.List.Basic

namespace Runs

variable {S A : Type*}

/-! ## Runs under a condition -/

/-- The actions `as`, taken in order from `s`, lead to the given state, each taken in a
state that meets the condition `C` with it. -/
inductive Run (next : S → A → Option S) (C : S → A → Prop) (s : S) : List A → S → Prop
  | start : Run next C s [] s
  | step {as : List A} {t u : S} {a : A} :
      Run next C s as t → C t a → next t a = some u → Run next C s (as ++ [a]) u

/-- The condition that every step meets. -/
def anyStep : S → A → Prop := fun _ _ => True

/-- `t` is reached from `s` by some run. -/
def Reaches (next : S → A → Option S) (s t : S) : Prop :=
  ∃ as, Run next anyStep s as t

variable {next : S → A → Option S} {C D : S → A → Prop} {s t u : S} {as bs : List A}

/-- A run under a condition is a run under a weaker one. -/
theorem Run.weaken (h : Run next C s as t) (hCD : ∀ s a, C s a → D s a) :
    Run next D s as t := by
  induction h with
  | start => exact .start
  | step _ hc hn ih => exact .step ih (hCD _ _ hc) hn

/-- A run under any condition is a run. -/
theorem Run.reaches (h : Run next C s as t) : Reaches next s t :=
  ⟨as, h.weaken fun _ _ _ => trivial⟩

/-- A run whose actions all meet a condition, in every state, is a run under it. -/
theorem Run.of_actions {E : A → Prop} (h : Run next C s as t) (hE : ∀ a ∈ as, E a) :
    Run next (fun _ a => E a) s as t := by
  induction h with
  | start => exact .start
  | step _ _ hn ih =>
    have hinit := ih fun a ha => hE a (List.mem_append_left _ ha)
    exact .step hinit (hE _ (List.mem_append_right _ (List.mem_singleton_self _))) hn

/-- Two runs in a row are a run. -/
theorem Run.append (h₁ : Run next C s as t) (h₂ : Run next C t bs u) :
    Run next C s (as ++ bs) u := by
  induction h₂ with
  | start => rwa [List.append_nil]
  | step _ hc hn ih =>
      rw [← List.append_assoc]
      exact .step ih hc hn

/-- A run that takes one step first. -/
theorem Run.cons {a : A} (hc : C s a) (hn : next s a = some t) (h : Run next C t as u) :
    Run next C s (a :: as) u :=
  (Run.step .start hc hn).append h

/-- What holds at the start of a run and is kept by its steps holds at its end. -/
theorem Run.invariant (h : Run next C s as t) (I : S → Prop) (hs : I s)
    (hstep : ∀ t a u, I t → C t a → next t a = some u → I u) : I t := by
  induction h with
  | start => exact hs
  | step _ hc hn ih => exact hstep _ _ _ ih hc hn

/-- The rule for a system whose actions are always enabled. -/
theorem Run.invariant_total {f : S → A → S} (h : Run (fun s a => some (f s a)) C s as t)
    (I : S → Prop) (hs : I s) (hstep : ∀ t a, I t → C t a → I (f t a)) : I t := by
  refine h.invariant I hs fun t a u hI hc hn => ?_
  obtain rfl := Option.some.inj hn
  exact hstep t a hI hc

/-- A run has no more steps than its start measures when every step lowers the measure. -/
theorem Run.length_add_le (h : Run next C s as t) {μ : S → ℕ}
    (hμ : ∀ t a u, next t a = some u → μ u < μ t) : as.length + μ t ≤ μ s := by
  induction h with
  | start =>
    rw [List.length_nil]
    omega
  | step _ _ hn ih =>
    have hlower := hμ _ _ _ hn
    rw [List.length_append, List.length_singleton]
    omega

/-- What every step keeps holds of every state reached. -/
theorem Reaches.invariant (h : Reaches next s t) (I : S → Prop) (hs : I s)
    (hstep : ∀ t a u, I t → next t a = some u → I u) : I t := by
  obtain ⟨_, hrun⟩ := h
  exact hrun.invariant I hs fun t a u hI _ hn => hstep t a u hI hn

theorem Reaches.invariant_total {f : S → A → S} (h : Reaches (fun s a => some (f s a)) s t)
    (I : S → Prop) (hs : I s) (hstep : ∀ t a, I t → I (f t a)) : I t := by
  obtain ⟨_, hrun⟩ := h
  exact hrun.invariant_total I hs fun t a hI _ => hstep t a hI

theorem Reaches.refl (s : S) : Reaches next s s := ⟨[], .start⟩

theorem Reaches.trans (h₁ : Reaches next s t) (h₂ : Reaches next t u) : Reaches next s u := by
  obtain ⟨as, h₁⟩ := h₁
  obtain ⟨bs, h₂⟩ := h₂
  exact ⟨as ++ bs, h₁.append h₂⟩

theorem Reaches.step {a : A} (h : Reaches next s t) (hn : next t a = some u) :
    Reaches next s u := by
  obtain ⟨as, h⟩ := h
  exact ⟨as ++ [a], h.step trivial hn⟩

/-! ## Running a list of actions -/

/-- Take the actions of a list in order, as long as each meets the condition and is
enabled. -/
def runs (next : S → A → Option S) (C : S → A → Bool) (s : S) : List A → Option S
  | [] => some s
  | a :: as => if C s a then (next s a).bind fun t => runs next C t as else none

/-- What `runs` computes is a run. -/
theorem run_of_runs {C : S → A → Bool} (h : runs next C s as = some t) :
    Run next (fun s a => C s a = true) s as t := by
  induction as generalizing s with
  | nil =>
      obtain rfl : s = t := by simpa [runs] using h
      exact .start
  | cons a as ih =>
      unfold runs at h
      split at h
      · rename_i hc
        obtain ⟨u, hu, hrest⟩ := Option.bind_eq_some_iff.mp h
        exact .cons hc hu (ih hrest)
      · cases h

/-- A test of what `runs` computes is a run to a state that passes the test. -/
theorem exists_run_of_runs {C : S → A → Bool} {P : S → Bool}
    (h : (runs next C s as).any P = true) :
    ∃ t, Run next (fun s a => C s a = true) s as t ∧ P t = true := by
  obtain ⟨t, ht, hP⟩ := (Option.any_eq_true P _).mp h
  exact ⟨t, run_of_runs ht, hP⟩

end Runs
