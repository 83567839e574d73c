/-
# Books that are written once

A book has an entry under some keys.  Whoever comes first writes: an entry that is offered is
written under a key that is free, and then it is never changed or taken back.

* `Step`, `Steps` : one entry is written, any number of entries are;
* `Steps.stays` : what is written stays;
* `Steps.was_offered` : what was written in between was offered;
* `steps_of_run` : the runs of a system each of whose steps writes one entry at most.
-/
import KPos.Lib.Runs
import Mathlib.Logic.Function.Basic
import Mathlib.Logic.Relation

namespace WriteOnce

/-- A book: the entries under the keys. -/
abbrev Book (K V : Type*) := K → Option V

section Steps

variable {K V : Type*} [DecidableEq K] {offered wider : K → V → Prop} {b b₁ b₂ b₃ : Book K V}
  {k : K} {v : V}

/-- An entry that is offered is written under a free key. -/
inductive Step (offered : K → V → Prop) (b : Book K V) : Book K V → Prop
  | write (k : K) (v : V) (offer : offered k v) (free : b k = none) :
      Step offered b (Function.update b k (some v))

/-- Entries are written one after the other. -/
def Steps (offered : K → V → Prop) : Book K V → Book K V → Prop :=
  Relation.ReflTransGen (Step offered)

theorem Step.stays (h : Step offered b₁ b₂) (hk : b₁ k = some v) : b₂ k = some v := by
  cases h with
  | write j w offer free =>
    -- the key is not free, so it is another one
    have hne : k ≠ j := by
      rintro rfl
      rw [free] at hk
      cases hk
    rw [Function.update_of_ne hne]
    exact hk

theorem Step.was_offered (h : Step offered b₁ b₂) (hk : b₂ k = some v) :
    b₁ k = some v ∨ offered k v := by
  cases h with
  | write j w offer free =>
    by_cases hkj : k = j
    · subst hkj
      rw [Function.update_self] at hk
      obtain rfl := Option.some.inj hk
      exact Or.inr offer
    · rw [Function.update_of_ne hkj] at hk
      exact Or.inl hk

theorem Step.mono (h : Step offered b₁ b₂) (hsub : ∀ k v, offered k v → wider k v) :
    Step wider b₁ b₂ := by
  cases h with
  | write k v offer free => exact .write k v (hsub k v offer) free

/-- **What is written stays.** -/
theorem Steps.stays (h : Steps offered b₁ b₂) (hk : b₁ k = some v) : b₂ k = some v := by
  induction h with
  | refl => exact hk
  | tail _ hstep ih => exact hstep.stays ih

/-- **What is written was offered**, or it was there before. -/
theorem Steps.was_offered (h : Steps offered b₁ b₂) (hk : b₂ k = some v) :
    b₁ k = some v ∨ offered k v := by
  induction h with
  | refl => exact Or.inl hk
  | tail _ hstep ih =>
    rcases hstep.was_offered hk with hk | hoffer
    · exact ih hk
    · exact Or.inr hoffer

theorem Steps.mono (h : Steps offered b₁ b₂) (hsub : ∀ k v, offered k v → wider k v) :
    Steps wider b₁ b₂ := by
  induction h with
  | refl => exact .refl
  | tail _ hstep ih => exact .tail ih (hstep.mono hsub)

end Steps

/-! ## Runs -/

section Runs

variable {S A K V : Type*} [DecidableEq K] {next : S → A → Option S} {C : S → A → Prop} {s t : S}
  {as : List A}

/-- A system refines a book: each of its steps leaves the book alone, or writes into it an entry
that was offered so far.  Then its runs write what was offered in the end. -/
theorem steps_of_run (book : S → Book K V) {offered : S → K → V → Prop}
    (h : Runs.Run next C s as t) (I : S → Prop) (hs : I s)
    (hI : ∀ s a t, I s → C s a → next s a = some t → I t)
    (hoffered : ∀ s a t, next s a = some t → ∀ k v, offered s k v → offered t k v)
    (hstep : ∀ s a t, I s → next s a = some t →
      book t = book s ∨ Step (offered s) (book s) (book t)) :
    Steps (offered t) (book s) (book t) := by
  have hall : I t ∧ Steps (offered t) (book s) (book t) := by
    refine h.invariant (fun t => I t ∧ Steps (offered t) (book s) (book t)) ⟨hs, .refl⟩ ?_
    rintro t a u ⟨ht, hsteps⟩ hc hn
    have hmono := hoffered t a u hn
    refine ⟨hI t a u ht hc hn, ?_⟩
    rcases hstep t a u ht hn with hsame | hwrite
    · rw [hsame]
      exact hsteps.mono hmono
    · exact Relation.ReflTransGen.tail (hsteps.mono hmono) (hwrite.mono hmono)
  exact hall.2

end Runs

end WriteOnce
