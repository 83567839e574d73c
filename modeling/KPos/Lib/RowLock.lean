/-
# Row locks held to the end

Processes read rows of a keyed store under exclusive locks and keep every lock until
they end.  A row that does not exist cannot be locked; such rows stay absent here, since a
process that ends may change the rows it owns but neither creates nor deletes any.

Main result: `LockStep.valid`, by which everything a live process has read is still what
the store holds.
-/
import Mathlib.Logic.Function.Basic
import Mathlib.Data.List.Basic

/-- A store of rows, who holds the lock of each row, and what each process has read. -/
structure LockView (K V P : Type*) where
  row : K → Option V
  owner : K → Option P
  reads : P → List (K × Option V)

namespace LockView

variable {K V P : Type*} [DecidableEq K] [DecidableEq P] {σ τ : LockView K V P}

/-- A step of the locking discipline. -/
inductive LockStep (σ : LockView K V P) : LockView K V P → Prop
  /-- `p` reads a row that is free or its own, and holds its lock from now on. -/
  | lock (p : P) (k : K) (hfree : σ.owner k = none ∨ σ.owner k = some p)
      (hrow : σ.row k ≠ none) :
      LockStep σ
        { row := σ.row
          owner := Function.update σ.owner k (some p)
          reads := Function.update σ.reads p ((k, σ.row k) :: σ.reads p) }
  /-- `p` looks for a row that does not exist. -/
  | miss (p : P) (k : K) (hrow : σ.row k = none) :
      LockStep σ { σ with reads := Function.update σ.reads p ((k, none) :: σ.reads p) }
  /-- `p` ends: it may have changed the rows it owns, and its locks are released. -/
  | finish (p : P) (row' : K → Option V)
      (hown : ∀ k, σ.owner k ≠ some p → row' k = σ.row k)
      (habsent : ∀ k, σ.row k = none → row' k = none) :
      LockStep σ
        { row := row'
          owner := fun k => if σ.owner k = some p then none else σ.owner k
          reads := Function.update σ.reads p [] }

/-- What a process has read is what the store holds, and the rows it found are its own. -/
def Valid (σ : LockView K V P) : Prop :=
  ∀ p k v, (k, v) ∈ σ.reads p → σ.row k = v ∧ (v ≠ none → σ.owner k = some p)

omit [DecidableEq K] [DecidableEq P] in
/-- A view in which nobody has read anything is valid. -/
theorem valid_of_reads_nil (h : ∀ p, σ.reads p = []) : σ.Valid := by
  intro p k v hmem
  rw [h p] at hmem
  cases hmem

/-- **Reads under locks stay valid.** -/
theorem LockStep.valid (hstep : LockStep σ τ) (hσ : σ.Valid) : τ.Valid := by
  intro q j v hmem
  cases hstep with
  | lock p k hfree hrow =>
      by_cases hq : q = p
      · subst hq
        simp only [Function.update_self, List.mem_cons, Prod.mk.injEq] at hmem
        rcases hmem with ⟨rfl, rfl⟩ | hmem
        · exact ⟨rfl, fun _ => by simp⟩
        · obtain ⟨hv, hown⟩ := hσ q j v hmem
          refine ⟨hv, fun hne => ?_⟩
          by_cases hj : j = k
          · simp [hj]
          · simpa [hj] using hown hne
      · simp only [Function.update_of_ne hq] at hmem
        obtain ⟨hv, hown⟩ := hσ q j v hmem
        refine ⟨hv, fun hne => ?_⟩
        -- the row is locked by `q`, so it is not the one that `p` could lock
        have hj : j ≠ k := by
          rintro rfl
          rw [hown hne] at hfree
          rcases hfree with h | h
          · cases h
          · exact hq (Option.some.inj h)
        simpa [hj] using hown hne
  | miss p k hrow =>
      by_cases hq : q = p
      · subst hq
        simp only [Function.update_self, List.mem_cons, Prod.mk.injEq] at hmem
        rcases hmem with ⟨rfl, rfl⟩ | hmem
        · exact ⟨hrow, fun hne => absurd rfl hne⟩
        · exact hσ q j v hmem
      · simp only [Function.update_of_ne hq] at hmem
        exact hσ q j v hmem
  | finish p row' hown habsent =>
      by_cases hq : q = p
      · subst hq
        simp at hmem
      · simp only [Function.update_of_ne hq] at hmem
        obtain ⟨hv, hheld⟩ := hσ q j v hmem
        cases v with
        | none => exact ⟨habsent j hv, fun hne => absurd rfl hne⟩
        | some w =>
            have howner := hheld (by simp)
            have hne : σ.owner j ≠ some p := by
              rw [howner]
              exact fun h => hq (Option.some.inj h)
            refine ⟨(hown j hne).trans hv, fun _ => ?_⟩
            simp only [if_neg hne]
            exact howner

end LockView
