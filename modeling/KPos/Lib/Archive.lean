/-
# Lists whose entries stay

An archive only grows: its entries stay in their order, and new ones come behind them.  An
entry that stays may change as far as a relation `E` allows, not at all when `E` is equality.

* `Extends E old new` : the entries of `old` stay in `new`, each changed as `E` allows;
* `Extends.trans`, `Extends.append`, `Extends.map` : how archives change;
* `extends_insert`, `extends_update`, `extends_replace` : what keeps the rows of a table.
-/
import Mathlib.Data.List.Forall2
import KPos.Lib.Table

/-- The entries of the old list stay in the new one, each changed as `E` allows, and what is
new comes behind them. -/
def Extends {α : Type*} (E : α → α → Prop) (old new : List α) : Prop :=
  ∃ kept added, List.Forall₂ E old kept ∧ new = kept ++ added

section Extends

variable {α : Type*} {E D : α → α → Prop} {l l₁ l₂ l₃ : List α}

theorem Extends.append (hE : ∀ a, E a a) (l added : List α) : Extends E l (l ++ added) :=
  ⟨l, added, List.forall₂_same.mpr fun a _ => hE a, rfl⟩

theorem Extends.refl (hE : ∀ a, E a a) (l : List α) : Extends E l l := by
  have h := Extends.append hE l []
  rwa [List.append_nil] at h

/-- Entries that are changed one by one stay. -/
theorem Extends.map {f : α → α} (hf : ∀ a ∈ l, E a (f a)) : Extends E l (l.map f) := by
  refine ⟨l.map f, [], ?_, (List.append_nil _).symm⟩
  rw [List.forall₂_map_right_iff, List.forall₂_same]
  exact hf

/-- What stays twice stays. -/
theorem Extends.trans (hE : ∀ a b c, E a b → E b c → E a c) (h₁ : Extends E l₁ l₂)
    (h₂ : Extends E l₂ l₃) : Extends E l₁ l₃ := by
  obtain ⟨kept, added, hkept, rfl⟩ := h₁
  obtain ⟨kept', added', hkept', rfl⟩ := h₂
  -- the entries that stay twice are the first of those that stay the second time
  have hfirst : List.Forall₂ E kept (kept'.take kept.length) := by
    have h := List.forall₂_take kept.length hkept'
    rwa [List.take_left] at h
  have hlen : l₁.length = kept.length := hkept.length_eq
  refine ⟨kept'.take kept.length, kept'.drop kept.length ++ added', ?_, ?_⟩
  · rw [List.forall₂_iff_get] at hkept hfirst ⊢
    refine ⟨hkept.1.trans hfirst.1, fun i h h' => ?_⟩
    exact hE _ _ _ (hkept.2 i h (hlen ▸ h)) (hfirst.2 i (hlen ▸ h) h')
  · rw [← List.append_assoc, List.take_append_drop]

theorem Extends.imp (hED : ∀ a b, E a b → D a b) (h : Extends E l₁ l₂) : Extends D l₁ l₂ := by
  obtain ⟨kept, added, hkept, rfl⟩ := h
  exact ⟨kept, added, hkept.imp hED, rfl⟩

/-- An entry of the old list is found in the new one. -/
theorem Extends.exists_mem (h : Extends E l₁ l₂) {a : α} (ha : a ∈ l₁) : ∃ b ∈ l₂, E a b := by
  obtain ⟨kept, added, hkept, rfl⟩ := h
  obtain ⟨i, hi, rfl⟩ := List.getElem_of_mem ha
  obtain ⟨hlen, hget⟩ := List.forall₂_iff_get.mp hkept
  have hi' : i < kept.length := hlen ▸ hi
  exact ⟨kept[i], List.mem_append_left _ (List.getElem_mem hi'), hget i hi hi'⟩

end Extends

section Tables

variable {R K : Type} [UniqueKeys R K] [DecidableEq K] {E : R → R → Prop} {t t' : Table R}

/-- The rows of a table stay when a row is inserted. -/
theorem extends_insert (hE : ∀ r, E r r) {r : R} (h : t.insert r = some t') :
    Extends E t.rows t'.rows := by
  rw [(Table.insert_eq_some.mp h).2]
  exact .append hE _ _

/-- The rows of a table stay when `f` changes those under a key, as `E` allows. -/
theorem extends_of_map (hE : ∀ r, E r r) {k : K} {f : R → R}
    (h : t'.rows = t.rows.map fun r => if k ∈ UniqueKeys.keys r then f r else r)
    (hf : ∀ r ∈ t.rows, k ∈ UniqueKeys.keys r → E r (f r)) : Extends E t.rows t'.rows := by
  rw [h]
  refine .map fun r hr => ?_
  by_cases hk : k ∈ UniqueKeys.keys r
  · rw [if_pos hk]
    exact hf r hr hk
  · rw [if_neg hk]
    exact hE r

theorem extends_update (hE : ∀ r, E r r) {k : K} {f : Rewrite R}
    (hf : ∀ r ∈ t.rows, k ∈ UniqueKeys.keys r → E r (f r)) :
    Extends E t.rows (t.update k f).rows := extends_of_map hE Table.rows_update hf

theorem extends_replace (hE : ∀ r, E r r) {k : K} {f : R → R} (h : t.replace k f = some t')
    (hf : ∀ r ∈ t.rows, k ∈ UniqueKeys.keys r → E r (f r)) : Extends E t.rows t'.rows :=
  extends_of_map hE (Table.rows_replace h) hf

end Tables
