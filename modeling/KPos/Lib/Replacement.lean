/-
# Documents that replace one another

Documents are opened, replaced by new ones, withdrawn and restored; some are discarded.  A
discarded document should take everything that came to replace it out with it.  The rules
say which steps keep that so: each one states what a step adds at most.

* `Replacements` : which documents are live, known and discarded, and which replaced which;
* `Clean` : nothing live replaces a discarded document, through any number of replacements;
* `Clean.withdraw`, `Clean.add`, `Clean.restore`, `Clean.replace`, `Clean.discard` : the steps;
* `Single` : of the documents that replacements link, in either direction, one is live at most;
* `Single.withdraw`, `Single.add`, `Single.replace` : the steps that keep it.
-/
import Mathlib.Logic.Function.Basic
import Mathlib.Logic.Relation

open Relation

/-- The state of a set of documents. -/
structure Replacements (α : Type*) where
  live : α → Prop
  known : α → Prop
  replacedBy : α → α → Prop
  discarded : α → Prop

namespace Replacements

variable {α : Type*} {s s' : Replacements α} {o n d : α}

/-- What came to replace a document, the document itself included. -/
abbrev Chain (s : Replacements α) : α → α → Prop := ReflTransGen s.replacedBy

/-- No live document is in the chain of a discarded one. -/
structure Clean (s : Replacements α) : Prop where
  links : ∀ a b, s.replacedBy a b → s.known a ∧ s.known b
  discarded : ∀ d, s.discarded d → s.known d
  out : ∀ d, s.discarded d → ∀ i, s.Chain d i → ¬ s.live i

/-- Nothing new in a state: what is live, linked and discarded was so before. -/
structure Within (s' s : Replacements α) : Prop where
  known : ∀ i, s.known i → s'.known i
  replacedBy : ∀ a b, s'.replacedBy a b → s.replacedBy a b
  discarded : ∀ d, s'.discarded d → s.discarded d

/-- A chain of fewer links is a chain. -/
theorem Within.chain (h : Within s' s) {a b : α} (hc : s'.Chain a b) : s.Chain a b :=
  ReflTransGen.mono h.replacedBy _ _ hc

theorem Within.links (h : Within s' s) (hs : s.Clean) (a b : α) (hab : s'.replacedBy a b) :
    s'.known a ∧ s'.known b := by
  obtain ⟨ha, hb⟩ := hs.links a b (h.replacedBy a b hab)
  exact ⟨h.known a ha, h.known b hb⟩

/-- A chain to a document that replaced nothing is empty. -/
theorem chain_eq_of_unlinked {i : α} (hi : ∀ a, ¬ s.replacedBy a i) (hc : s.Chain d i) :
    d = i := by
  cases hc with
  | refl => rfl
  | tail _ hlast => exact absurd hlast (hi _)

/-! ## The steps -/

/-- Documents are withdrawn. -/
theorem Clean.withdraw (hs : s.Clean) (h : Within s' s) (hlive : ∀ i, s'.live i → s.live i) :
    s'.Clean where
  links := h.links hs
  discarded := fun d hd => h.known d (hs.discarded d (h.discarded d hd))
  out := fun d hd i hc hi => hs.out d (h.discarded d hd) i (h.chain hc) (hlive i hi)

/-- Documents are opened that replace nothing, and restored that are not discarded. -/
theorem Clean.restore (hs : s.Clean) (h : Within s' s)
    (hlive : ∀ i, s'.live i → s.live i ∨ ((∀ a, ¬ s.replacedBy a i) ∧ ¬ s.discarded i)) :
    s'.Clean where
  links := h.links hs
  discarded := fun d hd => h.known d (hs.discarded d (h.discarded d hd))
  out := by
    intro d hd i hc hi
    have hd := h.discarded d hd
    rcases hlive i hi with hi | ⟨hunlinked, hkept⟩
    · exact hs.out d hd i (h.chain hc) hi
    · obtain rfl := chain_eq_of_unlinked hunlinked (h.chain hc)
      exact hkept hd

/-- A document is opened. -/
theorem Clean.add (hs : s.Clean) (h : Within s' s) (hn : ¬ s.known n)
    (hlive : ∀ i, s'.live i → s.live i ∨ i = n) : s'.Clean := by
  refine hs.restore h fun i hi => ?_
  rcases hlive i hi with hi | rfl
  · exact Or.inl hi
  · exact Or.inr ⟨fun a ha => hn (hs.links a i ha).2, fun hd => hn (hs.discarded i hd)⟩

/-- A live document is replaced by a new one. -/
theorem Clean.replace (hs : s.Clean) (hn : ¬ s.known n) (ho : s.known o)
    (hknown : ∀ i, s.known i → s'.known i) (hnew : s'.known n)
    (hlinks : ∀ a b, s'.replacedBy a b → s.replacedBy a b ∨ a = o ∧ b = n)
    (hdiscarded : ∀ d, s'.discarded d → s.discarded d)
    (hlive : ∀ i, s'.live i → s.live i ∧ i ≠ n ∨ i = n ∧ s.live o) : s'.Clean where
  links := by
    intro a b hab
    rcases hlinks a b hab with hab | ⟨rfl, rfl⟩
    · exact ⟨hknown a (hs.links a b hab).1, hknown b (hs.links a b hab).2⟩
    · exact ⟨hknown a ho, hnew⟩
  discarded := fun d hd => hknown d (hs.discarded d (hdiscarded d hd))
  out := by
    intro d hd i hc hi
    have hd := hdiscarded d hd
    have hne : d ≠ n := fun heq => hn (heq ▸ hs.discarded d hd)
    -- a chain stays within the old links until it takes the new one, which ends it
    have hold : s.Chain d i ∧ i ≠ n ∨ s.Chain d o ∧ i = n := by
      clear hi
      induction hc with
      | refl => exact Or.inl ⟨.refl, hne⟩
      | tail _ hlast ih =>
        rcases hlinks _ _ hlast with hlast | ⟨rfl, rfl⟩
        · rcases ih with ⟨hc, -⟩ | ⟨-, rfl⟩
          · exact Or.inl ⟨hc.tail hlast, fun heq => hn (heq ▸ (hs.links _ _ hlast).2)⟩
          · exact absurd (hs.links _ _ hlast).1 hn
        · rcases ih with ⟨hc, -⟩ | ⟨-, rfl⟩
          · exact Or.inr ⟨hc, rfl⟩
          · exact absurd ho hn
    rcases hold with ⟨hc, hin⟩ | ⟨hc, rfl⟩
    · rcases hlive i hi with ⟨hi, -⟩ | ⟨rfl, -⟩
      · exact hs.out d hd i hc hi
      · exact hin rfl
    · rcases hlive i hi with ⟨-, hne⟩ | ⟨-, ho⟩
      · exact hne rfl
      · exact hs.out d hd o hc ho

/-- A document is discarded once nothing live is left in its chain. -/
theorem Clean.discard (hs : s.Clean) (hd : s.known d) (hknown : ∀ i, s.known i → s'.known i)
    (hlinks : ∀ a b, s'.replacedBy a b → s.replacedBy a b)
    (hdiscarded : ∀ x, s'.discarded x → s.discarded x ∨ x = d)
    (hlive : ∀ i, s'.live i → s.live i) (hout : ∀ i, s.Chain d i → ¬ s'.live i) : s'.Clean where
  links := by
    intro a b hab
    obtain ⟨ha, hb⟩ := hs.links a b (hlinks a b hab)
    exact ⟨hknown a ha, hknown b hb⟩
  discarded := by
    intro x hx
    rcases hdiscarded x hx with hx | rfl
    · exact hknown x (hs.discarded x hx)
    · exact hknown x hd
  out := by
    intro x hx i hc hi
    have hc : s.Chain x i := ReflTransGen.mono hlinks _ _ hc
    rcases hdiscarded x hx with hx | rfl
    · exact hs.out x hx i hc (hlive i hi)
    · exact hout i hc hi

/-! ## One live document of those that are linked -/

/-- Documents that replacements link, in either direction. -/
abbrev Linked (s : Replacements α) : α → α → Prop := EqvGen s.replacedBy

/-- Of documents that are linked, one is live at most. -/
structure Single (s : Replacements α) : Prop where
  links : ∀ a b, s.replacedBy a b → s.known a ∧ s.known b
  live : ∀ d, s.live d → s.known d
  single : ∀ a b, s.Linked a b → s.live a → s.live b → a = b

/-- Fewer links link less. -/
theorem Within.linked (h : Within s' s) {a b : α} (hl : s'.Linked a b) : s.Linked a b :=
  EqvGen.mono h.replacedBy _ _ hl

/-- An unknown document is linked to none but itself. -/
theorem Single.eq_of_linked_unknown (hs : s.Single) {a b : α} (hl : s.Linked a b)
    (hab : ¬ s.known a ∨ ¬ s.known b) : a = b := by
  induction hl with
  | rel a b h =>
    obtain ⟨ha, hb⟩ := hs.links a b h
    rcases hab with hab | hab
    · exact absurd ha hab
    · exact absurd hb hab
  | refl a => rfl
  | symm a b _ ih => exact (ih hab.symm).symm
  | trans a b c _ _ ihab ihbc =>
    rcases hab with ha | hc
    · obtain rfl := ihab (Or.inl ha)
      exact ihbc (Or.inl ha)
    · obtain rfl := ihbc (Or.inr hc)
      exact ihab (Or.inr hc)

/-- Documents are withdrawn. -/
theorem Single.withdraw (hs : s.Single) (h : Within s' s) (hlive : ∀ i, s'.live i → s.live i) :
    s'.Single where
  links := by
    intro a b hab
    obtain ⟨ha, hb⟩ := hs.links a b (h.replacedBy a b hab)
    exact ⟨h.known a ha, h.known b hb⟩
  live := fun d hd => h.known d (hs.live d (hlive d hd))
  single := fun a b hl ha hb => hs.single a b (h.linked hl) (hlive a ha) (hlive b hb)

/-- A document is opened. -/
theorem Single.add (hs : s.Single) (h : Within s' s) (hn : ¬ s.known n) (hnew : s'.known n)
    (hlive : ∀ i, s'.live i → s.live i ∨ i = n) : s'.Single where
  links := by
    intro a b hab
    obtain ⟨ha, hb⟩ := hs.links a b (h.replacedBy a b hab)
    exact ⟨h.known a ha, h.known b hb⟩
  live := by
    intro d hd
    rcases hlive d hd with hd | rfl
    · exact h.known d (hs.live d hd)
    · exact hnew
  single := by
    intro a b hl ha hb
    have hl := h.linked hl
    rcases hlive a ha with ha | rfl
    · rcases hlive b hb with hb | rfl
      · exact hs.single a b hl ha hb
      · exact hs.eq_of_linked_unknown hl (Or.inr hn)
    · exact hs.eq_of_linked_unknown hl (Or.inl hn)

/-- A document that is not live is replaced by a new one, which is not live either. -/
theorem Single.replace [DecidableEq α] (hs : s.Single) (hn : ¬ s.known n) (ho : s.known o)
    (hknown : ∀ i, s.known i → s'.known i) (hnew : s'.known n)
    (hlinks : ∀ a b, s'.replacedBy a b → s.replacedBy a b ∨ a = o ∧ b = n)
    (hlive : ∀ i, s'.live i → s.live i) : s'.Single where
  links := by
    intro a b hab
    rcases hlinks a b hab with hab | ⟨rfl, rfl⟩
    · exact ⟨hknown a (hs.links a b hab).1, hknown b (hs.links a b hab).2⟩
    · exact ⟨hknown a ho, hnew⟩
  live := fun d hd => hknown d (hs.live d (hlive d hd))
  single := by
    intro a b hl ha hb
    have hkeep : ∀ x, s.known x → Function.update id n o x = x := by
      intro x hx
      have hne : x ≠ n := fun heq => hn (heq ▸ hx)
      exact Function.update_of_ne hne o id
    -- with the new document put in the place of the old one, the new link is none
    have hfold : ∀ a b, s'.Linked a b →
        s.Linked (Function.update id n o a) (Function.update id n o b) := by
      intro a b hl
      induction hl with
      | rel a b h =>
        rcases hlinks a b h with h | ⟨rfl, rfl⟩
        · obtain ⟨ha, hb⟩ := hs.links a b h
          rw [hkeep a ha, hkeep b hb]
          exact .rel _ _ h
        · rw [Function.update_self, hkeep a ho]
          exact .refl _
      | refl a => exact .refl _
      | symm a b _ ih => exact .symm _ _ ih
      | trans a b c _ _ ihab ihbc => exact .trans _ _ _ ihab ihbc
    have ha := hlive a ha
    have hb := hlive b hb
    have hl := hfold a b hl
    rw [hkeep a (hs.live a ha), hkeep b (hs.live b hb)] at hl
    exact hs.single a b hl ha hb

end Replacements
