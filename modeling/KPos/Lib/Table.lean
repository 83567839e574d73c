/-
# Tables with unique constraints

A row occupies a list of keys (its primary key, its unique columns), and no two
rows of a table share a key.  `Table` carries that fact, so a table that breaks a unique
constraint cannot be built: `insert` and `replace` refuse what would break it, and
`update` only rewrites columns outside the keys.

* `findUnique`, `has` : the lookup by a key;
* `insert` : the new table, or nothing when a key of the row is taken;
* `update` : the rows with a key, rewritten outside their keys (`Rewrite`);
* `replace` : the same for a function that may change keys, refused when two rows clash;
* `delete` : the table without the row that has a key;
* `only` : the table of the rows of a kind.
-/
import Mathlib.Data.List.Basic
import Mathlib.Data.List.Find
import Mathlib.Data.List.Pairwise

/-- The keys that a row occupies in its table. -/
class UniqueKeys (R : Type) (K : outParam Type) where
  keys : R → List K

/-- Two rows share no key. -/
def Apart {R K : Type} [UniqueKeys R K] (r s : R) : Prop :=
  ∀ k ∈ UniqueKeys.keys r, k ∉ UniqueKeys.keys s

instance {R K : Type} [UniqueKeys R K] [DecidableEq K] : DecidableRel (Apart (R := R)) :=
  fun r s => inferInstanceAs (Decidable (∀ k ∈ UniqueKeys.keys r, k ∉ UniqueKeys.keys s))

/-- A change of the columns outside the keys. -/
structure Rewrite (R : Type) {K : Type} [UniqueKeys R K] where
  toFun : R → R
  keys_eq : ∀ r, UniqueKeys.keys (toFun r) = UniqueKeys.keys r

instance {R K : Type} [UniqueKeys R K] : CoeFun (Rewrite R) fun _ => R → R := ⟨Rewrite.toFun⟩

/-- The rows of a table, in the order of their insertion, no two of them sharing a key. -/
structure Table (R : Type) {K : Type} [UniqueKeys R K] where
  rows : List R
  apart : rows.Pairwise Apart

namespace Table

open UniqueKeys

variable {R K : Type} [UniqueKeys R K]

/-- The table without rows. -/
def empty : Table R := ⟨[], .nil⟩

instance : Std.Symm (Apart (R := R)) where
  symm := fun _ _ h k hs hr => h k hr hs

/-- A table is its rows. -/
theorem ext {t u : Table R} (h : t.rows = u.rows) : t = u := by
  cases t
  cases u
  congr

/-- Rows that share a key are one row. -/
theorem eq_of_key {t : Table R} {r s : R} {k : K} (hr : r ∈ t.rows) (hs : s ∈ t.rows)
    (hkr : k ∈ keys r) (hks : k ∈ keys s) : r = s := by
  by_contra hne
  exact t.apart.forall hr hs hne k hkr hks

/-- At most one row has a key. -/
theorem length_filter_le_one (t : Table R) {k : K} {p : R → Bool}
    (hp : ∀ r, p r = true → k ∈ keys r) : (t.rows.filter p).length ≤ 1 := by
  have hapart : (t.rows.filter p).Pairwise Apart := t.apart.filter p
  have hkeys : ∀ r ∈ t.rows.filter p, k ∈ keys r := fun r hr => hp r (List.mem_filter.mp hr).2
  cases hrows : t.rows.filter p with
  | nil => simp
  | cons r rest =>
      cases rest with
      | nil => simp
      | cons s rest =>
          rw [hrows] at hapart hkeys
          have hrs : Apart r s := (List.pairwise_cons.mp hapart).1 s List.mem_cons_self
          exact absurd (hkeys s (List.mem_cons_of_mem _ List.mem_cons_self))
            (hrs k (hkeys r List.mem_cons_self))

/-! ## Lookup -/

section Lookup

variable [DecidableEq K]

/-- The row that occupies the key, if there is one. -/
def findUnique (t : Table R) (k : K) : Option R :=
  t.rows.find? fun r => decide (k ∈ keys r)

/-- Whether some row occupies the key. -/
def has (t : Table R) (k : K) : Bool := (t.findUnique k).isSome

theorem findUnique_eq_some {t : Table R} {k : K} {r : R} :
    t.findUnique k = some r ↔ r ∈ t.rows ∧ k ∈ keys r := by
  constructor
  · intro h
    exact ⟨List.mem_of_find?_eq_some h, by simpa using List.find?_some h⟩
  · rintro ⟨hr, hk⟩
    cases hfind : t.findUnique k with
    | none =>
        have := List.find?_eq_none.mp hfind r hr
        simp [hk] at this
    | some s =>
        have hs := List.mem_of_find?_eq_some hfind
        have hks : k ∈ keys s := by simpa using List.find?_some hfind
        rw [eq_of_key hr hs hk hks]

theorem findUnique_eq_none {t : Table R} {k : K} :
    t.findUnique k = none ↔ ∀ r ∈ t.rows, k ∉ keys r := by
  simp [findUnique]

theorem has_iff {t : Table R} {k : K} : t.has k = true ↔ ∃ r ∈ t.rows, k ∈ keys r := by
  simp [has, findUnique]

theorem has_of_mem {t : Table R} {k : K} {r : R} (hr : r ∈ t.rows) (hk : k ∈ keys r) :
    t.has k = true := has_iff.mpr ⟨r, hr, hk⟩

theorem has_eq_false {t : Table R} {k : K} : t.has k = false ↔ ∀ r ∈ t.rows, k ∉ keys r := by
  simp [has, findUnique]

end Lookup

/-! ## Writing -/

section Writing

variable [DecidableEq K]

/-- The table with one more row, if none of its keys is taken. -/
def insert (t : Table R) (r : R) : Option (Table R) :=
  if h : ∀ s ∈ t.rows, Apart s r then
    some ⟨t.rows ++ [r], by
      rw [List.pairwise_append]
      exact ⟨t.apart, List.pairwise_singleton _ _, fun s hs r' hr' => by
        rw [List.mem_singleton.mp hr']
        exact h s hs⟩⟩
  else none

theorem insert_eq_some {t t' : Table R} {r : R} :
    t.insert r = some t' ↔ (∀ s ∈ t.rows, Apart s r) ∧ t'.rows = t.rows ++ [r] := by
  unfold insert
  split
  · rename_i h
    rw [Option.some.injEq]
    constructor
    · rintro rfl
      exact ⟨h, rfl⟩
    · rintro ⟨-, h'⟩
      cases t'
      simp only at h'
      subst h'
      rfl
  · rename_i h
    simp [h]

/-- The rows that occupy `k`, rewritten by `f`. -/
def update (t : Table R) (k : K) (f : Rewrite R) : Table R where
  rows := t.rows.map fun r => if k ∈ keys r then f r else r
  apart := by
    rw [List.pairwise_map]
    refine t.apart.imp fun {r s} hrs => ?_
    have hkeys : ∀ r, keys (if k ∈ keys r then f r else r) = keys r := by
      intro r
      split
      · exact f.keys_eq r
      · rfl
    intro j
    rw [hkeys, hkeys]
    exact hrs j

/-- The rows that occupy `k`, rewritten by `f`, if no two rows clash afterwards. -/
def replace (t : Table R) (k : K) (f : R → R) : Option (Table R) :=
  if h : (t.rows.map fun r => if k ∈ keys r then f r else r).Pairwise Apart then
    some ⟨t.rows.map fun r => if k ∈ keys r then f r else r, h⟩
  else none

/-- The table without the row that occupies `k`. -/
def delete (t : Table R) (k : K) : Table R where
  rows := t.rows.filter fun r => decide (k ∉ keys r)
  apart := t.apart.filter _

variable {t t' : Table R} {k j : K} {f : Rewrite R} {g : R → R} {r : R}

@[simp] theorem rows_update :
    (t.update k f).rows = t.rows.map fun r => if k ∈ keys r then f r else r := rfl

theorem rows_replace (h : t.replace k g = some t') :
    t'.rows = t.rows.map fun r => if k ∈ keys r then g r else r := by
  unfold replace at h
  split at h
  · cases h
    rfl
  · cases h

theorem mem_update_iff : r ∈ (t.update k f).rows ↔
    (∃ s ∈ t.rows, k ∈ keys s ∧ r = f s) ∨ (r ∈ t.rows ∧ k ∉ keys r) := by
  rw [rows_update, List.mem_map]
  constructor
  · rintro ⟨s, hs, rfl⟩
    by_cases hk : k ∈ keys s
    · exact Or.inl ⟨s, hs, hk, if_pos hk⟩
    · rw [if_neg hk]
      exact Or.inr ⟨hs, hk⟩
  · rintro (⟨s, hs, hk, rfl⟩ | ⟨hr, hk⟩)
    · exact ⟨s, hs, if_pos hk⟩
    · exact ⟨r, hr, if_neg hk⟩

/-- When the rows of a table are rewritten and a key stays where it was, a lookup by it
finds the row it found before, rewritten. -/
theorem findUnique_of_map (hrows : t'.rows = t.rows.map g)
    (hg : ∀ r ∈ t.rows, j ∈ keys (g r) ↔ j ∈ keys r) :
    t'.findUnique j = (t.findUnique j).map g := by
  cases hfind : t.findUnique j with
  | none =>
    rw [Option.map_none, findUnique_eq_none]
    intro r' hr'
    rw [hrows] at hr'
    obtain ⟨r, hr, rfl⟩ := List.mem_map.mp hr'
    rw [hg r hr]
    exact findUnique_eq_none.mp hfind r hr
  | some r =>
    obtain ⟨hr, hj⟩ := findUnique_eq_some.mp hfind
    rw [Option.map_some, findUnique_eq_some, hrows]
    exact ⟨List.mem_map_of_mem hr, (hg r hr).mpr hj⟩

/-- A lookup after an update finds the row it found before, rewritten if it has the key. -/
theorem findUnique_update : (t.update k f).findUnique j
    = (t.findUnique j).map fun r => if k ∈ keys r then f r else r := by
  apply findUnique_of_map rfl
  intro r _
  split
  · rw [f.keys_eq]
  · rfl

/-- The keys that a table occupies are the same after an update. -/
@[simp] theorem has_update : (t.update k f).has j = t.has j := by
  unfold has
  rw [findUnique_update, Option.isSome_map]

/-- A replacement goes through when the keys that the row gets are taken by no other row. -/
theorem replace_isSome (hg : ∀ r ∈ t.rows, k ∈ keys r → ∀ j ∈ keys (g r), ∀ s ∈ t.rows,
    j ∈ keys s → k ∈ keys s) : (t.replace k g).isSome := by
  unfold replace
  rw [dif_pos]
  · rfl
  · rw [List.pairwise_map]
    refine t.apart.imp_of_mem fun {r s} hr hs hrs => ?_
    by_cases hkr : k ∈ keys r
    · -- the other row does not have the key
      have hks : k ∉ keys s := hrs k hkr
      rw [if_pos hkr, if_neg hks]
      exact fun j hj hjs => hks (hg r hr hkr j hj s hs hjs)
    · rw [if_neg hkr]
      by_cases hks : k ∈ keys s
      · rw [if_pos hks]
        exact fun j hjr hj => hkr (hg s hs hks j hj r hr hjr)
      · rw [if_neg hks]
        exact hrs

/-- After a replacement, a lookup by a key that `g` leaves alone finds the row it found
before, rewritten if it has the key. -/
theorem findUnique_replace (h : t.replace k g = some t')
    (hj : ∀ r, j ∈ keys (g r) ↔ j ∈ keys r) :
    t'.findUnique j = (t.findUnique j).map fun r => if k ∈ keys r then g r else r := by
  apply findUnique_of_map (rows_replace h)
  intro r _
  split
  · exact hj r
  · rfl

/-- A key is taken after an insertion when it was taken or the new row has it. -/
theorem has_of_insert (h : t.insert r = some t') :
    t'.has j = true ↔ t.has j = true ∨ j ∈ keys r := by
  rw [has_iff, has_iff, (insert_eq_some.mp h).2]
  simp only [List.mem_append, List.mem_singleton]
  constructor
  · rintro ⟨s, hs | rfl, hj⟩
    · exact Or.inl ⟨s, hs, hj⟩
    · exact Or.inr hj
  · rintro (⟨s, hs, hj⟩ | hj)
    · exact ⟨s, Or.inl hs, hj⟩
    · exact ⟨r, Or.inr rfl, hj⟩

/-- An insertion goes through exactly when the new row's keys are free. -/
theorem insert_isSome_iff : (t.insert r).isSome ↔ ∀ j ∈ keys r, t.has j = false := by
  unfold insert
  split
  · rename_i h
    simp only [Option.isSome_some, true_iff]
    intro j hj
    rw [has_eq_false]
    exact fun s hs hjs => h s hs j hjs hj
  · rename_i h
    simp only [Option.isSome_none, Bool.false_eq_true, false_iff]
    intro hfree
    apply h
    intro s hs j hjs hj
    exact has_eq_false.mp (hfree j hj) s hs hjs

/-- What was found by a key is still found after an insertion. -/
theorem findUnique_insert_of_has (h : t.insert r = some t') (hj : t.has j = true) :
    t'.findUnique j = t.findUnique j := by
  obtain ⟨s, hs, hjs⟩ := has_iff.mp hj
  rw [findUnique_eq_some.mpr ⟨hs, hjs⟩, findUnique_eq_some, (insert_eq_some.mp h).2]
  exact ⟨List.mem_append_left _ hs, hjs⟩

/-- Under a key that the new row does not have, a lookup is as before the insertion. -/
theorem findUnique_insert_of_not_mem (h : t.insert r = some t') (hj : j ∉ keys r) :
    t'.findUnique j = t.findUnique j := by
  cases hhas : t.has j with
  | true => exact findUnique_insert_of_has h hhas
  | false =>
      have hnone : t.findUnique j = none := by simpa [has] using hhas
      have hnone' : t'.has j = false := by
        rw [Bool.eq_false_iff, ne_eq, has_of_insert h]
        simp [hhas, hj]
      rw [hnone]
      simpa [has] using hnone'

/-- The rows after an insertion: the new one and the others. -/
theorem mem_insert {s : R} (h : t.insert r = some t') : s ∈ t'.rows ↔ s ∈ t.rows ∨ s = r := by
  rw [(insert_eq_some.mp h).2, List.mem_append, List.mem_singleton]

/-- The keys of a new row were free. -/
theorem free_of_insert {s : R} (h : t.insert r = some t') (hs : s ∈ t.rows) (hj : j ∈ keys r) :
    j ∉ keys s := fun hjs => (insert_eq_some.mp h).1 s hs j hjs hj

/-- A key stays taken when a row is inserted. -/
theorem has_insert_mono (h : t.insert r = some t') (hj : t.has j = true) : t'.has j = true :=
  (has_of_insert h).mpr (Or.inl hj)

/-- A row is left alone when another one is rewritten. -/
theorem mem_update_of_not_mem {s : R} (hs : s ∈ t.rows) (hk : k ∉ keys s) :
    s ∈ (t.update k f).rows := mem_update_iff.mpr (Or.inr ⟨hs, hk⟩)

/-! ## Selections -/

/-- A selection that leaves the new row out is as before the insertion. -/
theorem filter_insert {p : R → Bool} (h : t.insert r = some t') (hr : p r = false) :
    t'.rows.filter p = t.rows.filter p := by
  rw [(insert_eq_some.mp h).2, List.filter_append, List.filter_singleton, hr]
  exact List.append_nil _

/-- A selection that leaves the changed rows out, as they were and as they are, is as before. -/
theorem filter_map_ite {p : R → Bool} {rows : List R}
    (hp : ∀ r ∈ rows, k ∈ keys r → p r = false ∧ p (g r) = false) :
    (rows.map fun r => if k ∈ keys r then g r else r).filter p = rows.filter p := by
  induction rows with
  | nil => rfl
  | cons r rows ih =>
    rw [List.map_cons, List.filter_cons, List.filter_cons]
    rw [ih fun s hs => hp s (List.mem_cons_of_mem _ hs)]
    by_cases hk : k ∈ keys r
    · obtain ⟨hr, hgr⟩ := hp r List.mem_cons_self hk
      rw [if_pos hk, hr, hgr]
      rfl
    · rw [if_neg hk]

theorem filter_update {p : R → Bool}
    (hp : ∀ r ∈ t.rows, k ∈ keys r → p r = false ∧ p (f r) = false) :
    (t.update k f).rows.filter p = t.rows.filter p := filter_map_ite hp

theorem filter_replace {p : R → Bool} (h : t.replace k g = some t')
    (hp : ∀ r ∈ t.rows, k ∈ keys r → p r = false ∧ p (g r) = false) :
    t'.rows.filter p = t.rows.filter p := by
  rw [rows_replace h]
  exact filter_map_ite hp

/-- The same for the one row that has a key. -/
theorem filter_update_of_mem {p : R → Bool} (hr : r ∈ t.rows) (hk : k ∈ keys r) (hp : p r = false)
    (hf : p (f r) = false) : (t.update k f).rows.filter p = t.rows.filter p := by
  refine filter_update fun s hs hks => ?_
  obtain rfl : s = r := eq_of_key hs hr hks hk
  exact ⟨hp, hf⟩

theorem filter_replace_of_mem {p : R → Bool} (h : t.replace k g = some t') (hr : r ∈ t.rows)
    (hk : k ∈ keys r) (hp : p r = false) (hg : p (g r) = false) :
    t'.rows.filter p = t.rows.filter p := by
  refine filter_replace h fun s hs hks => ?_
  obtain rfl : s = r := eq_of_key hs hr hks hk
  exact ⟨hp, hg⟩

/-- Columns of a selection that a replacement keeps are as before. -/
theorem map_filter_replace {J : Type*} {p : R → Bool} {col : R → J}
    (h : t.replace k g = some t') (hp : ∀ r, p (g r) = p r) (hcol : ∀ r, col (g r) = col r) :
    (t'.rows.filter p).map col = (t.rows.filter p).map col := by
  have hp' : (p ∘ fun r => if k ∈ keys r then g r else r) = p := by
    funext r
    rw [Function.comp_apply]
    split
    · exact hp r
    · rfl
  have hcol' : (col ∘ fun r => if k ∈ keys r then g r else r) = col := by
    funext r
    rw [Function.comp_apply]
    split
    · exact hcol r
    · rfl
  rw [rows_replace h, List.filter_map, List.map_map, hp', hcol']

section Lists

variable {α β : Type} {l : List α} {p q : α → Bool}

/-- A selection of rows that are all among those that are kept is as before. -/
theorem filter_filter_of_imp (h : ∀ a ∈ l, q a = true → p a = true) :
    (l.filter p).filter q = l.filter q := by
  rw [List.filter_filter]
  refine List.filter_congr fun a ha => ?_
  cases hq : q a with
  | true => rw [h a ha hq, Bool.and_self]
  | false => exact Bool.false_and _

/-- A search for a row that is kept finds the row it found before. -/
theorem find?_filter_of_imp (h : ∀ a ∈ l, q a = true → p a = true) :
    (l.filter p).find? q = l.find? q := by
  rw [List.find?_filter]
  refine List.find?_congr fun a ha => ?_
  cases hq : q a with
  | true => exact decide_eq_true ⟨h a ha hq, rfl⟩
  | false => exact decide_eq_false fun hpq => Bool.false_ne_true hpq.2

/-- What is computed of the rows that are kept, when nothing comes of the others. -/
theorem filterMap_filter_of_imp {f g : α → Option β} (hfg : ∀ a ∈ l, p a = true → f a = g a)
    (h : ∀ a ∈ l, p a = false → g a = none) : (l.filter p).filterMap f = l.filterMap g := by
  rw [List.filterMap_filter]
  refine List.filterMap_congr fun a ha => ?_
  cases hp : p a with
  | true => rw [if_pos rfl, hfg a ha hp]
  | false => rw [if_neg Bool.false_ne_true, h a ha hp]

end Lists

/-- The rows of a kind. -/
def only (t : Table R) (p : R → Bool) : Table R where
  rows := t.rows.filter p
  apart := t.apart.filter p

/-- A lookup among the rows of a kind finds the row if it is of the kind. -/
theorem findUnique_only {p : R → Bool} :
    (t.only p).findUnique k = (t.findUnique k).filter p := by
  cases hfind : t.findUnique k with
  | none =>
    rw [Option.filter_none, findUnique_eq_none]
    exact fun r hr => findUnique_eq_none.mp hfind r (List.mem_filter.mp hr).1
  | some r =>
    obtain ⟨hr, hk⟩ := findUnique_eq_some.mp hfind
    cases hp : p r with
    | true =>
      rw [Option.filter_some, if_pos hp, findUnique_eq_some]
      exact ⟨List.mem_filter.mpr ⟨hr, hp⟩, hk⟩
    | false =>
      rw [Option.filter_some, hp, if_neg Bool.false_ne_true, findUnique_eq_none]
      intro s hs hks
      obtain ⟨hs, hps⟩ := List.mem_filter.mp hs
      rw [eq_of_key hs hr hks hk, hp] at hps
      cases hps

/-- What is found and of the kind is found among the rows of the kind. -/
theorem findUnique_only_of {p : R → Bool} (h : ∀ r, t.findUnique k = some r → p r = true) :
    (t.only p).findUnique k = t.findUnique k := by
  rw [findUnique_only]
  cases hfind : t.findUnique k with
  | none => rfl
  | some r => rw [Option.filter_some, if_pos (h r hfind)]

/-- The rows that are left when a key is deleted. -/
theorem mem_delete : r ∈ (t.delete k).rows ↔ r ∈ t.rows ∧ k ∉ keys r := by
  unfold delete
  rw [List.mem_filter, decide_eq_true_eq]

/-- Rows of a kind are not more when a key is deleted. -/
theorem countP_delete_le (p : R → Bool) : (t.delete k).rows.countP p ≤ t.rows.countP p :=
  List.filter_sublist.countP_le

/-- Rows of a kind are one less when one of them is deleted, and as many as before when another
row is. -/
theorem countP_delete (p : R → Bool) (hr : r ∈ t.rows) (hk : k ∈ keys r) :
    (t.delete k).rows.countP p + (if p r then 1 else 0) = t.rows.countP p := by
  obtain ⟨before, after, hrows⟩ := List.append_of_mem hr
  have hapart := t.apart
  rw [hrows, List.pairwise_append, List.pairwise_cons] at hapart
  obtain ⟨-, ⟨hafter, -⟩, hbefore⟩ := hapart
  -- no other row has the key
  have hleft : before.filter (fun s => decide (k ∉ keys s)) = before := by
    rw [List.filter_eq_self]
    exact fun s hs => decide_eq_true fun hks => hbefore s hs r List.mem_cons_self k hks hk
  have hright : after.filter (fun s => decide (k ∉ keys s)) = after := by
    rw [List.filter_eq_self]
    exact fun s hs => decide_eq_true fun hks => hafter s hs k hk hks
  have hgone : decide (k ∉ keys r) = false := decide_eq_false fun h => h hk
  show (t.rows.filter fun s => decide (k ∉ keys s)).countP p + _ = _
  rw [hrows, List.filter_append, List.filter_cons, hleft, hright, hgone, if_neg Bool.false_ne_true,
    List.countP_append, List.countP_append, List.countP_cons]
  omega

/-! ## What holds of every row -/

section EveryRow

variable {P : R → Prop}

/-- What holds of all rows holds of them after an insertion, if it holds of the new one. -/
theorem forall_insert (h : t.insert r = some t') (ht : ∀ s ∈ t.rows, P s) (hr : P r) :
    ∀ s ∈ t'.rows, P s := by
  intro s hs
  rcases (mem_insert h).mp hs with hs | rfl
  · exact ht s hs
  · exact hr

/-- What holds of all rows holds of them when one is rewritten, if it holds of that one. -/
theorem forall_update (ht : ∀ s ∈ t.rows, P s) (hr : r ∈ t.rows) (hk : k ∈ keys r)
    (hf : P (f r)) : ∀ s ∈ (t.update k f).rows, P s := by
  intro s hs
  rcases mem_update_iff.mp hs with ⟨old, hold, hkey, rfl⟩ | ⟨hs, -⟩
  · obtain rfl : old = r := eq_of_key hold hr hkey hk
    exact hf
  · exact ht s hs

theorem forall_replace (h : t.replace k g = some t') (ht : ∀ s ∈ t.rows, P s) (hr : r ∈ t.rows)
    (hk : k ∈ keys r) (hg : P (g r)) : ∀ s ∈ t'.rows, P s := by
  intro s hs
  rw [rows_replace h, List.mem_map] at hs
  obtain ⟨old, hold, rfl⟩ := hs
  split
  · rename_i hkey
    obtain rfl : old = r := eq_of_key hold hr hkey hk
    exact hg
  · exact ht old hold

end EveryRow

/-! ## Columns -/

section Columns

variable {J : Type*} {col : R → J} {x : J}

/-- What a column says of a row stays when a row is inserted. -/
theorem map_findUnique_insert (h : t.insert r = some t')
    (hx : (t.findUnique j).map col = some x) : (t'.findUnique j).map col = some x := by
  have hhas : t.has j = true := by
    unfold has
    rw [Option.map_eq_some_iff] at hx
    obtain ⟨s, hs, -⟩ := hx
    rw [hs]
    rfl
  rw [findUnique_insert_of_has h hhas]
  exact hx

/-- What a column says of a row stays when rows are rewritten and the column is kept. -/
theorem map_findUnique_update (hf : ∀ r, col (f r) = col r)
    (hx : (t.findUnique j).map col = some x) :
    ((t.update k f).findUnique j).map col = some x := by
  rw [findUnique_update, Option.map_map, ← hx]
  congr 1
  funext r
  simp only [Function.comp]
  split
  · exact hf r
  · rfl

/-- What a column says of a row stays when rows are replaced and the column is kept. -/
theorem map_findUnique_replace (h : t.replace k g = some t')
    (hj : ∀ r, j ∈ keys (g r) ↔ j ∈ keys r) (hg : ∀ r, col (g r) = col r)
    (hx : (t.findUnique j).map col = some x) : (t'.findUnique j).map col = some x := by
  rw [findUnique_replace h hj, Option.map_map, ← hx]
  congr 1
  funext r
  simp only [Function.comp]
  split
  · exact hg r
  · rfl

end Columns

end Writing

end Table
