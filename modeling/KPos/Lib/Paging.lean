/-
# Walks through pages

Rows are read in the descending order of a key, page by page.  A page begins at the row that
its cursor names; one row more than it may hold is read, and that row becomes the cursor of
the next page.  The rows may grow in number from one page to the next.

* `descending`, `fromCursor` : the order of the rows and the place where a page begins;
* `fromCursor_eq_filter` : from a row on there are the rows whose key is not above its own;
* `walk` : all pages, one after the other;
* `walk_inclusive` : pages that begin at their cursor show every row once;
* `not_mem_of_walk_exclusive` : pages that begin after their cursor never show the row after
  the first page.
-/
import Mathlib.Data.List.Sort
import Mathlib.Order.Basic

namespace Paging

section Rows

variable {α κ τ : Type*} [LinearOrder τ] [DecidableEq κ]

/-- The rows in the descending order of a key. -/
def descending (key : α → τ) (rows : List α) : List α :=
  rows.insertionSort fun a b => key b ≤ key a

/-- The rows are in the strictly descending order of a key. -/
abbrev Desc (key : α → τ) (rows : List α) : Prop := rows.Pairwise fun a b => key b < key a

/-- The rows from the named one on, all of them when none is named. -/
def fromCursor (id : α → κ) (rows : List α) : Option κ → List α
  | none => rows
  | some c => rows.dropWhile fun a => decide (id a ≠ c)

variable {key : α → τ} {id : α → κ} {rows : List α} {a c : α}

@[simp] theorem mem_descending : a ∈ descending key rows ↔ a ∈ rows :=
  List.mem_insertionSort _

theorem length_descending : (descending key rows).length = rows.length :=
  List.length_insertionSort _ _

theorem mem_of_mem_fromCursor {cursor : Option κ} (h : a ∈ fromCursor id rows cursor) :
    a ∈ rows := by
  cases cursor with
  | none => exact h
  | some k => exact (List.dropWhile_sublist _).subset h

/-- What differs between any two rows differs in any order of the rows. -/
theorem descending_ne {β : Type*} {f : α → β} (h : rows.Pairwise fun a b => f a ≠ f b) :
    (descending key rows).Pairwise fun a b => f a ≠ f b :=
  ((List.perm_insertionSort _ rows).pairwise_iff fun h => Ne.symm h).mpr h

/-- Rows with different keys are strictly descending. -/
theorem desc_descending (h : rows.Pairwise fun a b => key a ≠ key b) :
    Desc key (descending key rows) := by
  have hne : (descending key rows).Pairwise fun a b => key a ≠ key b := descending_ne h
  have hle : (descending key rows).Pairwise fun a b => key b ≤ key a := by
    have htrans : IsTrans α fun a b => key b ≤ key a := ⟨fun _ _ _ h h' => h'.trans h⟩
    have htotal : Std.Total fun a b : α => key b ≤ key a := ⟨fun a b => le_total (key b) (key a)⟩
    exact List.pairwise_insertionSort _ rows
  exact hle.imp₂ (fun _ _ hle hne => lt_of_le_of_ne hle hne.symm) hne

/-- **From a row on** there are the rows whose key is not above its own. -/
theorem fromCursor_eq_filter (hdesc : Desc key rows)
    (hid : rows.Pairwise fun a b => id a ≠ id b) (hc : c ∈ rows) :
    fromCursor id rows (some (id c)) = rows.filter fun a => decide (key a ≤ key c) := by
  show rows.dropWhile _ = _
  induction rows with
  | nil => cases hc
  | cons a rows ih =>
    obtain ⟨hbelow, hdesc⟩ := List.pairwise_cons.mp hdesc
    obtain ⟨hother, hid⟩ := List.pairwise_cons.mp hid
    rcases List.mem_cons.mp hc with rfl | hc
    · -- the named row comes first
      rw [List.dropWhile_cons_of_neg (by simp), List.filter_cons_of_pos (by simp)]
      congr 1
      symm
      rw [List.filter_eq_self]
      intro b hb
      exact decide_eq_true (le_of_lt (hbelow b hb))
    · have hlt := hbelow c hc
      rw [List.dropWhile_cons_of_pos (by simpa using hother c hc),
        List.filter_cons_of_neg (by simpa using hlt)]
      exact ih hdesc hid hc

end Rows

/-! ## One page -/

/-- A page, with the cursor of the next one. -/
structure Page (α κ : Type*) where
  items : List α
  nextCursor : Option κ

section Pages

variable {α κ τ : Type*} [LinearOrder τ] {key : α → τ} {id : α → κ} {rows : List α} {a c : α}
  {limit : ℕ}

/-- The page that begins a list of rows. -/
def cut (id : α → κ) (limit : ℕ) (rows : List α) : Page α κ :=
  ⟨rows.take limit, (rows[limit]?).map id⟩

/-- Reading one row more than the page may hold and taking it off again leaves the page. -/
theorem popped_eq_cut (id : α → κ) (limit : ℕ) (rows : List α) :
    (if limit < (rows.take (limit + 1)).length
      then ⟨(rows.take (limit + 1)).dropLast, (rows.take (limit + 1)).getLast?.map id⟩
      else ⟨rows.take (limit + 1), none⟩ : Page α κ) = cut id limit rows := by
  unfold cut
  by_cases h : limit < rows.length
  · -- a row is left for the next page
    have hlength : (rows.take (limit + 1)).length = limit + 1 := by
      rw [List.length_take]
      omega
    have hinit : (rows.take (limit + 1)).dropLast = rows.take limit := by
      rw [List.dropLast_eq_take, hlength, List.take_take]
      congr 1
      omega
    have hlast : (rows.take (limit + 1)).getLast? = rows[limit]? := by
      rw [List.getLast?_eq_getElem?, hlength, List.getElem?_take_of_lt (by omega)]
      rfl
    rw [if_pos (by omega), hinit, hlast]
  · rw [if_neg (by rw [List.length_take]; omega), List.take_of_length_le (by omega),
      List.take_of_length_le (by omega), List.getElem?_eq_none (by omega)]
    rfl

/-- The last page holds all rows. -/
theorem take_of_getElem?_eq_none (h : rows[limit]? = none) : rows.take limit = rows :=
  List.take_of_length_le (List.getElem?_eq_none_iff.mp h)

/-- The rows of a page are above the row that the next page begins with. -/
theorem lt_of_mem_take (hdesc : Desc key rows) (hc : rows[limit]? = some c)
    (ha : a ∈ rows.take limit) : key c < key a := by
  have hsplit := List.take_append_drop limit rows
  have hmem : c ∈ rows.drop limit := by
    rw [← Nat.add_zero limit, ← List.getElem?_drop] at hc
    exact List.mem_of_getElem? hc
  rw [← hsplit] at hdesc
  exact (List.pairwise_append.mp hdesc).2.2 a ha c hmem

/-- A row is on the page or not above the row that the next page begins with. -/
theorem mem_take_or_le (hdesc : Desc key rows) (hc : rows[limit]? = some c) (ha : a ∈ rows) :
    a ∈ rows.take limit ∨ key a ≤ key c := by
  obtain ⟨hlimit, rfl⟩ := List.getElem?_eq_some_iff.mp hc
  have hsplit : rows.take limit ++ rows[limit] :: rows.drop (limit + 1) = rows := by
    rw [← List.drop_eq_getElem_cons hlimit]
    exact List.take_append_drop limit rows
  rw [← hsplit] at hdesc
  obtain ⟨-, hdrop, -⟩ := List.pairwise_append.mp hdesc
  rw [← hsplit, List.mem_append, List.mem_cons] at ha
  rcases ha with ha | rfl | ha
  · exact Or.inl ha
  · exact Or.inr le_rfl
  · exact Or.inr (le_of_lt ((List.pairwise_cons.mp hdrop).1 a ha))

/-- The next page begins below a row that this one begins with or below. -/
theorem lt_of_next (hdesc : Desc key rows) (hlimit : 1 ≤ limit) (hle : ∀ b ∈ rows, key b ≤ key a)
    (hc : rows[limit]? = some c) : key c < key a := by
  cases rows with
  | nil => cases hc
  | cons b rows =>
    have hb : b ∈ (b :: rows).take limit := by
      obtain ⟨l, rfl⟩ : ∃ l, limit = l + 1 := ⟨limit - 1, by omega⟩
      exact List.mem_cons_self
    exact lt_of_lt_of_le (lt_of_mem_take hdesc hc hb) (hle b List.mem_cons_self)

/-- Fewer rows are left below a lower one. -/
theorem length_filter_lt (ha : a ∈ rows) (hlt : key c < key a) :
    (rows.filter fun b => decide (key b ≤ key c)).length <
      (rows.filter fun b => decide (key b ≤ key a)).length := by
  have hfilter : (rows.filter fun b => decide (key b ≤ key c)) =
      (rows.filter fun b => decide (key b ≤ key a)).filter fun b => decide (key b ≤ key c) := by
    rw [List.filter_filter]
    apply List.filter_congr
    intro b _
    by_cases h : key b ≤ key c
    · simp [h, h.trans hlt.le]
    · simp [h]
  rw [hfilter, List.length_filter_lt_length_iff_exists]
  refine ⟨a, List.mem_filter.mpr ⟨ha, decide_eq_true le_rfl⟩, ?_⟩
  simpa using hlt

/-- After the first one, the rows whose key is not above that of a row are below it. -/
theorem mem_tail_filter (hdesc : Desc key rows) (hc : c ∈ rows)
    (ha : a ∈ (rows.filter fun b => decide (key b ≤ key c)).drop 1) :
    a ∈ rows ∧ key a < key c := by
  have hmem := List.mem_filter.mp (List.mem_of_mem_drop ha)
  refine ⟨hmem.1, ?_⟩
  have hdesc' : Desc key (rows.filter fun b => decide (key b ≤ key c)) :=
    hdesc.sublist List.filter_sublist
  have hc' : c ∈ rows.filter fun b => decide (key b ≤ key c) :=
    List.mem_filter.mpr ⟨hc, decide_eq_true le_rfl⟩
  cases hrest : rows.filter fun b => decide (key b ≤ key c) with
  | nil =>
    rw [hrest] at ha
    cases ha
  | cons b rest =>
    rw [hrest] at ha hdesc' hc'
    have hlt := (List.pairwise_cons.mp hdesc').1
    rcases List.mem_cons.mp hc' with rfl | hc'
    · exact hlt a ha
    · -- the first one is not above `c`, nor `c` above it
      have hb : key b ≤ key c := of_decide_eq_true (List.mem_filter.mp
        (hrest ▸ List.mem_cons_self : b ∈ rows.filter fun b => decide (key b ≤ key c))).2
      exact absurd (hlt c hc') (not_lt.mpr hb)

end Pages

/-! ## All pages -/

section Walk

variable {α κ τ : Type*} [LinearOrder τ] {key : α → τ} {id : α → κ}
  {page : ℕ → Option κ → Option (Page α κ)} {rows : ℕ → List α} {limit i : ℕ} {cursor : Option κ}

/-- The items of all pages, from call number `i` on; each call takes the cursor of the page
before.  There is no result when a call fails or `fuel` calls are not enough. -/
def walk (page : ℕ → Option κ → Option (Page α κ)) : ℕ → ℕ → Option κ → Option (List α)
  | 0, _, _ => none
  | fuel + 1, i, cursor =>
    match page i cursor with
    | none => none
    | some ⟨items, none⟩ => some items
    | some ⟨items, some next⟩ => (walk page fuel (i + 1) (some next)).map (items ++ ·)

/-- A page and the walk after it. -/
theorem walk_succ (fuel : ℕ) {P : α → Prop} {rest : List α} (hdesc : Desc key rest)
    (hpage : page i cursor = some (cut id limit rest)) (hP : ∀ a ∈ rest, P a)
    (hnext : ∀ c, rest[limit]? = some c → ∃ items,
      walk page fuel (i + 1) (some (id c)) = some items ∧ Desc key items ∧
        (∀ a ∈ rest, key a ≤ key c → a ∈ items) ∧ ∀ a ∈ items, key a ≤ key c ∧ P a) :
    ∃ items, walk page (fuel + 1) i cursor = some items ∧ Desc key items ∧
      (∀ a ∈ rest, a ∈ items) ∧ ∀ a ∈ items, P a := by
  unfold walk
  rw [hpage]
  unfold cut
  cases hc : rest[limit]? with
  | none =>
    refine ⟨_, rfl, ?_⟩
    rw [take_of_getElem?_eq_none hc]
    exact ⟨hdesc, fun a ha => ha, hP⟩
  | some c =>
    obtain ⟨items, hwalk, hitems, hcomplete, hsound⟩ := hnext c hc
    refine ⟨rest.take limit ++ items, ?_, ?_, ?_, ?_⟩
    · show (walk page fuel (i + 1) (some (id c))).map _ = _
      rw [hwalk]
      rfl
    · refine List.pairwise_append.mpr ⟨hdesc.sublist (List.take_sublist limit rest), hitems, ?_⟩
      intro a ha b hb
      exact lt_of_le_of_lt (hsound b hb).1 (lt_of_mem_take hdesc hc ha)
    · intro a ha
      rcases mem_take_or_le hdesc hc ha with ha' | hle
      · exact List.mem_append_left _ ha'
      · exact List.mem_append_right _ (hcomplete a ha hle)
    · intro a ha
      rcases List.mem_append.mp ha with ha | ha
      · exact hP a (List.mem_of_mem_take ha)
      · exact (hsound a ha).2

/-- A row is not shown when it is neither on a page nor in the walk after it. -/
theorem not_mem_of_page {rest items : List α} {x : α} {fuel : ℕ}
    (hpage : page i cursor = some (cut id limit rest)) (hnot : x ∉ rest.take limit)
    (hlater : ∀ c, rest[limit]? = some c → ∀ later,
      walk page fuel (i + 1) (some (id c)) = some later → x ∉ later)
    (hwalk : walk page (fuel + 1) i cursor = some items) : x ∉ items := by
  unfold walk at hwalk
  rw [hpage] at hwalk
  unfold cut at hwalk
  cases hc : rest[limit]? with
  | none =>
    rw [hc] at hwalk
    obtain rfl := Option.some.inj hwalk
    exact hnot
  | some c =>
    rw [hc] at hwalk
    obtain ⟨later, hrest, rfl⟩ := Option.map_eq_some_iff.mp hwalk
    rw [List.mem_append, not_or]
    exact ⟨hnot, hlater c hc later hrest⟩

variable [DecidableEq κ]

/-- The walk from a row on.  Every call reaches fewer of the rows that are there in the end. -/
theorem walk_from (hdesc : ∀ i, Desc key (rows i))
    (hid : ∀ i, (rows i).Pairwise fun a b => id a ≠ id b)
    (hkeep : ∀ i, ∀ a ∈ rows i, a ∈ rows (i + 1)) {n : ℕ} (hlast : ∀ i, ∀ a ∈ rows i, a ∈ rows n)
    (hlimit : 1 ≤ limit)
    (hpage : ∀ i, ∀ c ∈ rows i,
      page i (some (id c)) = some (cut id limit (fromCursor id (rows i) (some (id c)))))
    (fuel : ℕ) : ∀ i, ∀ c ∈ rows i,
      ((rows n).filter fun a => decide (key a ≤ key c)).length ≤ fuel →
      ∃ items, walk page fuel i (some (id c)) = some items ∧ Desc key items ∧
        (∀ a ∈ rows i, key a ≤ key c → a ∈ items) ∧
        ∀ a ∈ items, key a ≤ key c ∧ ∃ j, a ∈ rows j := by
  induction fuel with
  | zero =>
    intro i c hc hfuel
    have hmem : c ∈ (rows n).filter fun a => decide (key a ≤ key c) :=
      List.mem_filter.mpr ⟨hlast i c hc, decide_eq_true le_rfl⟩
    exact absurd (List.length_pos_of_mem hmem) (by omega)
  | succ fuel ih =>
    intro i c hc hfuel
    have hrest := fromCursor_eq_filter (hdesc i) (hid i) hc
    have hcut := hpage i c hc
    rw [hrest] at hcut
    have hmem : ∀ a, a ∈ (rows i).filter (fun a => decide (key a ≤ key c)) ↔
        a ∈ rows i ∧ key a ≤ key c := fun a => by rw [List.mem_filter, decide_eq_true_iff]
    have hdesc' : Desc key ((rows i).filter fun a => decide (key a ≤ key c)) :=
      (hdesc i).sublist List.filter_sublist
    have hbelow : ∀ a ∈ (rows i).filter (fun a => decide (key a ≤ key c)),
        key a ≤ key c ∧ ∃ j, a ∈ rows j :=
      fun a ha => ⟨((hmem a).mp ha).2, i, ((hmem a).mp ha).1⟩
    obtain ⟨items, hwalk, hitems, hcomplete, hsound⟩ := walk_succ fuel
      (P := fun a => key a ≤ key c ∧ ∃ j, a ∈ rows j) hdesc' hcut hbelow fun c' hc' => by
        obtain ⟨hc'i, -⟩ := (hmem c').mp (List.mem_of_getElem? hc')
        -- the next page begins below this one
        have hlt := lt_of_next hdesc' hlimit (fun a ha => ((hmem a).mp ha).2) hc'
        have hfewer := length_filter_lt (hlast i c hc) hlt
        obtain ⟨items, hwalk, hitems, hcomplete, hsound⟩ :=
          ih (i + 1) c' (hkeep i c' hc'i) (by omega)
        refine ⟨items, hwalk, hitems, fun a ha hle' => ?_, fun a ha => ?_⟩
        · exact hcomplete a (hkeep i a ((hmem a).mp ha).1) hle'
        · obtain ⟨hle', hj⟩ := hsound a ha
          exact ⟨hle', hle'.trans hlt.le, hj⟩
    exact ⟨items, hwalk, hitems, fun a ha hle => hcomplete a ((hmem a).mpr ⟨ha, hle⟩), hsound⟩

/-- **Pages that begin at their cursor show every row once**, whatever rows come in between
the calls: the rows of the first call are all shown, and what is shown is strictly descending. -/
theorem walk_inclusive (hdesc : ∀ i, Desc key (rows i))
    (hid : ∀ i, (rows i).Pairwise fun a b => id a ≠ id b)
    (hkeep : ∀ i, ∀ a ∈ rows i, a ∈ rows (i + 1)) {n : ℕ} (hlast : ∀ i, ∀ a ∈ rows i, a ∈ rows n)
    (hlimit : 1 ≤ limit) (hfirst : page 0 none = some (cut id limit (rows 0)))
    (hpage : ∀ i, ∀ c ∈ rows i,
      page i (some (id c)) = some (cut id limit (fromCursor id (rows i) (some (id c))))) :
    ∃ items, walk page ((rows n).length + 1) 0 none = some items ∧ Desc key items ∧
      (∀ a ∈ rows 0, a ∈ items) ∧ ∀ a ∈ items, ∃ j, a ∈ rows j := by
  refine walk_succ _ (hdesc 0) hfirst (fun a ha => ⟨0, ha⟩) fun c hc => ?_
  have hmem := hkeep 0 c (List.mem_of_getElem? hc)
  obtain ⟨items, hwalk, hitems, hcomplete, hsound⟩ := walk_from hdesc hid hkeep hlast hlimit hpage
    (rows n).length 1 c hmem (List.length_filter_le _ _)
  exact ⟨items, hwalk, hitems, fun a ha => hcomplete a (hkeep 0 a ha), hsound⟩

/-- **Pages that begin after their cursor** never show the row after the first page, as every
cursor is that row or one below it. -/
theorem not_mem_of_walk_exclusive {rows : List α} {x : α} (hdesc : Desc key rows)
    (hid : rows.Pairwise fun a b => id a ≠ id b) (hx : rows[limit]? = some x)
    (hfirst : ∀ i, page i none = some (cut id limit rows))
    (hpage : ∀ i, ∀ c ∈ rows, page i (some (id c)) = some (cut id limit rows) ∨
      page i (some (id c)) = some (cut id limit ((fromCursor id rows (some (id c))).drop 1)))
    (fuel : ℕ) : ∀ i cursor items, (∀ k, cursor = some k → ∃ c ∈ rows, k = id c ∧ key c ≤ key x) →
      walk page fuel i cursor = some items → x ∉ items := by
  induction fuel with
  | zero =>
    intro i cursor items _ hwalk
    cases hwalk
  | succ fuel ih =>
    intro i cursor items hcursor hwalk
    have hlater : ∀ c ∈ rows, key c ≤ key x → ∀ later,
        walk page fuel (i + 1) (some (id c)) = some later → x ∉ later := by
      intro c hc hle later
      refine ih (i + 1) (some (id c)) later fun k hk => ?_
      exact ⟨c, hc, (Option.some.inj hk).symm, hle⟩
    have hagain : page i cursor = some (cut id limit rows) → x ∉ items := by
      intro hcut
      refine not_mem_of_page hcut (fun hmem => lt_irrefl _ (lt_of_mem_take hdesc hx hmem))
        (fun c hc => ?_) hwalk
      rw [hx] at hc
      obtain rfl := Option.some.inj hc
      exact hlater x (List.mem_of_getElem? hx) le_rfl
    cases cursor with
    | none => exact hagain (hfirst i)
    | some k =>
      obtain ⟨c, hc, rfl, hle⟩ := hcursor k rfl
      rcases hpage i c hc with hcut | hcut
      · exact hagain hcut
      · -- what follows the cursor is below it
        have hbelow : ∀ a ∈ (fromCursor id rows (some (id c))).drop 1,
            a ∈ rows ∧ key a < key c := by
          rw [fromCursor_eq_filter hdesc hid hc]
          exact fun a ha => mem_tail_filter hdesc hc ha
        refine not_mem_of_page hcut (fun hmem => ?_) (fun d hd => ?_) hwalk
        · exact absurd (hbelow x (List.mem_of_mem_take hmem)).2 (not_lt.mpr hle)
        · obtain ⟨hd, hlt⟩ := hbelow d (List.mem_of_getElem? hd)
          exact hlater d hd (hlt.le.trans hle)

end Walk

end Paging
