/-
# Ledgers of documents, lines and moves

Documents list quantities of items, one line at a time.  Moves change the stock of an item;
each is entered for one document or by hand.  A ledger is balanced when every
posted document has moved out exactly what its lines list, and every other document
nothing.

* `Balanced.balance_eq` : the balance of an item is what was moved by hand less what the
  posted documents list;
* `Balanced.hand`, `Balanced.openDraft`, `Balanced.openPosted`, `Balanced.post`,
  `Balanced.unpost` : the entries that keep a ledger balanced.
-/
import KPos.Lib.Tally
import Mathlib.Data.List.Nodup

/-- A line of a document. -/
structure LedgerLine (K P : Type*) where
  doc : K
  item : P
  quantity : ℤ

/-- A movement of stock, for a document or by hand. -/
structure LedgerMove (K P : Type*) where
  doc : Option K
  item : P
  quantity : ℤ

structure Ledger (K P : Type*) where
  docs : List K
  lines : List (LedgerLine K P)
  moves : List (LedgerMove K P)

namespace Ledger

variable {K P : Type*} [DecidableEq K] [DecidableEq P]

/-! ## Totals -/

/-- What lines list of an item for a document. -/
def listedBy (ls : List (LedgerLine K P)) (k : K) (p : P) : ℤ :=
  tally (fun l => decide (l.doc = k) && decide (l.item = p)) (·.quantity) ls

/-- What moves move of an item for a document. -/
def movedBy (ms : List (LedgerMove K P)) (k : K) (p : P) : ℤ :=
  tally (fun m => decide (m.doc = some k) && decide (m.item = p)) (·.quantity) ms

/-- What moves move of an item by hand. -/
def movedByHand (ms : List (LedgerMove K P)) (p : P) : ℤ :=
  tally (fun m => decide (m.item = p) && decide (m.doc = none)) (·.quantity) ms

/-- What moves move of an item in all. -/
def movedAll (ms : List (LedgerMove K P)) (p : P) : ℤ :=
  tally (fun m => decide (m.item = p)) (·.quantity) ms

/-- The lines of a document. -/
def linesOf (L : Ledger K P) (k : K) : List (LedgerLine K P) :=
  L.lines.filter fun l => decide (l.doc = k)

/-- The moves that take out, for the document `k`, what the lines list. -/
def takeOut (k : K) (ls : List (LedgerLine K P)) : List (LedgerMove K P) :=
  ls.map fun l => ⟨some k, l.item, -l.quantity⟩

/-- The moves that put back, for the document `k`, what the lines list. -/
def putBack (k : K) (ls : List (LedgerLine K P)) : List (LedgerMove K P) :=
  ls.map fun l => ⟨some k, l.item, l.quantity⟩

/-- The ledger with more documents, lines and moves. -/
def enter (L : Ledger K P) (ks : List K) (ls : List (LedgerLine K P))
    (ms : List (LedgerMove K P)) : Ledger K P :=
  ⟨L.docs ++ ks, L.lines ++ ls, L.moves ++ ms⟩

variable {L : Ledger K P} {ls : List (LedgerLine K P)} {ms : List (LedgerMove K P)}
  {k j : K} {p : P}

@[simp] theorem listedBy_append (ls ls' : List (LedgerLine K P)) :
    listedBy (ls ++ ls') k p = listedBy ls k p + listedBy ls' k p := Tally.tally_append _ _

@[simp] theorem movedBy_append (ms ms' : List (LedgerMove K P)) :
    movedBy (ms ++ ms') k p = movedBy ms k p + movedBy ms' k p := Tally.tally_append _ _

omit [DecidableEq K] in
@[simp] theorem movedByHand_append (ms ms' : List (LedgerMove K P)) :
    movedByHand (ms ++ ms') p = movedByHand ms p + movedByHand ms' p := Tally.tally_append _ _

@[simp] theorem listedBy_nil : listedBy ([] : List (LedgerLine K P)) k p = 0 := rfl

@[simp] theorem movedBy_nil : movedBy ([] : List (LedgerMove K P)) k p = 0 := rfl

/-- A document that no line names lists nothing. -/
theorem listedBy_eq_zero (h : ∀ l ∈ ls, l.doc ≠ k) : listedBy ls k p = 0 := by
  apply Tally.tally_eq_zero
  intro l hl
  simp [h l hl]

/-- A document that no move names moves nothing. -/
theorem movedBy_eq_zero (h : ∀ m ∈ ms, m.doc ≠ some k) : movedBy ms k p = 0 := by
  apply Tally.tally_eq_zero
  intro m hm
  simp [h m hm]

/-- The lines of a document list what the whole ledger lists for it. -/
theorem listedBy_linesOf (L : Ledger K P) (k : K) (p : P) :
    listedBy (L.linesOf k) k p = listedBy L.lines k p := by
  unfold listedBy tally linesOf
  rw [List.filter_filter]
  have hsel : ∀ l : LedgerLine K P,
      ((decide (l.doc = k) && decide (l.item = p)) && decide (l.doc = k))
        = (decide (l.doc = k) && decide (l.item = p)) := by
    intro l
    cases decide (l.doc = k) <;> simp
  simp only [hsel]

/-- The moves of a document count for that document alone. -/
theorem movedBy_takeOut_of_ne (h : k ≠ j) : movedBy (takeOut k ls) j p = 0 := by
  apply movedBy_eq_zero
  intro m hm
  obtain ⟨l, -, rfl⟩ := List.mem_map.mp hm
  simpa using h

theorem movedBy_putBack_of_ne (h : k ≠ j) : movedBy (putBack k ls) j p = 0 := by
  apply movedBy_eq_zero
  intro m hm
  obtain ⟨l, -, rfl⟩ := List.mem_map.mp hm
  simpa using h

theorem movedBy_takeOut (h : ∀ l ∈ ls, l.doc = k) :
    movedBy (takeOut k ls) k p = -listedBy ls k p := by
  unfold movedBy takeOut listedBy
  rw [Tally.tally_map, ← Tally.tally_neg]
  apply Tally.tally_congr
  · intro l hl
    simp [h l hl]
  · intro l _ _
    rfl

theorem movedBy_putBack (h : ∀ l ∈ ls, l.doc = k) :
    movedBy (putBack k ls) k p = listedBy ls k p := by
  unfold movedBy putBack listedBy
  rw [Tally.tally_map]
  apply Tally.tally_congr
  · intro l hl
    simp [h l hl]
  · intro l _ _
    rfl

/-! ## Balance -/

/-- The documents are distinct, lines and moves name documents that exist, and each
document has moved out what it lists if it is posted, and nothing if it is not. -/
structure Balanced (L : Ledger K P) (posted : K → Bool) : Prop where
  nodup : L.docs.Nodup
  lines_mem : ∀ l ∈ L.lines, l.doc ∈ L.docs
  moves_mem : ∀ m ∈ L.moves, ∀ k, m.doc = some k → k ∈ L.docs
  moved : ∀ k p, movedBy L.moves k p = if posted k then -listedBy L.lines k p else 0

variable {posted posted' : K → Bool}

/-- The ledger without entries is balanced. -/
theorem balanced_empty : Balanced (⟨[], [], []⟩ : Ledger K P) posted where
  nodup := List.nodup_nil
  lines_mem := fun _ h => nomatch h
  moves_mem := fun _ h => nomatch h
  moved := fun k p => by simp

/-- **The balance of an item**: what was moved by hand less what the posted documents
list. -/
theorem Balanced.balance_eq (hL : Balanced L posted) (p : P) :
    movedAll L.moves p = movedByHand L.moves p
      - ((L.docs.filter posted).map fun k => listedBy L.lines k p).sum := by
  have hsplit : tally (fun m : LedgerMove K P => decide (m.item = p)) (·.quantity) L.moves
      = _ + _ := Tally.tally_split (·.doc) hL.nodup hL.moves_mem
  have hmoved : (L.docs.map fun k =>
        tally (fun m => decide (m.item = p) && decide (m.doc = some k)) (·.quantity) L.moves)
      = L.docs.map fun k => if posted k then -listedBy L.lines k p else 0 := by
    apply List.map_congr_left
    intro k _
    rw [← hL.moved k p]
    apply Tally.tally_congr
    · intro m _
      exact Bool.and_comm _ _
    · intro m _ _
      rfl
  have hsum : ∀ ks : List K,
      (ks.map fun k => if posted k then -listedBy L.lines k p else 0).sum
        = -((ks.filter posted).map fun k => listedBy L.lines k p).sum := by
    intro ks
    induction ks with
    | nil => rfl
    | cons k ks ih =>
      rw [List.map_cons, List.sum_cons, ih, List.filter_cons]
      cases posted k
      · simp
      · simp only [if_true, List.map_cons, List.sum_cons]
        ring
  unfold movedAll movedByHand
  rw [hsplit, hmoved, hsum]
  ring

/-- **The rule of entry.**  What the new moves move for a document is what makes it match
its lines again. -/
theorem Balanced.enter (hL : Balanced L posted) {ks : List K} (hks : (L.docs ++ ks).Nodup)
    (hls : ∀ l ∈ ls, l.doc ∈ ks) (hms : ∀ m ∈ ms, ∀ k, m.doc = some k → k ∈ L.docs ++ ks)
    (hmoved : ∀ k p, movedBy L.moves k p + movedBy ms k p
      = if posted' k then -(listedBy L.lines k p + listedBy ls k p) else 0) :
    Balanced (L.enter ks ls ms) posted' where
  nodup := hks
  lines_mem := by
    intro l hl
    rcases List.mem_append.mp hl with hl | hl
    · exact List.mem_append_left _ (hL.lines_mem l hl)
    · exact List.mem_append_right _ (hls l hl)
  moves_mem := by
    intro m hm k hk
    rcases List.mem_append.mp hm with hm | hm
    · exact List.mem_append_left _ (hL.moves_mem m hm k hk)
    · exact hms m hm k hk
  moved := by
    intro k p
    show movedBy (L.moves ++ ms) k p
      = if posted' k then -listedBy (L.lines ++ ls) k p else 0
    rw [movedBy_append, listedBy_append]
    exact hmoved k p

/-- Only whether the documents of the ledger are posted matters. -/
theorem Balanced.congr (hL : Balanced L posted) (h : ∀ k ∈ L.docs, posted' k = posted k) :
    Balanced L posted' where
  nodup := hL.nodup
  lines_mem := hL.lines_mem
  moves_mem := hL.moves_mem
  moved := by
    intro k p
    by_cases hk : k ∈ L.docs
    · rw [h k hk]
      exact hL.moved k p
    · have hl : listedBy L.lines k p = 0 :=
        listedBy_eq_zero fun l hl heq => hk (heq ▸ hL.lines_mem l hl)
      have hm : movedBy L.moves k p = 0 :=
        movedBy_eq_zero fun m hm heq => hk (hL.moves_mem m hm k heq)
      rw [hl, hm]
      simp

/-- A move by hand. -/
theorem Balanced.hand (hL : Balanced L posted) (p : P) (q : ℤ) :
    Balanced (L.enter [] [] [⟨none, p, q⟩]) posted := by
  refine hL.enter (by simpa using hL.nodup) (fun l hl => nomatch hl) ?_ ?_
  · intro m hm k hk
    rw [List.mem_singleton.mp hm] at hk
    cases hk
  · intro k j
    have hnew : movedBy [⟨none, p, q⟩] k j = 0 := movedBy_eq_zero (by simp)
    rw [hnew, hL.moved k j, listedBy_nil]
    simp

/-- A new document that is not posted yet. -/
theorem Balanced.openDraft (hL : Balanced L posted) (hk : k ∉ L.docs)
    (hls : ∀ l ∈ ls, l.doc = k) (hposted : posted' k = false)
    (hothers : ∀ j ∈ L.docs, posted' j = posted j) :
    Balanced (L.enter [k] ls []) posted' := by
  have hL' := hL.congr hothers
  refine hL'.enter ?_ ?_ (fun m hm => nomatch hm) ?_
  · rw [← List.concat_eq_append]
    exact List.Nodup.concat hk hL.nodup
  · intro l hl
    rw [hls l hl]
    exact List.mem_singleton_self k
  · intro j p
    rw [hL'.moved j p, movedBy_nil, add_zero]
    by_cases hj : j = k
    · subst hj
      rw [hposted]
      rfl
    · have hnew : listedBy ls j p = 0 :=
        listedBy_eq_zero fun l hl heq => hj (heq.symm.trans (hls l hl))
      rw [hnew, add_zero]

/-- A new document that is posted at once. -/
theorem Balanced.openPosted (hL : Balanced L posted) (hk : k ∉ L.docs)
    (hls : ∀ l ∈ ls, l.doc = k) (hposted : posted' k = true)
    (hothers : ∀ j ∈ L.docs, posted' j = posted j) :
    Balanced (L.enter [k] ls (takeOut k ls)) posted' := by
  have hL' := hL.congr hothers
  refine hL'.enter ?_ ?_ ?_ ?_
  · rw [← List.concat_eq_append]
    exact List.Nodup.concat hk hL.nodup
  · intro l hl
    rw [hls l hl]
    exact List.mem_singleton_self k
  · intro m hm j hj
    obtain ⟨l, -, rfl⟩ := List.mem_map.mp hm
    obtain rfl : k = j := Option.some.inj hj
    exact List.mem_append_right _ (List.mem_singleton_self k)
  · intro j p
    by_cases hj : k = j
    · subst hj
      have hm : movedBy L.moves k p = 0 :=
        movedBy_eq_zero fun m hm heq => hk (hL.moves_mem m hm k heq)
      have hl : listedBy L.lines k p = 0 :=
        listedBy_eq_zero fun l hl heq => hk (heq ▸ hL.lines_mem l hl)
      rw [hm, hl, movedBy_takeOut hls, hposted]
      simp
    · have hnew : listedBy ls j p = 0 :=
        listedBy_eq_zero fun l hl heq => hj ((hls l hl).symm.trans heq)
      rw [movedBy_takeOut_of_ne hj, hL'.moved j p, hnew]
      simp

/-- Posting a document takes out what it lists. -/
theorem Balanced.post (hL : Balanced L posted) (hk : k ∈ L.docs) (hdraft : posted k = false)
    (hposted : posted' k = true) (hothers : ∀ j ∈ L.docs, j ≠ k → posted' j = posted j) :
    Balanced (L.enter [] [] (takeOut k (L.linesOf k))) posted' := by
  have hL' : Balanced L fun j => if j = k then false else posted' j := by
    apply hL.congr
    intro j hj
    by_cases hjk : j = k
    · rw [hjk, if_pos rfl, hdraft]
    · rw [if_neg hjk, hothers j hj hjk]
  refine hL'.enter (by simpa using hL.nodup) (fun l hl => nomatch hl) ?_ ?_
  · intro m hm j hj
    obtain ⟨l, -, rfl⟩ := List.mem_map.mp hm
    obtain rfl : k = j := Option.some.inj hj
    exact List.mem_append_left _ hk
  · intro j p
    rw [hL'.moved j p, listedBy_nil, add_zero]
    by_cases hj : k = j
    · subst hj
      rw [movedBy_takeOut fun l hl => by simpa using (List.mem_filter.mp hl).2,
        listedBy_linesOf, hposted]
      simp
    · rw [movedBy_takeOut_of_ne hj, add_zero, if_neg (Ne.symm hj)]

/-- Undoing a posted document puts back what it lists. -/
theorem Balanced.unpost (hL : Balanced L posted) (hk : k ∈ L.docs) (hposted : posted k = true)
    (hdraft : posted' k = false) (hothers : ∀ j ∈ L.docs, j ≠ k → posted' j = posted j) :
    Balanced (L.enter [] [] (putBack k (L.linesOf k))) posted' := by
  have hL' : Balanced L fun j => if j = k then true else posted' j := by
    apply hL.congr
    intro j hj
    by_cases hjk : j = k
    · rw [hjk, if_pos rfl, hposted]
    · rw [if_neg hjk, hothers j hj hjk]
  refine hL'.enter (by simpa using hL.nodup) (fun l hl => nomatch hl) ?_ ?_
  · intro m hm j hj
    obtain ⟨l, -, rfl⟩ := List.mem_map.mp hm
    obtain rfl : k = j := Option.some.inj hj
    exact List.mem_append_left _ hk
  · intro j p
    rw [hL'.moved j p, listedBy_nil, add_zero]
    by_cases hj : k = j
    · subst hj
      rw [movedBy_putBack fun l hl => by simpa using (List.mem_filter.mp hl).2,
        listedBy_linesOf, hdraft]
      simp
    · rw [movedBy_putBack_of_ne hj, add_zero, if_neg (Ne.symm hj)]

end Ledger
