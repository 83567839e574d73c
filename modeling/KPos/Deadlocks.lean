/-
# Whether runs of `processTransaction` wait in a cycle (`sync-consumer.service.ts`)

A run takes the locks of its rows one by one, in the order of the client's lines, so two
sales of two products in opposite orders can each wait for the other.  Nothing in the code
orders the locks.

* `Locking.awaits` : the run that holds what a run asks for next;
* `no_lock_cycle` : there is no cycle unless the lines of the sales under way cross;
* `lock_cycle` : two sales that do.
-/
import KPos.Lib.WaitGraph
import KPos.Locking

namespace KPos

open Relation

/-- The run that holds the rows that the run `i` asks for next. -/
def Locking.awaits (σ : Locking) (i : ℕ) : Option ℕ :=
  (σ.running i).bind fun pr =>
    match pr.hasConflict, pr.rest with
    | false, item :: _ =>
        if σ.db.selectForUpdate item.idProduct = none then none
        else (σ.owner item.idProduct).filter fun j => decide (j ≠ i)
    | _, _ => none

/-- The run `i` waits for `j`. -/
def Locking.WaitsFor (σ : Locking) (i j : ℕ) : Prop := σ.awaits i = some j

/-- Runs wait in a cycle. -/
def Locking.Deadlocked (σ : Locking) : Prop := ∃ i, TransGen σ.WaitsFor i i

/-- The products that the sale of a run asks for, line by line. -/
def Locking.asked (σ : Locking) (i : ℕ) : List Ident :=
  ((σ.running i).map fun pr => pr.data.items.map (·.idProduct)).getD []

section Waiting

variable {σ τ : Locking} {i j : ℕ} {pr : Processing}

theorem Locking.waitsFor_iff : σ.WaitsFor i j ↔ ∃ pr item rest, σ.running i = some pr ∧
    pr.hasConflict = false ∧ pr.rest = item :: rest ∧
    σ.db.selectForUpdate item.idProduct ≠ none ∧ σ.owner item.idProduct = some j ∧ j ≠ i := by
  unfold Locking.WaitsFor Locking.awaits
  rw [Option.bind_eq_some_iff]
  constructor
  · rintro ⟨pr, hpr, h⟩
    split at h
    · rename_i item rest hfree hrest
      split at h
      · cases h
      · rename_i hrow
        rw [Option.filter_eq_some_iff, decide_eq_true_eq] at h
        exact ⟨pr, item, rest, hpr, hfree, hrest, hrow, h.1, h.2⟩
    · cases h
  · rintro ⟨pr, item, rest, hpr, hfree, hrest, hrow, howner, hne⟩
    refine ⟨pr, hpr, ?_⟩
    rw [hfree, hrest]
    simp [hrow, howner, hne]

/-- A run that waits cannot select. -/
theorem Locking.WaitsFor.blocked (h : σ.WaitsFor i j) : Locking.next σ (.select i) = none := by
  obtain ⟨pr, item, rest, hpr, hfree, hrest, hrow, howner, hne⟩ := Locking.waitsFor_iff.mp h
  show (σ.running i).bind _ = none
  rw [hpr, Option.bind_some, hfree, hrest]
  show σ.selectLine i pr item rest = none
  unfold Locking.selectLine
  dsimp only
  rw [if_neg hrow, howner, if_neg]
  rintro (h | h)
  · cases h
  · exact hne (Option.some.inj h)

/-- Locks are held by runs that selected their rows. -/
def Locking.Owned (σ : Locking) : Prop :=
  ∀ p j, σ.owner p = some j → ∃ pr, σ.running j = some pr ∧ p ∈ pr.selected.map (·.1.idProduct)

theorem Locking.Owned.release (hσ : σ.Owned) (i : ℕ) : (σ.release i).Owned := by
  intro p j hp
  have howner : σ.owner p ≠ some i ∧ σ.owner p = some j := by
    unfold Locking.release at hp
    dsimp only at hp
    split at hp
    · cases hp
    · exact ⟨‹_›, hp⟩
  obtain ⟨pr, hpr, hmem⟩ := hσ p j howner.2
  refine ⟨pr, ?_, hmem⟩
  have hji : j ≠ i := by
    rintro rfl
    exact howner.1 howner.2
  show Function.update σ.running i none j = some pr
  rw [Function.update_of_ne hji]
  exact hpr

theorem Locking.Owned.next {a : LockingAction} (hσ : σ.Owned) (h : Locking.next σ a = some τ) :
    τ.Owned := by
  rcases Locking.next_cases h with ⟨i, data, now, -, hnone, -, rfl⟩ |
    ⟨i, pr, item, rest, hpr, -, -, hsel⟩ | ⟨i, pr, db, -, hpr, -, -, rfl⟩ | ⟨i, rfl⟩
  · -- the new run holds nothing
    intro p j hp
    obtain ⟨pr, hpr, hmem⟩ := hσ p j hp
    have hji : j ≠ i := by
      rintro rfl
      rw [hnone] at hpr
      cases hpr
    refine ⟨pr, ?_, hmem⟩
    show Function.update σ.running i _ j = some pr
    rw [Function.update_of_ne hji]
    exact hpr
  · obtain ⟨-, -, hrunning, howner⟩ := Locking.selectLine_cases hsel
    -- what was held before is held still
    have hold : ∀ p j, σ.owner p = some j → ∃ pr', τ.running j = some pr' ∧
        p ∈ pr'.selected.map (·.1.idProduct) := by
      intro p j hp
      obtain ⟨pr', hpr', hmem⟩ := hσ p j hp
      rw [hrunning]
      by_cases hji : j = i
      · subst hji
        obtain rfl : pr = pr' := Option.some.inj (hpr.symm.trans hpr')
        exact ⟨_, Function.update_self .., List.mem_cons_of_mem _ hmem⟩
      · exact ⟨pr', (Function.update_of_ne hji ..).trans hpr', hmem⟩
    intro p j hp
    rcases howner with ⟨-, howner⟩ | ⟨-, -, howner⟩
    · rw [howner] at hp
      exact hold p j hp
    · rw [howner] at hp
      by_cases hpk : p = item.idProduct
      · rw [hpk, Function.update_self] at hp
        obtain rfl := Option.some.inj hp
        rw [hrunning, hpk]
        exact ⟨_, Function.update_self .., List.mem_cons_self⟩
      · rw [Function.update_of_ne hpk] at hp
        exact hold p j hp
  · exact hσ.release i
  · exact hσ.release i

/-- How many lines a run has locked the rows of, as long as no line conflicts. -/
def Locking.lockedLines (σ : Locking) (i : ℕ) : ℕ :=
  ((σ.running i).map fun pr => if pr.hasConflict then 0 else pr.selected.length).getD 0

theorem Locking.asked_eq (hpr : σ.running i = some pr) :
    σ.asked i = pr.data.items.map (·.idProduct) := by
  unfold Locking.asked
  rw [hpr]
  rfl

theorem Locking.lockedLines_eq (hpr : σ.running i = some pr) (hfree : pr.hasConflict = false) :
    σ.lockedLines i = pr.selected.length := by
  unfold Locking.lockedLines
  rw [hpr, Option.map_some, Option.getD_some, hfree]
  rfl

/-- The locked lines are those that were selected. -/
theorem Locking.take_asked (hpr : σ.running i = some pr) (hs : pr.Sound)
    (hfree : pr.hasConflict = false) : (σ.asked i).take (σ.lockedLines i)
      = (pr.selected.map (·.1.idProduct)).reverse := by
  have hlocked : σ.lockedLines i = ((pr.selected.map (·.1)).reverse).length := by
    rw [Locking.lockedLines_eq hpr hfree, List.length_reverse, List.length_map]
  rw [Locking.asked_eq hpr, hlocked, ← List.map_take, hs.lines, List.take_left,
    List.map_reverse, List.map_map]
  rfl

/-- A run without a conflict holds the locks of the lines that it has selected. -/
theorem Locking.owner_of_locked (hσ : σ.Locked) (hpr : σ.running i = some pr)
    (hfree : pr.hasConflict = false) {p : Ident} (hp : p ∈ pr.selected.map (·.1.idProduct)) :
    σ.owner p = some i := by
  obtain ⟨x, hx, rfl⟩ := List.mem_map.mp hp
  obtain ⟨inv, hrow, -⟩ := conflictsWith_eq_false.mp ((hσ.sound i pr hpr).fits hfree x hx)
  apply (select_current hσ.valid hpr hx).2
  rw [hrow]
  exact Option.some_ne_none inv

/-- Each product is among the locked lines of one run at most. -/
theorem Locking.Locked.exclusive (hσ : σ.Locked) :
    WaitGraph.Exclusive σ.asked σ.lockedLines := by
  -- what a run has locked is its own
  have howner : ∀ i, ∀ p ∈ (σ.asked i).take (σ.lockedLines i), σ.owner p = some i := by
    intro i p hp
    cases hrun : σ.running i with
    | none =>
      have hasked : σ.asked i = [] := by
        unfold Locking.asked
        rw [hrun]
        rfl
      rw [hasked, List.take_nil] at hp
      cases hp
    | some pr =>
      cases hfree : pr.hasConflict with
      | true =>
        have hlocked : σ.lockedLines i = 0 := by
          unfold Locking.lockedLines
          rw [hrun, Option.map_some, Option.getD_some, hfree]
          rfl
        rw [hlocked, List.take_zero] at hp
        cases hp
      | false =>
        rw [Locking.take_asked hrun (hσ.sound i pr hrun) hfree, List.mem_reverse] at hp
        exact Locking.owner_of_locked hσ hrun hfree hp
  intro i j hij p hi hj
  exact hij (Option.some.inj ((howner i p hi).symm.trans (howner j p hj)))

/-- A run that waits for one that waits, waits by the lines of the two sales. -/
theorem Locking.WaitsFor.waits (hσ : σ.Locked) (howned : σ.Owned) (h : σ.WaitsFor i j)
    (hj : ∃ l, σ.WaitsFor j l) : WaitGraph.Waits σ.asked σ.lockedLines i j := by
  obtain ⟨pr, item, rest, hpr, hfree, hrest, -, howner, hne⟩ := Locking.waitsFor_iff.mp h
  obtain ⟨l, hl⟩ := hj
  obtain ⟨pr', -, -, hpr', hfree', -⟩ := Locking.waitsFor_iff.mp hl
  have hs := hσ.sound i pr hpr
  have hlocked : σ.lockedLines i = ((pr.selected.map (·.1)).reverse).length := by
    rw [Locking.lockedLines_eq hpr hfree, List.length_reverse, List.length_map]
  refine ⟨item.idProduct, ?_, ?_, ?_⟩
  · rw [Locking.asked_eq hpr, List.getElem?_map, hs.lines, hrest, hlocked,
      List.getElem?_append_right (Nat.le_refl _), Nat.sub_self]
    rfl
  · obtain ⟨q, hq, hmem⟩ := howned _ j howner
    obtain rfl : pr' = q := Option.some.inj (hpr'.symm.trans hq)
    rw [Locking.take_asked hpr' (hσ.sound j pr' hpr') hfree', List.mem_reverse]
    exact hmem
  · rw [Locking.take_asked hpr hs hfree, List.mem_reverse]
    intro hmem
    have hself := Locking.owner_of_locked hσ hpr hfree hmem
    exact hne (Option.some.inj (howner.symm.trans hself))

/-- **A cycle of waiting runs is a crossing of their lines.** -/
theorem Locking.Deadlocked.crosses (h : σ.Deadlocked) (hσ : σ.Locked) (howned : σ.Owned) :
    WaitGraph.Crosses σ.asked := by
  obtain ⟨i, hcycle⟩ := h
  refine ⟨σ.lockedLines, hσ.exclusive, i, ?_⟩
  exact TransGen.mono (fun a b hab => hab.1.waits hσ howned hab.2) _ _
    (WaitGraph.cycle_continues hcycle)

end Waiting

/-- **No lock cycle** is reached as long as the lines of the sales under way do not cross. -/
theorem no_lock_cycle {db : Db} {σ : Locking}
    (h : Runs.Reaches Locking.next (Locking.start db) σ)
    (hcross : ¬ WaitGraph.Crosses σ.asked) : ¬ σ.Deadlocked := by
  have hsound : σ.Locked ∧ σ.Owned := by
    refine h.invariant (fun σ => σ.Locked ∧ σ.Owned) ⟨Locking.locked_start db, ?_⟩ ?_
    · intro p j hp
      cases hp
    · rintro σ a τ ⟨hσ, howned⟩ hstep
      exact ⟨hσ.next hstep, howned.next hstep⟩
  exact fun hdead => hcross (hdead.crosses hsound.1 hsound.2)

/-! ## Sales in one order -/

/-- A step that begins no sale leaves what the others ask for. -/
theorem Locking.asked_next {σ τ : Locking} {a : LockingAction} (h : Locking.next σ a = some τ)
    (i : ℕ) : τ.asked i = σ.asked i ∨ τ.asked i = [] ∨
      ∃ data now, a = .begin i data now ∧ τ.asked i = data.items.map (·.idProduct) := by
  -- only the run of the step can ask for other lines
  have hupdate : ∀ j o, τ.running = Function.update σ.running j o → i ≠ j →
      τ.asked i = σ.asked i := by
    intro j o hrunning hij
    unfold Locking.asked
    rw [hrunning, Function.update_of_ne hij]
  have hended : ∀ j, τ.running = Function.update σ.running j none →
      τ.asked i = σ.asked i ∨ τ.asked i = [] := by
    intro j hrunning
    by_cases hij : i = j
    · right
      unfold Locking.asked
      rw [hrunning, hij, Function.update_self]
      rfl
    · exact Or.inl (hupdate j none hrunning hij)
  rw [← or_assoc]
  rcases Locking.next_cases h with ⟨j, data, now, rfl, -, -, rfl⟩ |
    ⟨j, pr, item, rest, hpr, -, -, hsel⟩ | ⟨j, pr, db, -, -, -, -, rfl⟩ | ⟨j, rfl⟩
  · by_cases hij : i = j
    · subst hij
      refine Or.inr ⟨data, now, rfl, ?_⟩
      unfold Locking.asked
      dsimp only
      rw [Function.update_self]
      rfl
    · exact Or.inl (Or.inl (hupdate j _ rfl hij))
  · obtain ⟨-, -, hrunning, -⟩ := Locking.selectLine_cases hsel
    refine Or.inl (Or.inl ?_)
    by_cases hij : i = j
    · subst hij
      have hselected : τ.running i =
          some (pr.select item rest (σ.db.selectForUpdate item.idProduct)) := by
        rw [hrunning, Function.update_self]
      rw [Locking.asked_eq hpr, Locking.asked_eq hselected]
      rfl
    · exact hupdate j _ hrunning hij
  · exact Or.inl (hended j rfl)
  · exact Or.inl (hended j rfl)

/-- The action begins no sale, or one whose lines follow the order. -/
def LockingAction.Follows (r : Ident → Ident → Prop) : LockingAction → Prop
  | .begin _ data _ => WaitGraph.Follows r (data.items.map (·.idProduct))
  | _ => True

/-- **Sales that all follow one order of the products do not cross**, in any run. -/
theorem not_crosses_of_run {db : Db} {as : List LockingAction} {σ : Locking}
    {r : Ident → Ident → Prop} (htrans : ∀ a b c, r a b → r b c → r a c)
    (hirrefl : ∀ a, ¬ r a a)
    (h : Runs.Run Locking.next (fun _ a => a.Follows r) (Locking.start db) as σ) :
    ¬ WaitGraph.Crosses σ.asked := by
  have hnil : WaitGraph.Follows r [] := by
    intro n k hk
    cases hk
  have hfollows : ∀ i, WaitGraph.Follows r (σ.asked i) := by
    refine h.invariant (fun σ => ∀ i, WaitGraph.Follows r (σ.asked i)) (fun _ => hnil) ?_
    intro σ a τ hσ ha hstep i
    rcases Locking.asked_next hstep i with hsame | hnone | ⟨data, now, rfl, hdata⟩
    · rw [hsame]
      exact hσ i
    · rw [hnone]
      exact hnil
    · rw [hdata]
      exact ha
  exact WaitGraph.not_crosses_of_follows htrans hirrefl hfollows

/-! ## Two products -/

/-- The shop's second product. -/
def shopCoffee : Ident := .cuid 5

/-- The shop with ten pieces of a second product. -/
def shopOfTwo : Db :=
  after shop [.createProduct shopOwner ⟨"Coffee", some "COFFEE", 2, none⟩ .noFile 0,
    .adjustStock shopOwner shopCoffee ⟨10, none⟩ 0]

/-- A sale of one piece of each product, in the given order. -/
def saleOf (offlineUuid : String) (products : List Ident) : QueuedTransaction :=
  { shopQueued shopDevice offlineUuid (products.map fun _ => 1) with
    items := products.map fun p => ⟨p, 1, 2, 2, "Drink", "DRINK", ⟨"2026-01-01", some 0⟩⟩ }

/-- Two sales whose lines are in one order; the second one waits for the first. -/
def sameOrder : List LockingAction :=
  [.begin 0 (saleOf "a" [shopProduct, shopCoffee]) 1,
   .begin 1 (saleOf "b" [shopProduct, shopCoffee]) 1, .select 0]

/-- Tea before coffee. -/
def TeaFirst (p q : Ident) : Prop := p = shopProduct ∧ q = shopCoffee

theorem teaFirst_irrefl (p : Ident) : ¬ TeaFirst p p := by
  rintro ⟨rfl, h⟩
  cases h

theorem teaFirst_trans (a b c : Ident) (hab : TeaFirst a b) (hbc : TeaFirst b c) :
    TeaFirst a c := ⟨hab.1, hbc.2⟩

theorem follows_teaFirst : WaitGraph.Follows TeaFirst [shopProduct, shopCoffee] := by
  intro n k hk _ k' hk'
  rcases n with _ | _ | n
  · cases hk'
  · rw [List.mem_singleton.mp hk', ← Option.some.inj hk]
    exact ⟨rfl, rfl⟩
  · cases hk

/-- One sale waits for the other, and not the other way round. -/
theorem no_lock_cycle_sameOrder : ∃ σ : Locking, σ.awaits 1 = some 0 ∧ ¬ σ.Deadlocked := by
  have hcheck : (Runs.runs Locking.next (fun _ _ => true) (Locking.start shopOfTwo)
      sameOrder).any (fun σ => decide (σ.awaits 1 = some 0)) = true := by decide +kernel
  obtain ⟨σ, hrun, hwaits⟩ := Runs.exists_run_of_runs hcheck
  have hordered : ∀ a ∈ sameOrder, a.Follows TeaFirst := by
    intro a ha
    simp only [sameOrder, List.mem_cons, List.not_mem_nil, or_false] at ha
    rcases ha with rfl | rfl | rfl
    · exact follows_teaFirst
    · exact follows_teaFirst
    · trivial
  have hcross := not_crosses_of_run teaFirst_trans teaFirst_irrefl (hrun.of_actions hordered)
  exact ⟨σ, of_decide_eq_true hwaits, no_lock_cycle hrun.reaches hcross⟩

/-- Two sales whose lines are in opposite orders. -/
def oppositeOrders : List LockingAction :=
  [.begin 0 (saleOf "a" [shopProduct, shopCoffee]) 1,
   .begin 1 (saleOf "b" [shopCoffee, shopProduct]) 1, .select 0, .select 1]

/-- **Sales wait in a cycle** when they ask for two products in opposite orders. -/
theorem lock_cycle : ¬ ∀ (db : Db) (σ : Locking),
    Runs.Reaches Locking.next (Locking.start db) σ → ¬ σ.Deadlocked := by
  intro h
  have hcheck : (Runs.runs Locking.next (fun _ _ => true) (Locking.start shopOfTwo)
      oppositeOrders).any (fun σ => decide (σ.awaits 0 = some 1 ∧ σ.awaits 1 = some 0))
      = true := by decide +kernel
  obtain ⟨σ, hrun, hwaits⟩ := Runs.exists_run_of_runs hcheck
  obtain ⟨hfirst, hsecond⟩ := of_decide_eq_true hwaits
  exact h shopOfTwo σ hrun.reaches ⟨0, .tail (.single hfirst) hsecond⟩

end KPos
