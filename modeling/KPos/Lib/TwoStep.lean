/-
# Requests that check first and act later

A request first reads the store and checks a guard, and writes in a later step, on the
store as it is by then.  Between the two, other requests may have written.  The file has
the interleavings of any number of such requests and four rules about them:

* `Discipline.session` : an invariant of the store, with a fact about every request
  that has read and not yet written;
* `Discipline.budget` : when every write spends no more than the store loses or the write
  grants, a session spends no more than it started with and was granted;
* `Discipline.spends_once` : when a write that spends closes what was open and no write opens
  it, one write spends at most;
* `Discipline.writes_once` : the same for every key that writes have.

They are stated under a condition on the steps: `atRead` on the store a request reads,
`atWrite` on the store it writes to.
-/
import KPos.Lib.Runs

/-- A kind of request: its guarded read, which yields what it will act on, and its write,
which may abort. -/
structure TwoStep (S C V : Type*) where
  read : S → C → Option V
  write : S → C → V → Option S

namespace TwoStep

/-- The store, the requests that have read and not yet written, and those that have
succeeded, with what they had read. -/
structure Session (S C V : Type*) where
  store : S
  pending : List (C × V)
  done : List (C × V)

/-- A step of a session: a request reads, the `i`-th pending one writes, or it is dropped
(its write aborted, or its process died). -/
inductive Action (C : Type*)
  | read (c : C)
  | write (i : ℕ)
  | drop (i : ℕ)

variable {S C V J : Type*}

/-- No request is under way yet. -/
def start (s : S) : Session S C V := ⟨s, [], []⟩

/-- The session after a step. -/
def next (P : TwoStep S C V) (σ : Session S C V) : Action C → Option (Session S C V)
  | .read c => (P.read σ.store c).map fun v => { σ with pending := σ.pending ++ [(c, v)] }
  | .write i => σ.pending[i]?.bind fun cv =>
      (P.write σ.store cv.1 cv.2).map fun s =>
        { store := s, pending := σ.pending.eraseIdx i, done := σ.done ++ [cv] }
  | .drop i => σ.pending[i]?.map fun _ => { σ with pending := σ.pending.eraseIdx i }

/-- The condition on the steps: `atRead` of the store a request reads, `atWrite` of the
store a pending request writes to. -/
def Meets (atRead : S → C → Prop) (atWrite : S → C → V → Prop) (σ : Session S C V) :
    Action C → Prop
  | .read c => atRead σ.store c
  | .write i => ∀ c v, σ.pending[i]? = some (c, v) → atWrite σ.store c v
  | .drop _ => True

instance decidableMeets {atRead : S → C → Prop} {atWrite : S → C → V → Prop}
    [∀ s c, Decidable (atRead s c)] [∀ s c v, Decidable (atWrite s c v)] (σ : Session S C V) :
    (a : Action C) → Decidable (Meets atRead atWrite σ a)
  | .read c => inferInstanceAs (Decidable (atRead σ.store c))
  | .write i => decidable_of_iff (∀ cv ∈ σ.pending[i]?, atWrite σ.store cv.1 cv.2)
      ⟨fun h c v hcv => h (c, v) hcv, fun h cv hcv => h cv.1 cv.2 hcv⟩
  | .drop _ => .isTrue trivial

variable {P : TwoStep S C V} {atRead : S → C → Prop} {atWrite : S → C → V → Prop}
  {I : S → Prop} {K : S → C → V → Prop}

/-- **What a step can do**: read and join the pending requests, write and leave them for
the successful ones, or leave them. -/
theorem next_cases {σ τ : Session S C V} {a : Action C} (h : P.next σ a = some τ) :
    (∃ c v, a = .read c ∧ P.read σ.store c = some v ∧
      τ = { σ with pending := σ.pending ++ [(c, v)] }) ∨
    (∃ i c v s, a = .write i ∧ σ.pending[i]? = some (c, v) ∧
      P.write σ.store c v = some s ∧
      τ = { store := s, pending := σ.pending.eraseIdx i, done := σ.done ++ [(c, v)] }) ∨
    (∃ i, a = .drop i ∧ τ = { σ with pending := σ.pending.eraseIdx i }) := by
  cases a with
  | read c =>
      obtain ⟨v, hv, rfl⟩ := Option.map_eq_some_iff.mp h
      exact Or.inl ⟨c, v, rfl, hv, rfl⟩
  | write i =>
      obtain ⟨⟨c, v⟩, hcv, hw⟩ := Option.bind_eq_some_iff.mp h
      obtain ⟨s, hs, rfl⟩ := Option.map_eq_some_iff.mp hw
      exact Or.inr (Or.inl ⟨i, c, v, s, rfl, hcv, hs, rfl⟩)
  | drop i =>
      obtain ⟨_, -, rfl⟩ := Option.map_eq_some_iff.mp h
      exact Or.inr (Or.inr ⟨i, rfl, rfl⟩)

/-- The store invariant `I` and the fact `K` about each pending request, kept by the steps
that meet the condition. -/
structure Discipline (P : TwoStep S C V) (atRead : S → C → Prop) (atWrite : S → C → V → Prop)
    (I : S → Prop) (K : S → C → V → Prop) : Prop where
  read : ∀ s c v, I s → atRead s c → P.read s c = some v → K s c v
  write : ∀ s c v s', I s → K s c v → atWrite s c v → P.write s c v = some s' → I s'
  stable : ∀ s c v s' c' v', I s → K s c v → atWrite s c v → P.write s c v = some s' →
    K s c' v' → K s' c' v'

/-- The store invariant holds, and `K` holds of every pending request. -/
def Sound (I : S → Prop) (K : S → C → V → Prop) (σ : Session S C V) : Prop :=
  I σ.store ∧ ∀ cv ∈ σ.pending, K σ.store cv.1 cv.2

theorem Discipline.sound_next (hd : Discipline P atRead atWrite I K) {σ τ : Session S C V}
    {a : Action C} (hσ : Sound I K σ) (ha : Meets atRead atWrite σ a)
    (h : P.next σ a = some τ) : Sound I K τ := by
  obtain ⟨hI, hK⟩ := hσ
  rcases next_cases h with ⟨c, v, rfl, hv, rfl⟩ | ⟨i, c, v, s, rfl, hcv, hs, rfl⟩ |
    ⟨i, rfl, rfl⟩
  · refine ⟨hI, fun cv hcv => ?_⟩
    rcases List.mem_append.mp hcv with hcv | hcv
    · exact hK cv hcv
    · obtain rfl := List.mem_singleton.mp hcv
      exact hd.read _ _ _ hI ha hv
  · have hc := hK _ (List.mem_of_getElem? hcv)
    have hok := ha c v hcv
    refine ⟨hd.write _ _ _ _ hI hc hok hs, fun cv hmem => ?_⟩
    exact hd.stable _ _ _ _ _ _ hI hc hok hs (hK cv (List.mem_of_mem_eraseIdx hmem))
  · exact ⟨hI, fun cv hmem => hK cv (List.mem_of_mem_eraseIdx hmem)⟩

/-- **The session rule.** -/
theorem Discipline.session (hd : Discipline P atRead atWrite I K) {s : S} (hs : I s)
    {as : List (Action C)} {σ : Session S C V}
    (hrun : Runs.Run P.next (Meets atRead atWrite) (start s) as σ) : Sound I K σ :=
  hrun.invariant (Sound I K) ⟨hs, fun _ h => nomatch h⟩
    fun _ _ _ hσ ha h => hd.sound_next hσ ha h

/-- **The budget rule.**  When every write under the condition spends no more than the
measure of the store falls by, and what the write grants, then a session spends no more than
what its store measured at first and what was granted. -/
theorem Discipline.budget (hd : Discipline P atRead atWrite I K) (spends grants : C × V → Bool)
    (μ : S → ℕ)
    (hwrite : ∀ s c v s', I s → K s c v → atWrite s c v → P.write s c v = some s' →
      (if spends (c, v) then 1 else 0) + μ s' ≤ μ s + if grants (c, v) then 1 else 0)
    {s : S} (hs : I s) {as : List (Action C)} {σ : Session S C V}
    (hrun : Runs.Run P.next (Meets atRead atWrite) (start s) as σ) :
    σ.done.countP spends + μ σ.store ≤ μ s + σ.done.countP grants := by
  have hall : Sound I K σ ∧
      σ.done.countP spends + μ σ.store ≤ μ s + σ.done.countP grants := by
    refine hrun.invariant (fun σ => Sound I K σ ∧
      σ.done.countP spends + μ σ.store ≤ μ s + σ.done.countP grants)
      ⟨⟨hs, fun _ h => nomatch h⟩, Nat.le_of_eq (Nat.zero_add _)⟩ ?_
    intro σ a τ ⟨hσ, hspent⟩ ha h
    refine ⟨hd.sound_next hσ ha h, ?_⟩
    rcases next_cases h with ⟨c, v, rfl, hv, rfl⟩ | ⟨i, c, v, s', rfl, hcv, hs', rfl⟩ |
      ⟨i, rfl, rfl⟩
    · exact hspent
    · have hstep := hwrite _ c v _ hσ.1 (hσ.2 _ (List.mem_of_getElem? hcv)) (ha c v hcv) hs'
      rw [List.countP_append, List.countP_append, List.countP_singleton, List.countP_singleton]
      show _ + _ + μ s' ≤ _
      omega
    · exact hspent
  exact hall.2

/-- **The rule of one spending.**  When every write under the condition that spends closes what
was open, and no write opens it, then one write spends at most, and none while it is open. -/
theorem Discipline.spends_once (hd : Discipline P atRead atWrite I K) (spends : C × V → Bool)
    (isOpen : S → Prop)
    (hwrite : ∀ s c v s', I s → K s c v → atWrite s c v → P.write s c v = some s' →
      (spends (c, v) = true → isOpen s ∧ ¬ isOpen s') ∧ (isOpen s' → isOpen s))
    {s : S} (hs : I s) {as : List (Action C)} {σ : Session S C V}
    (hrun : Runs.Run P.next (Meets atRead atWrite) (start s) as σ) :
    σ.done.countP spends ≤ 1 ∧ (isOpen σ.store → σ.done.countP spends = 0) := by
  classical
  have hspent := hd.budget spends (fun _ => false) (fun s => if isOpen s then 1 else 0) ?_ hs hrun
  · have hstart : (if isOpen s then 1 else 0) ≤ 1 := by
      split
      · exact Nat.le_refl 1
      · exact Nat.zero_le 1
    have hnone : σ.done.countP (fun _ => false) = 0 := List.countP_eq_zero.mpr fun _ _ => nofun
    rw [hnone] at hspent
    constructor
    · omega
    · intro hopen
      rw [if_pos hopen] at hspent
      omega
  · intro s c v s' hI hK hok hs'
    obtain ⟨hcloses, hopens⟩ := hwrite s c v s' hI hK hok hs'
    cases hspends : spends (c, v) with
    | true =>
      obtain ⟨hopen, hclosed⟩ := hcloses hspends
      simp [hopen, hclosed]
    | false =>
      by_cases hopen : isOpen s'
      · simp [hopen, hopens hopen]
      · simp [hopen]

/-- The writes that succeeded under the key `j`. -/
def writesOf [DecidableEq J] (key : V → J) (σ : Session S C V) (j : J) : ℕ :=
  σ.done.countP fun cv => decide (key cv.2 = j)

/-- **The at-most-once rule.**  When every write under the condition finds its key open,
closes it and opens no other, then each key is written at most once, and not at all while it
is open. -/
theorem Discipline.writes_once [DecidableEq J] (hd : Discipline P atRead atWrite I K)
    (key : V → J) (isOpen : S → J → Prop)
    (hwrite : ∀ s c v s', I s → K s c v → atWrite s c v → P.write s c v = some s' →
      isOpen s (key v) ∧ ¬ isOpen s' (key v) ∧ ∀ j, isOpen s' j → isOpen s j)
    {s : S} (hs : I s) {as : List (Action C)} {σ : Session S C V}
    (hrun : Runs.Run P.next (Meets atRead atWrite) (start s) as σ) (j : J) :
    writesOf key σ j ≤ 1 ∧ (isOpen σ.store j → writesOf key σ j = 0) := by
  refine hd.spends_once (fun cv => decide (key cv.2 = j)) (fun s => isOpen s j) ?_ hs hrun
  intro s c v s' hI hK hok hs'
  obtain ⟨hopen, hclosed, hothers⟩ := hwrite s c v s' hI hK hok hs'
  refine ⟨fun hspends => ?_, hothers j⟩
  obtain rfl : key v = j := of_decide_eq_true hspends
  exact ⟨hopen, hclosed⟩

end TwoStep
