/-
# Logging out (`auth.service.ts`)

`logout` deletes the refresh token, if it is there, and says nothing about the calls under way.
A refresh that looked the token up before cannot delete it any more and fails; only one that has
deleted it already goes on and stores its successor.

* `AuthState.Gone` : the token is not stored, and no call is about to create its successor;
* `logout_is_final` : from then on the token is never exchanged and never found.
-/
import KPos.Tokens

namespace KPos

/-- The token is not stored, and no call has taken it out. -/
structure AuthState.Gone (σ : AuthState) (v : String) : Prop where
  rows : ∀ r ∈ σ.db.refreshTokens.rows, r.token ≠ v
  tasks : ∀ t accessToken, AuthTask.rotate v t accessToken ∉ σ.tasks

section Gone

variable {env : AuthEnv} {σ τ : AuthState} {v : String}

/-- A token that is gone is not found. -/
theorem AuthState.Gone.refreshRead (h : σ.Gone v) (now : DateTime) :
    Auth.refreshRead σ.db v now = .error (.unauthorized "Invalid or expired refresh token") := by
  have hnone : σ.db.findRefreshToken v = none := by
    have hrow : σ.db.refreshTokens.findUnique (.token v) = none := by
      rw [Table.findUnique_eq_none]
      intro r hr hkey
      exact h.rows r hr (by simpa [UniqueKeys.keys, eq_comm] using hkey)
    unfold Db.findRefreshToken
    rw [hrow]
    rfl
  unfold Auth.refreshRead
  rw [hnone]
  rfl

/-- Tasks that are not new are not about the token. -/
theorem AuthState.Gone.erase (h : σ.Gone v) (i : ℕ) (t : FoundRefreshToken) (accessToken : String) :
    AuthTask.rotate v t accessToken ∉ σ.tasks.eraseIdx i :=
  fun ht => h.tasks t accessToken (List.mem_of_mem_eraseIdx ht)

/-- The rows after a creation do not have the value, if the value drawn is another one. -/
theorem AuthState.Gone.create (h : σ.Gone v) {db : Db} {row : RefreshToken}
    (hrow : row.token ≠ v) (hcreate : σ.db.createRefreshToken row = .ok db) :
    ∀ r ∈ db.refreshTokens.rows, r.token ≠ v := by
  obtain ⟨-, ts, hts, rfl⟩ := createRefreshToken_eq_ok.mp hcreate
  intro r hr
  rcases (Table.mem_insert hts).mp hr with hr | rfl
  · exact h.rows r hr
  · exact hrow

/-- The next query of a call neither brings the token back nor exchanges it. -/
theorem AuthState.Gone.advance (h : σ.Gone v) (hsafe : σ.Safe env) {i : ℕ} {now : DateTime}
    {task : AuthTask} (hi : σ.tasks[i]? = some task)
    (hfresh : σ.drawn < (σ.advance env i now task).drawn → env.randomBytes σ.drawn ≠ v) :
    (σ.advance env i now task).Gone v ∧
      (σ.advance env i now task).exchanged v = σ.exchanged v := by
  have htask : task ∈ σ.tasks := List.mem_of_getElem? hi
  cases task with
  | login user accessToken =>
    cases hcreate : σ.db.createRefreshToken (newRefreshToken env σ.db σ.drawn user now) with
    | error e =>
      simp only [AuthState.advance, hcreate]
      exact ⟨⟨h.rows, h.erase i⟩, rfl⟩
    | ok db =>
      simp only [AuthState.advance, hcreate] at hfresh ⊢
      exact ⟨⟨h.create (hfresh (Nat.lt_succ_self _)) hcreate, h.erase i⟩, rfl⟩
  | delete refreshToken t accessToken =>
    cases hdelete : σ.db.deleteRefreshToken t.row.id with
    | error e =>
      simp only [AuthState.advance, hdelete]
      exact ⟨⟨h.rows, h.erase i⟩, rfl⟩
    | ok db =>
      simp only [AuthState.advance, hdelete]
      obtain ⟨hhas, rfl⟩ := deleteRefreshToken_eq_ok.mp hdelete
      -- what the call deletes is the row that it has read, and that is not the token
      have hother : refreshToken ≠ v := by
        obtain ⟨r, hr, hkey⟩ := Table.has_iff.mp hhas
        have hread : t.Lasting σ.db refreshToken := hsafe.tasks _ htask
        have heq := hread.only r hr (refreshToken_id_mem_keys.mp hkey)
        rw [← hread.value, ← heq]
        exact h.rows r hr
      refine ⟨⟨fun r hr => h.rows r (Table.mem_delete.mp hr).1, fun s accessToken' hs => ?_⟩, rfl⟩
      rcases List.mem_or_eq_of_mem_set hs with hs | hs
      · exact h.tasks s accessToken' hs
      · exact hother (AuthTask.rotate.inj hs).1.symm
  | rotate refreshToken t accessToken =>
    have hother : refreshToken ≠ v := by
      rintro rfl
      exact h.tasks t accessToken htask
    cases hcreate : σ.db.createRefreshToken (newRefreshToken env σ.db σ.drawn t.user now) with
    | error e =>
      simp only [AuthState.advance, hcreate]
      exact ⟨⟨h.rows, h.erase i⟩, rfl⟩
    | ok db =>
      simp only [AuthState.advance, hcreate] at hfresh ⊢
      refine ⟨⟨h.create (hfresh (Nat.lt_succ_self _)) hcreate, h.erase i⟩, ?_⟩
      unfold AuthState.exchanged
      dsimp only
      rw [List.countP_append, List.countP_singleton,
        if_neg fun heq => hother (of_decide_eq_true heq), Nat.add_zero]

/-- A call that comes in is not about to create a successor. -/
theorem AuthState.Gone.enter (h : σ.Gone v) {task : AuthTask}
    (htask : ∀ t accessToken, task ≠ .rotate v t accessToken) :
    AuthState.Gone { σ with tasks := σ.tasks ++ [task] } v where
  rows := h.rows
  tasks := by
    intro t accessToken ht
    rcases List.mem_append.mp ht with ht | ht
    · exact h.tasks t accessToken ht
    · exact htask t accessToken (List.mem_singleton.mp ht).symm

/-- **What a step keeps**: a token that is gone stays gone, and is not exchanged, unless its value
is drawn again. -/
theorem AuthState.Gone.next (h : σ.Gone v) (hsafe : σ.Safe env) {a : AuthAction}
    (hstep : σ.next env a = some τ)
    (hfresh : σ.drawn < τ.drawn → env.randomBytes σ.drawn ≠ v) :
    τ.Gone v ∧ τ.exchanged v = σ.exchanged v := by
  cases a with
  | login dto now =>
    unfold AuthState.next at hstep
    cases hread : Auth.loginRead env σ.db dto with
    | error e =>
      simp only [hread, Option.some.injEq] at hstep
      exact hstep ▸ ⟨h, rfl⟩
    | ok user =>
      simp only [hread, Option.some.injEq] at hstep
      subst hstep
      exact ⟨h.enter fun _ _ => nofun, rfl⟩
  | refresh refreshToken now =>
    unfold AuthState.next at hstep
    cases hread : Auth.refreshRead σ.db refreshToken now with
    | error e =>
      simp only [hread, Option.some.injEq] at hstep
      exact hstep ▸ ⟨h, rfl⟩
    | ok t =>
      simp only [hread, Option.some.injEq] at hstep
      subst hstep
      exact ⟨h.enter fun _ _ => nofun, rfl⟩
  | logout refreshToken =>
    obtain rfl := Option.some.inj hstep
    exact ⟨⟨fun r hr => h.rows r (Table.mem_delete.mp hr).1, h.tasks⟩, rfl⟩
  | advance i now =>
    obtain ⟨task, hi, rfl⟩ := Option.map_eq_some_iff.mp hstep
    exact h.advance hsafe hi hfresh
  | drop i =>
    obtain ⟨task, hi, rfl⟩ := Option.map_eq_some_iff.mp hstep
    exact ⟨⟨h.rows, h.erase i⟩, rfl⟩
  | call op =>
    obtain rfl := Option.some.inj hstep
    refine ⟨⟨?_, h.tasks⟩, rfl⟩
    show ∀ r ∈ (exec σ.db op).refreshTokens.rows, r.token ≠ v
    rw [exec_refreshTokens]
    exact h.rows

/-- Values are only drawn. -/
theorem AuthState.advance_drawn (σ : AuthState) (i : ℕ) (now : DateTime) (task : AuthTask) :
    σ.drawn ≤ (σ.advance env i now task).drawn := by
  cases task with
  | login user accessToken =>
    unfold AuthState.advance
    dsimp only
    split <;> exact Nat.le_succ _
  | delete refreshToken t accessToken =>
    unfold AuthState.advance
    dsimp only
    split <;> exact Nat.le_refl _
  | rotate refreshToken t accessToken =>
    unfold AuthState.advance
    dsimp only
    split <;> exact Nat.le_succ _

theorem AuthState.next_drawn {a : AuthAction} (h : σ.next env a = some τ) : σ.drawn ≤ τ.drawn := by
  cases a with
  | login dto now =>
    unfold AuthState.next at h
    dsimp only at h
    split at h <;> obtain rfl := Option.some.inj h <;> exact Nat.le_refl _
  | refresh refreshToken now =>
    unfold AuthState.next at h
    dsimp only at h
    split at h <;> obtain rfl := Option.some.inj h <;> exact Nat.le_refl _
  | logout refreshToken =>
    obtain rfl := Option.some.inj h
    exact Nat.le_refl _
  | advance i now =>
    obtain ⟨task, -, rfl⟩ := Option.map_eq_some_iff.mp h
    exact σ.advance_drawn i now task
  | drop i =>
    obtain ⟨task, -, rfl⟩ := Option.map_eq_some_iff.mp h
    exact Nat.le_refl _
  | call op =>
    obtain rfl := Option.some.inj h
    exact Nat.le_refl _

end Gone

/-- **A logout is final**: when a token that was handed out is logged out and no refresh has
deleted its row already, then however the calls go on, those that looked it up before included,
it is never exchanged and every later refresh with it is refused, if no random value is drawn
twice. -/
theorem logout_is_final {env : AuthEnv} {us : Table User} {db : Db} {as bs : List AuthAction}
    {σ σ' τ : AuthState} {v : String} {k : ℕ} (hdb : Reachable us db)
    (hrun : Runs.Run (AuthState.next env) Runs.anyStep (AuthState.start db) as σ)
    (hk : k < σ.drawn) (hv : env.randomBytes k = v)
    (hnone : ∀ t accessToken, AuthTask.rotate v t accessToken ∉ σ.tasks)
    (hlogout : σ.next env (.logout v) = some σ')
    (hrest : Runs.Run (AuthState.next env) Runs.anyStep σ' bs τ)
    (hrandom : Set.InjOn env.randomBytes (Set.Iio τ.drawn)) :
    τ.exchanged v = σ.exchanged v ∧ ∀ now, Auth.refreshRead τ.db v now
      = .error (.unauthorized "Invalid or expired refresh token") := by
  have hsafe : σ.Safe env := hrun.invariant (AuthState.Safe env)
    (AuthState.safe_start hdb.refreshTokens) fun _ _ _ hσ _ hstep => hσ.next hstep
  have hsafe' : σ'.Safe env := hsafe.next hlogout
  obtain rfl := Option.some.inj hlogout
  have hgone : AuthState.Gone { σ with db := Auth.logout σ.db v } v := by
    refine ⟨fun r hr htoken => ?_, hnone⟩
    exact (Table.mem_delete.mp hr).2 (by simp [UniqueKeys.keys, htoken])
  -- as long as the values drawn differ, none of them is the one of the token
  have hall : τ.Safe env ∧ k < τ.drawn ∧ (Set.InjOn env.randomBytes (Set.Iio τ.drawn) →
      τ.Gone v ∧ τ.exchanged v = σ.exchanged v) := by
    refine hrest.invariant (fun τ => τ.Safe env ∧ k < τ.drawn ∧
      (Set.InjOn env.randomBytes (Set.Iio τ.drawn) → τ.Gone v ∧ τ.exchanged v = σ.exchanged v))
      ⟨hsafe', hk, fun _ => ⟨hgone, rfl⟩⟩ ?_
    rintro τ a υ ⟨hτ, hk, hkept⟩ - hn
    have hdrawn : τ.drawn ≤ υ.drawn := AuthState.next_drawn hn
    refine ⟨hτ.next hn, Nat.lt_of_lt_of_le hk hdrawn, fun hinj => ?_⟩
    obtain ⟨hgone, hexchanged⟩ := hkept (hinj.mono fun n hn => Nat.lt_of_lt_of_le hn hdrawn)
    obtain ⟨hgone', hsame⟩ := hgone.next hτ hn fun hlt heq => by
      have hkn := hinj (Set.mem_Iio.mpr (Nat.lt_trans hk hlt)) (Set.mem_Iio.mpr hlt)
        (hv.trans heq.symm)
      omega
    exact ⟨hgone', hsame.trans hexchanged⟩
  obtain ⟨hgone, hexchanged⟩ := hall.2.2 hrandom
  exact ⟨hexchanged, hgone.refreshRead⟩

/-- The owner logs out while a refresh that has found the token is under way. -/
theorem logout_is_final_underWay : ∃ σ σ' τ : AuthState,
    σ.next longerValues (.logout "f") = some σ' ∧ σ.tasks.length = 1 ∧ τ.tasks = [] ∧
      τ.exchanged "f" = σ.exchanged "f" ∧ ∀ now, Auth.refreshRead τ.db "f" now
        = .error (.unauthorized "Invalid or expired refresh token") := by
  have hcheck : (Runs.runs (AuthState.next longerValues) (fun _ _ => true) (AuthState.start shop)
      [.login ⟨"owner@shop", "secret"⟩ 1, .advance 0 1, .refresh "f" 2]).any (fun σ =>
        decide (σ.tasks.length = 1 ∧ 0 < σ.drawn ∧
            ∀ task ∈ σ.tasks, task.taken (fun _ => true) = 0) &&
          ((σ.next longerValues (.logout "f")).bind fun σ' =>
            Runs.runs (AuthState.next longerValues) (fun _ _ => true) σ'
              [.advance 0 3, .refresh "f" 4]).any fun τ => τ.tasks.isEmpty) = true := by
    decide +kernel
  obtain ⟨σ, hrun, hend⟩ := Runs.exists_run_of_runs hcheck
  obtain ⟨hσ, hrest⟩ := Bool.and_eq_true_iff.mp hend
  obtain ⟨hone, hdrawn, htaken⟩ := of_decide_eq_true hσ
  obtain ⟨τ, hτ, hempty⟩ := (Option.any_eq_true _ _).mp hrest
  obtain ⟨σ', hlogout, hrest⟩ := Option.bind_eq_some_iff.mp hτ
  have hnone : ∀ t accessToken, AuthTask.rotate "f" t accessToken ∉ σ.tasks :=
    fun t accessToken ht => absurd (htaken _ ht) (by simp [AuthTask.taken])
  exact ⟨σ, σ', τ, hlogout, hone, List.isEmpty_iff.mp hempty,
    logout_is_final (k := 0) (reachable_shopWith systemUsers) (hrun.weaken fun _ _ _ => trivial)
      hdrawn rfl hnone hlogout ((Runs.run_of_runs hrest).weaken fun _ _ _ => trivial)
      longerValues_injective.injOn⟩

end KPos
