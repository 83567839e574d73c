/-
# The staff of a merchant (`users.service.ts`, `auth.service.ts`)

A registration creates a merchant with its owner.  Everything else about the accounts and the
tills of the merchant is done by requests of that owner, who may turn off any account of the
merchant, the own one included.

* `one_owner_each` : a merchant has one owner, for good;
* `Server.LockedOut` : the owner is turned off, and no request of the owner is under way;
* `locked_out_for_good` : from then on the accounts stay as they are, and no till is added or
  removed.
-/
import KPos.Sessions

namespace KPos

/-! ## One owner -/

/-- The account is the owner of the merchant. -/
def isOwnerOf (m : Ident) (u : User) : Bool :=
  decide (u.role = .OWNER ∧ u.idMerchant = some m)

/-- The merchants of the accounts are there, and each merchant has one owner. -/
structure Db.Staffed (db : Db) : Prop where
  merchant : ∀ u ∈ db.users.rows, ∀ m, u.idMerchant = some m → db.merchants.has (.id m) = true
  owner : ∀ m ∈ db.merchants.rows, db.users.rows.countP (isOwnerOf m.idMerchant) = 1

section Owner

variable {env : ServerEnv} {σ τ : Server} {a : ServerAction} {db' : Db}

/-- No request is a registration. -/
theorem request_merchants {request : Request} {user : JwtPayload} {now : DateTime} {op : Op}
    (hop : request.op user now = some op) : .merchant ∉ op.tables := by
  cases request with
  | syncTransactions idDevice batch publish => cases hop
  | _ =>
    obtain rfl := Option.some.inj hop
    simp [Op.tables]

theorem not_owner_of_valid {isEmail : String → Bool} {dto : CreateUserDto}
    (h : dto.valid isEmail = true) : dto.role ≠ .OWNER := by
  unfold CreateUserDto.valid at h
  rw [Bool.and_eq_true, decide_eq_true_eq] at h
  intro howner
  rw [howner] at h
  exact absurd h.2 (by decide)

theorem Db.Staffed.of_eq {db : Db} (h : db.Staffed) (hmerchants : db'.merchants = db.merchants)
    (husers : db'.users = db.users) : db'.Staffed where
  merchant := by
    rw [hmerchants, husers]
    exact h.merchant
  owner := by
    rw [hmerchants, husers]
    exact h.owner

/-- A registration brings one merchant and its one owner. -/
theorem Db.Staffed.register {db : Db} (h : db.Staffed) (dto : RegisterDto) (hashed : String) :
    (exec db (.register dto hashed)).Staffed := by
  rcases register_rows db dto hashed with hsame | ⟨ms, us, hms, hus, hdb⟩
  · rw [hsame]
    exact h
  · rw [hdb]
    have hfresh : db.merchants.has (.id db.newId) = false := merchant_fresh hms
    have hrows : us.rows = db.users.rows ++ [ownerRow db dto hashed] :=
      (Table.insert_eq_some.mp hus).2
    refine ⟨fun u hu m hm => ?_, fun m hm => ?_⟩
    · rcases (Table.mem_insert hus).mp hu with hu | rfl
      · exact Table.has_insert_mono hms (h.merchant u hu m hm)
      · obtain rfl := Option.some.inj hm
        exact (Table.has_of_insert hms).mpr (Or.inr (List.mem_singleton_self _))
    · show us.rows.countP _ = 1
      rw [hrows, List.countP_append, List.countP_singleton]
      rcases (Table.mem_insert hms).mp hm with hm | rfl
      · have hne : ¬ isOwnerOf m.idMerchant (ownerRow db dto hashed) = true := by
          intro howner
          have hid : db.newId = m.idMerchant := Option.some.inj (of_decide_eq_true howner).2
          have hhas : db.merchants.has (.id m.idMerchant) = true :=
            Table.has_of_mem hm (List.mem_singleton_self _)
          rw [← hid, hfresh] at hhas
          cases hhas
        rw [h.owner m hm, if_neg hne]
      · -- nobody had this merchant before
        have hnone : db.users.rows.countP (isOwnerOf db.newId) = 0 := by
          rw [List.countP_eq_zero]
          intro u hu howner
          have hhas := h.merchant u hu _ (of_decide_eq_true howner).2
          rw [hfresh] at hhas
          cases hhas
        have hself : isOwnerOf db.newId (ownerRow db dto hashed) = true :=
          decide_eq_true ⟨rfl, rfl⟩
        show db.users.rows.countP (isOwnerOf db.newId)
          + (if isOwnerOf db.newId (ownerRow db dto hashed) = true then 1 else 0) = 1
        rw [hnone, if_pos hself]

/-- An account that an owner creates is no owner. -/
theorem Db.Staffed.created {db : Db} (h : db.Staffed) {m : Ident} {dto : CreateUserDto}
    {hashed : String} (hm : db.merchants.has (.id m) = true) (hrole : dto.role ≠ .OWNER)
    (hmerchants : db'.merchants = db.merchants)
    (hinsert : db.users.insert (staffRow db m dto hashed) = some db'.users) : db'.Staffed := by
  refine ⟨fun u hu m' hm' => ?_, fun m' hm' => ?_⟩
  · rw [hmerchants]
    rcases (Table.mem_insert hinsert).mp hu with hu | rfl
    · exact h.merchant u hu m' hm'
    · obtain rfl := Option.some.inj hm'
      exact hm
  · rw [hmerchants] at hm'
    have hno : ¬ isOwnerOf m'.idMerchant (staffRow db m dto hashed) = true :=
      fun howner => hrole (of_decide_eq_true howner).1
    rw [(Table.insert_eq_some.mp hinsert).2, List.countP_append, List.countP_singleton,
      h.owner m' hm', if_neg hno]

/-- Turning an account on or off is nothing to it. -/
theorem Db.Staffed.activated {db : Db} (h : db.Staffed) {i : Ident} {isActive : Bool}
    (hmerchants : db'.merchants = db.merchants)
    (hupdate : db'.users = db.users.update (.id i) (User.activated isActive)) : db'.Staffed := by
  refine ⟨fun u hu m hm => ?_, fun m hm => ?_⟩
  · rw [hmerchants]
    rw [hupdate] at hu
    rcases Table.mem_update_iff.mp hu with ⟨v, hv, -, rfl⟩ | ⟨hu, -⟩
    · exact h.merchant v hv m hm
    · exact h.merchant u hu m hm
  · rw [hmerchants] at hm
    have hsame : (isOwnerOf m.idMerchant ∘ fun u : User =>
        if UserKey.id i ∈ UniqueKeys.keys u then User.activated isActive u else u)
          = isOwnerOf m.idMerchant := by
      funext u
      rw [Function.comp_apply]
      split <;> rfl
    rw [hupdate, Table.rows_update, List.countP_map, hsame]
    exact h.owner m hm

/-- **What a step keeps.** -/
theorem Db.Staffed.next (h : σ.db.Staffed) (hσ : σ.Genuine env)
    (hnext : σ.next env a = some τ) : τ.db.Staffed := by
  have hchange : σ.Change env a τ.db := Server.next_change hnext
  generalize τ.db = db' at hchange
  cases hchange with
  | tokens write =>
    rw [write.frame]
    exact h.of_eq rfl rfl
  | @registered dto hashed => exact h.register dto hashed
  | paired =>
    exact h.of_eq (exec_onlyIn _ _ .merchant (by simp [Op.tables]))
      (exec_onlyIn _ _ .user (by simp [Op.tables]))
  | served user request op hpending hop =>
    have hmerchants : (exec σ.db op).merchants = σ.db.merchants :=
      exec_onlyIn _ _ .merchant (request_merchants hop)
    rcases request_users σ.db hop with
      hsame | ⟨dto, hashed, rfl, rfl⟩ | ⟨idUser, isActive, rfl, rfl⟩
    · exact h.of_eq hmerchants hsame
    · rcases createUser_users σ.db user.idMerchant dto hashed with hsame | hinsert
      · exact h.of_eq hmerchants hsame
      · obtain ⟨⟨u, hu, hpayload⟩, -, hvalid⟩ := hσ.pending _ (List.mem_of_getElem? hpending)
        have hm : u.idMerchant = some user.idMerchant :=
          congrArg TokenPayload.idMerchant hpayload
        exact h.created (h.merchant u hu _ hm) (not_owner_of_valid hvalid) hmerchants hinsert
    · rcases updateStatus_users σ.db idUser user.idMerchant isActive with
        hsame | ⟨u, -, -, -, hupdate⟩
      · exact h.of_eq hmerchants hsame
      · exact h.activated hmerchants hupdate
  | consumed item _ =>
    exact h.of_eq (exec_onlyIn _ _ .merchant (by simp [Op.tables]))
      (exec_onlyIn _ _ .user (by simp [Op.tables]))
  | @givenUp i retryAttempt outcome item _ =>
    obtain ⟨qs, n, -, hdb⟩ := recordTerminalFailure_frame σ.db
      { item with retryAttempt := retryAttempt } outcome
    rw [hdb]
    exact h.of_eq rfl rfl

end Owner

/-- **One owner each**: in every state of the server, every merchant has exactly one account of
the role `OWNER`, and the merchant of every account is there. -/
theorem one_owner_each {env : ServerEnv} {us : Table User} {σ : Server}
    (hus : ∀ u ∈ us.rows, u.idMerchant = none) (hσ : ServerReaches env us σ) :
    (∀ m ∈ σ.db.merchants.rows, σ.db.users.rows.countP (isOwnerOf m.idMerchant) = 1) ∧
      ∀ u ∈ σ.db.users.rows, ∀ m, u.idMerchant = some m →
        σ.db.merchants.has (.id m) = true := by
  have hstart : (Server.start us).db.Staffed := by
    refine ⟨fun u hu m hm => ?_, fun m hm => absurd hm List.not_mem_nil⟩
    rw [hus u hu] at hm
    cases hm
  obtain ⟨_, hrun⟩ := hσ
  have hall : σ.db.Staffed ∧ σ.Genuine env :=
    hrun.invariant (fun σ => σ.db.Staffed ∧ σ.Genuine env) ⟨hstart, .start env us⟩
      fun _ _ _ hI hc hn => ⟨hI.1.next hI.2 hn, hI.2.next hc hn⟩
  exact ⟨hall.1.owner, hall.1.merchant⟩

/-- Two shops, one with an employee. -/
theorem one_owner_each_shops : ∃ σ : Server, σ.db.users.rows.length = 3 ∧
    (∀ m ∈ σ.db.merchants.rows, σ.db.users.rows.countP (isOwnerOf m.idMerchant) = 1) ∧
      ∀ u ∈ σ.db.users.rows, ∀ m, u.idMerchant = some m →
        σ.db.merchants.has (.id m) = true := by
  have hcheck : (Runs.runs (Server.next plainTokens) (unforgedTest plainTokens)
      (Server.start .empty) (operatorLogin ++
        [.register ⟨"Other", "other@shop", "password", "Other"⟩ "hashed password"])).any
          (fun σ => decide (σ.db.users.rows.length = 3)) = true := by
    decide +kernel
  obtain ⟨σ, hσ, hend⟩ := exists_serverReaches hcheck
  exact ⟨σ, of_decide_eq_true hend, one_owner_each (fun _ h => absurd h List.not_mem_nil) hσ⟩

/-! ## Locked out -/

/-- The accounts of a merchant. -/
def Db.staffOf (db : Db) (m : Ident) : List User :=
  db.users.rows.filter fun u => decide (u.idMerchant = some m)

/-- The tills of a merchant, and whether each is in use. -/
def Db.tillsOf (db : Db) (m : Ident) : List (Ident × Bool) :=
  (db.devices.rows.filter fun d => decide (d.idMerchant = m)).map fun d => (d.idDevice, d.isActive)

/-- The merchant is there, its owner is turned off, and no request of the owner is under way. -/
structure Server.LockedOut (σ : Server) (m : Ident) : Prop where
  merchant : σ.db.merchants.has (.id m) = true
  owner : ∀ u ∈ σ.db.users.rows, isOwnerOf m u = true → u.isActive = false
  pending : ∀ p ∈ σ.pending, p.1.role = .OWNER → p.1.idMerchant ≠ m

section LockedOut

variable {env : ServerEnv} {σ τ : Server} {a : ServerAction} {db' : Db} {m : Ident}

/-- The requests that are open to owners alone come from other merchants. -/
theorem Server.LockedOut.elsewhere (h : σ.LockedOut m) (hσ : σ.Genuine env) {i : ℕ}
    {user : JwtPayload} {request : Request} (hi : σ.pending[i]? = some (user, request))
    (howners : request.access.roles = [.OWNER]) : user.idMerchant ≠ m := by
  have hmem : (user, request) ∈ σ.pending := List.mem_of_getElem? hi
  obtain ⟨-, hrole, -⟩ := hσ.pending _ hmem
  refine h.pending _ hmem ?_
  rw [howners] at hrole
  exact List.mem_singleton.mp hrole

/-- The accounts of the merchant stay as they are. -/
theorem Server.LockedOut.staffOf (h : σ.LockedOut m) (hσ : σ.Genuine env)
    (hchange : σ.Change env a db') : db'.staffOf m = σ.db.staffOf m := by
  have hstaff := hchange.staff
  unfold Db.staffOf
  generalize db'.users = us at hstaff
  cases hstaff with
  | same => rfl
  | registered fresh insert =>
    refine Table.filter_insert insert (decide_eq_false fun hm => ?_)
    have hhas := h.merchant
    rw [← Option.some.inj hm, fresh] at hhas
    cases hhas
  | created user dto hashed pending insert =>
    refine Table.filter_insert insert (decide_eq_false fun hm => ?_)
    exact h.elsewhere hσ pending rfl (Option.some.inj hm)
  | activated user isActive u pending account own =>
    have hno : u.idMerchant ≠ some m := by
      rw [own]
      exact fun hm => h.elsewhere hσ pending rfl (Option.some.inj hm)
    exact Table.filter_update_of_mem account (user_id_mem_keys.mpr rfl) (decide_eq_false hno)
      (decide_eq_false hno)

theorem Db.tillsOf_of_eq {db : Db} (h : db'.devices = db.devices) :
    db'.tillsOf m = db.tillsOf m := by
  unfold Db.tillsOf
  rw [h]

/-- Pairing leaves the tills as they are. -/
theorem tillsOf_pairDevice (db : Db) (code hash : String) :
    (exec db (.pairDevice code hash)).tillsOf m = db.tillsOf m := by
  refine commit_frame (·.tillsOf m) fun db' h => ?_
  obtain ⟨d, -, -, h⟩ := pairDevice_eq_ok h
  obtain ⟨-, ds, hds, rfl⟩ := updateDevice_eq_ok.mp h
  exact Table.map_filter_replace hds (fun _ => rfl) fun _ => rfl

/-- Another merchant's till is created or removed. -/
theorem tillsOf_createDevice (db : Db) {m' idUser : Ident} {name code : String} {now : DateTime}
    (hm : m' ≠ m) : (exec db (.createDevice m' idUser name code now)).tillsOf m = db.tillsOf m := by
  refine commit_frame (·.tillsOf m) fun db' h => ?_
  obtain ⟨-, -, ds, hds, rfl⟩ := createDevice_eq_ok.mp h
  exact congrArg _ (Table.filter_insert hds (decide_eq_false hm))

theorem tillsOf_removeDevice (db : Db) {m' idDevice : Ident} (hm : m' ≠ m) :
    (exec db (.removeDevice idDevice m')).tillsOf m = db.tillsOf m := by
  refine commit_frame (·.tillsOf m) fun db' h => ?_
  obtain ⟨d, hd, rfl, rfl, -, h⟩ := removeDevice_eq_ok h
  obtain ⟨-, ds, hds, rfl⟩ := updateDevice_eq_ok.mp h
  exact congrArg _ (Table.filter_replace_of_mem hds hd (device_id_mem_keys.mpr rfl)
    (decide_eq_false hm) (decide_eq_false hm))

/-- The tills of the merchant stay as they are. -/
theorem Server.LockedOut.tillsOf (h : σ.LockedOut m) (hσ : σ.Genuine env)
    (hchange : σ.Change env a db') : db'.tillsOf m = σ.db.tillsOf m := by
  cases hchange with
  | tokens write =>
    rw [write.frame]
    rfl
  | registered => exact Db.tillsOf_of_eq (exec_onlyIn _ _ .device (by simp [Op.tables]))
  | paired => exact tillsOf_pairDevice _ _ _
  | served user request op hpending hop =>
    cases request with
    | createDevice name code =>
      obtain rfl := Option.some.inj hop
      exact tillsOf_createDevice _ (h.elsewhere hσ hpending rfl)
    | removeDevice id =>
      obtain rfl := Option.some.inj hop
      exact tillsOf_removeDevice _ (h.elsewhere hσ hpending rfl)
    | syncTransactions idDevice batch publish => cases hop
    | _ =>
      obtain rfl := Option.some.inj hop
      exact Db.tillsOf_of_eq (exec_onlyIn _ _ .device (by simp [Op.tables]))
  | consumed item _ => exact Db.tillsOf_of_eq (exec_onlyIn _ _ .device (by simp [Op.tables]))
  | @givenUp i retryAttempt outcome item _ =>
    obtain ⟨qs, n, -, hdb⟩ := recordTerminalFailure_frame σ.db
      { item with retryAttempt := retryAttempt } outcome
    rw [hdb]
    rfl

/-- A merchant that is there stays. -/
theorem Server.Change.merchant (h : σ.Change env a db') (hm : σ.db.merchants.has (.id m) = true) :
    db'.merchants.has (.id m) = true := by
  cases h with
  | tokens write =>
    rw [write.frame]
    exact hm
  | registered => exact (exec_grows _ _).merchants _ hm
  | paired => exact (exec_grows _ _).merchants _ hm
  | served user request op _ _ => exact (exec_grows _ _).merchants _ hm
  | consumed item _ => exact (exec_grows _ _).merchants _ hm
  | @givenUp i retryAttempt outcome item _ =>
    obtain ⟨qs, n, -, hdb⟩ := recordTerminalFailure_frame σ.db
      { item with retryAttempt := retryAttempt } outcome
    rw [hdb]
    exact hm

/-- **What a step keeps**: a merchant that is locked out stays so. -/
theorem Server.LockedOut.next (h : σ.LockedOut m) (hσ : σ.Genuine env)
    (hunforged : unforged env σ a) (hnext : σ.next env a = some τ) : τ.LockedOut m := by
  have hchange := Server.next_change hnext
  have hoff : ∀ u ∈ τ.db.users.rows, isOwnerOf m u = true →
      u ∈ σ.db.users.rows ∧ u.isActive = false := by
    intro u hu howner
    have hmem : u ∈ τ.db.staffOf m :=
      List.mem_filter.mpr ⟨hu, decide_eq_true (of_decide_eq_true howner).2⟩
    rw [h.staffOf hσ hchange] at hmem
    have hu := (List.mem_filter.mp hmem).1
    exact ⟨hu, h.owner u hu howner⟩
  refine ⟨hchange.merchant h.merchant, fun u hu howner => (hoff u hu howner).2,
    fun p hp howner hm => ?_⟩
  have hold := (hσ.next hunforged hnext).pending p hp
  rcases Server.next_pending hnext hp with hp | ⟨bearer, now, rfl, hguards, -⟩
  · exact h.pending p hp howner hm
  · -- the guards found the account of the owner, and found it active
    obtain ⟨token, rfl, -, -, u, hu, hid, hactive⟩ := canActivate_eq_ok.mp hguards
    obtain ⟨⟨v, hv, hpayload⟩, -⟩ := hold
    have hvowner : isOwnerOf m v = true := decide_eq_true
      ⟨(congrArg TokenPayload.role hpayload).trans howner,
        (congrArg TokenPayload.idMerchant hpayload).trans (congrArg some hm)⟩
    obtain ⟨hvσ, hvoff⟩ := hoff v hv hvowner
    obtain rfl : u = v := Table.eq_of_key hu hvσ (user_id_mem_keys.mpr hid)
      (user_id_mem_keys.mpr (congrArg TokenPayload.sub hpayload))
    rw [hvoff] at hactive
    cases hactive

end LockedOut

/-- **There is no way back for an owner who is turned off**: once the owner of a merchant is not
active and no request of the owner is under way, in every later state of every run the accounts
of the merchant are as they were, so the owner is off, and no till was added or removed. -/
theorem locked_out_for_good {env : ServerEnv} {us : Table User} {σ τ : Server} {m : Ident}
    (hσ : ServerReaches env us σ) (hlocked : σ.LockedOut m) {as : List ServerAction}
    (hrun : Runs.Run (Server.next env) (unforged env) σ as τ) :
    τ.LockedOut m ∧ τ.db.staffOf m = σ.db.staffOf m ∧ τ.db.tillsOf m = σ.db.tillsOf m := by
  refine (hrun.invariant (fun τ => τ.Genuine env ∧ τ.LockedOut m ∧
    τ.db.staffOf m = σ.db.staffOf m ∧ τ.db.tillsOf m = σ.db.tillsOf m) ?_ ?_).2
  · exact ⟨hσ.genuine, hlocked, rfl, rfl⟩
  · rintro τ a υ ⟨hτ, hlocked, hstaff, htills⟩ hc hn
    have hchange := Server.next_change hn
    exact ⟨hτ.next hc hn, hlocked.next hτ hc hn, (hlocked.staffOf hτ hchange).trans hstaff,
      (hlocked.tillsOf hτ hchange).trans htills⟩

/-- An owner turns off the own account and then tries to turn it on again. -/
theorem locked_out_for_good_self : ∃ σ τ : Server, ServerReaches plainTokens .empty σ ∧
    Runs.Run (Server.next plainTokens) (unforged plainTokens) σ
      [.arrive (some ownerToken) (.updateUserStatus (.cuid 1) true) 0,
        .session (.login ⟨"owner@shop", "password"⟩ 0)] τ ∧
      τ.LockedOut shopMerchant ∧ τ.db.staffOf shopMerchant = σ.db.staffOf shopMerchant ∧
      τ.db.tillsOf shopMerchant = σ.db.tillsOf shopMerchant := by
  have hcheck : (Runs.runs (Server.next plainTokens) (unforgedTest plainTokens)
      (Server.start .empty) (firstLogin ++ ownerRequest
        (.updateUserStatus (.cuid 1) false))).any (fun σ =>
          decide (σ.db.merchants.has (.id shopMerchant) = true ∧
            (∀ u ∈ σ.db.users.rows, isOwnerOf shopMerchant u = true → u.isActive = false) ∧
            ∀ p ∈ σ.pending, p.1.role = .OWNER → p.1.idMerchant ≠ shopMerchant) &&
          (Runs.runs (Server.next plainTokens) (unforgedTest plainTokens) σ
            [.arrive (some ownerToken) (.updateUserStatus (.cuid 1) true) 0,
              .session (.login ⟨"owner@shop", "password"⟩ 0)]).isSome) = true := by
    decide +kernel
  obtain ⟨σ, hσ, hend⟩ := exists_serverReaches hcheck
  obtain ⟨hlocked, hrest⟩ := Bool.and_eq_true_iff.mp hend
  obtain ⟨hmerchant, howner, hpending⟩ := of_decide_eq_true hlocked
  obtain ⟨τ, hτ⟩ := Option.isSome_iff_exists.mp hrest
  have hrun := (Runs.run_of_runs hτ).weaken fun _ _ => unforged_of_test
  exact ⟨σ, τ, hσ, hrun, locked_out_for_good hσ ⟨hmerchant, howner, hpending⟩ hrun⟩

end KPos
