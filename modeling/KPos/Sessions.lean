/-
# Access tokens and accounts (`auth.service.ts`, `jwt.strategy.ts`, `roles.guard.ts`)

The guards trust the role and the merchant of a token, and look up in the database only whether
the account is active.  That is enough because no step of the server ever changes the id, the
email, the role or the merchant of an account, or deletes one.

* `Server.StaffChange` : what a step can do to the accounts;
* `Db.Holds` : an account has the payload of a token;
* `Server.Genuine` : the tokens that are about, and the requests that were let in, are those of
  accounts;
* `let_in_iff` : who is let in, in terms of the accounts as they are now;
* `UserRole.tables`, `duties_separated` : what the requests of each role can change.
-/
import KPos.Footprints
import KPos.Server

namespace KPos

/-! ## Accounts -/

/-- The account that a registration creates. -/
def ownerRow (db : Db) (dto : RegisterDto) (hashedPassword : String) : User where
  idUser := .cuid (db.seq + 1)
  fullName := dto.fullName
  email := dto.email
  password := hashedPassword
  role := .OWNER
  idMerchant := some db.newId
  isActive := true

/-- The account that an owner creates. -/
def staffRow (db : Db) (ownerMerchantId : Ident) (dto : CreateUserDto) (hashedPassword : String) :
    User where
  idUser := db.newId
  fullName := dto.fullName
  email := dto.email
  password := hashedPassword
  role := dto.role
  idMerchant := some ownerMerchantId
  isActive := true

theorem user_keys_activated (isActive : Bool) (u : User) :
    UniqueKeys.keys { u with isActive := isActive } = UniqueKeys.keys u := rfl

/-- The column that `updateStatus` writes. -/
def User.activated (isActive : Bool) : Rewrite User where
  toFun u := { u with isActive := isActive }
  keys_eq := user_keys_activated isActive

/-- **What a step can do to the accounts.** -/
inductive Server.StaffChange (env : ServerEnv) (σ : Server) : ServerAction → Table User → Prop
  /-- Nothing. -/
  | same {a : ServerAction} : StaffChange env σ a σ.db.users
  /-- An owner registers a merchant that was not there. -/
  | registered {dto : RegisterDto} {hashedPassword : String} {us : Table User}
      (fresh : σ.db.merchants.has (.id σ.db.newId) = false)
      (insert : σ.db.users.insert (ownerRow σ.db dto hashedPassword) = some us) :
      StaffChange env σ (.register dto hashedPassword) us
  /-- A request of a user creates an account in the user's merchant. -/
  | created {i : ℕ} {now : DateTime} {us : Table User} (user : JwtPayload) (dto : CreateUserDto)
      (hashedPassword : String)
      (pending : σ.pending[i]? = some (user, .createUser dto hashedPassword))
      (insert : σ.db.users.insert (staffRow σ.db user.idMerchant dto hashedPassword) = some us) :
      StaffChange env σ (.handle i now) us
  /-- A request of a user turns an account of the user's merchant on or off. -/
  | activated {i : ℕ} {now : DateTime} (user : JwtPayload) (isActive : Bool) (u : User)
      (pending : σ.pending[i]? = some (user, .updateUserStatus u.idUser isActive))
      (account : u ∈ σ.db.users.rows) (own : u.idMerchant = some user.idMerchant) :
      StaffChange env σ (.handle i now) (σ.db.users.update (.id u.idUser) (User.activated isActive))

section Staff

variable {db db' : Db} {env : ServerEnv} {σ τ : Server} {a : ServerAction}

/-- A registration inserts a merchant and its owner, or changes nothing. -/
theorem register_rows (db : Db) (dto : RegisterDto) (hashed : String) :
    exec db (.register dto hashed) = db ∨ ∃ ms us,
      db.merchants.insert ⟨db.newId, dto.merchantName⟩ = some ms ∧
        db.users.insert (ownerRow db dto hashed) = some us ∧
        exec db (.register dto hashed)
          = { db with merchants := ms, users := us, seq := db.seq + 2 } := by
  rcases commit_cases db (Auth.register db dto hashed) with hsame | hok
  · exact Or.inl hsame
  · refine Or.inr ?_
    change Auth.register db dto hashed = .ok (exec db (.register dto hashed)) at hok
    generalize exec db (.register dto hashed) = db' at hok
    unfold Auth.register at hok
    simp only [bind_eq_ok, require_eq_ok, exists_const] at hok
    obtain ⟨-, _, h₁, h₂⟩ := hok
    obtain ⟨ms, hms, rfl⟩ := createMerchant_eq_ok.mp h₁
    obtain ⟨-, us, hus, rfl⟩ := createUser_eq_ok.mp h₂
    exact ⟨ms, us, hms, hus, rfl⟩

/-- The id of a merchant that was inserted was free. -/
theorem merchant_fresh {db : Db} {name : String} {ms : Table Merchant}
    (h : db.merchants.insert ⟨db.newId, name⟩ = some ms) :
    db.merchants.has (.id db.newId) = false := by
  rw [Table.has_eq_false]
  exact fun m hm => Table.free_of_insert h hm (List.mem_singleton_self _)

theorem createUser_users (db : Db) (owner : Ident) (dto : CreateUserDto) (hashed : String) :
    (exec db (.createUser owner dto hashed)).users = db.users ∨
      db.users.insert (staffRow db owner dto hashed)
        = some (exec db (.createUser owner dto hashed)).users := by
  rcases commit_cases db (Users.create db owner dto hashed) with hsame | hok
  · exact Or.inl (congrArg Db.users hsame)
  · refine Or.inr ?_
    change Users.create db owner dto hashed = .ok (exec db (.createUser owner dto hashed)) at hok
    generalize exec db (.createUser owner dto hashed) = db' at hok
    obtain ⟨_, -, hcreate⟩ := bind_eq_ok.mp hok
    obtain ⟨-, us, hus, rfl⟩ := createUser_eq_ok.mp hcreate
    exact hus

theorem updateStatus_users (db : Db) (target owner : Ident) (isActive : Bool) :
    (exec db (.updateUserStatus target owner isActive)).users = db.users ∨
      ∃ u ∈ db.users.rows, u.idUser = target ∧ u.idMerchant = some owner ∧
        (exec db (.updateUserStatus target owner isActive)).users
          = db.users.update (.id target) (User.activated isActive) := by
  rcases commit_cases db (Users.updateStatus db target owner isActive) with hsame | hok
  · exact Or.inl (congrArg Db.users hsame)
  · refine Or.inr ?_
    change Users.updateStatus db target owner isActive
      = .ok (exec db (.updateUserStatus target owner isActive)) at hok
    generalize exec db (.updateUserStatus target owner isActive) = db' at hok
    unfold Users.updateStatus at hok
    simp only [bind_eq_ok, orThrow_eq_ok, require_eq_ok, decide_eq_true_eq, exists_const] at hok
    obtain ⟨u, hfound, hown, hupdate⟩ := hok
    obtain ⟨hu, hid⟩ := Table.findUnique_eq_some.mp hfound
    obtain ⟨-, rfl⟩ := updateUser_eq_ok.mp hupdate
    exact ⟨u, hu, user_id_mem_keys.mp hid, hown, rfl⟩

/-- Only three requests are about accounts. -/
theorem request_users (db : Db) {request : Request} {user : JwtPayload} {now : DateTime} {op : Op}
    (hop : request.op user now = some op) :
    (exec db op).users = db.users ∨ (∃ dto hashed, request = .createUser dto hashed ∧
        op = .createUser user.idMerchant dto hashed) ∨
      ∃ idUser isActive, request = .updateUserStatus idUser isActive ∧
        op = .updateUserStatus idUser user.idMerchant isActive := by
  cases request with
  | createUser dto hashed =>
    exact Or.inr (Or.inl ⟨dto, hashed, rfl, (Option.some.inj hop).symm⟩)
  | updateUserStatus idUser isActive =>
    exact Or.inr (Or.inr ⟨idUser, isActive, rfl, (Option.some.inj hop).symm⟩)
  | syncTransactions idDevice batch publish => cases hop
  | _ =>
    obtain rfl := Option.some.inj hop
    exact Or.inl (exec_onlyIn _ _ .user (by simp [Op.tables]))

/-- **What a step does to the accounts** is one of the things listed. -/
theorem Server.Change.staff (h : σ.Change env a db') : σ.StaffChange env a db'.users := by
  cases h with
  | tokens write =>
    rw [write.frame]
    exact .same
  | @registered dto hashed =>
    rcases register_rows σ.db dto hashed with hsame | ⟨ms, us, hms, hus, hdb⟩
    · rw [hsame]
      exact .same
    · rw [hdb]
      exact .registered (merchant_fresh hms) hus
  | paired =>
    rw [exec_onlyIn _ _ .user (by simp [Op.tables])]
    exact .same
  | served user request op hpending hop =>
    rcases request_users σ.db hop with
      hsame | ⟨dto, hashed, rfl, rfl⟩ | ⟨idUser, isActive, rfl, rfl⟩
    · rw [hsame]
      exact .same
    · rcases createUser_users σ.db user.idMerchant dto hashed with hsame | hinsert
      · rw [hsame]
        exact .same
      · exact .created user dto hashed hpending hinsert
    · rcases updateStatus_users σ.db idUser user.idMerchant isActive with
        hsame | ⟨u, hu, rfl, hown, hupdate⟩
      · rw [hsame]
        exact .same
      · rw [hupdate]
        exact .activated user isActive u hpending hu hown
  | consumed item hpublished =>
    rw [exec_onlyIn _ _ .user (by simp [Op.tables])]
    exact .same
  | @givenUp i retryAttempt outcome item hpublished =>
    obtain ⟨qs, n, -, hdb⟩ := recordTerminalFailure_frame σ.db
      { item with retryAttempt := retryAttempt } outcome
    rw [hdb]
    exact .same

/-- An account stays, with its id, its email, its role and its merchant. -/
theorem Server.StaffChange.payload {us : Table User} (h : σ.StaffChange env a us) {u : User}
    (hu : u ∈ σ.db.users.rows) : ∃ v ∈ us.rows, v.payload = u.payload := by
  cases h with
  | same => exact ⟨u, hu, rfl⟩
  | registered fresh insert => exact ⟨u, (Table.mem_insert insert).mpr (Or.inl hu), rfl⟩
  | created user dto hashed pending insert =>
    exact ⟨u, (Table.mem_insert insert).mpr (Or.inl hu), rfl⟩
  | activated user isActive w pending account own =>
    by_cases hw : UserKey.id w.idUser ∈ UniqueKeys.keys u
    · exact ⟨_, Table.mem_update_iff.mpr (Or.inl ⟨u, hu, hw, rfl⟩), rfl⟩
    · exact ⟨u, Table.mem_update_iff.mpr (Or.inr ⟨hu, hw⟩), rfl⟩

end Staff

/-! ## Tokens of accounts -/

/-- An account has the payload. -/
def Db.Holds (db : Db) (p : TokenPayload) : Prop := ∃ u ∈ db.users.rows, u.payload = p

/-- The access token was signed for an account, as it is now. -/
def Db.Signs (env : AuthEnv) (db : Db) (token : String) : Prop :=
  ∃ p issued, db.Holds p ∧ token = env.sign p issued

/-- The access token that a call of `/auth` is going to hand out. -/
def AuthTask.accessToken : AuthTask → String
  | .login _ accessToken | .delete _ _ accessToken | .rotate _ _ accessToken => accessToken

/-- The payload of the token of a user. -/
def JwtPayload.payload (user : JwtPayload) : TokenPayload :=
  ⟨user.sub, user.email, user.role, some user.idMerchant⟩

theorem jwtPayload_eq_some {p : TokenPayload} {user : JwtPayload} :
    p.jwtPayload = some user ↔ p = user.payload := by
  unfold TokenPayload.jwtPayload
  rw [Option.map_eq_some_iff]
  constructor
  · rintro ⟨m, hm, rfl⟩
    cases p
    cases hm
    rfl
  · rintro rfl
    exact ⟨user.idMerchant, rfl, rfl⟩

/-- Every access token that was or will be handed out is that of an account; the requests that
were let in come from accounts whose role may make them; and what was published is valid. -/
structure Server.Genuine (env : ServerEnv) (σ : Server) : Prop where
  tasks : ∀ task ∈ σ.auth.tasks, σ.db.Signs env.toAuthEnv task.accessToken
  tokens : ∀ token ∈ σ.auth.accessTokens, σ.db.Signs env.toAuthEnv token
  pending : ∀ p ∈ σ.pending, σ.db.Holds p.1.payload ∧ p.1.role ∈ p.2.access.roles ∧
    p.2.valid env.isEmail = true
  published : ∀ item ∈ σ.published, item.Valid

section Tokens

variable {env : ServerEnv} {σ τ : Server} {a : ServerAction}

/-- What a login finds is an account. -/
theorem loginRead_mem {env : AuthEnv} {db : Db} {dto : LoginDto} {user : User}
    (h : Auth.loginRead env db dto = .ok user) : user ∈ db.users.rows := by
  unfold Auth.loginRead at h
  simp only [bind_eq_ok, orThrow_eq_ok, require_eq_ok, pure_eq_ok, exists_const] at h
  obtain ⟨u, hfound, -, rfl⟩ := h
  exact (Table.findUnique_eq_some.mp (Option.filter_eq_some_iff.mp hfound).1).1

/-- What a refresh finds is of an account. -/
theorem refreshRead_mem {db : Db} {refreshToken : String} {now : DateTime} {t : FoundRefreshToken}
    (h : Auth.refreshRead db refreshToken now = .ok t) : t.user ∈ db.users.rows := by
  unfold Auth.refreshRead at h
  simp only [bind_eq_ok, orThrow_eq_ok, require_eq_ok, pure_eq_ok, exists_const] at h
  obtain ⟨t', hfound, -, rfl⟩ := h
  obtain ⟨row, -, hrest⟩ := Option.bind_eq_some_iff.mp (Option.filter_eq_some_iff.mp hfound).1
  obtain ⟨user, huser, hrest⟩ := Option.bind_eq_some_iff.mp hrest
  obtain rfl := Option.some.inj hrest
  exact (Table.findUnique_eq_some.mp huser).1

/-- The calls under way keep their access tokens, and hand out no others. -/
theorem AuthState.advance_tokens {env : AuthEnv} {σ : AuthState} {i : ℕ} {now : DateTime}
    {task : AuthTask} (hi : σ.tasks[i]? = some task) {P : String → Prop}
    (htasks : ∀ task ∈ σ.tasks, P task.accessToken) (htokens : ∀ t ∈ σ.accessTokens, P t) :
    (∀ s ∈ (σ.advance env i now task).tasks, P s.accessToken) ∧
      ∀ t ∈ (σ.advance env i now task).accessTokens, P t := by
  have htask : P task.accessToken := htasks task (List.mem_of_getElem? hi)
  have herase : ∀ task ∈ σ.tasks.eraseIdx i, P task.accessToken :=
    fun t ht => htasks t (List.mem_of_mem_eraseIdx ht)
  cases task with
  | login user accessToken =>
    cases hcreate : σ.db.createRefreshToken (newRefreshToken env σ.db σ.drawn user now) with
    | error e =>
      simp only [AuthState.advance, hcreate]
      exact ⟨herase, htokens⟩
    | ok db =>
      simp only [AuthState.advance, hcreate]
      refine ⟨herase, fun t ht => ?_⟩
      simp only [AuthState.accessTokens, List.map_append, List.mem_append, List.map_cons,
        List.map_nil, List.mem_singleton] at ht htokens
      rcases ht with (ht | rfl) | ht
      · exact htokens t (Or.inl ht)
      · exact htask
      · exact htokens t (Or.inr ht)
  | delete refreshToken tokenRecord accessToken =>
    cases hdelete : σ.db.deleteRefreshToken tokenRecord.row.id with
    | error e =>
      simp only [AuthState.advance, hdelete]
      exact ⟨herase, htokens⟩
    | ok db =>
      simp only [AuthState.advance, hdelete]
      refine ⟨fun t ht => ?_, htokens⟩
      rcases List.mem_or_eq_of_mem_set ht with ht | rfl
      · exact htasks t ht
      · exact htask
  | rotate refreshToken tokenRecord accessToken =>
    cases hcreate : σ.db.createRefreshToken
        (newRefreshToken env σ.db σ.drawn tokenRecord.user now) with
    | error e =>
      simp only [AuthState.advance, hcreate]
      exact ⟨herase, htokens⟩
    | ok db =>
      simp only [AuthState.advance, hcreate]
      refine ⟨herase, fun t ht => ?_⟩
      simp only [AuthState.accessTokens, List.map_append, List.mem_append, List.map_cons,
        List.map_nil, List.mem_singleton] at ht htokens
      rcases ht with ht | ht | rfl
      · exact htokens t (Or.inl ht)
      · exact htokens t (Or.inr ht)
      · exact htask

/-- A step of `/auth` signs tokens for accounts only. -/
theorem AuthState.next_tokens {env : AuthEnv} {σ τ : AuthState} {a : AuthAction}
    (ha : ∀ op, a ≠ .call op) (h : σ.next env a = some τ) {P : String → Prop}
    (hsign : ∀ u ∈ σ.db.users.rows, ∀ issued, P (env.sign u.payload issued))
    (htasks : ∀ task ∈ σ.tasks, P task.accessToken) (htokens : ∀ t ∈ σ.accessTokens, P t) :
    (∀ task ∈ τ.tasks, P task.accessToken) ∧ ∀ t ∈ τ.accessTokens, P t := by
  have hnew : ∀ task : AuthTask, P task.accessToken →
      ∀ t ∈ σ.tasks ++ [task], P t.accessToken := by
    intro task htask t ht
    rcases List.mem_append.mp ht with ht | ht
    · exact htasks t ht
    · rw [List.mem_singleton.mp ht]
      exact htask
  cases a with
  | login dto now =>
    obtain rfl | ⟨user, hread, rfl⟩ := AuthState.next_login h
    · exact ⟨htasks, htokens⟩
    · exact ⟨hnew _ (hsign user (loginRead_mem hread) now), htokens⟩
  | refresh refreshToken now =>
    obtain rfl | ⟨t, hread, rfl⟩ := AuthState.next_refresh h
    · exact ⟨htasks, htokens⟩
    · exact ⟨hnew _ (hsign t.user (refreshRead_mem hread) now), htokens⟩
  | logout refreshToken =>
    obtain rfl := Option.some.inj h
    exact ⟨htasks, htokens⟩
  | advance i now =>
    obtain ⟨task, hi, rfl⟩ := Option.map_eq_some_iff.mp h
    exact AuthState.advance_tokens hi htasks htokens
  | drop i =>
    obtain ⟨task, -, rfl⟩ := Option.map_eq_some_iff.mp h
    exact ⟨fun t ht => htasks t (List.mem_of_mem_eraseIdx ht), htokens⟩
  | call op => exact absurd rfl (ha op)

/-- A new entry of the pending requests has just been let in. -/
theorem Server.next_pending (h : σ.next env a = some τ) {p : JwtPayload × Request}
    (hp : p ∈ τ.pending) : p ∈ σ.pending ∨ ∃ bearer now, a = .arrive bearer p.2 now ∧
      Guards.canActivate env.toJwtService σ.db p.2.access bearer now = .ok p.1.payload ∧
      p.2.valid env.isEmail = true := by
  cases a with
  | session a =>
    obtain rfl | ⟨-, auth, -, rfl⟩ := Server.next_session h
    · exact Or.inl hp
    · exact Or.inl hp
  | register dto hashed =>
    obtain rfl := Option.some.inj h
    split at hp <;> exact Or.inl hp
  | pairDevice code hardwareId =>
    obtain rfl := Option.some.inj h
    split at hp <;> exact Or.inl hp
  | arrive bearer request now =>
    obtain rfl | ⟨payload, user, hguards, huser, hvalid, rfl⟩ := Server.next_arrive h
    · exact Or.inl hp
    · rcases List.mem_append.mp hp with hp | hp
      · exact Or.inl hp
      · obtain rfl := List.mem_singleton.mp hp
        rw [jwtPayload_eq_some] at huser
        rw [huser] at hguards
        exact Or.inr ⟨bearer, now, rfl, hguards, hvalid⟩
  | handle i now =>
    obtain ⟨⟨user, request⟩, -, rfl⟩ := Option.map_eq_some_iff.mp h
    have hp : p ∈ (σ.serve env user request now).pending.eraseIdx i := hp
    refine Or.inl ?_
    rcases Server.serve_cases env σ user request now with
      ⟨op, -, hserve⟩ | hserve | ⟨_, _, _, _, -, -, hserve⟩
    all_goals
      rw [hserve] at hp
      exact List.mem_of_mem_eraseIdx hp
  | abort i =>
    obtain ⟨_, -, rfl⟩ := Option.map_eq_some_iff.mp h
    exact Or.inl (List.mem_of_mem_eraseIdx hp)
  | consume i retryAttempt outcome =>
    obtain ⟨item, -, rfl⟩ := Option.map_eq_some_iff.mp h
    exact Or.inl hp
  | giveUp i retryAttempt outcome =>
    obtain ⟨item, -, rfl⟩ := Option.map_eq_some_iff.mp h
    exact Or.inl hp

/-- What is published of a batch are its items. -/
theorem mem_syncTransactions {hash : PayloadHash} {db : Db} {idDevice : Ident}
    {batch : SyncBatchDto} {publish : Call} {items : List QueuedTransaction}
    {item : QueuedTransaction}
    (h : Sync.syncTransactions hash db idDevice batch publish = .ok items) (hitem : item ∈ items) :
    ∃ t ∈ batch.transactions, item = t.queued hash idDevice := by
  unfold Sync.syncTransactions at h
  simp only [bind_eq_ok, require_eq_ok, exists_const] at h
  obtain ⟨-, _, -, h⟩ := h
  cases publish with
  | served =>
    obtain rfl := pure_eq_ok.mp h
    obtain ⟨t, ht, rfl⟩ := List.mem_map.mp hitem
    exact ⟨t, ht, rfl⟩
  | failed message => cases h
  | lost message => cases h

/-- What is published comes behind what was, and is a transaction of a batch with its hash and its
device. -/
theorem Server.next_published (h : σ.next env a = some τ) :
    ∃ items, τ.published = σ.published ++ items ∧ ∀ item ∈ items,
      ∃ (t : SyncTransactionDto) (idDevice : Ident), t.Valid ∧
        item = t.queued env.payloadHash idDevice := by
  have hsame : ∀ {items : List QueuedTransaction}, items = σ.published →
      ∃ new, items = σ.published ++ new ∧ ∀ item ∈ new,
        ∃ (t : SyncTransactionDto) (idDevice : Ident), t.Valid ∧
          item = t.queued env.payloadHash idDevice :=
    fun heq => ⟨[], heq.trans (List.append_nil _).symm, fun _ h => nomatch h⟩
  cases a with
  | session a =>
    obtain rfl | ⟨-, auth, -, rfl⟩ := Server.next_session h
    · exact hsame rfl
    · exact hsame rfl
  | register dto hashed =>
    obtain rfl := Option.some.inj h
    split <;> exact hsame rfl
  | pairDevice code hardwareId =>
    obtain rfl := Option.some.inj h
    split <;> exact hsame rfl
  | arrive bearer request now =>
    obtain rfl | ⟨payload, user, -, -, -, rfl⟩ := Server.next_arrive h
    · exact hsame rfl
    · exact hsame rfl
  | handle i now =>
    obtain ⟨⟨user, request⟩, -, rfl⟩ := Option.map_eq_some_iff.mp h
    show ∃ items, (σ.serve env user request now).published = σ.published ++ items ∧ _
    rcases Server.serve_cases env σ user request now with
      ⟨op, -, hserve⟩ | hserve | ⟨idDevice, batch, publish, items, -, hitems, hserve⟩
    · rw [hserve]
      exact hsame rfl
    · rw [hserve]
      exact hsame rfl
    · rw [hserve]
      refine ⟨items, rfl, fun item hitem => ?_⟩
      obtain ⟨t, ht, rfl⟩ := mem_syncTransactions hitems hitem
      exact ⟨t, idDevice, batch.valid t ht, rfl⟩
  | abort i =>
    obtain ⟨_, -, rfl⟩ := Option.map_eq_some_iff.mp h
    exact hsame rfl
  | consume i retryAttempt outcome =>
    obtain ⟨item, -, rfl⟩ := Option.map_eq_some_iff.mp h
    exact hsame rfl
  | giveUp i retryAttempt outcome =>
    obtain ⟨item, -, rfl⟩ := Option.map_eq_some_iff.mp h
    exact hsame rfl

/-- Only a step of `/auth` touches the calls under way and the access tokens. -/
theorem Server.next_auth (h : σ.next env a = some τ) :
    (τ.auth.tasks = σ.auth.tasks ∧ τ.auth.accessTokens = σ.auth.accessTokens) ∨
      ∃ b, (∀ op, b ≠ .call op) ∧ AuthState.next env.toAuthEnv σ.auth b = some τ.auth := by
  cases a with
  | session a =>
    obtain rfl | ⟨ha, auth, hauth, rfl⟩ := Server.next_session h
    · exact Or.inl ⟨rfl, rfl⟩
    · exact Or.inr ⟨a, ha, hauth⟩
  | register dto hashed =>
    obtain rfl := Option.some.inj h
    refine Or.inl ?_
    split <;> exact ⟨rfl, rfl⟩
  | pairDevice code hardwareId =>
    obtain rfl := Option.some.inj h
    refine Or.inl ?_
    split <;> exact ⟨rfl, rfl⟩
  | arrive bearer request now =>
    obtain rfl | ⟨payload, user, -, -, -, rfl⟩ := Server.next_arrive h
    · exact Or.inl ⟨rfl, rfl⟩
    · exact Or.inl ⟨rfl, rfl⟩
  | handle i now =>
    obtain ⟨⟨user, request⟩, -, rfl⟩ := Option.map_eq_some_iff.mp h
    refine Or.inl ?_
    show (σ.serve env user request now).auth.tasks = _ ∧
      (σ.serve env user request now).auth.accessTokens = _
    rcases Server.serve_cases env σ user request now with
      ⟨op, -, hserve⟩ | hserve | ⟨_, _, _, _, -, -, hserve⟩
    all_goals
      rw [hserve]
      exact ⟨rfl, rfl⟩
  | abort i =>
    obtain ⟨_, -, rfl⟩ := Option.map_eq_some_iff.mp h
    exact Or.inl ⟨rfl, rfl⟩
  | consume i retryAttempt outcome =>
    obtain ⟨item, -, rfl⟩ := Option.map_eq_some_iff.mp h
    exact Or.inl ⟨rfl, rfl⟩
  | giveUp i retryAttempt outcome =>
    obtain ⟨item, -, rfl⟩ := Option.map_eq_some_iff.mp h
    exact Or.inl ⟨rfl, rfl⟩

/-- What an account holds, it holds after a step. -/
theorem Server.StaffChange.holds {us : Table User} {db : Db} (h : σ.StaffChange env a us)
    (hdb : db.users = us) {p : TokenPayload} (hp : σ.db.Holds p) : db.Holds p := by
  obtain ⟨u, hu, rfl⟩ := hp
  subst hdb
  exact h.payload hu

theorem Server.Genuine.start (env : ServerEnv) (us : Table User) :
    (Server.start us).Genuine env where
  tasks := fun _ h => absurd h List.not_mem_nil
  tokens := fun _ h => absurd h List.not_mem_nil
  pending := fun _ h => absurd h List.not_mem_nil
  published := fun _ h => absurd h List.not_mem_nil

/-- A token that was handed out and is verified belongs to an account. -/
theorem Server.Genuine.verified (hσ : σ.Genuine env) {token : String}
    (htoken : token ∈ σ.auth.accessTokens) {payload : TokenPayload} {now : DateTime}
    (h : env.verify token now = some payload) : σ.db.Holds payload ∧
      ∃ issued, token = env.sign payload issued ∧ unexpired issued now = true := by
  obtain ⟨q, issued, hq, rfl⟩ := hσ.tokens token htoken
  rw [env.verify_sign] at h
  split at h
  · rename_i hunexpired
    obtain rfl := Option.some.inj h
    exact ⟨hq, issued, rfl, hunexpired⟩
  · cases h

/-- **What a step keeps**, as long as no token is forged. -/
theorem Server.Genuine.next (hσ : σ.Genuine env) (hunforged : unforged env σ a)
    (h : σ.next env a = some τ) : τ.Genuine env := by
  have hholds : ∀ p, σ.db.Holds p → τ.db.Holds p :=
    fun _ hp => (Server.next_change h).staff.holds rfl hp
  have hsigns : ∀ token, σ.db.Signs env.toAuthEnv token → τ.db.Signs env.toAuthEnv token := by
    rintro token ⟨p, issued, hp, rfl⟩
    exact ⟨p, issued, hholds p hp, rfl⟩
  have hauth : (∀ task ∈ τ.auth.tasks, τ.db.Signs env.toAuthEnv task.accessToken) ∧
      ∀ token ∈ τ.auth.accessTokens, τ.db.Signs env.toAuthEnv token := by
    rcases Server.next_auth h with ⟨htasks, htokens⟩ | ⟨b, hb, hnext⟩
    · rw [htasks, htokens]
      exact ⟨fun task ht => hsigns _ (hσ.tasks task ht), fun t ht => hsigns t (hσ.tokens t ht)⟩
    · refine AuthState.next_tokens hb hnext ?_ ?_ ?_
      · exact fun u hu issued => hsigns _ ⟨u.payload, issued, ⟨u, hu, rfl⟩, rfl⟩
      · exact fun task ht => hsigns _ (hσ.tasks task ht)
      · exact fun t ht => hsigns t (hσ.tokens t ht)
  refine ⟨hauth.1, hauth.2, fun p hp => ?_, fun item hitem => ?_⟩
  · rcases Server.next_pending h hp with hp | ⟨bearer, now, rfl, hguards, hvalid⟩
    · obtain ⟨hold, hrest⟩ := hσ.pending p hp
      exact ⟨hholds _ hold, hrest⟩
    · -- the token was handed out, so it was signed for an account
      obtain ⟨token, rfl, hverify, hrole, -⟩ := canActivate_eq_ok.mp hguards
      have htoken : token ∈ σ.auth.accessTokens :=
        hunforged token rfl (Option.isSome_iff_exists.mpr ⟨_, hverify⟩)
      exact ⟨hholds _ (hσ.verified htoken hverify).1, hrole, hvalid⟩
  · obtain ⟨items, hpublished, hnew⟩ := Server.next_published h
    rw [hpublished] at hitem
    rcases List.mem_append.mp hitem with hitem | hitem
    · exact hσ.published item hitem
    · obtain ⟨t, idDevice, hvalid, rfl⟩ := hnew item hitem
      exact hvalid

/-- **The tokens of a server are those of its accounts.** -/
theorem ServerReaches.genuine {us : Table User} (h : ServerReaches env us σ) : σ.Genuine env := by
  obtain ⟨_, hrun⟩ := h
  exact hrun.invariant (Server.Genuine env) (.start env us) fun _ _ _ hσ hc hn => hσ.next hc hn

end Tokens

/-! ## Who is let in -/

/-- **Who is let in**: whatever happened since a token was handed out, the guards of a handler let
it in exactly when it has not expired and belongs to an account that is active now and whose role
may use the handler, and then they pass on what the account holds now. -/
theorem let_in_iff {env : ServerEnv} {us : Table User} {σ : Server} (hσ : ServerReaches env us σ)
    {token : String} (htoken : token ∈ σ.auth.accessTokens) {access : Access}
    {payload : TokenPayload} {now : DateTime} :
    Guards.canActivate env.toJwtService σ.db access (some token) now = .ok payload ↔
      ∃ u ∈ σ.db.users.rows, u.payload = payload ∧ u.isActive = true ∧ u.role ∈ access.roles ∧
        ∃ issued, token = env.sign payload issued ∧ unexpired issued now = true := by
  rw [canActivate_eq_ok]
  constructor
  · rintro ⟨_, ⟨⟩, hverify, hrole, u, hu, hid, hactive⟩
    obtain ⟨⟨v, hv, rfl⟩, issued, rfl, hunexpired⟩ := hσ.genuine.verified htoken hverify
    -- the account with the id of the token is the one it was signed for
    obtain rfl : u = v := Table.eq_of_key hu hv (user_id_mem_keys.mpr hid)
      (user_id_mem_keys.mpr rfl)
    exact ⟨u, hu, rfl, hactive, hrole, issued, rfl, hunexpired⟩
  · rintro ⟨u, hu, rfl, hactive, hrole, issued, rfl, hunexpired⟩
    refine ⟨_, rfl, ?_, hrole, u, hu, rfl, hactive⟩
    rw [env.verify_sign, if_pos hunexpired]

/-- The token of an employee, whose account the owner turns off. -/
theorem let_in_iff_turnedOff : ∃ σ : Server,
    (σ.db.users.rows.map (·.isActive)) = [true, false] ∧
      ∀ (access : Access) (payload : TokenPayload) (now : DateTime),
        (Guards.canActivate plainTokens.toJwtService σ.db access (some operatorToken) now
            = .ok payload ↔
          ∃ u ∈ σ.db.users.rows, u.payload = payload ∧ u.isActive = true ∧
            u.role ∈ access.roles ∧ ∃ issued, operatorToken = plainTokens.sign payload issued ∧
              unexpired issued now = true) := by
  have hcheck : (Runs.runs (Server.next plainTokens) (unforgedTest plainTokens)
      (Server.start .empty) (operatorLogin ++ ownerRequest
        (.updateUserStatus (.cuid 3) false))).any (fun σ => decide
          (σ.db.users.rows.map (·.isActive) = [true, false] ∧
            operatorToken ∈ σ.auth.accessTokens)) = true := by
    decide +kernel
  obtain ⟨σ, hσ, hend⟩ := exists_serverReaches hcheck
  obtain ⟨hoff, htoken⟩ := of_decide_eq_true hend
  exact ⟨σ, hoff, fun _ _ _ => let_in_iff hσ htoken⟩

/-! ## What each role can change -/

/-- The tables that the requests of a role may write. -/
def UserRole.tables : UserRole → List TableName
  | .OWNER => [.user, .device, .product, .inventory, .stockHistory, .transaction,
      .detailTransaction, .payment, .transactionCorrection, .reconciliation]
  | .OPERATOR => [.transaction, .reconciliation]
  | .ENTRY => [.product, .inventory, .stockHistory]

/-- The requests that a role may make write its tables. -/
theorem tables_subset {request : Request} {user : JwtPayload} {now : DateTime} {op : Op}
    (hrole : user.role ∈ request.access.roles) (hop : request.op user now = some op) :
    op.tables ⊆ user.role.tables := by
  cases request with
  | createUser | updateUserStatus =>
    obtain rfl := Option.some.inj hop
    exact (by decide : ∀ role ∈ [UserRole.OWNER], [.user] ⊆ role.tables) _ hrole
  | createDevice | removeDevice =>
    obtain rfl := Option.some.inj hop
    exact (by decide : ∀ role ∈ [UserRole.OWNER], [.device] ⊆ role.tables) _ hrole
  | createProduct =>
    obtain rfl := Option.some.inj hop
    exact (by decide : ∀ role ∈ [UserRole.OWNER, .ENTRY], [.product, .inventory] ⊆ role.tables)
      _ hrole
  | updateProduct | removeProduct =>
    obtain rfl := Option.some.inj hop
    exact (by decide : ∀ role ∈ [UserRole.OWNER, .ENTRY], [.product] ⊆ role.tables) _ hrole
  | adjustStock =>
    obtain rfl := Option.some.inj hop
    exact (by decide : ∀ role ∈ [UserRole.OWNER, .ENTRY],
      [.inventory, .stockHistory] ⊆ role.tables) _ hrole
  | syncTransactions idDevice batch publish => cases hop
  | voidTransaction =>
    obtain rfl := Option.some.inj hop
    exact (by decide : ∀ role ∈ [UserRole.OWNER, .OPERATOR], [.transaction] ⊆ role.tables) _ hrole
  | createReconciliation =>
    obtain rfl := Option.some.inj hop
    exact (by decide : ∀ role ∈ [UserRole.OWNER, .OPERATOR], [.reconciliation] ⊆ role.tables)
      _ hrole
  | resolveConflict | correctTransaction | reconcile | resolveReconciliation =>
    obtain rfl := Option.some.inj hop
    -- these are open to the owner alone, and an owner may write all of it
    obtain hrole : user.role = .OWNER := List.mem_singleton.mp hrole
    rw [hrole]
    simp [Op.tables, UserRole.tables]

/-- **The duties of the roles are separated**: when a request that was let in is handled, an
account with the user's id, email and merchant is there, and no other tables change than those
of the role that the account has now. -/
theorem duties_separated {env : ServerEnv} {us : Table User} {σ τ : Server}
    (hσ : ServerReaches env us σ) {i : ℕ} {now : DateTime} {user : JwtPayload} {request : Request}
    (hi : σ.pending[i]? = some (user, request)) (hnext : σ.next env (.handle i now) = some τ) :
    ∃ u ∈ σ.db.users.rows, u.payload = user.payload ∧ σ.db.OnlyIn u.role.tables τ.db := by
  obtain ⟨⟨u, hu, hpayload⟩, hrole, -⟩ := hσ.genuine.pending _ (List.mem_of_getElem? hi)
  refine ⟨u, hu, hpayload, ?_⟩
  rw [show u.role = user.role from congrArg TokenPayload.role hpayload]
  have hnext : σ.pending[i]?.map _ = some τ := hnext
  rw [hi] at hnext
  obtain rfl := Option.some.inj hnext
  show σ.db.OnlyIn _ (σ.serve env user request now).db
  rcases Server.serve_cases env σ user request now with
    ⟨op, hop, hserve⟩ | hserve | ⟨_, _, _, _, -, -, hserve⟩
  · rw [hserve]
    exact (exec_onlyIn σ.db op).mono (tables_subset hrole hop)
  · rw [hserve]
    exact .refl _ _
  · rw [hserve]
    exact .refl _ _

/-- An employee voids a sale. -/
theorem duties_separated_operator : ∃ σ τ : Server, ServerReaches plainTokens .empty σ ∧
    σ.next plainTokens (.handle 0 0) = some τ ∧
    σ.db.transactions.rows.map (·.status) = [.PENDING] ∧
    τ.db.transactions.rows.map (·.status) = [.VOIDED] ∧ ∃ u ∈ σ.db.users.rows,
      u.role = .OPERATOR ∧ σ.db.OnlyIn [.transaction, .reconciliation] τ.db := by
  have hcheck : (Runs.runs (Server.next plainTokens) (unforgedTest plainTokens)
      (Server.start .empty) voidRequest).any (fun σ => decide
        (σ.pending.map (·.1.role) = [.OPERATOR] ∧
          σ.db.transactions.rows.map (·.status) = [.PENDING]) &&
        (σ.next plainTokens (.handle 0 0)).any fun τ => decide
          (τ.db.transactions.rows.map (·.status) = [.VOIDED])) = true := by
    decide +kernel
  obtain ⟨σ, hσ, hend⟩ := exists_serverReaches hcheck
  obtain ⟨hbefore, hafter⟩ := Bool.and_eq_true_iff.mp hend
  obtain ⟨hpending, hstored⟩ := of_decide_eq_true hbefore
  obtain ⟨τ, hnext, hvoided⟩ := (Option.any_eq_true _ _).mp hafter
  obtain ⟨⟨user, request⟩, hpending, hrole⟩ := List.map_eq_singleton_iff.mp hpending
  have hi : σ.pending[0]? = some (user, request) := by rw [hpending]; rfl
  obtain ⟨u, hu, hpayload, honly⟩ := duties_separated hσ hi hnext
  have hoperator : u.role = .OPERATOR := (congrArg TokenPayload.role hpayload).trans hrole
  rw [hoperator] at honly
  exact ⟨σ, τ, hσ, hnext, hstored, of_decide_eq_true hvoided, u, hu, hoperator, honly⟩

end KPos
