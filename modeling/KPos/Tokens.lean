/-
# Refresh tokens (`auth.service.ts`)

`login` stores a refresh token, `refresh` exchanges one for a new one, and `logout` deletes
one.  `refresh` is a lookup, a deletion by id and a creation, without a transaction around
them; any number of calls take their steps in any order, and other services write meanwhile.

* `AuthEnv` : what the calls get from `bcrypt`, the JWT service, `crypto` and the calendar;
* `AuthState.next` : the system of calls, one query a step;
* `AuthState.Safe` : the invariant, in which every stored token, and every one taken out and
  not yet exchanged, is paid for by a login and by a random value;
* `refresh_tokens_single_use` : a token is exchanged once, and a user has no more tokens than
  logins.
-/
import KPos.Lib.Weights
import KPos.References
import Mathlib.Data.Set.Function

namespace KPos

/-! ## The service -/

structure LoginDto where
  email : String
  password : String

/-- The payload of an access token. -/
structure TokenPayload where
  sub : Ident
  email : String
  role : UserRole
  idMerchant : Option Ident
  deriving DecidableEq

/-- What comes from outside: `bcrypt.compare`, `jwtService.sign` at a time with 15 minutes to
live, the hexadecimal digits of `crypto.randomBytes(40)` at each draw, and the date seven days
later in the server's time zone. -/
structure AuthEnv where
  compare : String → String → Bool
  sign : TokenPayload → DateTime → String
  randomBytes : ℕ → String
  inSevenDays : DateTime → DateTime

/-- The payload for a user. -/
def User.payload (u : User) : TokenPayload := ⟨u.idUser, u.email, u.role, u.idMerchant⟩

/-- The columns of the user that `login` answers with. -/
structure LoginUser where
  idUser : Ident
  fullName : String
  email : String
  role : UserRole
  idMerchant : Option Ident
  isActive : Bool

/-- The answer of `login`. -/
structure LoginAnswer where
  accessToken : String
  refreshToken : String
  user : LoginUser

/-- The answer of `refresh`. -/
structure RefreshAnswer where
  accessToken : String
  refreshToken : String

/-- A refresh token with its user, as `include` reads them. -/
structure FoundRefreshToken where
  row : RefreshToken
  user : User

/-- `refreshToken.findUnique` by `token`, with the user. -/
def Db.findRefreshToken (db : Db) (token : String) : Option FoundRefreshToken := do
  let row ← db.refreshTokens.findUnique (.token token)
  let user ← db.users.findUnique (.id row.idUser)
  return ⟨row, user⟩

/-- The lookup and the tests of `AuthService.login`. -/
def Auth.loginRead (env : AuthEnv) (db : Db) (dto : LoginDto) : Except Err User := do
  let user ← orThrow ((db.users.findUnique (.email dto.email)).filter (·.isActive))
    (.unauthorized "Invalid credentials")
  require (env.compare dto.password user.password) (.unauthorized "Invalid credentials")
  return user

/-- The lookup and the tests of `AuthService.refresh`. -/
def Auth.refreshRead (db : Db) (refreshToken : String) (now : DateTime) :
    Except Err FoundRefreshToken := do
  let tokenRecord ← orThrow
    ((db.findRefreshToken refreshToken).filter fun t => !decide (t.row.expiresAt < now))
    (.unauthorized "Invalid or expired refresh token")
  require tokenRecord.user.isActive (.unauthorized "User is not active")
  return tokenRecord

/-- The row that `login` and `refresh` create, with the `n`-th random value. -/
def newRefreshToken (env : AuthEnv) (db : Db) (n : ℕ) (user : User) (now : DateTime) :
    RefreshToken where
  id := db.newId
  idUser := user.idUser
  token := env.randomBytes n
  expiresAt := env.inSevenDays now

/-- `AuthService.logout`. -/
def Auth.logout (db : Db) (refreshToken : String) : Db := db.deleteManyRefreshTokens refreshToken

/-! ## The system -/

/-- What a call is about to do: create the token of a login, delete the token that was looked
up, or create its successor. -/
inductive AuthTask where
  | login (user : User) (accessToken : String)
  | delete (refreshToken : String) (tokenRecord : FoundRefreshToken) (accessToken : String)
  | rotate (refreshToken : String) (tokenRecord : FoundRefreshToken) (accessToken : String)

/-- The database, how many random values were drawn, the calls under way, and the answers: the
users who logged in, and the tokens that were exchanged. -/
structure AuthState where
  db : Db
  drawn : ℕ
  tasks : List AuthTask
  logins : List (User × LoginAnswer)
  refreshes : List (String × RefreshAnswer)

/-- A step: a call comes in and looks up, the `i`-th call under way makes its next query, it
ends without an answer (the query failed, or the process died), or another service is
called. -/
inductive AuthAction where
  | login (dto : LoginDto) (now : DateTime)
  | refresh (refreshToken : String) (now : DateTime)
  | logout (refreshToken : String)
  | advance (i : ℕ) (now : DateTime)
  | drop (i : ℕ)
  | call (op : Op)

/-- Nobody has logged in yet. -/
def AuthState.start (db : Db) : AuthState := ⟨db, 0, [], [], []⟩

/-- The next query of the `i`-th call, which is about to do `task`. -/
def AuthState.advance (env : AuthEnv) (σ : AuthState) (i : ℕ) (now : DateTime) :
    AuthTask → AuthState
  | .login user accessToken =>
      let token := newRefreshToken env σ.db σ.drawn user now
      let rest := { σ with drawn := σ.drawn + 1, tasks := σ.tasks.eraseIdx i }
      match σ.db.createRefreshToken token with
      | .ok db =>
          let answer : LoginAnswer := ⟨accessToken, token.token,
            ⟨user.idUser, user.fullName, user.email, user.role, user.idMerchant, user.isActive⟩⟩
          { rest with db := db, logins := σ.logins ++ [(user, answer)] }
      | .error _ => rest
  | .delete refreshToken tokenRecord accessToken =>
      match σ.db.deleteRefreshToken tokenRecord.row.id with
      | .ok db =>
          { σ with
            db := db
            tasks := σ.tasks.set i (.rotate refreshToken tokenRecord accessToken) }
      -- the row is gone, so the call throws
      | .error _ => { σ with tasks := σ.tasks.eraseIdx i }
  | .rotate refreshToken tokenRecord accessToken =>
      let token := newRefreshToken env σ.db σ.drawn tokenRecord.user now
      let rest := { σ with drawn := σ.drawn + 1, tasks := σ.tasks.eraseIdx i }
      match σ.db.createRefreshToken token with
      | .ok db =>
          { rest with
            db := db
            refreshes := σ.refreshes ++ [(refreshToken, ⟨accessToken, token.token⟩)] }
      | .error _ => rest

/-- The system after a step. -/
def AuthState.next (env : AuthEnv) (σ : AuthState) : AuthAction → Option AuthState
  | .login dto now =>
      match Auth.loginRead env σ.db dto with
      | .ok user => some { σ with tasks := σ.tasks ++ [.login user (env.sign user.payload now)] }
      | .error _ => some σ
  | .refresh refreshToken now =>
      match Auth.refreshRead σ.db refreshToken now with
      | .ok t => some
          { σ with tasks := σ.tasks ++ [.delete refreshToken t (env.sign t.user.payload now)] }
      | .error _ => some σ
  | .logout refreshToken => some { σ with db := Auth.logout σ.db refreshToken }
  | .advance i now => σ.tasks[i]?.map (σ.advance env i now)
  | .drop i => σ.tasks[i]?.map fun _ => { σ with tasks := σ.tasks.eraseIdx i }
  | .call op => some { σ with db := exec σ.db op }

/-! ## Who writes refresh tokens -/

/-- The writes of the other services leave the refresh tokens alone. -/
theorem Write.refreshTokens {db db' : Db} (h : Write db db') :
    db'.refreshTokens = db.refreshTokens := by
  cases h with
  | createMerchant h =>
    obtain ⟨ms, -, rfl⟩ := createMerchant_eq_ok.mp h
    rfl
  | createUser h =>
    obtain ⟨-, us, -, rfl⟩ := createUser_eq_ok.mp h
    rfl
  | updateUser h =>
    obtain ⟨-, rfl⟩ := updateUser_eq_ok.mp h
    rfl
  | createDevice h =>
    obtain ⟨-, -, ds, -, rfl⟩ := createDevice_eq_ok.mp h
    rfl
  | updateDevice h =>
    obtain ⟨-, ds, -, rfl⟩ := updateDevice_eq_ok.mp h
    rfl
  | createProduct h =>
    obtain ⟨-, -, -, ps, is, -, -, -, rfl⟩ := createProductWithInventory_eq_ok.mp h
    rfl
  | updateProduct h =>
    obtain ⟨p, ps, -, -, -, rfl⟩ := updateProduct_eq_ok.mp h
    rfl
  | incrementStock h =>
    obtain ⟨-, -, rfl⟩ := incrementStock_eq_ok.mp h
    rfl
  | createStockHistory h =>
    obtain ⟨-, -, -, -, -, rfl⟩ := createStockHistory_eq_ok.mp h
    rfl
  | createTransaction h =>
    obtain ⟨-, -, -, -, -, -, ts, -, rfl⟩ := createTransaction_eq_ok.mp h
    rfl
  | updateTransaction h =>
    obtain ⟨-, -, rfl⟩ := updateTransaction_eq_ok.mp h
    rfl
  | createManyDetails h =>
    obtain ⟨-, rfl⟩ := createManyDetails_eq_ok.mp h
    rfl
  | createPayment h =>
    obtain ⟨-, -, -, -, -, -, ps, -, rfl⟩ := createPayment_eq_ok.mp h
    rfl
  | updatePayment h =>
    obtain ⟨-, rfl⟩ := updatePayment_eq_ok.mp h
    rfl
  | createCorrection h =>
    obtain ⟨-, -, -, cs, -, rfl⟩ := createCorrection_eq_ok.mp h
    rfl
  | createSyncQueue h =>
    obtain ⟨-, -, qs, -, rfl⟩ := createSyncQueue_eq_ok.mp h
    rfl
  | createReconciliation h =>
    obtain ⟨-, -, rs, -, rfl⟩ := createReconciliation_eq_ok.mp h
    rfl
  | updateReconciliation h =>
    obtain ⟨-, -, rfl⟩ := updateReconciliation_eq_ok.mp h
    rfl

/-- **No other service writes refresh tokens.** -/
theorem exec_refreshTokens (db : Db) (op : Op) :
    (exec db op).refreshTokens = db.refreshTokens :=
  (exec_wrote db op).invariant (fun d => d.refreshTokens = db.refreshTokens) rfl
    fun _ _ hd hw => hw.refreshTokens.trans hd

/-- The other services leave a database without refresh tokens. -/
theorem Reachable.refreshTokens {us : Table User} {db : Db} (h : Reachable us db) :
    db.refreshTokens = .empty :=
  h.invariant_total (fun db => db.refreshTokens = .empty) rfl
    fun db₁ op hdb => (exec_refreshTokens db₁ op).trans hdb

/-! ## The rows and the calls under way -/

section Rows

variable {db db' : Db} {t : FoundRefreshToken} {refreshToken : String}

/-- Every refresh token of `db'` was there in `db`, or has the next identifier. -/
structure TokensFrom (db db' : Db) : Prop where
  seq : db.seq ≤ db'.seq
  rows : ∀ r ∈ db'.refreshTokens.rows, r ∈ db.refreshTokens.rows ∨
    (r.id = db.newId ∧ db.seq < db'.seq)

/-- What a call has read of a refresh token: its value, its user, and that no other row has or
will have its id. -/
structure FoundRefreshToken.Lasting (t : FoundRefreshToken) (db : Db) (refreshToken : String) :
    Prop where
  value : t.row.token = refreshToken
  user : t.user.idUser = t.row.idUser
  old : db.Old t.row.id
  only : ∀ r ∈ db.refreshTokens.rows, r.id = t.row.id → r = t.row

/-- What a call under way has read lasts. -/
def AuthTask.AsRead (db : Db) : AuthTask → Prop
  | .login _ _ => True
  | .delete refreshToken t _ => t.Lasting db refreshToken
  | .rotate refreshToken t _ => t.Lasting db refreshToken

theorem refreshToken_id_mem_keys {r : RefreshToken} {i : Ident} :
    RefreshTokenKey.id i ∈ UniqueKeys.keys r ↔ r.id = i := by
  simp [UniqueKeys.keys, eq_comm]

theorem TokensFrom.of_eq (hseq : db.seq ≤ db'.seq)
    (h : db'.refreshTokens = db.refreshTokens) : TokensFrom db db' where
  seq := hseq
  rows := fun _ hr => Or.inl (h ▸ hr)

theorem TokensFrom.create {row : RefreshToken} (hid : row.id = db.newId)
    (h : db.createRefreshToken row = .ok db') : TokensFrom db db' := by
  obtain ⟨-, ts, hts, rfl⟩ := createRefreshToken_eq_ok.mp h
  refine ⟨Nat.le_succ _, fun r hr => ?_⟩
  rcases (Table.mem_insert hts).mp hr with hr | rfl
  · exact Or.inl hr
  · exact Or.inr ⟨hid, Nat.lt_succ_self _⟩

theorem TokensFrom.delete (k : RefreshTokenKey) :
    TokensFrom db { db with refreshTokens := db.refreshTokens.delete k } where
  seq := Nat.le_refl _
  rows := fun _ hr => Or.inl (Table.mem_delete.mp hr).1

theorem FoundRefreshToken.Lasting.mono (ht : t.Lasting db refreshToken)
    (h : TokensFrom db db') : t.Lasting db' refreshToken where
  value := ht.value
  user := ht.user
  old := ht.old.mono h.seq
  only := by
    intro r hr hid
    rcases h.rows r hr with hr | ⟨hnew, -⟩
    · exact ht.only r hr hid
    · -- the next identifier was not given out before
      have hold := ht.old
      rw [← hid, hnew] at hold
      exact absurd hold (not_old_newId db)

theorem AuthTask.AsRead.mono {task : AuthTask} (ht : task.AsRead db) (h : TokensFrom db db') :
    task.AsRead db' := by
  cases task with
  | login user accessToken => trivial
  | delete refreshToken t accessToken => exact FoundRefreshToken.Lasting.mono ht h
  | rotate refreshToken t accessToken => exact FoundRefreshToken.Lasting.mono ht h

/-- What `refresh` finds lasts. -/
theorem refreshRead_lasting (hdb : ∀ r ∈ db.refreshTokens.rows, db.Old r.id) {now : DateTime}
    (h : Auth.refreshRead db refreshToken now = .ok t) : t.Lasting db refreshToken := by
  obtain ⟨t', hfound, h⟩ := bind_eq_ok.mp h
  obtain ⟨_, -, h⟩ := bind_eq_ok.mp h
  obtain rfl := pure_eq_ok.mp h
  obtain ⟨hfound, -⟩ := Option.filter_eq_some_iff.mp (orThrow_eq_ok.mp hfound)
  obtain ⟨row, hrow, hrest⟩ := Option.bind_eq_some_iff.mp hfound
  obtain ⟨user, huser, hrest⟩ := Option.bind_eq_some_iff.mp hrest
  obtain rfl := Option.some.inj hrest
  obtain ⟨hmem, hkey⟩ := Table.findUnique_eq_some.mp hrow
  refine ⟨?_, user_id_mem_keys.mp (Table.findUnique_eq_some.mp huser).2, hdb _ hmem, ?_⟩
  · simpa [UniqueKeys.keys, eq_comm] using hkey
  · intro r hr hid
    exact Table.eq_of_key hr hmem (refreshToken_id_mem_keys.mpr hid)
      (refreshToken_id_mem_keys.mpr rfl)

end Rows

/-! ## What is stored or taken out -/

/-- The token of a user. -/
def ofUser (u : Ident) (r : RefreshToken) : Bool := decide (r.idUser = u)

/-- The token with a value. -/
def ofValue (v : String) (r : RefreshToken) : Bool := decide (r.token = v)

/-- Whether a call has taken a token of the kind `p` out and not yet created its successor. -/
def AuthTask.taken (p : RefreshToken → Bool) : AuthTask → ℕ
  | .rotate _ t _ => if p t.row then 1 else 0
  | _ => 0

/-- The tokens of the kind `p` that are stored, or taken out. -/
def AuthState.held (σ : AuthState) (p : RefreshToken → Bool) : ℕ :=
  σ.db.refreshTokens.rows.countP p + weight (AuthTask.taken p) σ.tasks

/-- The successful logins of a user. -/
def AuthState.loginsOf (σ : AuthState) (u : Ident) : ℕ :=
  σ.logins.countP fun l => decide (l.1.idUser = u)

/-- The calls that exchanged the token with a value. -/
def AuthState.exchanged (σ : AuthState) (v : String) : ℕ :=
  σ.refreshes.countP fun r => decide (r.1 = v)

/-- How often a random value was drawn. -/
def AuthState.drawnAs (env : AuthEnv) (σ : AuthState) (v : String) : ℕ :=
  (List.range σ.drawn).countP fun n => decide (env.randomBytes n = v)

/-- Generated ids are old, what was read lasts, and the tokens are paid for: those of a user by
logins, those with a value, exchanged ones included, by draws of the value. -/
structure AuthState.Safe (env : AuthEnv) (σ : AuthState) : Prop where
  rows : ∀ r ∈ σ.db.refreshTokens.rows, σ.db.Old r.id
  tasks : ∀ task ∈ σ.tasks, task.AsRead σ.db
  users : ∀ u, σ.held (ofUser u) ≤ σ.loginsOf u
  values : ∀ v, σ.exchanged v + σ.held (ofValue v) ≤ σ.drawnAs env v

section Safety

open Weights

variable {env : AuthEnv} {σ τ : AuthState}

theorem AuthState.safe_start {db : Db} (h : db.refreshTokens = .empty) :
    (AuthState.start db).Safe env := by
  have hheld : ∀ p, (AuthState.start db).held p = 0 := by
    intro p
    show db.refreshTokens.rows.countP p + 0 = 0
    rw [h]
    rfl
  refine ⟨fun r hr => ?_, fun task htask => absurd htask List.not_mem_nil, fun u => ?_, fun v => ?_⟩
  · change r ∈ db.refreshTokens.rows at hr
    rw [h] at hr
    exact absurd hr List.not_mem_nil
  · rw [hheld]
    exact Nat.zero_le _
  · rw [hheld]
    exact Nat.zero_le _

/-- What a step does that pays for what it adds. -/
theorem AuthState.Safe.step (h : σ.Safe env) (hdb : TokensFrom σ.db τ.db)
    (htasks : ∀ task ∈ τ.tasks, task.AsRead σ.db)
    (husers : ∀ u, τ.held (ofUser u) + σ.loginsOf u ≤ σ.held (ofUser u) + τ.loginsOf u)
    (hvalues : ∀ v, τ.exchanged v + τ.held (ofValue v) + σ.drawnAs env v
      ≤ σ.exchanged v + σ.held (ofValue v) + τ.drawnAs env v) : τ.Safe env where
  rows := by
    intro r hr
    rcases hdb.rows r hr with hr | ⟨hid, hseq⟩
    · exact (h.rows r hr).mono hdb.seq
    · rw [hid]
      exact old_newId hseq
  tasks := fun task htask => (htasks task htask).mono hdb
  users := by
    intro u
    have hbefore := h.users u
    have hstep := husers u
    omega
  values := by
    intro v
    have hbefore := h.values v
    have hstep := hvalues v
    omega

theorem AuthState.drawnAs_succ (env : AuthEnv) (n : ℕ) (v : String) :
    ((List.range (n + 1)).countP fun k => decide (env.randomBytes k = v))
      = ((List.range n).countP fun k => decide (env.randomBytes k = v))
        + if env.randomBytes n = v then 1 else 0 := by
  rw [List.range_succ, List.countP_append, List.countP_singleton]
  simp only [decide_eq_true_eq]

/-- A call that comes in. -/
theorem AuthState.Safe.enter (h : σ.Safe env) {task : AuthTask} (htask : task.AsRead σ.db)
    (hnone : ∀ p, task.taken p = 0) : AuthState.Safe env { σ with tasks := σ.tasks ++ [task] } := by
  have hheld : ∀ p, AuthState.held { σ with tasks := σ.tasks ++ [task] } p = σ.held p := by
    intro p
    unfold AuthState.held
    rw [weight_append, weight_cons, weight_nil, hnone]
    rfl
  refine h.step (.of_eq (Nat.le_refl _) rfl) (fun t ht => ?_) (fun u => ?_) (fun v => ?_)
  · rcases List.mem_append.mp ht with ht | ht
    · exact h.tasks t ht
    · rw [List.mem_singleton.mp ht]
      exact htask
  · rw [hheld]
    exact Nat.le_refl _
  · rw [hheld]
    exact Nat.le_refl _

/-- A call that ends without an answer, perhaps after it has drawn a value. -/
theorem AuthState.Safe.leave (h : σ.Safe env) {i n : ℕ} {task : AuthTask}
    (hi : σ.tasks[i]? = some task) (hn : σ.drawn ≤ n) :
    AuthState.Safe env { σ with drawn := n, tasks := σ.tasks.eraseIdx i } := by
  have hheld : ∀ p, AuthState.held { σ with drawn := n, tasks := σ.tasks.eraseIdx i } p
      ≤ σ.held p := by
    intro p
    unfold AuthState.held
    have herase := weight_eraseIdx (AuthTask.taken p) hi
    show σ.db.refreshTokens.rows.countP p + weight _ (σ.tasks.eraseIdx i) ≤ _
    omega
  refine h.step (.of_eq (Nat.le_refl _) rfl)
    (fun t ht => h.tasks t (List.mem_of_mem_eraseIdx ht)) (fun u => ?_) (fun v => ?_)
  · exact Nat.add_le_add_right (hheld _) _
  · have hdrawn : σ.drawnAs env v
        ≤ AuthState.drawnAs env { σ with drawn := n, tasks := σ.tasks.eraseIdx i } v :=
      (List.range_sublist.mpr hn).countP_le
    have hv := hheld (ofValue v)
    show σ.exchanged v + _ + _ ≤ _
    omega

/-- Tokens are deleted. -/
theorem AuthState.Safe.shrink (h : σ.Safe env) (k : RefreshTokenKey) :
    AuthState.Safe env
      { σ with db := { σ.db with refreshTokens := σ.db.refreshTokens.delete k } } := by
  have hheld : ∀ p, AuthState.held
      { σ with db := { σ.db with refreshTokens := σ.db.refreshTokens.delete k } } p ≤ σ.held p :=
    fun p => Nat.add_le_add_right (Table.countP_delete_le p) _
  refine h.step (.delete k) h.tasks (fun u => ?_) (fun v => ?_)
  · exact Nat.add_le_add_right (hheld _) _
  · exact Nat.add_le_add_right (Nat.add_le_add_left (hheld _) _) _

/-- Another service is called. -/
theorem AuthState.Safe.call (h : σ.Safe env) (op : Op) :
    AuthState.Safe env { σ with db := exec σ.db op } := by
  have hrows := exec_refreshTokens σ.db op
  have hheld : ∀ p, AuthState.held { σ with db := exec σ.db op } p = σ.held p := by
    intro p
    unfold AuthState.held
    rw [hrows]
  refine h.step (.of_eq (exec_grows σ.db op).seq hrows) h.tasks (fun u => ?_) (fun v => ?_)
  · rw [hheld]
    exact Nat.le_refl _
  · rw [hheld]
    exact Nat.le_refl _

/-- A token is created: the call that creates it has taken another one of the user out, or logs
the user in. -/
theorem AuthState.Safe.create (h : σ.Safe env) {i : ℕ} {task : AuthTask} {user : User}
    {now : DateTime} (hi : σ.tasks[i]? = some task)
    (hcreate : σ.db.createRefreshToken (newRefreshToken env σ.db σ.drawn user now) = .ok τ.db)
    (hdrawn : τ.drawn = σ.drawn + 1) (htasks : τ.tasks = σ.tasks.eraseIdx i)
    (husers : ∀ u, (if user.idUser = u then 1 else 0) + σ.loginsOf u
      ≤ task.taken (ofUser u) + τ.loginsOf u)
    (hvalues : ∀ v, τ.exchanged v ≤ σ.exchanged v + task.taken (ofValue v)) : τ.Safe env := by
  have hheld : ∀ p, τ.held p + task.taken p = σ.held p
      + if p (newRefreshToken env σ.db σ.drawn user now) then 1 else 0 := by
    intro p
    obtain ⟨-, ts, hts, hdb⟩ := createRefreshToken_eq_ok.mp hcreate
    have herase := weight_eraseIdx (AuthTask.taken p) hi
    unfold AuthState.held
    rw [htasks, hdb]
    show ts.rows.countP p + _ + _ = _
    rw [(Table.insert_eq_some.mp hts).2, List.countP_append, List.countP_singleton]
    omega
  refine h.step (.create rfl hcreate) (fun t ht => ?_) (fun u => ?_) (fun v => ?_)
  · rw [htasks] at ht
    exact h.tasks t (List.mem_of_mem_eraseIdx ht)
  · have hu := hheld (ofUser u)
    have hpaid := husers u
    have hrow : ofUser u (newRefreshToken env σ.db σ.drawn user now)
        = decide (user.idUser = u) := rfl
    simp only [hrow, decide_eq_true_eq] at hu
    omega
  · have hv := hheld (ofValue v)
    have hpaid := hvalues v
    have hdraw : τ.drawnAs env v
        = σ.drawnAs env v + if env.randomBytes σ.drawn = v then 1 else 0 := by
      unfold AuthState.drawnAs
      rw [hdrawn]
      exact AuthState.drawnAs_succ env σ.drawn v
    have hrow : ofValue v (newRefreshToken env σ.db σ.drawn user now)
        = decide (env.randomBytes σ.drawn = v) := rfl
    simp only [hrow, decide_eq_true_eq] at hv
    omega

/-- A login makes its query. -/
theorem AuthState.Safe.login (h : σ.Safe env) {i : ℕ} {now : DateTime} {user : User}
    {accessToken : String} (hi : σ.tasks[i]? = some (.login user accessToken)) :
    (σ.advance env i now (.login user accessToken)).Safe env := by
  cases hcreate : σ.db.createRefreshToken (newRefreshToken env σ.db σ.drawn user now) with
  | error e =>
    simp only [AuthState.advance, hcreate]
    exact h.leave hi (Nat.le_succ _)
  | ok db =>
    simp only [AuthState.advance, hcreate]
    refine h.create hi hcreate rfl rfl (fun u => ?_) (fun v => Nat.le_refl _)
    simp only [AuthState.loginsOf, AuthTask.taken, List.countP_append, List.countP_singleton,
      decide_eq_true_eq]
    omega

/-- A refresh creates the successor of the token that it has taken out. -/
theorem AuthState.Safe.rotate (h : σ.Safe env) {i : ℕ} {now : DateTime} {refreshToken : String}
    {t : FoundRefreshToken} {accessToken : String}
    (hi : σ.tasks[i]? = some (.rotate refreshToken t accessToken)) :
    (σ.advance env i now (.rotate refreshToken t accessToken)).Safe env := by
  cases hcreate : σ.db.createRefreshToken (newRefreshToken env σ.db σ.drawn t.user now) with
  | error e =>
    simp only [AuthState.advance, hcreate]
    exact h.leave hi (Nat.le_succ _)
  | ok db =>
    have hread : t.Lasting σ.db refreshToken := h.tasks _ (List.mem_of_getElem? hi)
    simp only [AuthState.advance, hcreate]
    refine h.create hi hcreate rfl rfl (fun u => ?_) (fun v => ?_)
    · -- the successor is of the same user
      simp only [AuthTask.taken, ofUser, decide_eq_true_eq, hread.user]
      exact Nat.le_refl _
    · simp only [AuthState.exchanged, AuthTask.taken, ofValue, List.countP_append,
        List.countP_singleton, decide_eq_true_eq, hread.value]
      exact Nat.le_refl _

/-- A refresh deletes the token that it has looked up, or finds it gone. -/
theorem AuthState.Safe.delete (h : σ.Safe env) {i : ℕ} {now : DateTime} {refreshToken : String}
    {t : FoundRefreshToken} {accessToken : String}
    (hi : σ.tasks[i]? = some (.delete refreshToken t accessToken)) :
    (σ.advance env i now (.delete refreshToken t accessToken)).Safe env := by
  cases hdelete : σ.db.deleteRefreshToken t.row.id with
  | error e =>
    simp only [AuthState.advance, hdelete]
    exact h.leave hi (Nat.le_refl _)
  | ok db =>
    have hread : t.Lasting σ.db refreshToken := h.tasks _ (List.mem_of_getElem? hi)
    obtain ⟨hhas, rfl⟩ := deleteRefreshToken_eq_ok.mp hdelete
    -- the row that has the id is the one that was looked up
    obtain ⟨r, hr, hkey⟩ := Table.has_iff.mp hhas
    obtain rfl : r = t.row := hread.only r hr (refreshToken_id_mem_keys.mp hkey)
    simp only [AuthState.advance, hdelete]
    have hheld : ∀ p, (σ.db.refreshTokens.delete (.id t.row.id)).rows.countP p
        + weight (AuthTask.taken p) (σ.tasks.set i (.rotate refreshToken t accessToken))
        = σ.held p := by
      intro p
      have hset := weight_set (AuthTask.taken p) (b := .rotate refreshToken t accessToken) hi
      have hgone := Table.countP_delete p hr hkey
      simp only [AuthTask.taken] at hset
      unfold AuthState.held
      omega
    refine h.step (.delete _) (fun s hs => ?_) (fun u => ?_) (fun v => ?_)
    · rcases List.mem_or_eq_of_mem_set hs with hs | rfl
      · exact h.tasks s hs
      · exact hread
    · exact Nat.le_of_eq (congrArg (· + σ.loginsOf u) (hheld (ofUser u)))
    · exact Nat.le_of_eq
        (congrArg (fun n => σ.exchanged v + n + σ.drawnAs env v) (hheld (ofValue v)))

/-- **What a step keeps.** -/
theorem AuthState.Safe.next (h : σ.Safe env) {a : AuthAction} (hstep : σ.next env a = some τ) :
    τ.Safe env := by
  cases a with
  | login dto now =>
    unfold AuthState.next at hstep
    cases hread : Auth.loginRead env σ.db dto with
    | error e =>
      simp only [hread, Option.some.injEq] at hstep
      exact hstep ▸ h
    | ok user =>
      simp only [hread, Option.some.injEq] at hstep
      subst hstep
      exact h.enter trivial fun _ => rfl
  | refresh refreshToken now =>
    unfold AuthState.next at hstep
    cases hread : Auth.refreshRead σ.db refreshToken now with
    | error e =>
      simp only [hread, Option.some.injEq] at hstep
      exact hstep ▸ h
    | ok t =>
      simp only [hread, Option.some.injEq] at hstep
      subst hstep
      exact h.enter (refreshRead_lasting h.rows hread) fun _ => rfl
  | logout refreshToken =>
    obtain rfl := Option.some.inj hstep
    exact h.shrink (.token refreshToken)
  | advance i now =>
    obtain ⟨task, hi, rfl⟩ := Option.map_eq_some_iff.mp hstep
    cases task with
    | login user accessToken => exact h.login hi
    | delete refreshToken t accessToken => exact h.delete hi
    | rotate refreshToken t accessToken => exact h.rotate hi
  | drop i =>
    obtain ⟨task, hi, rfl⟩ := Option.map_eq_some_iff.mp hstep
    exact h.leave hi (Nat.le_refl _)
  | call op =>
    obtain rfl := Option.some.inj hstep
    exact h.call op

/-- A value is drawn at most once when the values drawn differ. -/
theorem AuthState.drawnAs_le_one (h : Set.InjOn env.randomBytes (Set.Iio σ.drawn)) (v : String) :
    σ.drawnAs env v ≤ 1 := by
  unfold AuthState.drawnAs
  generalize σ.drawn = n at h
  induction n with
  | zero => exact Nat.zero_le 1
  | succ n ih =>
    rw [AuthState.drawnAs_succ]
    by_cases hn : env.randomBytes n = v
    · -- the last draw is `v`, so the ones before it are not
      have hnone : ((List.range n).countP fun k => decide (env.randomBytes k = v)) = 0 := by
        rw [List.countP_eq_zero]
        intro k hk hkv
        have hlt : k < n := List.mem_range.mp hk
        have heq := h (Set.mem_Iio.mpr (Nat.lt_succ_of_lt hlt)) (Set.mem_Iio.mpr n.lt_succ_self)
          ((of_decide_eq_true hkv).trans hn.symm)
        omega
      rw [hnone, if_pos hn]
    · rw [if_neg hn]
      exact ih (h.mono fun k hk => Nat.lt_succ_of_lt hk)

end Safety

/-- **Refresh tokens are used once and do not multiply**: in every reachable state, if no random
value was drawn twice, each value was exchanged for new tokens by at most one call; and the
tokens stored for a user are no more than the user's successful logins. -/
theorem refresh_tokens_single_use {env : AuthEnv} {us : Table User} {db : Db}
    {as : List AuthAction} {σ : AuthState} (hdb : Reachable us db)
    (hrun : Runs.Run (AuthState.next env) Runs.anyStep (AuthState.start db) as σ)
    (hrandom : Set.InjOn env.randomBytes (Set.Iio σ.drawn)) :
    (∀ v, σ.exchanged v ≤ 1) ∧
      ∀ u, (σ.db.refreshTokens.rows.countP fun r => decide (r.idUser = u)) ≤ σ.loginsOf u := by
  have hsafe : σ.Safe env := hrun.invariant (AuthState.Safe env)
    (AuthState.safe_start hdb.refreshTokens) fun _ _ _ hσ _ hstep => hσ.next hstep
  refine ⟨fun v => ?_, fun u => ?_⟩
  · have hpaid := hsafe.values v
    have honce := AuthState.drawnAs_le_one hrandom v
    omega
  · exact Nat.le_trans (Nat.le_add_right _ _) (hsafe.users u)

/-- Random values that are longer and longer. -/
def longerValues : AuthEnv where
  compare password hashed := decide (password = "secret" ∧ hashed = "hash")
  sign payload _ := payload.email
  randomBytes n := String.ofList (List.replicate (n + 1) 'f')
  inSevenDays now := now + 604800000

theorem longerValues_injective : Function.Injective longerValues.randomBytes := by
  intro m n h
  have hlist : List.replicate (m + 1) 'f' = List.replicate (n + 1) 'f' := String.ofList_injective h
  have hlen := congrArg List.length hlist
  rw [List.length_replicate, List.length_replicate] at hlen
  omega

/-- The owner logs in, and two calls present the token; both look it up before the first one
deletes it. -/
def presentedTwice : List AuthAction :=
  [.login ⟨"owner@shop", "secret"⟩ 1, .advance 0 1, .refresh "f" 2, .refresh "f" 2,
    .advance 0 3, .advance 1 3, .advance 0 4]

/-- One of the two calls is answered. -/
theorem refresh_tokens_single_use_presentedTwice : ∃ σ : AuthState,
    σ.exchanged "f" = 1 ∧ σ.tasks = [] ∧ (∀ v, σ.exchanged v ≤ 1) ∧
      ∀ u, (σ.db.refreshTokens.rows.countP fun r => decide (r.idUser = u)) ≤ σ.loginsOf u := by
  have hcheck : (Runs.runs (AuthState.next longerValues) (fun _ _ => true)
      (AuthState.start shop) presentedTwice).any (fun σ => decide
        (σ.exchanged "f" = 1) && σ.tasks.isEmpty) = true := by
    decide +kernel
  obtain ⟨σ, hrun, hend⟩ := Runs.exists_run_of_runs hcheck
  obtain ⟨honce, hnone⟩ := Bool.and_eq_true_iff.mp hend
  exact ⟨σ, of_decide_eq_true honce, List.isEmpty_iff.mp hnone,
    refresh_tokens_single_use (reachable_shopWith systemUsers)
      (hrun.weaken fun _ _ _ => trivial) longerValues_injective.injOn⟩

end KPos
