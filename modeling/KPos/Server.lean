/-
# The server (`app.module.ts`, `main.ts`)

The controllers, the guards, the pipe, the services and the consumers of the broker, side by
side.  A request is let in by the guards in one step and handled in a later one, and in between
anything else may happen; logins and refreshes take one query a step.  The broker delivers what
was published in any order, any number of times, with any counter of attempts.

* `Server.next` : the system;
* `Server.Change` : what a step does to the database, and `Server.next_change`;
* `unforged` : no bearer token verifies that the server did not hand out;
* `ServerReaches` : the states of the server.
-/
import KPos.Lib.Codes
import KPos.Requests
import KPos.DeadLetters

namespace KPos

/-! ## The system -/

/-- What the server gets from libraries: access tokens, `isEmail`, and the hashes of hardware ids
and of payloads. -/
structure ServerEnv extends JwtService where
  isEmail : String → Bool
  sha256 : String → String
  payloadHash : PayloadHash

/-- The database with the logins and refreshes under way, the requests that were let in and not
yet handled, and what was published to the broker. -/
structure Server where
  auth : AuthState
  pending : List (JwtPayload × Request)
  published : List QueuedTransaction

abbrev Server.db (σ : Server) : Db := σ.auth.db

/-- A step. -/
inductive ServerAction where
  /-- A step of a login, a refresh or a logout. -/
  | session (a : AuthAction)
  /-- `POST /auth/register` and `POST /devices/pair`, which have no guards. -/
  | register (dto : RegisterDto) (hashedPassword : String)
  | pairDevice (pairingCode hardwareId : String)
  /-- A request comes in with its bearer token. -/
  | arrive (bearer : Option String) (request : Request) (now : DateTime)
  /-- The handler of a request runs, or the process dies before. -/
  | handle (i : ℕ) (now : DateTime)
  | abort (i : ℕ)
  /-- The consumer of the main queue handles an item, or the one of the dead-letter queue gives it
  up. -/
  | consume (i : ℕ) (retryAttempt : Option ℕ) (outcome : ItemOutcome)
  | giveUp (i : ℕ) (retryAttempt : Option ℕ) (outcome : DlqOutcome)

/-- Nobody has asked for anything yet. -/
def Server.start (us : Table User) : Server := ⟨AuthState.start (Db.withUsers us), [], []⟩

/-- The server with another database. -/
def Server.withDb (σ : Server) (db : Db) : Server := { σ with auth := { σ.auth with db := db } }

/-- What the pipe and the controller of `/auth` check before a step; the calls of other services
are no steps of `/auth`. -/
def AuthAction.accepted (isEmail : String → Bool) : AuthAction → Bool
  | .login dto _ => dto.valid isEmail
  -- the cookie must be there
  | .refresh refreshToken _ | .logout refreshToken => decide (refreshToken ≠ "")
  | .advance .. | .drop .. => true
  | .call .. => false

/-- The user that the handlers get.  A user without a merchant has no `id_merchant`. -/
def TokenPayload.jwtPayload (p : TokenPayload) : Option JwtPayload :=
  p.idMerchant.map fun idMerchant => ⟨p.sub, p.email, p.role, idMerchant⟩

/-- A request is let in, when the guards and the pipe say so.  Requests of users without a
merchant are left out. -/
def Server.arrive (env : ServerEnv) (σ : Server) (bearer : Option String) (request : Request)
    (now : DateTime) : Option Server :=
  match Guards.canActivate env.toJwtService σ.db request.access bearer now with
  | .error _ => some σ
  | .ok payload => payload.jwtPayload.map fun user =>
      if request.valid env.isEmail then { σ with pending := σ.pending ++ [(user, request)] } else σ

/-- The handler of a request runs. -/
def Server.serve (env : ServerEnv) (σ : Server) (user : JwtPayload) (request : Request)
    (now : DateTime) : Server :=
  match request with
  | .syncTransactions idDevice batch publish =>
      match Sync.syncTransactions env.payloadHash σ.db idDevice batch .served with
      -- a batch whose confirmation is lost is in the queue all the same
      | .ok items => if publish.reaches then { σ with published := σ.published ++ items } else σ
      | .error _ => σ
  | request =>
      match request.op user now with
      | some op => σ.withDb (exec σ.db op)
      | none => σ

/-- The server after a step. -/
def Server.next (env : ServerEnv) (σ : Server) : ServerAction → Option Server
  | .session a =>
      if a.accepted env.isEmail then
        (AuthState.next env.toAuthEnv σ.auth a).map fun auth => { σ with auth := auth }
      else some σ
  | .register dto hashedPassword =>
      some (if dto.valid env.isEmail then σ.withDb (exec σ.db (.register dto hashedPassword))
        else σ)
  | .pairDevice pairingCode hardwareId =>
      some (if isLength 6 (some 6) pairingCode && decide (hardwareId ≠ "") then
        σ.withDb (exec σ.db (.pairDevice pairingCode (env.sha256 hardwareId))) else σ)
  | .arrive bearer request now => σ.arrive env bearer request now
  | .handle i now => σ.pending[i]?.map fun p =>
      let τ := σ.serve env p.1 p.2 now
      { τ with pending := τ.pending.eraseIdx i }
  | .abort i => σ.pending[i]?.map fun _ => { σ with pending := σ.pending.eraseIdx i }
  | .consume i retryAttempt outcome => σ.published[i]?.map fun item =>
      σ.withDb (handleItem σ.db { item with retryAttempt := retryAttempt } outcome)
  | .giveUp i retryAttempt outcome => σ.published[i]?.map fun item =>
      σ.withDb (recordTerminalFailure σ.db { item with retryAttempt := retryAttempt } outcome)

/-! ## Access tokens -/

/-- The access tokens that were handed out. -/
def AuthState.accessTokens (σ : AuthState) : List String :=
  σ.logins.map (·.2.accessToken) ++ σ.refreshes.map (·.2.accessToken)

/-- Access tokens are not forged: a bearer token that verifies was handed out. -/
def unforged (env : ServerEnv) (σ : Server) : ServerAction → Prop
  | .arrive bearer _ now =>
      ∀ token ∈ bearer, (env.verify token now).isSome → token ∈ σ.auth.accessTokens
  | _ => True

/-- The states of a server whose database began with the users `us` and nothing else. -/
def ServerReaches (env : ServerEnv) (us : Table User) (σ : Server) : Prop :=
  ∃ as, Runs.Run (Server.next env) (unforged env) (Server.start us) as σ

/-! ## What a step does to the database -/

/-- Only refresh tokens were written. -/
structure TokenWrite (db db' : Db) : Prop where
  frame : db' = { db with refreshTokens := db'.refreshTokens, seq := db'.seq }
  seq : db.seq ≤ db'.seq

/-- **What a step does to the database.** -/
inductive Server.Change (env : ServerEnv) (σ : Server) : ServerAction → Db → Prop
  /-- Nothing, or something about refresh tokens. -/
  | tokens {a : ServerAction} {db' : Db} (write : TokenWrite σ.db db') : Change env σ a db'
  /-- A merchant registers. -/
  | registered {dto : RegisterDto} {hashedPassword : String} :
      Change env σ (.register dto hashedPassword) (exec σ.db (.register dto hashedPassword))
  /-- A till is paired. -/
  | paired {pairingCode hardwareId : String} : Change env σ (.pairDevice pairingCode hardwareId)
      (exec σ.db (.pairDevice pairingCode (env.sha256 hardwareId)))
  /-- A request that was let in calls its service. -/
  | served {i : ℕ} {now : DateTime} (user : JwtPayload) (request : Request) (op : Op)
      (pending : σ.pending[i]? = some (user, request)) (call : request.op user now = some op) :
      Change env σ (.handle i now) (exec σ.db op)
  /-- An item that was published is handled. -/
  | consumed {i : ℕ} {retryAttempt : Option ℕ} {outcome : ItemOutcome} (item : QueuedTransaction)
      (published : σ.published[i]? = some item) :
      Change env σ (.consume i retryAttempt outcome)
        (exec σ.db (.sync { item with retryAttempt := retryAttempt } outcome))
  /-- An item that was published is given up. -/
  | givenUp {i : ℕ} {retryAttempt : Option ℕ} {outcome : DlqOutcome} (item : QueuedTransaction)
      (published : σ.published[i]? = some item) :
      Change env σ (.giveUp i retryAttempt outcome)
        (recordTerminalFailure σ.db { item with retryAttempt := retryAttempt } outcome)

section Steps

variable {env : ServerEnv} {σ τ : Server} {db db' : Db}

theorem TokenWrite.refl (db : Db) : TokenWrite db db := ⟨rfl, Nat.le_refl _⟩

theorem TokenWrite.create {row : RefreshToken} (h : db.createRefreshToken row = .ok db') :
    TokenWrite db db' := by
  obtain ⟨-, ts, -, rfl⟩ := createRefreshToken_eq_ok.mp h
  exact ⟨rfl, Nat.le_succ _⟩

theorem TokenWrite.delete {i : Ident} (h : db.deleteRefreshToken i = .ok db') :
    TokenWrite db db' := by
  obtain ⟨-, rfl⟩ := deleteRefreshToken_eq_ok.mp h
  exact ⟨rfl, Nat.le_refl _⟩

/-- A query of a login or a refresh writes refresh tokens. -/
theorem AuthState.advance_tokenWrite {env : AuthEnv} (σ : AuthState) (i : ℕ) (now : DateTime)
    (task : AuthTask) : TokenWrite σ.db (σ.advance env i now task).db := by
  cases task with
  | login user accessToken =>
    cases hcreate : σ.db.createRefreshToken (newRefreshToken env σ.db σ.drawn user now) with
    | error e =>
      simp only [AuthState.advance, hcreate]
      exact .refl _
    | ok db =>
      simp only [AuthState.advance, hcreate]
      exact .create hcreate
  | delete refreshToken t accessToken =>
    cases hdelete : σ.db.deleteRefreshToken t.row.id with
    | error e =>
      simp only [AuthState.advance, hdelete]
      exact .refl _
    | ok db =>
      simp only [AuthState.advance, hdelete]
      exact .delete hdelete
  | rotate refreshToken t accessToken =>
    cases hcreate : σ.db.createRefreshToken (newRefreshToken env σ.db σ.drawn t.user now) with
    | error e =>
      simp only [AuthState.advance, hcreate]
      exact .refl _
    | ok db =>
      simp only [AuthState.advance, hcreate]
      exact .create hcreate

/-- A login or a refresh that comes in looks up and is under way, or it is refused. -/
theorem AuthState.next_login {env : AuthEnv} {σ τ : AuthState} {dto : LoginDto} {now : DateTime}
    (h : σ.next env (.login dto now) = some τ) :
    τ = σ ∨ ∃ user, Auth.loginRead env σ.db dto = .ok user ∧
      τ = { σ with tasks := σ.tasks ++ [.login user (env.sign user.payload now)] } := by
  unfold AuthState.next at h
  cases hread : Auth.loginRead env σ.db dto with
  | error e =>
    simp only [hread, Option.some.injEq] at h
    exact Or.inl h.symm
  | ok user =>
    simp only [hread, Option.some.injEq] at h
    exact Or.inr ⟨user, rfl, h.symm⟩

theorem AuthState.next_refresh {env : AuthEnv} {σ τ : AuthState} {refreshToken : String}
    {now : DateTime} (h : σ.next env (.refresh refreshToken now) = some τ) :
    τ = σ ∨ ∃ t, Auth.refreshRead σ.db refreshToken now = .ok t ∧
      τ = { σ with
        tasks := σ.tasks ++ [.delete refreshToken t (env.sign t.user.payload now)] } := by
  unfold AuthState.next at h
  cases hread : Auth.refreshRead σ.db refreshToken now with
  | error e =>
    simp only [hread, Option.some.injEq] at h
    exact Or.inl h.symm
  | ok t =>
    simp only [hread, Option.some.injEq] at h
    exact Or.inr ⟨t, rfl, h.symm⟩

/-- A step of a login, a refresh or a logout writes refresh tokens. -/
theorem AuthState.next_tokenWrite {env : AuthEnv} {σ τ : AuthState} {a : AuthAction}
    (ha : ∀ op, a ≠ .call op) (h : σ.next env a = some τ) : TokenWrite σ.db τ.db := by
  cases a with
  | login dto now =>
    obtain rfl | ⟨user, -, rfl⟩ := AuthState.next_login h
    · exact .refl _
    · exact .refl _
  | refresh refreshToken now =>
    obtain rfl | ⟨t, -, rfl⟩ := AuthState.next_refresh h
    · exact .refl _
    · exact .refl _
  | logout refreshToken =>
    obtain rfl := Option.some.inj h
    exact ⟨rfl, Nat.le_refl _⟩
  | advance i now =>
    obtain ⟨task, -, rfl⟩ := Option.map_eq_some_iff.mp h
    exact σ.advance_tokenWrite i now task
  | drop i =>
    obtain ⟨task, -, rfl⟩ := Option.map_eq_some_iff.mp h
    exact .refl _
  | call op => exact absurd rfl (ha op)

/-- A step of `/auth` is a step of the logins and refreshes, or it is refused. -/
theorem Server.next_session {a : AuthAction} (h : σ.next env (.session a) = some τ) :
    τ = σ ∨ (∀ op, a ≠ .call op) ∧ ∃ auth, AuthState.next env.toAuthEnv σ.auth a = some auth ∧
      τ = { σ with auth := auth } := by
  unfold Server.next at h
  dsimp only at h
  split at h
  · rename_i haccepted
    obtain ⟨auth, hauth, rfl⟩ := Option.map_eq_some_iff.mp h
    refine Or.inr ⟨?_, auth, hauth, rfl⟩
    rintro op rfl
    cases haccepted
  · exact Or.inl (Option.some.inj h).symm

/-- A request that comes in is let in, or refused. -/
theorem Server.next_arrive {bearer : Option String} {request : Request} {now : DateTime}
    (h : σ.next env (.arrive bearer request now) = some τ) :
    τ = σ ∨ ∃ payload user,
      Guards.canActivate env.toJwtService σ.db request.access bearer now = .ok payload ∧
        payload.jwtPayload = some user ∧ request.valid env.isEmail = true ∧
        τ = { σ with pending := σ.pending ++ [(user, request)] } := by
  change σ.arrive env bearer request now = some τ at h
  unfold Server.arrive at h
  split at h
  · exact Or.inl (Option.some.inj h).symm
  · rename_i payload hguards
    obtain ⟨user, huser, rfl⟩ := Option.map_eq_some_iff.mp h
    split
    · rename_i hvalid
      exact Or.inr ⟨payload, user, hguards, huser, hvalid, rfl⟩
    · exact Or.inl rfl

/-- What the handler of a request does. -/
theorem Server.serve_cases (env : ServerEnv) (σ : Server) (user : JwtPayload) (request : Request)
    (now : DateTime) :
    (∃ op, request.op user now = some op ∧ σ.serve env user request now = σ.withDb (exec σ.db op)) ∨
      (σ.serve env user request now = σ ∨ ∃ idDevice batch publish items,
        request = .syncTransactions idDevice batch publish ∧
          Sync.syncTransactions env.payloadHash σ.db idDevice batch .served = .ok items ∧
          σ.serve env user request now = { σ with published := σ.published ++ items }) := by
  cases request with
  | syncTransactions idDevice batch publish =>
    refine Or.inr ?_
    unfold Server.serve
    dsimp only
    split
    · rename_i items hitems
      split
      · exact Or.inr ⟨idDevice, batch, publish, items, rfl, hitems, rfl⟩
      · exact Or.inl rfl
    · exact Or.inl rfl
  | _ => exact Or.inl ⟨_, rfl, rfl⟩

/-- **What a step does to the database** is one of the things listed. -/
theorem Server.next_change {a : ServerAction} (h : σ.next env a = some τ) :
    σ.Change env a τ.db := by
  cases a with
  | session a =>
    obtain rfl | ⟨ha, auth, hauth, rfl⟩ := Server.next_session h
    · exact .tokens (.refl _)
    · exact .tokens (AuthState.next_tokenWrite ha hauth)
  | register dto hashedPassword =>
    obtain rfl := Option.some.inj h
    split
    · exact .registered
    · exact .tokens (.refl _)
  | pairDevice pairingCode hardwareId =>
    obtain rfl := Option.some.inj h
    split
    · exact .paired
    · exact .tokens (.refl _)
  | arrive bearer request now =>
    obtain rfl | ⟨payload, user, -, -, -, rfl⟩ := Server.next_arrive h
    · exact .tokens (.refl _)
    · exact .tokens (.refl _)
  | handle i now =>
    obtain ⟨⟨user, request⟩, hi, rfl⟩ := Option.map_eq_some_iff.mp h
    rcases Server.serve_cases env σ user request now with
      ⟨op, hop, hserve⟩ | hserve | ⟨_, _, _, _, -, -, hserve⟩
    · have hdb : (σ.serve env user request now).db = exec σ.db op := by rw [hserve]; rfl
      show σ.Change env _ (σ.serve env user request now).db
      rw [hdb]
      exact .served user request op hi hop
    · refine .tokens ?_
      show TokenWrite σ.db (σ.serve env user request now).db
      rw [hserve]
      exact .refl _
    · refine .tokens ?_
      show TokenWrite σ.db (σ.serve env user request now).db
      rw [hserve]
      exact .refl _
  | abort i =>
    obtain ⟨_, -, rfl⟩ := Option.map_eq_some_iff.mp h
    exact .tokens (.refl _)
  | consume i retryAttempt outcome =>
    obtain ⟨item, hi, rfl⟩ := Option.map_eq_some_iff.mp h
    exact .consumed item hi
  | giveUp i retryAttempt outcome =>
    obtain ⟨item, hi, rfl⟩ := Option.map_eq_some_iff.mp h
    exact .givenUp item hi

end Steps

/-! ## A small server -/

section Example

open Codes

/-- An id: the number of a generated one, or a text. -/
def identCode : Code Ident :=
  (Code.pair (Code.option Code.nat) Code.text).via
    (fun | .cuid n => (some n, "") | .text s => (none, s))
    (fun | (some n, _) => .cuid n | (none, s) => .text s)
    (fun i => by cases i <;> rfl)

def roleCode : Code UserRole :=
  Code.nat.via (fun | .OWNER => 0 | .OPERATOR => 1 | .ENTRY => 2)
    (fun | 0 => .OWNER | 1 => .OPERATOR | _ => .ENTRY)
    (fun role => by cases role <;> rfl)

/-- What an access token is signed for, and when. -/
def signedCode : Code (TokenPayload × DateTime) :=
  (Code.pair
    (Code.pair (Code.pair identCode Code.text) (Code.pair roleCode (Code.option identCode)))
    Code.nat).via
    (fun p => (((p.1.sub, p.1.email), (p.1.role, p.1.idMerchant)), p.2))
    (fun p => (⟨p.1.1.1, p.1.1.2, p.1.2.1, p.1.2.2⟩, p.2))
    (fun _ => rfl)

/-- Tokens that say in plain characters for whom and when they were signed. -/
def plainTokens : ServerEnv where
  compare password hashed := decide (hashed = "hashed " ++ password)
  sign payload issued := signedCode.encode (payload, issued)
  randomBytes n := String.ofList (List.replicate (n + 1) 'f')
  inSevenDays now := now + 604800000
  verify token now := ((signedCode.decode token).filter fun p => unexpired p.2 now).map (·.1)
  verify_sign := by
    intro payload issued now
    rw [Code.decode_encode, Option.filter_some]
    split <;> rfl
  isEmail email := decide ('@' ∈ email.toList)
  sha256 hardwareId := "sha256 of " ++ hardwareId
  payloadHash _ _ := ""

/-- `unforged`, as a test. -/
def unforgedTest (env : ServerEnv) (σ : Server) : ServerAction → Bool
  | .arrive bearer _ now => bearer.all fun token =>
      !(env.verify token now).isSome || decide (token ∈ σ.auth.accessTokens)
  | _ => true

theorem unforged_of_test {env : ServerEnv} {σ : Server} {a : ServerAction}
    (h : unforgedTest env σ a = true) : unforged env σ a := by
  cases a with
  | arrive bearer request now =>
    intro token htoken hverify
    obtain rfl := Option.mem_def.mp htoken
    have h : (!(env.verify token now).isSome || decide (token ∈ σ.auth.accessTokens)) = true := h
    rw [hverify] at h
    exact of_decide_eq_true h
  | _ => trivial

/-- A test of what a server comes to is a state of the server that passes the test. -/
theorem exists_serverReaches {env : ServerEnv} {us : Table User} {as : List ServerAction}
    {P : Server → Bool}
    (h : (Runs.runs (Server.next env) (unforgedTest env) (Server.start us) as).any P = true) :
    ∃ σ, ServerReaches env us σ ∧ P σ = true := by
  obtain ⟨σ, hrun, hσ⟩ := Runs.exists_run_of_runs h
  exact ⟨σ, ⟨as, hrun.weaken fun _ _ => unforged_of_test⟩, hσ⟩

/-- The payload of the owner of the first merchant that registers. -/
def firstOwner : TokenPayload := ⟨.cuid 1, "owner@shop", .OWNER, some (.cuid 0)⟩

/-- The token of the owner. -/
def ownerToken : String := plainTokens.sign firstOwner 0

/-- A merchant registers, and the owner logs in. -/
def firstLogin : List ServerAction :=
  [.register ⟨"Owner", "owner@shop", "password", "Shop"⟩ "hashed password",
    .session (.login ⟨"owner@shop", "password"⟩ 0), .session (.advance 0 0)]

/-- A request of the owner comes in and is handled. -/
def ownerRequest (request : Request) : List ServerAction :=
  [.arrive (some ownerToken) request 0, .handle 0 0]

/-- An employee of the shop, and what the employee's tokens are for. -/
def operatorDto : CreateUserDto := ⟨"Operator", "operator@shop", "password", .OPERATOR⟩

def firstOperator : TokenPayload := ⟨.cuid 3, "operator@shop", .OPERATOR, some (.cuid 0)⟩

/-- The token of the employee. -/
def operatorToken : String := plainTokens.sign firstOperator 0

/-- The owner creates the employee's account, and the employee logs in. -/
def operatorLogin : List ServerAction :=
  firstLogin ++ ownerRequest (.createUser operatorDto "hashed password") ++
    [.session (.login ⟨"operator@shop", "password"⟩ 0), .session (.advance 0 0)]

/-- A sale that asks for more than there is. -/
def conflictSale : List ServerAction :=
  firstLogin ++ ownerRequest (.createProduct ⟨"Tea", some "TEA", 2, none⟩ .noFile) ++
    ownerRequest (.createDevice "Till" "123456") ++
    ownerRequest (.syncTransactions (.cuid 5) oneSale .served) ++ [.consume 0 none (.served 1)]

/-- An employee who comes later asks to void the sale. -/
def voidRequest : List ServerAction :=
  conflictSale ++ ownerRequest (.createUser operatorDto "hashed password") ++
    [.session (.login ⟨"operator@shop", "password"⟩ 0), .session (.advance 0 0),
      .arrive (some (plainTokens.sign ⟨.cuid 8, "operator@shop", .OPERATOR, some (.cuid 0)⟩ 0))
        (.voidTransaction (.cuid 6) "mistake") 0]

end Example

end KPos
