/-
# Who is let in (`jwt.strategy.ts`, `roles.guard.ts`, the decorators of the controllers)

A request behind the guards carries an access token.  The strategy looks the user of the token
up again at every request, so an account that was deactivated is shut out at once; the role
and the merchant are those in the token.

* `JwtService` : what signing and verification have to do with each other;
* `Guards.canActivate` : the two guards, one after the other;
* `canActivate_eq_ok` : when a request is let in.
-/
import KPos.Tokens

namespace KPos

/-! ## Access tokens -/

/-- Whether a token that was signed at `issued` is still good: `exp` is 15 minutes after `iat`,
both in whole seconds. -/
def unexpired (issued now : DateTime) : Bool := decide (now / 1000 < issued / 1000 + 900)

/-- Signing and verifying access tokens with the secret of the server: a token that was signed
is verified as what was signed, for 15 minutes. -/
structure JwtService extends AuthEnv where
  verify : String → DateTime → Option TokenPayload
  verify_sign : ∀ payload issued now,
    verify (sign payload issued) now = if unexpired issued now then some payload else none

/-! ## Guards -/

/-- `JwtStrategy.validate`: the account must exist and be active; the rest is taken from the
token. -/
def JwtStrategy.validate (db : Db) (payload : TokenPayload) : Except Err TokenPayload := do
  let _ ← orThrow ((db.users.findUnique (.id payload.sub)).filter (·.isActive))
    (.unauthorized "User is inactive or deleted")
  return payload

/-- `JwtAuthGuard`: the bearer token of the request, verified and validated. -/
def JwtAuthGuard.canActivate (jwt : JwtService) (db : Db) (bearer : Option String)
    (now : DateTime) : Except Err TokenPayload := do
  let token ← orThrow bearer (.unauthorized "Unauthorized")
  let payload ← orThrow (jwt.verify token now) (.unauthorized "Unauthorized")
  JwtStrategy.validate db payload

/-- What the decorators of a handler and of its controller say: the roles that `@Roles` names on
each of them, and whether `RolesGuard` is among the guards. -/
structure Access where
  handlerRoles : Option (List UserRole)
  controllerRoles : Option (List UserRole)
  rolesGuard : Bool

/-- `reflector.getAllAndOverride(ROLES_KEY, [handler, controller])`. -/
def Access.requiredRoles (access : Access) : Option (List UserRole) :=
  access.handlerRoles.or access.controllerRoles

/-- `RolesGuard.canActivate`. -/
def RolesGuard.canActivate (requiredRoles : Option (List UserRole)) (user : TokenPayload) :
    Except Err Unit :=
  match requiredRoles with
  -- without `@Roles` a valid token is enough
  | none | some [] => return
  | some roles =>
      require (decide (user.role ∈ roles))
        (.forbidden "You do not have permission to access this resource")

/-- The second guard of a handler, if it is among its guards. -/
def Access.checkRoles (access : Access) (user : TokenPayload) : Except Err Unit :=
  if access.rolesGuard then RolesGuard.canActivate access.requiredRoles user else return

/-- The guards of a handler. -/
def Guards.canActivate (jwt : JwtService) (db : Db) (access : Access) (bearer : Option String)
    (now : DateTime) : Except Err TokenPayload := do
  let user ← JwtAuthGuard.canActivate jwt db bearer now
  access.checkRoles user
  return user

/-- The roles that a handler is open to. -/
def Access.roles (access : Access) : List UserRole :=
  if access.rolesGuard then
    match access.requiredRoles with
    | none | some [] => [.OWNER, .OPERATOR, .ENTRY]
    | some roles => roles
  else [.OWNER, .OPERATOR, .ENTRY]

section Guards

variable {jwt : JwtService} {db : Db} {access : Access} {bearer : Option String}
  {now : DateTime} {payload user : TokenPayload}

theorem validate_eq_ok : JwtStrategy.validate db payload = .ok user ↔
    user = payload ∧ ∃ u ∈ db.users.rows, u.idUser = payload.sub ∧ u.isActive = true := by
  unfold JwtStrategy.validate
  simp only [bind_eq_ok, orThrow_eq_ok, pure_eq_ok, Option.filter_eq_some_iff,
    Table.findUnique_eq_some, user_id_mem_keys]
  constructor
  · rintro ⟨u, ⟨⟨hu, hid⟩, hactive⟩, rfl⟩
    exact ⟨rfl, u, hu, hid, hactive⟩
  · rintro ⟨rfl, u, hu, hid, hactive⟩
    exact ⟨u, ⟨⟨hu, hid⟩, hactive⟩, rfl⟩

theorem mem_allRoles (role : UserRole) : role ∈ [UserRole.OWNER, .OPERATOR, .ENTRY] := by
  cases role <;> decide

/-- The roles of the table are the roles that the guard lets through. -/
theorem checkRoles_eq_ok {u : Unit} :
    access.checkRoles user = .ok u ↔ user.role ∈ access.roles := by
  unfold Access.checkRoles Access.roles RolesGuard.canActivate
  by_cases hguard : access.rolesGuard = true
  · rw [if_pos hguard, if_pos hguard]
    split
    · exact iff_of_true rfl (mem_allRoles _)
    · exact iff_of_true rfl (mem_allRoles _)
    · rw [require_eq_ok, decide_eq_true_eq]
  · rw [if_neg hguard, if_neg hguard]
    exact iff_of_true rfl (mem_allRoles _)

/-- **When a request is let in.** -/
theorem canActivate_eq_ok : Guards.canActivate jwt db access bearer now = .ok user ↔
    ∃ token, bearer = some token ∧ jwt.verify token now = some user ∧
      user.role ∈ access.roles ∧
      ∃ u ∈ db.users.rows, u.idUser = user.sub ∧ u.isActive = true := by
  unfold Guards.canActivate JwtAuthGuard.canActivate
  simp only [bind_eq_ok, orThrow_eq_ok, pure_eq_ok, validate_eq_ok]
  constructor
  · rintro ⟨p, ⟨token, hbearer, q, hverify, rfl, hactive⟩, _, hroles, rfl⟩
    exact ⟨token, hbearer, hverify, checkRoles_eq_ok.mp hroles, hactive⟩
  · rintro ⟨token, hbearer, hverify, hroles, hactive⟩
    exact ⟨user, ⟨token, hbearer, user, hverify, rfl, hactive⟩, (), checkRoles_eq_ok.mpr hroles,
      rfl⟩

end Guards

end KPos
