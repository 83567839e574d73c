/-
# Exceptions and constrained writes

What a service call can throw, and the writes of the Prisma client as partial functions on
the database: each one converts the values to their columns, then checks the unique
constraints, then the foreign keys, as PostgreSQL does, and throws at the first that fails.

A function `Db → … → Except Err Db` is the body of a database transaction: when it throws,
the database is as before.
-/
import KPos.Schema

namespace KPos

/-! ## Exceptions -/

inductive SyncErrorCode where
  | SYNC_ARITHMETIC_ERROR | SYNC_CONSTRAINT_VIOLATION | SYNC_ITEM_NOT_FOUND
  | SYNC_ALREADY_EXISTS | SYNC_UNKNOWN_ERROR
  deriving DecidableEq, Repr

instance : ToString SyncErrorCode where
  toString
    | .SYNC_ARITHMETIC_ERROR => "SYNC_ARITHMETIC_ERROR"
    | .SYNC_CONSTRAINT_VIOLATION => "SYNC_CONSTRAINT_VIOLATION"
    | .SYNC_ITEM_NOT_FOUND => "SYNC_ITEM_NOT_FOUND"
    | .SYNC_ALREADY_EXISTS => "SYNC_ALREADY_EXISTS"
    | .SYNC_UNKNOWN_ERROR => "SYNC_UNKNOWN_ERROR"

/-- The exceptions of the services and of the Prisma client.  `raised` stands for every
failure of a database or broker call that has no other constructor (outage, timeout,
deadlock). -/
inductive Err where
  | syncConflict (code : SyncErrorCode) (message : String)
  | badRequest (message : String)
  | unauthorized (message : String)
  | forbidden (message : String)
  | notFound (message : String)
  | conflict (message : String)
  | serviceUnavailable (message : String)
  | uniqueConstraint (table : String)
  | foreignKey (constraint : String)
  | recordNotFound (table : String)
  | valueOutOfRange (column : String)
  | invalidArgument (argument : String)
  | raised (message : String)
  deriving DecidableEq, Repr

/-- `error.message`. -/
def Err.message : Err → String
  | .syncConflict _ m | .badRequest m | .unauthorized m | .forbidden m | .notFound m
  | .conflict m | .serviceUnavailable m | .raised m => m
  | .uniqueConstraint t => s!"Unique constraint failed on {t}"
  | .foreignKey c => s!"Foreign key constraint violated on the constraint: {c}"
  | .recordNotFound t => s!"No record was found for an update on {t}"
  | .valueOutOfRange c => s!"Value out of range for the column {c}"
  | .invalidArgument a => s!"Invalid value for argument {a}"

/-- The user of a request, as the access token carries it. -/
structure JwtPayload where
  sub : Ident
  email : String
  role : UserRole
  idMerchant : Ident
  deriving DecidableEq, Repr

/-! ## Throwing -/

/-- Throw `e` unless `b`. -/
def require (b : Bool) (e : Err) : Except Err Unit := if b then .ok () else .error e

/-- The value, or `e` when there is none. -/
def orThrow {α : Type} (o : Option α) (e : Err) : Except Err α :=
  match o with
  | some a => .ok a
  | none => .error e

@[simp] theorem require_eq_ok {b : Bool} {e : Err} {u : Unit} :
    require b e = .ok u ↔ b = true := by
  unfold require
  split <;> simp_all

@[simp] theorem orThrow_eq_ok {α : Type} {o : Option α} {e : Err} {a : α} :
    orThrow o e = .ok a ↔ o = some a := by
  unfold orThrow
  split <;> simp

/-- A computation in two parts succeeds when both do. -/
@[simp] theorem bind_eq_ok {α β : Type} {x : Except Err α} {f : α → Except Err β} {b : β} :
    (x >>= f) = .ok b ↔ ∃ a, x = .ok a ∧ f a = .ok b := by
  cases x with
  | error e =>
      constructor
      · intro h
        cases h
      · rintro ⟨a, h, -⟩
        cases h
  | ok a =>
      constructor
      · intro h
        exact ⟨a, rfl, h⟩
      · rintro ⟨a', h, hf⟩
        cases h
        exact hf

@[simp] theorem pure_eq_ok {α : Type} {a b : α} :
    (pure a : Except Err α) = .ok b ↔ a = b := by
  constructor
  · intro h
    cases h
    rfl
  · rintro rfl
    rfl

/-- What a result holds, if it is one. -/
theorem toOption_eq_some {α : Type} {r : Except Err α} {a : α} (h : r.toOption = some a) :
    r = .ok a := by
  cases r with
  | error e => cases h
  | ok b => rw [Option.some.inj h]

/-- A loop of checks passes when every check does. -/
@[simp] theorem forM_eq_ok {α : Type} {f : α → Except Err Unit} {l : List α} {u : Unit} :
    forM l f = .ok u ↔ ∀ a ∈ l, f a = .ok () := by
  induction l with
  | nil => simp [pure_eq_ok]
  | cons a l ih =>
      rw [List.forM_cons, bind_eq_ok, List.forall_mem_cons, ← ih]
      constructor
      · rintro ⟨⟨⟩, ha, hl⟩
        exact ⟨ha, hl⟩
      · rintro ⟨ha, hl⟩
        exact ⟨(), ha, hl⟩

/-- **The loop rule.**  What one round of a loop over the database keeps, the loop keeps. -/
theorem foldlM_invariant {α : Type} {f : Db → α → Except Err Db} (I : Db → Prop)
    {l : List α} (hf : ∀ db a db', a ∈ l → I db → f db a = .ok db' → I db') {db db' : Db}
    (hI : I db) (h : l.foldlM f db = .ok db') : I db' := by
  induction l generalizing db with
  | nil =>
      obtain rfl : db = db' := by simpa using h
      exact hI
  | cons a l ih =>
      rw [List.foldlM_cons, bind_eq_ok] at h
      obtain ⟨db₁, h₁, h⟩ := h
      exact ih (fun db a db' ha => hf db a db' (List.mem_cons_of_mem _ ha))
        (hf db a db₁ List.mem_cons_self hI h₁) h

/-- What a database transaction leaves: its result, or the database as before. -/
def commit (db : Db) (r : Except Err Db) : Db :=
  match r with
  | .ok db' => db'
  | .error _ => db

/-- How a database call ends for its caller: it is served, it fails with nothing done, or
it is done and the answer is lost. -/
inductive Call where
  | served
  | failed (message : String)
  | lost (message : String)

/-- What a call whose effect is `r` leaves, and what it throws. -/
def Call.run (call : Call) (db : Db) (r : Except Err Db) : Db × Option Err :=
  match call, r with
  | .served, .ok db' => (db', none)
  | .served, .error e => (db, some e)
  | .failed message, _ => (db, some (.raised message))
  | .lost message, r => (commit db r, some (.raised message))

/-- Whether a call has its effect, whatever its caller gets to know. -/
def Call.reaches : Call → Bool
  | .served | .lost _ => true
  | .failed _ => false

/-! ## Column conversions -/

/-- A JavaScript number given to an `Int` argument: its decimals are cut off. -/
def toInt (argument : String) (x : ℚ) : Except Err ℤ := do
  require (fitsInt (truncate x)) (.valueOutOfRange argument)
  return truncate x

/-- A `Date` given to a `DateTime` argument. -/
def toDate (argument : String) (d : DateText) : Except Err DateTime :=
  orThrow d.date (.invalidArgument argument)

@[simp] theorem toInt_eq_ok {a : String} {x : ℚ} {z : ℤ} :
    toInt a x = .ok z ↔ truncate x = z ∧ fitsInt z = true := by
  simp only [toInt, bind_eq_ok, require_eq_ok, pure_eq_ok, exists_const]
  constructor
  · rintro ⟨hfit, rfl⟩
    exact ⟨rfl, hfit⟩
  · rintro ⟨rfl, hfit⟩
    exact ⟨hfit, rfl⟩

@[simp] theorem toDate_eq_ok {a : String} {d : DateText} {t : DateTime} :
    toDate a d = .ok t ↔ d.date = some t := by
  simp [toDate]

end KPos
