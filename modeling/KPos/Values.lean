/-
# Column values: identifiers, dates, enumerations, decimals

The value types of the schema.  An identifier is a text; the texts that `cuid()` generates
are kept apart from all others, since no two of them are equal and every one of them starts
with the letter `c`, so that none is `system_sync`.
-/
import Mathlib.Algebra.Order.Floor.Defs
import Mathlib.Data.Rat.Floor
import Mathlib.Algebra.Order.Ring.Unbundled.Rat
import Mathlib.Tactic.Linarith
import Mathlib.Tactic.NormNum

namespace KPos

/-! ## Identifiers and dates -/

/-- A text used as an identifier: the `n`-th one generated by `@default(cuid())`, or a text
that was not generated (a UUID of a till, a header value, the constant `system_sync`). -/
inductive Ident where
  | cuid (n : ℕ)
  | text (s : String)
  deriving DecidableEq, Repr

instance : ToString Ident where
  toString
    | .cuid n => s!"c{n}"
    | .text s => s

/-- Milliseconds since the epoch. -/
abbrev DateTime := ℕ

/-- A date as the client wrote it, with what `new Date(text)` makes of it (`none` for an
invalid date). -/
structure DateText where
  text : String
  date : Option DateTime
  deriving DecidableEq, Repr

/-! ## Enumerations -/

inductive UserRole where
  | OWNER | OPERATOR | ENTRY
  deriving DecidableEq, Repr

inductive TransactionStatus where
  | PENDING | CONFIRMED | VOIDED | FAILED
  deriving DecidableEq, Repr

instance : ToString TransactionStatus where
  toString
    | .PENDING => "PENDING"
    | .CONFIRMED => "CONFIRMED"
    | .VOIDED => "VOIDED"
    | .FAILED => "FAILED"

inductive PaymentMethod where
  | CASH | STATIC_QRIS | BANK_TRANSFER
  deriving DecidableEq, Repr

inductive PaymentStatus where
  | VERIFIED | FAILED
  deriving DecidableEq, Repr

inductive SyncStatus where
  | PENDING_SYNC | SYNCING | SYNCED | SYNC_FAILED | SYNC_CONFLICT
  deriving DecidableEq, Repr

inductive ReconciliationStatus where
  | OPEN | RESOLVED_VALID | RESOLVED_INVALID
  deriving DecidableEq, Repr

inductive DeviceStatus where
  | UNPAIRED | PAIRED | REVOKED
  deriving DecidableEq, Repr

inductive StockMovementType where
  | SALE | ADJUSTMENT | RETURN | CORRECTION
  deriving DecidableEq, Repr

/-! ## Numbers in columns -/

/-- The values of an `Int` column (PostgreSQL `INTEGER`). -/
def fitsInt (z : ℤ) : Bool := decide (-2147483648 ≤ z ∧ z ≤ 2147483647)

/-- The number without its decimals, as Prisma stores it in an `Int` column. -/
def truncate (x : ℚ) : ℤ := if 0 ≤ x then ⌊x⌋ else -⌊-x⌋

/-- Less than one piece is cut off. -/
theorem abs_sub_truncate_lt (x : ℚ) : |x - truncate x| < 1 := by
  have hlow := Int.floor_le x
  have hhigh := Int.lt_floor_add_one x
  have hlow' := Int.floor_le (-x)
  have hhigh' := Int.lt_floor_add_one (-x)
  unfold truncate
  rw [abs_lt]
  split
  · constructor <;> linarith
  · push_cast
    constructor <;> linarith

/-- The sum with a whole number keeps its sign. -/
theorem add_truncate_nonneg {n : ℤ} {x : ℚ} (h : 0 ≤ n + x) : 0 ≤ n + truncate x := by
  unfold truncate
  split
  · rename_i hx
    have hfloor : -n ≤ ⌊x⌋ := Int.le_floor.mpr (by push_cast; linarith)
    omega
  · have hfloor := Int.floor_le (-x)
    have hle : ((⌊-x⌋ : ℤ) : ℚ) ≤ n := by linarith
    have := Int.cast_le.mp hle
    omega

/-- Rounding to an integer, halves away from zero. -/
def roundHalfAway (x : ℚ) : ℤ :=
  if 0 ≤ x then ⌊x + 1 / 2⌋ else -⌊-x + 1 / 2⌋

/-- The value that a `Decimal(12,2)` column stores for `x`: two decimals, halves away from
zero. -/
def roundCents (x : ℚ) : ℚ := roundHalfAway (x * 100) / 100

/-- The values that a `Decimal(12,2)` column can store, after rounding. -/
def fitsDecimal (x : ℚ) : Bool := decide (|roundCents x| < 10000000000)

/-- Rounding leaves whole numbers alone. -/
theorem roundHalfAway_intCast (z : ℤ) : roundHalfAway (z : ℚ) = z := by
  have hfloor : ∀ w : ℤ, ⌊(w : ℚ) + 1 / 2⌋ = w := by
    intro w
    rw [Int.floor_eq_iff]
    constructor <;> linarith
  unfold roundHalfAway
  split
  · exact hfloor z
  · have := hfloor (-z)
    push_cast at this
    rw [this, neg_neg]

/-- What a `Decimal(12,2)` column stores is stored again as it is. -/
theorem roundCents_roundCents (x : ℚ) : roundCents (roundCents x) = roundCents x := by
  have h : roundCents x * 100 = (roundHalfAway (x * 100) : ℚ) := by
    unfold roundCents
    ring
  show ((roundHalfAway (roundCents x * 100) : ℤ) : ℚ) / 100 = roundCents x
  rw [h, roundHalfAway_intCast]
  rfl

/-- A small whole amount fits into a `Decimal(12,2)` column. -/
theorem fitsDecimal_intCast {z : ℤ} (hlow : 0 ≤ z) (hhigh : z < 10000000000) :
    fitsDecimal (z : ℚ) = true := by
  have hcents : roundCents (z : ℚ) = z := by
    have hcast : (z : ℚ) * 100 = ((z * 100 : ℤ) : ℚ) := by push_cast; rfl
    unfold roundCents
    rw [hcast, roundHalfAway_intCast]
    push_cast
    ring
  have hz : (0 : ℚ) ≤ z := by exact_mod_cast hlow
  unfold fitsDecimal
  rw [decide_eq_true_iff, hcents, abs_of_nonneg hz]
  exact_mod_cast hhigh

example : roundCents (12345 / 1000) = 1235 / 100 := by decide +kernel

end KPos
