import Segue.Decimal.Binary64

/-!
# Scalars

The timing model, the easing formulas and the curve solver use only field arithmetic, comparisons
and rounding to a count. `Scalar` lists these operations, so that one definition runs on `Float`
and can be read on the rational numbers, where nothing is rounded.

`Elementary` adds the functions that have no rational values and are needed by some easings only.
-/

namespace Segue

/-- The greatest count that fits a machine word; larger ones are cut to it. -/
def maxCount : Nat := 0xFFFFFFFFFFFFFFFF

/-- Numbers with arithmetic, decidable comparisons and rounding to a count. -/
class Scalar (α : Type) extends Add α, Sub α, Mul α, Div α, Neg α, LT α, LE α, OfScientific α where
  less : α → α → Bool
  atMost : α → α → Bool
  less_iff : ∀ a b : α, less a b = true ↔ a < b
  atMost_iff : ∀ a b : α, atMost a b = true ↔ a ≤ b
  /-- Equality of values; a value that is no number differs from everything. -/
  same : α → α → Bool
  ofNat : Nat → α
  isNaN : α → Bool
  isFinite : α → Bool
  /-- The integral part as a count: 0 for negative values, at most `maxCount`. -/
  toCount : α → Nat
  /-- The least integer above as a count: 0 for negative values, at most `maxCount`. -/
  ceilCount : α → Nat
  /-- The nearest count, a half rounded up: 0 for negative values, at most `maxCount`. -/
  roundCount : α → Nat
  abs : α → α
  /-- The nearest value of single precision. -/
  single : α → α

instance Scalar.decidableLT {α : Type} [Scalar α] : DecidableLT α := fun a b =>
  decidable_of_iff (Scalar.less a b = true) (Scalar.less_iff a b)

instance Scalar.decidableLE {α : Type} [Scalar α] : DecidableLE α := fun a b =>
  decidable_of_iff (Scalar.atMost a b = true) (Scalar.atMost_iff a b)

/-- Numbers that are written as decimals and read back. -/
class Numeral (α : Type) extends Scalar α where
  /-- The value `digits · 10^exp` as the number type rounds it, unless that is beyond all finite
  values. -/
  ofDecimal? : (negative : Bool) → (digits : Nat) → (exp : Int) → Option α
  dataText : α → List Char
  messageText : α → String

/-- Functions without rational values. -/
class Elementary (α : Type) where
  sqrt : α → α
  sin : α → α
  cos : α → α
  exp2 : α → α
  pi : α

instance : Scalar Float where
  less a b := decide (a < b)
  atMost a b := decide (a ≤ b)
  less_iff _ _ := decide_eq_true_iff
  atMost_iff _ _ := decide_eq_true_iff
  same a b := a == b
  ofNat n := Float.ofNat n
  isNaN := Float.isNaN
  isFinite := Float.isFinite
  toCount x := x.toUInt64.toNat
  ceilCount x :=
    let below := x.toUInt64.toNat
    if Float.ofNat below < x then min (below + 1) maxCount else below
  roundCount x := x.round.toUInt64.toNat
  abs := Float.abs
  single := Decimal.toSingle

instance : Elementary Float where
  sqrt := Float.sqrt
  sin := Float.sin
  cos := Float.cos
  exp2 x := Float.pow 2.0 x
  pi := 3.141592653589793

instance : Scalar Rat where
  less a b := decide (a < b)
  atMost a b := decide (a ≤ b)
  less_iff _ _ := decide_eq_true_iff
  atMost_iff _ _ := decide_eq_true_iff
  same a b := a == b
  ofNat n := n
  isNaN _ := false
  isFinite _ := true
  toCount x := min x.floor.toNat maxCount
  ceilCount x := min x.ceil.toNat maxCount
  roundCount x := min (x + 1 / 2).floor.toNat maxCount
  abs x := if x < 0 then -x else x
  single x := x

namespace Scalar

variable {α : Type} [Scalar α]

/-- The smaller value; a value that is no number gives way to the other. -/
def least (a b : α) : α :=
  if isNaN a then b else if isNaN b then a else if b < a then b else a

/-- The larger value; a value that is no number gives way to the other. -/
def greatest (a b : α) : α :=
  if isNaN a then b else if isNaN b then a else if b < a then a else b

/-- The nearest value between `lo` and `hi`; what is no number stays. -/
def clamp (x lo hi : α) : α :=
  if x < lo then lo else if hi < x then hi else x

def ofInt (n : Int) : α := if n < 0 then -ofNat n.natAbs else ofNat n.natAbs

/-- Finite and above zero. -/
def isPositive (x : α) : Bool := isFinite x && decide ((0.0 : α) < x)

/-- Small powers by repeated squaring: `x³ = x·x²`, `x⁴ = x²·x²`, `x⁵ = x·x⁴`. -/
def power (x : α) : Nat → α
  | 0 => 1.0
  | 1 => x
  | 2 => x * x
  | 3 => x * (x * x)
  | 4 => (x * x) * (x * x)
  | 5 => x * ((x * x) * (x * x))
  | n + 1 => x * power x n

end Scalar

end Segue
