import Segue.Decimal.Binary64
import Segue.Scalar
import Segue.Decimal.Notation

/-!
# Floats as numerals, scaled by powers of ten

Digits that fit a machine word become a float and are then multiplied or divided by a power of ten.
The digits, the power and the result are each rounded, so the last bit may differ from the float
that is nearest to the decimal.
-/

namespace Segue.Decimal

def maxExponent : Nat := 308

def powerOfTen (n : Nat) : Float := Float.ofScientific 1 false n

/-- Divides by `10^n`, in steps of the greatest power while `n` exceeds it. -/
def scaleDown (x : Float) (n : Nat) : Float :=
  if n ≤ maxExponent then x / powerOfTen n
  else if x == 0.0 then x
  else scaleDown (x / powerOfTen maxExponent) (n - maxExponent)
termination_by n
decreasing_by grind [maxExponent]

/-- The magnitude `digits · 10^exp`, if it is finite. -/
def scaled? (digits : Nat) (exp : Int) : Option Float :=
  let x := Float.ofNat digits
  if exp < 0 then some (scaleDown x exp.natAbs)
  else if exp.natAbs ≤ maxExponent then
    let y := x * powerOfTen exp.natAbs
    if y.isFinite then some y else none
  else if digits = 0 then some x
  else none

end Segue.Decimal

namespace Segue

/-!
## Reading and writing

Floats are read by scaling their digits and written with their shortest digits.
-/

instance : Numeral Float where
  ofDecimal? negative digits exp :=
    (Decimal.scaled? digits exp).map fun x => if negative then -x else x
  dataText x := (Decimal.json.render x).toList
  messageText := Decimal.plain.render

end Segue
