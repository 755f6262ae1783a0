/-!
# Binary64 values

A finite float is `m · 2^q`. The reals that round to it form an interval between the midpoints to
its neighbours; `readsBack` tests a decimal against that interval by exact arithmetic.
-/

namespace Segue.Decimal

/-- A finite non-negative value `m · 2^q`. -/
structure Binary where
  m : Nat
  q : Int
  /-- The neighbour below is half as far away as the one above. -/
  narrowBelow : Bool
  deriving Repr

/-- The magnitude of finite bits; the sign bit is not looked at. -/
def Binary.ofBits (b : UInt64) : Binary :=
  let e := ((b >>> 52) &&& 0x7FF).toNat
  let f := (b &&& 0xFFFFFFFFFFFFF).toNat
  if e = 0 then ⟨f, -1074, false⟩ else ⟨0x10000000000000 + f, (e : Int) - 1075, f = 0 && 1 < e⟩

/-- The number `digits · 10^exp`. -/
structure Scaled where
  digits : Nat
  exp : Int
  deriving Repr, DecidableEq

/-- Compares `a · 10^i` with `n · 2^j`, exactly. -/
def compareScaled (a : Nat) (i : Int) (n : Nat) (j : Int) : Ordering :=
  compare (a * Nat.pow 10 i.toNat * Nat.pow 2 (-j).toNat)
    (n * Nat.pow 2 j.toNat * Nat.pow 10 (-i).toNat)

/-- The decimal lies among the reals that round to the value, to nearest with ties to even. -/
def Binary.readsBack (x : Binary) (d : Scaled) : Bool :=
  let below := if x.narrowBelow then 4 * x.m - 1 else 4 * x.m - 2
  let low := compareScaled d.digits d.exp below (x.q - 2)
  let high := compareScaled d.digits d.exp (4 * x.m + 2) (x.q - 2)
  let closed := x.m % 2 = 0
  (low = .gt || (closed && low = .eq)) && (high = .lt || (closed && high = .eq))

/-- The nearest integer, a half upwards. -/
def Binary.nearest (x : Binary) : Nat :=
  if 0 ≤ x.q then x.m * Nat.pow 2 x.q.toNat
  else
    let unit := Nat.pow 2 (-x.q).toNat
    (2 * x.m + unit) / (2 * unit)

def isNegative (x : Float) : Bool := x.toBits >>> 63 = 1

/-- The nearest integer of 32 bits, a half away from zero; 0 for what is no number. -/
def nearestInt32 (x : Float) : Int32 :=
  if x.isNaN then 0
  else
    let n := if x.isInf then 0x80000000 else (Binary.ofBits x.toBits).nearest
    Int32.ofInt (if isNegative x then -(min n 0x80000000 : Nat) else (min n 0x7FFFFFFF : Nat))

/-- The nearest binary32 value as bits, ties to even; every value that is no number gets one form.
-/
def singleBits (x : Float) : UInt32 :=
  let b := x.toBits
  let sign : UInt32 := if isNegative x then 0x80000000 else 0
  if x.isNaN then 0x7FC00000
  else if x.isInf then sign ||| 0x7F800000
  else
    let v := Binary.ofBits b
    if v.m = 0 then sign
    else
      -- the unit in the last place is 2^u, never below that of the subnormals
      let top : Int := v.q + v.m.log2
      let u := max (top - 23) (-149)
      let unit := Nat.pow 2 (u - v.q).toNat
      let low := v.m % unit
      let n := v.m / unit
      let n :=
        if u ≤ v.q then v.m * Nat.pow 2 (v.q - u).toNat
        else if 2 * low < unit then n
        else if unit < 2 * low then n + 1
        else n + n % 2
      -- a carry out of the mantissa moves on into the exponent by itself
      let bits := if n < 0x800000 then n else ((u + 149).toNat * 0x800000) + n
      sign ||| (min bits 0x7F800000).toUInt32

def ofSingleBits (b : UInt32) : Float :=
  let e := ((b >>> 23) &&& 0xFF).toNat
  let f := (b &&& 0x7FFFFF).toNat
  let magnitude :=
    if e = 255 then if f = 0 then 1.0 / 0.0 else 0.0 / 0.0
    else if e = 0 then Float.scaleB f.toFloat (-149)
    else Float.scaleB (0x800000 + f).toFloat ((e : Int) - 150)
  if b >>> 31 = 1 then -magnitude else magnitude

def toSingle (x : Float) : Float := ofSingleBits (singleBits x)

end Segue.Decimal
