import Segue.Decimal.Binary64

/-!
# Shortest decimals

The decimal with the fewest digits that reads back to a given float, and of those the nearest. The
digits are searched on finer and finer decimal grids; on each grid only the two neighbours of the
value can read back.
-/

namespace Segue.Decimal

/-- The least `k` with `m · 2^q < 10^k`, found from an estimate. -/
def Binary.scale (x : Binary) : Int :=
  let estimate := ((x.q + x.m.log2) * 30103) / 100000
  let candidates := [estimate - 1, estimate, estimate + 1, estimate + 2, estimate + 3]
  (candidates.find? fun k => compareScaled 1 k x.m x.q = .gt).getD (estimate + 3)

def Binary.floorDiv (x : Binary) (e : Int) : Nat :=
  (x.m * Nat.pow 2 x.q.toNat * Nat.pow 10 (-e).toNat)
    / (Nat.pow 10 e.toNat * Nat.pow 2 (-x.q).toNat)

/-- Which of two decimals is chosen that are equally near. -/
inductive Tie where
  | upward
  | toEven
  deriving DecidableEq, Repr

/-- The neighbour of the value on the grid `10^e` that reads back; of two the nearer. -/
def Binary.onGrid? (tie : Tie) (x : Binary) (e : Int) : Option Scaled :=
  let below : Scaled := ⟨x.floorDiv e, e⟩
  let above : Scaled := ⟨below.digits + 1, e⟩
  match x.readsBack below, x.readsBack above with
  | true, false => some below
  | false, true => some above
  | false, false => none
  | true, true =>
    match compareScaled (2 * below.digits + 1) e (2 * x.m) x.q with
    | .gt => some below
    | .lt => some above
    | .eq => some (if tie = .toEven && below.digits % 2 = 0 then below else above)

def Binary.exact (x : Binary) : Scaled :=
  if 0 ≤ x.q then ⟨x.m * Nat.pow 2 x.q.toNat, 0⟩
  else ⟨x.m * Nat.pow 5 (-x.q).toNat, x.q⟩

/-- Moves zeros at the end of the digits into the exponent, at most `n` of them. -/
def Scaled.strip : Nat → Scaled → Scaled
  | 0, d => d
  | n + 1, d => if d.digits ≠ 0 ∧ d.digits % 10 = 0 then strip n ⟨d.digits / 10, d.exp + 1⟩ else d

def Binary.shortest (tie : Tie) (x : Binary) : Scaled :=
  let k := x.scale
  let found := (List.range 17).findSome? fun n => x.onGrid? tie (k - ((n + 1 : Nat) : Int))
  (found.getD x.exact).strip 400

def shortest (tie : Tie) (x : Float) : Scaled :=
  let b := Binary.ofBits x.toBits
  if b.m = 0 then ⟨0, 0⟩ else b.shortest tie

/-!
## Written forms of floats

A `Layout` says which numbers are written positionally and how the others show their exponent. The
digits are always the shortest ones; the layout breaks ties between them.
-/

/-- How a float is laid out. `e` stands for the decimal exponent of the leading digit. -/
structure Layout where
  /-- Positional notation for `plainFrom ≤ e`. -/
  plainFrom : Int
  /-- Positional notation for `e < plainBelow`. -/
  plainBelow : Int
  /-- Integral values end in `.0`. -/
  pointZero : Bool
  /-- Exponents that are not negative carry a sign. -/
  signedExponent : Bool
  tie : Tie

def Scaled.leading (d : Scaled) : List Char × Int :=
  let ds := Nat.toDigits 10 d.digits
  (ds, d.exp + ds.length - 1)

def zeros (n : Nat) : List Char := List.replicate n '0'

/-- Digits with the point in the place that the exponent `e` of the first one gives. -/
def positional (ds : List Char) (e : Int) (pointZero : Bool) : List Char :=
  if e < 0 then ['0', '.'] ++ zeros (-e - 1).toNat ++ ds
  else
    let whole := e.toNat + 1
    if whole < ds.length then ds.take whole ++ '.' :: ds.drop whole
    else ds ++ zeros (whole - ds.length) ++ (if pointZero then ['.', '0'] else [])

def scientific (ds : List Char) (e : Int) (signedExponent : Bool) : List Char :=
  let mantissa := match ds with
    | [] => []
    | [c] => [c]
    | c :: cs => c :: '.' :: cs
  let sign := if e < 0 then ['-'] else if signedExponent then ['+'] else []
  mantissa ++ 'e' :: sign ++ Nat.toDigits 10 e.natAbs

def Layout.magnitude (l : Layout) (x : Float) : List Char :=
  let (ds, e) := (shortest l.tie x).leading
  if x == 0.0 || (l.plainFrom ≤ e && e < l.plainBelow) then positional ds e l.pointZero
  else scientific ds e l.signedExponent

/-- The text of a float; `NaN` has no sign, infinity is `inf`. -/
def Layout.render (l : Layout) (x : Float) : String :=
  if x.isNaN then "NaN"
  else
    let sign := if isNegative x then ['-'] else []
    if x.isInf then String.ofList (sign ++ ['i', 'n', 'f'])
    else String.ofList (sign ++ l.magnitude x)

/-- Numbers in messages: never an exponent, no `.0`. -/
def plain : Layout := ⟨-400, 400, false, false, .upward⟩

/-- Numbers in listings: positional from 10^-4 up to 10^16, always recognisable as floats. -/
def data : Layout := ⟨-4, 16, true, false, .upward⟩

/-- Numbers in JSON: positional from 10^-5 up to 10^16, always recognisable as floats. -/
def json : Layout := ⟨-5, 16, true, true, .toEven⟩

end Segue.Decimal
