import Segue.Decimal.Binary64

/-!
# Reading floats

A float is written as an optional sign, digits with an optional point, and an optional exponent;
at least one digit stands before the exponent. `inf`, `infinity` and `nan` are read in any case of
letters. The value is the nearest float.
-/

namespace Segue.Decimal

def digitValue (c : Char) : Nat := c.toNat - '0'.toNat

def ofDigits (cs : List Char) : Nat := cs.foldl (fun n c => 10 * n + digitValue c) 0

/-- The float nearest to `digits · 10^exp`. Exponents beyond every finite value are cut, so that a
long exponent costs nothing. -/
def nearest (digits : Nat) (exp : Int) : Float :=
  if digits = 0 then 0.0
  else
    let size : Int := (Nat.toDigits 10 digits).length
    if 400 < exp + size then 1.0 / 0.0
    else if exp + size < -400 then 0.0
    else Float.ofScientific digits (exp < 0) exp.natAbs

def takeSign : List Char → Bool × List Char
  | '-' :: cs => (true, cs)
  | '+' :: cs => (false, cs)
  | cs => (false, cs)

/-- The value of an exponent's digits, cut where it no longer matters. -/
def exponentValue (cs : List Char) : Int :=
  let significant := cs.dropWhile (· = '0')
  if 8 < significant.length then 99999999 else ofDigits significant

def readExponent? (cs : List Char) : Option Int :=
  let (negative, ds) := takeSign cs
  if ds.isEmpty || !ds.all Char.isDigit then none
  else some (if negative then -exponentValue ds else exponentValue ds)

def readUnsigned? (cs : List Char) : Option Float :=
  let whole := cs.takeWhile Char.isDigit
  let rest := cs.dropWhile Char.isDigit
  let (part, rest) := match rest with
    | '.' :: r => (r.takeWhile Char.isDigit, r.dropWhile Char.isDigit)
    | r => ([], r)
  if whole.isEmpty && part.isEmpty then none
  else
    let value (e : Int) := nearest (ofDigits (whole ++ part)) (e - part.length)
    match rest with
    | [] => some (value 0)
    | c :: r => if c = 'e' || c = 'E' then (readExponent? r).map value else none

def read? (s : String) : Option Float :=
  let (negative, cs) := takeSign s.toList
  let magnitude :=
    match (String.ofList cs).toLower with
    | "inf" | "infinity" => some (1.0 / 0.0)
    | "nan" => some (0.0 / 0.0)
    | _ => readUnsigned? cs
  magnitude.map fun x => if negative then -x else x

/-- Reads an integer without sign, or with a plus sign, up to `bound`. -/
def readCount? (bound : Nat) (s : String) : Option Nat :=
  let cs := match s.toList with
    | '+' :: r => r
    | r => r
  if cs.isEmpty || !cs.all Char.isDigit then none
  else
    let n := ofDigits cs
    if n ≤ bound then some n else none

end Segue.Decimal
