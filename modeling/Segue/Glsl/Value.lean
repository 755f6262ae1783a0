import Segue.Glsl.Ty

/-!
# Constant values

Values that are known before a program runs: numbers, vectors of one number, and what is composed
of parts.
-/

namespace Segue.Glsl

/-- A number or truth value. Whole numbers are of 32 bits. -/
inductive Literal where
  | bool (value : Bool)
  | int (value : Int)
  | uint (value : Nat)
  | float (value : Float32)
  | double (value : Float)

namespace Literal

def kind : Literal → Kind
  | bool _ => .bool
  | int _ => .int
  | uint _ => .uint
  | float _ => .float
  | double _ => .double

/-- Numbers that are not finite cannot be written. -/
def isFinite : Literal → Bool
  | float x => x.isFinite
  | double x => x.isFinite
  | _ => true

def zero : Kind → Literal
  | .bool => bool false
  | .int => int 0
  | .uint => uint 0
  | .float => float 0.0
  | .double => double 0.0

def one : Kind → Literal
  | .bool => bool true
  | .int => int 1
  | .uint => uint 1
  | .float => float 1.0
  | .double => double 1.0

/-- The whole number of 32 bits with a sign that has the bits of another. -/
def ofBits (n : Int) : Literal := int (Int.bmod n 4294967296)

def ofWhole (n : Nat) (unsigned : Bool) : Literal :=
  if unsigned then uint (n % 4294967296) else ofBits n

/-- The number that a fraction in the text stands for. Beyond the exponents that a float can have,
the number of its digits decides. -/
def ofDecimal (digits : Nat) (scale : Int) : Literal :=
  let length : Int := (Nat.toDigits 10 digits).length
  let x : Float32 :=
    if digits = 0 ∨ length + scale < -60 then 0.0
    else if 60 < length + scale then 1.0 / 0.0
    else OfScientific.ofScientific digits (scale < 0) scale.natAbs
  float x

def index? : Literal → Option Nat
  | int n => if 0 ≤ n then some n.toNat else none
  | uint n => some n
  | _ => none

end Literal

inductive Value where
  | literal (l : Literal)
  /-- a vector whose components are all the same -/
  | splat (size : Nat) (part : Value)
  | compose (ty : Ty) (parts : List Value)

namespace Value

def ty? : Value → Option Ty
  | literal l => some (.scalar l.kind)
  | splat n p =>
    match p.ty? with
    | some (.scalar k) => some (.vector n k)
    | _ => none
  | compose t _ => some t

def literal? : Value → Option Literal
  | literal l => some l
  | _ => none

def index? (v : Value) : Option Nat := v.literal?.bind Literal.index?

def isNegative : Value → Bool
  | literal (.int n) => n < 0
  | _ => false

def whole? : Value → Option Literal
  | literal (.int n) => some (.int n)
  | literal (.uint n) => some (.uint n)
  | _ => none

/-- The components of a vector that is composed of parts: parts that are vectors count as their
own parts. Other values have the parts that they are composed of. -/
def components (ty : Ty) (parts : List Value) : List Value :=
  match ty with
  | .vector n _ =>
    let open? := fun (v : Value) =>
      match v with
      | compose (.vector ..) ps => ps
      | v => [v]
    let spread := fun (v : Value) =>
      match v with
      | splat n p => List.replicate n p
      | v => [v]
    ((parts.flatMap open?).flatMap open?).flatMap spread |>.take n
  | _ => parts

def part? (v : Value) (i : Nat) : Option Value :=
  match v with
  | literal _ => none
  | splat n p => if i < n then some p else none
  | compose t ps => (components t ps)[i]?

end Value

end Segue.Glsl
