import Segue.Glsl.Value
import Segue.Glsl.Token

/-!
# Arithmetic on known numbers

The operations of the language on literals. A whole number that does not fit 32 bits is not wrapped:
the operation has no result, nor has one on numbers of different kinds. Functions of the language
are known by their names.
-/

namespace Segue.Glsl

inductive Sign where
  | negate
  | logicalNot
  | bitNot
  deriving DecidableEq, Repr

namespace Literal

def fitInt? (n : Int) : Option Literal :=
  if -2147483648 ≤ n ∧ n < 2147483648 then some (int n) else none

def fitUint? (n : Int) : Option Literal :=
  if 0 ≤ n ∧ n < 4294967296 then some (uint n.toNat) else none

/-! ## Operators -/

def sign? (s : Sign) (l : Literal) : Option Literal :=
  match s, l with
  | .negate, int n => some (ofBits (-n))
  | .negate, float x => some (float (-x))
  | .logicalNot, bool b => some (bool !b)
  | .bitNot, int n => some (int (-n - 1))
  | .bitNot, uint n => some (uint (4294967295 - n))
  | _, _ => none

def rank : Literal → Nat
  | double _ => 0
  | float _ => 1
  | uint _ => 2
  | int _ => 3
  | bool _ => 4

/-- Compares two literals; of different kinds, the kinds decide. -/
def order (a b : Literal) : Ordering :=
  match a, b with
  | bool a, bool b => compare a.toNat b.toNat
  | int a, int b => compare a b
  | uint a, uint b => compare a b
  | float a, float b => if a < b then .lt else if a == b then .eq else .gt
  | double a, double b => if a < b then .lt else if a == b then .eq else .gt
  | a, b => compare a.rank b.rank

def remainder (x y : Float32) : Float32 :=
  let a := x.toFloat
  let b := y.toFloat
  let q := a / b
  (a - (if q < 0.0 then q.ceil else q.floor) * b).toFloat32

def realBinary? (op : Operator) (x y : Float32) : Option Float32 :=
  match op with
  | .add => some (x + y)
  | .subtract => some (x - y)
  | .multiply => some (x * y)
  | .divide => some (x / y)
  | .modulo => some (remainder x y)
  | _ => none

def bitLength (n : Nat) : Nat := if n = 0 then 0 else n.log2 + 1

def intBinary? (op : Operator) (a b : Int) : Option Literal :=
  match op with
  | .add => fitInt? (a + b)
  | .subtract => fitInt? (a - b)
  | .multiply => fitInt? (a * b)
  | .divide => if b = 0 then none else fitInt? (Int.tdiv a b)
  | .modulo =>
    if b = 0 ∨ (a = -2147483648 ∧ b = -1) then none else some (int (Int.tmod a b))
  | .bitAnd => some (int (Int32.ofInt a &&& Int32.ofInt b).toInt)
  | .bitOr => some (int (Int32.ofInt a ||| Int32.ofInt b).toInt)
  | .bitXor => some (int (Int32.ofInt a ^^^ Int32.ofInt b).toInt)
  | _ => none

def uintBinary? (op : Operator) (a b : Nat) : Option Literal :=
  match op with
  | .add => fitUint? (a + b)
  | .subtract => fitUint? ((a : Int) - b)
  | .multiply => fitUint? (a * b)
  | .divide => if b = 0 then none else some (uint (a / b))
  | .modulo => if b = 0 then none else some (uint (a % b))
  | .bitAnd => some (uint (a &&& b))
  | .bitOr => some (uint (a ||| b))
  | .bitXor => some (uint (a ^^^ b))
  | .shiftLeft => if b < 32 then fitUint? (a * Nat.pow 2 b) else none
  | .shiftRight => if b < 32 then some (uint (a / Nat.pow 2 b)) else none
  | _ => none

/-- A shift of a number with a sign; bits that tell its value cannot be shifted out. -/
def intShift? (op : Operator) (a : Int) (b : Nat) : Option Literal :=
  match op with
  | .shiftLeft =>
    let free := 32 - bitLength (if a < 0 then -a - 1 else a).toNat
    if free ≤ b ∨ 32 ≤ b then none else some (int (a * Nat.pow 2 b))
  | .shiftRight => if b < 32 then some (int (Int.fdiv a (Nat.pow 2 b))) else none
  | _ => none

def boolBinary? (op : Operator) (a b : Bool) : Option Literal :=
  match op with
  | .logicalAnd | .bitAnd => some (bool (a && b))
  | .logicalOr | .bitOr => some (bool (a || b))
  | _ => none

def binary? (op : Operator) (a b : Literal) : Option Literal :=
  match op with
  | .equal => some (bool (a.order b == .eq))
  | .notEqual => some (bool (a.order b != .eq))
  | .less => some (bool (a.order b == .lt))
  | .lessEqual => some (bool (a.order b != .gt))
  | .greater => some (bool (a.order b == .gt))
  | .greaterEqual => some (bool (a.order b != .lt))
  | _ =>
    match a, b with
    | int a, int b => intBinary? op a b
    | int a, uint b => intShift? op a b
    | uint a, uint b => uintBinary? op a b
    | float a, float b => (realBinary? op a b).map float
    | bool a, bool b => boolBinary? op a b
    | _, _ => none

/-! ## Conversions -/

/-- The whole number nearest to zero's side of a float, between two bounds. -/
def clampWhole (x : Float32) (low high : Int) : Int := max low (min high x.toInt64.toInt)

/-- The same number of another kind. What is of 64 bits turns into nothing of 32 bits. -/
def cast? (target : Kind) (l : Literal) : Option Literal :=
  let number : Literal := match l with
    | bool b => uint b.toNat
    | l => l
  match target, number with
  | .int, int n => some (int n)
  | .int, uint n => some (ofBits n)
  | .int, float x => some (int (clampWhole x (-2147483648) 2147483647))
  | .uint, int n => some (uint (n % 4294967296).toNat)
  | .uint, uint n => some (uint n)
  | .uint, float x => some (uint (clampWhole x 0 4294967295).toNat)
  | .float, int n => some (float (Float32.ofInt n))
  | .float, uint n => some (float (Float32.ofInt n))
  | .float, float x => some (float x)
  | .double, int n => some (double (Float.ofInt n))
  | .double, uint n => some (double (Float.ofInt n))
  | .double, float x => some (double x.toFloat)
  | .double, double x => some (double x)
  | .bool, int n => some (bool (n != 0))
  | .bool, uint n => some (bool (n != 0))
  | .bool, float x => some (bool (x != 0.0))
  | _, _ => none

/-! ## Functions -/

def real (f : Float32 → Float32) : List Literal → Option Literal
  | [float x] => some (float (f x))
  | _ => none

def realTwo (f : Float32 → Float32 → Float32) : List Literal → Option Literal
  | [float x, float y] => some (float (f x y))
  | _ => none

/-- The whole number next to a float, of two alike the even one. -/
def roundEven (x : Float32) : Float32 :=
  let low := x.floor
  let rest := x - low
  if rest < 0.5 then low
  else if 0.5 < rest then low + 1.0
  else if ((low / 2.0).floor * 2.0 == low) then low else low + 1.0

def truncate (x : Float32) : Float32 := if x < 0.0 then x.ceil else x.floor

def lesser (a b : Literal) : Literal := if a.order b == .gt then b else a

def greater (a b : Literal) : Literal := if a.order b == .lt then b else a

def comparable (ls : List Literal) : Bool :=
  match ls with
  | [] => false
  | l :: ls => [Kind.int, .uint, .float].contains l.kind && ls.all fun m => m.kind = l.kind

/-- A function of the bits of a whole number; the answer -1 has all bits set. -/
def bits (f : Nat → Int) : List Literal → Option Literal
  | [int n] => some (ofBits (f (n % 4294967296).toNat))
  | [uint n] => some (uint (f n % 4294967296).toNat)
  | _ => none

def bitCount (n : Nat) : Nat := (List.range 32).countP fun i => n.testBit i

def reverseBits (n : Nat) : Nat :=
  (List.range 32).foldl (fun acc i => 2 * acc + (if n.testBit i then 1 else 0)) 0

def lowestBit (n : Nat) : Int := ((List.range 32).find? fun i => n.testBit i).elim (-1) fun i => i

/-- The highest bit that is set; of a number below zero, the highest that is not. -/
def highestBit : List Literal → Option Literal
  | [int n] => some (int ((bitLength (if n < 0 then -n - 1 else n).toNat : Int) - 1))
  | [uint n] => bits (fun n => (bitLength n : Int) - 1) [uint n]
  | _ => none

/-- The functions on single numbers whose value is known before the program runs. -/
def functions : List (String × (List Literal → Option Literal)) :=
  [("sin", real .sin), ("cos", real .cos), ("tan", real .tan), ("asin", real .asin),
   ("acos", real .acos), ("atan", real .atan), ("sinh", real .sinh), ("cosh", real .cosh),
   ("tanh", real .tanh), ("asinh", real .asinh), ("acosh", real .acosh), ("atanh", real .atanh),
   ("radians", real fun x => x * 0.017453292519943295),
   ("degrees", real fun x => x * 57.29577951308232),
   ("ceil", real .ceil), ("floor", real .floor), ("round", real roundEven),
   ("trunc", real truncate),
   ("fract", real fun x => x - x.floor), ("exp", real .exp), ("exp2", real .exp2),
   ("log", real .log), ("log2", real .log2), ("pow", realTwo .pow), ("sqrt", real .sqrt),
   ("inversesqrt", real fun x => 1.0 / x.sqrt),
   ("step", realTwo fun edge x => if edge ≤ x then 1.0 else 0.0),
   ("fma", fun
     | [float x, float y, float z] => some (float (x.toFloat * y.toFloat + z.toFloat).toFloat32)
     | _ => none),
   ("abs", fun
     | [int n] => some (ofBits n.natAbs)
     | [uint n] => some (uint n)
     | [float x] => some (float x.abs)
     | _ => none),
   ("sign", fun
     | [int n] => some (int n.sign)
     | [float x] => some (float (if x < 0.0 then -1.0 else if 0.0 < x then 1.0 else x))
     | _ => none),
   ("min", fun
     | [a, b] => if comparable [a, b] then some (a.lesser b) else none
     | _ => none),
   ("max", fun
     | [a, b] => if comparable [a, b] then some (a.greater b) else none
     | _ => none),
   ("clamp", fun
     | [a, low, high] =>
       if comparable [a, low, high] && low.order high != .gt then some ((a.greater low).lesser high)
       else none
     | _ => none),
   ("bitCount", bits fun n => bitCount n), ("bitfieldReverse", bits fun n => reverseBits n),
   ("findLSB", bits lowestBit), ("findMSB", highestBit)]

end Literal

end Segue.Glsl
