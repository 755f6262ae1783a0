import Segue.Glsl.Layout
import Segue.Glsl.Arithmetic

/-!
# Types of operations

The type that an operation has, and whether it is valid on operands of given types. The two are not
the same: some operations have a type as soon as their first operand has one, and are found to be
invalid only afterwards.
-/

namespace Segue.Glsl

/-! ## Parts -/

/-- The type of an element that is chosen while the program runs. -/
def Ty.element? : Ty → Option Ty
  | .array e _ _ => some e
  | .vector _ k => some (.scalar k)
  | .matrix _ r k => some (.vector r k)
  | .pointer (.array e _ _) s => some (.pointer e s)
  | .pointer (.vector _ k) s => some (.part none k s)
  | .pointer (.matrix _ r k) s => some (.part (some r) k s)
  | .part (some _) k s => some (.part none k s)
  | _ => none

/-- The member of a record, if the type is of one and there is such a member. -/
def Records.member? (rs : Records) (t : Ty) (i : Nat) : Option Ty :=
  match t with
  | .record place => (rs[place]?).bind fun r => (r.members[i]?).map Member.ty
  | _ => none

/-- The type of the part at a known place. Vectors, matrices and records have no part beyond their
end; arrays have. -/
def Records.partTy? (rs : Records) (t : Ty) (i : Nat) : Option Ty :=
  match t with
  | .vector n _ | .matrix n _ _ | .pointer (.vector n _) _ | .pointer (.matrix n _ _) _
  | .part (some n) _ _ => if i < n then t.element? else none
  | .record _ => rs.member? t i
  | .pointer (.record p) s => (rs.member? (.record p) i).map fun m => .pointer m s
  | t => t.element?

def Records.partCount? (rs : Records) (t : Ty) : Option Nat :=
  match t with
  | .array _ n _ | .pointer (.array _ n _) _ => n
  | .vector n _ | .matrix n _ _ | .pointer (.vector n _) _ | .pointer (.matrix n _ _) _
  | .part (some n) _ _ => some n
  | .record p | .pointer (.record p) _ => (rs[p]?).map fun r => r.members.length
  | _ => none

def Ty.isIndex (t : Ty) : Bool := t = .scalar .int || t = .scalar .uint

def Ty.loaded? (t : Ty) : Option Ty := t.pointee?

def Ty.swizzled? (count : Nat) : Ty → Option Ty
  | .vector _ k => some (.vector count k)
  | _ => none

def Ty.splatted? (size : Nat) : Ty → Option Ty
  | .scalar k => some (.vector size k)
  | _ => none

/-! ## Composing -/

def Ty.share? (k : Kind) : Ty → Option Nat
  | .scalar j => if j = k then some 1 else none
  | .vector n j => if j = k then some n else none
  | _ => none

def Records.composes (rs : Records) (t : Ty) (parts : List Ty) : Bool :=
  match t with
  | .vector n k => (parts.mapM (Ty.share? k)).any fun shares => shares.foldl (· + ·) 0 == n
  | .matrix c r k => parts.length = c && parts.all (· = .vector r k)
  | .array e (some n) _ => parts.length = n && parts.all (rs.same e)
  | .record i =>
    match rs[i]? with
    | some r =>
      parts.length = r.members.length
        && (r.members.zip parts).all fun (m, p) => rs.same m.ty p
    | none => false
  | _ => false

/-! ## Operators -/

/-- Operators by a sign keep the type of their operand. -/
def Sign.isValid (s : Sign) (t : Ty) : Bool :=
  match s, t.kind? with
  | .negate, some k => k.isReal || k = .int
  | .logicalNot, some k => k = .bool
  | .bitNot, some k => k.isWhole
  | _, none => false

namespace Operator

def productTy? (a b : Ty) : Option Ty :=
  match a, b with
  | .matrix _ r k, .matrix c _ _ => some (.matrix c r k)
  | .matrix _ r k, .vector _ _ => some (.vector r k)
  | .vector _ _, .matrix c _ k => some (.vector c k)
  | .scalar _, b => some b
  | a, .scalar _ => some a
  | .vector n k, .vector _ _ => some (.vector n k)
  | _, _ => none

/-- The type that an operator gives; it is mostly known from the first operand. -/
def ty? (op : Operator) (a b : Ty) : Option Ty :=
  match op with
  | multiply => productTy? a b
  | equal | notEqual | less | lessEqual | greater | greaterEqual | logicalAnd | logicalOr
  | logicalXor =>
    match a with
    | .scalar _ => some .bool
    | .vector n _ => some (.vector n .bool)
    | _ => none
  | _ => some a

def multiplies (a b : Ty) : Bool :=
  match a, b with
  | .scalar j, .scalar k | .vector _ j, .scalar k | .scalar j, .vector _ k => j = k && j != .bool
  | .scalar j, .matrix _ _ k | .matrix _ _ j, .scalar k => j = k && j.isReal
  | .vector m j, .vector n k => m = n && j = k && j != .bool
  | .matrix c _ j, .vector n k => c = n && j = k && j.isReal
  | .vector n j, .matrix _ r k => n = r && j = k && j.isReal
  | .matrix c _ j, .matrix _ r k => c = r && j = k && j.isReal
  | _, _ => false

def hasKind (p : Kind → Bool) (t : Ty) : Bool :=
  match t with
  | .scalar k | .vector _ k => p k
  | _ => false

def isValid (rs : Records) (op : Operator) (a b : Ty) : Bool :=
  match op with
  | add | subtract => a = b && (hasKind (· != .bool) a || a matches .matrix ..)
  | divide | modulo => a = b && hasKind (· != .bool) a
  | multiply => multiplies a b
  | equal | notEqual => rs.same a b && rs.isMade a
  | less | lessEqual | greater | greaterEqual => a = b && hasKind (· != .bool) a
  | logicalAnd | logicalOr | logicalXor => a = b && hasKind (· = .bool) a
  | bitAnd | bitOr => a = b && hasKind (fun k => k = .bool || k.isWhole) a
  | bitXor => a = b && hasKind Kind.isWhole a
  | shiftLeft | shiftRight =>
    match a, b with
    | .scalar k, .scalar .uint => k.isWhole
    | .vector m k, .vector n .uint => m = n && k.isWhole
    | _, _ => false

end Operator

def selects (condition accept reject : Ty) : Bool :=
  accept = reject &&
  match condition, accept with
  | .scalar .bool, .scalar _ | .scalar .bool, .vector _ _ => true
  | .vector m .bool, .vector n _ => m = n
  | _, _ => false

/-! ## Functions -/

namespace Applied

def realNames : List String :=
  ["sin", "cos", "tan", "asin", "acos", "atan", "sinh", "cosh", "tanh", "asinh", "acosh", "atanh",
   "radians", "degrees", "ceil", "floor", "round", "trunc", "fract", "exp", "exp2", "log", "log2",
   "sqrt", "inversesqrt", "atan2", "pow", "step", "fma", "smoothstep"]

def numericNames : List String := ["abs", "sign", "min", "max", "clamp"]

def wholeNames : List String := ["bitCount", "bitfieldReverse", "findLSB", "findMSB"]

/-- Functions on vectors of one type, and on nothing shorter. -/
def vectorNames : List String := ["normalize", "faceforward", "reflect"]

/-- The type that a function gives, if it takes arguments of the given types. -/
def ty? (name : String) (arguments : List Ty) : Option Ty :=
  match arguments with
  | [] => none
  | a :: as =>
    let alike := as.all (· = a)
    let number := Operator.hasKind
    let given := fun (p : Bool) (t : Ty) => if p then some t else none
    if realNames.contains name then given (alike && number Kind.isReal a) a
    else if numericNames.contains name then given (alike && number (· != .bool) a) a
    else if wholeNames.contains name then given (alike && number Kind.isWhole a) a
    else if vectorNames.contains name then
      given (alike && number Kind.isReal a && !a.isScalar) a
    else match name, a, as with
    | "length", .scalar k, [] | "length", .vector _ k, [] => given k.isReal (.scalar k)
    | "distance", .scalar k, _ | "distance", .vector _ k, _ =>
      given (alike && k.isReal) (.scalar k)
    | "dot", .vector _ k, _ => given (alike && k != .bool) (.scalar k)
    | "cross", .vector 3 k, _ => given (alike && k.isReal) a
    | "refract", .vector _ k, [b, .scalar j] => given (a = b && j = k && k.isReal) a
    | "mix", .scalar k, _ => given (alike && k.isReal) a
    | "mix", .vector _ k, [b, c] =>
      given (a = b && (a = c || c = .scalar k) && k.isReal) a
    | "ldexp", .scalar k, [.scalar .int] => given k.isReal a
    | "ldexp", .vector m k, [.vector n .int] => given (m = n && k.isReal) a
    | "outerProduct", .vector r k, [.vector c j] => given (j = k && k.isReal) (.matrix c r k)
    | "transpose", .matrix c r k, [] => some (.matrix r c k)
    | "inverse", .matrix c r _, [] => given (c = r) a
    | "determinant", .matrix c r k, [] => given (c = r) (.scalar k)
    | "packSnorm4x8", .vector 4 .float, [] | "packUnorm4x8", .vector 4 .float, []
    | "packSnorm2x16", .vector 2 .float, [] | "packUnorm2x16", .vector 2 .float, []
    | "packHalf2x16", .vector 2 .float, [] => some (.scalar .uint)
    | "unpackSnorm4x8", .scalar .uint, [] | "unpackUnorm4x8", .scalar .uint, [] =>
      some (.vector 4 .float)
    | "unpackSnorm2x16", .scalar .uint, [] | "unpackUnorm2x16", .scalar .uint, []
    | "unpackHalf2x16", .scalar .uint, [] => some (.vector 2 .float)
    | "bitfieldExtract", t, [b, c] =>
      given (number Kind.isWhole t && b = .scalar .uint && c = b) t
    | "bitfieldInsert", t, [u, b, c] =>
      given (number Kind.isWhole t && u = t && b = .scalar .uint && c = b) t
    | _, _, _ => none

end Applied

end Segue.Glsl
