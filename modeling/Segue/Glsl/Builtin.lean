import Segue.Glsl.Signature
import Segue.Glsl.Token

/-!
# Functions of the language

The signatures of the functions that every program can call, each with what is done with its
arguments.
-/

namespace Segue.Glsl

inductive Detail where
  | automatic
  | given
  | bySlopes
  deriving DecidableEq, Repr

inductive Action where
  | apply (name : String)
  /-- the same after those at the given places were made vectors of a size -/
  | applySpread (name : String) (size : Nat) (places : List Nat)
  /-- what remains of the first after dividing by the second, made a vector of a size -/
  | modulo (size : Nat)
  /-- one of the first two by the third -/
  | choose
  | reinterpret (kind : Kind)
  | derivative
  | joinTruths (all : Bool)
  /-- whether a number is none, or not finite -/
  | classify
  | negate
  | compare (op : Operator)
  | findBit (name : String)
  | extractBits
  | insertBits
  | join (shadow : Bool)
  | sample (projected offset : Bool) (detail : Detail)
  | fetch (multi : Bool)
  | imageSize (row : Bool)
  deriving DecidableEq, Repr

structure Builtin where
  parameters : List Ty
  action : Action
  deriving DecidableEq, Repr

namespace Builtin

/-- A number and the vectors of 2 to 4 components. -/
def sizes : List Nat := [1, 2, 3, 4]

/-- One signature for each size; a parameter is given by a function of the size. -/
def each (sizes : List Nat) (parameters : List (Nat → Ty)) (action : Nat → Action) :
    List Builtin :=
  sizes.map fun n => ⟨parameters.map fun p => p n, action n⟩

def gen (k : Kind) : Nat → Ty := fun n => Ty.ofSize n k

def one (k : Kind) : Nat → Ty := fun _ => .scalar k

def maps : List String :=
  ["radians", "degrees", "sin", "cos", "tan", "asin", "acos", "sinh", "cosh", "tanh", "asinh",
   "acosh", "atanh", "exp", "log", "exp2", "log2"]

def wideMaps : List String :=
  ["ceil", "round", "floor", "fract", "trunc", "sqrt", "inversesqrt", "normalize", "length"]

def derivatives : List String :=
  ["dFdx", "dFdxFine", "dFdxCoarse", "dFdy", "dFdyFine", "dFdyCoarse", "fwidth", "fwidthFine",
   "fwidthCoarse"]

def comparisons : List (String × Operator) :=
  [("lessThan", .less), ("lessThanEqual", .lessEqual), ("greaterThan", .greater),
   ("greaterThanEqual", .greaterEqual), ("equal", .equal), ("notEqual", .notEqual)]

def packings : List (String × Ty) :=
  [("packSnorm4x8", .vector 4 .float), ("packUnorm4x8", .vector 4 .float),
   ("packSnorm2x16", .vector 2 .float), ("packUnorm2x16", .vector 2 .float),
   ("packHalf2x16", .vector 2 .float), ("unpackSnorm4x8", .scalar .uint),
   ("unpackUnorm4x8", .scalar .uint), ("unpackSnorm2x16", .scalar .uint),
   ("unpackUnorm2x16", .scalar .uint), ("unpackHalf2x16", .scalar .uint)]

def matrices : List (Nat × Nat) := [2, 3, 4].flatMap fun c => [2, 3, 4].map fun r => (c, r)

/-- The functions that there are for real numbers of either kind. -/
def common (name : String) (k : Kind) : List Builtin :=
  let apply := fun _ : Nat => Action.apply name
  if wideMaps.contains name then each sizes [gen k] apply
  else match name with
  | "roundEven" => each sizes [gen k] fun _ => .apply "round"
  | "isnan" | "isinf" => each sizes [gen k] fun _ => .classify
  | "dot" | "reflect" | "distance" => each sizes [gen k, gen k] apply
  | "ldexp" => each sizes [gen k, gen .int] apply
  | "transpose" => matrices.map fun (c, r) => ⟨[.matrix c r k], .apply name⟩
  | "inverse" | "determinant" => [2, 3, 4].map fun n => ⟨[.matrix n n k], .apply name⟩
  | "mod" => each sizes [gen k, gen k] Action.modulo ++ each [2, 3, 4] [gen k, one k] Action.modulo
  | "step" => each sizes [gen k, gen k] apply
      ++ each [2, 3, 4] [one k, gen k] fun n => .applySpread name n [0]
  | "cross" => each [3] [gen k, gen k] apply
  | "outerProduct" => matrices.map fun (c, r) => ⟨[.vector r k, .vector c k], .apply name⟩
  | "faceforward" | "fma" => each sizes [gen k, gen k, gen k] apply
  | "refract" => each sizes [gen k, gen k, one k] apply
  | "smoothstep" => each sizes [gen k, gen k, gen k] apply
      ++ each [2, 3, 4] [one k, one k, gen k] fun n => .applySpread name n [0, 1]
  | _ => []

def numeric (name : String) (k : Kind) : List Builtin :=
  let apply := fun _ : Nat => Action.apply name
  match name with
  | "abs" | "sign" => if k = .uint then [] else each sizes [gen k] apply
  | "min" | "max" => each sizes [gen k, gen k] apply
      ++ each [2, 3, 4] [gen k, one k] fun n => .applySpread name n [1]
  | "clamp" => each sizes [gen k, gen k, gen k] apply
      ++ each [2, 3, 4] [gen k, one k, one k] fun n => .applySpread name n [1, 2]
  | "mix" =>
    (if k.isReal then each sizes [gen k, gen k, gen k] apply
      ++ each [2, 3, 4] [gen k, gen k, one k] fun n => .applySpread name n [2] else [])
    ++ each sizes [gen k, gen k, gen .bool] fun _ => .choose
  | _ =>
    match comparisons.lookup name with
    | some op => each [2, 3, 4] [gen k, gen k] fun _ => .compare op
    | none => []

/-! ## Pictures -/

def multiShapes : List String := ["2DMS", "2DMSArray"]

def cubeShapes : List String := ["Cube", "CubeArray"]

/-- The pictures that can be looked up by coordinates between 0 and 1. -/
def filtered : List (String × Nat × Bool) := Ty.shapes.filter fun s => !multiShapes.contains s.1

def kinds : List Kind := [.float, .uint, .int]

/-- The ways of looking a picture up: whether the last coordinate divides the others, whether whole
pixels are added, and how the level of detail is chosen. -/
def lookups : List (String × Bool × Bool × Detail) :=
  [("texture", false, false, .automatic), ("textureOffset", false, true, .automatic),
   ("textureProj", true, false, .automatic), ("textureProjOffset", true, true, .automatic),
   ("textureGrad", false, false, .bySlopes), ("textureGradOffset", false, true, .bySlopes),
   ("textureProjGrad", true, false, .bySlopes), ("textureProjGradOffset", true, true, .bySlopes),
   ("textureLod", false, false, .given), ("textureLodOffset", false, true, .given),
   ("textureProjLod", true, false, .given), ("textureProjLodOffset", true, true, .given)]

/-- The numbers of coordinates by which a picture can be looked up. -/
def coordinateCounts (projected : Bool) (count : Nat) (row : Bool) : List Nat :=
  if projected then (count + 1) :: (if count = 3 then [] else [4])
  else [count + (if row then 1 else 0)]

def lookup (projected offset : Bool) (detail : Detail) (image : Ty) (count : Nat)
    (row cube : Bool) : List Builtin :=
  if (projected && (row || cube)) || (cube && offset) then []
  else
    let place := Ty.ofSize count .float
    let more := (match detail with
      | .automatic => []
      | .given => [.float]
      | .bySlopes => [place, place]) ++ (if offset then [Ty.ofSize count .int] else [])
    let action := Action.sample projected offset detail
    (if detail = .automatic then [[], [Ty.float]] else [[]]).flatMap fun bias =>
      (coordinateCounts projected count row).map fun n =>
        ⟨[image, .ofSize n .float] ++ more ++ bias, action⟩

def ofImages (name : String) : List Builtin :=
  match lookups.lookup name with
  | some (projected, offset, detail) =>
    kinds.flatMap fun k => filtered.flatMap fun (shape, count, row) =>
      lookup projected offset detail (.image shape k false) count row
        (cubeShapes.contains shape)
  | none =>
    kinds.flatMap fun k => Ty.shapes.flatMap fun (shape, count, row) =>
      let image := Ty.image shape k false
      let multi := multiShapes.contains shape
      let place := Ty.ofSize (count + if row then 1 else 0) .int
      let cube := cubeShapes.contains shape
      match name with
      | "textureSize" => [⟨if multi then [image] else [image, .scalar .int], .imageSize row⟩]
      | "texelFetch" => if cube then [] else [⟨[image, place, .scalar .int], .fetch multi⟩]
      | "texelFetchOffset" =>
        if cube then []
        else [⟨[image, place, .scalar .int, .ofSize count .int], .fetch multi⟩]
      | _ => []

/-- The functions that join a picture to a sampler have the names of what they make. -/
def joins (name : String) : List Builtin :=
  Ty.imageLetters.flatMap fun (l, k) => Ty.shapes.flatMap fun (shape, _, _) =>
    let image := Ty.image shape k false
    if name = s!"{l}sampler{shape}" then [⟨[image, .sampler false], .join false⟩]
    else if name = s!"{l}sampler{shape}Shadow" then [⟨[image, .sampler true], .join true⟩]
    else []

/-! ## All functions -/

/-- The signatures of functions that are there for one kind of numbers each. -/
def special (name : String) : List Builtin :=
  let apply := fun _ : Nat => Action.apply name
  let whole : List Kind := [.uint, .int]
  match name with
  | "pow" => each sizes [gen .float, gen .float] apply
  | "atan" => each sizes [gen .float] apply
      ++ each sizes [gen .float, gen .float] fun _ => .apply "atan2"
  | "floatBitsToInt" => each sizes [gen .float] fun _ => .reinterpret .int
  | "floatBitsToUint" => each sizes [gen .float] fun _ => .reinterpret .uint
  | "intBitsToFloat" => each sizes [gen .int] fun _ => .reinterpret .float
  | "uintBitsToFloat" => each sizes [gen .uint] fun _ => .reinterpret .float
  | "all" => each [2, 3, 4] [gen .bool] fun _ => .joinTruths true
  | "any" => each [2, 3, 4] [gen .bool] fun _ => .joinTruths false
  | "not" => each [2, 3, 4] [gen .bool] fun _ => .negate
  | "bitCount" | "bitfieldReverse" => whole.flatMap fun k => each sizes [gen k] apply
  | "findLSB" | "findMSB" => whole.flatMap fun k =>
      each sizes [gen k] fun _ => if k = .uint then .findBit name else .apply name
  | "bitfieldExtract" => whole.flatMap fun k =>
      each sizes [gen k, one .int, one .int] fun _ => .extractBits
  | "bitfieldInsert" => whole.flatMap fun k =>
      each sizes [gen k, gen k, one .int, one .int] fun _ => .insertBits
  | _ =>
    if maps.contains name then each sizes [gen .float] apply
    else if derivatives.contains name then each sizes [gen .float] fun _ => .derivative
    else match packings.lookup name with
    | some t => [⟨[t], .apply name⟩]
    | none => []

/-- The kinds for which a function of numbers is there; of truth values only some can be compared
and chosen. -/
def numericKinds (name : String) : List Kind :=
  if ["equal", "notEqual", "mix"].contains name then [.float, .int, .uint, .bool]
  else [.float, .int, .uint]

/-- The signatures of a function of the language. Those for numbers of 64 bits are there where such
numbers are given. -/
def all (name : String) (wide : Bool) : List Builtin :=
  special name ++ (numericKinds name).flatMap (numeric name) ++ common name .float
    ++ (if wide then numeric name .double ++ common name .double else [])
    ++ ofImages name ++ joins name

end Builtin

end Segue.Glsl
