import Segue.Glsl.Token

/-!
# Types of the shading language

The types, their names, and the records that a program declares. A type of an array knows how far
apart its elements lie, so that arrays within blocks and arrays of functions are of different
types. Variables are known by pointers, whose types tell where a variable is kept.
-/

namespace Segue.Glsl

inductive Kind where
  | bool
  | int
  | uint
  | float
  | double
  deriving DecidableEq, Repr

namespace Kind

def width : Kind → Nat
  | bool => 1
  | int | uint | float => 4
  | double => 8

/-- By itself a number turns into one of a kind of greater power; truth values turn into nothing. -/
def power? : Kind → Option Nat
  | bool => none
  | int => some 0
  | uint => some 1
  | float => some 2
  | double => some 3

def isReal (k : Kind) : Bool := k = float || k = double

def isWhole (k : Kind) : Bool := k = int || k = uint

end Kind

inductive Space where
  | call
  | run
  | workgroup
  /-- in a block that can only be read -/
  | uniform
  | storage
  | handle
  deriving DecidableEq, Repr

/-- A type. A record is known by its place among the records of a program. -/
inductive Ty where
  | scalar (kind : Kind)
  | vector (size : Nat) (kind : Kind)
  | matrix (columns rows : Nat) (kind : Kind)
  /-- without a length it is known only when the program runs -/
  | array (element : Ty) (length? : Option Nat) (stride : Nat)
  | record (place : Nat)
  | image (shape : String) (kind : Kind) (depth : Bool)
  | sampler (shadow : Bool)
  | pointer (base : Ty) (space : Space)
  /-- a pointer to a part of a vector or matrix: to a column of the given size, or to a number -/
  | part (size? : Option Nat) (kind : Kind) (space : Space)
  deriving DecidableEq, Repr

structure Member where
  name : String
  ty : Ty
  offset : Nat
  deriving DecidableEq, Repr

/-- A record: its name, its members in order, and the bytes that it spans. -/
structure Record where
  name : String
  members : List Member
  span : Nat
  deriving DecidableEq, Repr

/-- The records of a program; the members of a record are of types that stand before it. -/
abbrev Records := List Record

namespace Ty

abbrev float : Ty := .scalar .float

abbrev bool : Ty := .scalar .bool

def ofSize (size : Nat) (kind : Kind) : Ty := if size ≤ 1 then .scalar kind else .vector size kind

def kind? : Ty → Option Kind
  | .scalar k | .vector _ k | .matrix _ _ k => some k
  | _ => none

/-- The kind of the components of a value, or of what a pointer to a part points to. -/
def componentKind? : Ty → Option Kind
  | .part _ k _ => some k
  | t => t.kind?

def withKind? (k : Kind) : Ty → Option Ty
  | .scalar _ => some (.scalar k)
  | .vector n _ => some (.vector n k)
  | .matrix c r _ => some (.matrix c r k)
  | _ => none

def isScalar : Ty → Bool
  | .scalar _ => true
  | _ => false

def isPointer : Ty → Bool
  | .pointer .. | .part .. => true
  | _ => false

/-- Pictures and samplers are no data. -/
def isOpaque : Ty → Bool
  | .image .. | .sampler _ => true
  | _ => false

def pointee? : Ty → Option Ty
  | .pointer t _ => some t
  | .part (some n) k _ => some (.vector n k)
  | .part none k _ => some (.scalar k)
  | _ => none

def space? : Ty → Option Space
  | .pointer _ s | .part _ _ s => some s
  | _ => none

def target (t : Ty) : Ty := t.pointee?.getD t

/-! ## Names -/

/-- The shapes of pictures, with the number of coordinates in each, and whether there is a row of
pictures. -/
def shapes : List (String × Nat × Bool) :=
  [("1D", 1, false), ("1DArray", 1, true), ("2D", 2, false), ("2DArray", 2, true),
   ("2DMS", 2, false), ("2DMSArray", 2, true), ("3D", 3, false), ("Cube", 3, false),
   ("CubeArray", 3, true)]

def letters : List (String × Kind) :=
  [("", .float), ("b", .bool), ("i", .int), ("u", .uint), ("d", .double)]

def vectorNames : List (String × Ty) :=
  letters.flatMap fun (l, k) => [2, 3, 4].map fun n => (s!"{l}vec{n}", .vector n k)

def matrixNames : List (String × Ty) :=
  letters.flatMap fun (l, k) => [2, 3, 4].flatMap fun c =>
    (s!"{l}mat{c}", Ty.matrix c c k) :: [2, 3, 4].map fun r => (s!"{l}mat{c}x{r}", Ty.matrix c r k)

def imageLetters : List (String × Kind) := [("", .float), ("i", .int), ("u", .uint)]

def imageNames : List (String × Ty) :=
  imageLetters.flatMap fun (l, k) =>
    shapes.map fun s => (s!"{l}texture{s.1}", Ty.image s.1 k false)

def names : List (String × Ty) :=
  [("bool", .scalar .bool), ("int", .scalar .int), ("uint", .scalar .uint), ("float", .float),
   ("double", .scalar .double), ("sampler", .sampler false), ("samplerShadow", .sampler true)]
    ++ vectorNames ++ matrixNames ++ imageNames

def ofName? (name : String) : Option Ty := names.lookup name

end Ty

/-! ## What types are made of -/

namespace Records

/-- The types without parts that a type is made of; a list of unknown length is one of them. -/
def leaves (rs : Records) : (rounds : Nat) → Ty → List Ty
  | rounds, .array e (some _) _ => leaves rs rounds e
  | rounds, .array e none s => .array e none s :: leaves rs rounds e
  | rounds + 1, .record i =>
    match rs[i]? with
    | some r => r.members.flatMap fun m => leaves rs rounds m.ty
    | none => [.record i]
  | _, t => [t]
termination_by rounds t => (rounds, t)

def made (rs : Records) (p : Ty → Bool) (t : Ty) : Bool := (rs.leaves rs.length t).all p

/-- Types of values that a program can make: numbers and what consists of a known number of them. -/
def isMade (rs : Records) (t : Ty) : Bool := rs.made (fun l => l.kind?.isSome) t

/-- Types of what can be kept: also lists of unknown length. -/
def isKept (rs : Records) (t : Ty) : Bool :=
  rs.made (fun l => l.kind?.isSome || l matches .array ..) t

/-- Types of what the device can share with a program: all data but truth values. -/
def isShared (rs : Records) (t : Ty) : Bool :=
  rs.made (fun l => (l.kind?.any (· != .bool)) || l matches .array ..) t

/-- Whether two types have the same values: records do if their members are the same. -/
def same (rs : Records) (a b : Ty) : Bool :=
  a = b ||
  match a, b with
  | .record i, .record j =>
    match rs[i]?, rs[j]? with
    | some r, some s => r.members = s.members && r.span = s.span
    | _, _ => false
  | _, _ => false

/-- Whether a type is well formed. Matrices hold real numbers, arrays hold what has a known size,
and in a record only the last member may have an unknown one. -/
def isFormed (rs : Records) (t : Ty) : Bool :=
  match t with
  | .matrix _ _ k => k.isReal
  | .array e _ _ => rs.isMade e
  | .record i =>
    match rs[i]? with
    | some r =>
      (r.members.dropLast.all fun m => rs.isMade m.ty) && r.members.all fun m => rs.isKept m.ty
    | none => false
  | _ => true

end Records

def keywords : List String :=
  ["layout", "in", "out", "inout", "uniform", "buffer", "shared", "const", "invariant", "flat",
   "noperspective", "smooth", "centroid", "sample", "restrict", "readonly", "writeonly", "lowp",
   "mediump", "highp", "precision", "void", "struct", "if", "else", "for", "while", "do", "switch",
   "case", "default", "break", "continue", "return", "discard", "true", "false"]

def isName (w : String) : Bool := !keywords.contains w && (Ty.ofName? w).isNone

end Segue.Glsl
