import Segue.Text.Blank
import Segue.Keyed
import Segue.Scalar
import Segue.Decimal.Binary64
import Segue.Decimal.Read

/-!
# Uniforms

A uniform is a named input of a shader: a flag, a number or a short vector. Shaders take numbers in
single precision. A fragment declares its uniforms as `uniform TYPE NAME, NAME[N];`: a declaration
stands in one line, before any line comment, and a precision may come before the type.
-/

namespace Segue

inductive UniformValue (α : Type) where
  | flag (b : Bool)
  | scalar (x : α)
  | vector (xs : List α)
  deriving DecidableEq, Repr

abbrev Uniforms (α : Type) := Keyed (UniformValue α)

namespace UniformValue

/-- The value as one number; an empty vector has none. -/
def single? : UniformValue Float → Option Float
  | .flag b => some (if b then 1.0 else 0.0)
  | .scalar x => some (Decimal.toSingle x)
  | .vector xs => xs.head?.map Decimal.toSingle

/-- The first `n` components, with zeros after the last one given. -/
def components (n : Nat) (v : UniformValue Float) : List Float :=
  let given := match v with
    | .vector xs => xs.map Decimal.toSingle
    | v => v.single?.toList
  given.take n ++ List.replicate (n - given.length) 0.0

def same {α : Type} [Scalar α] : UniformValue α → UniformValue α → Bool
  | .flag a, .flag b => a == b
  | .scalar a, .scalar b => Scalar.same a b
  | .vector as, .vector bs =>
    as.length == bs.length && (as.zip bs).all fun (a, b) => Scalar.same a b
  | _, _ => false

end UniformValue

namespace Uniforms

/-- The inputs that every transition shader has without declaring them. -/
def contract : List String := ["uTexA", "uTexB", "uProgress", "uIntensity", "uTime", "uResolution"]

def isContract (name : String) : Bool := contract.contains name

def merge {α : Type} (defaults overrides : Uniforms α) : Uniforms α :=
  Keyed.merge defaults overrides

def same {α : Type} [Scalar α] (a b : Uniforms α) : Bool :=
  a.length == b.length && (a.zip b).all fun ((k, v), (l, w)) => k == l && v.same w

end Uniforms

/-! ## Declared uniforms -/

structure UniformDecl where
  type : String
  name : String
  /-- The number in brackets after the name, if it is one. -/
  arrayLength : Option Nat
  /-- The line, counted from 0. -/
  line : Nat
  deriving DecidableEq, Repr

namespace UniformDecl

def codeOf : List Char → List Char
  | '/' :: '/' :: _ => []
  | c :: cs => c :: codeOf cs
  | [] => []

/-- The pieces of a line between semicolons, without the blanks around them. -/
def statements (line : List Char) : List (List Char) :=
  (Text.splitChars (· = ';') (Text.trimChars (codeOf line))).map Text.trimChars

def keyword : List Char := "uniform ".toList

def precisions : List (List Char) := ["highp".toList, "mediump".toList, "lowp".toList]

def maxLength : Nat := 0xFFFFFFFFFFFFFFFF

/-- A name, with what brackets say about its length. -/
def readName (cs : List Char) : String × Option Nat :=
  match Text.splitOnce? '[' cs with
  | none => (String.ofList cs, none)
  | some (name, rest) =>
    let inside := (rest.reverse.dropWhile (· = ']')).reverse
    (String.ofList (Text.trimChars name),
     Decimal.readCount? maxLength (String.ofList (Text.trimChars inside)))

def typeAndNames? : List (List Char) → Option (List Char × List (List Char))
  | [] => none
  | w :: ws =>
    if precisions.contains w then
      match ws with
      | [] => none
      | t :: names => some (t, names)
    else some (w, ws)

def ofStatement (line : Nat) (statement : List Char) : List UniformDecl :=
  match Text.dropStart? keyword statement with
  | none => []
  | some rest =>
    match typeAndNames? (Text.words rest) with
    | none => []
    | some (t, names) =>
      let pieces := (Text.splitChars (· = ',') ([' '].intercalate names)).map Text.trimChars
      (pieces.filter fun p => !p.isEmpty).map fun p =>
        let (name, arrayLength) := readName p
        { type := String.ofList t, name, arrayLength, line }

def ofLine (line : Nat) (cs : List Char) : List UniformDecl :=
  (statements cs).flatMap (ofStatement line)

def scan (source : String) : List UniformDecl :=
  (Text.linesOf source.toList).zipIdx.flatMap fun (cs, i) => ofLine i cs

end UniformDecl

end Segue
