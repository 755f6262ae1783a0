import Segue.Uniform

/-!
# The parameter block

The uniforms that a fragment declares are members of one block of bytes in the std140 layout: each
member starts at a multiple of its alignment, every element of an array takes 16 bytes, and the
block is a multiple of 16 bytes, at least 16.
-/

namespace Segue.Shader

inductive ParamKind where
  | float | int | bool | vec2 | vec3 | vec4
  deriving DecidableEq, Repr

namespace ParamKind

def ofType? : String → Option ParamKind
  | "float" => some .float
  | "int" => some .int
  | "bool" => some .bool
  | "vec2" => some .vec2
  | "vec3" => some .vec3
  | "vec4" => some .vec4
  | _ => none

def components : ParamKind → Nat
  | .vec2 => 2
  | .vec3 => 3
  | .vec4 => 4
  | _ => 1

def alignment : ParamKind → Nat
  | .vec2 => 8
  | .vec3 => 16
  | .vec4 => 16
  | _ => 4

/-- The type of the member. A truth value is kept as an integer. -/
def memberType : ParamKind → String
  | .float => "float"
  | .int => "int"
  | .bool => "int"
  | .vec2 => "vec2"
  | .vec3 => "vec3"
  | .vec4 => "vec4"

end ParamKind

structure ParamField where
  name : String
  kind : ParamKind
  arrayLength : Option Nat
  /-- The first byte of the member. -/
  offset : Nat
  deriving DecidableEq, Repr

def arrayStride : Nat := 16

/-- The least multiple of `step` from `n` on. -/
def alignUp (n step : Nat) : Nat := (n + step - 1) / step * step

def placement (kind : ParamKind) (arrayLength : Option Nat) : Nat × Nat :=
  match arrayLength with
  | some n => (arrayStride, arrayStride * max n 1)
  | none => (kind.alignment, kind.components * 4)

structure ParamLayout where
  fields : List ParamField
  size : Nat
  deriving DecidableEq, Repr

namespace ParamLayout

structure Draft where
  fields : List ParamField
  cursor : Nat

/-- Adds a declaration. The inputs that every shader has, names that are there already and other
types get no member. -/
def Draft.add (s : Draft) (d : UniformDecl) : Draft :=
  if Uniforms.isContract d.name || s.fields.any (·.name == d.name) then s
  else
    match ParamKind.ofType? d.type with
    | none => s
    | some kind =>
      let (align, size) := placement kind d.arrayLength
      let offset := alignUp s.cursor align
      { fields := s.fields ++ [⟨d.name, kind, d.arrayLength, offset⟩], cursor := offset + size }

def ofDecls (decls : List UniformDecl) : ParamLayout :=
  let s := decls.foldl Draft.add ⟨[], 0⟩
  ⟨s.fields, max (alignUp s.cursor 16) 16⟩

def ofSource (source : String) : ParamLayout := ofDecls (UniformDecl.scan source)

def field? (l : ParamLayout) (name : String) : Option ParamField :=
  l.fields.find? (·.name == name)

/-! ## Writing values -/

/-- The four bytes of a word, the lowest first. -/
def wordBytes (w : UInt32) : List UInt8 :=
  [w.toUInt8, (w >>> 8).toUInt8, (w >>> 16).toUInt8, (w >>> 24).toUInt8]

/-- Replaces the bytes from `offset` on, if the buffer reaches that far. -/
def put (buffer : List UInt8) (offset : Nat) (bytes : List UInt8) : List UInt8 :=
  if offset + bytes.length ≤ buffer.length then
    buffer.take offset ++ bytes ++ buffer.drop (offset + bytes.length)
  else buffer

/-- The word of a component: numbers in single precision, integers rounded with a half away from
zero, truth values as 0 or 1. -/
def componentWord (kind : ParamKind) (x : Float) : UInt32 :=
  match kind with
  | .int => (Decimal.nearestInt32 x).toUInt32
  | .bool => if x != 0.0 then 1 else 0
  | _ => Decimal.singleBits x

def slots (f : ParamField) (v : UniformValue Float) : List (Nat × UInt32) :=
  let n := f.kind.components
  let values := v.components (n * f.arrayLength.getD 1)
  values.zipIdx.map fun (x, i) =>
    (f.offset + i / n * arrayStride + i % n * 4, componentWord f.kind x)

def writeField (buffer : List UInt8) (f : ParamField) (v : UniformValue Float) : List UInt8 :=
  (slots f v).foldl (fun b s => put b s.1 (wordBytes s.2)) buffer

def write (l : ParamLayout) (buffer : List UInt8) (uniforms : Uniforms Float) : List UInt8 :=
  l.fields.foldl (fun b f => match uniforms.get? f.name with
    | some v => writeField b f v
    | none => b) buffer

end ParamLayout

end Segue.Shader
