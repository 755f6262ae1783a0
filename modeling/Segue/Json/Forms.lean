import Segue.Json.Reader
import Segue.Json.Printer
import Segue.Settings.Basic
import Segue.Image

/-!
# JSON forms

How the small types are written in JSON, and their readers.
-/

namespace Segue

open Json

namespace Json

/-- One of some named values: a string, or an object with the name alone and `null`. -/
def choice {σ : Type} (options : List (String × σ)) : Reader σ
  | 0, cs => checked string (fun s => ofOption (Keyed.get? s options)) 0 cs
  | d + 1, cs =>
    match cs with
    | '\x7b' :: rest => do
      let (name, rest) ← memberName (dropSpace rest)
      let x ← ofOption (Keyed.get? name options)
      let rest ← ofOption (literal? "null" rest)
      .ok (x, ← expect '\x7d' rest)
    | cs => checked string (fun s => ofOption (Keyed.get? s options)) (d + 1) cs

/-- The members of an object of values of one kind, sorted by name; the last of a name counts. -/
def table {σ : Type} (r : Reader σ) : Reader (Keyed σ) :=
  fields [] (fun t name depth cs => do
    let (x, rest) ← r depth cs
    .ok (Keyed.insert name x t, rest)) []

end Json

variable {α : Type} [Numeral α]

def Easing.reader : Reader Easing :=
  checked string fun s => match Easing.ofName s with
    | .ok e => .ok e
    | .error e => .error (.stated e.message)

def Point.toJson (p : Point α) : Json α := .obj [("x", .float p.x), ("y", .float p.y)]

def Point.reader : Reader (Point α) :=
  checked (record
    [.of ["x"] number fun (s : Option α × Option α) x => (some x, s.2),
     .of ["y"] number fun s y => (s.1, some y)] (none, none)) fun
    | (some x, some y) => .ok ⟨x, y⟩
    | _ => .error .malformed

def Curve.toJson (c : Curve α) : Json α :=
  .obj [("p0", c.p0.toJson), ("c0", c.c0.toJson), ("c1", c.c1.toJson), ("p1", c.p1.toJson)]

def Curve.reader : Reader (Curve α) :=
  let place (name : String) : FieldReader (Keyed (Point α)) :=
    .of [name] Point.reader fun t p => Keyed.insert name p t
  checked (record [place "p0", place "c0", place "c1", place "p1"] []) fun t =>
    ofOption do
      some ⟨← t.get? "p0", ← t.get? "c0", ← t.get? "c1", ← t.get? "p1"⟩

def Timeline.Phase.name : Timeline.Phase → String
  | .clipA => "clip_a"
  | .transition => "transition"
  | .clipB => "clip_b"

def Timeline.Phase.reader : Reader Timeline.Phase :=
  choice ([.clipA, .transition, .clipB].map fun p => (Phase.name p, p))

def Timeline.Mode.name : Timeline.Mode → String
  | .transitionOnly => "transition_only"
  | .fullSequence => "full_sequence"

def Timeline.Mode.reader : Reader Timeline.Mode :=
  choice ([.transitionOnly, .fullSequence].map fun m => (Mode.name m, m))

def FrameFormat.reader : Reader FrameFormat := choice (FrameFormat.all.map fun f => (f.name, f))

def FrameRef.toJson (f : FrameRef) : Json α :=
  .obj [("name", .str f.name), ("subfolder", .str f.subfolder), ("type", .str f.kind)]

def FrameRef.reader : Reader FrameRef :=
  checked (record
    [.of ["name"] string fun (s : Option String × FrameRef) x => (some x, s.2),
     .of ["subfolder"] string fun s x => (s.1, { s.2 with subfolder := x }),
     .of ["type"] string fun s x => (s.1, { s.2 with kind := x })]
    (none, ⟨"", "", FrameRef.standardKind⟩)) fun
    | (some name, f) => .ok { f with name }
    | _ => .error .malformed

def ShaderKey.toJson (k : ShaderKey) : Json α :=
  .obj [("engine", .str k.engine), ("variant", .str k.variant)]

def ShaderKey.reader : Reader ShaderKey :=
  checked (record
    [.of ["engine"] string fun (s : Option String × Option String) x => (some x, s.2),
     .of ["variant"] string fun s x => (s.1, some x)] (none, none)) fun
    | (some e, some v) => .ok ⟨e, v⟩
    | _ => .error .malformed

def UniformValue.toJson : UniformValue α → Json α
  | .flag b => .bool b
  | .scalar x => .float x
  | .vector xs => .arr (xs.map .float)

/-- The uniform that a value stands for: a flag, a number or an array of numbers. -/
def UniformValue.ofJson? : Json α → Option (UniformValue α)
  | .bool b => some (.flag b)
  | .arr items => (items.mapM asNumber?).map .vector
  | j => j.asNumber?.map .scalar

def Uniforms.toJson (u : Uniforms α) : Json α := .obj (u.map fun (k, v) => (k, v.toJson))

def Uniforms.reader : Reader (Uniforms α) :=
  table (checked value fun j => ofOption (UniformValue.ofJson? j))

end Segue
