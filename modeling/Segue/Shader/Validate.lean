import Segue.Shader.Wrap
import Segue.Glsl.Program
import Segue.Text.Blank

/-!
# Validating fragments

A wrapped fragment is checked as a program, and the line of a fault is led back to the fragment.
The device gives a program a fixed set of resources; a program that is valid but reads anything
else is refused by the device. A shader that does not compile leaves an error that says why, and the
lines around the fault can be shown.
-/

namespace Segue.Shader

/-! ## Errors -/

/-- Why a shader does not compile. Lines count from 1 in the fragment; a fault outside of it has
none. -/
inductive CompileError where
  | parse (line : Option Nat) (message : String)
  | validation (line : Option Nat) (message : String)
  | device (message : String)
  deriving DecidableEq, Repr

namespace CompileError

def line? : CompileError → Option Nat
  | .parse line _ => line
  | .validation line _ => line
  | .device _ => none

def atLine : Option Nat → String
  | some n => s!" at line {n}"
  | none => ""

def message : CompileError → String
  | .parse line m => s!"GLSL parse error{atLine line}: {m}"
  | .validation line m => s!"shader validation failed{atLine line}: {m}"
  | .device m => s!"device rejected shader: {m}"

end CompileError

/-- A number in at least four places. -/
def lineNumber (n : Nat) : List Char :=
  let ds := (toString n).toList
  List.replicate (4 - ds.length) ' ' ++ ds

/-- A line with its number; the faulty one is marked. -/
def excerptLine (line number : Nat) (text : List Char) : String :=
  let marker := if number = line then ">>>" else "   "
  String.ofList (marker.toList ++ lineNumber number ++ " | ".toList ++ text)

/-- The lines of a source that are at most `context` away from `line`. -/
def excerpt (source : String) (line context : Nat) : String :=
  let first := max (line - context) 1
  let last := line + context
  let numbered := (Text.linesOf source.toList).zipIdx.map fun (t, i) => (i + 1, t)
  "\n".intercalate
    ((numbered.filter fun (n, _) => first ≤ n && n ≤ last).map fun (n, t) => excerptLine line n t)

/-! ## Checking -/

open Segue.Glsl (Binding Needs Ty)

/-- A text for errors whose words are those of the checker. -/
def checkerWords : String := "<shader>"

/-- Checks a wrapped fragment; gives what it needs of the device. -/
def Wrapped.check (w : Wrapped) : Except CompileError Needs :=
  match Glsl.check w.text.toList with
  | .ok needs => .ok needs
  | .error (.unreadable line?) => .error (.parse (line?.bind w.bodyLine?) checkerWords)
  | .error (.invalid line?) => .error (.validation (line?.bind w.bodyLine?) checkerWords)

def Wrapped.validate (w : Wrapped) : Except CompileError Unit := w.check.map fun _ => ()

/-- What the device has for programs: two blocks of numbers that can be read, two flat pictures and
a sampler. -/
def isBound (b : Binding) : Bool :=
  b.set = 0 &&
  match b.binding, b.space, b.content with
  | 0, .uniform, _ | 4, .uniform, _ => true
  | 1, _, .image "2D" .float false | 2, _, .image "2D" .float false => true
  | 3, _, .sampler false => true
  | _, _, _ => false

/-- The one value that comes into every fragment: where on the screen it is. -/
def isGiven (input : Nat × Ty) : Bool := input = (0, .vector 2 .float)

def isProvided (n : Needs) : Bool :=
  n.bindings.all isBound && n.inputs.all isGiven && !n.isDemanding

/-- Compiles a fragment on a device that accepts all programs it has the resources for. -/
def compile (source : String) : Except CompileError Wrapped := do
  let w := wrap source
  let needs ← w.check
  if isProvided needs then return w else throw (.device checkerWords)

end Segue.Shader
