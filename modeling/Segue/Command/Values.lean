import Segue.Uniform
import Segue.Decimal.Read
import Segue.Text.Blank

/-!
# Argument values

Output sizes such as `1280x720` and uniform overrides such as `glow=0.5` or `tint=1,0,0`.
-/

namespace Segue.Command

/-- A size in pixels, neither side zero. -/
structure Size where
  width : Nat
  height : Nat
  deriving DecidableEq, Repr

inductive SizeError where
  | form
  | width (text : String)
  | height (text : String)
  | zero
  deriving DecidableEq, Repr

def SizeError.message : SizeError → String
  | .form => "expected WIDTHxHEIGHT"
  | .width t => s!"invalid width '{t}'"
  | .height t => s!"invalid height '{t}'"
  | .zero => "size must be greater than zero"

def maxSide : Nat := 0xFFFFFFFF

/-- Splits at the first `x` of either case. -/
def splitSize? (cs : List Char) : Option (List Char × List Char) :=
  let w := cs.takeWhile fun c => c ≠ 'x' && c ≠ 'X'
  match cs.drop w.length with
  | [] => none
  | _ :: h => some (w, h)

def parseSize (s : String) : Except SizeError Size :=
  match splitSize? (Text.trimChars s.toList) with
  | none => .error .form
  | some (w, h) =>
    let w := String.ofList (Text.trimChars w)
    let h := String.ofList (Text.trimChars h)
    match Decimal.readCount? maxSide w, Decimal.readCount? maxSide h with
    | none, _ => .error (.width w)
    | some _, none => .error (.height h)
    | some w, some h => if w = 0 || h = 0 then .error .zero else .ok ⟨w, h⟩

inductive OverrideError where
  | form
  | noName
  | tooMany (text : String)
  | vector (text : String)
  | scalar (text : String)
  deriving DecidableEq, Repr

def OverrideError.message : OverrideError → String
  | .form => "expected NAME=VALUE"
  | .noName => "uniform name must not be empty"
  | .tooMany t => s!"vector '{t}' has more than 4 components"
  | .vector t => s!"invalid vector value '{t}'"
  | .scalar t => s!"invalid uniform value '{t}'"

/-- Numbers separated by commas, four at most. -/
def parseVector (raw : List Char) : Except OverrideError (UniformValue Float) :=
  let parts := (Text.splitChars (· = ',') raw).map fun p => String.ofList (Text.trimChars p)
  match parts.mapM Decimal.read? with
  | none => .error (.vector (String.ofList raw))
  | some xs => if 4 < xs.length then .error (.tooMany (String.ofList raw)) else .ok (.vector xs)

/-- A truth value in any case, a vector if there is a comma, and otherwise a number. -/
def parseValue (raw : List Char) : Except OverrideError (UniformValue Float) :=
  let word := (String.ofList raw).toLower
  if word = "true" then .ok (.flag true)
  else if word = "false" then .ok (.flag false)
  else if raw.contains ',' then parseVector raw
  else
    match Decimal.read? (String.ofList raw) with
    | some x => .ok (.scalar x)
    | none => .error (.scalar (String.ofList raw))

/-- Reads `NAME=VALUE`. -/
def parseOverride (s : String) : Except OverrideError (String × UniformValue Float) :=
  match Text.splitOnce? '=' s.toList with
  | none => .error .form
  | some (name, raw) =>
    let name := Text.trimChars name
    if name.isEmpty then .error .noName
    else (parseValue (Text.trimChars raw)).map fun v => (String.ofList name, v)

end Segue.Command
