import Segue.Curve
import Segue.Timeline
import Segue.Uniform
import Segue.Shader.Registry
import Segue.Json.Basic

/-!
# Transition settings

The record that describes one transition: which shader runs, how long, with which easing and
uniform overrides, and where the clips start. Values that are not settings stay in `extra`, where
flags, numbers and vectors of numbers count as uniform overrides.
-/

namespace Segue

open Scalar

structure FrameRef where
  name : String
  subfolder : String
  kind : String
  deriving DecidableEq, Repr, Inhabited

/-- The kind of a frame that says none. -/
def FrameRef.standardKind : String := "temp"

structure Settings (α : Type) where
  engine : String
  variant : String
  duration : α
  fps : UInt32
  intensity : α
  easing : String
  curveP0 : Option (Point α)
  curveC0 : Option (Point α)
  curveC1 : Option (Point α)
  curveP1 : Option (Point α)
  startA : α
  startB : α
  fullVideos : Bool
  useSourceFps : Bool
  frames : Option (List FrameRef)
  extra : Keyed (Json α)
  deriving Repr

namespace Settings

def standardEngine : String := "Dissolve"
def standardVariant : String := "powder"
def standardEasing : String := "linear"
def standardFps : UInt32 := 30

variable {α : Type} [Scalar α]

def standardDuration : α := 2.0
def standardIntensity : α := 1.0

def standard : Settings α where
  engine := standardEngine
  variant := standardVariant
  duration := standardDuration
  fps := standardFps
  intensity := standardIntensity
  easing := standardEasing
  curveP0 := none
  curveC0 := none
  curveC1 := none
  curveP1 := none
  startA := 0.0
  startB := 0.0
  fullVideos := false
  useSourceFps := false
  frames := none
  extra := []

def shaderKey (s : Settings α) : ShaderKey := ⟨s.engine, s.variant⟩

def mode (s : Settings α) : Timeline.Mode := .ofFullVideos s.fullVideos

/-- The easing curve, if all of its points are given. -/
def curve? (s : Settings α) : Option (Curve α) :=
  match s.curveP0, s.curveC0, s.curveC1, s.curveP1 with
  | some p0, some c0, some c1, some p1 => some (Curve.pinned p0 c0 c1 p1)
  | _, _, _, _ => none

def setCurve (s : Settings α) (c : Curve α) : Settings α :=
  { s with curveP0 := some c.p0, curveC0 := some c.c0, curveC1 := some c.c1, curveP1 := some c.p1 }

def clearCurve (s : Settings α) : Settings α :=
  { s with curveP0 := none, curveC0 := none, curveC1 := none, curveP1 := none }

/-- A complete curve wins over the name of an easing. -/
def easingSelection (s : Settings α) : EasingSelection α :=
  match s.curve? with
  | some c => .curve c
  | none => .named (.ofNameOrLinear s.easing)

/-- Names in `extra` that are neither settings nor uniforms. -/
def hostKeys : List String := ["isRealPreview"]

/-- The uniform value of an extra entry: a flag, a number, or numbers in a non-empty array. -/
def uniformOf? : Json α → Option (UniformValue α)
  | .bool b => some (.flag b)
  | .arr [] => none
  | .arr items => (items.mapM Json.asNumber?).map .vector
  | j => j.asNumber?.map .scalar

/-- The uniform overrides in `extra`. -/
def liveUniforms (s : Settings α) : Uniforms α :=
  s.extra.filterMap fun (name, j) =>
    if hostKeys.contains name then none else (uniformOf? j).map fun v => (name, v)

def entryOf : UniformValue α → Json α
  | .flag b => .bool b
  | .scalar x => .ofNumber x
  | .vector xs => .arr (xs.map .ofNumber)

def setUniform (s : Settings α) (name : String) (v : UniformValue α) : Settings α :=
  { s with extra := s.extra.insert name (entryOf v) }

/-- The frame rate to plan with: when asked for, the first source rate above one frame per second,
and otherwise that of the settings. -/
def effectiveFps (s : Settings α) (rates : List (Option α)) : α :=
  let planned : α := ofNat s.fps.toNat
  if s.useSourceFps then
    (rates.findSome? fun r => match r with
      | some x => if isFinite x && decide (1.0 < x) then some x else none
      | none => none).getD planned
  else planned

def timelineParams (s : Settings α) (durationA durationB margin : α) :
    Except (Timeline.Error α) (Timeline.Params α) := do
  let p ← Timeline.Params.make s.duration s.startA s.startB durationA durationB
  .ok (p.withMargin margin)

/-! ## Usable ranges -/

def orStandard (standard name : String) : String := if Text.allBlank name then standard else name

/-- The nearest value of a range; `standard` for a value that is not finite. -/
def clampOr (x lo hi standard : α) : α := if isFinite x then clamp x lo hi else standard

def clampFps (fps : UInt32) : UInt32 := if fps < 12 then 12 else if 60 < fps then 60 else fps

/-- Every field moved into the range that can be used. -/
def sanitized (s : Settings α) : Settings α :=
  { s with
    engine := orStandard standardEngine s.engine
    variant := orStandard standardVariant s.variant
    easing := orStandard standardEasing s.easing
    duration := clampOr s.duration 0.1 10.0 standardDuration
    fps := clampFps s.fps
    intensity := clampOr s.intensity 0.0 2.0 standardIntensity
    startA := clampOr s.startA (-600.0) 600.0 0.0
    startB := clampOr s.startB (-600.0) 600.0 0.0 }

/-! ## Equality -/

def samePoint : Option (Point α) → Option (Point α) → Bool
  | none, none => true
  | some p, some q => Scalar.same p.x q.x && Scalar.same p.y q.y
  | _, _ => false

def same (s t : Settings α) : Bool :=
  s.engine == t.engine && s.variant == t.variant && Scalar.same s.duration t.duration
    && s.fps == t.fps && Scalar.same s.intensity t.intensity && s.easing == t.easing
    && samePoint s.curveP0 t.curveP0 && samePoint s.curveC0 t.curveC0
    && samePoint s.curveC1 t.curveC1 && samePoint s.curveP1 t.curveP1
    && Scalar.same s.startA t.startA && Scalar.same s.startB t.startB
    && s.fullVideos == t.fullVideos && s.useSourceFps == t.useSourceFps
    && s.frames == t.frames && Json.sameMembers s.extra t.extra

end Settings

end Segue
