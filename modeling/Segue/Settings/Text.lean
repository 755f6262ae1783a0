import Segue.Json.Forms
import Segue.Settings.Basic

/-!
# The text of settings

Settings are kept as a JSON object. Missing fields have their standard values, points of the curve
and frames are written only if they are there, and the extra entries follow the fields.
-/

namespace Segue

open Json

/-! ## Frame rates -/

inductive FrameRateError (α : Type) where
  | negative
  | outOfRange (n : Int)
  | invalid (x : α)

def FrameRateError.message {α : Type} [Numeral α] : FrameRateError α → String
  | .negative => "frame rate must be non-negative"
  | .outOfRange n => s!"frame rate {n} is out of range"
  | .invalid x => s!"invalid frame rate {Numeral.messageText x}"

def maxFrameRate : Nat := 0xFFFFFFFF

/-- Frame rates are counts of 32 bits; a fraction is rounded to the nearest one. -/
def frameRateOf {α : Type} [Scalar α] : Json α → Except (Option (FrameRateError α)) UInt32
  | .null => .ok Settings.standardFps
  | .int n =>
    if n < 0 then .error (some .negative)
    else if (maxFrameRate : Int) < n then .error (some (.outOfRange n))
    else .ok n.toNat.toUInt32
  | .float x =>
    if !Scalar.isFinite x || decide (x < 0.0) || decide (Scalar.ofNat maxFrameRate < x) then
      .error (some (.invalid x))
    else .ok (Scalar.roundCount x).toUInt32
  | _ => .error none

namespace Settings

variable {α : Type} [Numeral α]

def frameRateReader : Reader UInt32 :=
  checked (value (α := α)) fun j => match frameRateOf j with
    | .ok n => .ok n
    | .error (some e) => .error (.stated e.message)
    | .error none => .error .malformed

/-- The fields of the record, in the order in which they are written. -/
def textFields : List (FieldReader (Settings α)) :=
  [.of ["engine"] string fun s x => { s with engine := x },
   .of ["variant"] string fun s x => { s with variant := x },
   .of ["duration"] number fun s x => { s with duration := x },
   .of ["fps"] (frameRateReader (α := α)) fun s x => { s with fps := x },
   .of ["intensity"] number fun s x => { s with intensity := x },
   .of ["easing"] string fun s x => { s with easing := x },
   .of ["curveP0"] (nullable Point.reader) fun s x => { s with curveP0 := x },
   .of ["curveC0"] (nullable Point.reader) fun s x => { s with curveC0 := x },
   .of ["curveC1"] (nullable Point.reader) fun s x => { s with curveC1 := x },
   .of ["curveP1"] (nullable Point.reader) fun s x => { s with curveP1 := x },
   .of ["clipAStart", "clip_a_start"] number fun s x => { s with startA := x },
   .of ["clipBStart", "clip_b_start"] number fun s x => { s with startB := x },
   .of ["exportFullVideos"] boolean fun s x => { s with fullVideos := x },
   .of ["use_source_fps"] boolean fun s x => { s with useSourceFps := x },
   .of ["preRenderedFrames"] (nullable (list FrameRef.reader)) fun s x => { s with frames := x }]

def setExtra (s : Settings α) (name : String) (j : Json α) : Settings α :=
  { s with extra := s.extra.insert name j }

def reader : Reader (Settings α) :=
  fields textFields (fun s name depth cs => do
    let (j, rest) ← value depth cs
    .ok (s.setExtra name j, rest)) standard

def parse (text : String) : Except Refusal (Settings α) := readAll reader text

/-- Reads the text of a settings file; a blank file holds the standard settings. -/
def parseFile (text : String) : Except Refusal (Settings α) :=
  if Text.allBlank text then .ok standard else parse text

def toJson (s : Settings α) : Json α :=
  let point (name : String) (p : Option (Point α)) : List (String × Json α) :=
    p.toList.map fun p => (name, p.toJson)
  .obj <|
    [("engine", .str s.engine), ("variant", .str s.variant), ("duration", .float s.duration),
     ("fps", .int s.fps.toNat), ("intensity", .float s.intensity), ("easing", .str s.easing)]
    ++ point "curveP0" s.curveP0 ++ point "curveC0" s.curveC0
    ++ point "curveC1" s.curveC1 ++ point "curveP1" s.curveP1
    ++ [("clipAStart", .float s.startA), ("clipBStart", .float s.startB),
        ("exportFullVideos", .bool s.fullVideos), ("use_source_fps", .bool s.useSourceFps)]
    ++ s.frames.toList.map (fun fs => ("preRenderedFrames", .arr (fs.map FrameRef.toJson)))
    ++ s.extra

def text (s : Settings α) : String := s.toJson.render .pretty

end Settings

end Segue
