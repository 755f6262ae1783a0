import Segue.Disk
import Segue.Media.Source

/-!
# Still images, image sequences and footage

An image shown as a clip of fixed length.
-/

namespace Segue

section

variable {m : Type → Type} [Monad m] [FileSystem m]

def Media.formatOf? (path : String) : Option FrameFormat :=
  match (Path.extension? path).map String.toLower with
  | some "png" => some .png
  | some "webp" => some .webp
  | some "jpg" | some "jpeg" => some .jpeg
  | _ => none

/-- The image in a file, whose name has to tell its format. -/
def Media.readImage (path : String) : m (Except MediaError Image) := do
  match ← FileSystem.read? path with
  | some (.image format i) =>
    return if Media.formatOf? path = some format then .ok i else .error (.undecodable path)
  | _ => return .error (.undecodable path)

end

structure Still where
  image : Image
  duration : Float

namespace Still

def ofImage (image : Image) : Still := ⟨image, Media.fallbackDuration⟩

/-- Sets the length; one that cannot be planned with is passed over. -/
def withDuration (s : Still) (duration : Float) : Still :=
  if Scalar.isPositive duration then { s with duration } else s

def openFile {m : Type → Type} [Monad m] [FileSystem m] (path : String) :
    m (Except MediaError Still) := do
  return (← Media.readImage path).map ofImage

end Still

end Segue

namespace Segue

/-!
## Image sequences

The images of a directory, in the order of their names, played at a fixed rate. A handle shows
nothing before it is first sought, and it is dead once released.
-/

structure ImageSequence where
  root : String
  frames : Array String
  fps : Float
  position : Option Nat
  frame : Option Image
  released : Bool

namespace ImageSequence

def frameExtensions : List String := ["png", "jpg", "jpeg", "webp"]

def isFrameName (name : String) : Bool :=
  match Path.extension? name with
  | some e => frameExtensions.contains e.toLower
  | none => false

variable {m : Type → Type} [Monad m] [FileSystem m]

def openDirectory (root : String) (fps : Float) : m (Except MediaError ImageSequence) := do
  if !Scalar.isPositive fps then return .error (.frameRate fps)
  match ← FileSystem.names? root with
  | none => return .error (.unreadable root)
  | some names =>
    let paths := (names.mergeSort (decide <| · ≤ ·)).filter isFrameName |>.map (Path.join root)
    let frames ← paths.filterM fun p => return (← FileSystem.kind p) = .file
    if frames.isEmpty then return .error (.empty root)
    return .ok ⟨root, frames.toArray, fps, none, none, false⟩

def size (s : ImageSequence) : Nat := s.frames.size

def frameIndex (s : ImageSequence) (time : Float) : Nat :=
  if !time.isFinite || time ≤ 0.0 then 0
  else min (Scalar.toCount (time * s.fps)) (s.size - 1)

def duration (s : ImageSequence) : Option Float :=
  if s.released then none else some (Float.ofNat s.size / s.fps)

/-- Shows the frame at a time, and says whether that went well. The image is read before the handle
changes; the frame that is shown already is not read again. -/
def seek (s : ImageSequence) (time : Float) : m (Except MediaError Unit × ImageSequence) := do
  if s.released then return (.error (.unavailable s.root), s)
  let index := s.frameIndex time
  if s.position = some index && s.frame.isSome then return (.ok (), s)
  match ← Media.readImage (s.frames.getD index "") with
  | .error e => return (.error e, s)
  | .ok i => return (.ok (), { s with position := some index, frame := some i })

def duplicate (s : ImageSequence) : Except MediaError ImageSequence :=
  if s.released then .error (.unavailable s.root)
  else .ok { s with position := none, frame := none }

def release (s : ImageSequence) : ImageSequence :=
  { s with position := none, frame := none, released := true }

end ImageSequence

end Segue

namespace Segue

/-!
## Footage

A clip on disk: one image, or a directory of frames.
-/

inductive Footage where
  | still (s : Still)
  | frames (s : ImageSequence)

inductive FootageError where
  | directory (path : String) (e : MediaError)
  | image (path : String) (e : MediaError)
  deriving Repr

def FootageError.chain : FootageError → List String
  | .directory path e =>
    [s!"failed to open frame directory {path}", e.message] ++ (e.reason?.map Reason.text).toList
  | .image path e =>
    [s!"failed to open image {path}", e.message] ++ (e.reason?.map Reason.text).toList

namespace Footage

variable {m : Type → Type} [Monad m] [FileSystem m]

/-- Opens a clip. A still image gets a length, and a directory a frame rate. -/
def openPath (path : String) (sequenceFps stillDuration : Float) :
    m (Except FootageError Footage) := do
  if (← FileSystem.kind path) = .directory then
    return match ← ImageSequence.openDirectory path sequenceFps with
      | .ok s => .ok (.frames s)
      | .error e => .error (.directory path e)
  else
    return match ← Still.openFile path with
      | .ok s => .ok (.still (s.withDuration stillDuration))
      | .error e => .error (.image path e)

def duration : Footage → Option Float
  | .still s => some s.duration
  | .frames s => s.duration

def frameRate : Footage → Option Float
  | .still _ => none
  | .frames s => some s.fps

def frame : Footage → Option Image
  | .still s => some s.image
  | .frames s => s.frame

def seekTo (f : Footage) (time : Float) : m (Except MediaError Unit × Footage) := do
  match f with
  | .still s => return (.ok (), .still s)
  | .frames s =>
    let (result, s) ← s.seek time
    return (result, .frames s)

def duplicate : Footage → Except MediaError Footage
  | .still s => .ok (.still s)
  | .frames s => s.duplicate.map .frames

def release : Footage → Footage
  | .still s => .still s
  | .frames s => .frames s.release

/-- Footage is ready at once, and seeks take no time. -/
instance : Source m Float Footage where
  duration := duration
  frameRate := frameRate
  frame := frame
  givesWay _ := false
  seek f time := do
    match ← f.seekTo time with
    | (.ok _, landed) => return ⟨f, some 0, .ok landed⟩
    | (.error e, left) => return ⟨left, some 0, .error e⟩
  duplicate f := return f.duplicate
  ready f := (0, f)
  release f := return f.release

end Footage

end Segue
