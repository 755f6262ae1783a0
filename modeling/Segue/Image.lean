import Segue.Text.Blank

/-!
# Images and their formats

An image is a rectangle of pixels with red, green, blue and alpha of eight bits each. A rectangle in
one colour is kept as that colour. Frames are exported in one of a few image formats.
-/

namespace Segue

inductive FrameFormat where
  | webp | png | jpeg
  deriving DecidableEq, Repr, Inhabited

namespace FrameFormat

def all : List FrameFormat := [.webp, .png, .jpeg]

def name : FrameFormat → String
  | .webp => "webp"
  | .png => "png"
  | .jpeg => "jpeg"

def extension : FrameFormat → String
  | .webp => "webp"
  | .png => "png"
  | .jpeg => "jpg"

def mediaType : FrameFormat → String
  | .webp => "image/webp"
  | .png => "image/png"
  | .jpeg => "image/jpeg"

/-- A name that no format has, in lower case. -/
structure UnknownName where
  name : String
  deriving DecidableEq, Repr

def UnknownName.message (e : UnknownName) : String := s!"unsupported frame format '{e.name}'"

/-- The format of that name or file ending; blanks around it and case do not matter. -/
def ofName (s : String) : Except UnknownName FrameFormat :=
  let wanted := (Text.trim s).toLower
  match all.find? fun f => f.name == wanted || f.extension == wanted with
  | some f => .ok f
  | none => .error ⟨wanted⟩

end FrameFormat

structure Rgba where
  r : UInt8
  g : UInt8
  b : UInt8
  a : UInt8
  deriving DecidableEq, Repr, Inhabited

inductive Pixels where
  | solid (c : Rgba)
  /-- Row by row from the top left. -/
  | grid (cells : Array Rgba)
  deriving DecidableEq, Repr

structure Image where
  width : Nat
  height : Nat
  pixels : Pixels
  deriving DecidableEq, Repr

namespace Image

def solid (width height : Nat) (c : Rgba) : Image := ⟨width, height, .solid c⟩

def blank (width height : Nat) : Image := solid width height ⟨0, 0, 0, 0⟩

def bytes (i : Image) : Nat := 4 * i.width * i.height

def isEmpty (i : Image) : Bool := i.width = 0 || i.height = 0

def at? (i : Image) (x y : Nat) : Option Rgba :=
  if x < i.width ∧ y < i.height then
    match i.pixels with
    | .solid c => some c
    | .grid cells => cells[y * i.width + x]?
  else none

def first? (i : Image) : Option Rgba := i.at? 0 0

def isSolid (i : Image) : Bool :=
  match i.pixels with
  | .solid _ => true
  | .grid cells => cells.all fun c => some c = i.first?

/-- Colours without transparency. -/
def opaqueForm (i : Image) : Image :=
  let cover (c : Rgba) : Rgba := { c with a := 255 }
  match i.pixels with
  | .solid c => { i with pixels := .solid (cover c) }
  | .grid cells => { i with pixels := .grid (cells.map cover) }

def maxSide? : FrameFormat → Option Nat
  | .webp => some 16384
  | .jpeg => some 65535
  | .png => none

def fits (i : Image) (f : FrameFormat) : Bool :=
  !i.isEmpty && match maxSide? f with
    | some n => i.width ≤ n && i.height ≤ n
    | none => true

/-- What a file of that format keeps of an image: JPEG has no transparency. -/
def stored (i : Image) : FrameFormat → Image
  | .jpeg => i.opaqueForm
  | _ => i

end Image

/-- A way to bring images to another size. -/
structure Resampler where
  resize : Image → Nat → Nat → Image
  width_resize : ∀ i width height, (resize i width height).width = width
  height_resize : ∀ i width height, (resize i width height).height = height

end Segue
