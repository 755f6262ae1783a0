import Segue.Image
import Segue.Decimal.Numeral

/-!
# Outside reasons

Some errors come from outside: from the file system, or from a reader of a format. What they say is
not known here; a placeholder stands for it in the texts of the errors that they cause.
-/

namespace Segue

inductive Reason where
  | io | toml | json | image
  deriving DecidableEq, Repr

def Reason.text : Reason → String
  | .io => "<io>"
  | .toml => "<toml>"
  | .json => "<json>"
  | .image => "<image>"

/-!
## Sources

A source behaves like a player: it has a length, can be sought, and shows the frame at its present
position. A seek takes its time and may fail or never end.
-/

/-- The length assumed of a source that does not tell its own. -/
def Media.fallbackDuration : Float := 10.0

inductive MediaError where
  | unreadable (path : String)
  | undecodable (path : String)
  | empty (path : String)
  | frameRate (value : Float)
  | unavailable (what : String)
  deriving Repr

def MediaError.reason? : MediaError → Option Reason
  | .unreadable _ => some .io
  | .undecodable _ => some .image
  | .empty _ | .frameRate _ | .unavailable _ => none

def MediaError.message : MediaError → String
  | .unreadable path => s!"failed to read {path}: {Reason.text .io}"
  | .undecodable path => s!"failed to decode {path}: {Reason.text .image}"
  | .empty path => s!"no image frames found in {path}"
  | .frameRate x => s!"frame rate must be positive, got {Decimal.plain.render x}"
  | .unavailable what => s!"media unavailable: {what}"

structure Seeking (σ : Type) where
  source : σ
  /-- The time it takes in milliseconds; `none` for a seek that never ends. -/
  delay : Option Nat
  /-- The source afterwards; a seek that fails leaves it as it is meanwhile. -/
  result : Except MediaError σ

/-- Sources with state `σ` whose actions run in `m`. Numbers are of type `α`. -/
class Source (m : Type → Type) (α : outParam Type) (σ : Type) where
  /-- The length in seconds, `none` once the source is gone or before it is known. -/
  duration : σ → Option α
  frameRate : σ → Option α
  frame : σ → Option Image
  /-- Whether a seek lets other tasks run before it begins. -/
  givesWay : σ → Bool
  seek : σ → α → m (Seeking σ)
  duplicate : σ → m (Except MediaError σ)
  /-- The milliseconds until the length is known, and the source from then on. -/
  ready : σ → Nat × σ
  release : σ → m σ

def usableDuration {α : Type} [Scalar α] (duration : Option α) : Option α :=
  duration.filter Scalar.isPositive

end Segue
