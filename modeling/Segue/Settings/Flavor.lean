import Segue.Settings.Basic

/-!
# Flavors

A flavor is a named preset that sets the intensity and the easing curve together.
-/

namespace Segue

inductive Flavor where
  | clean | dreamy | gritty | punchy
  deriving DecidableEq, Repr

namespace Flavor

def all : List Flavor := [.clean, .dreamy, .gritty, .punchy]

def name : Flavor → String
  | .clean => "clean"
  | .dreamy => "dreamy"
  | .gritty => "gritty"
  | .punchy => "punchy"

structure UnknownName where
  name : String
  deriving DecidableEq, Repr

def UnknownName.message (e : UnknownName) : String := s!"unknown flavor '{e.name}'"

/-- The flavor of that name; blanks around it and the case of its letters do not matter. -/
def ofName (s : String) : Except UnknownName Flavor :=
  match all.find? fun f => f.name == (Text.trim s).toLower with
  | some f => .ok f
  | none => .error ⟨s⟩

variable {α : Type} [Scalar α]

def intensity : Flavor → α
  | .clean => 1.0
  | .dreamy => 1.6
  | .gritty => 1.8
  | .punchy => 2.0

/-- Slow at both ends, with the control points at these abscissas. -/
def curve (f : Flavor) : Curve α :=
  let c : α × α := match f with
    | .clean => (0.4, 0.6)
    | .dreamy => (0.5, 0.5)
    | .gritty => (0.1, 0.9)
    | .punchy => (0.8, 0.2)
  Curve.pinned ⟨0.0, 0.0⟩ ⟨c.1, 0.0⟩ ⟨c.2, 1.0⟩ ⟨1.0, 1.0⟩

def apply (f : Flavor) (s : Settings α) : Settings α :=
  { s with intensity := f.intensity }.setCurve f.curve

end Flavor

end Segue
