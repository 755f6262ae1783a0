import Segue.Easing

/-!
# Easing curves

A curve is a cubic Bézier whose x-axis is linear progress and whose y-axis is eased progress. Its
end points lie at `x = 0` and `x = 1`; the control points may leave the unit square. The value at
`x` is found by solving `x(t) = x` with Newton steps and taking `y(t)`.
-/

namespace Segue

open Scalar

structure Point (α : Type) where
  x : α
  y : α
  deriving Repr

/-- End points `p0`, `p1` and control points `c0`, `c1` of a cubic. -/
structure Curve (α : Type) where
  p0 : Point α
  c0 : Point α
  c1 : Point α
  p1 : Point α
  deriving Repr

namespace Curve

variable {α : Type} [Scalar α]

/-- The curve through these points, with the ends moved to `x = 0` and `x = 1`. -/
def pinned (p0 c0 c1 p1 : Point α) : Curve α :=
  ⟨⟨0.0, p0.y⟩, c0, c1, ⟨1.0, p1.y⟩⟩

def standard : Curve α := ⟨⟨0.0, 0.0⟩, ⟨0.4, 0.0⟩, ⟨0.6, 1.0⟩, ⟨1.0, 1.0⟩⟩

def diagonal : Curve α :=
  ⟨⟨0.0, 0.0⟩, ⟨1.0 / 3.0, 1.0 / 3.0⟩, ⟨2.0 / 3.0, 2.0 / 3.0⟩, ⟨1.0, 1.0⟩⟩

def points (c : Curve α) : List (Point α) := [c.p0, c.c0, c.c1, c.p1]

def isDiagonal (c : Curve α) : Bool := c.points.all fun p => same p.x p.y

/-- The cubic Bernstein polynomial with these coefficients. -/
def cubic (t a b c d : α) : α :=
  let mt := 1.0 - t
  mt * mt * mt * a + 3.0 * mt * mt * t * b + 3.0 * mt * t * t * c + t * t * t * d

def cubicSlope (t a b c d : α) : α :=
  let mt := 1.0 - t
  3.0 * mt * mt * (b - a) + 6.0 * mt * t * (c - b) + 3.0 * t * t * (d - c)

def xAt (curve : Curve α) (t : α) : α :=
  cubic t curve.p0.x curve.c0.x curve.c1.x curve.p1.x

def yAt (curve : Curve α) (t : α) : α :=
  cubic t curve.p0.y curve.c0.y curve.c1.y curve.p1.y

def xSlopeAt (curve : Curve α) (t : α) : α :=
  cubicSlope t curve.p0.x curve.c0.x curve.c1.x curve.p1.x

/-- At most that many Newton steps towards `x(t) = x`; stops where the curve is nearly vertical in
`t` or the solution is near enough. -/
def solve (curve : Curve α) (x : α) : Nat → α → α
  | 0, t => t
  | n + 1, t =>
    let slope := curve.xSlopeAt t
    if abs slope < 1e-6 then t
    else
      let diff := curve.xAt t - x
      if abs diff < 1e-4 then t else solve curve x n (t - diff / slope)

def newtonSteps : Nat := 20

def valueAt (curve : Curve α) (x : α) : α :=
  if x ≤ curve.p0.x then curve.p0.y
  else if curve.p1.x ≤ x then curve.p1.y
  else if curve.isDiagonal then x
  else curve.yAt (clamp (curve.solve x newtonSteps x) 0.0 1.0)

end Curve

inductive EasingSelection (α : Type) where
  | named (e : Easing)
  | curve (c : Curve α)
  deriving Repr

namespace EasingSelection

instance {α : Type} : Inhabited (EasingSelection α) := ⟨.named .linear⟩

def evaluate {α : Type} [Scalar α] [Elementary α] (s : EasingSelection α) (t : α) : α :=
  match s with
  | .named e => e.apply t
  | .curve c => c.valueAt t

end EasingSelection

end Segue
