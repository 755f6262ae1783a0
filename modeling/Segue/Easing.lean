import Segue.Scalar
import Segue.Text.Blank

/-!
# Easing functions

An easing maps linear progress to eased progress by a closed formula. Ten families come in three
variants each: `In` starts slowly, `Out` is its time reversal, `InOut` joins the two at one half.
The formulas of the power, back and bounce families are rational; the others use elementary
functions. Every function maps 0 to 0 and 1 to 1 and accepts arguments outside of the unit interval.
-/

namespace Segue

open Scalar Elementary

namespace Easing

inductive Family where
  | quad | cubic | quart | quint | sine | expo | circ | back | elastic | bounce
  deriving DecidableEq, Repr

/-- Which end of a motion is slow. -/
inductive Side where
  | into | out | inOut
  deriving DecidableEq, Repr

end Easing

inductive Easing where
  | linear
  | ease (side : Easing.Side) (family : Easing.Family)
  deriving DecidableEq, Repr

namespace Easing

instance : Inhabited Easing := ⟨.linear⟩

def Family.all : List Family :=
  [.quad, .cubic, .quart, .quint, .sine, .expo, .circ, .back, .elastic, .bounce]

def all : List Easing :=
  .linear :: Family.all.flatMap fun f => [.ease .into f, .ease .out f, .ease .inOut f]

def Family.name : Family → String
  | .quad => "Quad" | .cubic => "Cubic" | .quart => "Quart" | .quint => "Quint"
  | .sine => "Sine" | .expo => "Expo" | .circ => "Circ" | .back => "Back"
  | .elastic => "Elastic" | .bounce => "Bounce"

def Side.name : Side → String
  | .into => "easeIn" | .out => "easeOut" | .inOut => "easeInOut"

def name : Easing → String
  | .linear => "linear"
  | .ease side family => side.name ++ family.name

/-- A name that no easing has; holds the name without the blanks around it. -/
structure UnknownName where
  name : String
  deriving DecidableEq, Repr

def UnknownName.message (e : UnknownName) : String := s!"unknown easing function '{e.name}'"

/-- The easing of that name; blanks around the name and the case of its letters do not matter. -/
def ofName (s : String) : Except UnknownName Easing :=
  let wanted := Text.trim s
  match all.find? fun e => e.name.toLower == wanted.toLower with
  | some e => .ok e
  | none => .error ⟨wanted⟩

def ofNameOrLinear (s : String) : Easing :=
  match ofName s with
  | .ok e => e
  | .error _ => .linear

section Rational

variable {α : Type} [Scalar α]

def powerEase (n : Nat) (t : α) : Side → α
  | .into => power t n
  | .out => 1.0 - power (1.0 - t) n
  | .inOut =>
    if t < 0.5 then power 2.0 (n - 1) * power t n
    else 1.0 - power (-2.0 * t + 2.0) n / 2.0

def backPull : α := 1.70158

/-- The same for the variant that draws back on both sides. -/
def backPullBoth : α := backPull * 1.525

def backEase (t : α) : Side → α
  | .into => (backPull + 1.0) * power t 3 - backPull * t * t
  | .out => 1.0 + (backPull + 1.0) * power (t - 1.0) 3 + backPull * power (t - 1.0) 2
  | .inOut =>
    if t < 0.5 then
      power (2.0 * t) 2 * ((backPullBoth + 1.0) * 2.0 * t - backPullBoth) / 2.0
    else
      (power (2.0 * t - 2.0) 2 * ((backPullBoth + 1.0) * (t * 2.0 - 2.0) + backPullBoth) + 2.0)
        / 2.0

/-- Four parabolas, each lower than the one before, that end at 1. -/
def bounceOut (t : α) : α :=
  if t < 1.0 / 2.75 then 7.5625 * t * t
  else if t < 2.0 / 2.75 then
    let u := t - 1.5 / 2.75
    7.5625 * u * u + 0.75
  else if t < 2.5 / 2.75 then
    let u := t - 2.25 / 2.75
    7.5625 * u * u + 0.9375
  else
    let u := t - 2.625 / 2.75
    7.5625 * u * u + 0.984375

def bounceEase (t : α) : Side → α
  | .into => 1.0 - bounceOut (1.0 - t)
  | .out => bounceOut t
  | .inOut =>
    if t < 0.5 then (1.0 - bounceOut (1.0 - 2.0 * t)) / 2.0
    else (1.0 + bounceOut (2.0 * t - 1.0)) / 2.0

/-- The value of a family whose formula is rational, and `none` for the others. -/
def Family.rational? (family : Family) (side : Side) (t : α) : Option α :=
  match family with
  | .quad =>
    match side with
    | .out => some (1.0 - (1.0 - t) * (1.0 - t))
    | side => some (powerEase 2 t side)
  | .cubic => some (powerEase 3 t side)
  | .quart => some (powerEase 4 t side)
  | .quint => some (powerEase 5 t side)
  | .back => some (backEase t side)
  | .bounce => some (bounceEase t side)
  | _ => none

end Rational

section Elementary

variable {α : Type} [Scalar α] [Elementary α]

def sineEase (t : α) : Side → α
  | .into => 1.0 - cos (t * pi / 2.0)
  | .out => sin (t * pi / 2.0)
  | .inOut => -(cos (pi * t) - 1.0) / 2.0

/-- Whether the formula is replaced by its limit. -/
def atEnd (t : α) : Bool := same t 0.0 || same t 1.0

def expoEase (t : α) : Side → α
  | .into => if same t 0.0 then 0.0 else exp2 (10.0 * t - 10.0)
  | .out => if same t 1.0 then 1.0 else 1.0 - exp2 (-10.0 * t)
  | .inOut =>
    if atEnd t then t
    else if t < 0.5 then exp2 (20.0 * t - 10.0) / 2.0
    else (2.0 - exp2 (-20.0 * t + 10.0)) / 2.0

def circEase (t : α) : Side → α
  | .into => 1.0 - sqrt (1.0 - t * t)
  | .out => sqrt (1.0 - power (t - 1.0) 2)
  | .inOut =>
    if t < 0.5 then (1.0 - sqrt (1.0 - power (2.0 * t) 2)) / 2.0
    else (sqrt (1.0 - power (-2.0 * t + 2.0) 2) + 1.0) / 2.0

def elasticEase (t : α) (side : Side) : α :=
  if atEnd t then t
  else match side with
    | .into => -(exp2 (10.0 * t - 10.0)) * sin ((t * 10.0 - 10.75) * ((2.0 * pi) / 3.0))
    | .out => exp2 (-10.0 * t) * sin ((t * 10.0 - 0.75) * ((2.0 * pi) / 3.0)) + 1.0
    | .inOut =>
      let wave := sin ((20.0 * t - 11.125) * ((2.0 * pi) / 4.5))
      if t < 0.5 then -(exp2 (20.0 * t - 10.0) * wave) / 2.0
      else exp2 (-20.0 * t + 10.0) * wave / 2.0 + 1.0

def Family.apply (family : Family) (side : Side) (t : α) : α :=
  match family.rational? side t with
  | some y => y
  | none =>
    match family with
    | .sine => sineEase t side
    | .expo => expoEase t side
    | .circ => circEase t side
    | _ => elasticEase t side

/-- Eased progress at linear progress `t`; nothing is clamped. -/
def apply (e : Easing) (t : α) : α :=
  match e with
  | .linear => t
  | .ease side family => family.apply side t

end Elementary

end Easing

end Segue
