import Segue.Scalar

/-!
# Timeline

Maps a position in the output, as a number from 0 to 1, to the times at which the two clips are
sampled and to the progress of the transition. Live preview, frame cache and export resolve their
positions here, so they cannot drift apart.

* In `transitionOnly` mode both clips play side by side from their start offsets.
* In `fullSequence` mode clip A plays alone, both overlap, and clip B plays on alone.
-/

namespace Segue

open Scalar

inductive Clip where
  | a | b
  deriving DecidableEq, Repr

def Clip.letter : Clip → String
  | .a => "A"
  | .b => "B"

namespace Timeline

inductive Phase where
  | clipA | transition | clipB
  deriving DecidableEq, Repr

inductive Mode where
  | transitionOnly | fullSequence
  deriving DecidableEq, Repr

def Mode.ofFullVideos (full : Bool) : Mode := if full then .fullSequence else .transitionOnly

inductive Error (α : Type) where
  | transitionDuration (value : α)
  | clipDuration (clip : Clip) (value : α)
  deriving Repr

def Error.message {α : Type} [Numeral α] : Error α → String
  | .transitionDuration x =>
    s!"transition duration must be positive and finite, got {Numeral.messageText x}"
  | .clipDuration c x =>
    s!"clip {c.letter} duration must be positive and finite, got {Numeral.messageText x}"

/-- Durations and start offsets in seconds. A negative offset counts back from the clip's end. -/
structure Params (α : Type) where
  transition : α
  startA : α
  startB : α
  durationA : α
  durationB : α
  /-- Kept free at the end of each clip, where decoders tend to stall. -/
  margin : α
  deriving Repr

structure Sample (α : Type) where
  progress : α
  timeA : α
  timeB : α
  phase : Phase
  total : α
  time : α
  deriving Repr

variable {α : Type} [Scalar α]

def defaultMargin : α := 0.04

def finiteOrZero (x : α) : α := if isFinite x then x else 0.0

namespace Params

/-- Accepts positive finite durations; an offset that is not finite becomes 0. -/
def make (transition startA startB durationA durationB : α) : Except (Error α) (Params α) :=
  if !isPositive transition then .error (.transitionDuration transition)
  else if !isPositive durationA then .error (.clipDuration .a durationA)
  else if !isPositive durationB then .error (.clipDuration .b durationB)
  else .ok
    { transition, startA := finiteOrZero startA, startB := finiteOrZero startB
      durationA, durationB, margin := defaultMargin }

def withMargin (p : Params α) (margin : α) : Params α := { p with margin := greatest margin 0.0 }

def resolveStart (start duration : α) : α :=
  if start < 0.0 then greatest (duration + start) 0.0 else start

def startTimeA (p : Params α) : α := resolveStart p.startA p.durationA

def startTimeB (p : Params α) : α := resolveStart p.startB p.durationB

def total (p : Params α) : Mode → α
  | .transitionOnly => p.transition
  | .fullSequence => p.durationA + p.transition + p.durationB

end Params

def clampToClip (time duration margin : α) : α := greatest (least time (duration - margin)) 0.0

def Params.clampA (p : Params α) (time : α) : α := clampToClip time p.durationA p.margin

def Params.clampB (p : Params α) (time : α) : α := clampToClip time p.durationB p.margin

def normalize (progress : α) : α := if isNaN progress then 0.0 else clamp progress 0.0 1.0

def resolveTransition (position : α) (p : Params α) : Sample α :=
  let progress := normalize position
  let elapsed := progress * p.transition
  { progress
    timeA := p.clampA (p.startTimeA + elapsed)
    timeB := p.clampB (p.startTimeB + elapsed)
    phase := .transition
    total := p.transition
    time := elapsed }

def resolveFull (position : α) (p : Params α) : Sample α :=
  let total := p.total .fullSequence
  let time := normalize position * total
  let first := p.durationA
  let last := p.durationA + p.transition
  if time < first then
    { progress := 0.0, timeA := p.clampA time, timeB := 0.0, phase := .clipA, total, time }
  else if time < last then
    let elapsed := time - first
    -- clip A plays on past its end, where the clamp holds it at its last safe frame
    { progress := clamp (elapsed / p.transition) 0.0 1.0
      timeA := p.clampA (p.durationA + elapsed)
      timeB := p.clampB elapsed
      phase := .transition, total, time }
  else
    { progress := 1.0
      timeA := p.clampA p.durationA
      timeB := p.clampB (p.transition + (time - last))
      phase := .clipB, total, time }

def resolve (mode : Mode) (position : α) (p : Params α) : Sample α :=
  match mode with
  | .transitionOnly => resolveTransition position p
  | .fullSequence => resolveFull position p

/-- The number of output frames; 0 for a frame rate that is not positive. -/
def frameCount (mode : Mode) (p : Params α) (fps : α) : Nat :=
  if isPositive fps then ceilCount (p.total mode * fps) else 0

/-- The position of frame `index` among `count`; a single frame stands at 0. -/
def frameProgress (index count : Nat) : α := ofNat index / ofNat (max (count - 1) 1)

end Timeline

/-- The nearest time at which a clip can be sought; 0 for a time that is not finite. -/
def clampSeekTime {α : Type} [Scalar α] (time duration margin : α) : α :=
  if isFinite time then greatest (least time (duration - margin)) 0.0 else 0.0

end Segue
