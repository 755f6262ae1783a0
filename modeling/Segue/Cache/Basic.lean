import Segue.Config.Basic
import Segue.Image
import Segue.Settings.Basic

/-!
# The frame cache

Pairs of frames taken beforehand for a whole timeline, so that scrubbing reads pictures and seeks
nothing. The cache holds what its latest build has taken so far. Each build has a generation number
of its own, which also names the token that cancels it.
-/

namespace Segue

open Scalar

/-- What a cache is built for. The lengths stand for the clips. -/
structure CacheRequest (α : Type) where
  transition : α
  startA : α
  startB : α
  fps : α
  mode : Timeline.Mode
  durationA : α
  durationB : α
  deriving Repr

structure CachedFrame (α : Type) where
  frameA : Image
  frameB : Image
  progress : α
  deriving Repr

def CachedFrame.bytes {α : Type} (f : CachedFrame α) : Nat := f.frameA.bytes + f.frameB.bytes

structure CacheStatus (α : Type) where
  isBuilding : Bool
  isReady : Bool
  progress : α
  /-- In units of 2^20 bytes. -/
  memory : α
  deriving Repr

/-- The frames of both clips and the progress of the transition stand in three columns, one row a
position. -/
structure FrameCache (α : Type) where
  config : CacheConfig
  margin : α
  resampler : Resampler
  framesA : Array Image
  framesB : Array Image
  progresses : Array α
  planned : Nat
  bytes : Nat
  building : Bool
  progress : α
  /-- The number of builds and clearings so far. -/
  generation : Nat
  /-- The token of the build under way. -/
  token : Option Nat
  cancelled : List Nat
  request : Option (CacheRequest α)

variable {α : Type} [Scalar α]

namespace CacheRequest

/-- Covers the timeline of settings, sampled at a rate. -/
def ofSettings (s : Settings α) (fps durationA durationB : α) : CacheRequest α where
  transition := s.duration
  startA := s.startA
  startB := s.startB
  fps
  mode := s.mode
  durationA
  durationB

def same (r s : CacheRequest α) : Bool :=
  Scalar.same r.transition s.transition && Scalar.same r.startA s.startA
    && Scalar.same r.startB s.startB && Scalar.same r.fps s.fps && r.mode == s.mode
    && Scalar.same r.durationA s.durationA && Scalar.same r.durationB s.durationB

def closeTo (a b : α) : Bool := decide (abs (a - b) ≤ 1e-6)

/-- The lengths are those of the request, up to rounding. -/
def matchesClips (r : CacheRequest α) (durationA durationB : α) : Bool :=
  closeTo r.durationA durationA && closeTo r.durationB durationB

def params (r : CacheRequest α) (durationA durationB margin : α) :
    Except (Timeline.Error α) (Timeline.Params α) := do
  let p ← Timeline.Params.make r.transition r.startA r.startB durationA durationB
  .ok (p.withMargin margin)

end CacheRequest

/-- The entry shown at a position: the nearest earlier one of `count`. -/
def cacheIndex (progress : α) (count : Nat) : Option Nat :=
  if count = 0 then none
  else
    let progress := if isNaN progress then 0.0 else greatest progress 0.0
    some (min (toCount (progress * ofNat count)) (count - 1))

namespace FrameCache

def make (config : CacheConfig) (margin : α) (resampler : Resampler) : FrameCache α where
  config
  margin
  resampler
  framesA := #[]
  framesB := #[]
  progresses := #[]
  planned := 0
  bytes := 0
  building := false
  progress := 0.0
  generation := 0
  token := none
  cancelled := []
  request := none

/-! ## Reading -/

def frames (c : FrameCache α) : Clip → Array Image
  | .a => c.framesA
  | .b => c.framesB

def size (c : FrameCache α) : Nat := c.framesA.size

def isEmpty (c : FrameCache α) : Bool := c.size == 0

def frameSize (c : FrameCache α) : Nat × Nat := (c.config.width, c.config.height)

/-- Frames are there, and none are being added. -/
def isReady (c : FrameCache α) : Bool :=
  !c.building && !c.framesA.isEmpty && !c.framesB.isEmpty

/-- The entry in a row; a row without a progress counts as the beginning. -/
def row? (c : FrameCache α) (i : Nat) : Option (CachedFrame α) := do
  let frameA ← c.framesA[i]?
  let frameB ← c.framesB[i]?
  return ⟨frameA, frameB, c.progresses[i]?.getD 0.0⟩

def entryAt? (c : FrameCache α) (position : α) : Option (CachedFrame α) :=
  cacheIndex position (min c.framesA.size c.framesB.size) >>= c.row?

def frameAt? (c : FrameCache α) (clip : Clip) (position : α) : Option Image :=
  cacheIndex position (c.frames clip).size >>= ((c.frames clip)[·]?)

def needsRebuild (c : FrameCache α) (r : CacheRequest α) : Bool :=
  match c.request with
  | some s => !s.same r || (!c.building && c.framesA.isEmpty)
  | none => true

def status (c : FrameCache α) : CacheStatus α where
  isBuilding := c.building
  isReady := c.isReady
  progress := c.progress
  memory := ofNat c.bytes / 1048576.0

def isCancelled (c : FrameCache α) (token : Nat) : Bool := c.cancelled.contains token

/-! ## Changing -/

def cancel (c : FrameCache α) : FrameCache α :=
  { c with token := none, cancelled := c.token.toList ++ c.cancelled }

/-- Drops all frames and the request they are for. -/
def reset (c : FrameCache α) : FrameCache α :=
  { c with
    framesA := #[]
    framesB := #[]
    progresses := #[]
    planned := 0
    bytes := 0
    progress := 0.0
    request := none }

/-- Drops all frames and cancels the build under way. -/
def clear (c : FrameCache α) : FrameCache α :=
  { c.cancel.reset with generation := c.generation + 1, building := false }

def beginBuild (c : FrameCache α) (r : CacheRequest α) : FrameCache α :=
  let generation := c.generation + 1
  { c.cancel.reset with generation, building := true, token := some generation, request := some r }

/-- Ends the build of a generation; a build that is out of date changes nothing. -/
def endBuild (c : FrameCache α) (generation : Nat) (keep : Bool) : FrameCache α :=
  if c.generation = generation then
    let c := { c with building := false, token := none }
    if keep then c else c.reset
  else c

/-- Adds the next entry of a build with its share of the work. -/
def push (c : FrameCache α) (f : CachedFrame α) (progress : α) : FrameCache α :=
  { c with
    framesA := c.framesA.push f.frameA
    framesB := c.framesB.push f.frameB
    progresses := c.progresses.push f.progress
    bytes := c.bytes + f.bytes
    progress }

end FrameCache

end Segue
