import Segue.Cache.Perform
import Segue.Compositor

/-!
# Preview

One picture per position, from the frame cache if it was built for the same timeline, and otherwise
from the clips themselves after a bounded seek.
-/

namespace Segue

open Scalar

structure PreviewFrame (α : Type) where
  sample : Timeline.Sample α
  eased : α
  fromCache : Bool
  /-- False if there was nothing to draw. -/
  drawn : Bool
  deriving Repr

structure Preview (α : Type) where
  key : ShaderKey
  mode : Timeline.Mode
  params : Timeline.Params α
  easing : EasingSelection α
  /-- In single precision. -/
  intensity : α
  uniforms : Uniforms α
  seekTimeout : Duration
  request : CacheRequest α

namespace Preview

variable {α : Type} [Scalar α]

def liveSeekTimeout : Duration := .ofMillis 1000

def make (s : Settings α) (r : Registry α) (durationA durationB margin : α) :
    Except (Timeline.Error α) (Preview α) := do
  let params ← s.timelineParams durationA durationB margin
  .ok
    { key := s.shaderKey
      mode := s.mode
      params
      easing := s.easingSelection
      intensity := single s.intensity
      uniforms := Uniforms.merge (r.uniforms s.shaderKey) s.liveUniforms
      seekTimeout := liveSeekTimeout
      request := .ofSettings s (ofNat s.fps.toNat) durationA durationB }

def withCacheFps (p : Preview α) (fps : α) : Preview α :=
  { p with request := { p.request with fps } }

def sample (p : Preview α) (position : α) : Timeline.Sample α :=
  Timeline.resolve p.mode position p.params

/-- The entry of a cache that is ready and was built for this preview. -/
def cached? (p : Preview α) (c : FrameCache α) (position : α) : Option (CachedFrame α) :=
  if c.isReady && !c.needsRebuild p.request then c.entryAt? position else none

variable [Elementary α]

def eased (p : Preview α) (progress : α) : α := p.easing.evaluate progress

def shot (p : Preview α) (progress : α) : Shot α :=
  ⟨single (p.eased progress), p.intensity, p.uniforms⟩

section Drawing

variable {m : Type → Type} [Monad m] {κ : Type} [Compositor m α κ]

def prepare (p : Preview α) (r : Registry α) (k : κ) : m (ActiveProgram × κ) :=
  Compositor.useVariant k r p.key

def draw (p : Preview α) (progress : α) (imageA imageB : Option Image) (k : κ) :
    m (Bool × κ) := do
  let k ← Compositor.show k .a imageA
  let k ← Compositor.show k .b imageB
  Compositor.render k (p.shot progress)

def renderCached (p : Preview α) (c : FrameCache α) (position : α) (k : κ) :
    m (Option (PreviewFrame α) × κ) := do
  match p.cached? c position with
  | none => return (none, k)
  | some f =>
    let (drawn, k) ← p.draw f.progress (some f.frameA) (some f.frameB) k
    return (some ⟨p.sample position, p.eased f.progress, true, drawn⟩, k)

variable {σ : Type} [Source m α σ]

def renderLive (p : Preview α) (cancelled : m Bool) (position : α) (k : κ) (a b : σ) :
    Task m (PreviewFrame α × κ × σ × σ) := do
  let s := p.sample position
  let (outcomeA, a) ← seekBounded p.seekTimeout.millis cancelled a s.timeA
  let (outcomeB, b) ← seekBounded p.seekTimeout.millis cancelled b s.timeB
  let eased := p.eased s.progress
  if outcomeA = .cancelled || outcomeB = .cancelled then
    return (⟨s, eased, false, false⟩, k, a, b)
  let (drawn, k) ←
    (p.draw s.progress (Source.frame m a) (Source.frame m b) k : m (Bool × κ))
  return (⟨s, eased, false, drawn⟩, k, a, b)

/-- Draws from the cache, or else from the clips. -/
def render (p : Preview α) (c : FrameCache α) (cancelled : m Bool) (position : α) (k : κ)
    (a b : σ) : Task m (PreviewFrame α × κ × σ × σ) := do
  match ← (p.renderCached c position k : m _) with
  | (some f, k) => return (f, k, a, b)
  | (none, k) => p.renderLive cancelled position k a b

end Drawing

end Preview

end Segue
