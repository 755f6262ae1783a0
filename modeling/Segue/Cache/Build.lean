import Segue.Cache.Basic
import Segue.Media.Source
import Segue.Seek

/-!
# Building the frame cache

A build takes the frames of both clips position by position. `Build` says where one stands; it
leaves off at every phase that waits for something outside, and `Build.resume` goes on from there to
the next such phase. Whatever happens to the cache meanwhile, a build asks whether it has been
cancelled and whether it is still the latest one before it changes the cache.
-/

namespace Segue

open Scalar

inductive BuildFault (α : Type) where
  | noDuration
  | otherClips
  | timeline (e : Timeline.Error α)
  | noFrames
  /-- A clip lost its length on the way. -/
  | lostClip
  deriving Repr

def BuildFault.message {α : Type} [Numeral α] : BuildFault α → String
  | .noDuration => "source duration unavailable"
  | .otherClips => "sources do not match the cache request"
  | .timeline e => e.message
  | .noFrames => "timeline has no frames"
  | .lostClip => "source invalidated during build"

inductive BuildOutcome (α : Type) where
  | complete (frames : Nat)
  /-- The memory limit was reached; the frames so far can be used. -/
  | truncated (frames : Nat)
  | cancelled
  | failed (fault : BuildFault α)
  deriving Repr

def BuildOutcome.isSuccess {α : Type} : BuildOutcome α → Bool
  | .complete _ | .truncated _ => true
  | _ => false

namespace Build

inductive Phase (α : Type) where
  | called
  /-- The build that it replaces gets time to end. -/
  | grace
  | seeking (clip : Clip) (time : α)
  /-- A clip that was sought gets time to show its frame. -/
  | settling (clip : Clip)
  | report (progress : α)
  | ended (outcome : BuildOutcome α)
  deriving Repr

structure View (α : Type) where
  duration : Clip → Option α
  frame : Clip → Option Image

/-- The end of a captured frame's clip that is never sought, in seconds. -/
def seekMargin {α : Type} [Scalar α] : α := 0.001

/-- The time that the build replaced by a new one gets. -/
def grace : Duration := .ofMillis 100

end Build

structure Build (α : Type) where
  request : CacheRequest α
  generation : Nat
  params : Timeline.Params α
  total : Nat
  index : Nat
  /-- The frame of clip A at the present position. -/
  captured : Image
  phase : Build.Phase α

namespace Build

variable {α : Type} [Scalar α]

def make (request : CacheRequest α) : Build α where
  request
  generation := 0
  params := ⟨0.0, 0.0, 0.0, 0.0, 0.0, 0.0⟩
  total := 0
  index := 0
  captured := .blank 0 0
  phase := .called

abbrev Running (α : Type) := FrameCache α × Build α

def awaiting (phase : Phase α) (c : FrameCache α) (b : Build α) : Running α := (c, { b with phase })

def finish (outcome : BuildOutcome α) (c : FrameCache α) (b : Build α) : Running α :=
  (c.endBuild b.generation outcome.isSuccess, { b with phase := .ended outcome })

/-- A frame at the size of the cache; black if there is none. -/
def fit (c : FrameCache α) : Option Image → Image
  | some i =>
    if (i.width, i.height) = c.frameSize then i
    else c.resampler.resize i c.config.width c.config.height
  | none => .solid c.config.width c.config.height ⟨0, 0, 0, 255⟩

def sample (b : Build α) : Timeline.Sample α :=
  Timeline.resolve b.request.mode (Timeline.frameProgress b.index b.total) b.params

def store (c : FrameCache α) (b : Build α) (frameB : Image) : Running α :=
  if c.generation ≠ b.generation then finish .cancelled c b
  else
    let count := b.index + 1
    let progress := ofNat count / ofNat b.total
    let c := c.push ⟨b.captured, frameB, b.sample.progress⟩ progress
    if c.config.limitBytes < c.bytes then finish (.truncated count) c b
    else awaiting (.report progress) c b

/-- Seeks clip B for the present position; a clip without a length is black. -/
def enterB (v : View α) (c : FrameCache α) (b : Build α) : Running α :=
  match usableDuration (v.duration .b) with
  | none => store c b (fit c none)
  | some d => awaiting (.seeking .b (clampSeekTime b.sample.timeB d seekMargin)) c b

def captureA (v : View α) (c : FrameCache α) (b : Build α) (frame : Option Image) : Running α :=
  enterB v c { b with captured := fit c frame }

def enterA (v : View α) (c : FrameCache α) (b : Build α) : Running α :=
  match usableDuration (v.duration .a) with
  | none => captureA v c b none
  | some d => awaiting (.seeking .a (clampSeekTime b.sample.timeA d seekMargin)) c b

def capture (clip : Clip) (v : View α) (c : FrameCache α) (b : Build α) : Running α :=
  match clip with
  | .a => captureA v c b (v.frame .a)
  | .b => store c b (fit c (v.frame .b))

def bothUsable (v : View α) : Bool :=
  (usableDuration (v.duration .a)).isSome && (usableDuration (v.duration .b)).isSome

def enterPosition (v : View α) (c : FrameCache α) (b : Build α) : Running α :=
  if b.total ≤ b.index then finish (.complete b.total) c b
  else if c.isCancelled b.generation then finish .cancelled c b
  else if !bothUsable v then finish (.failed .lostClip) c b
  else enterA v c b

def plan (v : View α) (c : FrameCache α) (b : Build α) (durationA durationB : α) :
    Running α :=
  if !b.request.matchesClips durationA durationB then
    finish (.failed .otherClips) c b
  else
    match b.request.params durationA durationB c.margin with
    | .error e => finish (.failed (.timeline e)) c b
    | .ok params =>
      let total := Timeline.frameCount b.request.mode params b.request.fps
      if total = 0 then finish (.failed .noFrames) c b
      else enterPosition v { c with planned := total } { b with params, total, index := 0 }

def takeOver (v : View α) (c : FrameCache α) (b : Build α) : Running α :=
  let c := c.beginBuild b.request
  let b := { b with generation := c.generation }
  match usableDuration (v.duration .a), usableDuration (v.duration .b) with
  | some durationA, some durationB => plan v c b durationA durationB
  | _, _ => finish (.failed .noDuration) c b

/-- A build is called. One that is under way is cancelled and gets time to end. -/
def start (v : View α) (c : FrameCache α) (b : Build α) : Running α :=
  if c.building && c.token.isSome then awaiting .grace c.cancel b else takeOver v c b

/-- Goes on to the next phase that waits. A seek tells how it ended. -/
def resume (v : View α) (sought : SeekOutcome) (c : FrameCache α) (b : Build α) : Running α :=
  match b.phase with
  | .called => start v c b
  | .grace => takeOver v c b
  | .seeking clip _ =>
    if c.isCancelled b.generation then finish .cancelled c b
    else
      match sought with
      | .cancelled => finish .cancelled c b
      | .completed => awaiting (.settling clip) c b
      | .timedOut | .failed _ => capture clip v c b
  | .settling clip =>
    if c.isCancelled b.generation then finish .cancelled c b else capture clip v c b
  | .report _ => enterPosition v c { b with index := b.index + 1 }
  | .ended _ => (c, b)

def maxSteps (b : Build α) : Nat := 5 * b.total + 1

end Build

end Segue
