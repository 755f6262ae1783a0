import Segue.Compositor
import Segue.Config.Basic
import Segue.Export.Basic
import Segue.Seek

/-!
# Export runs

`Export` says where a run stands; it leaves off at every phase that waits for something outside, and
`Export.resume` goes on from there with the reply. Uploads are asked for in the order of the frames,
never more than the limit at a time, and their results go into the slot of their frame in whatever
order they come.
-/

namespace Segue

open Scalar

inductive ExportError (α : Type) where
  | sources (e : MediaError)
  | unsupported (width height : Nat)
  | timeline (e : Timeline.Error α)
  deriving Repr

def ExportError.message {α : Type} [Numeral α] : ExportError α → String
  | .sources e => s!"no usable source media: {e.message}"
  | .unsupported width height => s!"no GPU adapter available for a {width}x{height} export"
  | .timeline e => e.message

structure ExportJob (α : Type) where
  settings : Settings α
  registry : Registry α
  width : Nat
  height : Nat
  margin : α
  /-- The most uploads at a time; 0 counts as 1. -/
  concurrency : Nat
  format : FrameFormat

namespace Export

inductive Phase (α : Type) where
  | called
  /-- The duplicates get time to know their lengths. -/
  | readying
  | composing
  | seeking (clip : Clip) (time : α)
  | drawing (time : α) (shot : Shot α)
  | encoding (i : Image)
  | joining
  | report (progress : α)
  | ended (result : Except (ExportError α) (List FrameRef))

structure ClipFacts (α : Type) where
  duration : Option α
  frameRate : Option α

inductive Drawn where
  /-- No clip has shown a frame yet. -/
  | skipped
  | unreadable
  | picture (i : Image)

inductive Reply (α : Type) where
  | duplicated (a b : Option MediaError)
  /-- A clip that could not be duplicated has no facts. -/
  | ready (a b : ClipFacts α)
  | composed (supported : Bool)
  | sought (outcome : SeekOutcome)
  | drawn (d : Drawn)
  | finished (index : Nat) (ending : UploadEnd)
  /-- The wait is over. -/
  | done

end Export

structure Export (α : Type) where
  job : ExportJob α
  generation : Nat
  hasA : Bool
  hasB : Bool
  params : Timeline.Params α
  total : Nat
  index : Nat
  /-- The uploaded frames by index. -/
  slots : Array (Option FrameRef)
  uploaded : Nat
  /-- The uploads whose results have not been taken. -/
  pending : Nat
  /-- The frame that waits for room among the uploads. -/
  next : Option EncodedFrame
  phase : Export.Phase α

namespace Export

variable {α : Type} [Scalar α]

def make (job : ExportJob α) : Export α where
  job
  generation := 0
  hasA := false
  hasB := false
  params := ⟨0.0, 0.0, 0.0, 0.0, 0.0, 0.0⟩
  total := 0
  index := 0
  slots := #[]
  uploaded := 0
  pending := 0
  next := none
  phase := .called

abbrev Running (α : Type) := Exporter α × Export α

def awaiting (phase : Phase α) (e : Exporter α) (r : Export α) : Running α := (e, { r with phase })

def finish (result : Except (ExportError α) (List FrameRef)) (e : Exporter α) (r : Export α) :
    Running α :=
  (e.endRun r.generation, { r with phase := .ended result })

/-- The end of a run that was dropped; nobody sees its result. -/
def quit (e : Exporter α) (r : Export α) : Running α :=
  finish (.ok []) (e.dropUploads r.generation) r

def limit (r : Export α) : Nat := max r.job.concurrency 1

def mode (r : Export α) : Timeline.Mode := r.job.settings.mode

def sample (r : Export α) : Timeline.Sample α :=
  Timeline.resolve r.mode (Timeline.frameProgress r.index r.total) r.params

def uniforms (j : ExportJob α) : Uniforms α :=
  Uniforms.merge (j.registry.uniforms j.settings.shaderKey) j.settings.liveUniforms

/-! ## Uploads -/

/-- All frames are done with; waits for the uploads and stores the result. -/
def drain (e : Exporter α) (r : Export α) : Running α :=
  if r.pending = 0 then
    let frames := r.slots.toList.filterMap id
    finish (.ok frames) (e.onlyLatest r.generation fun e => { e with frames }) r
  else awaiting .joining e { r with next := none }

/-- Takes the result of an upload; the caller is told of every stored frame. -/
def record (index : Nat) (ending : UploadEnd) (e : Exporter α) (r : Export α) :
    Exporter α × Export α × Option α :=
  let r := { r with pending := r.pending - 1 }
  match ending with
  | .stored frame =>
    let uploaded := r.uploaded + 1
    let progress := ofNat uploaded / ofNat r.slots.size
    (e.onlyLatest r.generation fun e => { e with progress },
      { r with slots := r.slots.setIfInBounds index (some frame), uploaded }, some progress)
  | .failed _ | .skipped | .lost => (e, r, none)

/-! ## Frames -/

variable [Elementary α]

def shot (j : ExportJob α) (s : Timeline.Sample α) : Shot α where
  progress := single (j.settings.easingSelection.evaluate s.progress)
  intensity := single j.settings.intensity
  uniforms := uniforms j

def draw (e : Exporter α) (r : Export α) : Running α :=
  awaiting (.drawing (single r.sample.time) (shot r.job r.sample)) e r

def seekB (e : Exporter α) (r : Export α) : Running α :=
  if r.hasB then
    awaiting (.seeking .b (clampSeekTime r.sample.timeB r.params.durationB 0.0)) e r
  else draw e r

def enterFrame (e : Exporter α) (r : Export α) : Running α :=
  if r.total ≤ r.index || e.isCancelled r.generation then drain e r
  else if r.hasA then
    awaiting (.seeking .a (clampSeekTime r.sample.timeA r.params.durationA 0.0)) e r
  else seekB e r

def nextFrame (e : Exporter α) (r : Export α) : Running α :=
  enterFrame e { r with index := r.index + 1 }

/-- Asks for the upload of a frame as soon as there is room. -/
def makeRoom (frame : EncodedFrame) (e : Exporter α) (r : Export α) : Running α :=
  if r.limit ≤ r.pending then awaiting .joining e { r with next := some frame }
  else
    nextFrame (e.requestUpload r.generation frame) { r with next := none, pending := r.pending + 1 }

def afterJoin (e : Exporter α) (r : Export α) : Running α :=
  match r.next with
  | some frame => makeRoom frame e r
  | none => drain e r

/-! ## Phases -/

def duplicated (a b : Option MediaError) (e : Exporter α) (r : Export α) : Running α :=
  let e := e.beginRun
  let r := { r with generation := e.generation, hasA := a.isNone, hasB := b.isNone }
  match a, b with
  | some fault, some _ => finish (.error (.sources fault)) e r
  | _, _ => awaiting .readying e r

def durationOf (f : ClipFacts α) : α := (usableDuration f.duration).getD 10.0

def plan (a b : ClipFacts α) (e : Exporter α) (r : Export α) : Running α :=
  if e.isCancelled r.generation then finish (.ok []) e r
  else
    let s := r.job.settings
    match s.timelineParams (durationOf a) (durationOf b) r.job.margin with
    | .error fault => finish (.error (.timeline fault)) e r
    | .ok params =>
      let total := Timeline.frameCount s.mode params (s.effectiveFps [a.frameRate, b.frameRate])
      awaiting .composing e { r with params, total }

def composed (supported : Bool) (e : Exporter α) (r : Export α) : Running α :=
  if supported then
    enterFrame (e.onlyLatest r.generation fun e => { e with frameCount := r.total })
      { r with slots := Array.replicate r.total none, index := 0 }
  else finish (.error (.unsupported r.job.width r.job.height)) e r

def sought (clip : Clip) (outcome : SeekOutcome) (e : Exporter α) (r : Export α) : Running α :=
  if e.isCancelled r.generation || outcome = .cancelled then drain e r
  else
    match clip with
    | .a => seekB e r
    | .b => draw e r

def drawn (d : Drawn) (e : Exporter α) (r : Export α) : Running α :=
  match d with
  | .picture i => awaiting (.encoding i) e r
  | .skipped | .unreadable => nextFrame e r

def encoded (i : Image) (e : Exporter α) (r : Export α) : Running α :=
  match EncodedFrame.ofImage? r.index i r.job.format with
  | none => nextFrame e r
  | some frame => if e.isCancelled r.generation then drain e r else makeRoom frame e r

def finished (index : Nat) (ending : UploadEnd) (e : Exporter α) (r : Export α) : Running α :=
  match record index ending e r with
  | (e, r, some progress) => awaiting (.report progress) e r
  | (e, r, none) => afterJoin e r

/-- Goes on to the next phase that waits. A reply that was not asked for changes nothing. -/
def resume (reply : Reply α) (e : Exporter α) (r : Export α) : Running α :=
  match r.phase, reply with
  | .called, .duplicated a b => duplicated a b e r
  | .readying, .ready a b => plan a b e r
  | .composing, .composed supported => composed supported e r
  | .seeking clip _, .sought outcome => sought clip outcome e r
  | .drawing _ _, .drawn d => drawn d e r
  | .encoding i, .done => encoded i e r
  | .joining, .finished index ending => finished index ending e r
  | .report _, .done => afterJoin e r
  | _, _ => (e, r)

def maxSteps (r : Export α) : Nat := 6 * r.total + 2

end Export

end Segue
