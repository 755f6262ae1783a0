import Segue.Disk
import Segue.Media.Source
import Segue.Settings.Basic

/-!
# Exported frames

An exported frame is a file whose name tells its place in the sequence.
-/

namespace Segue

structure EncodedFrame where
  index : Nat
  name : String
  format : FrameFormat
  content : Content

namespace EncodedFrame

def fiveDigits (n : Nat) : String :=
  let digits := Nat.toDigits 10 n
  String.ofList (List.replicate (5 - digits.length) '0' ++ digits)

def fileName (index : Nat) (format : FrameFormat) : String :=
  s!"frame_{fiveDigits index}.{format.extension}"

/-- The file of an image; there is none for an image that the format cannot hold. -/
def ofImage? (index : Nat) (i : Image) (format : FrameFormat) : Option EncodedFrame :=
  if i.fits format then
    some ⟨index, fileName index format, format, .image format (i.stored format)⟩
  else none

end EncodedFrame

/-!
## Exports

An exporter renders every frame of a transition and hands it to an uploader. `Exporter` is what the
runs of one exporter share: the state shown to hosts, and the uploads. Each run has a generation
number of its own, which also names the token that cancels it.

An upload waits until it is begun, is then under way, and is finished until its run takes its
result.
-/

inductive UploadError where
  | unwritable (path : String)
  | refused
  deriving DecidableEq, Repr

inductive UploadEnd where
  | stored (frame : FrameRef)
  | failed (e : UploadError)
  /-- The run had been cancelled before the upload began. -/
  | skipped
  /-- The upload broke down without an answer. -/
  | lost
  deriving DecidableEq, Repr

class Uploader (m : Type → Type) where
  /-- Uploads a frame: the milliseconds it takes, and how it ends. -/
  upload : EncodedFrame → m (Nat × UploadEnd)

structure WaitingUpload where
  run : Nat
  frame : EncodedFrame

structure RunningUpload where
  run : Nat
  index : Nat
  /-- When it will end, in milliseconds. -/
  due : Nat
  ending : UploadEnd

structure FinishedUpload where
  run : Nat
  index : Nat
  ending : UploadEnd

structure ExportStatus (α : Type) where
  isExporting : Bool
  progress : α
  frameCount : Nat
  deriving Repr

structure Exporter (α : Type) where
  exporting : Bool
  progress : α
  frameCount : Nat
  /-- The frames of the latest run that came to its end. -/
  frames : List FrameRef
  generation : Nat
  /-- The token of the run under way. -/
  token : Option Nat
  cancelled : List Nat
  /-- In the order in which the runs asked for them. -/
  waiting : List WaitingUpload
  running : List RunningUpload
  /-- In the order in which they ended. -/
  finished : List FinishedUpload

namespace Exporter

variable {α : Type} [Scalar α]

def make : Exporter α where
  exporting := false
  progress := 0.0
  frameCount := 0
  frames := []
  generation := 0
  token := none
  cancelled := []
  waiting := []
  running := []
  finished := []

def status (e : Exporter α) : ExportStatus α := ⟨e.exporting, e.progress, e.frameCount⟩

def isCancelled (e : Exporter α) (token : Nat) : Bool := e.cancelled.contains token

/-- Cancels the run under way; uploads that have begun still finish. -/
def abort (e : Exporter α) : Exporter α :=
  { e with exporting := false, cancelled := e.token.toList ++ e.cancelled }

/-- Aborts and forgets the latest result. -/
def clear (e : Exporter α) : Exporter α :=
  { e.abort with frames := [], progress := 0.0, frameCount := 0 }

/-- Begins a run; it gets the next generation, and a run under way is cancelled. -/
def beginRun (e : Exporter α) : Exporter α :=
  let generation := e.generation + 1
  { e with
    exporting := true
    progress := 0.0
    frameCount := 0
    frames := []
    generation
    token := some generation
    cancelled := e.token.toList ++ e.cancelled }

/-- A change by a run, which only the latest one may make. -/
def onlyLatest (run : Nat) (change : Exporter α → Exporter α) (e : Exporter α) : Exporter α :=
  if e.generation = run then change e else e

def endRun (run : Nat) : Exporter α → Exporter α :=
  onlyLatest run fun e => { e with exporting := false, token := none }

/-! ### Uploads -/

def requestUpload (e : Exporter α) (run : Nat) (frame : EncodedFrame) : Exporter α :=
  { e with waiting := e.waiting ++ [⟨run, frame⟩] }

/-- An upload ends without having begun. -/
def skipUpload (e : Exporter α) (u : WaitingUpload) : Exporter α :=
  { e with finished := e.finished ++ [⟨u.run, u.frame.index, .skipped⟩] }

def beginUpload (e : Exporter α) (u : WaitingUpload) (due : Nat) (ending : UploadEnd) :
    Exporter α :=
  { e with running := e.running ++ [⟨u.run, u.frame.index, due, ending⟩] }

/-- Puts an upload behind those that end no later. -/
def insertDue (u : RunningUpload) : List RunningUpload → List RunningUpload
  | [] => [u]
  | v :: vs => if u.due < v.due then u :: v :: vs else v :: insertDue u vs

def finishDue (e : Exporter α) (millis : Nat) : Exporter α :=
  let (ended, rest) := e.running.partition fun u => u.due ≤ millis
  let ended := ended.foldl (fun us u => insertDue u us) []
  { e with
    running := rest
    finished := e.finished ++ ended.map fun u => ⟨u.run, u.index, u.ending⟩ }

def hasFinished (e : Exporter α) (run : Nat) : Bool := e.finished.any (·.run == run)

def takeFirst? (run : Nat) : List FinishedUpload → Option (FinishedUpload × List FinishedUpload)
  | [] => none
  | u :: us =>
    if u.run = run then some (u, us) else (takeFirst? run us).map fun (v, left) => (v, u :: left)

def takeFinished? (e : Exporter α) (run : Nat) : Option FinishedUpload × Exporter α :=
  match takeFirst? run e.finished with
  | some (u, left) => (some u, { e with finished := left })
  | none => (none, e)

/-- Gives up the uploads of a run, whatever has become of them. -/
def dropUploads (e : Exporter α) (run : Nat) : Exporter α :=
  { e with
    waiting := e.waiting.filter (·.run ≠ run)
    running := e.running.filter (·.run ≠ run)
    finished := e.finished.filter (·.run ≠ run) }

end Exporter

end Segue
