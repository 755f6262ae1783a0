import Mathlib
import Segue.Export.Run
import Segue.Proofs.Basic
import Segue.Proofs.Seek

/-!
# Interleaved runs of an exporter

A session is one exporter with all runs called on it so far. A run goes on whenever it gets the
reply that it waits for; a seek is replied to when its last attempt has ended. Uploads begin in any
order, take any time and end in any way, and aborts and further runs may come in between. The
session keeps the books on every upload: what was asked for, what was begun, what was skipped and
whose result was taken.
-/

namespace Segue

variable {α : Type}

def UploadEnd.stored? : UploadEnd → Option FrameRef
  | .stored frame => some frame
  | .failed _ | .skipped | .lost => none

def WaitingUpload.finish (u : WaitingUpload) (ending : UploadEnd) : FinishedUpload :=
  ⟨u.run, u.frame.index, ending⟩

def RunningUpload.finish (u : RunningUpload) : FinishedUpload := ⟨u.run, u.index, u.ending⟩

namespace Export

def hasEnded (r : Export α) : Bool :=
  match r.phase with
  | .ended _ => true
  | _ => false

def isJoining (r : Export α) : Bool :=
  match r.phase with
  | .joining => true
  | _ => false

def isReadying (r : Export α) : Bool :=
  match r.phase with
  | .readying => true
  | _ => false

def isSeeking (r : Export α) : Bool :=
  match r.phase with
  | .seeking _ _ => true
  | _ => false

/-- The reply is one that the run waits for at its work, when it has come that far with a seek.
Results of uploads are not replies but are taken by the run. -/
def awaits (retry : Retry) (r : Export α) (reply : Reply α) : Bool :=
  match r.phase, reply with
  | .seeking _ _, .sought o => retry = .ended o
  | .drawing _ _, .drawn _ => true
  | .encoding _, .done => true
  | .report _, .done => true
  | _, _ => false

theorem hasEnded_of_awaits {retry : Retry} {r : Export α} {reply : Reply α}
    (h : r.awaits retry reply = true) : r.hasEnded = false := by
  unfold awaits at h
  split at h <;> simp_all [hasEnded]

@[simp] theorem isReadying_iff {r : Export α} : r.isReadying = true ↔ r.phase = .readying := by
  cases hp : r.phase <;> simp [isReadying, hp]

@[simp] theorem isJoining_iff {r : Export α} : r.isJoining = true ↔ r.phase = .joining := by
  cases hp : r.phase <;> simp [isJoining, hp]

end Export

/-- A run that was called, with what it has done so far. -/
structure ExportCall (α : Type) where
  run : Export α
  /-- How far its latest seek has come. -/
  retry : Retry
  turns : Nat
  /-- What came of drawing, each with its position. -/
  drawn : List (Nat × Export.Drawn)
  told : List α
  replies : Nat

namespace Exporter

inductive Event (α : Type) where
  /-- A run is called; the clips are duplicated or not. -/
  | call (job : ExportJob α) (a b : Option MediaError)
  /-- The duplicates of the run that was called there are ready. A compositor is made at once. -/
  | prepare (run : Nat) (a b : Export.ClipFacts α) (supported : Bool)
  | resume (run : Nat) (reply : Export.Reply α)
  /-- The attempt under way of a run's seek ends, or the rest before the next one. An attempt is cut
  short only when the run is cancelled. -/
  | seek (run : Nat) (outcome : SeekOutcome)
  /-- The run takes the result of the upload that ended first. -/
  | join (run : Nat)
  /-- The upload that waits there begins, unless its run has been cancelled. -/
  | start (upload : Nat) (due : Nat) (ending : UploadEnd)
  | tick (millis : Nat)
  | abort
  | clear

structure Session (α : Type) where
  policy : RetryPolicy
  exporter : Exporter α
  /-- In the order in which they were called. -/
  runs : List (ExportCall α)
  asked : List WaitingUpload
  /-- The calls of the uploader, each with its end. -/
  begun : List (WaitingUpload × UploadEnd)
  skipped : List WaitingUpload
  collected : List FinishedUpload

end Exporter

def ExportCall.seek (p : RetryPolicy) (cancelled : Bool) (outcome : SeekOutcome)
    (x : ExportCall α) : ExportCall α :=
  match x.retry with
  | .ended _ => x
  | retry => { x with retry := retry.proceed p cancelled outcome, turns := x.turns + 1 }

theorem ExportCall.seek_eq {x : ExportCall α} (h : ∀ o, x.retry ≠ .ended o) (p : RetryPolicy)
    (cancelled : Bool) (outcome : SeekOutcome) : x.seek p cancelled outcome =
      { x with retry := x.retry.proceed p cancelled outcome, turns := x.turns + 1 } := by
  unfold ExportCall.seek
  split
  · rename_i o ho
    exact absurd ho (h o)
  · rfl

variable [Scalar α] [Elementary α]

/-- The clips are ready: plans the run and makes its compositor, unless it ends before. -/
def Export.setUp (a b : ClipFacts α) (supported : Bool) (e : Exporter α) (r : Export α) :
    Running α :=
  let y := r.resume (.ready a b) e
  y.2.resume (.composed supported) y.1

namespace ExportCall

def goOn (y : Export.Running α) (replies : Nat) (x : ExportCall α) : ExportCall α :=
  { x with
    run := y.2
    retry := .start (y.1.isCancelled y.2.generation)
    turns := 0
    replies := x.replies + replies }

def prepare (a b : Export.ClipFacts α) (supported : Bool) (e : Exporter α) (x : ExportCall α) :
    Exporter α × ExportCall α :=
  let y := x.run.setUp a b supported e
  (y.1, x.goOn y 2)

def resume (reply : Export.Reply α) (e : Exporter α) (x : ExportCall α) :
    Exporter α × ExportCall α :=
  let y := x.run.resume reply e
  (y.1,
    { x.goOn y 1 with
      drawn := match reply with
        | .drawn d => x.drawn ++ [(x.run.index, d)]
        | _ => x.drawn
      told := match x.run.phase with
        | .report progress => x.told ++ [progress]
        | _ => x.told })

end ExportCall

namespace Exporter.Session

def start (p : RetryPolicy) : Session α := ⟨p, .make, [], [], [], [], []⟩

def moved (k : Nat) (e : Exporter α) (y : Exporter α × ExportCall α) (s : Session α) :
    Session α :=
  { s with
    exporter := y.1
    runs := s.runs.set k y.2
    asked := s.asked ++ y.1.waiting.drop e.waiting.length }

def step (s : Session α) : Event α → Session α
  | .call job a b =>
    let (e, run) := (Export.make job).resume (.duplicated a b) s.exporter
    { s with
      exporter := e
      runs := s.runs ++ [⟨run, .start (e.isCancelled run.generation), 0, [], [], 0⟩] }
  | .prepare k a b supported =>
    match s.runs[k]? with
    | some x =>
      if x.run.isReadying then s.moved k s.exporter (x.prepare a b supported s.exporter) else s
    | none => s
  | .resume k reply =>
    match s.runs[k]? with
    | some x =>
      if x.run.awaits x.retry reply then s.moved k s.exporter (x.resume reply s.exporter) else s
    | none => s
  | .seek k outcome =>
    match s.runs[k]? with
    | some x =>
      let cancelled := s.exporter.isCancelled x.run.generation
      if x.run.isSeeking && (outcome ≠ .cancelled || cancelled) then
        { s with runs := s.runs.set k (x.seek s.policy cancelled outcome) }
      else s
    | none => s
  | .join k =>
    match s.runs[k]? with
    | some x =>
      if x.run.isJoining then
        match s.exporter.takeFinished? x.run.generation with
        | (some u, e) =>
          { s with collected := s.collected ++ [u] }.moved k e
            (x.resume (.finished u.index u.ending) e)
        | (none, _) => s
      else s
    | none => s
  | .start j due ending =>
    match s.exporter.waiting[j]? with
    | some u =>
      let e := { s.exporter with waiting := s.exporter.waiting.eraseIdx j }
      if e.isCancelled u.run then
        { s with exporter := e.skipUpload u, skipped := s.skipped ++ [u] }
      else { s with exporter := e.beginUpload u due ending, begun := s.begun ++ [(u, ending)] }
    | none => s
  | .tick millis => { s with exporter := s.exporter.finishDue millis }
  | .abort => { s with exporter := s.exporter.abort }
  | .clear => { s with exporter := s.exporter.clear }

def run (s : Session α) (events : List (Event α)) : Session α := events.foldl step s

@[simp] theorem run_append (s : Session α) (before after : List (Event α)) :
    s.run (before ++ after) = (s.run before).run after :=
  List.foldl_append

/-- What every step keeps holds after every run. -/
theorem run_induction {P : Session α → Prop} (hstep : ∀ s e, P s → P (s.step e))
    {s : Session α} (hs : P s) (events : List (Event α)) : P (s.run events) := by
  induction events generalizing s with
  | nil => exact hs
  | cons e events ih => exact ih (hstep s e hs)

/-! ## The books on the uploads of one run -/

def askedBy (s : Session α) (run : Nat) : List EncodedFrame :=
  (s.asked.filter (·.run = run)).map (·.frame)

def begunBy (s : Session α) (run : Nat) : List (WaitingUpload × UploadEnd) :=
  s.begun.filter (·.1.run = run)

def collectedBy (s : Session α) (run : Nat) : List FinishedUpload :=
  s.collected.filter (·.run = run)

def skippedBy (s : Session α) (run : Nat) : List WaitingUpload :=
  s.skipped.filter (·.run = run)

def waitingBy (s : Session α) (run : Nat) : List WaitingUpload :=
  s.exporter.waiting.filter (·.run = run)

def runningBy (s : Session α) (run : Nat) : List RunningUpload :=
  s.exporter.running.filter (·.run = run)

def finishedBy (s : Session α) (run : Nat) : List FinishedUpload :=
  s.exporter.finished.filter (·.run = run)

end Exporter.Session

end Segue
