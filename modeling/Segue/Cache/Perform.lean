import Segue.Cache.Build
import Segue.Seek

/-!
# Running a build

Carries a build to its end on clips that can be sought. The cache is shared with everything that
runs beside the build.
-/

namespace Segue.Build

variable {m : Type → Type} [Monad m] [MonadStateOf (FrameCache Float) m]
variable {σ : Type} [Source m Float σ]

def view (m : Type → Type) [Source m Float σ] (a b : σ) : View Float where
  duration
    | .a => Source.duration m a
    | .b => Source.duration m b
  frame
    | .a => Source.frame m a
    | .b => Source.frame m b

def isCancelled (generation : Nat) : m Bool :=
  return (← getThe (FrameCache Float)).isCancelled generation

def step (a b : σ) (sought : SeekOutcome) (w : Build Float) : Task m (Build Float) :=
  Task.act (modifyGetThe (FrameCache Float) fun c =>
    let (c, w) := w.resume (view m a b) sought c
    (w, c)) .done

/-- Waits for what a build waits for; `report` is told about every entry. -/
def await (report : Float → m Unit) (w : Build Float) (a b : σ) : Task m (SeekOutcome × σ × σ) := do
  let config := (← getThe (FrameCache Float)).config
  let cut : m Bool := isCancelled w.generation
  match w.phase with
  | .called | .ended _ => return (.completed, a, b)
  | .grace =>
    Task.sleep grace.millis
    return (.completed, a, b)
  | .seeking .a time =>
    let (o, a) ← seekBounded config.seekTimeout.millis cut a time
    return (o, a, b)
  | .seeking .b time =>
    let (o, b) ← seekBounded config.seekTimeout.millis cut b time
    return (o, a, b)
  | .settling _ =>
    rest config.settle.millis cut
    return (.completed, a, b)
  | .report x =>
    report x
    return (.completed, a, b)

def perform (report : Float → m Unit) :
    (n : Nat) → (a b : σ) → Build Float → Task m (BuildOutcome Float × σ × σ)
  | 0, a, b, _ => return (.cancelled, a, b)
  | n + 1, a, b, w => do
    match w.phase with
    | .ended o => return (o, a, b)
    | _ =>
      let (o, a, b) ← w.await report a b
      perform report n a b (← step a b o w)

/-- Carries a build past the grace of the one that it replaces. -/
def takeCache (request : CacheRequest Float) (a b : σ) : Task m (Build Float) := do
  let w ← step a b .completed (make request)
  match w.phase with
  | .grace =>
    let _ ← w.await (fun _ => pure ()) a b
    step a b .completed w
  | _ => return w

end Segue.Build

namespace Segue.FrameCache

variable {m : Type → Type} [Monad m] [MonadStateOf (FrameCache Float) m]
variable {σ : Type} [Source m Float σ]

/-- Takes the frame pairs of a whole timeline from two clips. -/
def build (request : CacheRequest Float) (report : Float → m Unit) (a b : σ) :
    Task m (BuildOutcome Float × σ × σ) := do
  let w ← Build.takeCache request a b
  Build.perform report w.maxSteps a b w

end Segue.FrameCache
