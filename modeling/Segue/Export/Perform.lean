import Segue.Export.Run
import Segue.Seek

/-!
# Running an export

Carries a run to its end. It seeks duplicates of the clips, so that whoever shows the clips is not
disturbed, and draws with a compositor of its own; all of them are released at the end. Whoever has
called a run may drop it wherever it waits; that is its end, too.
-/

namespace Segue

/-- Uploads go on while the runs wait. -/
instance {m : Type → Type} [Monad m] [MonadStateOf (Exporter Float) m] [Uploader m] :
    Background m where
  settle millis := do
    let e ← getThe (Exporter Float)
    let ended := e.running.any fun u => u.due ≤ millis
    set (Exporter.finishDue { e with waiting := [] } millis)
    e.waiting.forM fun u => do
      if (← getThe (Exporter Float)).isCancelled u.run then
        modifyThe (Exporter Float) (·.skipUpload u)
      else
        let (delay, ending) ← Uploader.upload u.frame
        modifyThe (Exporter Float) fun e =>
          let e := e.beginUpload u (millis + delay) ending
          if delay = 0 then e.finishDue millis else e
    return ended || !e.waiting.isEmpty
  next := do
    let e ← getThe (Exporter Float)
    return (e.running.map (·.due)).min?
  pending := do
    let e ← getThe (Exporter Float)
    return e.waiting.length + e.running.length

namespace Export

structure Crew (σ κ : Type) where
  a : Option σ
  b : Option σ
  compositor : Option κ

variable {m : Type → Type} [Monad m] [MonadStateOf (Exporter Float) m]
variable {σ κ : Type} [Source m Float σ] [Compositor m Float κ]

/-- Goes on with a reply; without one the run has been dropped. -/
def step (reply? : Option (Reply Float)) (r : Export Float) : Task m (Export Float) :=
  Task.act (modifyGetThe (Exporter Float) fun e =>
    let (e, r) :=
      match reply? with
      | some reply => r.resume reply e
      | none => r.quit e
    (r, e)) .done

def isCancelled (run : Nat) : m Bool := return (← getThe (Exporter Float)).isCancelled run

def hire (a b : σ) : m (Reply Float × Crew σ κ) := do
  let a ← Source.duplicate a
  let b ← Source.duplicate b
  let fault {β : Type} : Except MediaError β → Option MediaError
    | .error e => some e
    | .ok _ => none
  return (.duplicated (fault a) (fault b), ⟨a.toOption, b.toOption, none⟩)

/-- Gives a clip time to get ready: how long it takes, and the clip afterwards. -/
def readyWithin (m : Type → Type) [Source m Float σ] (timeout : Nat) : Option σ → Nat × Option σ
  | none => (0, none)
  | some s =>
    let (delay, ready) := Source.ready m s
    if delay ≤ timeout then (delay, some ready) else (timeout, some s)

def facts (m : Type → Type) [Source m Float σ] (s : Option σ) : ClipFacts Float where
  duration := s.bind (Source.duration m)
  frameRate := s.bind (Source.frameRate m)

def makeReady (dropped : m Bool) (timeout : Nat) (c : Crew σ κ) :
    Task m (Reply Float × Crew σ κ) := do
  let (delayA, a) := readyWithin m timeout c.a
  let (delayB, b) := readyWithin m timeout c.b
  rest (max delayA delayB) dropped
  return (.ready (facts m a) (facts m b), { c with a, b })

/-- Makes the compositor; one that draws nothing is given back. -/
def equip (make : Nat → Nat → m κ) (r : Export Float) (c : Crew σ κ) :
    m (Reply Float × Crew σ κ) := do
  let k ← make r.job.width r.job.height
  if Compositor.isSupported m k then
    let (_, k) ← (Compositor.useVariant k r.job.registry r.job.settings.shaderKey : m _)
    return (.composed true, { c with compositor := some k })
  let _ ← (Compositor.dispose k : m κ)
  return (.composed false, c)

def picture (time : Float) (shot : Shot Float) (c : Crew σ κ) : m (Drawn × Crew σ κ) := do
  match c.compositor with
  | none => return (.skipped, c)
  | some k =>
    let k ← Compositor.show k .a (c.a.bind (Source.frame m))
    let k ← Compositor.show k .b (c.b.bind (Source.frame m))
    let k ← Compositor.pinTime k (some time)
    let (drawn, k) ← (Compositor.render k shot : m (Bool × κ))
    if !drawn then return (.skipped, { c with compositor := some k })
    let (image?, k) ← (Compositor.readPixels k : m (Option Image × κ))
    let c := { c with compositor := some k }
    match image? with
    | some i => return (.picture i, c)
    | none => return (.unreadable, c)

def seekClip (p : RetryPolicy) (cut : m Bool) (time : Float) :
    Option σ → Task m (SeekOutcome × Option σ)
  | some s => do
    let (o, s) ← seekRetrying p cut s time
    return (o, some s)
  | none => return (.completed, none)

def dismiss (c : Crew σ κ) : m Unit := do
  if let some a := c.a then let _ ← (Source.release a : m σ)
  if let some b := c.b then let _ ← (Source.release b : m σ)
  if let some k := c.compositor then let _ ← (Compositor.dispose k : m κ)

def policy (config : ExportConfig) : RetryPolicy :=
  ⟨config.seekTimeout, config.seekRetries, config.retryBackoff⟩

def join (dropped : m Bool) (run : Nat) : Task m (Option (Reply Float)) := do
  Task.wait none
    (fun _ => do if (← getThe (Exporter Float)).hasFinished run then pure true else dropped)
    (.done ())
  let taken? : m (Option FinishedUpload) :=
    modifyGetThe (Exporter Float) fun e => e.takeFinished? run
  return (← taken?).map fun u => .finished u.index u.ending

/-- Waits for what a run waits for once it has a compositor; `report` is told about every stored
frame. -/
def await (config : ExportConfig) (dropped : m Bool) (report : Float → m Unit) (r : Export Float)
    (c : Crew σ κ) : Task m (Option (Reply Float) × Crew σ κ) := do
  let cut : m Bool := do if ← isCancelled r.generation then pure true else dropped
  match r.phase with
  | .called | .readying | .composing | .ended _ => return (none, c)
  | .seeking .a time =>
    let (o, a) ← seekClip (policy config) cut time c.a
    return (some (.sought o), { c with a })
  | .seeking .b time =>
    let (o, b) ← seekClip (policy config) cut time c.b
    return (some (.sought o), { c with b })
  | .drawing time shot =>
    let (d, c) ← (picture time shot c : m (Drawn × Crew σ κ))
    return (some (.drawn d), c)
  | .encoding _ =>
    Task.giveWay dropped
    return (some .done, c)
  | .joining => return (← join dropped r.generation, c)
  | .report x =>
    report x
    return (some .done, c)

def perform (config : ExportConfig) (dropped : m Bool) (report : Float → m Unit) :
    (n : Nat) → Crew σ κ → Export Float →
      Task m (Except (ExportError Float) (List FrameRef) × Crew σ κ)
  | 0, c, _ => return (.ok [], c)
  | n + 1, c, r => do
    match r.phase with
    | .ended result => return (result, c)
    | _ =>
      let (reply?, c) ← r.await config dropped report c
      let gone ← dropped
      perform config dropped report n c (← step (if gone then none else reply?) r)

def prepare (config : ExportConfig) (dropped : m Bool) (make : Nat → Nat → m κ)
    (job : ExportJob Float) (a b : σ) : Task m (Crew σ κ × Export Float) := do
  let (reply, c) ← (hire a b : m (Reply Float × Crew σ κ))
  let r ← step (some reply) (Export.make job)
  let .readying := r.phase | return (c, r)
  let (reply, ready) ← makeReady dropped config.cloneTimeout.millis c
  if ← dropped then return (c, ← step none r)
  let r ← step (some reply) r
  let .composing := r.phase | return (ready, r)
  let (reply, c) ← (equip make r ready : m (Reply Float × Crew σ κ))
  return (c, ← step (some reply) r)

end Export

namespace Exporter

variable {m : Type → Type} [Monad m] [MonadStateOf (Exporter Float) m]
variable {σ κ : Type} [Source m Float σ] [Compositor m Float κ]

/-- Renders and uploads every frame of a transition. The frames are returned in their order; those
whose upload failed are missing. `dropped` says whether the caller has dropped the run. -/
def exportFrames (config : ExportConfig) (dropped : m Bool) (make : Nat → Nat → m κ)
    (report : Float → m Unit) (job : ExportJob Float) (a b : σ) :
    Task m (Except (ExportError Float) (List FrameRef)) := do
  let (c, r) ← Export.prepare config dropped make job a b
  let (result, c) ← Export.perform config dropped report r.maxSteps c r
  (Export.dismiss c : m Unit)
  return result

end Exporter

end Segue
