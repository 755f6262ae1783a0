import Segue.Export.Directory
import Segue.Export.Perform
import Segue.Command.Picture

/-!
# The workroom of an export

What an export of the command line works with besides the files: one exporter, and the place where
its frames go.
-/

namespace Segue.Command

inductive Destination where
  | directory (t : DirectoryTarget)
  | host (t : HostTarget)

structure Workroom where
  exporter : Exporter Float
  destination : Destination

abbrev Working (m : Type → Type) := StateT Workroom m

variable {m : Type → Type} [Monad m]

instance : MonadStateOf (Exporter Float) (Working m) where
  get := return (← getThe Workroom).exporter
  set e := modifyThe Workroom fun w => { w with exporter := e }
  modifyGet f := modifyGetThe Workroom fun w =>
    let (x, e) := f w.exporter
    (x, { w with exporter := e })

instance [FileSystem m] : FileSystem (Working m) where
  kind p := (FileSystem.kind p : m _)
  read? p := (FileSystem.read? p : m _)
  names? p := (FileSystem.names? p : m _)
  makeDirectory p := (FileSystem.makeDirectory p : m _)
  write p c := (FileSystem.write p c : m _)

/-- Storing a frame in a directory takes no time. -/
instance [FileSystem m] [Hosts m] : Uploader (Working m) where
  upload frame := do
    match (← getThe Workroom).destination with
    | .host t => (t.upload frame : m _)
    | .directory t =>
      match ← (t.store frame : m _) with
      | .ok ref => return (0, .stored ref)
      | .error e => return (0, .failed e)

end Segue.Command

namespace Segue.Command

/-!
## All pictures

Exports every picture of a transition to a directory or to a host.
-/

variable {m : Type → Type} [Monad m] [FileSystem m] [Hosts m]

def ExportRequest.config (r : ExportRequest) (c : ExportConfig) : ExportConfig :=
  { c with format := r.format?.getD c.format, subfolder := r.subfolder?.getD c.subfolder }

/-- Where the frames go. A directory goes before a host. -/
def ExportRequest.destination (r : ExportRequest) (subfolder : String) :
    Except Failure Destination :=
  match r.directory?, r.host? with
  | some root, _ => .ok (.directory ⟨root, subfolder⟩)
  | none, host? =>
    let host := host?.getD ""
    match uploadEndpoint host with
    | .ok u => .ok (.host ⟨u, subfolder⟩)
    | .error e => .error (.host host e)

def ExportRequest.job (r : ExportRequest) (config : Config) (registry : Registry Float)
    (settings : Settings Float) : ExportJob Float :=
  let exports := r.config config.exports
  { settings
    registry
    width := r.output.size.width
    height := r.output.size.height
    margin := config.safetyMargin
    concurrency := exports.uploadConcurrency
    format := exports.format }

structure Exported where
  settings : Settings Float
  frames : List FrameRef
  /-- how many there should have been -/
  planned : Nat

def ExportRequest.perform (device? : Option Device) (config : Config) (registry : Registry Float)
    (r : ExportRequest) : ExceptT Failure m Exported := do
  let settings ← r.overrides.resolve
  let exports := r.config config.exports
  let destination ← r.destination exports.subfolder
  let a ← openClip r.sources.a r.sources
  let b ← openClip r.sources.b r.sources
  let make := fun w h =>
    (pure (Renderer.create device? w h config.texturePool) : Working m Renderer)
  let task : Task (Working m) (Except (ExportError Float) (List FrameRef)) :=
    Exporter.exportFrames exports (pure false) make (fun _ => pure ())
      (r.job config registry settings) a b
  let ((result, _), room) ← ((task.run Moment.start).run ⟨.make, destination⟩ : m _)
  match result with
  | .error e => throw (.exporting e)
  | .ok frames => return ⟨settings, frames, room.exporter.frameCount⟩

def Exported.summary (e : Exported) : String :=
  s!"exported {e.frames.length} of {e.planned} frames\n"

/-- The settings with the frames that were stored. -/
def Exported.record (e : Exported) : Settings Float := { e.settings with frames := some e.frames }

/-- Writes the settings of an export, if that was asked for. -/
def Exported.save (path? : Option String) (e : Exported) : ExceptT Failure m Unit := do
  match path? with
  | none => return
  | some path =>
    if !(← (FileSystem.write path (.ofText e.record.text) : m Bool)) then
      throw (.unwritten path .io)

end Segue.Command
