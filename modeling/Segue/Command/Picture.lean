import Segue.Command.Resolve
import Segue.Preview
import Segue.Renderer.Basic

/-!
# One picture

Draws the transition at a position of its timeline and writes the picture as a PNG file.
-/

namespace Segue.Command

variable {m : Type → Type} [Monad m] [FileSystem m]

def openClip (path : String) (s : Sources) : ExceptT Failure m Footage := do
  match ← (Footage.openPath path s.sequenceFps s.stillDuration : m _) with
  | .ok f => return f
  | .error e => throw (.footage e)

def plannedLength (f : Footage) : Float :=
  (usableDuration f.duration).getD Media.fallbackDuration

/-- Nothing goes on beside a single picture. -/
@[reducible] def alone : Background m := ⟨fun _ => return false, return none, return 0⟩

def runAlone {α : Type} (t : Task m α) : m α :=
  letI : Background m := alone
  Prod.fst <$> t.run Moment.start

def draw (p : Preview Float) (registry : Registry Float) (position : Float) (r : Renderer)
    (a b : Footage) : m (PreviewFrame Float × Renderer) := do
  let (_, r) := r.useVariant registry p.key
  let r := r.pinTime (some (p.sample position).time)
  let (frame, r, _) ← runAlone (p.renderLive (pure false) position r a b)
  return (frame, r)

/-- Writes a picture, and makes the directory for it. -/
def writePicture (path : String) (i : Image) : ExceptT Failure m Unit := do
  match Path.parent? path with
  | none | some "" => pure ()
  | some directory =>
    if !(← (FileSystem.makeDirectory directory : m Bool)) then throw (.uncreated directory)
  if !(← (FileSystem.write path (.image .png i) : m Bool)) then throw (.unwritten path .image)

def RenderRequest.perform (device? : Option Device) (config : Config) (registry : Registry Float)
    (r : RenderRequest) : ExceptT Failure m Unit := do
  let settings ← r.overrides.resolve
  let a ← openClip r.sources.a r.sources
  let b ← openClip r.sources.b r.sources
  match Preview.make settings registry (plannedLength a) (plannedLength b) config.safetyMargin with
  | .error e => throw (.timeline e)
  | .ok p =>
    let size := r.output.size
    let k := Renderer.create device? size.width size.height config.texturePool
    if !k.isSupported then throw (.noDevice size.width size.height)
    let (frame, k) ← (draw p registry r.position k a b : m _)
    if !frame.drawn then throw (.nothingDrawn r.position)
    match k.readPixels? with
    | none => throw (.unreadable Renderer.noPixels)
    | some i => writePicture r.path i

end Segue.Command
