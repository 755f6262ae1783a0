import Segue.Export.Basic
import Segue.Url.Address

/-!
# Where frames go

Frames become files in a subfolder of a directory, which is made as needed, or are posted to a host
that keeps them.
-/

namespace Segue

structure DirectoryTarget where
  root : String
  subfolder : String
  deriving DecidableEq, Repr

namespace DirectoryTarget

def outputDirectory (t : DirectoryTarget) : String := Path.join t.root t.subfolder

variable {m : Type → Type} [Monad m] [FileSystem m]

def store (t : DirectoryTarget) (frame : EncodedFrame) : m (Except UploadError FrameRef) := do
  let directory := t.outputDirectory
  if !(← FileSystem.makeDirectory directory) then return .error (.unwritable directory)
  let path := Path.join directory frame.name
  if !(← FileSystem.write path frame.content) then return .error (.unwritable path)
  return .ok ⟨frame.name, t.subfolder, FrameRef.standardKind⟩

end DirectoryTarget

/-- What a host replies to a frame. -/
inductive HostReply where
  /-- There was no reply, or none that speaks of success and can be read. -/
  | refused
  /-- The frame was accepted, maybe under a name of the host's own. -/
  | accepted (name? : Option String)
  deriving DecidableEq, Repr

class Hosts (m : Type → Type) where
  /-- Posts a frame for a subfolder: the milliseconds until the reply, and the reply. -/
  post : Url → String → EncodedFrame → m (Nat × HostReply)

/-- No host can be reached from a disk. -/
instance : Hosts (StateM Disk) := ⟨fun _ _ _ => return (0, .refused)⟩

structure HostTarget where
  endpoint : Url
  subfolder : String

namespace HostTarget

def ending (t : HostTarget) (frame : EncodedFrame) : HostReply → UploadEnd
  | .refused => .failed .refused
  | .accepted name? => .stored ⟨name?.getD frame.name, t.subfolder, FrameRef.standardKind⟩

def upload {m : Type → Type} [Monad m] [Hosts m] (t : HostTarget) (frame : EncodedFrame) :
    m (Nat × UploadEnd) := do
  let (delay, reply) ← Hosts.post t.endpoint t.subfolder frame
  return (delay, t.ending frame reply)

end HostTarget

end Segue
