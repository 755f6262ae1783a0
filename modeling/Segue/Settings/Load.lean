import Segue.Settings.Text
import Segue.Config.Text
import Segue.Disk

/-!
# Loading settings and configurations

Both are text files. A configuration that is not there is the standard one.
-/

namespace Segue

inductive Settings.LoadError where
  | unreadable (path : String)
  | refused (r : Json.Refusal)
  deriving DecidableEq, Repr

inductive Config.LoadError where
  | unreadable (path : String)
  | refused (e : Config.Error)
  deriving DecidableEq, Repr

variable {m : Type → Type} [Monad m] [FileSystem m]

def readText? (path : String) : m (Option String) := do
  return (← FileSystem.read? path) >>= Content.text?

def Settings.load {α : Type} [Numeral α] (path : String) :
    m (Except Settings.LoadError (Settings α)) := do
  match ← readText? path with
  | none => return .error (.unreadable path)
  | some text => return (Settings.parseFile text).mapError .refused

def Config.load (path : String) : m (Except Config.LoadError Config) := do
  match ← FileSystem.kind path with
  | .absent => return .ok .standard
  | _ =>
    match ← readText? path with
    | none => return .error (.unreadable path)
    | some text => return (Config.parse text).mapError .refused

end Segue
