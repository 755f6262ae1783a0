import Segue.Export.Run
import Segue.Media.Footage
import Segue.Settings.Load
import Segue.Shader.Pack
import Segue.Url.Address
import Segue.Command.Arguments

/-!
# Failures of commands

Why a command ends without what was asked for, as texts from the outermost in. The last one may come
from outside; then a placeholder stands for it.
-/

namespace Segue.Command

inductive Failure where
  | config (path : String) (e : Config.LoadError)
  | pack (root : String) (e : Shader.PackError)
  | settings (path : String) (e : Settings.LoadError)
  | footage (e : FootageError)
  | timeline (e : Timeline.Error Float)
  | noDevice (width height : Nat)
  | nothingDrawn (position : Float)
  | unreadable (reason : String)
  | uncreated (directory : String)
  | unwritten (path : String) (reason : Reason)
  | host (host : String) (e : EndpointError)
  | unprinted
  | exporting (e : ExportError Float)

/-- The texts of an error from outside, with the words before it. -/
def outside (words : String) (r : Reason) : List String := [words ++ r.text, r.text]

def configChain (path : String) : Config.LoadError → List String
  | .unreadable _ => outside s!"failed to read configuration {path}: " .io
  | .refused (.invalid f) => [s!"invalid configuration: {f.message}"]
  | .refused _ => outside "failed to parse configuration: " .toml

def settingsChain (path : String) : Settings.LoadError → List String
  | .unreadable _ => outside s!"failed to read settings {path}: " .io
  | .refused _ => outside "failed to parse settings: " .json

def packChain : Shader.PackError → List String
  | .malformed => outside "failed to parse manifest: " .toml
  | .unreadable => [Reason.io.text]
  | e => [e.message]

namespace Failure

def chain : Failure → List String
  | .config path e => s!"failed to load config {path}" :: configChain path e
  | .pack root e => s!"failed to load engine pack {root}" :: packChain e
  | .settings path e => s!"failed to load settings {path}" :: settingsChain path e
  | .footage e => e.chain
  | .timeline e => ["invalid transition timeline", e.message]
  | .noDevice w h => [s!"no GPU adapter available; cannot render a {w}x{h} frame"]
  | .nothingDrawn p =>
    [s!"neither clip produced a frame at position {Numeral.messageText p}"]
  | .unreadable reason => ["failed to read rendered frame", reason]
  | .uncreated directory => [s!"failed to create {directory}", Reason.io.text]
  | .unwritten path r => [s!"failed to write {path}", r.text]
  | .host h e => [s!"invalid upload host {h}", e.message]
  | .unprinted => [s!"failed printing to stdout: {Reason.io.text}"]
  | .exporting e => ["export failed", e.message] ++
    match e with
    | .sources m => m.message :: (m.reason?.map Reason.text).toList
    | _ => []

/-- A duration that no number of seconds can hold breaks the program off, and so does a text that
cannot be printed. -/
def isBreakdown : Failure → Bool
  | .config _ (.refused (.duration .tooLong)) => true
  | .unprinted => true
  | _ => false

end Failure

/-!
## Resolving settings and engines

The settings of a command are those of a file, or the standard ones, with what the command line
changes in them. The engines are the built-in ones and those of the packs that are named.
-/

open Shader (Pack)

variable {m : Type → Type} [Monad m] [FileSystem m]

/-- What the command line changes, in an order in which a single value goes before the flavor that
sets it too. -/
def Overrides.apply (o : Overrides) (s : Settings Float) : Settings Float :=
  let s := match o.flavor? with
    | some f => f.apply s
    | none => s
  let s := { s with
    engine := o.engine?.getD s.engine
    variant := o.variant?.getD s.variant
    duration := o.duration?.getD s.duration
    fps := o.fps?.getD s.fps
    intensity := o.intensity?.getD s.intensity
    easing := o.easing?.getD s.easing
    startA := o.startA?.getD s.startA
    startB := o.startB?.getD s.startB
    fullVideos := s.fullVideos || o.full
    useSourceFps := s.useSourceFps || o.sourceFps }
  o.uniforms.foldl (fun s (name, v) => s.setUniform name v) s

def Overrides.base (o : Overrides) : ExceptT Failure m (Settings Float) := do
  match o.settings? with
  | none => return .standard
  | some path =>
    match ← (Settings.load path : m _) with
    | .ok s => return s
    | .error e => throw (.settings path e)

def Overrides.resolve (o : Overrides) : ExceptT Failure m (Settings Float) := do
  return (o.apply (← o.base)).sanitized

/-- The packs below a path: the pack that it is, or those in it. -/
def packsAt (root : String) : ExceptT Failure m (List Pack) := do
  if ← (Pack.isPack root : m Bool) then
    match ← (Pack.load root : m _) with
    | .ok p => return [p]
    | .error e => throw (.pack root e)
  else (Pack.discover root : m _)

/-- The built-in engines, and those of the packs in the order in which they are named. -/
def registryWith (roots : List String) : ExceptT Failure m (Registry Float) :=
  roots.foldlM (fun r root => do
    return (← packsAt root).foldl (fun r p => p.registerInto r) r) Shader.Library.registry

def standardConfigPath : String := "blendpack.toml"

def loadConfig (path? : Option String) : ExceptT Failure m Config := do
  let path := path?.getD standardConfigPath
  match ← (Config.load path : m _) with
  | .ok c => return c
  | .error e => throw (.config path e)

end Segue.Command
