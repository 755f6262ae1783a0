import Segue.Shader.Library
import Segue.Text.Listed
import Segue.Toml.Document
import Segue.Toml.Basic
import Segue.Settings.Load

/-!
# Engine packs

A pack is a directory with a manifest and the fragments of one engine. The manifest names the engine
and its variants; each fragment is a file of the pack.
-/

namespace Segue.Shader

structure ManifestVariant where
  name : String
  fragment : String
  description : String
  uniforms : Uniforms Float
  deriving Repr

structure Manifest where
  engine : String
  description : Option String
  includeCommon : Bool
  variants : List ManifestVariant
  deriving Repr

namespace Manifest

open Toml

/-- Nothing but the shape of a manifest can be wrong when it is read. -/
abbrev Reads (σ : Type) := Toml → Except (Misfit Empty) σ

def uniformValue : Reads (UniformValue Float)
  | .bool b => .ok (.flag b)
  | .arr items => (items.mapM number).map .vector
  | v => (number v).map .scalar

def required {σ τ : Type} (name : String) (r : Reads τ) (set : σ → τ → σ) :
    FieldReader Empty (List String × σ) :=
  .of name r fun s x => (name :: s.1, set s.2 x)

def optional {σ τ : Type} (name : String) (r : Reads τ) (set : σ → τ → σ) :
    FieldReader Empty (List String × σ) :=
  .of name r fun s x => (s.1, set s.2 x)

/-- The record, if the fields of these names were there. -/
def complete {σ : Type} (names : List String) (s : List String × σ) : Except (Misfit Empty) σ :=
  if names.all s.1.contains then .ok s.2 else .error .shape

def variantFields : List (FieldReader Empty (List String × ManifestVariant)) :=
  [required "name" string fun v s => { v with name := s },
   required "fragment" string fun v s => { v with fragment := s },
   optional "description" string fun v s => { v with description := s },
   optional "uniforms" (tableOf uniformValue) fun v u => { v with uniforms := Keyed.ofList u }]

def readVariant : Reads ManifestVariant := fun v => do
  complete ["name", "fragment"] (← record variantFields ([], ⟨"", "", "", []⟩) v)

def manifestFields : List (FieldReader Empty (List String × Manifest)) :=
  [required "engine" string fun m s => { m with engine := s },
   optional "description" string fun m s => { m with description := some s },
   optional "include_common" boolean fun m b => { m with includeCommon := b },
   optional "variants" (list readVariant) fun m vs => { m with variants := vs }]

/-- Reads a manifest; nothing is said about why it fails. -/
def parse? (text : String) : Option Manifest := do
  let entries ← Toml.parse? text
  match readEntries manifestFields ([], ⟨"", none, true, []⟩) entries >>= complete ["engine"] with
  | .ok m => some m
  | .error _ => none

def variantIssues (before : List String) (name : String) : List String :=
  (if Text.allBlank name || name.toList.contains '/' then [s!"variant name '{name}' is invalid"]
    else [])
  ++ (if before.contains name then [s!"variant '{name}' is declared twice"] else [])

def issues (m : Manifest) : List String :=
  let names := m.variants.map (·.name)
  (if Text.allBlank m.engine then ["manifest must name its engine"] else [])
  ++ (if m.engine.toList.contains '/' then
        [s!"engine name '{m.engine}' must not contain '/'"] else [])
  ++ (if m.variants.isEmpty then ["manifest must declare at least one variant"] else [])
  ++ names.zipIdx.flatMap fun (name, i) => variantIssues (names.take i) name

end Manifest

inductive PackError where
  | noManifest (path : String)
  | malformed
  | unusable (issues : List String)
  | unreadable
  deriving DecidableEq, Repr

def PackError.message : PackError → String
  | .noManifest path => s!"manifest not found at {path}"
  | .malformed => "failed to parse manifest"
  | .unusable issues => s!"manifest validation failed: {Text.listing issues}"
  | .unreadable => "failed to read the pack"

/-- A loaded pack: its directory, its manifest and its variants with their fragments. -/
structure Pack where
  root : String
  manifest : Manifest
  variants : List (String × VariantDef Float)

namespace Pack

def manifestName : String := "engine.toml"

def engine (p : Pack) : String := p.manifest.engine

/-- Defaults that no fragment declares. They keep nothing from working. -/
def warnings (p : Pack) : List String :=
  p.variants.flatMap fun (name, d) => Registry.undeclared ⟨p.engine, name⟩ d

def registerInto (p : Pack) (r : Registry Float) : Registry Float := r.register p.engine p.variants

variable {m : Type → Type} [Monad m] [FileSystem m]

structure Gathered where
  missing : List String
  variants : List (String × VariantDef Float)

/-- Reads the fragments of a manifest in order. One that is not there is noted; one that cannot be
read ends the loading. -/
def gather (root : String) (man : Manifest) : List ManifestVariant → Gathered →
    m (Except PackError Gathered)
  | [], g => return .ok g
  | v :: vs, g => do
    let path := Path.join root v.fragment
    match ← FileSystem.kind path with
    | .absent =>
      gather root man vs { g with missing := g.missing ++ [s!"fragment '{path}' not found"] }
    | _ =>
      match ← readText? path with
      | none => return .error .unreadable
      | some body =>
        let fragment := if man.includeCommon then Library.common ++ "\n" ++ body else body
        gather root man vs
          { g with variants := g.variants ++ [(v.name, ⟨fragment, v.uniforms, v.description⟩)] }

def load (root : String) : m (Except PackError Pack) := do
  let path := Path.join root manifestName
  match ← FileSystem.kind path with
  | .absent => return .error (.noManifest path)
  | _ =>
    match ← readText? path with
    | none => return .error .unreadable
    | some text =>
      match Manifest.parse? text with
      | none => return .error .malformed
      | some man =>
        if !man.issues.isEmpty then return .error (.unusable man.issues)
        else
          match ← gather root man man.variants ⟨[], []⟩ with
          | .error e => return .error e
          | .ok g =>
            if !g.missing.isEmpty then return .error (.unusable g.missing)
            else return .ok ⟨root, man, g.variants⟩

def isPack (root : String) : m Bool := do
  return (← FileSystem.kind (Path.join root manifestName)) == .file

/-- The packs directly below a directory, by name; those that do not load are passed over. -/
def discover (root : String) : m (List Pack) := do
  let names := ((← FileSystem.names? root).getD []).mergeSort
  let dirs ← (names.map (Path.join root)).filterM isPack
  dirs.filterMapM fun dir => do return (← load dir).toOption

end Pack

end Segue.Shader
