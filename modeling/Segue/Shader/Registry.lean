import Segue.Keyed
import Segue.Uniform

/-!
# The registry of shaders

A transition shader is named by its engine and a variant of it, written `Engine/variant`. Engines
are listed in the order of their first registration, and the variants of an engine in the order of
its latest one. Registering an engine again replaces all of its variants.
-/

namespace Segue

structure ShaderKey where
  engine : String
  variant : String
  deriving DecidableEq, Repr, Inhabited

namespace ShaderKey

def text (k : ShaderKey) : String := k.engine ++ "/" ++ k.variant

/-- Reads `Engine/variant`: the first slash separates, blanks around both names are dropped, and
neither may be empty. -/
def parse? (s : String) : Option ShaderKey :=
  match Text.splitOnce? '/' s.toList with
  | none => none
  | some (e, v) =>
    let e := Text.trimChars e
    let v := Text.trimChars v
    if e.isEmpty || v.isEmpty then none else some ⟨String.ofList e, String.ofList v⟩

end ShaderKey

structure VariantDef (α : Type) where
  fragment : String
  uniforms : Uniforms α
  description : String
  deriving Repr

structure ShaderVariant (α : Type) extends VariantDef α where
  key : ShaderKey
  deriving Repr

structure Shader.Engine where
  name : String
  variants : List String
  deriving DecidableEq, Repr

/-- The engines with the names of their variants, the place of each engine in that list, and the
variants by their keys. -/
structure Registry (α : Type) where
  engines : List Shader.Engine
  places : Table String Nat
  shaders : Table ShaderKey (ShaderVariant α)

namespace Registry

variable {α : Type}

def empty : Registry α := ⟨[], [], []⟩

def engineNames (r : Registry α) : List String := r.engines.map (·.name)

def hasEngine (r : Registry α) (engine : String) : Bool := (r.places.get? engine).isSome

/-- The variants of an engine, none for one that is not there. -/
def variants (r : Registry α) (engine : String) : List String :=
  match r.places.get? engine with
  | some i => (r.engines[i]?.map (·.variants)).getD []
  | none => []

def get? (r : Registry α) (key : ShaderKey) : Option (ShaderVariant α) := r.shaders.get? key

def hasVariant (r : Registry α) (key : ShaderKey) : Bool := (r.get? key).isSome

def fragment? (r : Registry α) (key : ShaderKey) : Option String := (r.get? key).map (·.fragment)

def uniforms (r : Registry α) (key : ShaderKey) : Uniforms α :=
  ((r.get? key).map (·.uniforms)).getD []

def description (r : Registry α) (key : ShaderKey) : String :=
  ((r.get? key).map (·.description)).getD ""

/-- Makes room for an engine: the place of one that is there, whose variants are dropped, or else a
new place at the end. -/
def makeRoom (r : Registry α) (engine : String) : Nat × Registry α :=
  match r.places.get? engine with
  | some i =>
    let previous := (r.engines[i]?.map (·.variants)).getD []
    (i,
     { r with
       engines := r.engines.modify i fun e => { e with variants := [] }
       shaders := previous.foldl (fun t v => t.erase ⟨engine, v⟩) r.shaders })
  | none =>
    let i := r.engines.length
    (i, { r with engines := r.engines ++ [⟨engine, []⟩], places := r.places.insert engine i })

/-- The names of an engine's variants so far, and all variants by their keys. -/
structure Listing (α : Type) where
  names : List String
  shaders : Table ShaderKey (ShaderVariant α)

/-- Adds a variant; its name is listed once, and its last definition counts. -/
def Listing.add (engine : String) (s : Listing α) (v : String × VariantDef α) : Listing α :=
  let key : ShaderKey := ⟨engine, v.1⟩
  { names := if s.names.contains v.1 then s.names else s.names ++ [v.1]
    shaders := s.shaders.insert key { v.2 with key } }

def register (r : Registry α) (engine : String) (list : List (String × VariantDef α)) :
    Registry α :=
  let (i, r) := r.makeRoom engine
  let listed := list.foldl (Listing.add engine) ⟨[], r.shaders⟩
  { r with
    engines := r.engines.modify i fun e => { e with variants := listed.names }
    shaders := listed.shaders }

def variantCount (r : Registry α) : Nat := r.engines.foldl (fun n e => n + e.variants.length) 0

/-- The default uniforms that a fragment never declares, as messages. -/
def undeclared (key : ShaderKey) (d : VariantDef α) : List String :=
  let declared := (UniformDecl.scan d.fragment).map (·.name)
  (d.uniforms.keys.filter fun name => !Uniforms.isContract name && !declared.contains name).map
    fun name => s!"{key.text} declares default '{name}' that its fragment never declares"

end Registry

end Segue
