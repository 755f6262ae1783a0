import Segue.Compositor
import Segue.Shader.Validate
import Segue.Texture

/-!
# Shader programs

A variant is compiled when it is first selected with a source. The verdict stays: a variant that
compiled keeps its program, and one that failed stays failed, whatever source comes later.
-/

namespace Segue.Renderer

structure Programs where
  compiled : List ShaderKey
  failed : List (ShaderKey × Shader.CompileError)
  /-- the variant in use; without one the crossfade is -/
  active? : Option ShaderKey

namespace Programs

def none : Programs := ⟨[], [], .none⟩

def compileError? (p : Programs) (key : ShaderKey) : Option Shader.CompileError :=
  p.failed.lookup key

def count (p : Programs) : Nat := p.compiled.length + 1

def failures (p : Programs) : Nat := p.failed.length

def use (p : Programs) (key : ShaderKey) : ActiveProgram × Programs :=
  (.requested, { p with active? := some key })

def fallBack (p : Programs) : ActiveProgram × Programs :=
  (.fallback, { p with active? := .none })

/-- Selects a variant. Without a program and without a source the crossfade is used. -/
def select (compile : String → Except Shader.CompileError Unit) (p : Programs) (key : ShaderKey)
    (source? : Option String) : ActiveProgram × Programs :=
  if p.compiled.contains key then p.use key
  else if (p.compileError? key).isSome then p.fallBack
  else match source? with
    | .none => p.fallBack
    | some source =>
      match compile source with
      | .ok () => { p with compiled := key :: p.compiled }.use key
      | .error e => { p with failed := (key, e) :: p.failed }.fallBack

end Programs

end Segue.Renderer

namespace Segue

/-!
## The renderer

A renderer draws on a device. Without a device, or with a picture larger than the device allows, it
is unsupported; once disposed it stays so. In both cases it does nothing, and its size stays as it
is.
-/

/-- A graphics device: its name, the largest side of a picture, and which sources it compiles. -/
structure Device where
  adapter : String
  maxSide : Nat
  compile : String → Except Shader.CompileError Unit

/-- A device that accepts everything it has the resources for and draws nothing. -/
def Device.blank : Device :=
  { adapter := "noop wgpu backend"
    maxSide := 2147483647
    compile := fun source => (Shader.compile source).map fun _ => () }

def Device.clamp (d : Device) (side : Nat) : Nat := min (max side 1) d.maxSide

namespace Renderer

/-- The buffer through which pictures of one size are read. -/
structure Readback where
  width : Nat
  height : Nat
  row : Nat

/-- The bytes of a row in a buffer, which holds whole blocks of 256 bytes. -/
def Readback.paddedRow (width : Nat) : Nat := (width * 4 + 255) / 256 * 256

/-- A buffer for pictures of that size. Its rows have less than 4 GiB. -/
def Readback.make? (width height : Nat) : Option Readback :=
  let row := paddedRow width
  if row < 4294967296 then some ⟨width, height, row⟩ else none

structure Surface where
  device : Device
  width : Nat
  height : Nat
  programs : Programs
  textures : Texture.Slots
  readback? : Option Readback

/-- The buffer to read the picture through: the one that is there, if it has the size. -/
def Surface.readback (s : Surface) : Option Readback :=
  match s.readback?.filter fun b => b.width = s.width ∧ b.height = s.height with
  | some b => some b
  | none => Readback.make? s.width s.height

inductive State where
  | unsupported
  | ready (s : Surface)
  | disposed

end Renderer

structure Renderer where
  state : Renderer.State
  width : Nat
  height : Nat
  /-- the time that shaders see, if it does not run -/
  pinned? : Option Float

namespace Renderer

def size (r : Renderer) : Nat × Nat := (r.width, r.height)

def surface? (r : Renderer) : Option Surface :=
  match r.state with
  | .ready s => some s
  | _ => none

def isSupported (r : Renderer) : Bool := r.surface?.isSome

def isDisposed (r : Renderer) : Bool :=
  match r.state with
  | .disposed => true
  | _ => false

/-- The renderer with another surface, whose size it takes. -/
def onto (r : Renderer) (s : Surface) : Renderer :=
  { r with state := .ready s, width := s.width, height := s.height }

/-- Creates a renderer for pictures of a size; each side is at least 1. -/
def create (device? : Option Device) (width height pool : Nat) : Renderer :=
  match device? with
  | some d =>
    let w := max width 1
    let h := max height 1
    if w ≤ d.maxSide ∧ h ≤ d.maxSide then
      { state := .ready ⟨d, w, h, .none, .make pool, none⟩
        width := w
        height := h
        pinned? := none }
    else { state := .unsupported, width, height, pinned? := none }
  | none => { state := .unsupported, width, height, pinned? := none }

/-- Selects the program of a variant, with the source to compile if there is none yet. -/
def useSource (r : Renderer) (key : ShaderKey) (source? : Option String) :
    ActiveProgram × Renderer :=
  match r.surface? with
  | some s =>
    let (active, programs) := s.programs.select s.device.compile key source?
    (active, r.onto { s with programs })
  | none => (.fallback, r)

def useVariant (r : Renderer) (registry : Registry Float) (key : ShaderKey) :
    ActiveProgram × Renderer :=
  r.useSource key (registry.fragment? key)

def compileError? (r : Renderer) (key : ShaderKey) : Option Shader.CompileError :=
  r.surface?.bind fun s => s.programs.compileError? key

def updateImage (r : Renderer) (clip : Clip) (i : Image) : Renderer :=
  match r.surface? with
  | some s => r.onto { s with textures := s.textures.upload clip i.width i.height }
  | none => r

def clearImage (r : Renderer) (clip : Clip) : Renderer :=
  match r.surface? with
  | some s => r.onto { s with textures := s.textures.clear clip }
  | none => r

def pinTime (r : Renderer) (time? : Option Float) : Renderer :=
  { r with pinned? := time?.map Scalar.single }

def render (r : Renderer) : Bool :=
  match r.surface? with
  | some s => 0 < s.textures.active
  | none => false

/-- Reads the picture and keeps the buffer. A device that draws nothing leaves the picture blank. -/
def readPixels (r : Renderer) : Option Image × Renderer :=
  match r.surface? with
  | some s =>
    let readback? := s.readback
    (readback?.map fun b => .blank b.width b.height, r.onto { s with readback? })
  | none => (none, r)

def readPixels? (r : Renderer) : Option Image := r.readPixels.1

def noPixels : String := "renderer has no GPU context"

/-- Changes the size of the picture; the images stay. -/
def resize (r : Renderer) (width height : Nat) : Renderer :=
  match r.surface? with
  | some s => r.onto { s with width := s.device.clamp width, height := s.device.clamp height }
  | none => r

def dispose (r : Renderer) : Renderer := { r with state := .disposed }

/-! ### Looking at a renderer -/

structure Stats where
  supported : Bool
  width : Nat
  height : Nat
  active? : Option ShaderKey
  compiled : Nat
  failed : Nat
  activeTextures : Nat
  pooledTextures : Nat
  adapter? : Option String

def stats (r : Renderer) : Stats :=
  match r.surface? with
  | some s =>
    { supported := true
      width := s.width
      height := s.height
      active? := s.programs.active?
      compiled := s.programs.count
      failed := s.programs.failures
      activeTextures := s.textures.active
      pooledTextures := s.textures.pool.size
      adapter? := some s.device.adapter }
  | none =>
    { supported := false
      width := r.width
      height := r.height
      active? := none
      compiled := 0
      failed := 0
      activeTextures := 0
      pooledTextures := 0
      adapter? := none }

instance {m : Type → Type} [Monad m] : Compositor m Float Renderer where
  isSupported := isSupported
  useVariant r registry key := pure (r.useVariant registry key)
  updateImage r clip i := pure (r.updateImage clip i)
  pinTime r time? := pure (r.pinTime time?)
  render r _ := pure (r.render, r)
  readPixels r := pure r.readPixels
  dispose r := pure r.dispose

end Renderer

end Segue
