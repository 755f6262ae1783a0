import Segue.Image
import Segue.Shader.Registry
import Segue.Timeline

/-!
# Compositors

A compositor blends the images of two clips with a shader program. A `Shot` is all that one picture
depends on besides the images.
-/

namespace Segue

inductive ActiveProgram where
  | requested | fallback
  deriving DecidableEq, Repr

/-- What to draw with the images that are there. -/
structure Shot (α : Type) where
  /-- The eased progress in single precision. -/
  progress : α
  intensity : α
  uniforms : Uniforms α
  deriving Repr

/-- Compositors with state `κ` whose actions run in `m`. Numbers are of type `α`. -/
class Compositor (m : Type → Type) (α : outParam Type) (κ : Type) where
  isSupported : κ → Bool
  useVariant : κ → Registry α → ShaderKey → m (ActiveProgram × κ)
  updateImage : κ → Clip → Image → m κ
  /-- Fixes the time that shaders see, or lets it run. -/
  pinTime : κ → Option α → m κ
  /-- Draws; false if there is no image to draw yet. -/
  render : κ → Shot α → m (Bool × κ)
  /-- The picture that was drawn last, unless it cannot be read. -/
  readPixels : κ → m (Option Image × κ)
  dispose : κ → m κ

def Compositor.show {m : Type → Type} [Monad m] {α κ : Type} [Compositor m α κ] (k : κ)
    (clip : Clip) : Option Image → m κ
  | some i => Compositor.updateImage k clip i
  | none => pure k

end Segue
