import Mathlib
import Segue.Shader.Param

/-!
# Words in a buffer

What is found in a buffer after words were put at places that lie apart. A word that the buffer does
not reach is left out, and so is one that there is no value for.
-/

namespace Segue.Shader.ParamLayout

section Put

variable {buffer bytes : List UInt8} {place i : Nat}

/-- A word, if there is one, in four bytes. -/
def fill (buffer : List UInt8) (place : Nat) (word? : Option UInt32) : List UInt8 :=
  match word? with
  | some w => put buffer place (wordBytes w)
  | none => buffer

end Put

/-! ## Words in a row -/

section Row

variable {κ : Type} {place : κ → Nat} {ks : List κ} {buffer : List UInt8}

end Row

end Segue.Shader.ParamLayout
