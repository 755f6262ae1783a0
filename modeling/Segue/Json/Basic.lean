import Segue.Scalar
import Segue.Keyed

/-!
# JSON values

Numbers without fraction and exponent that fit 64 bits stay integers; all others are of the number
type `α`. Members of an object that was read are sorted by name.
-/

namespace Segue

inductive Json (α : Type) where
  | null
  | bool (b : Bool)
  | int (n : Int)
  | float (x : α)
  | str (s : String)
  | arr (items : List (Json α))
  | obj (members : List (String × Json α))
  deriving Repr

namespace Json

variable {α : Type} [Scalar α]

instance {α : Type} : Inhabited (Json α) := ⟨.null⟩

/-- The integers that stay integers: those of 64 bits, signed or not. -/
def isWord (n : Int) : Bool := -0x8000000000000000 ≤ n && n < 0x10000000000000000

def asNumber? : Json α → Option α
  | .int n => some (Scalar.ofInt n)
  | .float x => some x
  | _ => none

/-- The JSON form of a number: what is not finite has none. -/
def ofNumber (x : α) : Json α := if Scalar.isFinite x then .float x else .null

mutual

/-- Equality; an integer differs from every other number. -/
def same : Json α → Json α → Bool
  | .null, .null => true
  | .bool a, .bool b => a == b
  | .int a, .int b => a == b
  | .float a, .float b => Scalar.same a b
  | .str a, .str b => a == b
  | .arr a, .arr b => sameItems a b
  | .obj a, .obj b => sameMembers a b
  | _, _ => false

def sameItems : List (Json α) → List (Json α) → Bool
  | [], [] => true
  | a :: as, b :: bs => same a b && sameItems as bs
  | _, _ => false

def sameMembers : List (String × Json α) → List (String × Json α) → Bool
  | [], [] => true
  | (k, a) :: as, (l, b) :: bs => k == l && same a b && sameMembers as bs
  | _, _ => false

end

end Json

end Segue
