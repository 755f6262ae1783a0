import Segue.Json.Basic
import Segue.Json.Quoted

/-!
# Printing JSON

Two layouts: everything on one line, or one item per line, indented by two spaces. An empty array
or object stays on one line in both.
-/

namespace Segue.Json

inductive Style where
  | compact | pretty
  deriving DecidableEq, Repr

def Style.line (style : Style) (depth : Nat) : List Char :=
  match style with
  | .compact => []
  | .pretty => '\n' :: List.replicate (2 * depth) ' '

def Style.colon : Style → List Char
  | .compact => [':']
  | .pretty => [':', ' ']

variable {α : Type} [Numeral α]

def numberText (x : α) : List Char :=
  if Scalar.isFinite x then Numeral.dataText x else "null".toList

mutual

def write (style : Style) (depth : Nat) : Json α → List Char
  | .null => "null".toList
  | .bool true => "true".toList
  | .bool false => "false".toList
  | .int n => (toString n).toList
  | .float x => numberText x
  | .str s => Quoted.encode s.toList
  | .arr [] => ['[', ']']
  | .arr (v :: vs) =>
    '[' :: style.line (depth + 1) ++ write style (depth + 1) v ++ writeItems style depth vs
  | .obj [] => ['\x7b', '\x7d']
  | .obj ((k, v) :: ms) =>
    '\x7b' :: style.line (depth + 1) ++ Quoted.encode k.toList ++ style.colon
      ++ write style (depth + 1) v ++ writeMembers style depth ms

/-- The items after the first one, and the end of the array. -/
def writeItems (style : Style) (depth : Nat) : List (Json α) → List Char
  | [] => style.line depth ++ [']']
  | v :: vs =>
    ',' :: style.line (depth + 1) ++ write style (depth + 1) v ++ writeItems style depth vs

/-- The members after the first one, and the end of the object. -/
def writeMembers (style : Style) (depth : Nat) : List (String × Json α) → List Char
  | [] => style.line depth ++ ['\x7d']
  | (k, v) :: ms =>
    ',' :: style.line (depth + 1) ++ Quoted.encode k.toList ++ style.colon
      ++ write style (depth + 1) v ++ writeMembers style depth ms

end

def render (style : Style) (j : Json α) : String := String.ofList (write style 0 j)

end Segue.Json
