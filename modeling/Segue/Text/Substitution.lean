import Segue.Text.Blank

/-!
# Substitutions

Texts that take the place of single characters. The text of a substitution lists runs of characters
in ascending order: `@A0` says where the next run begins; `61` is a character that becomes another;
`20.308` one that becomes several; `-` one that goes; `E0*17` are seventeen (to base 16) in
succession that move alike, and `101/18` as many that are every second one.
-/

namespace Segue.Text

/-- Code points in equal steps, each with others in its place. -/
structure Run where
  first : Nat
  count : Nat
  step : Nat
  /-- What takes the place of the first one. -/
  image : List Nat

namespace Run

/-- What takes the place of a code point: a single one moves along with it. -/
def imageOf? (r : Run) (n : Nat) : Option (List Nat) :=
  if r.first ≤ n && (n - r.first) % r.step = 0 && (n - r.first) / r.step < r.count then
    match r.image with
    | [x] => some [x + (n - r.first)]
    | image => some image
  else none

def finish (r : Run) : Nat := r.first + r.step * r.count

def imageOfWord (w : List Char) : List Nat :=
  if w = ['-'] then [] else (splitChars (· = '.') w).map sixteenths

def ofWord (first : Nat) (w : List Char) : Run :=
  match splitOnce? '*' w, splitOnce? '/' w with
  | some (image, count), _ => ⟨first, sixteenths count, 1, imageOfWord image⟩
  | none, some (image, count) => ⟨first, sixteenths count, 2, imageOfWord image⟩
  | none, none => ⟨first, 1, 1, imageOfWord w⟩

end Run

structure Substitution where
  runs : List Run

namespace Substitution

def runsFrom : (place : Nat) → List (List Char) → List Run
  | _, [] => []
  | _, ('@' :: n) :: ws => runsFrom (sixteenths n) ws
  | place, w :: ws =>
    let r := Run.ofWord place w
    r :: runsFrom r.finish ws

def read (text : String) : Substitution := ⟨runsFrom 0 (words text.toList)⟩

def imageOf? (s : Substitution) (c : Char) : Option (List Char) :=
  (s.runs.findSome? (·.imageOf? c.toNat)).map (·.map Char.ofNat)

/-- The first character in whose place a text stands. -/
def preimageOf? (s : Substitution) (text : List Char) : Option Char :=
  let image := text.map Char.toNat
  (s.runs.find? (·.image = image)).map fun r => Char.ofNat r.first

end Substitution

end Segue.Text
