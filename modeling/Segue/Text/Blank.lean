/-!
# Blanks

Blanks are the characters with the Unicode property White_Space: 25 code points in ten ranges.
Trimming removes them at both ends of a text.
-/

namespace Segue.Text

def blankRanges : List (Nat × Nat) :=
  [(0x09, 0x0D), (0x20, 0x20), (0x85, 0x85), (0xA0, 0xA0), (0x1680, 0x1680), (0x2000, 0x200A),
   (0x2028, 0x2029), (0x202F, 0x202F), (0x205F, 0x205F), (0x3000, 0x3000)]

def isBlank (c : Char) : Bool :=
  blankRanges.any fun r => r.1 ≤ c.toNat && c.toNat ≤ r.2

def trimLeft (cs : List Char) : List Char := cs.dropWhile isBlank

def trimRight (cs : List Char) : List Char := (cs.reverse.dropWhile isBlank).reverse

def trimChars (cs : List Char) : List Char := trimRight (trimLeft cs)

def trim (s : String) : String := String.ofList (trimChars s.toList)

def allBlank (s : String) : Bool := s.toList.all isBlank

/-- Maximal runs of characters that are not blank. -/
def words (cs : List Char) : List (List Char) :=
  (cs.splitBy fun a b => isBlank a == isBlank b).filter fun w => w.any fun c => !isBlank c

/-- The pieces between the characters that satisfy `p`, always at least one. -/
def splitChars (p : Char → Bool) : List Char → List (List Char)
  | [] => [[]]
  | c :: cs =>
    if p c then [] :: splitChars p cs
    else match splitChars p cs with
      | [] => [[c]]
      | w :: ws => (c :: w) :: ws

/-- The text before the first occurrence of `sep` and the text after it. -/
def splitOnce? (sep : Char) : List Char → Option (List Char × List Char)
  | [] => none
  | c :: cs => if c = sep then some ([], cs) else (splitOnce? sep cs).map fun (a, b) => (c :: a, b)

/-- What follows `start`, if the text starts with it. -/
def dropStart? : (start : List Char) → List Char → Option (List Char)
  | [], cs => some cs
  | _ :: _, [] => none
  | a :: as, c :: cs => if a = c then dropStart? as cs else none

def dropReturn (cs : List Char) : List Char :=
  match cs.reverse with
  | '\r' :: r => r.reverse
  | _ => cs

/-- The lines of a text: each ends at a line feed, a carriage return before it is dropped, and
nothing follows a final line feed. -/
def linesOf (cs : List Char) : List (List Char) :=
  let pieces := splitChars (· = '\n') cs
  let last := pieces.getLastD []
  let closed := pieces.dropLast.map dropReturn
  if last.isEmpty then closed else closed ++ [last]

/-!
## Ranges of code points

Sets of characters as closed ranges of code points, and their text: numbers to base 16, the two ends
of a range joined by a hyphen, blanks between the ranges.
-/

def sixteenth (c : Char) : Nat := if c.isDigit then c.toNat - 0x30 else c.toNat - 0x37

def sixteenths (cs : List Char) : Nat := cs.foldl (fun n c => 16 * n + sixteenth c) 0

structure Ranges where
  bounds : List (Nat × Nat)

namespace Ranges

def ofWord (w : List Char) : Nat × Nat :=
  match splitOnce? '-' w with
  | some (low, high) => (sixteenths low, sixteenths high)
  | none => (sixteenths w, sixteenths w)

def read (text : String) : Ranges := ⟨(words text.toList).map ofWord⟩

def holds (r : Ranges) (c : Char) : Bool :=
  r.bounds.any fun (low, high) => low ≤ c.toNat && c.toNat ≤ high

end Ranges

end Segue.Text
