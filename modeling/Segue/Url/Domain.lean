import Segue.Text.Composite
import Segue.Url.Label
import Segue.Url.Mapping

/-!
# Punycode

Writes labels of domain names with ASCII characters only, and reads them. The characters beyond
ASCII are inserted in the order of their code points; each insertion is a distance in digits to base
36, with thresholds that adapt to the distances seen so far.
-/

namespace Segue.Url.Punycode

def digit (d : Nat) : Char :=
  if d < 26 then Char.ofNat (0x61 + d) else Char.ofNat (0x30 + d - 26)

/-- The least digit that does not end a number at a place. -/
def threshold (place bias : Nat) : Nat :=
  if place ≤ bias + 1 then 1 else if bias + 26 ≤ place then 26 else place - bias

/-- The digits of a distance, the lowest first; `n` bounds their number. -/
def digits (bias : Nat) : (n : Nat) → (place value : Nat) → List Char
  | 0, _, value => [digit value]
  | n + 1, place, value =>
    let t := threshold place bias
    if value < t then [digit value]
    else
      digit (t + (value - t) % (36 - t))
        :: digits bias n (place + 36) ((value - t) / (36 - t))

/-- Divides by 35 until a distance is small; `n` bounds the number of divisions. -/
def shrink : (n : Nat) → (delta k : Nat) → Nat × Nat
  | 0, delta, k => (delta, k)
  | n + 1, delta, k => if 455 < delta then shrink n (delta / 35) (k + 36) else (delta, k)

def adapt (delta count : Nat) (first : Bool) : Nat :=
  let delta := if first then delta / 700 else delta / 2
  let (delta, k) := shrink delta (delta + delta / count) 0
  k + 36 * delta / (delta + 38)

structure State where
  out : List Char
  delta : Nat
  bias : Nat
  /-- The characters written so far. -/
  handled : Nat

/-- Passes one character while the code point `m` is inserted. -/
def visit (basic m : Nat) (s : State) (c : Char) : State :=
  if c.toNat < m then { s with delta := s.delta + 1 }
  else if c.toNat = m then
    { out := s.out ++ digits s.bias s.delta 36 s.delta
      delta := 0
      bias := adapt s.delta (s.handled + 1) (s.handled = basic)
      handled := s.handled + 1 }
  else s

/-- Inserts the code points of a sorted list; `next` is the least one that could come. -/
def insertAll (label : List Char) (basic : Nat) : List Nat → (next : Nat) → State → State
  | [], _, s => s
  | m :: ms, next, s =>
    let s := { s with delta := s.delta + (m - next) * (s.handled + 1) }
    let s := label.foldl (visit basic m) s
    insertAll label basic ms (m + 1) { s with delta := s.delta + 1 }

def distinct : List Nat → List Nat
  | a :: b :: rest => if a = b then distinct (b :: rest) else a :: distinct (b :: rest)
  | rest => rest

def encode (label : List Char) : List Char :=
  let basic := label.filter (·.toNat < 0x80)
  let points := (label.filter (0x80 ≤ ·.toNat)).map Char.toNat
  let sorted := distinct (points.mergeSort (· ≤ ·))
  let s := insertAll label basic.length sorted 0x80 ⟨[], 0, 72, basic.length⟩
  basic ++ (if basic.isEmpty then [] else ['-']) ++ s.out

/-! ### Reading -/

def digitValue? (c : Char) : Option Nat :=
  if c.isLower then some (c.toNat - 0x61)
  else if c.isUpper then some (c.toNat - 0x41)
  else if c.isDigit then some (c.toNat - 0x30 + 26)
  else none

/-- Reads the digits of one distance, which is added to `sum`, and what follows them. -/
def readDistance? (bias : Nat) :
    (place weight sum : Nat) → List Char → Option (Nat × List Char)
  | _, _, _, [] => none
  | place, weight, sum, c :: cs => do
    let d ← digitValue? c
    let t := threshold place bias
    let sum := sum + d * weight
    if d < t then some (sum, cs) else readDistance? bias (place + 36) (weight * (36 - t)) sum cs

/-- Inserts characters at their distances; `n` bounds their number. -/
def insertFrom? : (n : Nat) → (point place bias : Nat) → (label rest : List Char) →
    Option (List Char)
  | _, _, _, _, label, [] => some label
  | 0, _, _, _, _, _ :: _ => none
  | n + 1, point, place, bias, label, rest => do
    let (sum, rest) ← readDistance? bias 36 1 place rest
    let count := label.length + 1
    let point := point + sum / count
    if !point.isValidChar then none
    let label := label.insertIdx (sum % count) (Char.ofNat point)
    insertFrom? n point (sum % count + 1) (adapt (sum - place) count (place = 0)) label rest

/-- The label that a text stands for: ASCII characters come before the last hyphen. -/
def decode? (cs : List Char) : Option (List Char) :=
  let digits := (cs.reverse.takeWhile (· ≠ '-')).reverse
  let basic := cs.take (cs.length - digits.length - 1)
  let digits := if basic.isEmpty then cs else digits
  insertFrom? digits.length 0x80 0 72 basic digits

end Segue.Url.Punycode

namespace Segue.Url.Domain

/-!
## Domains

A domain is a series of labels between dots. Its characters are taken in their domain forms and
composed. A label beyond ASCII is written as `xn--` and its Punycode; a label that is given so must
stand for one that has exactly this writing. No label begins with a mark, has joiners that cannot be
seen, or, in a domain of both directions, loses its own direction.
-/

def mark : List Char := "xn--".toList

def maxLetters : Nat := 1000

def maxPunycode : Nat := 2000

def forms? (cs : List Char) : Option (List Char) :=
  (cs.mapM domainForm?).map fun forms => Text.compose forms.flatten

def isClear (letters : List Char) : Bool :=
  !(letters.head?.map Text.isMark).getD false && !mark.isPrefixOf letters
    && joinersShow [] letters

structure Label where
  letters : List Char
  text : List Char

def isAscii (cs : List Char) : Bool := cs.all (·.toNat < 0x80)

def Label.ofPunycode? (code : List Char) : Option Label := do
  if !isAscii code || maxPunycode < code.length then none
  let letters ← Punycode.decode? code
  if isAscii letters || forms? letters != some letters || !isClear letters then none
  some ⟨letters, mark ++ code⟩

def Label.ofForms? (cs : List Char) : Option Label :=
  match Text.dropStart? mark cs with
  | some code => Label.ofPunycode? code
  | none =>
    if isAscii cs then some ⟨cs, cs⟩
    else if isClear cs && cs.length ≤ maxLetters then some ⟨cs, mark ++ Punycode.encode cs⟩
    else none

def text? (cs : List Char) : Option (List Char) := do
  let labels ← (Text.splitChars (· = '.') (← forms? cs)).mapM Label.ofForms?
  let turns := labels.any fun l => l.letters.any turnsDomain
  if turns && !labels.all fun l => keepsDirection l.letters then none
  some (".".toList.intercalate (labels.map (·.text)))

end Segue.Url.Domain
