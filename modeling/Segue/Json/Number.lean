import Segue.Json.Basic
import Segue.Decimal.Read

/-!
# Numbers in JSON

A number's digits are taken into a significand as long as it fits a machine word. The digits in
front of the point that no longer fit count as a power of ten; those behind the point are dropped.
What then remains is an integer, or is scaled by the number type.
-/

namespace Segue.Json

structure NumberText where
  negative : Bool
  significand : Nat
  exp : Int
  /-- Neither fraction nor exponent is written, and all digits are in the significand. -/
  integral : Bool
  deriving Repr

/-- Takes digits into the significand `n` while it fits a machine word, and returns the others. -/
def takeDigits : (n : Nat) → List Char → Nat × List Char
  | n, [] => (n, [])
  | n, c :: cs =>
    let next := 10 * n + Decimal.digitValue c
    if next ≤ maxCount then takeDigits next cs else (n, c :: cs)

/-- The digits in front, at least one. -/
def digits? (cs : List Char) : Option (List Char × List Char) :=
  let ds := cs.takeWhile Char.isDigit
  if ds.isEmpty then none else some (ds, cs.dropWhile Char.isDigit)

/-- The digits in front; a zero stands alone. -/
def whole? (cs : List Char) : Option (List Char × List Char) := do
  let (ds, rest) ← digits? cs
  if ds.head? = some '0' && 1 < ds.length then none else some (ds, rest)

def fraction? : List Char → Option (List Char × List Char)
  | '.' :: cs => digits? cs
  | cs => some ([], cs)

def exponent? (cs : List Char) : Option (Option Int × List Char) :=
  match cs with
  | [] => some (none, [])
  | c :: rest =>
    if c = 'e' || c = 'E' then do
      let (negative, rest) := Decimal.takeSign rest
      let (ds, rest) ← digits? rest
      let e := Decimal.exponentValue ds
      some (some (if negative then -e else e), rest)
    else some (none, cs)

def numberText? (cs : List Char) : Option (NumberText × List Char) := do
  let (negative, cs) := match cs with
    | '-' :: rest => (true, rest)
    | _ => (false, cs)
  let (ds, cs) ← whole? cs
  let (part, cs) ← fraction? cs
  let (e, cs) ← exponent? cs
  let (n, surplus) := takeDigits 0 ds
  let (n, dropped) := takeDigits n part
  let exp : Int := e.getD 0 + surplus.length - part.length + dropped.length
  some (⟨negative, n, exp, surplus.isEmpty && part.isEmpty && e.isNone⟩, cs)

/-- The value of a number's text; it must not exceed the finite values. -/
def NumberText.value? {α : Type} [Numeral α] (t : NumberText) : Option (Json α) :=
  let n := t.significand
  let signed : Int := if t.negative then -(n : Int) else n
  if t.integral && isWord signed && !(t.negative && n = 0) then some (.int signed)
  else (Numeral.ofDecimal? t.negative n t.exp).map .float

def startsNumber (c : Char) : Bool := c = '-' || c.isDigit

end Segue.Json
