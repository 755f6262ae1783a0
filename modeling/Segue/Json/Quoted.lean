/-!
# JSON strings

Between the quotes of a JSON string stand escapes and all characters but quotes, backslashes and
controls.
-/

namespace Segue.Json.Quoted

def hexDigit (n : Nat) : Char := (Nat.toDigits 16 (n % 16)).headD '0'

def hexValue? (c : Char) : Option Nat :=
  if '0' ≤ c ∧ c ≤ '9' then some (c.toNat - 48)
  else if 'a' ≤ c ∧ c ≤ 'f' then some (c.toNat - 87)
  else if 'A' ≤ c ∧ c ≤ 'F' then some (c.toNat - 55)
  else none

def escapeChar (c : Char) : List Char :=
  match c with
  | '"' => ['\\', '"']
  | '\\' => ['\\', '\\']
  | '\n' => ['\\', 'n']
  | '\r' => ['\\', 'r']
  | '\t' => ['\\', 't']
  | c =>
    if c.toNat = 8 then ['\\', 'b']
    else if c.toNat = 12 then ['\\', 'f']
    else if c.toNat < 32 then ['\\', 'u', '0', '0', hexDigit (c.toNat / 16), hexDigit c.toNat]
    else [c]

def encode (cs : List Char) : List Char := '"' :: (cs.flatMap escapeChar ++ ['"'])

def hex4? : List Char → Option (Nat × List Char)
  | a :: b :: c :: d :: rest => do
    let a ← hexValue? a
    let b ← hexValue? b
    let c ← hexValue? c
    let d ← hexValue? d
    some (((a * 16 + b) * 16 + c) * 16 + d, rest)
  | _ => none

def isHigh (u : Nat) : Bool := 0xD800 ≤ u && u < 0xDC00

def isLow (u : Nat) : Bool := 0xDC00 ≤ u && u < 0xE000

/-- The character of a `u` escape: one unit, or two that form a surrogate pair. -/
def unicode? (cs : List Char) : Option (Char × List Char) := do
  let (u, rest) ← hex4? cs
  if isHigh u then
    match rest with
    | '\\' :: 'u' :: rest =>
      let (v, rest) ← hex4? rest
      if isLow v then some (Char.ofNat (0x10000 + (u - 0xD800) * 1024 + (v - 0xDC00)), rest)
      else none
    | _ => none
  else if isLow u then none
  else some (Char.ofNat u, rest)

def escape? : List Char → Option (Char × List Char)
  | '"' :: rest => some ('"', rest)
  | '\\' :: rest => some ('\\', rest)
  | '/' :: rest => some ('/', rest)
  | 'b' :: rest => some ('\x08', rest)
  | 'f' :: rest => some ('\x0c', rest)
  | 'n' :: rest => some ('\n', rest)
  | 'r' :: rest => some ('\r', rest)
  | 't' :: rest => some ('\t', rest)
  | 'u' :: rest => unicode? rest
  | _ => none

/-- The text up to the closing quote, and what follows it; `n` bounds the number of characters. -/
def body? : (n : Nat) → List Char → Option (List Char × List Char)
  | 0, _ => none
  | _ + 1, [] => none
  | n + 1, c :: cs =>
    if c = '"' then some ([], cs)
    else if c = '\\' then do
      let (x, rest) ← escape? cs
      let (xs, rest) ← body? n rest
      some (x :: xs, rest)
    else if c.toNat < 32 then none
    else do
      let (xs, rest) ← body? n cs
      some (c :: xs, rest)

/-- Reads a string after its opening quote. -/
def decode? (cs : List Char) : Option (List Char × List Char) := body? cs.length cs

def skipEscape? : List Char → Option (List Char)
  | 'u' :: rest => (hex4? rest).map (·.2)
  | c :: rest => if ['"', '\\', '/', 'b', 'f', 'n', 'r', 't'].contains c then some rest else none
  | [] => none

/-- Passes over a string; surrogates need not be paired. -/
def skipBody? : (n : Nat) → List Char → Option (List Char)
  | 0, _ => none
  | _ + 1, [] => none
  | n + 1, c :: cs =>
    if c = '"' then some cs
    else if c = '\\' then do skipBody? n (← skipEscape? cs)
    else if c.toNat < 32 then none
    else skipBody? n cs

def skip? (cs : List Char) : Option (List Char) := skipBody? cs.length cs

end Segue.Json.Quoted

namespace Segue.Text

/-!
## Hexadecimal text

Bytes as text with two lower case digits each.
-/

def hexOfByte (b : UInt8) : List Char :=
  [Json.Quoted.hexDigit (b.toNat / 16), Json.Quoted.hexDigit b.toNat]

def hexOf (bytes : List UInt8) : String := String.ofList (bytes.flatMap hexOfByte)

def bytesFrom? : List Char → Option (List UInt8)
  | [] => some []
  | [_] => none
  | a :: b :: rest => do
    let x ← Json.Quoted.hexValue? a
    let y ← Json.Quoted.hexValue? b
    some ((16 * x + y).toUInt8 :: (← bytesFrom? rest))

def bytes? (s : String) : Option (List UInt8) := bytesFrom? s.toList

end Segue.Text
