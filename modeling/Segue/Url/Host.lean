import Segue.Text.Blank
import Segue.Url.Domain
import Segue.Url.Path

/-!
# Hosts

The host of a URL in its normal form: a domain in lower case and ASCII, an IPv4 address as four
decimal numbers, an IPv6 address with its longest run of zeros left out. Schemes that are not
special keep their host as it is.
-/

namespace Segue.Url.Host

def isForbidden (c : Char) : Bool :=
  ['\x00', '\t', '\n', '\r', ' ', '#', '/', ':', '<', '>', '?', '@', '[', '\\', ']', '^',
   '|'].contains c

def isForbiddenInDomain (c : Char) : Bool :=
  isForbidden c || c.toNat < 0x20 || c = '%' || c.toNat = 0x7F

/-! ## IPv6 -/

def isHex (c : Char) : Bool := (Json.Quoted.hexValue? c).isSome

def hexNumber (cs : List Char) : Nat :=
  cs.foldl (fun n c => 16 * n + (Json.Quoted.hexValue? c).getD 0) 0

def decimal (cs : List Char) : Nat := cs.foldl (fun n c => 10 * n + (c.toNat - 0x30)) 0

/-- A decimal number up to 255 without leading zeros. -/
def octet? (cs : List Char) : Option Nat :=
  if cs.isEmpty || 3 < cs.length || !cs.all Char.isDigit then none
  else if cs.headD '0' = '0' && 1 < cs.length then none
  else
    let n := decimal cs
    if n ≤ 255 then some n else none

/-- The two pieces of an IPv4 address at the end. -/
def trailingFour? (cs : List Char) : Option (List Nat) :=
  match (Text.splitChars (· = '.') cs).mapM octet? with
  | some [a, b, c, d] => some [256 * a + b, 256 * c + d]
  | _ => none

def piece? (cs : List Char) : Option Nat :=
  if cs.isEmpty || 4 < cs.length || !cs.all isHex then none else some (hexNumber cs)

/-- Pieces between colons; the last one may be an IPv4 address. -/
def pieces? : List (List Char) → Option (List Nat)
  | [] => some []
  | [last] => if last.contains '.' then trailingFour? last else (piece? last).map ([·])
  | p :: ps => do
    let n ← piece? p
    let rest ← pieces? ps
    some (n :: rest)

/-- Splits at the first pair of colons. -/
def splitPair? : List Char → Option (List Char × List Char)
  | ':' :: ':' :: rest => some ([], rest)
  | c :: rest => (splitPair? rest).map fun (a, b) => (c :: a, b)
  | [] => none

def side? (cs : List Char) : Option (List Nat) :=
  if cs.isEmpty then some [] else pieces? (Text.splitChars (· = ':') cs)

def sixPieces? (cs : List Char) : Option (List Nat) :=
  match splitPair? cs with
  | some (front, back) => do
    if front.contains '.' then none
    let a ← side? front
    let b ← side? back
    let n := a.length + b.length
    if n < 8 then some (a ++ List.replicate (8 - n) 0 ++ b) else none
  | none => do
    let ps ← pieces? (Text.splitChars (· = ':') cs)
    if ps.length = 8 then some ps else none

def zeroRun (ps : List Nat) : Nat := (ps.takeWhile (· = 0)).length

/-- Where the first longest run of at least two zeros begins, and its length. -/
def longestRun (ps : List Nat) : Option (Nat × Nat) :=
  let runs := (List.range ps.length).map fun i => (i, zeroRun (ps.drop i))
  runs.foldl (fun best (i, n) =>
    match best with
    | some (_, m) => if m < n then some (i, n) else best
    | none => if 2 ≤ n then some (i, n) else none) none

def hexText (n : Nat) : List Char := Nat.toDigits 16 n

def colonList (ps : List Nat) : List Char := ":".toList.intercalate (ps.map hexText)

def sixText (ps : List Nat) : List Char :=
  match longestRun ps with
  | some (i, n) => colonList (ps.take i) ++ "::".toList ++ colonList (ps.drop (i + n))
  | none => colonList ps

/-! ## IPv4 -/

/-- A number in decimal, or with `0x` in hexadecimal, or with a further `0` in octal digits. -/
def number? (cs : List Char) : Option Nat :=
  match cs with
  | [] => none
  | '0' :: x :: rest =>
    if x = 'x' || x = 'X' then if rest.all isHex then some (hexNumber rest) else none
    else if (x :: rest).all fun c => '0' ≤ c && c ≤ '7' then
      some ((x :: rest).foldl (fun n c => 8 * n + (c.toNat - 0x30)) 0)
    else none
  | _ =>
    if cs.all Char.isDigit then some (decimal cs) else none

/-- The labels of a domain without an empty last one. -/
def labels (cs : List Char) : List (List Char) :=
  let ls := Text.splitChars (· = '.') cs
  match ls.reverse with
  | [] :: rest@(_ :: _) => rest.reverse
  | _ => ls

/-- The last label is a number, so that the whole must be an address. -/
def endsInNumber (cs : List Char) : Bool :=
  match (labels cs).getLast? with
  | none => false
  | some last =>
    (!last.isEmpty && last.all Char.isDigit)
      || (match last with
        | '0' :: x :: rest => (x = 'x' || x = 'X') && rest.all isHex
        | _ => false)

def fourAddress? (cs : List Char) : Option Nat := do
  let ns ← (labels cs).mapM number?
  let n := ns.length
  if n = 0 || 4 < n then none
  let front := ns.dropLast
  let last ← ns.getLast?
  if front.any (255 < ·) || Nat.pow 256 (5 - n) ≤ last then none
  let step := fun ((value, place) : Nat × Nat) x => (value + x * Nat.pow 256 place, place - 1)
  some (front.foldl step (last, 3)).1

def fourText (n : Nat) : List Char :=
  let octet (place : Nat) : List Char := Nat.toDigits 10 (n / Nat.pow 256 place % 256)
  ".".toList.intercalate ([3, 2, 1, 0].map octet)

def parse? (special : Bool) (cs : List Char) : Option (List Char) :=
  match cs with
  | '[' :: rest =>
    match rest.reverse with
    | ']' :: inner => (sixPieces? inner.reverse).map fun ps => '[' :: sixText ps ++ [']']
    | _ => none
  | _ =>
    if !special then if cs.any isForbidden then none else some (encode controlSet cs)
    else do
      let domain ← Domain.text? (← decode? cs)
      if domain.isEmpty || domain.any isForbiddenInDomain then none
      if endsInNumber domain then (fourAddress? domain).map fourText else some domain

end Segue.Url.Host
