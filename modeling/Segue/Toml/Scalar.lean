import Segue.Toml.Basic
import Segue.Json.Quoted

/-!
# TOML scalars

Strings in four kinds of quotes, numbers, truth values, dates and times. Each reader takes its value
from the front of a text.
-/

namespace Segue.Toml

abbrev Scan (σ : Type) := List Char → Option (σ × List Char)

def isSpace (c : Char) : Bool := c = ' ' || c = '\t'

def dropSpace (cs : List Char) : List Char := cs.dropWhile isSpace

/-- A line break: a line feed, or a carriage return and a line feed. -/
def newline? : List Char → Option (List Char)
  | '\n' :: cs => some cs
  | '\r' :: '\n' :: cs => some cs
  | _ => none

/-- Characters of comments and strings: no controls but the tab. -/
def isText (c : Char) : Bool := c = '\t' || (32 ≤ c.toNat && c.toNat ≠ 127)

/-- What follows a comment, which ends before a line break. -/
def comment? (cs : List Char) : Option (List Char) :=
  match cs with
  | '#' :: rest => some (rest.dropWhile isText)
  | cs => some cs

/-- What follows spaces, comments and line breaks; at most `n` of them. -/
def dropGaps : (n : Nat) → List Char → List Char
  | 0, cs => cs
  | n + 1, cs =>
    let cs := dropSpace cs
    match comment? cs with
    | none => cs
    | some rest =>
      match newline? rest with
      | some rest => dropGaps n rest
      | none => cs

def dropBreaks (cs : List Char) : List Char := dropGaps (cs.length + 1) cs

/-! ## Strings -/

def hexDigits? : (n : Nat) → Nat → Scan Nat
  | 0, acc, cs => some (acc, cs)
  | _ + 1, _, [] => none
  | n + 1, acc, c :: cs => do hexDigits? n (16 * acc + (← Json.Quoted.hexValue? c)) cs

/-- A code point that is no surrogate. -/
def charOf? (n : Nat) : Option Char := if n.isValidChar then some (Char.ofNat n) else none

def escape? : Scan Char
  | 'b' :: cs => some ('\x08', cs)
  | 't' :: cs => some ('\t', cs)
  | 'n' :: cs => some ('\n', cs)
  | 'f' :: cs => some ('\x0c', cs)
  | 'r' :: cs => some ('\r', cs)
  | '"' :: cs => some ('"', cs)
  | '\\' :: cs => some ('\\', cs)
  | 'u' :: cs => do
    let (n, rest) ← hexDigits? 4 0 cs
    some (← charOf? n, rest)
  | 'U' :: cs => do
    let (n, rest) ← hexDigits? 8 0 cs
    some (← charOf? n, rest)
  | _ => none

/-- The text up to a double quote; `n` bounds its length. -/
def basicBody? : (n : Nat) → Scan (List Char)
  | 0, _ => none
  | _ + 1, [] => none
  | n + 1, c :: cs =>
    if c = '"' then some ([], cs)
    else if c = '\\' then do
      let (x, rest) ← escape? cs
      let (xs, rest) ← basicBody? n rest
      some (x :: xs, rest)
    else if isText c then do
      let (xs, rest) ← basicBody? n cs
      some (c :: xs, rest)
    else none

def literalBody? (cs : List Char) : Option (List Char × List Char) :=
  let body := cs.takeWhile fun c => isText c && c ≠ '\''
  match cs.drop body.length with
  | '\'' :: rest => some (body, rest)
  | _ => none

/-- The end of a text in three quotes: up to two more quotes belong to the text. -/
def closing? (q : Char) (cs : List Char) : Option (List Char × List Char) :=
  let n := (cs.takeWhile (· = q)).length
  if n < 3 then none
  else
    let extra := min (n - 3) 2
    some (List.replicate extra q, cs.drop (extra + 3))

/-- What follows a backslash at the end of a line: all blanks up to the next text. -/
def lineContinuation? (cs : List Char) : Option (List Char) :=
  match newline? (dropSpace cs) with
  | none => none
  | some rest =>
    some (rest.dropWhile fun c => isSpace c || c = '\n' || c = '\r')

def multiBasicBody? : (n : Nat) → Scan (List Char)
  | 0, _ => none
  | _ + 1, [] => none
  | n + 1, c :: cs =>
    match closing? '"' (c :: cs) with
    | some found => some found
    | none =>
      if c = '\\' then
        match lineContinuation? cs with
        | some rest => multiBasicBody? n rest
        | none => do
          let (x, rest) ← escape? cs
          let (xs, rest) ← multiBasicBody? n rest
          some (x :: xs, rest)
      else
        match newline? (c :: cs) with
        | some rest => do
          let (xs, rest) ← multiBasicBody? n rest
          some ('\n' :: xs, rest)
        | none =>
          if isText c then do
            let (xs, rest) ← multiBasicBody? n cs
            some (c :: xs, rest)
          else none

def multiLiteralBody? : (n : Nat) → Scan (List Char)
  | 0, _ => none
  | _ + 1, [] => none
  | n + 1, c :: cs =>
    match closing? '\'' (c :: cs) with
    | some found => some found
    | none =>
      match newline? (c :: cs) with
      | some rest => do
        let (xs, rest) ← multiLiteralBody? n rest
        some ('\n' :: xs, rest)
      | none =>
        if isText c then do
          let (xs, rest) ← multiLiteralBody? n cs
          some (c :: xs, rest)
        else none

/-- A line break directly after the opening quotes does not count. -/
def dropFirstBreak (cs : List Char) : List Char := (newline? cs).getD cs

def lineString? : Scan String
  | '"' :: cs => (basicBody? (cs.length + 1) cs).map fun (s, r) => (String.ofList s, r)
  | '\'' :: cs => (literalBody? cs).map fun (s, r) => (String.ofList s, r)
  | _ => none

def string? : Scan String
  | '"' :: '"' :: '"' :: cs =>
    (multiBasicBody? (cs.length + 1) (dropFirstBreak cs)).map fun (s, r) => (String.ofList s, r)
  | '\'' :: '\'' :: '\'' :: cs =>
    (multiLiteralBody? (cs.length + 1) (dropFirstBreak cs)).map fun (s, r) => (String.ofList s, r)
  | cs => lineString? cs

/-! ## Numbers -/

/-- Digits in which single underscores may stand between two of them; the underscores are dropped.
-/
def digits? (isDigit : Char → Bool) : Scan (List Char)
  | [] => none
  | c :: cs =>
    if !isDigit c then none
    else
      match cs with
      | '_' :: rest => (digits? isDigit rest).map fun (ds, r) => (c :: ds, r)
      | rest =>
        match digits? isDigit rest with
        | some (ds, r) => some (c :: ds, r)
        | none => some ([c], rest)

/-- Digits that start with no zero, unless there is only one. -/
def wholeDigits? (cs : List Char) : Option (List Char × List Char) := do
  let (ds, rest) ← digits? Char.isDigit cs
  if ds.head? = some '0' then
    -- the underscore form of a leading zero is refused too
    match cs with
    | '0' :: '_' :: _ => none
    | _ => if 1 < ds.length then none else some (ds, rest)
  else some (ds, rest)

def ofBase (b : Nat) (ds : List Char) : Nat :=
  ds.foldl (fun n c => b * n + (Json.Quoted.hexValue? c).getD 0) 0

def basedInt? (cs : List Char) : Option (Toml × List Char) := do
  let (base, isDigit, rest) ← match cs with
    | '0' :: 'x' :: rest => some (16, fun c => (Json.Quoted.hexValue? c).isSome, rest)
    | '0' :: 'o' :: rest => some (8, fun (c : Char) => '0' ≤ c && c ≤ '7', rest)
    | '0' :: 'b' :: rest => some (2, fun (c : Char) => c = '0' || c = '1', rest)
    | _ => none
  let (ds, rest) ← digits? isDigit rest
  let n : Int := ofBase base ds
  if isWord n then some (.int n, rest) else none

def fraction? : List Char → Option (Option (List Char) × List Char)
  | '.' :: cs => (digits? Char.isDigit cs).map fun (ds, r) => (some ds, r)
  | cs => some (none, cs)

def exponent? : List Char → Option (Option Int × List Char)
  | [] => some (none, [])
  | c :: cs =>
    if c = 'e' || c = 'E' then do
      let (negative, cs) := Decimal.takeSign cs
      let (ds, rest) ← digits? Char.isDigit cs
      let e := Decimal.exponentValue ds
      some (some (if negative then -e else e), rest)
    else some (none, c :: cs)

/-- A decimal number: an integer, or a float if a fraction or exponent is written. -/
def decimal? (cs : List Char) : Option (Toml × List Char) := do
  let (negative, cs) := Decimal.takeSign cs
  match cs with
  | 'i' :: 'n' :: 'f' :: rest => some (.float (if negative then -(1.0 / 0.0) else 1.0 / 0.0), rest)
  | 'n' :: 'a' :: 'n' :: rest => some (.float (0.0 / 0.0), rest)
  | cs =>
    let (ds, rest) ← wholeDigits? cs
    let (part, rest) ← fraction? rest
    let (e, rest) ← exponent? rest
    if part.isNone && e.isNone then
      let n : Int := Decimal.ofDigits ds
      let n := if negative then -n else n
      if isWord n then some (.int n, rest) else none
    else
      let part := part.getD []
      let x := Decimal.nearest (Decimal.ofDigits (ds ++ part)) (e.getD 0 - part.length)
      if negative then some (.float (-x), rest)
      else if x.isInf then none
      else some (.float x, rest)

/-! ## Dates and times -/

/-- A number of exactly `n` digits. -/
def fixed? (n : Nat) (cs : List Char) : Option (Nat × List Char) :=
  let ds := cs.take n
  if ds.length = n && ds.all Char.isDigit then some (Decimal.ofDigits ds, cs.drop n) else none

def char? (c : Char) : List Char → Option (List Char)
  | d :: cs => if c = d then some cs else none
  | [] => none

def isLeap (year : Nat) : Bool := year % 4 = 0 && (year % 100 ≠ 0 || year % 400 = 0)

def daysIn (year month : Nat) : Nat :=
  if month = 2 then if isLeap year then 29 else 28
  else if [4, 6, 9, 11].contains month then 30 else 31

def date? (cs : List Char) : Option (List Char) := do
  let (year, cs) ← fixed? 4 cs
  let (month, cs) ← fixed? 2 (← char? '-' cs)
  let (day, cs) ← fixed? 2 (← char? '-' cs)
  if 1 ≤ month && month ≤ 12 && 1 ≤ day && day ≤ daysIn year month then some cs else none

def clock? (cs : List Char) : Option (List Char) := do
  let (hour, cs) ← fixed? 2 cs
  let (minute, cs) ← fixed? 2 (← char? ':' cs)
  let (second, cs) ← fixed? 2 (← char? ':' cs)
  if hour ≤ 23 && minute ≤ 59 && second ≤ 60 then
    match cs with
    | '.' :: rest =>
      let ds := rest.takeWhile Char.isDigit
      if ds.isEmpty then none else some (rest.drop ds.length)
    | cs => some cs
  else none

def offset? (cs : List Char) : Option (List Char) :=
  match cs with
  | [] => some []
  | c :: rest =>
    if c = 'Z' || c = 'z' then some rest
    else if c = '+' || c = '-' then do
      let (hour, rest) ← fixed? 2 rest
      let (minute, rest) ← fixed? 2 (← char? ':' rest)
      if hour ≤ 23 && minute ≤ 59 then some rest else none
    else some cs

def time? (cs : List Char) : Option (Toml × List Char) :=
  match date? cs with
  | none => (clock? cs).map fun rest => (.time, rest)
  | some rest =>
    match rest with
    | c :: after =>
      if c = 'T' || c = 't' || (c = ' ' && (after.headD ' ').isDigit) then do
        let rest ← clock? after
        some (.time, ← offset? rest)
      else some (.time, rest)
    | [] => some (.time, [])

/-- The text looks like a date or a time: four digits and a dash, or two digits and a colon. -/
def startsTime (cs : List Char) : Bool :=
  let ds := (cs.takeWhile Char.isDigit).length
  match cs.drop ds with
  | '-' :: _ => ds = 4
  | ':' :: _ => ds = 2
  | _ => false

def keyword? (word : List Char) (cs : List Char) : Option (List Char) :=
  if cs.take word.length = word then some (cs.drop word.length) else none

def scalar? (cs : List Char) : Option (Toml × List Char) :=
  match cs with
  | [] => none
  | c :: _ =>
    if c = '"' || c = '\'' then (string? cs).map fun (s, r) => (.str s, r)
    else if c = 't' then (keyword? "true".toList cs).map fun r => (.bool true, r)
    else if c = 'f' then (keyword? "false".toList cs).map fun r => (.bool false, r)
    else if startsTime cs then time? cs
    else
      match basedInt? cs with
      | some found => some found
      | none => decimal? cs

end Segue.Toml
