import Segue.Text.Blank
import Segue.Decimal.Read

/-!
# Durations

Lengths of time in whole nanoseconds, of at most 64 bits of seconds, and their written form: spans
such as `1h 30m`, each a number with a unit. A fraction is allowed where it gives a whole number of
seconds, or of nanoseconds for the units up to minutes.
-/

namespace Segue

structure Duration where
  nanos : Nat
  deriving DecidableEq, Repr, Inhabited

namespace Duration

def perSecond : Nat := 1000000000

def ofSeconds (n : Nat) : Duration := ⟨n * perSecond⟩

def ofMillis (n : Nat) : Duration := ⟨n * 1000000⟩

def seconds (d : Duration) : Nat := d.nanos / perSecond

/-- The milliseconds of a timer. It has whole ones only, and does not end early. -/
def millis (d : Duration) : Nat := (d.nanos + 999999) / 1000000

def maxWord : Nat := 0xFFFFFFFFFFFFFFFF

/-- The quotient, rounded to the nearest integer with ties to even. -/
def divEven (n d : Nat) : Nat :=
  let q := n / d
  if 2 * (n % d) < d then q else if d < 2 * (n % d) then q + 1 else q + q % 2

/-- A number of seconds, to the nearest nanosecond; `none` beyond the longest duration. -/
def ofFloat? (x : Float) : Option Duration :=
  let b := Decimal.Binary.ofBits x.toBits
  let num := b.m * Nat.pow 2 b.q.toNat
  let den := Nat.pow 2 (-b.q).toNat
  if maxWord < num / den then none else some ⟨divEven (num * perSecond) den⟩

/-! ## Units -/

inductive Unit where
  | nano | micro | milli | second | minute | hour | day | week | month | year
  deriving DecidableEq, Repr

namespace Unit

def all : List Unit :=
  [.nano, .micro, .milli, .second, .minute, .hour, .day, .week, .month, .year]

def names : Unit → List String
  | .nano => ["nanos", "nsec", "ns"]
  | .micro => ["usec", "us", "µs"]
  | .milli => ["millis", "msec", "ms"]
  | .second => ["seconds", "second", "secs", "sec", "s"]
  | .minute => ["minutes", "minute", "min", "mins", "m"]
  | .hour => ["hours", "hour", "hr", "hrs", "h"]
  | .day => ["days", "day", "d"]
  | .week => ["weeks", "week", "wk", "wks", "w"]
  | .month => ["months", "month", "M"]
  | .year => ["years", "year", "yr", "yrs", "y"]

def ofName? (s : String) : Option Unit := all.find? fun u => u.names.contains s

/-- The length of a unit that is shorter than a second, in nanoseconds. -/
def shortNanos? : Unit → Option Nat
  | .nano => some 1
  | .micro => some 1000
  | .milli => some 1000000
  | _ => none

/-- The length in seconds of the units from a second on. -/
def inSeconds : Unit → Nat
  | .minute => 60
  | .hour => 3600
  | .day => 86400
  | .week => 604800
  | .month => 2630016
  | .year => 31557600
  | _ => 1

/-- The grain of a fraction, in nanoseconds, and how many grains the unit has; nanoseconds have no
fraction. -/
def grains? : Unit → Option (Nat × Nat)
  | .nano => none
  | .micro => some (1, 1000)
  | .milli => some (1, 1000000)
  | .second => some (1, perSecond)
  | .minute => some (1, 60 * perSecond)
  | u => some (perSecond, u.inSeconds)

end Unit

/-! ## Reading -/

structure Span where
  whole : Nat
  /-- The digits after the point. -/
  part : Option (List Char)
  unit : Unit
  deriving Repr

inductive ReadError where
  | malformed
  /-- The last nanosecond makes up one more second than a duration can have. -/
  | tooLong
  deriving DecidableEq, Repr

def fits (n : Nat) : Option Nat := if n ≤ maxWord then some n else none

def Span.whole? (s : Span) : Option (Nat × Nat) :=
  match s.unit.shortNanos? with
  | some n => (fits (s.whole * n)).map fun n => (0, n)
  | none => (fits (s.whole * s.unit.inSeconds)).map fun n => (n, 0)

/-- The fraction of a span in seconds and nanoseconds, if it is whole grains. -/
def Span.part? (s : Span) : Option (Nat × Nat) :=
  match s.part with
  | none => some (0, 0)
  | some ds => do
    let (grain, count) ← s.unit.grains?
    let scale ← fits (Nat.pow 10 ds.length)
    let n ← fits (Decimal.ofDigits ds * count)
    if n % scale ≠ 0 then none
    else if grain = 1 then some (0, n / scale)
    else some (n / scale, 0)

/-- Adds seconds and nanoseconds. The seconds stay within one word, and so do the nanoseconds
together with those of the duration. -/
def add (d : Duration) (seconds nanos : Nat) : Except ReadError Duration :=
  let fine := d.nanos % perSecond + nanos
  let sum := d.seconds + seconds + fine / perSecond
  if maxWord < fine then .error .malformed
  else if sum ≤ maxWord then .ok ⟨sum * perSecond + fine % perSecond⟩
  else if fine = perSecond && sum = maxWord + 1 then .error .tooLong
  else .error .malformed

def ofOption {α : Type} : Option α → Except ReadError α
  | some a => .ok a
  | none => .error .malformed

def addSpan (d : Duration) (s : Span) : Except ReadError Duration := do
  let (seconds, nanos) ← ofOption s.whole?
  let d ← d.add seconds nanos
  let (seconds, nanos) ← ofOption s.part?
  d.add seconds nanos

def isUnitLetter (c : Char) : Bool :=
  ('a' ≤ c && c ≤ 'z') || ('A' ≤ c && c ≤ 'Z') || c = 'µ'

/-- The digits in front, with blanks between them dropped, and what follows. -/
def takeDigits : List Char → List Char × List Char
  | [] => ([], [])
  | c :: cs =>
    if c.isDigit then let (ds, rest) := takeDigits cs; (c :: ds, rest)
    else if Text.isBlank c then takeDigits cs
    else ([], c :: cs)

def takeNumber? (cs : List Char) : Option ((Nat × Option (List Char)) × List Char) :=
  let (ds, rest) := takeDigits cs
  if ds.isEmpty then none
  else do
    let whole ← fits (Decimal.ofDigits ds)
    match rest with
    | '.' :: rest =>
      let (part, rest) := takeDigits rest
      if part.isEmpty then none
      else do
        let _ ← fits (Decimal.ofDigits part)
        some ((whole, some part), rest)
    | rest => some ((whole, none), rest)

/-- The first span of a text that does not start with a blank, and what follows it. -/
def takeSpan? (cs : List Char) : Option (Span × List Char) := do
  let ((whole, part), rest) ← takeNumber? cs
  let unit ← Unit.ofName? (String.ofList (rest.takeWhile isUnitLetter))
  let rest := rest.dropWhile isUnitLetter
  match rest with
  | [] => some (⟨whole, part, unit⟩, [])
  | c :: _ =>
    if Text.isBlank c || c.isDigit then some (⟨whole, part, unit⟩, Text.trimLeft rest) else none

/-- The sum of the spans of a text, at least one and at most `n` of them. -/
def addSpans : (n : Nat) → Duration → List Char → Except ReadError Duration
  | 0, _, _ => .error .malformed
  | n + 1, d, cs => do
    let (s, rest) ← ofOption (takeSpan? cs)
    let d ← d.addSpan s
    if rest.isEmpty then .ok d else addSpans n d rest

/-- Reads a duration. A zero needs no unit. -/
def parse (s : String) : Except ReadError Duration :=
  if s = "0" then .ok ⟨0⟩ else addSpans s.length ⟨0⟩ (Text.trimLeft s.toList)

/-! ## Writing -/

/-- The parts from years to nanoseconds, with what is written after each. -/
def parts (d : Duration) : List (Nat × String) :=
  let s := d.seconds
  let n := d.nanos % perSecond
  let plural (k : Nat) (word : String) := (k, if k = 1 then word else word ++ "s")
  let inYear := s % 31557600
  let inMonth := inYear % 2630016
  let inDay := inMonth % 86400
  [plural (s / 31557600) "year", plural (inYear / 2630016) "month", plural (inMonth / 86400) "day",
   (inDay / 3600, "h"), (inDay % 3600 / 60, "m"), (inDay % 60, "s"),
   (n / 1000000, "ms"), (n / 1000 % 1000, "us"), (n % 1000, "ns")]

def text (d : Duration) : String :=
  let shown := d.parts.filter fun p => p.1 ≠ 0
  if shown.isEmpty then "0s"
  else " ".intercalate (shown.map fun p => toString p.1 ++ p.2)

end Duration

end Segue
