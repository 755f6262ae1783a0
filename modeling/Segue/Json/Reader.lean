import Segue.Json.Basic
import Segue.Json.Quoted
import Segue.Json.Number

/-!
# Reading JSON

A reader takes a value from the front of a text. Readers of records work through the text in one
pass, so the first fault in reading order is the one that is reported. Arrays and objects nest at
most `maxNesting` deep, except within values that are passed over.
-/

namespace Segue.Json

/-- Why a text is not read: its form, or a rule about one of its values. -/
inductive Refusal where
  | malformed
  | stated (message : String)
  deriving DecidableEq, Repr

/-- Takes a value from the front of a text; `depth` more levels of nesting are allowed. -/
abbrev Reader (σ : Type) := (depth : Nat) → List Char → Except Refusal (σ × List Char)

def maxNesting : Nat := 127

def isSpace (c : Char) : Bool := c = ' ' || c = '\n' || c = '\t' || c = '\r'

def dropSpace (cs : List Char) : List Char := cs.dropWhile isSpace

def ofOption {σ : Type} : Option σ → Except Refusal σ
  | some x => .ok x
  | none => .error .malformed

/-- The character that must come next, after spaces. -/
def expect (c : Char) (cs : List Char) : Except Refusal (List Char) :=
  match dropSpace cs with
  | d :: rest => if c = d then .ok rest else .error .malformed
  | [] => .error .malformed

/-! ## Sequences -/

section Sequences

variable {σ : Type}

/-- Items separated by commas, up to the closing character; at most `n` of them. -/
def itemsFrom (close : Char) (step : σ → List Char → Except Refusal (σ × List Char)) :
    (n : Nat) → σ → List Char → Except Refusal (σ × List Char)
  | 0, _, _ => .error .malformed
  | n + 1, s, cs => do
    let (s, cs) ← step s (dropSpace cs)
    match dropSpace cs with
    | c :: rest =>
      if c = close then .ok (s, rest)
      else if c = ',' then itemsFrom close step n s rest
      else .error .malformed
    | [] => .error .malformed

def items (close : Char) (step : σ → List Char → Except Refusal (σ × List Char)) (s : σ)
    (cs : List Char) : Except Refusal (σ × List Char) :=
  match dropSpace cs with
  | c :: rest => if c = close then .ok (s, rest) else itemsFrom close step cs.length s cs
  | [] => .error .malformed

def memberName (cs : List Char) : Except Refusal (String × List Char) := do
  let rest ← expect '"' cs
  let (name, rest) ← ofOption (Quoted.decode? rest)
  let rest ← expect ':' rest
  .ok (String.ofList name, dropSpace rest)

def members (step : σ → String → List Char → Except Refusal (σ × List Char)) (s : σ)
    (cs : List Char) : Except Refusal (σ × List Char) :=
  items '\x7d' (fun s cs => do
    let (name, cs) ← memberName cs
    step s name cs) s cs

end Sequences

def literal? (word : String) (cs : List Char) : Option (List Char) :=
  let rec go : List Char → List Char → Option (List Char)
    | [], cs => some cs
    | _ :: _, [] => none
    | w :: ws, c :: cs => if w = c then go ws cs else none
  go word.toList cs

/-! ## Values -/

section Values

variable {α : Type} [Numeral α]

/-- A value that is neither array nor object. -/
def scalar (cs : List Char) : Except Refusal (Json α × List Char) :=
  match cs with
  | [] => .error .malformed
  | c :: rest =>
    if c = '"' then do
      let (s, rest) ← ofOption (Quoted.decode? rest)
      .ok (.str (String.ofList s), rest)
    else if c = 'n' then return (.null, ← ofOption (literal? "null" cs))
    else if c = 't' then return (.bool true, ← ofOption (literal? "true" cs))
    else if c = 'f' then return (.bool false, ← ofOption (literal? "false" cs))
    else if startsNumber c then do
      let (t, rest) ← ofOption (numberText? cs)
      .ok (← ofOption t.value?, rest)
    else .error .malformed

def value : Reader (Json α)
  | 0, cs =>
    match cs with
    | '[' :: _ => .error .malformed
    | '\x7b' :: _ => .error .malformed
    | cs => scalar cs
  | d + 1, cs =>
    match cs with
    | '[' :: rest => do
      let (vs, rest) ← items ']' (fun vs cs => do
        let (v, cs) ← value d cs
        .ok (v :: vs, cs)) [] rest
      .ok (.arr vs.reverse, rest)
    | '\x7b' :: rest => do
      let (ms, rest) ← members (fun ms k cs => do
        let (v, cs) ← value d cs
        .ok (Keyed.insert k v ms, cs)) [] rest
      .ok (.obj ms, rest)
    | cs => scalar cs

/-- Passes over a scalar; the size of numbers and the pairing of surrogates do not matter. -/
def skipScalar (cs : List Char) : Except Refusal (Unit × List Char) :=
  match cs with
  | [] => .error .malformed
  | c :: rest =>
    if c = '"' then return ((), ← ofOption (Quoted.skip? rest))
    else if c = 'n' then return ((), ← ofOption (literal? "null" cs))
    else if c = 't' then return ((), ← ofOption (literal? "true" cs))
    else if c = 'f' then return ((), ← ofOption (literal? "false" cs))
    else if startsNumber c then do
      let (_, rest) ← ofOption (numberText? cs)
      .ok ((), rest)
    else .error .malformed

def skipNested : Reader Unit
  | 0, cs => skipScalar cs
  | d + 1, cs =>
    match cs with
    | '[' :: rest => items ']' (fun _ cs => skipNested d cs) () rest
    | '\x7b' :: rest => items '\x7d' (fun _ cs => do
        let rest ← expect '"' cs
        let rest ← ofOption (Quoted.skip? rest)
        let rest ← expect ':' rest
        skipNested d (dropSpace rest)) () rest
    | cs => skipScalar cs

/-- Passes over any value, however deeply nested. -/
def skip (cs : List Char) : Except Refusal (Unit × List Char) := skipNested cs.length cs

/-! ## Typed readers -/

def string : Reader String := fun _ cs =>
  match cs with
  | '"' :: rest => do
    let (s, rest) ← ofOption (Quoted.decode? rest)
    .ok (String.ofList s, rest)
  | _ => .error .malformed

def boolean : Reader Bool := fun _ cs =>
  match cs with
  | 't' :: _ => return (true, ← ofOption (literal? "true" cs))
  | 'f' :: _ => return (false, ← ofOption (literal? "false" cs))
  | _ => .error .malformed

def number : Reader α := fun _ cs =>
  match cs with
  | c :: _ =>
    if startsNumber c then do
      let (t, rest) ← ofOption (numberText? cs)
      let v : Json α ← ofOption t.value?
      .ok (← ofOption v.asNumber?, rest)
    else .error .malformed
  | [] => .error .malformed

/-- A value, or `null` for none. -/
def nullable {σ : Type} (r : Reader σ) : Reader (Option σ) := fun depth cs =>
  match cs with
  | 'n' :: _ => return (none, ← ofOption (literal? "null" cs))
  | cs => do
    let (x, rest) ← r depth cs
    .ok (some x, rest)

def list {σ : Type} (r : Reader σ) : Reader (List σ)
  | 0, _ => .error .malformed
  | d + 1, cs =>
    match cs with
    | '[' :: rest => do
      let (xs, rest) ← items ']' (fun xs cs => do
        let (x, cs) ← r d cs
        .ok (x :: xs, cs)) [] rest
      .ok (xs.reverse, rest)
    | _ => .error .malformed

/-- A field of a record: its names, and how its value changes the record read so far. -/
structure FieldReader (σ : Type) where
  names : List String
  read : σ → Reader σ

/-- A field whose value is stored by `set`. -/
def FieldReader.of {σ τ : Type} (names : List String) (r : Reader τ) (set : σ → τ → σ) :
    FieldReader σ :=
  ⟨names, fun s depth cs => do
    let (x, rest) ← r depth cs
    .ok (set s x, rest)⟩

/-- The members of an object of fields. No field may come twice; members that are no field go to
`other`. -/
def fields {σ : Type} (fs : List (FieldReader σ)) (other : σ → String → Reader σ) (init : σ) :
    Reader σ
  | 0, _ => .error .malformed
  | d + 1, cs =>
    match cs with
    | '\x7b' :: rest => do
      let ((s, _), rest) ← members (fun (s, seen) name cs =>
        match fs.findIdx? fun f => f.names.contains name with
        | none => do
          let (s, cs) ← other s name d cs
          .ok ((s, seen), cs)
        | some i =>
          if seen.contains i then .error .malformed
          else match fs[i]? with
            | none => .error .malformed
            | some f => do
              let (s, cs) ← f.read s d cs
              .ok ((s, i :: seen), cs)) (init, ([] : List Nat)) rest
      .ok (s, rest)
    | _ => .error .malformed

def passOver {σ : Type} : σ → String → Reader σ := fun s _ _ cs => do
  let (_, rest) ← skip cs
  .ok (s, rest)

/-- A record: an object of fields, or an array of their values in order. Unknown members are passed
over; an array may end early, but must not go on. -/
def record {σ : Type} (fs : List (FieldReader σ)) (init : σ) : Reader σ
  | 0, _ => .error .malformed
  | d + 1, cs =>
    match cs with
    | '[' :: rest => do
      let ((s, _), rest) ← items ']' (fun (s, left) cs =>
        match left with
        | [] => .error .malformed
        | f :: left => do
          let (s, cs) ← FieldReader.read f s d cs
          .ok ((s, left), cs)) (init, fs) rest
      .ok (s, rest)
    | cs => fields fs passOver init (d + 1) cs

def checked {σ τ : Type} (r : Reader σ) (f : σ → Except Refusal τ) : Reader τ := fun depth cs => do
  let (x, rest) ← r depth cs
  .ok (← f x, rest)

def readAll {σ : Type} (r : Reader σ) (text : String) : Except Refusal σ := do
  let (x, rest) ← r maxNesting (dropSpace text.toList)
  if (dropSpace rest).isEmpty then .ok x else .error .malformed

end Values

end Segue.Json
