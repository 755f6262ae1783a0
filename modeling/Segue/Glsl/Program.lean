import Segue.Glsl.Statement
import Segue.Glsl.Expansion

/-!
# Programs

A program is a row of declarations and functions, with a function `main` that takes nothing. It
can be written wrongly, or be well written and not valid; what it needs of the device is known
afterwards.
-/

namespace Segue.Glsl

/-- Why a program is refused, with the line of the fault if it has one. -/
inductive Fault where
  | unreadable (site : Site)
  | invalid (site : Site)
  deriving DecidableEq, Repr

structure Needs where
  bindings : List Binding
  inputs : List (Nat × Ty)
  /-- Whether it asks for what a device need not have. -/
  isDemanding : Bool

namespace Reading

def body (source : Nat) (h : Head) : Reading Unit := do
  let fresh ← freshFrame
  let (_, f) ← inFrame { fresh with scopes := [[]] } do
    h.parameters.forM addParameter
    discard (compound source false source)
    flush
  addFunction h (closeFrame (← records) h f)

def declarations (source : Nat) : (rounds : Nat) → Reading Unit
  | 0 => throw none
  | rounds + 1 => do
    match ← peek? with
    | none => return
    | some t =>
      if ← declaration? source .outside (body source) then declarations source rounds
      else failAt t

end Reading

/-! ## What comes in and goes out -/

/-- What comes in or goes out at a location of its own, of a value of a type: the elements of an
array and the members of a record follow on each other. -/
def Records.spreadPort (rs : Records) : (rounds : Nat) → (location : Nat) → Ty → List (Nat × Ty)
  | rounds + 1, location, .array e (some n) _ =>
    (List.range n).flatMap fun i => spreadPort rs rounds (location + i) e
  | rounds + 1, location, .record place =>
    (((rs[place]?).map Record.members).getD []).zipIdx.flatMap fun (m, i) =>
      spreadPort rs rounds (location + i) m.ty
  | _, location, t => [(location, t)]

def locations (s : State) (input : Bool) : List (Nat × Ty) :=
  (s.varyings.filter fun p => p.isInput == input).flatMap fun p =>
    match p.location? with
    | some n => s.records.spreadPort (s.records.length + 8) n p.ty
    | none => []

def Ty.isCarried : Ty → Bool
  | .scalar k | .vector _ k => k != .bool
  | _ => false

/-- Whether the values of a program can come in and go out, each at a location of its own. -/
def portsFit (s : State) : Bool :=
  s.varyings.all Varying.isValid && [true, false].all fun input =>
    let ls := locations s input
    ls.all (fun l => l.2.isCarried) && (ls.map Prod.fst).eraseDups.length == ls.length

/-! ## What a program reads -/

def entry? (s : State) : Option Nat :=
  ((s.overloads.lookup "main").getD []).findSome? fun o =>
    match o.meaning with
    | .routine place => if o.isDefined && o.signature.isEmpty then some place else none
    | .builtin _ => none

def callStep (rs : List Routine) (places : List Nat) : List Nat :=
  (places ++ places.flatMap fun i => ((rs[i]?).map Routine.calls).getD []).eraseDups

/-- The functions that can be reached; there are no longer ways than there are functions. -/
def reached (rs : List Routine) (i : Nat) : List Nat :=
  (List.range rs.length).foldl (fun places _ => callStep rs places) [i]

def bindingsFrom (s : State) (i : Nat) : List Binding :=
  (s.frame.bindings ++ (reached s.routines i).flatMap fun j =>
    ((s.routines[j]?).map Routine.bindings).getD []).eraseDups

/-- The first binding that stands on a place which another before it has. -/
def collision? (bs : List Binding) : Option Binding :=
  let clashing := bs.filter fun b => bs.any fun a =>
    a.set = b.set && a.binding = b.binding && a.place < b.place
  clashing.find? fun b => clashing.all fun a => b.place ≤ a.place

/-! ## Checking -/

/-- Whether a function calls itself, or one that is declared after it. -/
def callsAhead (rs : List Routine) : Bool :=
  rs.zipIdx.any fun (r, i) => r.calls.any fun j => i ≤ j

/-- Where the first fault of validity is. Functions have to be in order, then types, constants,
variables and functions are valid, and at last what is outside of functions. -/
def invalidAt? (s : State) : Option Site :=
  (if callsAhead s.routines then some none else none)
    <|> s.invalidTypes.head? <|> s.invalidParts.head? <|> s.invalidConstants.head?
    <|> s.invalidGlobals.head?
    <|> (s.routines.find? Routine.isInvalid).map Routine.site
    <|> s.frame.untyped? <|> s.frame.invalid?
    <|> (if portsFit s then none else some none)

/-- A program that has been read: what it needs, if it is valid. -/
def checkRead (s : State) : Except Fault Needs :=
  match entry? s with
  | none => .error (.unreadable none)
  | some i =>
    let bindings := bindingsFrom s i
    match invalidAt? s <|> (collision? bindings).map Binding.site with
    | some site => .error (.invalid site)
    | none => .ok { bindings, inputs := locations s true, isDemanding := s.isDemanding }

/-- Checks a program; gives what it needs of the device. Nothing nests deeper than a small multiple
of the number of tokens. -/
def check (text : List Char) : Except Fault Needs :=
  let tokens := program text
  let rounds := 16 * (tokens.length + 4)
  match (Reading.declarations rounds rounds).run.run { ahead := tokens } with
  | (.error site, _) => .error (.unreadable site)
  | (.ok (), s) => checkRead s

end Segue.Glsl
