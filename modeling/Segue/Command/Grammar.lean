/-!
# Command line grammars

How arguments are read one after another. Named arguments begin with hyphens and may stand anywhere;
those without a name are taken in their order. A value that follows its name as an argument of its
own is only looked at when the next argument has been understood. After `--` all arguments are
without a name.
-/

namespace Segue.Command

inductive UsageError where
  | help
  | version
  /-- there is nothing on the line, so that help is shown -/
  | nothing
  | noCommand
  | unknownCommand
  | unknownArgument
  | missingArgument
  /-- arguments that exclude each other, or one given twice -/
  | conflict
  | missingValue
  | badValue
  /-- a value for an argument that takes none -/
  | excessValue
  deriving DecidableEq, Repr

def UsageError.status : UsageError → Nat
  | .help | .version => 0
  | _ => 2

/-- An argument, and what it changes in what has been read. -/
structure Parameter (σ : Type) where
  name : String
  letter? : Option Char := none
  valued : Bool := true
  repeats : Bool := false
  /-- Whether its value may begin with a hyphen. -/
  hyphens : Bool := false
  set : String → σ → Except UsageError σ

namespace Parameter

variable {σ τ : Type}

/-- The parameter as one of a larger whole. -/
def within (inside : (τ → Except UsageError τ) → σ → Except UsageError σ) (p : Parameter τ) :
    Parameter σ :=
  { name := p.name, letter? := p.letter?, valued := p.valued, repeats := p.repeats
    hyphens := p.hyphens, set := fun v => inside (p.set v) }

def flag (name : String) (set : σ → σ) : Parameter σ :=
  { name, valued := false, set := fun _ s => .ok (set s) }

end Parameter

structure Grammar (σ : Type) where
  named : List (Parameter σ)
  operands : List (Parameter σ) := []
  commands : List String := []
  /-- names of which only one may be given -/
  exclusive : List (String × String) := []
  /-- groups of names of which one has to be given -/
  required : List (List String) := []

inductive Held (σ : Type) where
  | nothing
  | opened (p : Parameter σ)
  | value (p : Parameter σ) (text : String)

structure Progress (σ : Type) where
  values : σ
  given : List String := []
  held : Held σ := .nothing
  operands : List (Parameter σ) := []
  trailing : Bool := false

namespace Progress

variable {σ : Type}

def take (p : Parameter σ) (text : String) (s : Progress σ) : Except UsageError (Progress σ) := do
  if !p.repeats && s.given.contains p.name then throw .conflict
  return { s with values := ← p.set text s.values, given := p.name :: s.given }

def settle (s : Progress σ) : Except UsageError (Progress σ) :=
  match s.held with
  | .nothing => .ok s
  | .opened _ => .error .missingValue
  | .value p text => { s with held := .nothing }.take p text

def opened? (s : Progress σ) : Option (Parameter σ) :=
  match s.held with
  | .opened p => some p
  | _ => none

end Progress

inductive Step (σ : Type) where
  | goOn (s : Progress σ)
  | command (name : String) (s : Progress σ)

namespace Grammar

variable {σ : Type}

def start (g : Grammar σ) (values : σ) : Progress σ := { values, operands := g.operands }

def byName? (g : Grammar σ) (name : String) : Option (Parameter σ) :=
  g.named.find? fun p => p.name = name

def byLetter? (g : Grammar σ) (c : Char) : Option (Parameter σ) :=
  g.named.find? fun p => p.letter? = some c

/-- Reads a parameter; with a value attached it is complete. -/
def readNamed (p : Parameter σ) (attached? : Option String) (s : Progress σ) :
    Except UsageError (Progress σ) := do
  match p.valued, attached? with
  | true, some v => (← s.settle).take p v
  | true, none => return { ← s.settle with held := .opened p }
  | false, some _ => throw .excessValue
  | false, none => (← s.settle).take p ""

/-- Reads an argument of the form `--name` or `--name=value`, without its hyphens. -/
def readLong (g : Grammar σ) (text : List Char) (s : Progress σ) :
    Except UsageError (Progress σ) :=
  let name := text.takeWhile (· ≠ '=')
  let attached? := match text.drop name.length with
    | _ :: v => some (String.ofList v)
    | [] => none
  match g.byName? (String.ofList name) with
  | some p => readNamed p attached? s
  | none => .error .unknownArgument

/-- Reads the letters after a single hyphen. What follows the letter of a parameter with a value is
the value; an equals sign may stand between them. -/
def readLetters (g : Grammar σ) : List Char → Progress σ → Except UsageError (Progress σ)
  | [], s => .ok s
  | c :: cs, s =>
    match g.byLetter? c with
    | none => .error .unknownArgument
    | some p =>
      if p.valued then
        match cs with
        | [] => readNamed p none s
        | '=' :: v => readNamed p (some (String.ofList v)) s
        | v => readNamed p (some (String.ofList v)) s
      else (readNamed p none s).bind (readLetters g cs)

def readOperand (g : Grammar σ) (arg : String) (s : Progress σ) :
    Except UsageError (Progress σ) := do
  match s.operands with
  | p :: rest => return { ← s.settle with held := .value p arg, operands := rest }
  | [] =>
    if g.commands.isEmpty || (s.trailing && g.commands.contains arg) then throw .unknownArgument
    else throw .unknownCommand

def step (g : Grammar σ) (s : Progress σ) (arg : String) : Except UsageError (Step σ) := do
  if s.trailing then return .goOn (← g.readOperand arg s)
  let asValue (p : Parameter σ) : Step σ := .goOn { s with held := .value p arg }
  match s.opened?, arg.toList with
  | none, _ => if g.commands.contains arg then return .command arg s
  | some p, '-' :: _ :: _ => if p.hyphens then return asValue p
  | some p, _ => return asValue p
  match arg.toList with
  | ['-', '-'] => return .goOn { s with trailing := true }
  | '-' :: '-' :: text => return .goOn (← g.readLong text s)
  | '-' :: c :: cs => return .goOn (← g.readLetters (c :: cs) s)
  | _ => return .goOn (← g.readOperand arg s)

/-- Reads arguments up to their end or to the name of a command, which is given with the arguments
after it. -/
def run (g : Grammar σ) :
    Progress σ → List String → Except UsageError (Progress σ × Option (String × List String))
  | s, [] => .ok (s, none)
  | s, arg :: args => do
    match ← g.step s arg with
    | .goOn s => run g s args
    | .command name s => return (s, some (name, args))

/-- Takes in what waits, and the values from the environment for parameters that were not given. The
latter count as given but are not kept here. -/
def complete (surroundings : List (Parameter σ × String)) (s : Progress σ) :
    Except UsageError (Progress σ) := do
  let s ← s.settle
  surroundings.foldlM (fun s (p, v) => do
    if s.given.contains p.name then return s
    discard (p.set v s.values)
    return { s with given := p.name :: s.given }) s

def check (g : Grammar σ) (hasCommand : Bool) (s : Progress σ) : Except UsageError Unit := do
  if !g.commands.isEmpty && !hasCommand then
    throw (if s.given.isEmpty then .nothing else .noCommand)
  if g.exclusive.any fun (a, b) => s.given.contains a && s.given.contains b then throw .conflict
  if g.required.any fun names => !names.any s.given.contains then throw .missingArgument

end Grammar

end Segue.Command
