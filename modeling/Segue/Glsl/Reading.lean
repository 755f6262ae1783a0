import Segue.Glsl.Builtin
import Segue.Glsl.Expr
import Segue.Glsl.Flow
import Segue.Glsl.Layout

/-!
# Reading a program

What is known while a program is read from its first token to its last: the tokens ahead, the
names that have a meaning, and the faults found so far. Reading ends at the first fault of
writing. Faults of validity do not end it; they are kept with what they are in.
-/

namespace Segue.Glsl

/-- What a signature stands for: a function of the language, or one of the program by its place. -/
inductive Meaning where
  | builtin (action : Action)
  | routine (place : Nat)

/-- A signature by which a name can be called. -/
structure Overload where
  signature : Signature
  result? : Option Ty
  isVoid : Bool
  meaning : Meaning
  isDefined : Bool := false

structure Routine where
  site : Site
  isInvalid : Bool := false
  bindings : List Binding := []
  calls : List Nat := []

/-- A value that comes into a program or goes out of it, by a location or as a builtin. -/
structure Varying where
  isInput : Bool
  ty : Ty
  location? : Option Nat
  isValid : Bool := true

/-- What is known of the function that is read, or of the expressions outside of functions. -/
structure Frame where
  count : Nat := 0
  /-- the number of values whose types have been asked for -/
  resolved : Nat := 0
  /-- the first value without a type among the others -/
  untyped? : Option Site := none
  /-- the first value or variable that is invalid -/
  invalid? : Option Site := none
  /-- Whether every value has to be known before the program runs. -/
  isConstant : Bool := false
  /-- the names, the innermost block first -/
  scopes : List (List (String × Variable)) := []
  joined : List Nat := []
  body : List Stmt := []
  /-- Whether values have been made since the last statement. -/
  isPending : Bool := false
  valueCalls : Nat := 0
  bindings : List Binding := []
  calls : List Nat := []

structure State where
  ahead : List Located
  /-- where the last token stands that has been taken -/
  last : Site := none
  records : Records := []
  typeNames : List (String × Ty) := []
  overloads : List (String × List Overload) := []
  routines : List Routine := []
  /-- the variables and constants outside of functions, the last first -/
  globals : List (String × Variable) := []
  varyings : List Varying := []
  frame : Frame := {}
  invalidTypes : List Site := []
  invalidParts : List Site := []
  invalidConstants : List Site := []
  invalidGlobals : List Site := []
  /-- Whether the program asks for what a device need not have. -/
  isDemanding : Bool := false

abbrev Reading := ExceptT Site (StateM State)

namespace Reading

/-! ## Tokens -/

/-- The next token, if there is one; one that cannot be read stops reading. -/
def peek? : Reading (Option Located) := do
  match (← get).ahead with
  | [] => return none
  | t :: _ =>
    match t.token with
    | .stray => throw none
    | .broken => throw (some t.line)
    | _ => return some t

/-- The next token; there has to be one. -/
def peek : Reading Located := do
  match ← peek? with
  | some t => return t
  | none => throw (← get).last

def skip : Reading Unit :=
  modify fun s => { s with ahead := s.ahead.tail, last := s.ahead.head?.map Located.line }

def next : Reading Located := do
  let t ← peek
  skip
  return t

def putBack (t : Located) : Reading Unit := modify fun s => { s with ahead := t :: s.ahead }

def failAt {α : Type} (t : Located) : Reading α := throw (some t.line)

def sees (t : Token) : Reading Bool := return (← peek?).any fun u => u.token = t

/-- Whether the next token, which there has to be, is the one given. -/
def meets (t : Token) : Reading Bool := return (← peek).token = t

def accept (t : Token) : Reading Bool := do
  if ← sees t then skip; return true else return false

def expect (t : Token) : Reading Located := do
  let u ← next
  if u.token = t then return u else failAt u

def expectMark (m : String) : Reading Unit := discard (expect (.mark m))

def name? (t : Located) : Option String :=
  match t.token with
  | .word w => if isName w then some w else none
  | _ => none

def expectName : Reading (String × Site) := do
  let t ← next
  match name? t with
  | some w => return (w, some t.line)
  | none => failAt t

/-! ## Types -/

/-- Enters a record; gives its type. -/
def enterRecord (r : Record) : Reading Ty := do
  let (place, rs) := (← get).records.place r
  modify fun s => { s with records := rs }
  return .record place

/-- Notes a type at the site where it is first written. -/
def noteType (site : Site) (t : Ty) : Reading Unit := do
  let s ← get
  unless s.records.isFormed t do set { s with invalidTypes := s.invalidTypes ++ [site] }
  if t.kind? = some .double then modify fun s => { s with isDemanding := true }

def namedType? (w : String) : Reading (Option Ty) := do
  match Ty.ofName? w with
  | some t => return some t
  | none => return (← get).typeNames.lookup w

/-! ## Frames -/

def modifyFrame (f : Frame → Frame) : Reading Unit :=
  modify fun s => { s with frame := f s.frame }

def frame : Reading Frame := return (← get).frame

def inFrame {α : Type} (f : Frame) (r : Reading α) : Reading (α × Frame) := do
  let outer ← frame
  modifyFrame fun _ => f
  let a ← r
  let inner ← frame
  modifyFrame fun _ => outer
  return (a, inner)

/-- The frame of a function; the variables outside are its first values. -/
def freshFrame : Reading Frame := return { count := (← get).globals.length }

def refuse (site : Site) : Reading Unit :=
  modifyFrame fun f => { f with invalid? := f.invalid? <|> some site }

def invalidGlobal (site : Site) : Reading Unit :=
  modify fun s => { s with invalidGlobals := s.invalidGlobals ++ [site] }

/-! ## Statements -/

/-- Ends the row of values that have been made since the last statement. -/
def flush : Reading Unit :=
  modifyFrame fun f =>
    if f.isPending then { f with body := .emit :: f.body, isPending := false } else f

def addStmt (s : Stmt) : Reading Unit := modifyFrame fun f => { f with body := s :: f.body }

/-- Reads something that goes on with the statements of a block, given backwards; gives the block
backwards. -/
def inBody {α : Type} (body : List Stmt) (r : Reading α) : Reading (List Stmt × α) := do
  flush
  let outer := (← frame).body
  modifyFrame fun f => { f with body := body }
  let a ← r
  flush
  let inner := (← frame).body
  modifyFrame fun f => { f with body := outer }
  return (inner, a)

def bodyLength : Reading Nat := return (← frame).body.length

/-- Keeps so many statements of the block that is read. -/
def cull (length : Nat) : Reading Unit :=
  modifyFrame fun f => { f with body := f.body.drop (f.body.length - length) }

/-! ## Names -/

/-- A variable that every program has, with whether it goes out of it, and whether a program that
makes colours can have it. -/
structure Given where
  ty : Ty
  isOutput : Bool
  isValid : Bool

def given : List (String × Given) :=
  let vector := fun n => Ty.vector n .float
  let whole := Ty.scalar .uint
  let distances := Ty.array .float none 4
  [("gl_Position", ⟨vector 4, true, false⟩), ("gl_FragCoord", ⟨vector 4, false, true⟩),
   ("gl_PointCoord", ⟨vector 2, false, true⟩), ("gl_FrontFacing", ⟨.bool, false, true⟩),
   ("gl_PointSize", ⟨.float, true, false⟩), ("gl_FragDepth", ⟨.float, true, true⟩),
   ("gl_ClipDistance", ⟨distances, true, false⟩), ("gl_CullDistance", ⟨distances, true, false⟩),
   ("gl_GlobalInvocationID", ⟨.vector 3 .uint, false, false⟩),
   ("gl_NumWorkGroups", ⟨.vector 3 .uint, false, false⟩),
   ("gl_WorkGroupSize", ⟨.vector 3 .uint, false, false⟩),
   ("gl_WorkGroupID", ⟨.vector 3 .uint, false, false⟩),
   ("gl_LocalInvocationID", ⟨.vector 3 .uint, false, false⟩),
   ("gl_LocalInvocationIndex", ⟨whole, false, false⟩), ("gl_BaseVertex", ⟨whole, false, false⟩),
   ("gl_BaseInstance", ⟨whole, false, false⟩), ("gl_InstanceIndex", ⟨whole, false, false⟩),
   ("gl_VertexIndex", ⟨whole, false, false⟩), ("gl_PrimitiveID", ⟨whole, false, true⟩),
   ("gl_SampleID", ⟨whole, false, true⟩)]

def declareGlobal (name : String) (v : Variable) : Reading Unit := do
  modify fun s => { s with globals := (name, v) :: s.globals }
  modifyFrame fun f => { f with count := f.count + 1 }

def nextGlobal : Reading Nat := return (← get).globals.length

/-- Enters a variable that every program has, at its first use. -/
def enterGiven (site : Site) (name : String) (g : Given) : Reading Variable := do
  if (← frame).isConstant then throw site
  let number ← nextGlobal
  let operand : Operand := { number, ty? := some (.pointer g.ty .run) }
  let v : Variable := { operand, isLoaded := true, isWritable := g.isOutput }
  declareGlobal name v
  let varying : Varying :=
    { isInput := !g.isOutput, ty := g.ty, location? := none, isValid := g.isValid }
  modify fun s => { s with varyings := s.varyings ++ [varying],
                           isDemanding := s.isDemanding || name = "gl_PrimitiveID" }
  unless (← get).records.isMade g.ty do invalidGlobal site
  return v

/-- The meaning of a name: the innermost block that declares it decides. -/
def meaning? (site : Site) (name : String) : Reading (Option Variable) := do
  let s ← get
  match s.frame.scopes.findSome? (fun vs => vs.lookup name) <|> s.globals.lookup name with
  | some v => return some v
  | none =>
    match given.lookup name with
    | some g => some <$> enterGiven site name g
    | none => return none

def declareLocal (name : String) (v : Variable) : Reading Unit :=
  modifyFrame fun f =>
    match f.scopes with
    | [] => { f with scopes := [[(name, v)]] }
    | vs :: rest => { f with scopes := ((name, v) :: vs) :: rest }

def isDeclared (name : String) : Reading Bool :=
  return ((← frame).scopes.head?.bind fun vs => vs.lookup name).isSome

def inScope {α : Type} (r : Reading α) : Reading α := do
  modifyFrame fun f => { f with scopes := [] :: f.scopes }
  let a ← r
  modifyFrame fun f => { f with scopes := f.scopes.tail }
  return a

/-! ## What a program needs -/

def uses (v : Variable) : Reading Unit :=
  match v.binding? with
  | some b => modifyFrame fun f => { f with bindings := b :: f.bindings }
  | none => pure ()

def calls (place : Nat) : Reading Unit := modifyFrame fun f => { f with calls := place :: f.calls }

end Reading

end Segue.Glsl
