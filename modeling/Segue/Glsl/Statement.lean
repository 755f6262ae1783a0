import Segue.Glsl.Declaration

/-!
# Statements

The statements of a function are read one by one into the block that is open. What follows a jump
in a block is read as well, and then left out.
-/

namespace Segue.Glsl.Reading

/-! ## Conditions -/

def decision (source : Nat) : Reading Argument := do
  let e ← expression source
  return (← elaborate .value e, e.site)

/-- Leaves a loop where a value does not hold. -/
def leaveUnless (a : Argument) : Reading Unit := do
  let condition ← makeSign a.2 .logicalNot a.1
  flush
  addStmt (.branch (isTruth condition) [.leave] [])

def effect (source : Nat) : Reading Unit := do
  discard (elaborate? .value (← expression source))

/-- Declarations within functions have no bodies. -/
def localDeclaration (source : Nat) (looping : Bool) : Reading Unit :=
  discard (declaration? source (.inside looping) fun h => throw h.site)

/-! ## Loops -/

def loopStart (source : Nat) (looping : Bool) : Reading Unit := do
  if ← accept (.mark ";") then return
  if (← seesType) || (← seesQualifier) then localDeclaration source looping
  else
    effect source
    expectMark ";"

/-- Reads the condition of a loop, which may declare a variable or be missing. -/
def loopCondition (source : Nat) : Reading Unit := do
  if ← accept (.mark ";") then return
  if (← seesType) || (← seesQualifier) then
    let q ← qualifiers source source {}
    let (ty, site) ← valueType source
    let (name, _) ← expectName
    discard (expect (.mark "="))
    let (v, siteValue) ← initial source source ty
    let holder ← addLocal q (Site.join site siteValue) name ty none
    flush
    addStore holder v
    leaveUnless (v, siteValue)
  else leaveUnless (← decision source)
  expectMark ";"

def loopStep (source : Nat) : Reading Unit := do
  if !(← meets (.mark ")")) then effect source

/-! ## Switches -/

/-- What a case is for: a number, or all that have no case. -/
inductive Label where
  | number (n : Int) (unsigned : Bool)
  | otherwise
  deriving DecidableEq, Repr

def Label.ofLiteral? (unsigned : Bool) (l : Literal) : Option Label :=
  match l with
  | .int n => some (if unsigned then .number (n % 4294967296) true else .number n false)
  | .uint n => some (.number n true)
  | _ => none

/-- A case: its label, whether the next follows on it, and its statements. -/
structure Case where
  label : Label
  fallsThrough : Bool
  body : List Stmt

def label? (source : Nat) (unsigned : Bool) : Reading (Option Label) := do
  let t ← next
  match t.token with
  | .word "case" =>
    let (o, site) ← constant source
    match (o.value?.bind Value.literal?).bind (Label.ofLiteral? unsigned) with
    | some l =>
      expectMark ":"
      return some l
    | none => throw site
  | .word "default" =>
    expectMark ":"
    return some .otherwise
  | .mark "\x7d" => return none
  | _ => failAt t

def seesCaseEnd : Reading Bool := do
  match (← peek).token with
  | .word "case" | .word "default" | .mark "\x7d" => return true
  | _ => return false

/-- Leaves out what follows the first jump of a case; tells whether the next case follows. A jump
out of the switch is left out as well. -/
def endCase (jump? : Option Nat) : Reading Bool := do
  match jump? with
  | none => return true
  | some length =>
    let body := (← frame).body
    match body[body.length - length]? with
    | some .leave =>
      cull (length - 1)
      return false
    | _ =>
      cull length
      return true

/-- Whether the labels of cases can stand for values of a type, each once. -/
def labelsFit (ty : Ty) (labels : List Label) : Bool :=
  let fits := fun (l : Label) =>
    match l with
    | .number _ unsigned => ty = .scalar (if unsigned then .uint else .int)
    | .otherwise => true
  ty.isIndex && labels.all fits && labels.eraseDups.length == labels.length

/-- The cases as a statement. The last does not go on, and where no case is for all others there is
one that does nothing. -/
def addSwitch (site : Site) (ty : Ty) (cs : List Case) : Reading Unit := do
  match cs.getLast? with
  | some c => if c.body.isEmpty && c.fallsThrough then throw site
  | none => pure ()
  let bodies := cs.map fun c => (c.fallsThrough, c.body)
  let last := bodies.getLast?.toList.map fun b => (false, b.2)
  let rest := if cs.any fun c => c.label = .otherwise then [] else [(false, [])]
  addStmt (.switch (labelsFit ty (cs.map Case.label)) (bodies.dropLast ++ last ++ rest))

/-! ## Statements -/

/-- Whether a declaration stands here; a type before a parenthesis makes a value. -/
def seesDeclaration : Reading Bool := do
  if ← seesQualifier then return true
  if ← seesType then
    let t ← next
    let u ← peek
    putBack t
    return u.token ≠ .mark "("
  return false

def jump (s : Stmt) : Reading Bool := do
  skip
  addStmt s
  expectMark ";"
  return true

def endFunction (source : Nat) : Reading Bool := do
  skip
  let value? ← if ← meets (.mark ";") then
      skip
      pure none
    else
      let e ← expression source
      expectMark ";"
      pure (some (← elaborate .value e))
  flush
  addStmt (.giveBack (value?.bind fun v => v.ty?))
  return true

mutual

/-- Reads a statement; tells whether it is a jump, or a block with one. `looping` tells whether it
stands within a loop, and `source` bounds how deep its expressions nest. -/
def statement (source : Nat) (looping : Bool) : (rounds : Nat) → Reading Bool
  | 0 => throw none
  | rounds + 1 => do
    if ← seesDeclaration then
      localDeclaration source looping
      return false
    let t ← peek
    match t.token with
    | .word "continue" => jump .proceed
    | .word "break" => jump .leave
    | .word "discard" => jump .discard
    | .word "return" => endFunction source
    | .word "if" =>
      skip
      expectMark "("
      let (c, _) ← decision source
      expectMark ")"
      let (a, _) ← inBody [] (statement source looping rounds)
      let (r, _) ← inBody [] (do
        if ← accept (.word "else") then discard (statement source looping rounds))
      addStmt (.branch (isTruth c) a.reverse r.reverse)
      return false
    | .word "switch" =>
      skip
      expectMark "("
      let (c, site) ← decision source
      let ty ← typeOf site c
      expectMark ")"
      flush
      expectMark "\x7b"
      let cs ← switchCases source looping (ty.kind? = some .uint) rounds
      addSwitch (some t.line) ty cs
      return false
    | .word "while" =>
      skip
      let (b, _) ← inBody [] (do
        expectMark "("
        let e ← expression source
        expectMark ")"
        leaveUnless (← elaborate .value e, e.site)
        discard (statement source true rounds))
      addStmt (.loop b.reverse [])
      return false
    | .word "do" =>
      skip
      let (b, _) ← inBody [] (do
        let jumps ← statement source true rounds
        let length ← bodyLength
        discard (expect (.word "while"))
        expectMark "("
        let e ← expression source
        expectMark ")"
        leaveUnless (← elaborate .value e, e.site)
        if jumps then cull length)
      addStmt (.loop b.reverse [])
      return false
    | .word "for" =>
      skip
      inScope do
        expectMark "("
        loopStart source looping
        let (b, _) ← inBody [] (loopCondition source)
        let (c, _) ← inBody [] (loopStep source)
        expectMark ")"
        let (b, _) ← inBody b (statement source true rounds)
        addStmt (.loop b.reverse c.reverse)
      return false
    | .mark "\x7b" =>
      skip
      let (b, jumps) ← inBody [] (compound source looping rounds)
      addStmt (.block b.reverse)
      return jumps
    | .mark ";" =>
      skip
      return false
    | _ =>
      effect source
      expectMark ";"
      return false

/-- Reads the statements of a block after its opening brace; tells whether a jump is among them. -/
def compound (source : Nat) (looping : Bool) : (rounds : Nat) → Reading Bool
  | 0 => throw none
  | rounds + 1 => do
    let jump? ← inScope (statements source looping rounds none)
    match jump? with
    | some length => cull length
    | none => pure ()
    return jump?.isSome

/-- Reads statements up to the closing brace; gives the number of statements up to the first jump,
if there is one. -/
def statements (source : Nat) (looping : Bool) :
    (rounds : Nat) → Option Nat → Reading (Option Nat)
  | 0, _ => throw none
  | rounds + 1, jump? => do
    if ← accept (.mark "\x7d") then return jump?
    let jumps ← statement source looping rounds
    let length ← bodyLength
    statements source looping rounds (jump? <|> if jumps then some length else none)

def caseStatements (source : Nat) (looping : Bool) :
    (rounds : Nat) → Option Nat → Reading (Option Nat)
  | 0, _ => throw none
  | rounds + 1, jump? => do
    if ← seesCaseEnd then return jump?
    let jumps ← statement source looping rounds
    let length ← bodyLength
    caseStatements source looping rounds (jump? <|> if jumps then some length else none)

def switchCases (source : Nat) (looping unsigned : Bool) : (rounds : Nat) → Reading (List Case)
  | 0 => throw none
  | rounds + 1 => do
    match ← label? source unsigned with
    | none => return []
    | some l =>
      let (b, fallsThrough) ← inBody [] (do
        endCase (← caseStatements source looping rounds none))
      return ⟨l, fallsThrough, b.reverse⟩ :: (← switchCases source looping unsigned rounds)

end

end Segue.Glsl.Reading
