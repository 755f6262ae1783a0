import Segue.Glsl.Elaboration

/-!
# Reading expressions

Expressions are read from the tokens ahead. An operator that binds strongly takes its operands
before a weaker one, and operators alike take theirs from left to right. The names of variables
are resolved as they are read. Every reader is given a number of rounds that bounds how deep
expressions nest.
-/

namespace Segue.Glsl.Reading

/-! ## Tokens of expressions -/

def seesType : Reading Bool := do
  match (← peek?).map Located.token with
  | some (.word w) => return w = "void" || w = "struct" || (← namedType? w).isSome
  | _ => return false

def sign? (t : Token) : Option (Option Sign) :=
  match t with
  | .mark "-" => some (some .negate)
  | .mark "!" => some (some .logicalNot)
  | .mark "~" => some (some .bitNot)
  | .mark "+" => some none
  | _ => none

/-- A step, before or after what it counts. -/
def step? (t : Token) (after : Bool) : Option Step :=
  match t with
  | .mark "++" => some ⟨false, after⟩
  | .mark "--" => some ⟨true, after⟩
  | _ => none

def operator? (t : Token) : Option Operator :=
  match t with
  | .mark m => Operator.ofMark? m
  | _ => none

def assignment? (t : Token) : Option Operator :=
  match t with
  | .mark m => Operator.ofAssignment? m
  | _ => none

def literal? (t : Token) : Option Literal :=
  match t with
  | .integer n unsigned => some (.ofWhole n unsigned)
  | .decimal digits scale => some (.ofDecimal digits scale)
  | .word "true" => some (.bool true)
  | .word "false" => some (.bool false)
  | _ => none

def withLength (site : Site) (ty : Ty) (count : Nat) : Reading Ty :=
  match ty with
  | .array e none s => if count = 0 then throw site else return .array e (some count) s
  | t => return t

/-! ## Expressions -/

mutual

/-- Reads the sizes of arrays behind a type, each in brackets; the last is the outermost. -/
def arraySizes : (rounds : Nat) → Site → Ty → Reading (Ty × Site)
  | 0, _, _ => throw none
  | rounds + 1, site, ty => do
    let t ← peek
    if t.token ≠ .mark "[" then return (ty, site)
    skip
    let site := Site.join site (some t.line)
    let length? ← if ← accept (.mark "]") then pure none else
      let n ← sizeConstant rounds
      expectMark "]"
      pure (some n)
    let ty := (← records).arrayOf ty length?
    noteType site ty
    arraySizes rounds site ty

/-- Reads a size, which has to be a whole number above zero. -/
def sizeConstant : (rounds : Nat) → Reading Nat
  | 0 => throw none
  | rounds + 1 => do
    let (n, site) ← wholeConstant rounds
    if n = 0 then throw site else return n

/-- Reads a whole number that is known before the program runs. -/
def wholeConstant : (rounds : Nat) → Reading (Nat × Site)
  | 0 => throw none
  | rounds + 1 => do
    let (o, site) ← constant rounds
    match o.value?.bind Value.index? with
    | some n => return (n, site)
    | none => throw site

/-- Reads an expression whose value is known before the program runs. Of the names only those
outside of functions count. -/
def constant : (rounds : Nat) → Reading Argument
  | 0 => throw none
  | rounds + 1 => do
    let f : Frame := { ← freshFrame with isConstant := true }
    let ((o, site), _) ← inFrame f do
      let e ← unary rounds
      let e ← operation rounds 0 e
      let e ← conditional rounds e
      return (← elaborate .value e, e.site)
    return (o, site)

def typeName : (rounds : Nat) → Reading (Ty × Site)
  | 0 => throw none
  | rounds + 1 => do
    let t ← next
    match t.token with
    | .word w =>
      match ← namedType? w with
      | some ty =>
        noteType (some t.line) ty
        arraySizes rounds (some t.line) ty
      | none => failAt t
    | _ => failAt t

def callArguments : (rounds : Nat) → Reading (List Expr)
  | 0 => throw none
  | rounds + 1 => do
    let e ← assignment rounds
    let t ← next
    if t.token = .mark "," then return e :: (← callArguments rounds)
    else if t.token = .mark ")" then return [e]
    else failAt t

/-- Reads the arguments of a call after the opening parenthesis; there may be none. -/
def callArguments? : (rounds : Nat) → Reading (List Expr)
  | 0 => throw none
  | rounds + 1 => do
    if ← accept (.mark ")") then return []
    callArguments rounds

/-- Reads an operand without its signs and without what follows it. -/
def operand : (rounds : Nat) → Reading Expr
  | 0 => throw none
  | rounds + 1 => do
    if ← seesType then
      let (ty, site) ← typeName rounds
      expectMark "("
      let as ← callArguments? rounds
      return .call site (.type (← withLength site ty as.length)) as
    let t ← next
    let site := some t.line
    match literal? t.token, name? t with
    | some l, _ => return .literal site l
    | none, some w =>
      if ← accept (.mark "(") then return .call site (.function w) (← callArguments? rounds)
      match ← meaning? site w with
      | some v => return .named site v
      | none => failAt t
    | none, none =>
      if t.token ≠ .mark "(" then failAt t
      let e ← expression rounds
      expectMark ")"
      return e

/-- Reads what follows an operand: places, fields and steps. -/
def parts : (rounds : Nat) → Expr → Reading Expr
  | 0, _ => throw none
  | rounds + 1, e => do
    let t ← peek
    let site := some t.line
    match step? t.token true with
    | some s =>
      skip
      parts rounds (.step site s e)
    | none =>
      if t.token = .mark "[" then
        skip
        let place ← expression rounds
        let u ← expect (.mark "]")
        parts rounds (.index (Site.join site (some u.line)) e place)
      else if t.token = .mark "." then
        skip
        let (name, end?) ← expectName
        if ← accept (.mark "(") then
          parts rounds (.method site e name (← callArguments? rounds))
        else parts rounds (.field (Site.join site end?) e name)
      else return e

def unary : (rounds : Nat) → Reading Expr
  | 0 => throw none
  | rounds + 1 => do
    let t ← peek
    let site := some t.line
    match sign? t.token, step? t.token false with
    | some (some s), _ =>
      skip
      let e ← unary rounds
      return .sign (Site.join site e.site) s e
    | some none, _ =>
      skip
      unary rounds
    | none, some s =>
      skip
      return .step site s (← unary rounds)
    | none, none =>
      let e ← operand rounds
      parts rounds e

/-- Reads the operators after an operand that bind more strongly than `floor`, with their other
operands. -/
def operation : (rounds : Nat) → (floor : Nat) → Expr → Reading Expr
  | 0, _, _ => throw none
  | rounds + 1, floor, left => do
    match operator? (← peek).token with
    | none => return left
    | some op =>
      if op.strength ≤ floor then return left
      skip
      let right ← unary rounds
      let right ← operation rounds op.strength right
      operation rounds floor (.operation (Site.join left.site right.site) op left right)

def conditional : (rounds : Nat) → Expr → Reading Expr
  | 0, _ => throw none
  | rounds + 1, condition => do
    if !(← accept (.mark "?")) then return condition
    let a ← expression rounds
    expectMark ":"
    let r ← assignment rounds
    return .conditional (Site.join condition.site r.site) condition a r

def assignment : (rounds : Nat) → Reading Expr
  | 0 => throw none
  | rounds + 1 => do
    let target ← unary rounds
    let t ← peek
    if t.token = .mark "=" then
      skip
      let value ← assignment rounds
      return .assign (Site.join target.site value.site) target value
    match assignment? t.token with
    | some op =>
      skip
      let value ← assignment rounds
      let site := Site.join target.site value.site
      return .assign site target (.operation site op target value)
    | none =>
      let e ← operation rounds 0 target
      conditional rounds e

/-- Reads an expression. Of expressions with commas between them only the last counts. -/
def expression : (rounds : Nat) → Reading Expr
  | 0 => throw none
  | rounds + 1 => do
    let e ← assignment rounds
    if ← meets (.mark ",") then
      skip
      expression rounds
    else return e

end

end Segue.Glsl.Reading
