import Segue.Glsl.Call

/-!
# Elaboration of expressions

What the parts of an expression do in the place where they stand: a variable is loaded where its
value is wanted, and kept as a pointer where it is assigned or a part of it is taken. Operands are
converted to each other, and operators that do not take vectors or matrices are taken part by part.
-/

namespace Segue.Glsl.Reading

inductive Position where
  | value
  | target
  /-- before an index, which may be known before the program runs -/
  | base (known : Bool)
  deriving DecidableEq, Repr

/-! ## Variables and fields -/

/-- What a variable is in a place. A constant whose part is found only when the program runs is
first stored in a variable of the function. -/
def elaborateName (p : Position) (site : Site) (v : Variable) : Reading Operand := do
  uses v
  match p with
  | .target => if v.isWritable then return v.operand else throw site
  | .base known =>
    match v.isConstant && !known, v.operand.ty? with
    | true, some t =>
      flush
      let holder ← makeLocal none t
      addStore holder v.operand
      return holder
    | _, _ => return v.operand
  | .value => if v.isLoaded then makeLoad site v.operand else return v.operand

def componentLetters : List (List Char) := ["xyzw".toList, "rgba".toList, "stpq".toList]

def components? (size : Nat) (name : String) : Option (List Nat) :=
  componentLetters.findSome? fun letters =>
    name.toList.mapM fun c => (letters.take size).findIdx? (· = c)

def hasDuplicate : List Nat → Bool
  | [] => false
  | c :: cs => cs.contains c || hasDuplicate cs

/-- Components of a vector. Of components that were picked before, those of the first vector are
taken. One component is a part of the vector; for more the vector is loaded. -/
def pick (p : Position) (site : Site) (base : Operand) (isPointer : Bool) (cs : List Nat) :
    Reading Operand := do
  if p = .target ∧ hasDuplicate cs then throw site
  let (base, cs) := match base.form with
    | .picked vector pointer? before =>
      ({ vector with form := pointer?.elim .plain .loaded : Operand }, cs.filterMap (before[·]?))
    | _ => (base, cs)
  match cs with
  | [c] =>
    let part ← makePart site base c
    if p = .value ∧ isPointer then makeLoad site part else return part
  | _ =>
    if 4 < cs.length then throw site
    let vector ← if isPointer then makeLoad site base else pure base
    makeSwizzle site vector cs

def elaborateField (p : Position) (site : Site) (base : Operand) (name : String) :
    Reading Operand := do
  let t ← typeOf site base
  let (inner, isPointer) := match t with
    | .pointer b _ => (b, true)
    | t => (t, false)
  match inner with
  | .record place =>
    let ms := ((← records)[place]?.map Record.members).getD []
    match ms.findIdx? fun m => m.name = name with
    | some i =>
      let part ← makePart site base i
      if p = .value ∧ isPointer then makeLoad site part else return part
    | none => throw site
  | .vector n _ =>
    match components? n name with
    | some cs => pick p site base isPointer cs
    | none => throw site
  | _ => throw site

/-! ## Operators -/

/-- Compares two matrices: all of the columns have to be equal, or one of them has to differ. -/
def compareMatrices (site : Site) (equal : Bool) (columns : Nat) (a b : Operand) :
    Reading Operand := do
  let op : Operator := if equal then .equal else .notEqual
  let compare := fun (i : Nat) => show Reading Operand from do
    let x ← makePart site a i
    let y ← makePart site b i
    makeJoined site equal (← makeBinary site op x y)
  let first ← compare 0
  (List.range (columns - 1)).foldlM (fun found i => do
    let next ← compare (i + 1)
    makeBinary site (if equal then .logicalAnd else .logicalOr) next found) first

def spreadsNumbers (op : Operator) : Bool :=
  [.add, .subtract, .divide, .bitAnd, .bitOr, .bitXor].contains op

def isShift (op : Operator) : Bool := op = .shiftLeft || op = .shiftRight

def isEquality (op : Operator) : Bool := op = .equal || op = .notEqual

/-- Takes an operator of a matrix and a number, column by column; `first` tells whether the number
stands first. -/
def withNumber (site : Site) (op : Operator) (columns rows : Nat) (k : Kind) (first : Bool)
    (matrix number : Operand) : Reading Operand := do
  let vector ← makeSplat site rows number
  let parts ← (List.range columns).mapM fun i => do
    let column ← makePart site matrix i
    if first then makeBinary site op vector column else makeBinary site op column vector
  makeComposed site (.matrix columns rows k) parts

/-- Takes an operator of two operands that are converted to each other. -/
def combine (site : Site) (op : Operator) (a b : Operand) (s t : Ty) : Reading Operand := do
  match s, t with
  | .matrix c r j, .matrix d q k =>
    let fitting := if op = .multiply then c = q else c = d ∧ r = q
    unless fitting ∧ j = k do throw site
    if op = .divide then
      let parts ← (List.range c).mapM fun i => do
        let x ← makePart site a i
        makeBinary site op x (← makePart site b i)
      makeComposed site s parts
    else if isEquality op then compareMatrices site (op = .equal) c a b
    else makeBinary site op a b
  | .vector m _, .vector n _ =>
    if isEquality op then
      if m ≠ n then throw site
      makeJoined site (op = .equal) (← makeBinary site op a b)
    else makeBinary site op a b
  | .vector n _, .scalar _ =>
    if spreadsNumbers op || isShift op then makeBinary site op a (← makeSplat site n b)
    else makeBinary site op a b
  | .scalar _, .vector n _ =>
    if spreadsNumbers op then makeBinary site op (← makeSplat site n a) b
    else makeBinary site op a b
  | .scalar j, .matrix c r k =>
    if j ≠ k then throw site
    if [.divide, .add, .subtract].contains op then withNumber site op c r k true b a
    else makeBinary site op a b
  | .matrix c r k, .scalar j =>
    if j ≠ k then throw site
    if [.divide, .add, .subtract].contains op then withNumber site op c r k false a b
    else makeBinary site op a b
  | _, _ => makeBinary site op a b

/-- Takes an operator of two operands. Of two truth values not both hold if they differ. -/
def elaborateOperation (site : Site) (op : Operator) (a : Argument) (b : Argument) :
    Reading Operand := do
  let op := if op = .logicalXor then .notEqual else op
  let (x, y) ←
    if isShift op then pure (a.1, ← convert b.2 .uint b.1) else balance a.2 a.1 b.2 b.1
  let s ← typeOf a.2 x
  let t ← typeOf b.2 y
  combine site op x y s t

/-! ## Assignments -/

def elaborateAssign (site siteTarget siteValue : Site) (target value : Operand) :
    Reading Operand := do
  let t ← typeOf siteTarget target
  let held := match t with
    | .pointer b _ => b
    | t => t
  let value ← convertToward siteValue held value
  store site target value
  return value

/-- The number by which a value is counted up. -/
def unit (site : Site) (t : Ty) : Reading Operand := do
  match t with
  | .scalar k => makeLiteral site (.one k)
  | .vector n k => makeSplat site n (← makeLiteral site (.one k))
  | .matrix c r k =>
    let column ← makeSplat site r (← makeLiteral site (.one k))
    makeComposed site t (List.replicate c column)
  | _ => throw site

def elaborateStep (site : Site) (step : Step) (target : Operand) : Reading Operand := do
  let before ← match target.form with
    | .picked .. => pure target
    | _ => makeLoad site target
  let one ← unit site (← typeOf site before)
  let after ← makeBinary site (if step.down then .subtract else .add) before one
  store site target after
  return if step.after then before else after

/-! ## Lengths -/

/-- The length of an array; one that is not known is found when the program runs. -/
def elaborateLength (site : Site) (array : Operand) : Reading Operand := do
  match ← typeOf site array with
  | .array _ (some n) _ => makeCast site .int (← makeLiteral site (.uint n))
  | t =>
    if array.value?.isSome then throw site
    let valid := match t with
      | .pointer (.array _ none _) _ => true
      | _ => false
    makeCast site .int (← pushUnknown site (some (.scalar .uint)) valid)

/-! ## Conditions -/

def isTruth (o : Operand) : Bool := o.ty?.all (· = .bool)

abbrev Branch := List Stmt × Operand

def convertBranch (site : Site) (k : Kind) (b : Branch) : Reading Branch :=
  inBody b.1 (makeCast site k b.2)

def balanceBranches (siteA siteR : Site) (a r : Branch) : Reading (Branch × Branch) := do
  let j? ← kindOf siteA a.2
  let k? ← kindOf siteR r.2
  match j?, k?, j?.bind Kind.power?, k?.bind Kind.power? with
  | some j, some k, some p, some q =>
    if p < q then return (← convertBranch siteA k a, r)
    else if q < p then return (a, ← convertBranch siteR j r)
    else return (a, r)
  | _, _, _, _ => return (a, r)

def storeBranch (holder : Operand) (b : Branch) : Reading (List Stmt) := do
  let rs ← records
  let valid := match holder.ty?, b.2.ty? with
    | some p, some v => storable rs p v
    | _, _ => true
  return .store valid :: b.1

def elaborateConditional (site siteA siteR : Site) (condition : Operand) (a r : Branch) :
    Reading Operand := do
  let (a, r) ← balanceBranches siteA siteR a r
  let t ← typeOf siteA a.2
  let holder ← makeLocal site t
  let accept ← storeBranch holder a
  let reject ← storeBranch holder r
  addStmt (.branch (isTruth condition) accept.reverse reject.reverse)
  makeLoad site holder

/-! ## Expressions -/

def valueOf (e : Expr) (r : Reading (Option Operand)) : Reading Operand := do
  match ← r with
  | some o => return o
  | none => throw e.site

/-- The place in which the base of an index stands. -/
def Position.ofBase (p : Position) (known : Bool) : Position :=
  if p = .target then .target else .base known

mutual

/-- What an expression is in a place; a call of a function without a result has no value. -/
def elaborate? (p : Position) : Expr → Reading (Option Operand)
  | .named site v => some <$> elaborateName p site v
  | .literal site l => if p = .target then throw site else some <$> makeLiteral site l
  | .index site base place => do
    let index ← valueOf place (elaborate? .value place)
    let known? := if p = .target then none else index.value?.bind Value.index?
    let base ← valueOf base (elaborate? (p.ofBase known?.isSome) base)
    let part ← match known? with
      | some i => makePart site base i
      | none => makeElement site base index
    if p = .value then
      if (← typeOf site part).isPointer then some <$> makeLoad site part else return some part
    else return some part
  | .field site base name => do
    let base ← valueOf base (elaborate? p base)
    some <$> elaborateField p site base name
  | .sign site s operand => do
    if p = .target then throw site
    some <$> makeSign site s (← valueOf operand (elaborate? .value operand))
  | .operation site op left right => do
    if p = .target then throw site
    let a ← valueOf left (elaborate? .value left)
    let b ← valueOf right (elaborate? .value right)
    some <$> elaborateOperation site op (a, left.site) (b, right.site)
  | .step site step operand => do
    if p = .target then throw site
    some <$> elaborateStep site step (← valueOf operand (elaborate? .target operand))
  | .assign site target value => do
    if p = .target then throw site
    let t ← valueOf target (elaborate? .target target)
    let v ← valueOf value (elaborate? .value value)
    some <$> elaborateAssign site target.site value.site t v
  | .conditional site condition accept reject => do
    if p = .target then throw site
    let c ← valueOf condition (elaborate? .value condition)
    let a ← inBody [] (valueOf accept (elaborate? p accept))
    let r ← inBody [] (valueOf reject (elaborate? p reject))
    some <$> elaborateConditional site accept.site reject.site c a r
  | .method site base name arguments => do
    if p = .target then throw site
    discard (elaborateAll arguments)
    unless name = "length" ∧ arguments.isEmpty do throw site
    some <$> elaborateLength site (← valueOf base (elaborate? p base))
  | .call site callee arguments => do
    if p = .target then throw site
    let as ← elaborateAll arguments
    match callee with
    | .type ty => some <$> construct site ty as
    | .function name =>
      let o ← chooseOverload site name as
      let (os, writes) ← pass o.signature as arguments
      carryOut site o os writes

def elaborateAll : List Expr → Reading (List Argument)
  | [] => return []
  | e :: es => do
    let o ← valueOf e (elaborate? .value e)
    return (o, e.site) :: (← elaborateAll es)

/-- What is passed for parameters, and what is stored after the call. Arguments that are written
are taken once more, as targets. -/
def pass : List Parameter → List Argument → List Expr → Reading (List Operand × List WriteBack)
  | p :: ps, (o, site) :: as, e :: es => do
    let (passed, writes) ←
      if p.passing.writes then passTarget e.site p (← valueOf e (elaborate? .target e)) o site
      else pure (← convertToward site p.ty o, [])
    let (rest, more) ← pass ps as es
    return (passed :: rest, writes ++ more)
  | _, _, _ => return ([], [])

end

def elaborate (p : Position) (e : Expr) : Reading Operand := valueOf e (elaborate? p e)

end Segue.Glsl.Reading
