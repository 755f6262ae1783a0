import Segue.Glsl.Folding
import Segue.Glsl.Operation
import Segue.Glsl.Reading

/-!
# Making values

Each operation makes a new value. On known values the operation is carried out at once; outside of
functions it has to be, as all values are known there. Types are asked for only where they matter,
and then every value made so far has to have one.
-/

namespace Segue.Glsl.Reading

/-! ## New values -/

def records : Reading Records := return (← get).records

def refuseValue (site : Site) : Reading Unit := do
  if (← frame).isConstant then
    modify fun s => { s with invalidParts := s.invalidParts ++ [site] }
  else refuse site

/-- Adds a value. Some are there at once, and others are made where a statement is next. -/
def push (site : Site) (ty? : Option Ty) (valid atOnce : Bool) (value? : Option Value)
    (form : Form) : Reading Operand := do
  unless valid do refuseValue site
  if atOnce then flush
  let f ← frame
  modifyFrame fun f =>
    { f with count := f.count + 1
             untyped? := if ty?.isNone then f.untyped? <|> some site else f.untyped?
             isPending := f.isPending || !atOnce }
  return { number := f.count, ty?, value?, form }

def pushKnown (site : Site) (v : Value) : Reading Operand := do
  let rs ← records
  let valid := match v with
    | .literal _ => true
    | .splat _ p => p.ty?.any Ty.isScalar
    | .compose t ps => (ps.mapM Value.ty?).any (rs.composes t)
  let atOnce := match v with
    | .literal _ => true
    | _ => false
  push site v.ty? valid atOnce (some v) .plain

def pushUnknown (site : Site) (ty? : Option Ty) (valid : Bool) (form : Form := .plain) :
    Reading Operand := do
  if (← frame).isConstant then throw site
  push site ty? valid false none form

def operate (site : Site) (operands : List Operand) (fold : List Value → Folded)
    (ty? : Option Ty) (valid : Bool) (form : Form := .plain) : Reading Operand := do
  match operands.mapM fun o => o.value? with
  | some vs =>
    match fold vs with
    | .ok v => pushKnown site v
    | .error .refused => throw site
    | .error .postponed => pushUnknown site ty? valid form
  | none => pushUnknown site ty? valid form

def one (f : Value → Folded) : List Value → Folded
  | [a] => f a
  | _ => .error .refused

def two (f : Value → Value → Folded) : List Value → Folded
  | [a, b] => f a b
  | _ => .error .refused

def left : List Value → Folded := fun _ => .error .postponed

/-! ## Types -/

/-- The type of a value. Together with it all types are found that are not known yet. -/
def typeOf (site : Site) (o : Operand) : Reading Ty := do
  let f ← frame
  if f.resolved ≤ o.number ∧ f.untyped?.isSome then throw site
  modifyFrame fun f => { f with resolved := if f.resolved ≤ o.number then f.count else f.resolved }
  match o.ty? with
  | some t => return t
  | none => throw site

def kindOf (site : Site) (o : Operand) : Reading (Option Kind) :=
  return (← typeOf site o).componentKind?

/-! ## Operations -/

def makeLiteral (site : Site) (l : Literal) : Reading Operand := do
  if l.isFinite then pushKnown site (.literal l) else throw site

def makeSign (site : Site) (s : Sign) (o : Operand) : Reading Operand :=
  operate site [o] (one (Value.sign s)) o.ty? (o.ty?.all s.isValid)

def makeBinary (site : Site) (op : Operator) (a b : Operand) : Reading Operand := do
  let rs ← records
  let (ty?, valid) := match a.ty?, b.ty? with
    | some s, some t => (op.ty? s t, op.isValid rs s t)
    | _, _ => (none, true)
  operate site [a, b] (two (Value.binary op)) ty? valid

def makeApplied (site : Site) (name : String) (arguments : List Operand) : Reading Operand :=
  let ty? := (arguments.mapM fun (o : Operand) => o.ty?).bind (Applied.ty? name)
  operate site arguments (Value.apply name) ty? true

def makePart (site : Site) (base : Operand) (i : Nat) : Reading Operand := do
  let rs ← records
  let count? := base.ty?.bind rs.partCount?
  operate site [base] (one fun v => v.part i) (base.ty?.bind fun t => rs.partTy? t i)
    (count?.all (i < ·))

/-- The part at a place that is found when the program runs, unless all is known. -/
def makeElement (site : Site) (base index : Operand) : Reading Operand := do
  let rs ← records
  let fold := two fun v i =>
    match i.index? with
    | some i => v.part i
    | none => .error .refused
  let within := match base.ty?.bind rs.partCount?, index.value? with
    | some n, some v => !v.isNegative && v.index?.all (· < n)
    | _, _ => true
  operate site [base, index] fold (base.ty?.bind Ty.element?) (index.ty?.all Ty.isIndex && within)

def makeLoad (site : Site) (pointer : Operand) : Reading Operand := do
  let rs ← records
  let ty? := pointer.ty?.bind Ty.loaded?
  pushUnknown site ty? (ty?.all rs.isMade) (.loaded pointer.toAtom)

def makeSwizzle (site : Site) (vector : Operand) (components : List Nat) : Reading Operand :=
  let pointer? := match vector.form with
    | .loaded p => some p
    | _ => none
  let within := match vector.ty? with
    | some (.vector n _) => components.all (· < n)
    | _ => true
  operate site [vector] (one (Value.swizzle components))
    (vector.ty?.bind (Ty.swizzled? components.length)) within
    (.picked vector.toAtom pointer? components)

def makeResized (site : Site) (size : Nat) (vector : Operand) : Reading Operand :=
  makeSwizzle site vector (List.range size)

def makeSplat (site : Site) (size : Nat) (o : Operand) : Reading Operand :=
  operate site [o] (one fun v => .ok (.splat size v)) (o.ty?.bind (Ty.splatted? size)) true

def makeComposed (site : Site) (ty : Ty) (parts : List Operand) : Reading Operand := do
  let rs ← records
  let valid := match parts.mapM fun o => o.ty? with
    | some ts => rs.composes ty ts
    | none => true
  operate site parts (Value.ofParts ty) (some ty) valid

def makeCast (site : Site) (k : Kind) (o : Operand) : Reading Operand :=
  operate site [o] (one (Value.cast k)) (o.ty?.bind (Ty.withKind? k)) true

def makeSelect (site : Site) (condition accept reject : Operand) : Reading Operand :=
  let valid := match condition.ty?, accept.ty?, reject.ty? with
    | some c, some a, some r => selects c a r
    | _, _, _ => true
  let fold := fun
    | [c, a, r] => Value.select c a r
    | _ => .error .refused
  operate site [condition, accept, reject] fold accept.ty? valid

def makeJoined (site : Site) (all : Bool) (o : Operand) : Reading Operand :=
  let valid := o.ty?.all fun
    | .vector _ .bool => true
    | _ => false
  operate site [o] (one (Value.joinTruths all)) (some .bool) valid

def makeClassified (site : Site) (o : Operand) : Reading Operand :=
  let isNumber := Operator.hasKind fun _ => true
  let ty? := o.ty?.bind fun t => if isNumber t then t.withKind? .bool else none
  operate site [o] left ty? (o.ty?.all (Operator.hasKind Kind.isReal))

def makeReinterpreted (site : Site) (k : Kind) (o : Operand) : Reading Operand :=
  operate site [o] left (o.ty?.bind (Ty.withKind? k)) true

def makeDerivative (site : Site) (o : Operand) : Reading Operand :=
  pushUnknown site o.ty? (o.ty?.all (Operator.hasKind Kind.isReal))

/-! ## Conversions -/

/-- Turns a value into one of a kind, if its kind is of less power. -/
def convert (site : Site) (k : Kind) (o : Operand) : Reading Operand := do
  match k.power?, (← kindOf site o).bind Kind.power? with
  | some p, some q => if q < p then makeCast site k o else return o
  | _, _ => return o

def force (site : Site) (k : Kind) (o : Operand) : Reading Operand := do
  match ← kindOf site o with
  | some j => if j = k then return o else makeCast site k o
  | none => return o

/-- Turns a value into what components of a type are, if it has components. -/
def convertToward (site : Site) (t : Ty) (o : Operand) : Reading Operand :=
  match t.componentKind? with
  | some k => convert site k o
  | none => return o

def balance (siteA : Site) (a : Operand) (siteB : Site) (b : Operand) :
    Reading (Operand × Operand) := do
  let j? ← kindOf siteA a
  let k? ← kindOf siteB b
  match j?, k? with
  | some j, some k =>
    match j.power?, k.power? with
    | some p, some q =>
      if p < q then return (← makeCast siteA k a, b)
      else if q < p then return (a, ← makeCast siteB j b)
      else return (a, b)
    | _, _ => return (a, b)
  | _, _ => return (a, b)

/-- Makes a number a vector of a size; vectors stay as they are. -/
def spread (site : Site) (size : Nat) (o : Operand) : Reading Operand := do
  if (← typeOf site o).isScalar ∧ 1 < size then makeSplat site size o else return o

/-! ## Variables of functions -/

/-- A new variable of a function; its type has to be of values that can be made. -/
def makeLocal (site : Site) (ty : Ty) : Reading Operand := do
  unless (← records).isMade ty do refuse site
  if (← frame).isConstant then throw site
  push site (some (.pointer ty .call)) true true none .plain

/-! ## Stores -/

/-- Whether a value of the second type can be stored where the first points. -/
def storable (rs : Records) (pointer value : Ty) : Bool :=
  let isWritable := match pointer.space? with
    | some .uniform | some .handle | none => false
    | some _ => true
  isWritable && pointer.pointee?.any fun t => rs.same t value

def addStore (pointer value : Operand) : Reading Unit := do
  let rs ← records
  let valid := match pointer.ty?, value.ty? with
    | some p, some v => storable rs p v
    | _, _ => true
  addStmt (.store valid)

/-- Stores a value in what stands on the left of an assignment. Components that have been picked
out of a vector are stored one by one. -/
def store (site : Site) (target value : Operand) : Reading Unit := do
  match target.form with
  | .picked vector pointer? components =>
    let vector : Operand := { pointer?.getD vector with }
    components.zipIdx.forM fun (c, i) => do
      let part ← makePart site vector c
      let value ← makePart site value i
      flush
      addStore part value
  | _ =>
    flush
    addStore target value

end Segue.Glsl.Reading
