import Segue.Glsl.Arithmetic

/-!
# Folding

An operation on known values is carried out before the program runs. Where an operation has no
result, the program is refused; some functions are not carried out and are left to the program.
-/

namespace Segue.Glsl

/-- Why an operation on known values has no known result. -/
inductive Obstacle where
  | refused
  | postponed
  deriving DecidableEq, Repr

abbrev Folded := Except Obstacle Value

namespace Value

/-- A literal, which has to be finite. -/
def ofLiteral (l : Literal) : Folded := if l.isFinite then .ok (.literal l) else .error .refused

def ofLiteral? (l? : Option Literal) : Folded :=
  match l? with
  | some l => ofLiteral l
  | none => .error .refused

/-- A value of parts; a vector has to have as many components as its size. -/
def ofParts (ty : Ty) (parts : List Value) : Folded :=
  match ty with
  | .vector n _ =>
    if (components ty parts).length = n then .ok (.compose ty parts) else .error .refused
  | _ => .ok (.compose ty parts)

/-- The part at a place, which has to exist. -/
def part (v : Value) (i : Nat) : Folded :=
  match v.part? i with
  | some p => .ok p
  | none => .error .refused

def swizzle (pattern : List Nat) (v : Value) : Folded :=
  match v with
  | .splat _ p => .ok (.splat pattern.length p)
  | .compose (.vector n k) ps =>
    let cs := components (.vector n k) ps
    match pattern.mapM fun i => cs[i]? with
    | some parts => .ok (.compose (.vector pattern.length k) parts)
    | none => .error .refused
  | _ => .error .refused

mutual

def spread : Value → Folded
  | .literal l => .ok (.literal l)
  | .splat n (.literal l) =>
    .ok (.compose (.vector n l.kind) (List.replicate n (.literal l)))
  | .splat _ _ => .error .refused
  | .compose t ps => do return .compose t (← spreadAll ps)

def spreadAll : List Value → Except Obstacle (List Value)
  | [] => .ok []
  | p :: ps => do return (← spread p) :: (← spreadAll ps)

end

mutual

/-- Changes every literal of a value, and the types of what is composed of them. -/
def mapLiterals (f : Literal → Option Literal) (g : Ty → Option Ty) : Value → Folded
  | .literal l => ofLiteral? (f l)
  | .splat n p => do return .splat n (← mapLiterals f g p)
  | .compose t ps => do
    match g t with
    | some t => return .compose t (← mapAll f g ps)
    | none => throw .refused

def mapAll (f : Literal → Option Literal) (g : Ty → Option Ty) :
    List Value → Except Obstacle (List Value)
  | [] => .ok []
  | p :: ps => do return (← mapLiterals f g p) :: (← mapAll f g ps)

end

def ofNumbers? (t : Ty) : Option Ty :=
  match t with
  | .vector .. | .matrix .. => some t
  | _ => none

def sign (s : Sign) (v : Value) : Folded := do
  mapLiterals (Literal.sign? s) ofNumbers? (← v.spread)

/-- Comparisons make vectors of truth values, and truth values of vectors cannot be joined. -/
def binaryVector? (op : Operator) (n : Nat) (t : Ty) : Option Ty :=
  match op with
  | .equal | .notEqual | .less | .lessEqual | .greater | .greaterEqual => some (.vector n .bool)
  | .logicalAnd | .logicalOr | .logicalXor => none
  | _ => some t

/-- An operator; a literal is taken with every part of the other operand. -/
def binary (op : Operator) (a b : Value) : Folded := do
  match ← a.spread, ← b.spread with
  | .literal a, .literal b => ofLiteral? (a.binary? op b)
  | .compose t ps, .literal b => mapLiterals (fun a => a.binary? op b) some (.compose t ps)
  | .literal a, .compose t ps => mapLiterals (fun b => a.binary? op b) some (.compose t ps)
  | .compose (.vector m j) ps, .compose (.vector n k) qs =>
    match binaryVector? op m (.vector m j) with
    | some t =>
      if m ≠ n then throw .refused
      let pairs := (components (.vector m j) ps).zip (components (.vector n k) qs)
      return .compose t (← pairs.mapM fun
        | (.literal a, .literal b) => ofLiteral? (a.binary? op b)
        | _ => throw .refused)
    | none => throw .refused
  | _, _ => throw .refused

def cast (k : Kind) (v : Value) : Folded := mapLiterals (Literal.cast? k) (Ty.withKind? k) v

def truths? (v : Value) : Option (List Bool) :=
  let truth? := fun (v : Value) =>
    match v with
    | .literal (.bool b) => some b
    | _ => none
  match v with
  | .literal (.bool b) => some [b]
  | .compose (.vector n k) ps => (components (.vector n k) ps).mapM truth?
  | _ => none

def joinTruths (all : Bool) (v : Value) : Folded := do
  match (← v.spread).truths? with
  | some bs => return .literal (.bool (if all then bs.all id else bs.any id))
  | none => throw .refused

/-- One of two values, by a condition, or one of each two components, by a vector of conditions. -/
def select (condition accept reject : Value) : Folded := do
  let r ← reject.spread
  let a ← accept.spread
  let c ← condition.spread
  match r, a with
  | .literal r, .literal a =>
    match c with
    | .literal (.bool c) => ofLiteral? (if c then a.cast? r.kind else some r)
    | _ => throw .refused
  | .compose (.vector n k) rs, .compose (.vector m _) as =>
    let conditions := match c with
      | .literal (.bool c) => List.replicate n c
      | c => (c.truths?).getD []
    if m ≠ n ∨ conditions.length ≠ n then throw .refused
    let parts ← (conditions.zip (as.zip rs)).mapM fun (c, a, r) =>
      if c then cast k a else .ok r
    return .compose (.vector n k) parts
  | _, _ => throw .refused

/-! ## Functions -/

def literals? (vs : List Value) : Option (List Literal) := vs.mapM literal?

/-- The first elements of some rows, the second ones, and so on. -/
def columns (count : Nat) (rows : List (List Value)) : List (List Value) :=
  (List.range count).map fun i => rows.filterMap fun r => r[i]?

def eachComponent (f : List Literal → Option Literal) (arguments : List Value) : Folded := do
  let as ← arguments.mapM spread
  match as with
  | .literal _ :: _ => ofLiteral? ((literals? as).bind f)
  | .compose (.vector n k) _ :: _ =>
    let rows ← as.mapM fun
      | .compose t ps => if t = .vector n k then .ok ps else .error .refused
      | _ => .error .refused
    return .compose (.vector n k)
      (← (columns n rows).mapM fun ps => ofLiteral? ((literals? ps).bind f))
  | _ => throw .refused

def cross (a b : Value) : Folded := do
  let parts? := fun (v : Value) =>
    match v with
    | .compose (.vector 3 _) ps => (literals? ps).bind fun
      | [.float x, .float y, .float z] => some (x, y, z)
      | _ => none
    | _ => none
  match parts? (← a.spread), parts? (← b.spread) with
  | some (x, y, z), some (u, v, w) =>
    let parts ← [y * w - z * v, z * u - x * w, x * v - y * u].mapM fun c => ofLiteral (.float c)
    return .compose (.vector 3 .float) parts
  | _, _ => throw .refused

def apply (name : String) (arguments : List Value) : Folded :=
  match name, arguments with
  | "cross", [a, b] => cross a b
  | _, _ =>
    match Literal.functions.lookup name with
    | some f => eachComponent f arguments
    | none => .error .postponed

end Value

end Segue.Glsl
