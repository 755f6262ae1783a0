import Segue.Glsl.Build

/-!
# Constructors

A type can be called like a function. One argument is converted, repeated or cut to fit the type;
of several, vectors and matrices take the components in a row, and arrays and records their parts.
-/

namespace Segue.Glsl.Reading

abbrev Argument := Operand × Site

def makeColumns (site : Site) (ty : Ty) (count : Nat) (column : Nat → Reading Operand) :
    Reading Operand := do
  makeComposed site ty (← (List.range count).mapM column)

def numbersTruth (ty : Ty) (value : Ty) : Option Kind :=
  match ty.kind?, value.kind? with
  | some k, some .bool => if k = .bool then none else some k
  | _, _ => none

/-- The number 1 for what holds and 0 for what does not. -/
def numberTruth (site siteValue : Site) (k : Kind) (ty : Ty) (value : Operand) :
    Reading Operand := do
  let size := match ty with
    | .vector n _ => n
    | _ => 1
  let k := if k = .double then .float else k
  let zero ← makeLiteral siteValue (.zero k)
  let one ← makeLiteral siteValue (.one k)
  let reject ← spread site size zero
  let accept ← spread site size one
  makeSelect siteValue value accept reject

/-- A column of a matrix with ones on its diagonal, or the start of one that is given. -/
def makeColumn (site : Site) (rows i : Nat) (column : Ty) (zero one : Operand)
    (given? : Option (Operand × Nat)) : Reading Operand := do
  match given? with
  | some (matrix, height) =>
    let v ← makePart site matrix i
    if height = rows then return v
    else if rows < height then makeResized site rows v
    else
      let parts ← (List.range rows).mapM fun r =>
        if r < height then makePart site v r else return if r = i then one else zero
      makeComposed site column parts
  | none =>
    makeComposed site column ((List.range rows).map fun r => if r = i then one else zero)

/-- A matrix of one argument: a number fills the diagonal, a matrix the columns and rows that it
has, and anything else every column. -/
def makeMatrix (site : Site) (columns rows : Nat) (k : Kind) (a : Argument) : Reading Operand := do
  let ty := Ty.matrix columns rows k
  let column := Ty.vector rows k
  let value ← force a.2 k a.1
  match ← typeOf a.2 value with
  | .scalar _ =>
    let zero ← makeLiteral site (.zero k)
    makeColumns site ty columns fun i => makeColumn site rows i column zero value none
  | .matrix width height _ =>
    let zero ← makeLiteral site (.zero k)
    let one ← makeLiteral site (.one k)
    makeColumns site ty columns fun i =>
      makeColumn site rows i column zero one (if i < width then some (value, height) else none)
  | _ => makeColumns site ty columns fun _ => return value

def componentsOf (site : Site) (o : Operand) : Reading (List Operand) := do
  match ← typeOf site o with
  | .vector n _ => (List.range n).mapM fun i => makePart site o i
  | .matrix c r _ =>
    return (← (List.range c).mapM fun i => do
      let column ← makePart site o i
      (List.range r).mapM fun j => makePart site column j).flatten
  | _ => return [o]

/-- The components of arguments, until there are enough. -/
def gather (k : Kind) (size : Nat) : List Argument → List Operand → Reading (List Operand)
  | [], found => return found
  | (o, site) :: as, found => do
    let o ← force site k o
    if size ≤ found.length then return found
    else gather k size as (found ++ (← componentsOf site o))

def makeVector (site : Site) (size : Nat) (k : Kind) (as : List Argument) : Reading Operand := do
  makeComposed site (.vector size k) ((← gather k size as []).take size)

def firstPart (site siteValue : Site) (value : Operand) : Reading Operand := do
  match ← typeOf siteValue value with
  | .vector .. => makePart site value 0
  | .matrix .. => makePart site (← makePart site value 0) 0
  | _ => return value

def constructOne (site : Site) (ty : Ty) (a : Argument) : Reading Operand := do
  let (value, siteValue) := a
  let t ← typeOf siteValue value
  match numbersTruth ty t with
  | some k => numberTruth site siteValue k t value
  | none =>
    match ty with
    | .scalar k => makeCast site k (← firstPart site siteValue value)
    | .vector n k =>
      match t with
      | .vector m _ =>
        let value ← if m = n then pure value else makeResized siteValue n value
        makeCast site k value
      | _ =>
        let value ← force siteValue k value
        if (← typeOf siteValue value).isScalar then makeSplat site n value
        else makeVector site n k [(value, siteValue)]
    | .matrix c r k => makeMatrix site c r k a
    | .record _ =>
      let first? := (← records).member? ty 0
      let value ← match first? with
        | some m => convertToward siteValue m value
        | none => pure value
      makeComposed site ty [value]
    | .array e _ _ => makeComposed site ty [← convertToward siteValue e value]
    | _ => throw site

/-- Rows of so many elements; the last may be shorter. -/
def chunks {α : Type} (size : Nat) (xs : List α) : List (List α) :=
  (List.range ((xs.length + size - 1) / size)).map fun i => (xs.drop (i * size)).take size

def flattenVectors (k : Kind) (as : List Argument) : Reading (List Operand) := do
  return (← as.mapM fun (o, site) => do
    let o ← force site k o
    match ← typeOf site o with
    | .vector n _ => (List.range n).mapM fun i => makePart site o i
    | _ => return [o]).flatten

def constructMany (site : Site) (ty : Ty) (as : List Argument) : Reading Operand := do
  match ty with
  | .matrix _ rows k =>
    let columns ← (chunks rows (← flattenVectors k as)).mapM fun c =>
      makeComposed site (.vector rows k) c
    makeComposed site ty columns
  | .vector n k => makeVector site n k as
  | .array e _ _ => makeComposed site ty (← as.mapM fun (o, site) => convertToward site e o)
  | .record place =>
    let ms := ((← records)[place]?.map Record.members).getD []
    makeComposed site ty (← (as.zip ms).mapM fun ((o, site), m) => convertToward site m.ty o)
  | _ => throw site

def construct (site : Site) (ty : Ty) (as : List Argument) : Reading Operand :=
  match as with
  | [a] => constructOne site ty a
  | as => constructMany site ty as

end Segue.Glsl.Reading
