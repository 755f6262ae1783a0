import Segue.Glsl.Constructor

/-!
# Calls

What becomes of the arguments of a call once its signature is chosen: a function of the language is
written out, and a function of the program is called. Values made for functions of the language
have no site of their own.
-/

namespace Segue.Glsl

def Builtin.overload (b : Builtin) : Overload :=
  { signature := b.parameters.map fun t => { ty := t }
    result? := none
    isVoid := false
    meaning := .builtin b.action }

namespace Reading

/-! ## Functions of the language -/

def spreadAt (site : Site) (size : Nat) (places : List Nat) (as : List Operand) :
    Reading (List Operand) :=
  as.zipIdx.mapM fun (a, i) => if places.contains i then spread site size a else return a

/-- What remains of a number after taking away as many whole ones of another as possible. -/
def makeModulo (site : Site) (size : Nat) (x y : Operand) : Reading Operand := do
  let y ← spread site size y
  let quotient ← makeBinary none .divide x y
  let whole ← makeApplied none "floor" [quotient]
  let taken ← makeBinary none .multiply whole y
  makeBinary none .subtract x taken

/-- Coordinates divided by the last of them. -/
def project (coordinates : Operand) : Reading Operand := do
  match ← typeOf none coordinates with
  | .vector n _ =>
    let last ← makePart none coordinates (n - 1)
    if n ≤ 2 then makeBinary none .divide (← makePart none coordinates 0) last
    else
      let last ← makeSplat none (n - 1) last
      makeBinary none .divide (← makeResized none (n - 1) coordinates) last
  | _ => throw none

/-- The coordinates within one picture, of coordinates that may also choose one in a row. -/
def makeCoordinates (image coordinates : Operand) : Reading Unit := do
  match ← typeOf none image with
  | .image shape _ _ =>
    let (count, row) := (Ty.shapes.lookup shape).getD (2, false)
    match count, ← typeOf none coordinates with
    | 1, .vector .. => discard (makePart none coordinates 0)
    | n, .vector m _ => if n ≠ m then discard (makeResized none n coordinates)
    | _, _ => pure ()
    if row then discard (makePart none coordinates count)
  | _ => throw none

/-- Looks a picture up; it has to be joined to a sampler. Only pictures of real numbers are looked
up between their pixels, and whole pixels that are added have to be known. -/
def makeSample (site : Site) (projected offset : Bool) (detail : Detail) (image : Operand)
    (as : List Operand) : Reading Operand := do
  match as with
  | coordinates :: more =>
    let coordinates ← if projected then project coordinates else pure coordinates
    makeCoordinates image coordinates
    let place := match detail with
      | .automatic => 0
      | .given => 1
      | .bySlopes => 2
    if offset ∧ !(more[place]?.any fun o => o.value?.isSome) then throw site
    unless (← frame).joined.contains image.number do throw site
    match ← typeOf none image with
    | .image _ k depth =>
      pushUnknown site (some (if depth then .scalar k else .vector 4 k)) (k = .float)
    | _ => throw site
  | [] => throw site

def makeImageSize (row : Bool) (image : Operand) : Reading Operand := do
  match ← typeOf none image with
  | .image shape _ _ =>
    let count := ((Ty.shapes.lookup shape).map Prod.fst).getD 2
    let sides := if ["Cube", "CubeArray"].contains shape then 2 else count
    let size ← pushUnknown none (some (.ofSize sides .uint)) true
    if row then
      let parts ← componentsOf none size
      let number ← pushUnknown none (some (.scalar .uint)) true
      makeCast none .int (← makeComposed none (.vector (sides + 1) .uint) (parts ++ [number]))
    else makeCast none .int size
  | _ => throw none

def perform (site : Site) (action : Action) (as : List Operand) : Reading Operand := do
  match action, as with
  | .apply name, as => makeApplied none name as
  | .applySpread name size places, as => makeApplied none name (← spreadAt site size places as)
  | .modulo size, [x, y] => makeModulo site size x y
  | .choose, [reject, accept, condition] => makeSelect none condition accept reject
  | .reinterpret k, [x] => makeReinterpreted none k x
  | .derivative, [x] => makeDerivative none x
  | .joinTruths all, [x] => makeJoined none all x
  | .classify, [x] => makeClassified none x
  | .negate, [x] => makeSign none .logicalNot x
  | .compare op, [x, y] => makeBinary none op x y
  | .findBit name, [x] => makeCast none .int (← makeApplied none name [x])
  | .extractBits, [x, start, count] =>
    let start ← makeCast none .uint start
    let count ← makeCast none .uint count
    makeApplied none "bitfieldExtract" [x, start, count]
  | .insertBits, [x, y, start, count] =>
    let start ← makeCast none .uint start
    let count ← makeCast none .uint count
    makeApplied none "bitfieldInsert" [x, y, start, count]
  | .join shadow, image :: _ =>
    modifyFrame fun f => { f with joined := image.number :: f.joined }
    match image.ty? with
    | some (.image shape k _) => return { image with ty? := some (.image shape k shadow) }
    | _ => return image
  | .sample projected offset detail, image :: as =>
    makeSample site projected offset detail image as
  | .fetch _, [image, coordinates, _] | .fetch _, [image, coordinates, _, _] =>
    makeCoordinates image coordinates
    match ← typeOf none image with
    | .image _ k _ => pushUnknown none (some (.vector 4 k)) true
    | _ => throw site
  | .imageSize row, image :: _ => makeImageSize row image
  | _, _ => throw site

/-! ## Arguments that are written -/

structure WriteBack where
  target : Operand
  value : Operand
  convert? : Option Kind

/-- The type of a variable that stands in for an argument, if one has to: where the argument is no
variable of a function. -/
def standInTy? (argument : Ty) : Option Ty :=
  match argument with
  | .vector n k => some (.vector n k)
  | .pointer t s => if s = .call then none else some t
  | .part n k s => if s = .call then none else some (Ty.ofSize (n.getD 1) k)
  | _ => none

/-- The argument for a parameter that is written, and what is stored after the call. -/
def passTarget (site : Site) (p : Parameter) (target value : Operand) (siteValue : Site) :
    Reading (Operand × List WriteBack) := do
  let t ← typeOf site target
  let current ← if t.isPointer then makeLoad none target else pure target
  let given ← typeOf siteValue value
  let needsConversion := !(← records).same given p.ty
  let standIn? := if needsConversion then some p.ty else standInTy? t
  match standIn? with
  | none => return (target, [])
  | some ty =>
    let holder ← makeLocal none ty
    if p.passing = .both then addStore holder current
    let convert? := if needsConversion then given.componentKind? else none
    match target.form with
    | .picked vector pointer? components =>
      let vector : Operand := { pointer?.getD vector with }
      let writes ← components.zipIdx.mapM fun (c, i) => do
        let part ← makePart none vector c
        return { target := part, value := ← makePart none holder i, convert? }
      return (holder, writes)
    | _ => return (holder, [{ target, value := holder, convert? }])

def writeBack (site : Site) (w : WriteBack) : Reading Unit := do
  let value ← makeLoad site w.value
  let value ← match w.convert? with
    | some k => makeCast site k value
    | none => pure value
  flush
  addStore w.target value

/-! ## Functions of the program -/

/-- Whether an argument fits a parameter: pointers are passed to what is written. -/
def fits (rs : Records) (p : Parameter) (argument : Ty) : Bool :=
  if p.passing.writes then
    argument.space? = some .call && argument.pointee?.any (rs.same p.ty)
  else rs.same p.ty argument

/-- Calls a function of the program; gives its value if it has one. -/
def callRoutine (site : Site) (place : Nat) (o : Overload) (as : List Operand)
    (writes : List WriteBack) : Reading (Option Operand) := do
  if (← frame).isConstant then throw site
  flush
  let rs ← records
  let valid := (o.signature.zip as).all fun (p, a) => a.ty?.all (fits rs p)
  calls place
  let result? ← if o.isVoid then pure none else
    modifyFrame fun f => { f with valueCalls := f.valueCalls + 1 }
    some <$> push site o.result? true true none .plain
  addStmt (.call (valid && o.isVoid == o.result?.isNone) result?.isSome)
  writes.forM (writeBack site)
  return result?

/-! ## Choosing -/

/-- The signatures by which a name can be called: those of the language first. A function of the
program stands in the place of one of the language that takes the same arguments. -/
def overloads (name : String) (wide : Bool) : Reading (List Overload) := do
  let declared := ((← get).overloads.lookup name).getD []
  let given := Builtin.all name wide
  let takes := fun (o : Overload) (b : Builtin) => o.signature.map Parameter.ty = b.parameters
  let builtin := given.map fun b => (declared.find? fun o => takes o b).getD b.overload
  return builtin ++ declared.filter fun o => !given.any (takes o)

def isWide (arguments : List Ty) : Bool :=
  arguments.any fun t => t.componentKind? = some .double

def chooseOverload (site : Site) (name : String) (as : List Argument) : Reading Overload := do
  let tys ← as.mapM fun (o, s) => typeOf s o
  let os ← overloads name (isWide tys)
  let choice? := (Signature.choose? (← records) (os.map Overload.signature) tys).bind (os[·]?)
  match choice? with
  | some o => return o
  | none => throw site

def carryOut (site : Site) (o : Overload) (as : List Operand) (writes : List WriteBack) :
    Reading (Option Operand) :=
  match o.meaning with
  | .builtin action => some <$> perform site action as
  | .routine place => callRoutine site place o as writes

end Reading

end Segue.Glsl
