import Segue.Glsl.Qualifier

/-!
# Declarations

Variables, records, blocks and the heads of functions. Outside of functions a variable may be
shared with the device or with other stages, and a constant has to be known before the program
runs.
-/

namespace Segue.Glsl.Reading

/-! ## Types -/

/-- Reads the names of members after their type, and puts the members into a row. -/
def memberNames (source : Nat) (rule : Rule) (base : Ty) :
    (rounds : Nat) → Site → Row → Reading Row
  | 0, _, _ => throw none
  | rounds + 1, site, row => do
    let (name, nameSite) ← expectName
    let (ty, site) ← arraySizes source site base
    let site := Site.join site nameSite
    let rs ← records
    match rs.layOut? rule rs.length ty with
    | none => throw site
    | some (laid, rs) =>
      modify fun s => { s with records := rs }
      let row := row.add name laid
      if ← accept (.mark ",") then memberNames source rule base rounds site row
      else
        expectMark ";"
        return row

mutual

/-- Reads the members of a record or block up to the closing brace; there is at least one. -/
def memberList (source : Nat) (rule : Rule) : (rounds : Nat) → Row → Reading Row
  | 0, _ => throw none
  | rounds + 1, row => do
    let (base?, site) ← declaredType source rounds
    match base? with
    | none => throw site
    | some base =>
      let row ← memberNames source rule base source site row
      if ← meets (.mark "\x7d") then return row else memberList source rule rounds row

/-- Reads a type or the word for no value. A type may be a record that is declared here. -/
def declaredType (source : Nat) : (rounds : Nat) → Reading (Option Ty × Site)
  | 0 => throw none
  | rounds + 1 => do
    let t ← peek
    let site := some t.line
    if t.token = .word "void" then
      skip
      return (none, site)
    else if t.token = .word "struct" then
      skip
      let (name, _) ← expectName
      expectMark "\x7b"
      let row ← memberList source .wide rounds {}
      expectMark "\x7d"
      let ty ← enterRecord (row.close name)
      noteType site ty
      modify fun s => { s with typeNames := (name, ty) :: s.typeNames }
      let (ty, site) ← arraySizes source site ty
      return (some ty, site)
    else
      let (ty, site) ← typeName source
      return (some ty, site)

end

def valueType (source : Nat) : Reading (Ty × Site) := do
  match ← declaredType source source with
  | (some ty, site) => return (ty, site)
  | (none, site) => throw site

/-! ## Initial values -/

def partTy (rs : Records) (ty : Ty) (i : Nat) : Ty :=
  match ty with
  | .record _ => (rs.member? ty i).getD ty
  | .vector .. | .matrix .. | .array .. => ty.element?.getD ty
  | t => t

mutual

/-- Reads an initial value for a variable of a type: an expression, or a list in braces. -/
def initial (source : Nat) : (rounds : Nat) → Ty → Reading Argument
  | 0, _ => throw none
  | rounds + 1, ty => do
    let t ← peek
    if t.token = .mark "\x7b" then
      skip
      let (values, site) ← initialList source rounds ty 0 (some t.line)
      return (← constructMany site ty values, site)
    else
      let e ← assignment source
      let o ← elaborate .value e
      return (← convertToward e.site ty o, e.site)

def initialList (source : Nat) :
    (rounds : Nat) → Ty → (place : Nat) → Site → Reading (List Argument × Site)
  | 0, _, _, _ => throw none
  | rounds + 1, ty, i, site => do
    let v ← initial source rounds (partTy (← records) ty i)
    let t ← next
    let site' := Site.join site (some t.line)
    if t.token = .mark "," then
      if ← accept (.mark "\x7d") then return ([v], site)
      let (vs, site) ← initialList source rounds ty (i + 1) site
      return (v :: vs, site)
    else if t.token = .mark "\x7d" then return ([v], site')
    else failAt t

end

/-! ## Variables of functions -/

/-- Declares a variable of a function. A value that is known initializes it, if the function does
not come here several times. -/
def addLocal (q : Qualifiers) (site : Site) (name : String) (ty : Ty) (initial? : Option Operand) :
    Reading Operand := do
  match q.storage? with
  | some (.const, _) | none => pure ()
  | some (_, s) => throw s
  match initial? with
  | some v =>
    let rs ← records
    unless v.ty?.all (rs.same ty) do refuse site
  | none => pure ()
  let holder ← makeLocal site ty
  if ← isDeclared name then throw site
  declareLocal name { operand := holder, isLoaded := true, isWritable := !q.isConst }
  checkUsed q false false
  return holder

/-! ## Variables outside of functions -/

/-- Whether the elements of the arrays in a type lie sixteen bytes apart, as blocks that can only be
read ask for. -/
def isSpread (rs : Records) : (rounds : Nat) → Ty → Bool
  | rounds, .array e _ s => s % 16 == 0 && isSpread rs rounds e
  | rounds + 1, .record i =>
    match rs[i]? with
    | some r => r.members.all fun m => isSpread rs rounds m.ty
    | none => true
  | _, _ => true
termination_by rounds t => (rounds, t)

def isKeptIn (rs : Records) (s : Space) (t : Ty) : Bool :=
  match s with
  | .handle => t.isOpaque
  | .uniform => rs.isMade t && rs.isShared t && isSpread rs rs.length t
  | .storage => rs.isKept t && rs.isShared t
  | .call | .run | .workgroup => rs.isMade t

def spaceOf (q : Qualifiers) (t : Ty) : Space :=
  match q.storage?.map Prod.fst with
  | some .uniform => if t.isOpaque then .handle else .uniform
  | some .buffer => .storage
  | some .shared => .workgroup
  | _ => .run

/-- The binding of a variable that is kept on the device; it has to have one. -/
def takeBinding (q : Qualifiers) (site : Site) (ty : Ty) (space : Space) (place : Nat) :
    Reading (Binding × Qualifiers) := do
  let (binding?, q) ← takeNumber q "binding"
  match binding? with
  | none => throw site
  | some binding =>
    let (set?, q) ← takeNumber q "set"
    return (⟨set?.getD 0, binding, ty, space, site, place⟩, q)

/-- Enters a value that comes in or goes out; without a location it is at the first. -/
def addPort (q : Qualifiers) (input : Bool) (ty : Ty) : Reading Qualifiers := do
  let (location?, q) ← takeNumber q "location"
  let smooth := q.interpolation?.any fun i => i.1 ≠ "flat"
  let wrong := smooth && ty.kind?.any fun k => !k.isReal
  let place := some (location?.getD 0)
  let varying : Varying := { isInput := input, ty, location? := place, isValid := !wrong }
  modify fun s => { s with varyings := s.varyings ++ [varying] }
  return q

/-- Checks a variable outside of functions, and its initial value if that is known. -/
def checkGlobal (site : Site) (space : Space) (ty : Ty) (initial? : Option Operand) :
    Reading Unit := do
  let rs ← records
  let fitting := match initial? with
    | some v => v.value?.isNone || (space = .run && v.ty?.any (rs.same ty))
    | none => true
  unless isKeptIn rs space ty && fitting do invalidGlobal site

def addConstant (q : Qualifiers) (site : Site) (ty : Ty) (initial? : Option Operand) :
    Reading (Variable × Qualifiers) := do
  match initial? with
  | none => throw site
  | some v =>
    let rs ← records
    unless rs.isMade ty && v.ty?.any (rs.same ty) do
      modify fun s => { s with invalidConstants := s.invalidConstants ++ [site] }
    let operand : Operand := { number := ← nextGlobal, ty? := some ty, value? := v.value? }
    return ({ operand, isLoaded := false, isWritable := false, isConstant := true }, q)

def addVariable (q : Qualifiers) (site : Site) (ty : Ty) (initial? : Option Operand) :
    Reading (Variable × Qualifiers) := do
  let space := spaceOf q ty
  let place ← nextGlobal
  checkGlobal site space ty initial?
  let pointer := if space = .handle then ty else .pointer ty space
  let operand : Operand := { number := place, ty? := some pointer }
  let v : Variable := { operand, isLoaded := space ≠ .handle, isWritable := true }
  match q.storage?.map Prod.fst with
  | some .input => return ({ v with isWritable := false }, ← addPort q true ty)
  | some .output => return (v, ← addPort q false ty)
  | some .uniform | some .buffer =>
    let (b, q) ← takeBinding q site ty space place
    return ({ v with binding? := some b }, q)
  | _ => return (v, q)

/-- Declares a variable or constant outside of functions, which may be without a name. -/
def addGlobal (q : Qualifiers) (site : Site) (name? : Option String) (ty : Ty)
    (initial? : Option Operand) : Reading Variable := do
  let (v, q) ←
    if q.isConst then addConstant q site ty initial? else addVariable q site ty initial?
  match name? with
  | some name => declareGlobal name v
  | none => pure ()
  checkUsed q q.isPort ((q.storage?.map Prod.fst) = some .buffer)
  return v

/-! ## Declarators -/

/-- Reads the initial value of a variable; that of a constant outside of functions has to be known
before the program runs. -/
def initializer (source : Nat) (known : Bool) (ty : Ty) : Reading Argument := do
  let before := (← frame).isConstant
  modifyFrame fun f => { f with isConstant := known }
  let (o, site) ← initial source source ty
  let o ← convertToward site ty o
  modifyFrame fun f => { f with isConstant := before }
  return (o, site)

/-- Where a declaration stands: outside of functions, or in a function, perhaps within a loop. -/
inductive Scene where
  | outside
  | inside (looping : Bool)
  deriving DecidableEq, Repr

/-- Declares a name with its initial value. What is found only when a function runs, or each time
that a loop comes here, is stored. -/
def addDeclared (scene : Scene) (q : Qualifiers) (site : Site) (name : String) (ty : Ty)
    (initial? : Option Operand) : Reading Unit := do
  match scene, initial? with
  | .outside, _ => discard (addGlobal q site (some name) ty initial?)
  | .inside _, none => discard (addLocal q site name ty none)
  | .inside looping, some v =>
    if !looping && v.value?.isSome then discard (addLocal q site name ty (some v))
    else
      let holder ← addLocal q site name ty none
      flush
      addStore holder v

/-- Reads names with sizes and initial values up to the semicolon. A size stays for the names that
follow. -/
def declarators (source : Nat) (scene : Scene) (q : Qualifiers) : (rounds : Nat) → Ty → Reading Unit
  | 0, _ => throw none
  | rounds + 1, ty => do
    let t ← next
    if t.token = .mark ";" then return
    match name? t with
    | none => failAt t
    | some name =>
      let (ty, site) ← arraySizes source (some t.line) ty
      let (initial?, site) ← if ← accept (.mark "=") then
          let (v, s) ← initializer source (scene = .outside && q.isConst) ty
          pure (some v, Site.join site s)
        else pure (none, site)
      addDeclared scene q site name ty initial?
      let t ← next
      if t.token = .mark ";" then return
      else if t.token = .mark "," then declarators source scene q rounds ty
      else failAt t

/-! ## Blocks -/

def addMembers (v : Variable) (ty : Ty) : Reading Unit := do
  let rs ← records
  let space? := v.operand.ty?.bind Ty.space?
  match ty with
  | .record place =>
    (((rs[place]?).map Record.members).getD []).forM fun m => do
      let isOpen := match m.ty with
        | .array _ none _ => true
        | _ => false
      let pointer := match space? with
        | some s => .pointer m.ty s
        | none => m.ty
      let operand : Operand := { number := ← nextGlobal, ty? := some pointer }
      declareGlobal m.name
        { operand, isLoaded := !isOpen, isWritable := true, binding? := v.binding? }
  | _ => pure ()

/-- Reads a block of variables after its name. Its members are variables, and with a name of its
own the block is one as well. -/
def block (source : Nat) (q : Qualifiers) (site : Site) (name : String) : Reading Unit := do
  let (rule, q) := q.takeRule
  let row ← memberList source rule source {}
  expectMark "\x7d"
  let record ← enterRecord (row.close name)
  noteType none record
  let t ← next
  let (name?, ty, site) ← if t.token = .mark ";" then pure (none, record, site) else
    match name? t with
    | none => failAt t
    | some w =>
      let (ty, site) ← arraySizes source site record
      expectMark ";"
      pure (some w, ty, site)
  let v ← addGlobal q (Site.join site (some t.line)) name? ty none
  addMembers v record

/-! ## Heads of functions -/

structure Declared where
  name? : Option (String × Site)
  parameter : Parameter
  isConst : Bool

structure Head where
  name : String
  site : Site
  parameters : List Declared
  result? : Option Ty

def Head.signature (h : Head) : Signature := h.parameters.map Declared.parameter

/-- The words before a parameter: how it carries values, and whether it is a constant. -/
def passingWords : List (String × Passing × Bool) :=
  [("in", .into, false), ("out", .outOf, false), ("inout", .both, false), ("const", .into, true)]

def parameterList (source : Nat) : (rounds : Nat) → Reading (List Declared)
  | 0 => throw none
  | rounds + 1 => do
    let word? := match (← peek?).map Located.token with
      | some (.word w) => passingWords.lookup w
      | _ => none
    if word?.isNone ∧ !(← seesType) then return []
    if word?.isSome then skip
    let (passing, isConst) := word?.getD (.into, false)
    let (ty, _) ← valueType source
    let t ← peek
    if t.token = .mark "," then
      skip
      return ⟨none, ⟨ty, passing⟩, isConst⟩ :: (← parameterList source rounds)
    match name? t with
    | none => return [⟨none, ⟨ty, passing⟩, isConst⟩]
    | some w =>
      skip
      let (ty, _) ← arraySizes source none ty
      let p : Declared := ⟨some (w, some t.line), ⟨ty, passing⟩, isConst⟩
      if ← accept (.mark ",") then return p :: (← parameterList source rounds) else return [p]

/-- Makes a parameter known in the body of its function. One that is written is a pointer; one that
can be changed otherwise is copied to a variable. -/
def addParameter (d : Declared) : Reading Unit := do
  let rs ← records
  let ty := d.parameter.ty
  let writes := d.parameter.passing.writes
  let site := d.name?.bind Prod.snd
  unless rs.isMade ty || (ty.isOpaque && !writes) do refuse site
  let argument ←
    push site (some (if writes then .pointer ty .call else ty)) true true none .plain
  let writable := !d.isConst && !ty.isOpaque
  match d.name? with
  | none => pure ()
  | some (name, site) =>
    if writable && !writes then
      let holder ← makeLocal site ty
      flush
      addStore holder argument
      declareLocal name { operand := holder, isLoaded := true, isWritable := true }
    else
      declareLocal name { operand := argument, isLoaded := writes, isWritable := writable }

/-! ## Functions -/

def declaredOverloads (name : String) : Reading (List Overload) :=
  return ((← get).overloads.lookup name).getD []

def setOverloads (name : String) (os : List Overload) : Reading Unit :=
  modify fun s => { s with overloads := (name, os) :: s.overloads.filter fun e => e.1 ≠ name }

/-- Enters a function; gives its place. -/
def addRoutine (r : Routine) : Reading Nat := do
  let place := (← get).routines.length
  modify fun s => { s with routines := s.routines ++ [r] }
  return place

def takesSame (rs : Records) (s t : Signature) : Bool :=
  s.length = t.length && (s.zip t).all fun (p, q) => rs.same p.ty q.ty

def isBuiltin (h : Head) : Bool :=
  let tys := h.signature.map Parameter.ty
  (Builtin.all h.name (isWide tys)).any fun b => b.parameters = tys

/-- Enters a function that is declared without a body, which can be done once. -/
def addPrototype (h : Head) : Reading Unit := do
  let rs ← records
  let os ← declaredOverloads h.name
  if isBuiltin h || os.any fun o => takesSame rs o.signature h.signature then throw h.site
  let place ← addRoutine { site := h.site, isInvalid := !h.result?.all rs.isMade }
  setOverloads h.name
    (os ++ [{ signature := h.signature, result? := h.result?, isVoid := h.result?.isNone
              meaning := .routine place }])

/-- Enters a function whose body has been read. One that was declared before keeps its place; one
that has a body already cannot have another. In the place of a function of the language it has to
give a value. -/
def addFunction (h : Head) (r : Routine) : Reading Unit := do
  let rs ← records
  let os ← declaredOverloads h.name
  let o : Overload :=
    { signature := h.signature, result? := h.result?, isVoid := h.result?.isNone && !isBuiltin h
      meaning := .routine 0, isDefined := true }
  match os.findIdx? fun o => takesSame rs o.signature h.signature with
  | none =>
    let place ← addRoutine r
    setOverloads h.name (os ++ [{ o with meaning := .routine place }])
  | some i =>
    match os[i]? with
    | some old =>
      if old.isDefined then throw h.site
      match old.meaning with
      | .routine place =>
        modify fun s =>
          { s with routines := s.routines.modify place fun was => { r with site := was.site } }
      | .builtin _ => pure ()
      setOverloads h.name (os.set i { o with meaning := old.meaning, isVoid := old.isVoid })
    | none => pure ()

/-- What is kept of a function whose body has been read. -/
def closeFrame (rs : Records) (h : Head) (f : Frame) : Routine :=
  let body := f.body.reverse
  let flows := Stmt.areValid rs h.result? { giveBack := true } body
    && (h.result?.isNone || !Stmt.areOpen body)
  let made := f.untyped?.isNone && f.invalid?.isNone && Stmt.allCalls body = f.valueCalls
  { site := h.site
    isInvalid := !(flows && made && h.result?.all rs.isMade)
    bindings := f.bindings
    calls := f.calls }

/-! ## Declarations -/

/-- Reads a statement on how exact numbers are, which has no effect. -/
def precision (source : Nat) : Reading Unit := do
  let t ← next
  unless precisionWords.any fun w => t.token = .word w do failAt t
  let (ty, site) ← valueType source
  unless ty = .float || ty = .scalar .int || ty = .scalar .double do throw site
  expectMark ";"

/-- Reads what follows qualifiers where no type does. -/
def unnamed (source : Nat) (q : Qualifiers) : Reading Unit := do
  let t ← next
  if t.token = .mark ";" then
    let whole := ["local_size_x", "local_size_y", "local_size_z", "early_fragment_tests"]
    checkUsed { q with keys := q.keys.filter fun k => k.name ∉ whole } false false
  else match name? t with
    | none => failAt t
    | some name =>
      if ← accept (.mark "\x7b") then block source q (some t.line) name
      else if q.invariant?.isSome then
        discard (meaning? (some t.line) name)
        checkUsed { q with invariant? := none } false false
        expectMark ";"
      else failAt t

/-- Reads the head of a function after its name; a semicolon or an opening brace follows. -/
def head (source : Nat) (name : String) (site : Site) (result? : Option Ty) : Reading Head := do
  let parameters ←
    if ← accept (.word "void") then pure [] else parameterList source source
  let t ← expect (.mark ")")
  return { name, site := Site.join site (some t.line), parameters, result? }

/-- Reads a declaration, if one stands here; tells whether one does. A function can have a body
outside of functions, which `body` reads. -/
def declaration? (source : Nat) (scene : Scene) (body : Head → Reading Unit) : Reading Bool := do
  if !(← seesQualifier) ∧ !(← seesType) then
    if !(← sees (.word "precision")) then return false
    skip
    precision source
    return true
  let q ← qualifiers source source {}
  if !(← seesType) then
    unnamed source q
    return true
  let (ty?, site) ← declaredType source source
  let t ← next
  match name? t, ← (if (name? t).isSome then meets (.mark "(") else pure false) with
  | some name, true =>
    skip
    let h ← head source name site ty?
    let t ← next
    if t.token = .mark ";" then addPrototype h
    else if t.token = .mark "\x7b" ∧ scene = .outside then body h
    else failAt t
    return true
  | _, _ =>
    match ty? with
    | none => throw site
    | some ty =>
      putBack t
      discard (accept (.mark ","))
      declarators source scene q source ty
      return true

end Segue.Glsl.Reading
