import Segue.Glsl.Expr.Parser

/-!
# Qualifiers

The words before the type of a declaration: where a variable is kept, how a block is laid out, and
to what a variable is bound. What a declaration has no use for is a fault.
-/

namespace Segue.Glsl

inductive Storage where
  | const
  | input
  | output
  | uniform
  | buffer
  | shared
  deriving DecidableEq, Repr

/-- A key of a layout, its value if it has one, and where it stands. -/
structure LayoutKey where
  name : String
  value? : Option Nat
  site : Site
  deriving DecidableEq, Repr

structure Qualifiers where
  storage? : Option (Storage × Site) := none
  invariant? : Option Site := none
  interpolation? : Option (String × Site) := none
  sampling? : Option Site := none
  precision? : Option Site := none
  memory : List (String × Site) := []
  keys : List LayoutKey := []

namespace Qualifiers

def isConst (q : Qualifiers) : Bool := (q.storage?.map Prod.fst) = some .const

def isPort (q : Qualifiers) : Bool :=
  match q.storage? with
  | some (.input, _) | some (.output, _) => true
  | _ => false

/-- The rule by which a block is laid out, and the other keys. -/
def takeRule (q : Qualifiers) : Rule × Qualifiers :=
  let isRule := fun (k : LayoutKey) => k.name = "std140" || k.name = "std430"
  let default : Rule := match q.storage? with
    | some (.buffer, _) => .tight
    | _ => .wide
  let rule := match (q.keys.filter isRule).getLast? with
    | some k => if k.name = "std430" then .tight else .wide
    | none => default
  (rule, { q with keys := q.keys.filter fun k => !isRule k })

/-- The key of a name, and the other keys; of several the last counts. -/
def take (q : Qualifiers) (name : String) : Option LayoutKey × Qualifiers :=
  ((q.keys.filter fun k => k.name = name).getLast?,
   { q with keys := q.keys.filter fun k => k.name ≠ name })

/-- Where the first qualifier stands that a declaration has no use for. -/
def unused? (q : Qualifiers) (varying buffer : Bool) : Option Site :=
  q.invariant? <|> (if varying then none else (q.interpolation?.map Prod.snd) <|> q.sampling?)
    <|> (if buffer then none else (q.memory.getLast?).map Prod.snd)
    <|> (q.keys.head?.map LayoutKey.site)

end Qualifiers

namespace Reading

def storageWords : List (String × Storage) :=
  [("const", .const), ("in", .input), ("out", .output), ("uniform", .uniform),
   ("buffer", .buffer), ("shared", .shared)]

def interpolationWords : List String := ["flat", "noperspective", "smooth"]

def samplingWords : List String := ["centroid", "sample"]

def precisionWords : List String := ["lowp", "mediump", "highp"]

def memoryWords : List String := ["readonly", "writeonly"]

def isQualifier (w : String) : Bool :=
  w = "layout" || w = "invariant" || w = "restrict" || (storageWords.lookup w).isSome
    || interpolationWords.contains w || samplingWords.contains w || precisionWords.contains w
    || memoryWords.contains w

def seesQualifier : Reading Bool := do
  match (← peek?).map Located.token with
  | some (.word w) => return isQualifier w
  | _ => return false

def layoutKey (rounds : Nat) : Reading LayoutKey := do
  let t ← next
  match name? t with
  | none => failAt t
  | some w =>
    let rule := w = "std140" || w = "std430"
    if !rule then
      if ← accept (.mark "=") then
        let (n, site) ← wholeConstant rounds
        return ⟨w, some n, Site.join (some t.line) site⟩
    return ⟨w, none, some t.line⟩

def layoutKeys (source : Nat) : (rounds : Nat) → Reading (List LayoutKey)
  | 0 => throw none
  | rounds + 1 => do
    let k ← layoutKey source
    if ← accept (.mark ",") then return k :: (← layoutKeys source rounds)
    expectMark ")"
    return [k]

/-- Adds a word to the qualifiers; of most kinds there can be only one. -/
def addQualifier (q : Qualifiers) (w : String) (t : Located) : Reading Qualifiers := do
  let site := some t.line
  match storageWords.lookup w with
  | some s => if q.storage?.isSome then failAt t else return { q with storage? := some (s, site) }
  | none =>
    if w = "invariant" then
      if q.invariant?.isSome then failAt t else return { q with invariant? := some site }
    else if interpolationWords.contains w then
      if q.interpolation?.isSome then failAt t
      else return { q with interpolation? := some (w, site) }
    else if samplingWords.contains w then
      if q.sampling?.isSome then failAt t else return { q with sampling? := some site }
    else if precisionWords.contains w then
      if q.precision?.isSome then failAt t else return { q with precision? := some site }
    else if memoryWords.contains w then
      if (q.memory.lookup w).isSome then failAt t
      else return { q with memory := (w, site) :: q.memory }
    else return q

def qualifiers (source : Nat) : (rounds : Nat) → Qualifiers → Reading Qualifiers
  | 0, _ => throw none
  | rounds + 1, q => do
    if !(← seesQualifier) then return q
    let t ← next
    match t.token with
    | .word "layout" =>
      expectMark "("
      let keys ← layoutKeys source source
      qualifiers source rounds { q with keys := q.keys ++ keys }
    | .word w => qualifiers source rounds (← addQualifier q w t)
    | _ => return q

/-- The whole number of a key, which has to have one if it is there. -/
def takeNumber (q : Qualifiers) (name : String) : Reading (Option Nat × Qualifiers) :=
  match q.take name with
  | (some k, q) =>
    match k.value? with
    | some n => return (some n, q)
    | none => throw k.site
  | (none, q) => return (none, q)

/-- Refuses a declaration that has qualifiers for which it has no use. -/
def checkUsed (q : Qualifiers) (varying buffer : Bool) : Reading Unit :=
  match q.unused? varying buffer with
  | some site => throw site
  | none => pure ()

end Reading

end Segue.Glsl
