import Segue.Glsl.Ty

/-!
# Signatures

A function may have several signatures. A call is for the one whose parameters its arguments fit
without a conversion; if there is none, the signatures are weighed one after the other, and the one
with the better conversions is kept.
-/

namespace Segue.Glsl

inductive Passing where
  | into
  | outOf
  | both
  deriving DecidableEq, Repr

def Passing.writes : Passing → Bool
  | .into => false
  | .outOf | .both => true

structure Parameter where
  ty : Ty
  passing : Passing := .into
  deriving DecidableEq, Repr

abbrev Signature := List Parameter

inductive Conversion where
  | unknown
  | exact
  | floatToDouble
  | wholeToFloat
  | wholeToDouble
  | other
  deriving DecidableEq, Repr

namespace Conversion

/-- The conversion of a kind to another of no less power; truth values have the least. -/
def ofKinds? (target source : Kind) : Option Conversion :=
  let powers := match target.power?, source.power? with
    | some p, some q => q ≤ p
    | _, none => true
    | none, some _ => false
  if !powers then none
  else match target, source with
    | .double, .float => some floatToDouble
    | .float, .int | .float, .uint => some wholeToFloat
    | .double, .int | .double, .uint => some wholeToDouble
    | _, _ => some other

def ofTypes? (target source : Ty) : Option Conversion :=
  match target.kind?, source.kind? with
  | some k, some j => if source.withKind? k = some target then ofKinds? k j else none
  | _, _ => none

/-- Whether a conversion is better than one before it, if one of the two is. -/
def isBetter? (new old : Conversion) : Option Bool :=
  match new, old with
  | _, exact => some false
  | _, unknown => some true
  | floatToDouble, _ => some true
  | _, floatToDouble => some false
  | wholeToFloat, wholeToDouble => some true
  | wholeToDouble, wholeToFloat => some false
  | _, _ => none

/-- The conversion for an argument. What is carried out of the call is converted the other way, and
what is carried both ways has to fit. -/
def ofArgument? (rs : Records) (p : Parameter) (argument : Ty) : Option Conversion :=
  if rs.same p.ty argument then some exact
  else match p.passing with
    | .into => ofTypes? p.ty argument
    | .outOf => ofTypes? argument p.ty
    | .both => none

end Conversion

namespace Signature

/-- The conversions for all arguments, if there are as many as parameters and each has one. -/
def conversions? (rs : Records) (s : Signature) (arguments : List Ty) : Option (List Conversion) :=
  if s.length = arguments.length then
    (s.zip arguments).mapM fun (p, a) => Conversion.ofArgument? rs p a
  else none

/-- How the conversions of a signature compare with those of the best one before it. Conversions
that are no better are not remembered. -/
structure Weighing where
  better? : Option Bool := none
  mixed : Bool := false
  kept : List Conversion := []

def Weighing.add (w : Weighing) (new old : Conversion) : Weighing :=
  if new = .exact then { w with kept := w.kept ++ [.exact] }
  else match new.isBetter? old, w.better? with
    | none, _ => { w with kept := w.kept ++ [.unknown] }
    | some true, some false => { w with mixed := true, kept := w.kept ++ [.unknown] }
    | some true, _ => { w with better? := some true, kept := w.kept ++ [new] }
    | some false, some true => { w with mixed := true, kept := w.kept ++ [.unknown] }
    | some false, _ => { w with better? := some false, kept := w.kept ++ [.unknown] }

/-- The choice so far: the place of the best signature, and its conversions. -/
structure Choice where
  best? : Option Nat := none
  conversions : List Conversion
  ambiguous : Bool := false

def Choice.weigh (c : Choice) (place : Nat) (new : List Conversion) : Choice :=
  let w := (new.zip c.conversions).foldl (fun w (new, old) => w.add new old) ({} : Weighing)
  let c := { c with ambiguous := c.ambiguous || w.mixed }
  match w.better? with
  | some true => { c with best? := some place, conversions := w.kept }
  | some false => c
  | none => { c with best? := some place, ambiguous := true }

def choose? (rs : Records) (signatures : List Signature) (arguments : List Ty) : Option Nat :=
  let fitting := signatures.zipIdx.filterMap fun (s, i) =>
    (s.conversions? rs arguments).map fun cs => (i, cs)
  match fitting.find? fun (_, cs) => cs.all (· = .exact) with
  | some (i, _) => some i
  | none =>
    let start : Choice := { conversions := arguments.map fun _ => .unknown }
    let c := fitting.foldl (fun (c : Choice) (i, cs) => c.weigh i cs) start
    if c.ambiguous then none else c.best?

end Signature

end Segue.Glsl
