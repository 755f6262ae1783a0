import Segue.Glsl.Value
import Segue.Glsl.Arithmetic

/-!
# Operands and expressions

What an expression has become once it is read: a numbered value of a function, with its type and,
if it is known before the program runs, what it is. Of some operands it is also kept how they came
about, because they can be assigned in a way of their own.
-/

namespace Segue.Glsl

/-- A value of a function; the numbers count in the order in which the values are made. -/
structure Atom where
  number : Nat
  ty? : Option Ty
  value? : Option Value := none

inductive Form where
  | plain
  | loaded (pointer : Atom)
  /-- components of a vector, which may have been loaded -/
  | picked (vector : Atom) (pointer? : Option Atom) (components : List Nat)

structure Operand extends Atom where
  form : Form := .plain

structure Binding where
  set : Nat
  binding : Nat
  /-- what the device has to hold there: a block of numbers, a picture or a sampler -/
  content : Ty
  space : Space
  site : Site
  place : Nat
  deriving DecidableEq, Repr

structure Variable where
  operand : Operand
  isLoaded : Bool
  isWritable : Bool
  isConstant : Bool := false
  binding? : Option Binding := none

/-!
## Expressions

Expressions as they are written, each with its site. Names of variables are already resolved;
functions are found only when types are known.
-/

inductive Callee where
  | type (ty : Ty)
  | function (name : String)

/-- Whether a variable is counted up or down by one, and whether its value is taken before. -/
structure Step where
  down : Bool
  after : Bool
  deriving DecidableEq, Repr

inductive Expr where
  | named (site : Site) (v : Variable)
  | literal (site : Site) (l : Literal)
  | call (site : Site) (callee : Callee) (arguments : List Expr)
  | method (site : Site) (base : Expr) (name : String) (arguments : List Expr)
  | index (site : Site) (base place : Expr)
  | field (site : Site) (base : Expr) (name : String)
  | sign (site : Site) (sign : Sign) (operand : Expr)
  | step (site : Site) (step : Step) (operand : Expr)
  | operation (site : Site) (op : Operator) (left right : Expr)
  | assign (site : Site) (target value : Expr)
  | conditional (site : Site) (condition accept reject : Expr)

def Expr.site : Expr → Site
  | .named s _ | .literal s _ | .call s _ _ | .method s _ _ _ | .index s _ _ | .field s _ _
  | .sign s _ _ | .step s _ _ | .operation s _ _ _ | .assign s _ _ | .conditional s _ _ _ => s

end Segue.Glsl
