import Segue.Glsl.Ty

/-!
# Flow

The statements of a function, as far as it matters for whether the function is valid: jumps have to
stand where they can be made, nothing can stand after a jump, and a function that gives a value has
to end by giving one.
-/

namespace Segue.Glsl

inductive Stmt where
  | emit
  /-- a value is stored, which may be invalid -/
  | store (valid : Bool)
  | call (valid forValue : Bool)
  | branch (valid : Bool) (accept reject : List Stmt)
  /-- the cases in order, each with whether the next case follows on it -/
  | switch (valid : Bool) (cases : List (Bool × List Stmt))
  /-- a loop, with what is done after each round -/
  | loop (body continuing : List Stmt)
  | block (body : List Stmt)
  | leave
  | proceed
  | discard
  | giveBack (value? : Option Ty)

namespace Stmt

/-- Which jumps can be made. -/
structure Freedom where
  leave : Bool := false
  proceed : Bool := false
  giveBack : Bool := false
  deriving DecidableEq, Repr

namespace Freedom

def inLoop (f : Freedom) : Freedom := { f with leave := true, proceed := true }

def inSwitch (f : Freedom) : Freedom := { f with leave := true }

end Freedom

/-- Whether a statement is a jump, after which nothing can stand. -/
def isJump : Stmt → Bool
  | .leave | .proceed | .discard | .giveBack _ => true
  | .block b => endsInJump b
  | _ => false
where
  endsInJump : List Stmt → Bool
    | [] => false
    | s :: ss => s.isJump || endsInJump ss

mutual

def isValid (rs : Records) (result? : Option Ty) (f : Freedom) : Stmt → Bool
  | .emit => true
  | .store valid => valid
  | .call valid _ => valid
  | .branch valid a r => valid && areValid rs result? f a && areValid rs result? f r
  | .switch valid cs => valid && casesValid rs result? f.inSwitch cs
  | .loop b c => areValid rs result? f.inLoop b && areValid rs result? {} c
  | .block b => areValid rs result? f b
  | .leave => f.leave
  | .proceed => f.proceed
  | .discard => true
  | .giveBack value? =>
    f.giveBack &&
    match value?, result? with
    | some v, some r => rs.same r v
    | none, none => true
    | _, _ => false

def areValid (rs : Records) (result? : Option Ty) (f : Freedom) : List Stmt → Bool
  | [] => true
  | s :: ss => s.isValid rs result? f && !(s.isJump && !ss.isEmpty) && areValid rs result? f ss

def casesValid (rs : Records) (result? : Option Ty) (f : Freedom) :
    List (Bool × List Stmt) → Bool
  | [] => true
  | (_, b) :: cs => areValid rs result? f b && casesValid rs result? f cs

end

mutual

/-- Whether a function can end after a statement without giving a value back. What only makes
values at the end is not followed. -/
def isOpen : Stmt → Bool
  | .branch _ a r => areOpen a || areOpen r
  | .switch _ cs => casesOpen cs
  | .block b => areOpen b
  | .store _ | .call _ _ | .loop _ _ => true
  | .emit | .leave | .proceed | .discard | .giveBack _ => false

/-- Whether a function can end after statements without giving a value back. -/
def areOpen : List Stmt → Bool
  | [] => true
  | s :: ss => if ss.isEmpty then s.isOpen else areOpen ss

def casesOpen : List (Bool × List Stmt) → Bool
  | [] => false
  | (fallsThrough, b) :: cs => (!fallsThrough && areOpen b) || casesOpen cs

end

mutual

def calls : Stmt → Nat
  | .call _ forValue => forValue.toNat
  | .branch _ a r => allCalls a + allCalls r
  | .switch _ cs => caseCalls cs
  | .loop b c => allCalls b + allCalls c
  | .block b => allCalls b
  | _ => 0

def allCalls : List Stmt → Nat
  | [] => 0
  | s :: ss => s.calls + allCalls ss

def caseCalls : List (Bool × List Stmt) → Nat
  | [] => 0
  | (_, b) :: cs => allCalls b + caseCalls cs

end

end Stmt

end Segue.Glsl
