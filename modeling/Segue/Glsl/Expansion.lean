import Segue.Glsl.Token

/-!
# Expansion

Directives define names, and keep or drop rows by conditions. A name that is defined stands for the
tokens of its definition, which keep their lines. What remains after expansion are the tokens of
the program; a directive that cannot be followed leaves a token that none can read.
-/

namespace Segue.Glsl

/-- What a name stands for. With parameters the name only counts where arguments follow it. -/
structure Definition where
  parameters? : Option (List String)
  body : List Located
  deriving DecidableEq, Repr

def Definition.same (d e : Definition) : Bool :=
  d.parameters? = e.parameters? && d.body.map Located.token = e.body.map Located.token

abbrev Definitions := List (String × Definition)

/-! ## Using definitions -/

/-- The arguments after an opening parenthesis, and the tokens after the closing one. `depth`
counts the parentheses that are open within an argument. -/
def arguments? : (depth : Nat) → List Located → Option (List (List Located) × List Located)
  | _, [] => none
  | depth, t :: ts =>
    let onto := fun (r : List (List Located) × List Located) =>
      match r.1 with
      | a :: as => ((t :: a) :: as, r.2)
      | [] => ([[t]], r.2)
    if t.token = .mark ")" then
      if depth = 0 then some ([[]], ts) else (arguments? (depth - 1) ts).map onto
    else if t.token = .mark "(" then (arguments? (depth + 1) ts).map onto
    else if t.token = .mark "," ∧ depth = 0 then
      (arguments? 0 ts).map fun (as, rest) => ([] :: as, rest)
    else (arguments? depth ts).map onto

/-- The body of a definition with the arguments in place of the parameters. -/
def substitute (bound : List (String × List Located)) (body : List Located) : List Located :=
  body.flatMap fun t =>
    match t.token with
    | .word w => (bound.lookup w).getD [t]
    | _ => [t]

/-- Arguments fit parameters if there are as many; nothing between the parentheses is no argument
where none is expected. -/
def bindArguments? (parameters : List String) (as : List (List Located)) :
    Option (List (String × List Located)) :=
  if parameters.length = as.length then some (parameters.zip as)
  else if parameters.isEmpty ∧ as = [[]] then some []
  else none

/-- Replaces the defined names, also in what they stand for; a name is not replaced within its own
replacement (`hidden`). `rounds` bounds the nesting. -/
def expand (defs : Definitions) :
    (rounds : Nat) → (hidden : List String) → List Located → List Located
  | 0, _, ts => ts
  | _ + 1, _, [] => []
  | rounds + 1, hidden, t :: ts =>
    let kept := fun (_ : Unit) => t :: expand defs rounds hidden ts
    match t.token with
    | .word w =>
      if hidden.contains w then kept ()
      else match defs.lookup w, ts with
        | some ⟨none, body⟩, _ =>
          expand defs rounds (w :: hidden) (substitute [] body)
            ++ expand defs rounds hidden ts
        | some ⟨some ps, body⟩, ⟨.mark "(", _, _⟩ :: inner =>
          match arguments? 0 inner with
          | none => [⟨.broken, t.line, false⟩]
          | some (as, rest) =>
            match bindArguments? ps (as.map (expand defs rounds hidden)) with
            | some bound =>
              expand defs rounds (w :: hidden) (substitute bound body)
                ++ expand defs rounds hidden rest
            | none => ⟨.broken, t.line, false⟩ :: expand defs rounds hidden rest
        | _, _ => kept ()
    | _ => kept ()

def Definitions.expandAll (defs : Definitions) (ts : List Located) : List Located :=
  let bodies := defs.foldl (fun n d => n + d.2.body.length) 0
  expand defs ((ts.length + bodies + 1) * (defs.length + 2)) [] ts

/-! ## Conditions -/

/-- Writes 1 or 0 in the place of each question whether a name is defined. -/
def answerDefined (defs : Definitions) : List Located → List Located
  | ⟨.word "defined", n, _⟩ :: ⟨.mark "(", _, _⟩ :: ⟨.word w, _, _⟩ :: ⟨.mark ")", _, _⟩ :: ts =>
    ⟨.integer (if (defs.lookup w).isSome then 1 else 0) false, n, false⟩ :: answerDefined defs ts
  | ⟨.word "defined", n, _⟩ :: ⟨.word w, _, _⟩ :: ts =>
    ⟨.integer (if (defs.lookup w).isSome then 1 else 0) false, n, false⟩ :: answerDefined defs ts
  | t :: ts => t :: answerDefined defs ts
  | [] => []

mutual

/-- The value of the operand at the start. A name that is not defined counts as 0. -/
def operandValue? : (rounds : Nat) → List Token → Option (Int × List Token)
  | 0, _ => none
  | rounds + 1, ts =>
    match ts with
    | .integer n _ :: rest => some (n, rest)
    | .word _ :: rest => some (0, rest)
    | .mark "(" :: rest => do
      let (a, rest) ← operandValue? rounds rest
      let (v, rest) ← operationValue? rounds 0 a rest
      match rest with
      | .mark ")" :: rest => some (v, rest)
      | _ => none
    | .mark "!" :: rest => (operandValue? rounds rest).map fun (v, r) => (if v = 0 then 1 else 0, r)
    | .mark "-" :: rest => (operandValue? rounds rest).map fun (v, r) => (-v, r)
    | .mark "+" :: rest => operandValue? rounds rest
    | _ => none

/-- The value of `a` with the operators after it that bind more strongly than `floor`. -/
def operationValue? : (rounds : Nat) → (floor : Nat) → (a : Int) → List Token →
    Option (Int × List Token)
  | 0, _, _, _ => none
  | rounds + 1, floor, a, ts =>
    match ts with
    | .mark m :: rest =>
      match Operator.ofMark? m with
      | some op =>
        if floor < op.strength then do
          let (b, rest) ← operandValue? rounds rest
          let (b, rest) ← operationValue? rounds op.strength b rest
          let v ← op.evaluate? a b
          operationValue? rounds floor v rest
        else some (a, ts)
      | none => some (a, ts)
    | _ => some (a, ts)

end

/-- Whether a condition holds; none if it is none. -/
def holds? (defs : Definitions) (ts : List Located) : Option Bool := do
  let ts := (defs.expandAll (answerDefined defs ts)).map Located.token
  let (a, rest) ← operandValue? (ts.length + 1) ts
  match ← operationValue? (2 * ts.length + 1) 0 a rest with
  | (v, []) => some (v != 0)
  | _ => none

/-! ## Directives -/

/-- A conditional that is open: the line on which it begins, whether its present rows are kept,
whether rows of it may still be kept, and whether its last branch has begun. -/
structure Branch where
  line : Nat
  live : Bool
  mayFollow : Bool
  isLast : Bool

/-- The rows since the last directive are not expanded yet; rows and results are held backwards. -/
structure Expander where
  /-- Whether the version of the language has been told, which can be done once. -/
  versioned : Bool := false
  defs : Definitions := []
  branches : List Branch := []
  pending : List (List Located) := []
  done : List (List Located) := []

namespace Expander

def live (x : Expander) : Bool := x.branches.all Branch.live

def flush (x : Expander) : Expander :=
  { x with pending := [], done := x.defs.expandAll x.pending.reverse.flatten :: x.done }

def refuse (x : Expander) (line : Nat) (token : Token := .broken) : Expander :=
  let x := x.flush
  { x with done := [⟨token, line, false⟩] :: x.done }

def parameters? : List Located → Option (List String × List Located)
  | ⟨.mark ")", _, _⟩ :: rest => some ([], rest)
  | ⟨.word w, _, _⟩ :: ⟨.mark ")", _, _⟩ :: rest => some ([w], rest)
  | ⟨.word w, _, _⟩ :: ⟨.mark ",", _, _⟩ :: rest =>
    (parameters? rest).map fun (ws, rest) => (w :: ws, rest)
  | _ => none

def define (x : Expander) (name : String) (d : Definition) : Expander :=
  let x := x.flush
  { x with defs := (name, d) :: x.defs.filter fun e => e.1 != name }

/-- A definition; a name cannot be given a second meaning, nor stand for a mark of directives. -/
def defineOnce (x : Expander) (line : Nat) (name : String) (d : Definition) : Expander :=
  match d.body.find? fun t => t.token = .stray || t.token = .mark "#" with
  | some t => x.refuse line (if t.token = .stray then .stray else .broken)
  | none =>
    match x.defs.lookup name with
    | some old => if old.same d then x else x.refuse line
    | none => x.define name d

def enter (x : Expander) (line : Nat) (condition : Bool) : Expander :=
  { x with branches := ⟨line, condition, !condition, false⟩ :: x.branches }

def follow (x : Expander) (line : Nat) (name : String) (rest : List Located) : Expander :=
  match name, rest, x.branches with
  | "ifdef", ⟨.word w, _, _⟩ :: _, _ => x.enter line (x.defs.lookup w).isSome
  | "ifndef", ⟨.word w, _, _⟩ :: _, _ => x.enter line (x.defs.lookup w).isNone
  | "if", _, bs =>
    if !x.live then { x with branches := ⟨line, false, false, false⟩ :: bs }
    else match holds? x.defs rest with
      | some c => x.enter line c
      | none => (x.refuse line).enter line false
  | "else", _, ⟨n, _, mayFollow, false⟩ :: bs =>
    { x with branches := ⟨n, mayFollow, false, true⟩ :: bs }
  | "elif", _, ⟨n, _, mayFollow, false⟩ :: bs =>
    let condition := (holds? x.defs rest).getD false
    { x with branches := ⟨n, mayFollow && condition, mayFollow && !condition, false⟩ :: bs }
  | "endif", _, _ :: bs => { x with branches := bs }
  | _, _, _ =>
    if !x.live then x
    else match name, rest with
      | "define", ⟨.word w, _, _⟩ :: ⟨.mark "(", _, true⟩ :: ts =>
        match parameters? ts with
        | some (ps, body) => x.defineOnce line w ⟨some ps, body⟩
        | none => x.refuse line
      | "define", ⟨.word w, _, _⟩ :: body => x.defineOnce line w ⟨none, body⟩
      | "undef", ⟨.word w, _, _⟩ :: _ =>
        let x := x.flush
        { x with defs := x.defs.filter fun e => e.1 != w }
      | "version", _ =>
        if x.versioned then x.refuse line else { x with versioned := true }
      | "extension", [⟨.word _, _, _⟩, ⟨.mark ":", _, _⟩, ⟨.word _, _, _⟩] => x
      | "pragma", _ | "line", _ => x
      | _, _ => x.refuse line

/-- A mark of directives that does not begin its row cannot be followed. -/
def plain (t : Located) : Located := if t.token = .mark "#" then { t with token := .broken } else t

def row (x : Expander) (ts : List Located) : Expander :=
  match ts with
  | [⟨.mark "#", _, _⟩] => x
  | ⟨.mark "#", line, _⟩ :: ⟨.word name, _, _⟩ :: rest => x.follow line name rest
  | ⟨.mark "#", line, _⟩ :: _ => if x.live then x.refuse line else x
  | _ => if x.live ∧ ts ≠ [] then { x with pending := ts.map plain :: x.pending } else x

/-- The tokens of the program; a conditional that stays open is a fault at its end. -/
def finish (x : Expander) : List Located :=
  let x := match x.branches with
    | [] => x.flush
    | b :: _ => x.refuse b.line
  x.done.reverse.flatten

end Expander

def program (text : List Char) : List Located :=
  ((rows text).foldl Expander.row {}).finish

end Segue.Glsl
