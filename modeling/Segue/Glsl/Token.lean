import Segue.Text.Blank
import Segue.Text.Name

/-!
# Tokens of the shading language

A text is cut into rows. A row is a line together with the lines that it continues over, without
its comments. Every character keeps the number of its line, and a token has that of its first
character.
-/

namespace Segue.Glsl

inductive Token where
  | word (text : String)
  | integer (value : Nat) (unsigned : Bool)
  /-- the number `digits · 10^scale` -/
  | decimal (digits : Nat) (scale : Int)
  | mark (text : String)
  /-- a character with which no token starts, or a number that is none; it has no place -/
  | stray
  /-- a directive that cannot be followed -/
  | broken
  deriving DecidableEq, Repr

/-- Where something stands: on a line, or nowhere. -/
abbrev Site := Option Nat

/-- The site of two things together is that of the one that stands first. -/
def Site.join (a b : Site) : Site :=
  match a, b with
  | some m, some n => some (min m n)
  | some m, none => some m
  | none, b => b

/-- A token, the line on which it starts, and whether it touches the token before it. -/
structure Located where
  token : Token
  line : Nat
  touching : Bool := false
  deriving DecidableEq, Repr

/-! ### Rows -/

/-- The characters with the numbers of their lines; lines count from `line`. -/
def number (line : Nat) : List Char → List (Char × Nat)
  | [] => []
  | c :: cs => (c, line) :: number (if c = '\n' then line + 1 else line) cs

/-- Joins each line that ends with a backslash to the next. -/
def joinContinued : List (Char × Nat) → List (Char × Nat)
  | ('\\', _) :: ('\n', _) :: cs => joinContinued cs
  | c :: cs => c :: joinContinued cs
  | [] => []

inductive Reach where
  | code
  | lineComment
  | blockComment
  deriving DecidableEq, Repr

/-- Puts a blank in the place of every comment. With a comment that does not end the text ends. -/
def dropComments : Reach → List (Char × Nat) → List (Char × Nat)
  | .code, ('/', n) :: ('/', _) :: cs => (' ', n) :: dropComments .lineComment cs
  | .code, ('/', n) :: ('*', _) :: cs => (' ', n) :: dropComments .blockComment cs
  | .code, c :: cs => c :: dropComments .code cs
  | .lineComment, ('\n', n) :: cs => ('\n', n) :: dropComments .code cs
  | .lineComment, _ :: cs => dropComments .lineComment cs
  | .blockComment, ('*', _) :: ('/', _) :: cs => dropComments .code cs
  | .blockComment, _ :: cs => dropComments .blockComment cs
  | _, [] => []

def splitRows : List (Char × Nat) → List (List (Char × Nat))
  | [] => [[]]
  | (c, n) :: cs =>
    if c = '\n' then [] :: splitRows cs
    else match splitRows cs with
      | [] => [[(c, n)]]
      | r :: rs => ((c, n) :: r) :: rs

/-! ### Tokens of a row -/

/-- The operators of more than one character; of two that fit the first is the longer. -/
def longMarks : List String :=
  ["<<=", ">>=", "++", "--", "<=", ">=", "==", "!=", "&&", "||", "^^", "<<", ">>", "+=", "-=",
   "*=", "/=", "%=", "&=", "|=", "^="]

def shortMarks : List Char := "()[]\x7b\x7d.,:=;!-~+*/%<>|^&?#".toList

/-- The operator or bracket with which a text starts, and the rest. -/
def mark? (cs : List Char) : Option (String × List Char) :=
  (longMarks.findSome? fun m => (Text.dropStart? m.toList cs).map fun rest => (m, rest)) <|>
  match cs with
  | c :: rest => if shortMarks.contains c then some (String.ofList [c], rest) else none
  | [] => none

def digitValue (c : Char) : Nat :=
  if c.isDigit then c.toNat - '0'.toNat
  else c.toLower.toNat - 'a'.toNat + 10

def readNat (base : Nat) (digits : List Char) : Nat :=
  digits.foldl (fun n c => n * base + digitValue c) 0

/-- The whole number of the given digits, and the rest after its suffix. There have to be digits,
all of the base; the number has at most 64 bits, and is one of 32 bits, so that a suffix can only
take its sign. -/
def wholeToken (base : Nat) (digits rest : List Char) : Token × List Char :=
  let (unsigned, rest) := match rest with
    | 'u' :: rest | 'U' :: rest => (true, rest)
    | _ => (false, rest)
  match rest with
  | 's' :: rest | 'S' :: rest | 'l' :: rest | 'L' :: rest => (.stray, rest)
  | _ =>
    let n := readNat base digits
    let fits := !digits.isEmpty && (digits.all fun c => digitValue c < base) && n < Nat.pow 2 64
    (if fits then .integer n unsigned else .stray, rest)

def exponent? (cs : List Char) : Option (Int × List Char) :=
  match cs with
  | e :: rest =>
    if e = 'e' ∨ e = 'E' then
      let (negative, digits) := match rest with
        | '+' :: ds => (false, ds)
        | '-' :: ds => (true, ds)
        | ds => (false, ds)
      if (digits.head?.map Char.isDigit).getD false then
        let n : Int := readNat 10 (digits.takeWhile Char.isDigit)
        some (if negative then -n else n, digits.dropWhile Char.isDigit)
      else none
    else none
  | [] => none

/-- The fraction with the given digits before and after its point, and the rest after its exponent
and its suffix. It is one of 32 bits; suffixes that ask for other widths are not known. -/
def fractionToken (whole fraction rest : List Char) : Token × List Char :=
  let (e, rest) := (exponent? rest).getD (0, rest)
  let t := Token.decimal (readNat 10 (whole ++ fraction)) (e - fraction.length)
  match rest with
  | 'f' :: rest | 'F' :: rest => (t, rest)
  | 'l' :: 'f' :: rest | 'L' :: 'F' :: rest | 'h' :: 'f' :: rest | 'H' :: 'F' :: rest =>
    (.stray, rest)
  | _ => (t, rest)

def numberToken (cs : List Char) : Token × List Char :=
  match cs with
  | '0' :: 'x' :: rest | '0' :: 'X' :: rest =>
    let hex := fun c : Char => c.isDigit || ('a' ≤ c.toLower && c.toLower ≤ 'f')
    wholeToken 16 (rest.takeWhile hex) (rest.dropWhile hex)
  | _ =>
    let whole := cs.takeWhile Char.isDigit
    let rest := cs.dropWhile Char.isDigit
    match rest with
    | '.' :: fraction =>
      fractionToken whole (fraction.takeWhile Char.isDigit) (fraction.dropWhile Char.isDigit)
    | 'f' :: _ | 'F' :: _ => fractionToken whole [] rest
    | _ =>
      if (exponent? rest).isSome then fractionToken whole [] rest
      else wholeToken (if whole.head? = some '0' then 8 else 10) whole rest

def token (cs : List Char) : Token × List Char :=
  match cs with
  | [] => (.stray, [])
  | c :: rest =>
    let startsNumber := c.isDigit || (c == '.' && (rest.head?.map Char.isDigit).getD false)
    if Text.startsName c then
      (.word (String.ofList (cs.takeWhile Text.continuesName)), cs.dropWhile Text.continuesName)
    else if startsNumber then numberToken cs
    else match mark? cs with
      | some (m, rest) => (.mark m, rest)
      | none => (.stray, rest)

/-- The tokens of a row. Every round takes at least one character, so that `rounds` may be the
length of the row. -/
def rowTokens : (rounds : Nat) → (touching : Bool) → List (Char × Nat) → List Located
  | 0, _, _ => []
  | _ + 1, _, [] => []
  | rounds + 1, touching, (c, n) :: cs =>
    if Text.isBlank c then rowTokens rounds false cs
    else
      let text := c :: cs.map Prod.fst
      let (t, rest) := token text
      ⟨t, n, touching⟩ :: rowTokens rounds true (cs.drop (text.length - rest.length - 1))

def rows (text : List Char) : List (List Located) :=
  (splitRows (dropComments .code (joinContinued (number 1 text)))).map fun r =>
    rowTokens r.length false r

/-!
## Operators

The operators that stand between two operands, how strongly they bind, and the assignments made of
them.
-/

/-- What an operator does with its operands; operators of one kind take the same operands. -/
inductive Operator where
  | logicalOr
  | logicalXor
  | logicalAnd
  | bitOr
  | bitXor
  | bitAnd
  | equal
  | notEqual
  | less
  | lessEqual
  | greater
  | greaterEqual
  | shiftLeft
  | shiftRight
  | add
  | subtract
  | multiply
  | divide
  | modulo
  deriving DecidableEq, Repr

namespace Operator

def all : List (String × Operator) :=
  [("||", logicalOr), ("^^", logicalXor), ("&&", logicalAnd), ("|", bitOr), ("^", bitXor),
   ("&", bitAnd), ("==", equal), ("!=", notEqual), ("<", less), ("<=", lessEqual), (">", greater),
   (">=", greaterEqual), ("<<", shiftLeft), (">>", shiftRight), ("+", add), ("-", subtract),
   ("*", multiply), ("/", divide), ("%", modulo)]

def ofMark? (m : String) : Option Operator := all.lookup m

/-- The operators that an assignment may carry before its equals sign. -/
def ofAssignment? (m : String) : Option Operator :=
  ["|", "^", "&", "<<", ">>", "+", "-", "*", "/", "%"].findSome? fun o =>
    if o ++ "=" = m then ofMark? o else none

/-- Of two operators the one of greater strength takes the operand between them; of two alike the
first takes it. -/
def strength : Operator → Nat
  | logicalOr => 1
  | logicalXor => 2
  | logicalAnd => 3
  | bitOr => 4
  | bitXor => 5
  | bitAnd => 6
  | equal | notEqual => 7
  | less | lessEqual | greater | greaterEqual => 8
  | shiftLeft | shiftRight => 9
  | add | subtract => 10
  | multiply | divide | modulo => 11

/-- The value of an operator on whole numbers, where truth is 1; none for a division by zero. -/
def evaluate? (op : Operator) (a b : Int) : Option Int :=
  let truth := fun (p : Bool) => some (if p then 1 else 0)
  match op with
  | logicalOr => truth (a != 0 || b != 0)
  | logicalXor => truth ((a != 0) != (b != 0))
  | logicalAnd => truth (a != 0 && b != 0)
  | bitOr => some ((Int64.ofInt a ||| Int64.ofInt b).toInt)
  | bitXor => some ((Int64.ofInt a ^^^ Int64.ofInt b).toInt)
  | bitAnd => some ((Int64.ofInt a &&& Int64.ofInt b).toInt)
  | equal => truth (a == b)
  | notEqual => truth (a != b)
  | less => truth (a < b)
  | lessEqual => truth (a ≤ b)
  | greater => truth (b < a)
  | greaterEqual => truth (b ≤ a)
  | shiftLeft => if 0 ≤ b ∧ b < 32 then some (a * Nat.pow 2 b.toNat) else none
  | shiftRight => if 0 ≤ b ∧ b < 32 then some (a / Nat.pow 2 b.toNat) else none
  | add => some (a + b)
  | subtract => some (a - b)
  | multiply => some (a * b)
  | divide => if b = 0 then none else some (Int.tdiv a b)
  | modulo => if b = 0 then none else some (Int.tmod a b)

end Operator

end Segue.Glsl
