import Segue.Text.Blank

/-!
# Paths

Paths are texts with names between slashes. They are shown as they were given.
-/

namespace Segue.Path

/-- A path below a directory; an absolute one stands for itself. -/
def join (base rest : String) : String :=
  if rest.startsWith "/" then rest
  else if base.isEmpty || base.endsWith "/" then base ++ rest
  else base ++ "/" ++ rest

def isAbsolute (p : String) : Bool := p.startsWith "/"

def pieces (p : String) : List String := (Text.splitChars (· = '/') p.toList).map String.ofList

/-- The names in a path. Empty ones and single dots do not count. -/
def components (p : String) : List String := (pieces p).filter fun c => c ≠ "" && c ≠ "."

/-- The last name, unless it leads upwards. -/
def fileName? (p : String) : Option String :=
  match (components p).getLast? with
  | some ".." => none
  | last => last

/-- The text after the last dot of the last name; a dot in front does not count. -/
def extension? (p : String) : Option String :=
  match fileName? p with
  | none => none
  | some name =>
    let cs := name.toList.reverse
    let ext := cs.takeWhile (· ≠ '.')
    match cs.drop ext.length with
    | [] => none
    | [_] => none
    | _ :: _ => some (String.ofList ext.reverse)

/-- Drops the pieces at the end that lead nowhere; the first piece stays. -/
def trimPieces (ps : List String) : List String :=
  let kept := (ps.tail.reverse.dropWhile fun p => p = "" || p = ".").reverse
  ps.take 1 ++ kept

/-- Everything before the last name, in the spelling of the path. -/
def parent? (p : String) : Option String :=
  match trimPieces (pieces p) with
  | [only] => if only = "" then none else some ""
  | ps =>
    match trimPieces ps.dropLast with
    | [""] => some "/"
    | front => some ("/".intercalate front)

/-- A path and everything before its last name, the name before that, and so on; `n` bounds their
number. -/
def ancestors : (n : Nat) → String → List String
  | 0, _ => []
  | n + 1, p =>
    if p.isEmpty then []
    else p :: match parent? p with
      | some q => ancestors n q
      | none => []

/-- A path without the dots in it: `..` takes away the name before it. -/
def normalize (names : List String) : List String :=
  names.foldl (fun acc n => if n = ".." then acc.dropLast else acc ++ [n]) []

end Segue.Path
