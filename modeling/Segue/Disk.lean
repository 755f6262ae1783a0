import Segue.Path
import Segue.Image
import Segue.Keyed

/-!
# Files

The commands read and write files through `FileSystem`. A `Disk` is a file system as a value: a tree
of directories, with a directory that relative paths start from.
-/

namespace Segue

/-- What a file holds. Images are known by what they show. -/
inductive Content where
  | bytes (b : ByteArray)
  | image (format : FrameFormat) (i : Image)

def Content.ofText (s : String) : Content := .bytes s.toUTF8

def Content.text? : Content → Option String
  | .bytes b => String.fromUTF8? b
  | .image _ _ => none

inductive EntryKind where
  | absent | file | directory
  deriving DecidableEq, Repr

/-- What the commands need of a file system. -/
class FileSystem (m : Type → Type) where
  kind : String → m EntryKind
  read? : String → m (Option Content)
  names? : String → m (Option (List String))
  /-- Makes a directory and those above it; says whether it is there afterwards. -/
  makeDirectory : String → m Bool
  /-- Writes a file into a directory that is there; says whether it was written. -/
  write : String → Content → m Bool

inductive Node where
  | file (c : Content)
  | dir (entries : List (String × Node))

structure Disk where
  root : List (String × Node)
  home : List String

namespace Disk

def find? : List String → Node → Option Node
  | [], n => some n
  | _ :: _, .file _ => none
  | k :: ks, .dir entries => Keyed.get? k entries >>= find? ks

/-- Puts a node at a path of names, and makes the directories on the way; `none` if a file is in the
way. -/
def put? (new : Node) : List String → Node → Option Node
  | [], _ => some new
  | _ :: _, .file _ => none
  | k :: ks, .dir entries => do
    let inner ← put? new ks ((Keyed.get? k entries).getD (.dir []))
    some (.dir (Keyed.insert k inner entries))

def tree (d : Disk) : Node := .dir d.root

/-- Why a path leads to no place. -/
inductive Obstacle where
  /-- A directory on the way is not there. -/
  | missing
  /-- There is a file on the way, or no file can have such a path. -/
  | barred
  deriving DecidableEq, Repr

/-- The greatest number of bytes in a name. -/
def maxName : Nat := 255

/-- The greatest number of bytes in a path. -/
def maxPath : Nat := 4095

/-- Goes on by one piece of a path, from a directory that must be there. -/
def step (d : Disk) (place : List String) (piece : String) : Except Obstacle (List String) :=
  match find? place d.tree with
  | none => .error .missing
  | some (.file _) => .error .barred
  | some (.dir _) =>
    if piece = "" || piece = "." then .ok place
    else if piece = ".." then .ok place.dropLast
    else if maxName < piece.utf8ByteSize then .error .barred
    else .ok (place ++ [piece])

/-- The names that lead to a path from the root, without dots. All directories on the way must be
there; what the path names need not be. -/
def locate (d : Disk) (p : String) : Except Obstacle (List String) :=
  if p.isEmpty then .error .missing
  else if maxPath < p.utf8ByteSize || p.toList.contains '\x00' then .error .barred
  else (Path.pieces p).foldlM d.step (if Path.isAbsolute p then [] else d.home)

def node? (d : Disk) (p : String) : Option Node :=
  match d.locate p with
  | .ok names => find? names d.tree
  | .error _ => none

def kind (d : Disk) (p : String) : EntryKind :=
  match d.node? p with
  | none => .absent
  | some (.file _) => .file
  | some (.dir _) => .directory

def read? (d : Disk) (p : String) : Option Content :=
  match d.node? p with
  | some (.file c) => some c
  | _ => none

def names? (d : Disk) (p : String) : Option (List String) :=
  match d.node? p with
  | some (.dir entries) => some (entries.map (·.1))
  | _ => none

def place? (d : Disk) (names : List String) (n : Node) : Option Disk :=
  match put? n names d.tree with
  | some (.dir root) => some { d with root }
  | _ => none

/-- Makes one directory, unless it is there. -/
def makeOne (d : Disk) (p : String) : Except Obstacle Disk := do
  let bare := String.ofList (p.toList.reverse.dropWhile (· = '/')).reverse
  let names ← d.locate (if bare.isEmpty then p else bare)
  match find? names d.tree, d.place? names (.dir []) with
  | some (.dir _), _ => .ok d
  | none, some made => .ok made
  | _, _ => .error .barred

/-- Makes the directories of a list, each below the one after it in the list, as far as they are
missing; says whether all are there afterwards. -/
def makeAll (d : Disk) : List String → Bool × Disk
  | [] => (true, d)
  | p :: above =>
    match d.makeOne p with
    | .ok made => (true, made)
    | .error .barred => (false, d)
    | .error .missing =>
      let (there, d) := d.makeAll above
      if !there then (false, d)
      else match d.makeOne p with
        | .ok made => (true, made)
        | .error _ => (false, d)

/-- Makes a directory and those above it that are missing. One that is barred keeps those from
being made that are below it, not those above. -/
def makeDirectory (d : Disk) (p : String) : Bool × Disk :=
  d.makeAll (Path.ancestors (p.length + 1) p)

def write? (d : Disk) (p : String) (c : Content) : Option Disk :=
  match d.locate p with
  | .error _ => none
  | .ok names =>
    match find? names d.tree with
    | some (.dir _) => none
    | _ => d.place? names (.file c)

mutual

def filesIn (at_ : String) : Node → List (String × Content)
  | .file c => [(at_, c)]
  | .dir entries => filesAmong at_ entries

def filesAmong (at_ : String) : List (String × Node) → List (String × Content)
  | [] => []
  | (k, n) :: rest => filesIn (Path.join at_ k) n ++ filesAmong at_ rest

end

/-- All files below the home directory, with relative paths, sorted by these. -/
def files (d : Disk) : List (String × Content) :=
  match find? d.home d.tree with
  | some n => Keyed.ofList (filesIn "" n)
  | none => []

instance : FileSystem (StateM Disk) where
  kind p := return (← get).kind p
  read? p := return (← get).read? p
  names? p := return (← get).names? p
  makeDirectory p := do
    let (there, d) := (← get).makeDirectory p
    set d
    return there
  write p c := do
    match (← get).write? p c with
    | some d =>
      set d
      return true
    | none => return false

end Disk

end Segue
