import Segue.Toml.Scalar

/-!
# TOML documents

A document is a list of lines: table headers and assignments. Tables are opened once; a table that
so far only holds other tables may be opened later. Keys with dots open tables of their own, which
cannot be opened again by a header.
-/

namespace Segue.Toml

/-! ## Keys -/

def isBare (c : Char) : Bool := c.isAlphanum || c = '_' || c = '-'

def simpleKey? (cs : List Char) : Option (String × List Char) :=
  match cs with
  | [] => none
  | c :: _ =>
    if c = '"' || c = '\'' then lineString? cs
    else
      let name := cs.takeWhile isBare
      if name.isEmpty then none else some (String.ofList name, cs.drop name.length)

/-- Names joined by dots, at most `n` of them. -/
def keyPath? : (n : Nat) → Scan (List String)
  | 0, _ => none
  | n + 1, cs => do
    let (k, rest) ← simpleKey? (dropSpace cs)
    match dropSpace rest with
    | '.' :: rest => do
      let (ks, rest) ← keyPath? n rest
      some (k :: ks, rest)
    | rest => some ([k], rest)

/-- How deep values nest and how long keys with dots are at most. -/
def maxDepth : Nat := 79

def key? : Scan (List String) := keyPath? maxDepth

/-! ## Tables under construction -/

inductive Node where
  | value (v : Toml)
  /-- A table. It is open while it is only implied by others; `dotted` says that a key with dots
  made it. -/
  | table (implied dotted : Bool) (entries : List (String × Node))
  | tables (items : List (List (String × Node)))

abbrev Entries := List (String × Node)

def Entries.get? (k : String) : Entries → Option Node
  | [] => none
  | (l, v) :: rest => if k = l then some v else get? k rest

/-- Sets the value of a key; a new key goes to the end. -/
def Entries.set (k : String) (v : Node) : Entries → Entries
  | [] => [(k, v)]
  | (l, w) :: rest => if k = l then (k, v) :: rest else (l, w) :: set k v rest

def Entries.erase (k : String) (es : Entries) : Entries := es.filter fun e => e.1 ≠ k

mutual

def Node.toToml : Node → Toml
  | .value v => v
  | .table _ _ es => .table (entriesToToml es)
  | .tables items => .arr (itemsToToml items)

def entriesToToml : List (String × Node) → List (String × Toml)
  | [] => []
  | (k, v) :: rest => (k, v.toToml) :: entriesToToml rest

def itemsToToml : List (List (String × Node)) → List Toml
  | [] => []
  | es :: rest => .table (entriesToToml es) :: itemsToToml rest

end

/-- Changes the table at a path, and makes the tables on the way that are not there yet. `change`
also gets the flag of the table it changes. -/
def change? (dotted : Bool) (change : (atDotted : Bool) → Entries → Option Entries) :
    List String → (atDotted : Bool) → Entries → Option Entries
  | [], atDotted, es => change atDotted es
  | k :: ks, _, es =>
    match Entries.get? k es with
    | none => do
      let inner ← change? dotted change ks dotted []
      some (Entries.set k (.table true dotted inner) es)
    | some (.table implied wasDotted inner) =>
      if dotted && !implied then none
      else do
        let inner ← change? dotted change ks wasDotted inner
        some (Entries.set k (.table implied wasDotted inner) es)
    | some (.tables items) =>
      match items.reverse with
      | [] => none
      | last :: before => do
        let last ← change? dotted change ks false last
        some (Entries.set k (.tables (last :: before).reverse) es)
    | some (.value _) => none

def assign? (path : List String) (v : Toml) (es : Entries) : Option Entries :=
  match path.reverse with
  | [] => none
  | k :: front =>
    change? true (fun atDotted es =>
      -- a table holds either plain keys or the last parts of dotted ones
      if atDotted = front.isEmpty || (Entries.get? k es).isSome then none
      else some (Entries.set k (.value v) es)) front.reverse false es

/-! ## Values -/

/-- The items of an array up to its closing bracket, at most `n` of them. -/
def arrayFrom? (item : Scan Toml) : (n : Nat) → Scan (List Toml)
  | 0, _ => none
  | n + 1, cs =>
    match dropBreaks cs with
    | ']' :: rest => some ([], rest)
    | cs => do
      let (v, rest) ← item cs
      match dropBreaks rest with
      | ',' :: rest => do
        let (vs, rest) ← arrayFrom? item n rest
        some (v :: vs, rest)
      | ']' :: rest => some ([v], rest)
      | _ => none

/-- The assignments of an inline table up to its closing brace, at most `n` of them. -/
def inlineFrom? (item : Scan Toml) : (n : Nat) → Entries → Scan Entries
  | 0, _, _ => none
  | n + 1, es, cs => do
    let (path, rest) ← key? cs
    let rest ← char? '=' (dropSpace rest)
    let (v, rest) ← item (dropSpace rest)
    let es ← assign? path v es
    match dropSpace rest with
    | ',' :: rest => inlineFrom? item n es rest
    | '\x7d' :: rest => some (es, rest)
    | _ => none

/-- A value that nests at most `depth` deep. -/
def value? : (depth : Nat) → Scan Toml
  | 0, cs =>
    match cs with
    | '[' :: _ => none
    | '\x7b' :: _ => none
    | cs => scalar? cs
  | d + 1, cs =>
    match cs with
    | '[' :: rest => (arrayFrom? (value? d) (rest.length + 1) rest).map fun (vs, r) => (.arr vs, r)
    | '\x7b' :: rest =>
      match dropSpace rest with
      | '\x7d' :: rest => some (.table [], rest)
      | rest => (inlineFrom? (value? d) (rest.length + 1) [] rest).map fun (es, r) =>
          (.table (entriesToToml es), r)
    | cs => scalar? cs

/-! ## Lines -/

inductive Line where
  | table (path : List String)
  | tables (path : List String)
  | assign (path : List String) (v : Toml)
  | blank

/-- What follows the end of a line: spaces, a comment, and a line break or the end of the text. -/
def endOfLine? (cs : List Char) : Option (List Char) := do
  let rest ← comment? (dropSpace cs)
  match rest with
  | [] => some []
  | rest => newline? rest

def line? (cs : List Char) : Option (Line × List Char) :=
  match dropSpace cs with
  | '[' :: '[' :: rest => do
    let (path, rest) ← key? rest
    let rest ← char? ']' (← char? ']' (dropSpace rest))
    some (.tables path, ← endOfLine? rest)
  | '[' :: rest => do
    let (path, rest) ← key? rest
    let rest ← char? ']' (dropSpace rest)
    some (.table path, ← endOfLine? rest)
  | [] => some (.blank, [])
  | c :: rest =>
    if c = '#' || c = '\n' || c = '\r' then (endOfLine? (c :: rest)).map fun r => (.blank, r)
    else do
      let (path, rest) ← key? (c :: rest)
      let rest ← char? '=' rest
      let (v, rest) ← value? maxDepth (dropSpace rest)
      some (.assign path v, ← endOfLine? rest)

/-- The lines of a text, at most `n` of them. -/
def lines? : (n : Nat) → List Char → Option (List Line)
  | 0, _ => none
  | n + 1, cs =>
    if cs.isEmpty then some []
    else do
      let (l, rest) ← line? cs
      (l :: ·) <$> lines? n rest

/-- A document under construction: the finished tables, and the one that is being filled. -/
structure Draft where
  root : Entries
  path : List String
  isItem : Bool
  entries : Entries

def Draft.close? (d : Draft) : Option Entries :=
  match d.path.reverse with
  | [] => some d.entries
  | k :: front =>
    change? false (fun _ es =>
      match Entries.get? k es with
      | some (.tables items) =>
        if d.isItem then some (Entries.set k (.tables (items ++ [d.entries])) es) else none
      | some (.table true _ _) =>
        if d.isItem then none else some (Entries.set k (.table false false d.entries) es)
      | some _ => none
      | none => some (Entries.set k (.table false false d.entries) es)) front.reverse false d.root

/-- Opens a table. One that was only implied so far keeps what it holds. -/
def Draft.openTable? (d : Draft) (path : List String) : Option Draft := do
  let root ← d.close?
  match path.reverse with
  | [] => none
  | k :: front =>
    let at? (es : Entries) : Option (Option Entries) :=
      match Entries.get? k es with
      | none => some none
      | some (.table true false inner) => some (some inner)
      | some _ => none
    let root' ← change? false (fun _ es => (at? es).map fun _ => Entries.erase k es)
      front.reverse false root
    let held := lookup? front.reverse root >>= Entries.get? k
    let inner : Entries := match held with
      | some (.table _ _ inner) => inner
      | _ => []
    some ⟨root', path, false, inner⟩
where
  /-- The entries of the table at a path; of an array of tables the last one. -/
  lookup? : List String → Entries → Option Entries
    | [], es => some es
    | k :: ks, es =>
      match Entries.get? k es with
      | some (.table _ _ inner) => lookup? ks inner
      | some (.tables items) => items.getLast? >>= lookup? ks
      | _ => none

def Draft.openItem? (d : Draft) (path : List String) : Option Draft := do
  let root ← d.close?
  match path.reverse with
  | [] => none
  | k :: front =>
    let root ← change? false (fun _ es =>
      match Entries.get? k es with
      | none => some (Entries.set k (.tables []) es)
      | some (.tables _) => some es
      | some _ => none) front.reverse false root
    some ⟨root, path, true, []⟩

def Draft.add? (d : Draft) : Line → Option Draft
  | .blank => some d
  | .table path => d.openTable? path
  | .tables path => d.openItem? path
  | .assign path v => (assign? path v d.entries).map fun es => { d with entries := es }

/-- A byte order mark in front does not count. -/
def dropMark : List Char → List Char
  | '\uFEFF' :: cs => cs
  | cs => cs

def parse? (text : String) : Option (List (String × Toml)) := do
  let cs := dropMark text.toList
  let ls ← lines? (cs.length + 1) cs
  let d ← ls.foldlM Draft.add? ⟨[], [], false, []⟩
  some (entriesToToml (← d.close?))

end Segue.Toml
