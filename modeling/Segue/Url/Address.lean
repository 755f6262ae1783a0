import Segue.Url.Host
import Segue.Url.Path

/-!
# URLs

Absolute URLs as the URL standard reads and writes them, and relative paths below them.
-/

namespace Segue

inductive Url.Location where
  /-- Text that paths cannot be joined to. -/
  | opaqueText (text : List Char)
  /-- A path that others can be joined to: nothing, or a text from a slash on. -/
  | path (text : List Char)

structure Url where
  scheme : List Char
  /-- With the sign that ends it, if there is any. -/
  userInfo : List Char
  host : Option (List Char)
  port : Option Nat
  location : Url.Location
  query : Option (List Char)
  fragment : Option (List Char)

namespace Url

def specialPorts : List (String × Nat) :=
  [("http", 80), ("https", 443), ("ws", 80), ("wss", 443), ("ftp", 21)]

def familyOf (scheme : List Char) : Family :=
  if scheme = "file".toList then .file
  else if (specialPorts.lookup (String.ofList scheme)).isSome then .web
  else .other

def readTail (special : Bool) (cs : List Char) : Option (List Char) × Option (List Char) :=
  let fragmentOf (cs : List Char) : Option (List Char) :=
    match cs with
    | '#' :: rest => some (encode fragmentSet rest)
    | _ => none
  match cs with
  | '?' :: rest =>
    let query := rest.takeWhile (· ≠ '#')
    (some (encode (querySet special) query), fragmentOf (rest.drop query.length))
  | _ => (none, fragmentOf cs)

def splitPath (cs : List Char) : List Char × List Char :=
  let path := cs.takeWhile fun c => !endsPath c
  (path, cs.drop path.length)

/-! ## Authorities -/

/-- Splits at the last `@`. -/
def splitUser (cs : List Char) : Option (List Char) × List Char :=
  let host := (cs.reverse.takeWhile (· ≠ '@')).reverse
  if host.length = cs.length then (none, cs)
  else (some (cs.take (cs.length - host.length - 1)), host)

def userText (cs : List Char) : List Char :=
  let name := cs.takeWhile (· ≠ ':')
  let password := (cs.drop name.length).drop 1
  if name.isEmpty && password.isEmpty then []
  else
    let password := if password.isEmpty then [] else ':' :: encode userSet password
    encode userSet name ++ password ++ ['@']

/-- Splits at the first colon outside of brackets. -/
def splitPort : (inBrackets : Bool) → List Char → List Char × Option (List Char)
  | _, [] => ([], none)
  | inside, c :: cs =>
    if c = ':' && !inside then ([], some cs)
    else
      let inside := if c = '[' then true else if c = ']' then false else inside
      let (host, port) := splitPort inside cs
      (c :: host, port)

/-- A port that is not the usual one of its scheme, and what follows it. -/
def readPort? (scheme : List Char) (cs : List Char) : Option (Option Nat × List Char) :=
  let digits := cs.takeWhile Char.isDigit
  let rest := cs.drop digits.length
  let n := digits.foldl (fun n c => 10 * n + (c.toNat - 0x30)) 0
  if 65535 < n then none
  else if !(rest.head?.map fun c => c = '/' || c = '\\' || endsPath c).getD true then none
  else if digits.isEmpty || specialPorts.lookup (String.ofList scheme) = some n then
    some (none, rest)
  else some (some n, rest)

def readAuthority? (scheme : List Char) (cs : List Char) : Option Url := do
  let f := familyOf scheme
  let ends (c : Char) : Bool := isSlash f c || endsPath c
  let authority := cs.takeWhile (!ends ·)
  let rest := cs.drop authority.length
  let (user, hostPort) := splitUser authority
  let (hostText, portText) := splitPort false hostPort
  if hostText.isEmpty then
    if f.isSpecial || portText.isSome || (user = some [] && !rest.isEmpty) then none
  let host ← if hostText.isEmpty then some [] else Host.parse? f.isSpecial hostText
  let (port, rest) ←
    match portText with
    | some digits => readPort? scheme (digits ++ rest)
    | none => some (none, rest)
  let (path, rest) := splitPath rest
  let (query, fragment) := readTail f.isSpecial rest
  some ⟨scheme, userText (user.getD []), some host, port, .path (readPath f path).path,
    query, fragment⟩

/-- Reads what follows the colon of `file:`. -/
def readFile? (cs : List Char) : Option Url := do
  let url (host path rest : List Char) : Url :=
    let (query, fragment) := readTail true rest
    ⟨"file".toList, [], some host, none, .path path, query, fragment⟩
  let rooted (rest : List Char) : Url :=
    let (path, rest) := splitPath rest
    url [] (addPath .file ['/'] path).path rest
  match cs with
  | [] => some (rooted [])
  | a :: more =>
    if !isSlash .file a then some (rooted cs)
    else
      match more with
      | b :: rest =>
        if isSlash .file b then
          let name := rest.takeWhile fun c => !(isSlash .file c || endsPath c)
          if name.isEmpty || isDrive name then some (rooted rest)
          else
            let host ← Host.parse? true name
            if host = "localhost".toList then some (rooted (rest.drop name.length))
            else
              let (path, tail) := splitPath (rest.drop name.length)
              let r := readPath .file path
              some (url (if r.onDrive then [] else host) r.path tail)
        else some (rooted more)
      | [] => some (rooted [])

def readOther? (scheme : List Char) (cs : List Char) : Option Url :=
  match cs with
  | '/' :: '/' :: rest => readAuthority? scheme rest
  | '/' :: rest =>
    let (path, rest) := splitPath rest
    let (query, fragment) := readTail false rest
    some ⟨scheme, [], none, none, .path (addPath .other ['/'] path).path, query, fragment⟩
  | _ =>
    let (text, rest) := splitPath cs
    let (query, fragment) := readTail false rest
    some ⟨scheme, [], none, none, .opaqueText (encode controlSet text), query, fragment⟩

def isEdge (c : Char) : Bool := c.toNat ≤ 0x20

/-- A text without controls and spaces at its ends, and without tabs and line ends. -/
def tidy (s : String) : List Char :=
  let cs := s.toList.dropWhile isEdge
  let cs := (cs.reverse.dropWhile isEdge).reverse
  cs.filter fun c => !(c = '\t' || c = '\n' || c = '\r')

def isSchemeChar (c : Char) : Bool := c.isAlphanum || c = '+' || c = '-' || c = '.'

def parse? (s : String) : Option Url :=
  let cs := tidy s
  let name := cs.takeWhile isSchemeChar
  match cs.drop name.length with
  | ':' :: rest =>
    if !(name.headD '0').isAlpha then none
    else
      let scheme := name.map Char.toLower
      match familyOf scheme with
      | .file => readFile? rest
      | .web => readAuthority? scheme (rest.dropWhile (isSlash .web))
      | .other => readOther? scheme rest
  | _ => none

/-! ## Writing -/

def Location.text : Location → List Char
  | .opaqueText text => text
  | .path text => text

/-- Keeps a path that begins with two slashes apart from an authority. -/
def guardText (u : Url) : List Char :=
  match u.host, u.location with
  | none, .path ('/' :: '/' :: _) => "/.".toList
  | _, _ => []

def text (u : Url) : String :=
  let authority := match u.host with
    | none => []
    | some host =>
      let port := match u.port with
        | some n => ':' :: Nat.toDigits 10 n
        | none => []
      "//".toList ++ u.userInfo ++ host ++ port
  let query := match u.query with
    | some q => '?' :: q
    | none => []
  let fragment := match u.fragment with
    | some f => '#' :: f
    | none => []
  let path := u.guardText ++ u.location.text
  String.ofList (u.scheme ++ [':'] ++ authority ++ path ++ query ++ fragment)

/-- The URL of a path relative to a URL: it takes the place of the last segment. -/
def join? (u : Url) (relative : String) : Option Url :=
  match u.location with
  | .opaqueText _ => none
  | .path old =>
    let f := familyOf u.scheme
    let stem := dropSegment f old
    let stem := if stem.isEmpty then ['/'] else stem
    let r := addPath f stem relative.toList
    some { u with location := .path r.path, query := none, fragment := none }

end Url

structure EndpointError where
  base : String
  deriving DecidableEq, Repr

def EndpointError.message (e : EndpointError) : String := s!"invalid upload endpoint '{e.base}'"

def uploadEndpoint (base : String) : Except EndpointError Url :=
  match Url.parse? base with
  | none => .error ⟨base⟩
  | some u =>
    match u.join? "upload/image" with
    | some e => .ok e
    | none => .error ⟨u.text⟩

end Segue
