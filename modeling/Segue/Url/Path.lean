import Segue.Json.Quoted
import Segue.Text.Blank

/-!
# Percent encoding

Characters that a part of a URL cannot hold are written as their UTF-8 bytes, each as `%` and two
digits. Each part has a set of ASCII characters to encode; all others beyond ASCII and all controls
are always encoded.
-/

namespace Segue.Url

def controlSet (c : Char) : Bool := c.toNat < 0x20 || 0x7F ≤ c.toNat

def fragmentSet (c : Char) : Bool := controlSet c || [' ', '\x22', '<', '>', '\x60'].contains c

def querySet (special : Bool) (c : Char) : Bool :=
  controlSet c || [' ', '\x22', '#', '<', '>'].contains c || (special && c.toNat = 0x27)

def pathSet (c : Char) : Bool := fragmentSet c || ['#', '?', '\x7b', '\x7d'].contains c

def userSet (c : Char) : Bool :=
  pathSet c || ['/', ':', ';', '=', '@', '[', '\\', ']', '^', '|'].contains c

def upperHex (n : Nat) : Char := (Json.Quoted.hexDigit n).toUpper

def encodeByte (b : UInt8) : List Char := ['%', upperHex (b.toNat / 16), upperHex b.toNat]

def encodeChar (set : Char → Bool) (c : Char) : List Char :=
  if set c then (String.singleton c).toUTF8.toList.flatMap encodeByte else [c]

def encode (set : Char → Bool) (cs : List Char) : List Char := cs.flatMap (encodeChar set)

/-- The bytes of a text in which `%` and two digits stand for one byte. -/
def decodeBytes : List Char → List UInt8
  | '%' :: a :: b :: rest =>
    match Json.Quoted.hexValue? a, Json.Quoted.hexValue? b with
    | some x, some y => (16 * x + y).toUInt8 :: decodeBytes rest
    | _, _ => 0x25 :: decodeBytes (a :: b :: rest)
  | c :: rest => (String.singleton c).toUTF8.toList ++ decodeBytes rest
  | [] => []

/-- The text of percent-encoded characters, if the bytes are one. -/
def decode? (cs : List Char) : Option (List Char) :=
  (String.fromUTF8? ⟨(decodeBytes cs).toArray⟩).map String.toList

/-!
## Paths of URLs

A path is read segment by segment onto the text of what precedes it. Segments that go up take away
the segment before them, but never a drive of a file, a letter and a colon.
-/

inductive Family where
  | file
  /-- Schemes whose URLs always have a host and a path. -/
  | web
  | other
  deriving DecidableEq, Repr

def Family.isSpecial (f : Family) : Bool := f ≠ .other

def isSlash (f : Family) (c : Char) : Bool := c = '/' || (f.isSpecial && c = '\\')

def endsPath (c : Char) : Bool := c = '?' || c = '#'

/-! ### Segments -/

def upwards : List String := ["..", "%2e%2e", "%2e.", ".%2e"]

def isUpwards (cs : List Char) : Bool := upwards.contains (String.ofList (cs.map Char.toLower))

def isHere (cs : List Char) : Bool := [".", "%2e"].contains (String.ofList (cs.map Char.toLower))

def isDrive : List Char → Bool
  | [a, b] => a.isAlpha && (b = ':' || b = '|')
  | _ => false

/-- A segment that begins as a drive, of which a backslash may be the end. -/
def beginsDrive (cs : List Char) : Bool :=
  isDrive (cs.take 2) && (cs.drop 2).head?.all (· = '\\')

def isPlainDrive : List Char → Bool
  | [a, b] => a.isAlpha && b = ':'
  | _ => false

/-! ### Texts of paths -/

def endsInSlash (path : List Char) : Bool := path.getLast? = some '/'

def lastSegment (path : List Char) : List Char := (path.reverse.takeWhile (· ≠ '/')).reverse

/-- A path without its last segment, unless that is the drive of a file. -/
def dropSegment (f : Family) (path : List Char) : List Char :=
  let segment := lastSegment path
  if f = .file && isPlainDrive segment then path else path.take (path.length - segment.length)

/-- The slash at the end follows a segment that can be taken away: it is not the first slash of the
path, and no drive precedes it. -/
def isSlashLoose (path : List Char) : Bool :=
  let body := path.dropLast
  endsInSlash path && body.contains '/' && !beginsDrive (lastSegment body)

/-- A path without the segment before the slash at its end. -/
def goUp (f : Family) (path : List Char) : List Char :=
  dropSegment f (if isSlashLoose path then path.dropLast else path)

structure Reading where
  path : List Char
  /-- Where the last segment begins. -/
  start : Nat
  /-- The path begins with a drive, which belongs to no host. -/
  onDrive : Bool

namespace Reading

def after (path : List Char) (onDrive : Bool) : Reading := ⟨path, path.length, onDrive⟩

/-- Adds a character to the last segment; nothing can follow the drive of a file but a slash. -/
def push (f : Family) (r : Reading) (c : Char) : Reading :=
  let r :=
    if f = .file && isPlainDrive (r.path.drop 1) then
      { r with path := r.path ++ ['/'], start := r.start + 1 }
    else r
  { r with path := r.path ++ encodeChar pathSet c }

def close (f : Family) (r : Reading) (slash : Bool) : Reading :=
  let tail := if slash then ['/'] else []
  let segment := r.path.drop r.start
  let before := r.path.take r.start
  if isUpwards segment then
    let path := goUp f before
    .after (if slash && !endsInSlash path then path ++ ['/'] else path) r.onDrive
  else if isHere segment then
    .after (if endsInSlash before then before else before ++ ['/']) r.onDrive
  else if f = .file && r.start = 1 && isDrive segment then
    .after (before ++ segment.take 1 ++ ':' :: tail) true
  else .after (r.path ++ tail) r.onDrive

def addSegments (f : Family) (r : Reading) : List (List Char) → Reading
  | [] => r
  | raw :: rest => addSegments f ((raw.foldl (push f) r).close f (!rest.isEmpty)) rest

end Reading

/-- Files have no empty segments at the front. -/
def trimPath (f : Family) (path : List Char) : List Char :=
  if f = .file then '/' :: path.dropWhile (· = '/') else path

def addPath (f : Family) (path text : List Char) : Reading :=
  let r := (Reading.after path false).addSegments f (Text.splitChars (isSlash f) text)
  { r with path := trimPath f r.path }

/-- Reads the path behind a host: in special schemes there is one always. -/
def readPath (f : Family) (text : List Char) : Reading :=
  match text with
  | [] => if f.isSpecial then addPath f ['/'] [] else .after [] false
  | c :: cs =>
    if f.isSpecial then addPath f ['/'] (if isSlash f c then cs else text)
    else addPath f (if c = '/' then [] else ['/']) text

end Segue.Url
