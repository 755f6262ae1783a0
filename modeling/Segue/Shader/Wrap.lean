import Segue.Text.Blank
import Segue.Shader.Param

/-!
# Renaming identifiers

An identifier is renamed where it stands alone, and not where it is part of a longer word.
-/

namespace Segue.Shader

def isIdentChar (c : Char) : Bool := c.isAlphanum || c = '_'

section

variable {β : Type} [DecidableEq β]

/-- Where a part stands in a text whose first place is `start`. The search goes on behind a place
that it has found: `skip` places still belong to that one. -/
def occurrences (part : List β) (start skip : Nat) : List β → List Nat
  | [] => if part.isEmpty then [start] else []
  | c :: cs =>
    match skip with
    | skip + 1 => occurrences part (start + 1) skip cs
    | 0 =>
      if part.isPrefixOf (c :: cs) then
        start :: occurrences part (start + 1) (part.length - 1) cs
      else occurrences part (start + 1) 0 cs

/-- Neither before nor behind the part there is a character that would make it part of a longer
word. -/
def standsAlone (isIdent : β → Bool) (text : List β) (start stop : Nat) : Bool :=
  !(start != 0 && text[start - 1]?.any isIdent) && !text[stop]?.any isIdent

/-- A text that is being rewritten, and how much of it has been taken over. -/
structure Rewriting (β : Type) where
  out : List β
  taken : Nat

def Rewriting.replace (text new : List β) (start stop : Nat) (r : Rewriting β) : Rewriting β :=
  ⟨r.out ++ text.extract r.taken start ++ new, stop⟩

def Rewriting.finish (text : List β) (r : Rewriting β) : List β := r.out ++ text.drop r.taken

/-- Takes over an occurrence that starts at `start`; one that is part of a longer word stays. -/
def Rewriting.visit (isIdent : β → Bool) (name new text : List β) (r : Rewriting β) (start : Nat) :
    Rewriting β :=
  let stop := start + name.length
  if standsAlone isIdent text start stop then r.replace text new start stop else r

/-- Every occurrence of the word `name`, replaced by `new`. -/
def replaceWords (isIdent : β → Bool) (name new text : List β) : List β :=
  let visit := Rewriting.visit isIdent name new text
  ((occurrences name 0 0 text).foldl visit ⟨[], 0⟩).finish text

end

def rename (name new : String) (cs : List Char) : List Char :=
  replaceWords isIdentChar name.toList new.toList cs

/-!
## Wrapping fragments

A fragment is written in the dialect for the web. It is wrapped into GLSL 450 by a header, which
declares the blocks and defines the names that the fragment uses, and a footer, which calls its
entry point. The declarations that the header replaces are taken out of the fragment; every line
keeps its place, so that a line of the wrapped text leads back to one of the fragment.
-/

def headerStart : List String :=
  ["#version 450",
   "layout(location = 0) in vec2 vUv;",
   "layout(location = 0) out vec4 blendpack_FragColor;",
   "",
   "layout(std140, set = 0, binding = 0) uniform BlendpackContract \x7b",
   "    float _uProgress;",
   "    float _uIntensity;",
   "    float _uTime;",
   "    float _padding0;",
   "    vec2 _uResolution;",
   "    vec2 _padding1;",
   "\x7d contract;",
   "",
   "#define uProgress contract._uProgress",
   "#define uIntensity contract._uIntensity",
   "#define uTime contract._uTime",
   "#define uResolution contract._uResolution",
   "",
   "layout(set = 0, binding = 1) uniform texture2D blendpack_texA;",
   "layout(set = 0, binding = 2) uniform texture2D blendpack_texB;",
   "layout(set = 0, binding = 3) uniform sampler blendpack_sampler;",
   "",
   "#define uTexA sampler2D(blendpack_texA, blendpack_sampler)",
   "#define uTexB sampler2D(blendpack_texB, blendpack_sampler)",
   "",
   "vec4 blendpack_FragCoord;"]

/-- The footer: the entry point, with the origin of coordinates at the bottom left. -/
def footer : List String :=
  ["",
   "void main() \x7b",
   "    blendpack_FragCoord = vec4(gl_FragCoord.x, uResolution.y - gl_FragCoord.y, gl_FragCoord.z, gl_FragCoord.w);",
   "    blendpack_main();",
   "\x7d"]

/-- Lines, each with a line feed. -/
def joinLines (ls : List String) : List Char := ls.flatMap fun l => l.toList ++ ['\n']

def memberLine (f : ParamField) : String :=
  let array := match f.arrayLength with
    | some n => s!"[{n}]"
    | none => ""
  s!"    {f.kind.memberType} bp_{f.name}{array};"

/-- The definition by which the fragment's name means the member. -/
def defineLine (f : ParamField) : String :=
  if f.kind = .bool ∧ f.arrayLength = none then s!"#define {f.name} (params.bp_{f.name} != 0)"
  else s!"#define {f.name} params.bp_{f.name}"

def header (l : ParamLayout) : List String :=
  headerStart
    ++ ["", "layout(std140, set = 0, binding = 4) uniform BlendpackParams \x7b"]
    ++ (if l.fields.isEmpty then ["    float _unused;"] else [])
    ++ l.fields.map memberLine
    ++ ["\x7d params;", ""]
    ++ l.fields.map defineLine
    ++ [""]

/-! ### Stripping declarations -/

/-- The words that start a declaration which the header replaces. -/
def strippedWords : List (List Char) := ["uniform ".toList, "precision ".toList, "varying ".toList]

def contains (part cs : List Char) : Bool :=
  match cs with
  | [] => part.isEmpty
  | c :: rest => part.isPrefixOf (c :: rest) || contains part rest

/-- The text before the first `//`, and the rest. -/
def splitComment : List Char → List Char × List Char
  | '/' :: '/' :: cs => ([], '/' :: '/' :: cs)
  | c :: cs => let (code, comment) := splitComment cs; (c :: code, comment)
  | [] => ([], [])

def isStripped (statement : List Char) : Bool :=
  strippedWords.any fun w => w.isPrefixOf (Text.trimLeft statement)

/-- A statement with its semicolon, unless it is stripped. -/
def keptStatement (statement : List Char) : List Char :=
  if isStripped statement then [] else statement ++ [';']

def isDirective (line : List Char) : Bool :=
  let start := Text.trimLeft line
  "#version".toList.isPrefixOf start || "#extension".toList.isPrefixOf start

def stripLine (line : List Char) : List Char :=
  if isDirective line then []
  else
    let (code, comment) := splitComment line
    if strippedWords.any fun w => contains w code then
      let pieces := Text.splitChars (· = ';') code
      pieces.dropLast.flatMap keptStatement ++ pieces.getLastD [] ++ comment
    else line

/-! ### The wrapped text -/

/-- Gives the names of the dialect their names in GLSL 450. -/
def renameAll (cs : List Char) : List Char :=
  rename "main" "blendpack_main" <|
  rename "gl_FragCoord" "blendpack_FragCoord" <|
  rename "gl_FragColor" "blendpack_FragColor" <|
  rename "texture2D" "texture" cs

def wrapBody (source : String) : List Char :=
  renameAll ((Text.linesOf source.toList).flatMap fun l => stripLine l ++ ['\n'])

structure Wrapped where
  text : String
  layout : ParamLayout
  headerLines : Nat

def wrap (source : String) : Wrapped :=
  let layout := ParamLayout.ofSource source
  let head := joinLines (header layout)
  { text := String.ofList (head ++ wrapBody source ++ joinLines footer)
    layout
    headerLines := (Text.linesOf head).length }

/-- The line of the fragment that a line of the wrapped text leads back to; lines count from 1. -/
def Wrapped.bodyLine? (w : Wrapped) (line : Nat) : Option Nat :=
  if w.headerLines < line then some (line - w.headerLines) else none

end Segue.Shader
