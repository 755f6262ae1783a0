import Segue.Toml.Basic
import Segue.Decimal.Notation
import Segue.Json.Quoted

/-!
# Printing TOML

A document shows its plain entries first and then one section per table. Tables within sections are
written inline.
-/

namespace Segue.Toml

def floatLayout : Decimal.Layout := ⟨-400, 400, true, false, .upward⟩

def floatText (x : Float) : List Char :=
  if x.isNaN then "nan".toList else (floatLayout.render x).toList

def escapeChar (c : Char) : List Char :=
  match c with
  | '"' => ['\\', '"']
  | '\\' => ['\\', '\\']
  | '\t' => ['\\', 't']
  | '\n' => ['\\', 'n']
  | '\r' => ['\\', 'r']
  | c =>
    if c.toNat < 32 || c.toNat = 127 then
      ['\\', 'u', '0', '0', Json.Quoted.hexDigit (c.toNat / 16), Json.Quoted.hexDigit c.toNat]
    else [c]

def quoted (s : String) : List Char := '"' :: (s.toList.flatMap escapeChar ++ ['"'])

mutual

def inlineText : Toml → List Char
  | .str s => quoted s
  | .int n => (toString n).toList
  | .float x => floatText x
  | .bool true => "true".toList
  | .bool false => "false".toList
  | .time => "00:00:00".toList
  | .arr items => '[' :: itemsText items ++ [']']
  | .table entries => '\x7b' :: ' ' :: entriesText entries ++ [' ', '\x7d']

def itemsText : List Toml → List Char
  | [] => []
  | [v] => inlineText v
  | v :: vs => inlineText v ++ ',' :: ' ' :: itemsText vs

def entriesText : List (String × Toml) → List Char
  | [] => []
  | [(k, v)] => quoted k ++ " = ".toList ++ inlineText v
  | (k, v) :: es => quoted k ++ " = ".toList ++ inlineText v ++ ',' :: ' ' :: entriesText es

end

def lineText (name : String) (v : Toml) : List Char :=
  name.toList ++ " = ".toList ++ inlineText v ++ ['\n']

/-- An entry at the top, if it is no table. -/
def plainText : String × Toml → List Char
  | (_, .table _) => []
  | (name, v) => lineText name v

def sectionText : String × Toml → List Char
  | (name, .table entries) =>
    '\n' :: '[' :: name.toList ++ [']', '\n'] ++ entries.flatMap fun (k, v) => lineText k v
  | _ => []

/-- The text of a document whose keys need no quotes. -/
def render (entries : List (String × Toml)) : String :=
  String.ofList (entries.flatMap plainText ++ entries.flatMap sectionText)

end Segue.Toml
