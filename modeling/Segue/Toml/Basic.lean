import Segue.Decimal.Read

/-!
# TOML values

Tables keep the order of their keys in the text.
-/

namespace Segue

inductive Toml where
  | str (s : String)
  | int (n : Int)
  | float (x : Float)
  | bool (b : Bool)
  /-- Dates and times are checked, but not interpreted. -/
  | time
  | arr (items : List Toml)
  | table (entries : List (String × Toml))
  deriving Repr

namespace Toml

instance : Inhabited Toml := ⟨.bool false⟩

/-- Integers have 64 bits with a sign. -/
def isWord (n : Int) : Bool := -0x8000000000000000 ≤ n && n < 0x8000000000000000

end Toml

end Segue

namespace Segue.Toml

/-!
## Records in TOML

A record is a table of named fields, or an array of their values in order. Entries are taken in the
order of the text, so the first value that does not fit is the one that is reported.
-/

/-- Why a value does not fit: its type, or what `ε` says. -/
inductive Misfit (ε : Type) where
  | shape
  | because (e : ε)
  deriving Repr

/-- A field of a record: its name, and how its value changes the record. -/
structure FieldReader (ε σ : Type) where
  name : String
  read : σ → Toml → Except (Misfit ε) σ

variable {ε σ τ : Type}

/-- A field whose value is stored by `set`. -/
def FieldReader.of (name : String) (r : Toml → Except (Misfit ε) τ) (set : σ → τ → σ) :
    FieldReader ε σ :=
  ⟨name, fun s v => (r v).map (set s)⟩

def readEntries (fields : List (FieldReader ε σ)) (init : σ) (entries : List (String × Toml)) :
    Except (Misfit ε) σ :=
  entries.foldlM (fun s (k, v) => match fields.find? fun f => f.name = k with
    | some f => f.read s v
    | none => .ok s) init

/-- Reads a record; unknown keys, and items after the last field, are passed over. A date or a time
has parts of its own, none of which is a field. -/
def record (fields : List (FieldReader ε σ)) (init : σ) : Toml → Except (Misfit ε) σ
  | .table entries => readEntries fields init entries
  | .arr items => (fields.zip items).foldlM (fun s (f, v) => f.read s v) init
  | .time => .ok init
  | _ => .error .shape

def string : Toml → Except (Misfit ε) String
  | .str s => .ok s
  | _ => .error .shape

def boolean : Toml → Except (Misfit ε) Bool
  | .bool b => .ok b
  | _ => .error .shape

/-- An integer from 0 to `bound`. -/
def count (bound : Nat) : Toml → Except (Misfit ε) Nat
  | .int n => if 0 ≤ n && n ≤ bound then .ok n.toNat else .error .shape
  | _ => .error .shape

/-- A number; integers count as floats. -/
def number : Toml → Except (Misfit ε) Float
  | .int n => .ok (Float.ofInt n)
  | .float x => .ok x
  | _ => .error .shape

def list (r : Toml → Except (Misfit ε) τ) : Toml → Except (Misfit ε) (List τ)
  | .arr items => items.mapM r
  | _ => .error .shape

def tableOf (r : Toml → Except (Misfit ε) τ) : Toml → Except (Misfit ε) (List (String × τ))
  | .table entries => entries.mapM fun (k, v) => (r v).map fun x => (k, x)
  | _ => .error .shape

/-- One of some named values: a string, or a table of the name alone with nothing in it. -/
def choice (options : List (String × τ)) : Toml → Except (Misfit ε) τ
  | .str s => pick s
  | .table [(name, .table [])] => pick name
  | .table [(name, .arr [])] => pick name
  | _ => .error .shape
where
  pick (name : String) : Except (Misfit ε) τ :=
    match options.find? fun o => o.1 = name with
    | some o => .ok o.2
    | none => .error .shape

end Segue.Toml
