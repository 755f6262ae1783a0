/-!
# Tables
-/

namespace Segue

/-!
## Tables sorted by key

A table is a list of keys with values, strictly ascending by the code points of the keys.
-/

abbrev Keyed (β : Type) := List (String × β)

namespace Keyed

variable {β : Type}

/-- Sets the value of a key, in its place. -/
def insert (k : String) (v : β) : Keyed β → Keyed β
  | [] => [(k, v)]
  | (k', v') :: rest =>
    if k < k' then (k, v) :: (k', v') :: rest
    else if k = k' then (k, v) :: rest
    else (k', v') :: insert k v rest

def get? (k : String) : Keyed β → Option β
  | [] => none
  | (k', v') :: rest => if k = k' then some v' else get? k rest

/-- The table of a list of entries; the last entry of a key counts. -/
def ofList (entries : List (String × β)) : Keyed β :=
  entries.foldl (fun t e => insert e.1 e.2 t) []

/-- All entries of both tables; the second one wins where both have a key. -/
def merge (base upper : Keyed β) : Keyed β :=
  upper.foldl (fun t e => insert e.1 e.2 t) base

def keys (t : Keyed β) : List String := t.map (·.1)

end Keyed

/-!
## Tables without an order

A table leads from keys to values, and its order does not show.
-/

abbrev Table (κ β : Type) := List (κ × β)

namespace Table

variable {κ β : Type} [DecidableEq κ]

def get? (k : κ) : Table κ β → Option β
  | [] => none
  | (k', v) :: rest => if k = k' then some v else get? k rest

def erase (k : κ) (t : Table κ β) : Table κ β := t.filter fun e => e.1 ≠ k

def insert (k : κ) (v : β) (t : Table κ β) : Table κ β := (k, v) :: t.erase k

end Table

end Segue
