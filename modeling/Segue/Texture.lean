import Segue.Timeline

/-!
# Textures

Textures that are shown, and a pool of those that are not.
-/

namespace Segue.Texture

/-!
## The texture pool

Textures that are no longer shown are kept for the next image of their size. The pool holds at most
`capacity` of them; one more drives out the oldest.
-/

/-- Released items with their sizes, the oldest first. -/
structure Pool (τ : Type) where
  capacity : Nat
  items : List ((Nat × Nat) × τ)

namespace Pool

variable {τ : Type}

def make (capacity : Nat) : Pool τ := ⟨max capacity 1, []⟩

def size (p : Pool τ) : Nat := p.items.length

/-- Takes the item of that size that was released last out of a list, the newest first. -/
def takeNewest? (wanted : Nat × Nat) :
    List ((Nat × Nat) × τ) → Option (τ × List ((Nat × Nat) × τ))
  | [] => none
  | (size, x) :: rest =>
    if size = wanted then some (x, rest)
    else (takeNewest? wanted rest).map fun (y, left) => (y, (size, x) :: left)

def acquire (p : Pool τ) (wanted : Nat × Nat) : Option τ × Pool τ :=
  match takeNewest? wanted p.items.reverse with
  | none => (none, p)
  | some (x, left) => (some x, { p with items := left.reverse })

/-- Adds an item; the oldest one leaves a pool that was full. -/
def release (p : Pool τ) (size : Nat × Nat) (x : τ) : Option τ × Pool τ :=
  let items := p.items ++ [(size, x)]
  if p.capacity < items.length then
    (items.head?.map (·.2), { p with items := items.tail })
  else (none, { p with items })

def drain (p : Pool τ) : List τ × Pool τ := (p.items.map (·.2), { p with items := [] })

end Pool

/-!
## Textures of the clips

Each clip shows at most one texture. A new image of the same size is written into it. For one of
another size it goes to the pool, which may drive out an old one, and then a texture of the new
size is taken from the pool or made.
-/

/-- A texture: its number in the order of making, and its size. -/
structure Numbered where
  number : Nat
  width : Nat
  height : Nat
  deriving DecidableEq, Repr

structure Slots where
  a? : Option Numbered
  b? : Option Numbered
  pool : Pool Numbered
  made : Nat
  /-- the textures that were driven out of the pool, the last first -/
  destroyed : List Numbered

namespace Slots

def make (capacity : Nat) : Slots := ⟨none, none, .make capacity, 0, []⟩

def get? (s : Slots) : Clip → Option Numbered
  | .a => s.a?
  | .b => s.b?

def set (s : Slots) (clip : Clip) (t? : Option Numbered) : Slots :=
  match clip with
  | .a => { s with a? := t? }
  | .b => { s with b? := t? }

def active (s : Slots) : Nat := s.a?.toList.length + s.b?.toList.length

def clear (s : Slots) (clip : Clip) : Slots :=
  match s.get? clip with
  | none => s
  | some t =>
    let (evicted?, pool) := s.pool.release (t.width, t.height) t
    { s.set clip none with pool, destroyed := evicted?.toList ++ s.destroyed }

def take (s : Slots) (width height : Nat) : Numbered × Slots :=
  match s.pool.acquire (width, height) with
  | (some t, pool) => (t, { s with pool })
  | (none, _) => (⟨s.made, width, height⟩, { s with made := s.made + 1 })

/-- Shows an image of that size; one without pixels is ignored. -/
def upload (s : Slots) (clip : Clip) (width height : Nat) : Slots :=
  if width = 0 ∨ height = 0 then s
  else if (s.get? clip).any fun t => t.width = width ∧ t.height = height then s
  else
    let (t, s) := (s.clear clip).take width height
    s.set clip (some t)

end Slots

end Segue.Texture
