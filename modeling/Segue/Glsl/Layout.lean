import Segue.Glsl.Ty

/-!
# Layouts

Where the members of records begin. A number begins at a multiple of its size, a vector at a
multiple of two or four of its numbers, and arrays, matrices and records at a multiple of what they
consist of. The members of uniform blocks are spread further: there the elements of arrays and the
columns of matrices take at least sixteen bytes.
-/

namespace Segue.Glsl

/-- The number of numbers to a multiple of which a vector is aligned. -/
def vectorAlign (size : Nat) : Nat := if size ≤ 2 then size else 4

/-- The next multiple of `align`. -/
def roundUp (align n : Nat) : Nat := (n + align - 1) / align * align

/-- What a place for a value needs: a multiple to begin at, and a number of bytes. -/
structure Extent where
  align : Nat
  size : Nat
  deriving DecidableEq, Repr

namespace Extent

def stride (e : Extent) : Nat := roundUp e.align e.size

end Extent

def Records.extent (rs : Records) : (rounds : Nat) → Ty → Extent
  | _, .scalar k => ⟨k.width, k.width⟩
  | _, .vector n k => ⟨vectorAlign n * k.width, n * k.width⟩
  | _, .matrix c r k => ⟨vectorAlign r * k.width, c * (vectorAlign r * k.width)⟩
  | rounds, .array e n s => ⟨(extent rs rounds e).align, n.getD 1 * s⟩
  | rounds + 1, .record i =>
    match rs[i]? with
    | some r => ⟨r.members.foldl (fun a m => max a (extent rs rounds m.ty).align) 1, r.span⟩
    | none => ⟨1, 0⟩
  | _, _ => ⟨1, 0⟩
termination_by rounds t => (rounds, t)

def Records.arrayOf (rs : Records) (element : Ty) (length? : Option Nat) : Ty :=
  .array element length? (rs.extent rs.length element).stride

inductive Rule where
  | wide
  | tight
  deriving DecidableEq, Repr

/-- What an align is at least. -/
def Rule.floor : Rule → Nat
  | wide => 16
  | tight => 1

structure Laid where
  ty : Ty
  extent : Extent

/-- The place of a record among the records, where one that is equal stands only once. -/
def Records.place (rs : Records) (r : Record) : Nat × Records :=
  match rs.findIdx? (· = r) with
  | some i => (i, rs)
  | none => (rs.length, rs ++ [r])

/-- Members in a row: the members so far backwards, and the extent that they take. -/
structure Row where
  members : List Member := []
  extent : Extent := ⟨1, 0⟩

namespace Row

def add (r : Row) (name : String) (l : Laid) : Row :=
  let start := roundUp l.extent.align r.extent.size
  { members := ⟨name, l.ty, start⟩ :: r.members
    extent := ⟨max l.extent.align r.extent.align, start + l.extent.size⟩ }

/-- The record of a row; it spans a multiple of its align. -/
def close (r : Row) (name : String) : Record := ⟨name, r.members.reverse, r.extent.stride⟩

end Row

/-- Lays a type out by a rule; none if it cannot stand in a block. The columns of a matrix cannot
be spread, so one with columns of two numbers cannot stand where columns take sixteen bytes. -/
def Records.layOut? (rule : Rule) : (rounds : Nat) → Records → Ty → Option (Laid × Records)
  | _, rs, .scalar k => some (⟨.scalar k, ⟨k.width, k.width⟩⟩, rs)
  | _, rs, .vector n k => some (⟨.vector n k, ⟨vectorAlign n * k.width, n * k.width⟩⟩, rs)
  | _, rs, .matrix c r k =>
    if rule = .wide ∧ r = 2 then none
    else
      let align := max (vectorAlign r * k.width) rule.floor
      some (⟨.matrix c r k, ⟨align, c * align⟩⟩, rs)
  | rounds, rs, .array e n _ =>
    (layOut? rule rounds rs e).map fun (l, rs) =>
      let align := max l.extent.align rule.floor
      let stride := roundUp align l.extent.size
      (⟨.array l.ty n stride, ⟨align, n.getD 1 * stride⟩⟩, rs)
  | rounds + 1, rs, .record i =>
    (rs[i]?).bind fun r =>
      let row? := r.members.foldlM (fun (acc : Row × Records) m =>
        (layOut? rule rounds acc.2 m.ty).map fun (l, rs) => (acc.1.add m.name l, rs))
        ({}, rs)
      row?.map fun (row, rs) =>
        let (j, rs) := rs.place (row.close r.name)
        (⟨.record j, ⟨row.extent.align, row.extent.stride⟩⟩, rs)
  | _, _, _ => none
termination_by rounds _ t => (rounds, t)

end Segue.Glsl
