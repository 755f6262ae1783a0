import Mathlib
import Segue.Glsl.Layout

/-!
# The std140 layout

Where the shading language lays the members of a block, for members that are numbers, vectors and
arrays of these. The rules are stated by themselves, as a relation between members and the bytes
at which they begin; the layout that the shader compiler computes obeys them.
-/

namespace Segue.Std140

open Glsl

/-- A member as the text of a block declares it. -/
structure Member where
  typeName : String
  name : String
  length? : Option Nat

def Member.line (m : Member) : String :=
  "    " ++ m.typeName ++ " " ++ m.name
    ++ (match m.length? with
      | none => ""
      | some n => "[" ++ toString n ++ "]")
    ++ ";"

/-- The least multiple of `step` that is not before `start`. -/
def IsNext (start step next : Nat) : Prop := IsLeast {n | start ≤ n ∧ step ∣ n} next

def bytes : Kind → Nat
  | .double => 8
  | _ => 4

/-- The base alignment and the size of a number or a vector; three numbers are aligned as four. -/
inductive Single : Ty → (align size : Nat) → Prop
  | scalar (k : Kind) : Single (.scalar k) (bytes k) (bytes k)
  | two (k : Kind) : Single (.vector 2 k) (2 * bytes k) (2 * bytes k)
  | three (k : Kind) : Single (.vector 3 k) (4 * bytes k) (3 * bytes k)
  | four (k : Kind) : Single (.vector 4 k) (4 * bytes k) (4 * bytes k)

/-- The base alignment and the size of a member. The elements of an array lie as far apart as it is
aligned, and that is as an element is, rounded up to the alignment of four numbers. -/
inductive Member.Takes : Member → (align size : Nat) → Prop
  | single {m : Member} {ty : Ty} {align size : Nat} : m.length? = none →
      Ty.ofName? m.typeName = some ty → Single ty align size → m.Takes align size
  | array {m : Member} {ty : Ty} {n align size stride : Nat} : m.length? = some n →
      Ty.ofName? m.typeName = some ty → Single ty align size → IsNext align 16 stride →
      m.Takes stride (n * stride)

/-- Members in a row from the byte `start` on: where each begins, and where the last one ends. -/
inductive Placed : (start : Nat) → List Member → List Nat → (stop : Nat) → Prop
  | nil (start : Nat) : Placed start [] [] start
  | cons {start align size offset stop : Nat} {m : Member} {ms : List Member} {os : List Nat} :
      m.Takes align size → IsNext start align offset → Placed (offset + size) ms os stop →
      Placed start (m :: ms) (offset :: os) stop

/-! ## One layout -/

theorem IsNext.le {start step next : Nat} (h : IsNext start step next) : start ≤ next := h.1.1

theorem IsNext.dvd {start step next : Nat} (h : IsNext start step next) : step ∣ next := h.1.2

theorem IsNext.unique {start step a b : Nat} (ha : IsNext start step a)
    (hb : IsNext start step b) : a = b :=
  IsLeast.unique ha hb

theorem isNext_roundUp {step : Nat} (hstep : 0 < step) (start : Nat) :
    IsNext start step (roundUp step start) := by
  have hdiv := Nat.div_add_mod (start + step - 1) step
  have hmod := Nat.mod_lt (start + step - 1) hstep
  rw [Nat.mul_comm] at hdiv
  refine ⟨⟨?_, Nat.dvd_mul_left _ _⟩, ?_⟩
  · change start ≤ (start + step - 1) / step * step
    omega
  · rintro n ⟨hn, k, rfl⟩
    have hk : (start + step - 1) / step < k + 1 := by
      rw [Nat.div_lt_iff_lt_mul hstep, Nat.succ_mul, Nat.mul_comm k step]
      omega
    calc (start + step - 1) / step * step
        ≤ k * step := Nat.mul_le_mul_right step (Nat.le_of_lt_succ hk)
      _ = step * k := Nat.mul_comm k step

theorem bytes_pos (k : Kind) : 0 < bytes k := by
  cases k <;> decide

theorem Single.pos {ty : Ty} {align size : Nat} (h : Single ty align size) : 0 < align := by
  cases h with
  | scalar k => exact bytes_pos k
  | two k => exact Nat.mul_pos (by decide) (bytes_pos k)
  | three k => exact Nat.mul_pos (by decide) (bytes_pos k)
  | four k => exact Nat.mul_pos (by decide) (bytes_pos k)

theorem Member.Takes.align_pos {m : Member} {align size : Nat} (h : m.Takes align size) :
    0 < align := by
  cases h with
  | single _ _ hsingle => exact hsingle.pos
  | array _ _ hsingle hnext => exact Nat.lt_of_lt_of_le hsingle.pos hnext.le

theorem Single.unique {ty : Ty} {a b s t : Nat} (h : Single ty a s) (h' : Single ty b t) :
    a = b ∧ s = t := by
  cases h <;> cases h' <;> exact ⟨rfl, rfl⟩

theorem Member.Takes.unique {m : Member} {a b s t : Nat} (h : m.Takes a s) (h' : m.Takes b t) :
    a = b ∧ s = t := by
  cases h with
  | single hnone hty hsingle =>
      cases h' with
      | single _ hty' hsingle' =>
          obtain rfl := Option.some.inj (hty.symm.trans hty')
          exact hsingle.unique hsingle'
      | array hsome _ _ _ => exact absurd (hnone.symm.trans hsome) (by simp)
  | array hsome hty hsingle hstride =>
      cases h' with
      | single hnone _ _ => exact absurd (hnone.symm.trans hsome) (by simp)
      | array hsome' hty' hsingle' hstride' =>
          obtain rfl := Option.some.inj (hsome.symm.trans hsome')
          obtain rfl := Option.some.inj (hty.symm.trans hty')
          obtain ⟨rfl, _⟩ := hsingle.unique hsingle'
          obtain rfl := hstride.unique hstride'
          exact ⟨rfl, rfl⟩

/-- The rules leave no choice. -/
theorem Placed.unique {start : Nat} {ms : List Member} {os ps : List Nat} {stop halt : Nat}
    (h : Placed start ms os stop) (h' : Placed start ms ps halt) : os = ps ∧ stop = halt := by
  induction h generalizing ps halt with
  | nil start =>
      cases h'
      exact ⟨rfl, rfl⟩
  | cons htakes hnext _ ih =>
      cases h' with
      | cons htakes' hnext' hrest' =>
          obtain ⟨rfl, rfl⟩ := htakes.unique htakes'
          obtain rfl := hnext.unique hnext'
          obtain ⟨rfl, rfl⟩ := ih hrest'
          exact ⟨rfl, rfl⟩

theorem Placed.append {start mid stop : Nat} {ms ns : List Member} {os ps : List Nat}
    (h : Placed start ms os mid) (h' : Placed mid ns ps stop) :
    Placed start (ms ++ ns) (os ++ ps) stop := by
  induction h with
  | nil _ => exact h'
  | cons htakes hnext _ ih => exact .cons htakes hnext (ih h')

theorem Placed.concat {start mid align size offset : Nat} {ms : List Member} {os : List Nat}
    {m : Member} (h : Placed start ms os mid) (htakes : m.Takes align size)
    (hnext : IsNext mid align offset) :
    Placed start (ms ++ [m]) (os ++ [offset]) (offset + size) :=
  h.append (.cons htakes hnext (.nil _))

/-! ## The layout of the shader compiler -/

/-- The type of a member as the compiler reads it, before it is laid out. -/
def Member.ty? (m : Member) : Option Ty :=
  (Ty.ofName? m.typeName).map fun ty =>
    match m.length? with
    | none => ty
    | some n => .array ty (some n) 0

def row? (rs : Records) (rounds : Nat) (ms : List Member) : Option Row :=
  ms.foldlM (fun row m => m.ty?.bind fun ty =>
    (rs.layOut? .wide rounds ty).map fun laid => row.add m.name laid.1) {}

/-- A truth value takes less room outside of blocks than within; everything else takes the same. -/
theorem bytes_eq_width {k : Kind} (h : k ≠ .bool) : bytes k = k.width := by
  cases k with
  | bool => exact absurd rfl h
  | int => rfl
  | uint => rfl
  | float => rfl
  | double => rfl

theorem layOut?_of_single {ty : Ty} {align size : Nat} (h : Single ty align size)
    (hkind : ty.kind? ≠ some .bool) (rs : Records) (rounds : Nat) :
    rs.layOut? .wide rounds ty = some (⟨ty, ⟨align, size⟩⟩, rs) := by
  have hwidth : ∀ k, ty.kind? = some k → bytes k = k.width := by
    intro k hk
    exact bytes_eq_width fun hbool => hkind (hk.trans (congrArg some hbool))
  cases h with
  | scalar k => rw [Records.layOut?, hwidth k rfl]
  | two k =>
      rw [Records.layOut?, hwidth k rfl]
      rfl
  | three k =>
      rw [Records.layOut?, hwidth k rfl]
      rfl
  | four k =>
      rw [Records.layOut?, hwidth k rfl]
      rfl

/-- Nothing in a block is aligned to less than its size, up to sixteen bytes. -/
theorem stride_of_single {ty : Ty} {align size stride : Nat} (h : Single ty align size)
    (hnext : IsNext align 16 stride) :
    max align 16 = stride ∧ roundUp (max align 16) size = stride := by
  have hround := hnext.unique (isNext_roundUp (by decide : 0 < 16) align)
  rw [hround]
  cases h with
  | scalar k => cases k <;> decide
  | two k => cases k <;> decide
  | three k => cases k <;> decide
  | four k => cases k <;> decide

/-- What the compiler lays out for a member is aligned and sized by the rules. -/
theorem layOut?_of_takes {m : Member} {align size : Nat} (h : m.Takes align size)
    (hkind : (Ty.ofName? m.typeName).bind Ty.kind? ≠ some .bool) (rs : Records) (rounds : Nat) :
    ∃ ty laid, m.ty? = some ty ∧ rs.layOut? .wide rounds ty = some (laid, rs) ∧
      laid.extent = ⟨align, size⟩ := by
  cases h with
  | @single ty _ _ hnone hty hsingle =>
      rw [hty] at hkind
      refine ⟨ty, ⟨ty, ⟨align, size⟩⟩, ?_, layOut?_of_single hsingle hkind rs rounds, rfl⟩
      rw [Member.ty?, hty, hnone, Option.map_some]
  | @array ty n a s stride hsome hty hsingle hnext =>
      rw [hty] at hkind
      obtain ⟨halign, hstride⟩ := stride_of_single hsingle hnext
      rw [halign] at hstride
      refine ⟨.array ty (some n) 0, ⟨.array ty (some n) align, ⟨align, n * align⟩⟩, ?_, ?_, rfl⟩
      · rw [Member.ty?, hty, hsome, Option.map_some]
      · rw [Records.layOut?, layOut?_of_single hsingle hkind rs rounds, Option.map_some]
        simp only [Rule.floor, halign, hstride, Option.getD_some]

/-- The compiler obeys the rules: it makes a row of the members, and they begin in it where the
rules place them. -/
theorem placed_row (rs : Records) (rounds : Nat) {ms : List Member}
    (htakes : ∀ m ∈ ms, ∃ align size, m.Takes align size)
    (hkind : ∀ m ∈ ms, (Ty.ofName? m.typeName).bind Ty.kind? ≠ some .bool) :
    ∃ row, row? rs rounds ms = some row ∧
      Placed 0 ms (row.members.reverse.map (·.offset)) row.extent.size := by
  induction ms using List.reverseRecOn with
  | nil => exact ⟨{}, rfl, .nil 0⟩
  | append_singleton ms m ih =>
      obtain ⟨row, hrow, hplaced⟩ := ih
        (fun m hm => htakes m (List.mem_append_left _ hm))
        (fun m hm => hkind m (List.mem_append_left _ hm))
      have hm : m ∈ ms ++ [m] := List.mem_append_right _ (List.mem_singleton_self m)
      obtain ⟨align, size, hm'⟩ := htakes m hm
      obtain ⟨ty, laid, hty, hlaid, hextent⟩ := layOut?_of_takes hm' (hkind m hm) rs rounds
      refine ⟨row.add m.name laid, ?_, ?_⟩
      · rw [row?, List.foldlM_append, ← row?, hrow]
        simp [hty, hlaid]
      · have hnext := isNext_roundUp hm'.align_pos row.extent.size
        have hplace := hplaced.concat hm' hnext
        simpa [Row.add, hextent] using hplace

end Segue.Std140
