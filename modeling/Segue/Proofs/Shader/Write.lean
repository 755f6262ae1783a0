import Segue.Proofs.Keyed
import Segue.Proofs.Shader.Buffer
import Segue.Proofs.Shader.Layout

/-!
# Writing uniforms to the parameter block

Each component of a parameter has four bytes of its own, and these places follow one another in the
block. So a write changes the components that it has values for and nothing else, and a write on top
of another one is a write of both tables at once.
-/

namespace Segue

namespace UniformValue

/-- A component of a value, if it has that many; a flag and a number have one. -/
def component? (v : UniformValue Float) (i : Nat) : Option Float :=
  match v with
  | .flag b => if i = 0 then some (if b then 1.0 else 0.0) else none
  | .scalar x => if i = 0 then some (Decimal.toSingle x) else none
  | .vector xs => xs[i]?.map Decimal.toSingle

theorem take_append_zeros (given : List Float) (n : Nat) :
    given.take n ++ List.replicate (n - given.length) 0.0 =
      (List.range n).map fun i => given[i]?.getD 0.0 := by
  refine List.ext_getElem? fun i => ?_
  rw [List.getElem?_append, List.getElem?_map, List.length_take]
  rcases Nat.lt_or_ge i n with hn | hn
  · rw [List.getElem?_range hn, Option.map_some]
    rcases Nat.lt_or_ge i given.length with hgiven | hgiven
    · rw [if_pos (Nat.lt_min.mpr ⟨hn, hgiven⟩), List.getElem?_take_of_lt hn,
        List.getElem?_eq_getElem hgiven, Option.getD_some]
    · rw [if_neg (by omega), List.getElem?_replicate_of_lt (by omega),
        List.getElem?_eq_none hgiven, Option.getD_none]
  · have hout : ¬ i < min n given.length := by omega
    have hzeros : n - given.length ≤ i - min n given.length := by omega
    rw [if_neg hout, List.getElem?_eq_none (by simpa using hzeros),
      List.getElem?_eq_none (by simpa using hn)]
    rfl

theorem components_eq (v : UniformValue Float) (n : Nat) :
    v.components n = (List.range n).map fun i => (v.component? i).getD 0.0 := by
  have hone : ∀ (x : Float) (i : Nat), [x][i]? = if i = 0 then some x else none := by
    intro x i
    cases i <;> rfl
  cases v with
  | flag b =>
      simp only [components, take_append_zeros, single?, Option.toList_some, hone, component?]
  | scalar x =>
      simp only [components, take_append_zeros, single?, Option.toList_some, hone, component?]
  | vector xs => simp only [components, take_append_zeros, List.getElem?_map, component?]

end UniformValue

namespace Shader

namespace ParamField

/-- The first byte of a component of an element. -/
def place (f : ParamField) (element component : Nat) : Nat :=
  f.offset + element * 16 + component * 4

/-- The byte belongs to a component of the field; any other byte of the block is padding. -/
def Holds (f : ParamField) (i : Nat) : Prop :=
  ∃ element < f.arrayLength.getD 1, ∃ component < f.kind.components,
    f.place element component ≤ i ∧ i < f.place element component + 4

def count (f : ParamField) : Nat := f.kind.components * f.arrayLength.getD 1

def slot (f : ParamField) (i : Nat) : Nat := f.place (i / f.kind.components) (i % f.kind.components)

variable {f : ParamField} {i j : Nat}

end ParamField

namespace ParamLayout

/-- The word for a component, if the table has a value for its field. -/
def word? (u : Uniforms Float) (k : ParamField × Nat) : Option UInt32 :=
  (u.get? k.1.name).map fun v => componentWord k.1.kind ((v.component? k.2).getD 0.0)

/-- All components of all fields in their order. -/
def components (l : ParamLayout) : List (ParamField × Nat) :=
  l.fields.flatMap fun f => (List.range f.count).map fun i => (f, i)

theorem slots_eq (f : ParamField) (v : UniformValue Float) :
    slots f v = (List.range f.count).map fun i =>
      (f.slot i, componentWord f.kind ((v.component? i).getD 0.0)) := by
  refine List.ext_getElem? fun i => ?_
  have hvalues := v.components_eq f.count
  rw [slots, ← ParamField.count, hvalues, List.getElem?_map, List.getElem?_zipIdx,
    List.getElem?_map, List.getElem?_map, Nat.zero_add]
  rcases Nat.lt_or_ge i f.count with hi | hi
  · rw [List.getElem?_range hi]
    rfl
  · rw [List.getElem?_eq_none (by simpa using hi)]
    rfl

end ParamLayout

end Shader

end Segue
