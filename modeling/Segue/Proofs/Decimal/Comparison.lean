import Mathlib
import Segue.Decimal.Numeral

/-!
# Floats in order

Comparing floats is comparing their ranks, which form a linear order. What is no number compares
with nothing.
-/

namespace Segue.Decimal.Comparison

open Float.Model Float.Model.UnpackedFloat

/-- Where a value stands: by its sign, then by the exponent, then by the digits. -/
def rank : UnpackedFloat → Int ×ₗ Int ×ₗ Int
  | .infinity .negative => toLex (-2, toLex (0, 0))
  | .finite .negative m e _ => toLex (-1, toLex (-e, -(m : Int)))
  -- neither zero is below the other
  | .zero _ | .notANumber => toLex (0, toLex (0, 0))
  | .finite .positive m e _ => toLex (1, toLex (e, (m : Int)))
  | .infinity .positive => toLex (2, toLex (0, 0))

theorem cmp_toLex {α β : Type} [LinearOrder α] [LinearOrder β] (a a' : α) (b b' : β) :
    cmp (toLex (a, b)) (toLex (a', b')) = (cmp a a').then (cmp b b') := by
  rcases lt_trichotomy a a' with ha | rfl | ha
  · rw [ha.cmp_eq_lt, (Prod.Lex.toLex_lt_toLex.mpr (.inl ha)).cmp_eq_lt]
    rfl
  · have hright : StrictMono fun b : β => toLex (a, b) :=
      fun _ _ h => Prod.Lex.toLex_lt_toLex.mpr (.inr ⟨rfl, h⟩)
    rw [cmp_self_eq_eq, Ordering.eq_then]
    exact hright.cmp_map_eq b b'
  · rw [ha.cmp_eq_gt, (Prod.Lex.toLex_lt_toLex.mpr (.inl ha)).cmp_eq_gt]
    rfl

theorem compare_positive {m m' : Nat} {e e' : Int} (h : 0 < m) (h' : 0 < m') :
    (UnpackedFloat.finite .positive m e h).compare (.finite .positive m' e' h') =
      some (cmp (rank (.finite .positive m e h)) (rank (.finite .positive m' e' h'))) := by
  have hdigits : cmp (m : Int) m' = cmp m m' := Nat.strictMono_cast.cmp_map_eq m m'
  rw [rank, rank, cmp_toLex, cmp_toLex, cmp_self_eq_eq, Ordering.eq_then, hdigits,
    cmp_eq_compare, cmp_eq_compare]
  rfl

theorem compare_negative {m m' : Nat} {e e' : Int} (h : 0 < m) (h' : 0 < m') :
    (UnpackedFloat.finite .negative m e h).compare (.finite .negative m' e' h') =
      some (cmp (rank (.finite .negative m e h)) (rank (.finite .negative m' e' h'))) := by
  have hneg (a b : Int) : cmp (-a) (-b) = (cmp a b).swap := by
    have hanti : StrictAnti fun n : Int => -n := fun _ _ h => neg_lt_neg h
    rw [cmp_swap]
    exact hanti.cmp_map_eq a b
  have hdigits : cmp (m : Int) m' = cmp m m' := Nat.strictMono_cast.cmp_map_eq m m'
  rw [rank, rank, cmp_toLex, cmp_toLex, cmp_self_eq_eq, Ordering.eq_then, hneg, hneg,
    ← Ordering.swap_then, hdigits, cmp_eq_compare, cmp_eq_compare]
  rfl

theorem compare_eq_cmp {a b : UnpackedFloat} (ha : a.isNaN = false) (hb : b.isNaN = false) :
    a.compare b = some (cmp (rank a) (rank b)) := by
  cases a with
  | notANumber => cases ha
  | infinity s =>
      cases b with
      | notANumber => cases hb
      | infinity t => cases s <;> cases t <;> rfl
      | zero t => cases s <;> rfl
      | finite t m e h => cases s <;> cases t <;> rfl
  | zero s =>
      cases b with
      | notANumber => cases hb
      | infinity t => cases t <;> rfl
      | zero t => rfl
      | finite t m e h => cases t <;> rfl
  | finite s m e h =>
      cases b with
      | notANumber => cases hb
      | infinity t => cases s <;> cases t <;> rfl
      | zero t => cases s <;> rfl
      | finite t m' e' h' =>
          cases s with
          | negative =>
              cases t with
              | negative => exact compare_negative h h'
              | positive => rfl
          | positive =>
              cases t with
              | negative => rfl
              | positive => exact compare_positive h h'

/-! ## Comparisons -/

variable {x y z : Float}

theorem lt_iff (hx : x.isNaN = false) (hy : y.isNaN = false) :
    x < y ↔ rank x.toModel.unpack < rank y.toModel.unpack := by
  have hunpacked : x < y ↔ x.toModel.unpack.lt y.toModel.unpack = true := decide_eq_true_iff
  rw [hunpacked, UnpackedFloat.lt, compare_eq_cmp hx hy, beq_iff_eq, Option.some_inj,
    cmp_eq_lt_iff]

theorem le_iff (hx : x.isNaN = false) (hy : y.isNaN = false) :
    x ≤ y ↔ rank x.toModel.unpack ≤ rank y.toModel.unpack := by
  have hunpacked : x ≤ y ↔ x.toModel.unpack.le y.toModel.unpack = true := decide_eq_true_iff
  rw [hunpacked, UnpackedFloat.le, compare_eq_cmp hx hy, Option.any_some, ← not_lt,
    ← cmp_eq_gt_iff]
  cases cmp (rank x.toModel.unpack) (rank y.toModel.unpack) <;> simp

theorem isNaN_of_le (h : x ≤ y) : x.isNaN = false ∧ y.isNaN = false := by
  have hunpacked : x.toModel.unpack.le y.toModel.unpack = true := of_decide_eq_true h
  have hx : x.isNaN = x.toModel.unpack.isNaN := rfl
  have hy : y.isNaN = y.toModel.unpack.isNaN := rfl
  rw [UnpackedFloat.le] at hunpacked
  rw [hx, hy]
  cases hu : x.toModel.unpack <;> cases hv : y.toModel.unpack <;>
    first | exact ⟨rfl, rfl⟩ | (rw [hu, hv] at hunpacked; cases hunpacked)

theorem isNaN_of_isFinite (h : x.isFinite = true) : x.isNaN = false := by
  have hunpacked {u : UnpackedFloat} (hu : u.isFinite = true) : u.isNaN = false := by
    cases u with
    | notANumber => cases hu
    | infinity s | zero s | finite s m e hm => rfl
  exact hunpacked h

theorem le_of_lt (h : x < y) : x ≤ y := by
  have hless : x.toModel.unpack.compare y.toModel.unpack = some .lt :=
    beq_iff_eq.mp (of_decide_eq_true h)
  have hunpacked : x.toModel.unpack.le y.toModel.unpack = true := by
    rw [UnpackedFloat.le, hless]
    rfl
  exact decide_eq_true_iff.mpr hunpacked

theorem not_lt_of_le (h : x ≤ y) : ¬y < x := by
  obtain ⟨hx, hy⟩ := isNaN_of_le h
  rw [lt_iff hy hx, not_lt]
  exact (le_iff hx hy).mp h

theorem le_of_not_lt (hx : x.isNaN = false) (hy : y.isNaN = false) (h : ¬y < x) : x ≤ y := by
  rw [lt_iff hy hx, not_lt] at h
  exact (le_iff hx hy).mpr h

theorem lt_of_lt_of_le (hx : x.isNaN = false) (h : x < y) (h' : y ≤ z) : x < z := by
  obtain ⟨hy, hz⟩ := isNaN_of_le h'
  rw [lt_iff hx hz]
  exact ((lt_iff hx hy).mp h).trans_le ((le_iff hy hz).mp h')

theorem isFinite_iff {u : UnpackedFloat} (h : u.isNaN = false) :
    u.isFinite = true ↔ -2 < (ofLex (rank u)).1 ∧ (ofLex (rank u)).1 < 2 := by
  cases u with
  | notANumber => cases h
  | infinity s => cases s <;> decide
  | zero s => cases s <;> decide
  | finite s m e hm => cases s <;> exact iff_of_true rfl (by simp [rank])

theorem lt_of_le_of_lt (hx : x.isNaN = false) (h : x ≤ y) (h' : y < z) : x < z := by
  obtain ⟨hy, hz⟩ := isNaN_of_le (le_of_lt h')
  rw [lt_iff hx hz]
  exact ((le_iff hx hy).mp h).trans_lt ((lt_iff hy hz).mp h')

/-- What lies between two finite values is finite. -/
theorem isFinite_of_between (hx : x.isFinite = true) (hz : z.isFinite = true) (h : x ≤ y)
    (h' : y ≤ z) : y.isFinite = true := by
  obtain ⟨hxn, hyn⟩ := isNaN_of_le h
  obtain ⟨-, hzn⟩ := isNaN_of_le h'
  have hlow := Prod.Lex.monotone_fst _ _ ((le_iff hxn hyn).mp h)
  have hhigh := Prod.Lex.monotone_fst _ _ ((le_iff hyn hzn).mp h')
  exact (isFinite_iff hyn).mpr ⟨((isFinite_iff hxn).mp hx).1.trans_le hlow,
    hhigh.trans_lt ((isFinite_iff hzn).mp hz).2⟩

end Segue.Decimal.Comparison
