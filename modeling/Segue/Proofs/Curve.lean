import Mathlib
import Segue.Curve
import Segue.Proofs.Timeline

/-!
# Curves in exact arithmetic

A coordinate of a curve is a Bernstein polynomial of degree 3. Its weights are the parts of one
whole, so that the curve stays between its control values. A curve read from its end to its
beginning is a curve again, and Newton's steps run on it as they do on the first one.
-/

namespace Segue

namespace Scalar

@[simp] theorem abs_rat (x : Rat) : abs x = |x| := by
  rcases lt_or_ge x 0 with h | h
  · exact (if_pos h).trans (abs_of_neg h).symm
  · exact (if_neg (not_lt.mpr h)).trans (abs_of_nonneg h).symm

end Scalar

open Scalar

namespace Curve

/-! ## Bernstein polynomials -/

/-- The polynomial of degree 3 with these control values. -/
def bernstein {R : Type} [CommRing R] (t a b c d : R) : R :=
  (1 - t) ^ 3 * a + 3 * (1 - t) ^ 2 * t * b + 3 * (1 - t) * t ^ 2 * c + t ^ 3 * d

@[simp] theorem cubic_rat (t a b c d : Rat) : cubic t a b c d = bernstein t a b c d := by
  simp only [cubic, bernstein]
  norm_num
  ring

@[simp] theorem bernstein_const {R : Type} [CommRing R] (t a : R) : bernstein t a a a a = a := by
  rw [bernstein]
  ring

theorem bernstein_mono {t a b c d a' b' c' d' : Rat} (hzero : 0 ≤ t) (hone : t ≤ 1) (ha : a ≤ a')
    (hb : b ≤ b') (hc : c ≤ c') (hd : d ≤ d') : bernstein t a b c d ≤ bernstein t a' b' c' d' := by
  have hrest : 0 ≤ 1 - t := sub_nonneg.mpr hone
  unfold bernstein
  gcongr

theorem clamp_mem (t : Rat) : 0 ≤ clamp t 0.0 1.0 ∧ clamp t 0.0 1.0 ≤ 1 := by
  rw [Timeline.clamp_rat]
  exact ⟨le_max_left _ _, max_le zero_le_one (min_le_right _ _)⟩

/-! ## The hull -/

def lowest (c : Curve Rat) : Rat := min (min c.p0.y c.c0.y) (min c.c1.y c.p1.y)

def highest (c : Curve Rat) : Rat := max (max c.p0.y c.c0.y) (max c.c1.y c.p1.y)

theorem isDiagonal_iff {c : Curve Rat} : c.isDiagonal = true ↔ ∀ p ∈ c.points, p.x = p.y := by
  simp [isDiagonal, same]

variable (c : Curve Rat) {x : Rat}

theorem lowest_le : ∀ p ∈ c.points, c.lowest ≤ p.y := by simp [points, lowest]

theorem le_highest : ∀ p ∈ c.points, p.y ≤ c.highest := by simp [points, highest]

/-- Wherever the search for the parameter ends, the clamped one leads into the hull. -/
theorem yAt_clamp_mem (t : Rat) :
    c.lowest ≤ c.yAt (clamp t 0.0 1.0) ∧ c.yAt (clamp t 0.0 1.0) ≤ c.highest := by
  obtain ⟨hzero, hone⟩ := clamp_mem t
  have hlow := c.lowest_le
  have hhigh := c.le_highest
  simp only [points, List.forall_mem_cons] at hlow hhigh
  rw [yAt, cubic_rat]
  constructor
  · rw [← bernstein_const (clamp t 0.0 1.0) c.lowest]
    exact bernstein_mono hzero hone hlow.1 hlow.2.1 hlow.2.2.1 hlow.2.2.2.1
  · rw [← bernstein_const (clamp t 0.0 1.0) c.highest]
    exact bernstein_mono hzero hone hhigh.1 hhigh.2.1 hhigh.2.2.1 hhigh.2.2.2.1

theorem valueAt_before (h : x ≤ c.p0.x) : c.valueAt x = c.p0.y := if_pos h

theorem valueAt_after (hbefore : c.p0.x < x) (h : c.p1.x ≤ x) : c.valueAt x = c.p1.y := by
  rw [valueAt, if_neg (not_le.mpr hbefore), if_pos h]

theorem valueAt_between (hbefore : c.p0.x < x) (hafter : x < c.p1.x) :
    c.valueAt x =
      if c.isDiagonal then x else c.yAt (clamp (c.solve x newtonSteps x) 0.0 1.0) := by
  rw [valueAt, if_neg (not_le.mpr hbefore), if_neg (not_le.mpr hafter)]

/-- Every value of a curve lies in the hull of its control values; the ends are met exactly, and
the diagonal gives what it is asked. -/
theorem valueAt_hull (x : Rat) :
    (c.lowest ≤ c.valueAt x ∧ c.valueAt x ≤ c.highest) ∧
      (x ≤ c.p0.x → c.valueAt x = c.p0.y) ∧
      (c.p0.x < c.p1.x → c.p1.x ≤ x → c.valueAt x = c.p1.y) ∧
      (c.p0.x < x → x < c.p1.x → (∀ p ∈ c.points, p.x = p.y) → c.valueAt x = x) := by
  have hdiagonal (hbefore : c.p0.x < x) (hafter : x < c.p1.x) (h : ∀ p ∈ c.points, p.x = p.y) :
      c.valueAt x = x := by
    rw [c.valueAt_between hbefore hafter, if_pos (isDiagonal_iff.mpr h)]
  refine ⟨?_, c.valueAt_before, fun hends h => c.valueAt_after (hends.trans_le h) h, hdiagonal⟩
  have hp0 : c.p0 ∈ c.points := List.mem_cons_self
  have hp1 : c.p1 ∈ c.points := by simp [points]
  rcases le_or_gt x c.p0.x with hbefore | hbefore
  · rw [c.valueAt_before hbefore]
    exact ⟨c.lowest_le _ hp0, c.le_highest _ hp0⟩
  rcases le_or_gt c.p1.x x with hafter | hafter
  · rw [c.valueAt_after hbefore hafter]
    exact ⟨c.lowest_le _ hp1, c.le_highest _ hp1⟩
  by_cases h : ∀ p ∈ c.points, p.x = p.y
  · rw [hdiagonal hbefore hafter h]
    constructor
    · exact (c.lowest_le _ hp0).trans ((h _ hp0).symm.le.trans hbefore.le)
    · exact hafter.le.trans ((h _ hp1).le.trans (c.le_highest _ hp1))
  · rw [c.valueAt_between hbefore hafter, if_neg (mt isDiagonal_iff.mp h)]
    exact c.yAt_clamp_mem _

theorem valueAt_hull_diagonal : valueAt (diagonal : Curve Rat) (-1) = 0 ∧
    valueAt (diagonal : Curve Rat) 2 = 1 ∧ valueAt (diagonal : Curve Rat) (1 / 4) = 1 / 4 := by
  have hends : (diagonal : Curve Rat).p0 = ⟨0, 0⟩ ∧ (diagonal : Curve Rat).p1 = ⟨1, 1⟩ := by
    norm_num [diagonal]
  have hdiagonal : ∀ p ∈ (diagonal : Curve Rat).points, p.x = p.y := by simp [points, diagonal]
  obtain ⟨hp0, hp1⟩ := hends
  have hbefore := (valueAt_hull diagonal (-1)).2.1
  have hafter := (valueAt_hull diagonal 2).2.2.1
  have hbetween := (valueAt_hull diagonal (1 / 4)).2.2.2
  rw [hp0] at hbefore
  rw [hp0, hp1] at hafter hbetween
  exact ⟨hbefore (by norm_num), hafter (by norm_num) (by norm_num),
    hbetween (by norm_num) (by norm_num) hdiagonal⟩

/-! ## Around a parameter -/

def lead : Rat := c.p1.x - 3 * c.c1.x + 3 * c.c0.x - c.p0.x

def bendAt (t : Rat) : Rat := 3 * (c.c1.x - 2 * c.c0.x + c.p0.x) + 3 * c.lead * t

theorem xSlopeAt_rat (t : Rat) :
    c.xSlopeAt t = 3 * (1 - t) ^ 2 * (c.c0.x - c.p0.x) + 6 * (1 - t) * t * (c.c1.x - c.c0.x) +
      3 * t ^ 2 * (c.p1.x - c.c1.x) := by
  simp only [xSlopeAt, cubicSlope]
  norm_num
  ring

theorem xAt_add (t s : Rat) :
    c.xAt (t + s) = c.xAt t + c.xSlopeAt t * s + c.bendAt t * s ^ 2 + c.lead * s ^ 3 := by
  rw [xAt, xAt, cubic_rat, cubic_rat, xSlopeAt_rat, bendAt, lead, bernstein, bernstein]
  ring

theorem xSlopeAt_add (t s : Rat) :
    c.xSlopeAt (t + s) = c.xSlopeAt t + 2 * c.bendAt t * s + 3 * c.lead * s ^ 2 := by
  rw [xSlopeAt_rat, xSlopeAt_rat, bendAt, lead]
  ring

theorem bendAt_add (t s : Rat) : c.bendAt (t + s) = c.bendAt t + 3 * c.lead * s := by
  rw [bendAt, bendAt]
  ring

/-! ## Newton's steps -/

/-- How far the curve is above `x`. -/
def gapAt (x t : Rat) : Rat := c.xAt t - x

theorem gapAt_add (x t s : Rat) : c.gapAt x (t + s) =
    c.gapAt x t + c.xSlopeAt t * s + c.bendAt t * s ^ 2 + c.lead * s ^ 3 := by
  rw [gapAt, gapAt, xAt_add]
  ring

def next (x t : Rat) : Rat := t - c.gapAt x t / c.xSlopeAt t

theorem solve_succ (n : Nat) (x t : Rat) :
    c.solve x (n + 1) t =
      if |c.xSlopeAt t| < 1 / 1000000 ∨ |c.gapAt x t| < 1 / 10000 then t
      else c.solve x n (c.next x t) := by
  have hflat : (1e-6 : Rat) = 1 / 1000000 := by norm_num
  have hnear : (1e-4 : Rat) = 1 / 10000 := by norm_num
  simp only [solve, abs_rat, hflat, hnear]
  rw [← gapAt, ← next]
  by_cases hslope : |c.xSlopeAt t| < 1 / 1000000
  · rw [if_pos hslope, if_pos (Or.inl hslope)]
  · rw [if_neg hslope]
    by_cases hgap : |c.gapAt x t| < 1 / 10000
    · rw [if_pos hgap, if_pos (Or.inr hgap)]
    · rw [if_neg hgap, if_neg (not_or.mpr ⟨hslope, hgap⟩)]

/-- A step cancels the linear part. -/
theorem gapAt_next {t : Rat} (h : c.xSlopeAt t ≠ 0) :
    c.gapAt x (c.next x t) =
      (c.bendAt t - c.lead * (c.gapAt x t / c.xSlopeAt t)) * (c.gapAt x t / c.xSlopeAt t) ^ 2 := by
  have hstep : c.xSlopeAt t * (c.gapAt x t / c.xSlopeAt t) = c.gapAt x t := mul_div_cancel₀ _ h
  rw [next, sub_eq_add_neg t, gapAt_add]
  linear_combination -hstep

/-! ## Backwards -/

def backwards : Curve Rat where
  p0 := ⟨1 - c.p1.x, 1 - c.p1.y⟩
  c0 := ⟨1 - c.c1.x, 1 - c.c1.y⟩
  c1 := ⟨1 - c.c0.x, 1 - c.c0.y⟩
  p1 := ⟨1 - c.p0.x, 1 - c.p0.y⟩

@[simp] theorem xAt_backwards (t : Rat) : c.backwards.xAt t = 1 - c.xAt (1 - t) := by
  simp only [xAt, cubic_rat, backwards, bernstein]
  ring

@[simp] theorem xSlopeAt_backwards (t : Rat) : c.backwards.xSlopeAt t = c.xSlopeAt (1 - t) := by
  simp only [xSlopeAt_rat, backwards]
  ring

@[simp] theorem lead_backwards : c.backwards.lead = c.lead := by
  simp only [lead, backwards]
  ring

@[simp] theorem bendAt_backwards (t : Rat) : c.backwards.bendAt t = -c.bendAt (1 - t) := by
  rw [bendAt, bendAt, lead_backwards]
  simp only [backwards, lead]
  ring

theorem gapAt_backwards (x t : Rat) : c.backwards.gapAt (1 - x) t = -c.gapAt x (1 - t) := by
  rw [gapAt, gapAt, xAt_backwards]
  ring

theorem next_backwards (x t : Rat) : c.backwards.next (1 - x) t = 1 - c.next x (1 - t) := by
  rw [next, next, gapAt_backwards, xSlopeAt_backwards, neg_div]
  ring

theorem solve_backwards (n : Nat) (x t : Rat) :
    c.backwards.solve (1 - x) n t = 1 - c.solve x n (1 - t) := by
  induction n generalizing t with
  | zero => exact (sub_sub_cancel 1 t).symm
  | succ n ih =>
      rw [solve_succ, solve_succ, gapAt_backwards, xSlopeAt_backwards, abs_neg]
      split
      · exact (sub_sub_cancel 1 t).symm
      · rw [ih, next_backwards, sub_sub_cancel]

end Curve

end Segue
