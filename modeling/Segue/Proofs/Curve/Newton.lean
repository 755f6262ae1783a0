import Segue.Proofs.Curve

/-!
# How Newton's steps come near

Steps from above a convex stretch, or from below a concave one, never cross the solution, and each
leaves a fixed part of the height at most. Steps across a turning point are few, or it is steep
there.
-/

namespace Segue.Curve

open Scalar

/-- Ends at 0 and 1, and control points between them. -/
structure Forward (c : Curve Rat) : Prop where
  p0 : c.p0.x = 0
  p1 : c.p1.x = 1
  c0_nonneg : 0 ≤ c.c0.x
  c0_le : c.c0.x ≤ 1
  c1_nonneg : 0 ≤ c.c1.x
  c1_le : c.c1.x ≤ 1

variable {c : Curve Rat} {x t : Rat}

namespace Forward

variable (h : c.Forward)

include h

theorem backwards : c.backwards.Forward where
  p0 := by simp [Curve.backwards, h.p1]
  p1 := by simp [Curve.backwards, h.p0]
  c0_nonneg := sub_nonneg.mpr h.c1_le
  c0_le := sub_le_self 1 h.c1_nonneg
  c1_nonneg := sub_nonneg.mpr h.c0_le
  c1_le := sub_le_self 1 h.c0_nonneg

theorem xAt_eq (t : Rat) :
    c.xAt t = 3 * (1 - t) ^ 2 * t * c.c0.x + 3 * (1 - t) * t ^ 2 * c.c1.x + t ^ 3 := by
  rw [xAt, cubic_rat, bernstein, h.p0, h.p1]
  ring

theorem xSlopeAt_eq (t : Rat) :
    c.xSlopeAt t = 3 * (1 - t) ^ 2 * c.c0.x + 6 * (1 - t) * t * (c.c1.x - c.c0.x) +
      3 * t ^ 2 * (1 - c.c1.x) := by
  rw [xSlopeAt_rat, h.p0, h.p1, sub_zero]

theorem lead_eq : c.lead = 1 + 3 * c.c0.x - 3 * c.c1.x := by
  rw [lead, h.p0, h.p1]
  ring

theorem lead_le : c.lead ≤ 4 := by
  rw [h.lead_eq]
  linarith [h.c0_le, h.c1_nonneg]

theorem bendAt_eq (t : Rat) : c.bendAt t = 3 * (c.c1.x - 2 * c.c0.x) + 3 * c.lead * t := by
  rw [bendAt, h.p0, add_zero]

theorem xSlopeAt_nonneg (hzero : 0 ≤ t) (hone : t ≤ 1) : 0 ≤ c.xSlopeAt t := by
  have ha := sub_nonneg.mpr h.c0_le
  have hb := sub_nonneg.mpr h.c1_le
  have ht := sub_nonneg.mpr hone
  have heq : c.xSlopeAt t = 3 * ((1 - c.c0.x) * (1 - c.c1.x) * t ^ 2 +
      c.c0.x * (1 - c.c1.x) * (1 - 2 * t) ^ 2 + (1 - c.c0.x) * c.c1.x * (2 * ((1 - t) * t)) +
      c.c0.x * c.c1.x * (1 - t) ^ 2) := by
    rw [h.xSlopeAt_eq]
    ring
  have hc0 := h.c0_nonneg
  have hc1 := h.c1_nonneg
  rw [heq]
  positivity

@[simp] theorem xAt_zero : c.xAt 0 = 0 := by
  rw [h.xAt_eq]
  ring

@[simp] theorem xAt_one : c.xAt 1 = 1 := by
  rw [h.xAt_eq]
  ring

theorem xAt_mem (hzero : 0 ≤ t) (hone : t ≤ 1) : 0 ≤ c.xAt t ∧ c.xAt t ≤ 1 := by
  rw [xAt, cubic_rat, h.p0, h.p1]
  have hlow := bernstein_mono hzero hone (le_refl 0) h.c0_nonneg h.c1_nonneg zero_le_one
  have hhigh := bernstein_mono hzero hone zero_le_one h.c0_le h.c1_le (le_refl 1)
  rw [bernstein_const] at hlow hhigh
  exact ⟨hlow, hhigh⟩

/-- The slope at the end, as the expansion around `t` has it. -/
theorem xSlopeAt_end (t : Rat) :
    0 ≤ c.xSlopeAt t + 2 * c.bendAt t * (1 - t) + 3 * c.lead * (1 - t) ^ 2 := by
  have hend := h.xSlopeAt_nonneg zero_le_one le_rfl
  rwa [← add_sub_cancel t 1, xSlopeAt_add] at hend

end Forward

/-! ## The search -/

/-- The parameter, once it is clamped, is near enough. -/
def Meets (c : Curve Rat) (x t : Rat) : Prop := |c.gapAt x (clamp t 0.0 1.0)| < 1 / 10000

/-- Within `n` steps from `t` the search comes near enough. -/
def Settles (c : Curve Rat) (x : Rat) (n : Nat) (t : Rat) : Prop := c.Meets x (c.solve x n t)

theorem meets_of_mem (hzero : 0 ≤ t) (hone : t ≤ 1) (h : |c.gapAt x t| < 1 / 10000) :
    c.Meets x t := by
  rwa [Meets, Timeline.clamp_rat, min_eq_left hone, max_eq_right hzero]

/-- Before the beginning it is enough if the curve is lower there. -/
theorem meets_of_neg (ht : t ≤ 0) (hx : c.gapAt x 0 ≤ 0) (hlow : c.gapAt x t ≤ c.gapAt x 0)
    (h : |c.gapAt x t| < 1 / 10000) : c.Meets x t := by
  rw [Meets, Timeline.clamp_rat, max_eq_left (min_le_of_left_le ht), abs_of_nonpos hx]
  rw [abs_of_nonpos (hlow.trans hx)] at h
  linarith

/-- Behind the end it is enough if the curve is higher there. -/
theorem meets_of_gt (ht : 1 ≤ t) (hx : 0 ≤ c.gapAt x 1) (hhigh : c.gapAt x 1 ≤ c.gapAt x t)
    (h : |c.gapAt x t| < 1 / 10000) : c.Meets x t := by
  rw [Meets, Timeline.clamp_rat, min_eq_right ht, max_eq_right zero_le_one, abs_of_nonneg hx]
  rw [abs_of_nonneg (hx.trans hhigh)] at h
  linarith

theorem settles_of_meets (h : c.Meets x t)
    (hstop : |c.xSlopeAt t| < 1 / 1000000 ∨ |c.gapAt x t| < 1 / 10000) (n : Nat) :
    c.Settles x n t := by
  cases n with
  | zero => exact h
  | succ n =>
      rw [Settles, solve_succ, if_pos hstop]
      exact h

/-- One step: the search may stop where the curve is flat or near enough, or it goes on. -/
theorem settles_succ {n : Nat} (hflat : |c.xSlopeAt t| < 1 / 1000000 → c.Meets x t)
    (hnear : |c.gapAt x t| < 1 / 10000 → c.Meets x t)
    (hnext : 1 / 1000000 ≤ |c.xSlopeAt t| → 1 / 10000 ≤ |c.gapAt x t| →
      c.Settles x n (c.next x t)) :
    c.Settles x (n + 1) t := by
  rw [Settles, solve_succ]
  split
  · rename_i hstop
    exact hstop.elim hflat hnear
  · rename_i hgo
    rw [not_or, not_lt, not_lt] at hgo
    exact hnext hgo.1 hgo.2

/-- One step that is no longer than 100: where the curve is so flat that the search stops, it is near
enough. -/
theorem settles_short {n : Nat} (hslope : 0 ≤ c.xSlopeAt t)
    (hshort : |c.gapAt x t| ≤ 100 * c.xSlopeAt t)
    (hmeets : |c.gapAt x t| < 1 / 10000 → c.Meets x t)
    (hnext : 0 < c.xSlopeAt t → c.Settles x n (c.next x t)) : c.Settles x (n + 1) t := by
  refine settles_succ ?_ hmeets ?_
  · intro hflat
    rw [abs_of_nonneg hslope] at hflat
    exact hmeets (by linarith)
  · intro hsteep _
    rw [abs_of_nonneg hslope] at hsteep
    exact hnext (by linarith)

theorem meets_backwards : c.backwards.Meets (1 - x) (1 - t) ↔ c.Meets x t := by
  have hclamp : clamp (1 - t) 0.0 1.0 = 1 - clamp t 0.0 1.0 := by
    rw [Timeline.clamp_rat, Timeline.clamp_rat]
    rcases le_total t 0 with hzero | hzero
    · rw [min_eq_right (by linarith), min_eq_left (hzero.trans zero_le_one), max_eq_left hzero,
        max_eq_right zero_le_one, sub_zero]
    · rcases le_total t 1 with hone | hone
      · rw [min_eq_left (by linarith), min_eq_left hone, max_eq_right hzero,
          max_eq_right (by linarith)]
      · rw [min_eq_left (by linarith), min_eq_right hone, max_eq_left (by linarith),
          max_eq_right zero_le_one, sub_self]
  rw [Meets, Meets, hclamp, gapAt_backwards, sub_sub_cancel, abs_neg]

theorem settles_backwards {n : Nat} : c.backwards.Settles (1 - x) n (1 - t) ↔ c.Settles x n t := by
  rw [Settles, Settles, solve_backwards, sub_sub_cancel, meets_backwards]

/-! ## Where the curve ascends and bends upwards -/

/-- From `o` on the curve ascends and bends upwards, and it is not above `x` there. -/
structure Rises (c : Curve Rat) (x o : Rat) : Prop where
  lead : 0 ≤ c.lead
  bend : 0 ≤ c.bendAt o
  slope : 0 ≤ c.xSlopeAt o
  gap : c.gapAt x o ≤ 0

/-- A step forward from below `x` that is no longer than `way`. -/
theorem next_forward (way : Rat) {bend : Rat} (hgap : c.gapAt x t ≤ 0) (hslope : 0 < c.xSlopeAt t)
    (hway : -c.gapAt x t ≤ way * c.xSlopeAt t) (hlead : 0 ≤ c.lead) (hbend : c.bendAt t ≤ bend)
    (hbend' : 0 ≤ bend) :
    t ≤ c.next x t ∧ c.next x t ≤ t + way ∧
      c.gapAt x (c.next x t) ≤ (bend + c.lead * way) * way ^ 2 := by
  have hδ : c.gapAt x t / c.xSlopeAt t ≤ 0 := div_nonpos_of_nonpos_of_nonneg hgap hslope.le
  have hδ' : -way ≤ c.gapAt x t / c.xSlopeAt t := by
    rw [le_div_iff₀ hslope]
    linarith
  rw [c.gapAt_next hslope.ne', next]
  generalize c.gapAt x t / c.xSlopeAt t = δ at hδ hδ' ⊢
  refine ⟨by linarith, by linarith, ?_⟩
  have hfactor : c.bendAt t - c.lead * δ ≤ bend + c.lead * way := by
    linarith [mul_le_mul_of_nonneg_left hδ' hlead]
  have hsquare : δ ^ 2 ≤ way ^ 2 := by nlinarith
  have hway' : 0 ≤ c.lead * way := mul_nonneg hlead (by linarith)
  exact mul_le_mul hfactor hsquare (sq_nonneg δ) (by linarith)

/-- A step down a convex cubic leaves at most a third of its height. -/
theorem step_third {p q k d s δ : Rat} (hp : 0 ≤ p) (hq : 0 ≤ q) (hk : 0 ≤ k) (hd : 0 ≤ d)
    (hs : 0 ≤ s) (hδ : 0 ≤ δ) (hslope : 0 < p + 2 * q * s + 3 * k * s ^ 2)
    (hstep : (p + 2 * q * s + 3 * k * s ^ 2) * δ = p * s + q * s ^ 2 + k * s ^ 3 - d) :
    δ ≤ s ∧ 3 * ((q + 3 * k * s - k * δ) * δ) ≤ p + 2 * q * s + 3 * k * s ^ 2 := by
  have hle : δ ≤ s := by
    refine le_of_mul_le_mul_left ?_ hslope
    have hqs : 0 ≤ q * s ^ 2 := by positivity
    have hks : 0 ≤ k * s ^ 3 := by positivity
    linarith
  refine ⟨hle, ?_⟩
  have hquad : 0 ≤ q * (s ^ 2 - 3 * s * δ + 3 * δ ^ 2) :=
    mul_nonneg hq (by nlinarith [sq_nonneg (2 * s - 3 * δ), sq_nonneg δ])
  have hcubic : 0 ≤ k * ((s - 2 * δ) ^ 2 * (2 * s - δ) + δ ^ 3) := by
    have hrest : 0 ≤ 2 * s - δ := by linarith
    positivity
  rcases hle.eq_or_lt with rfl | hlt
  · -- the curve is a line from `o` on
    have hqs : 0 ≤ q * δ ^ 2 := by positivity
    have hks : 0 ≤ k * δ ^ 3 := by positivity
    rcases hδ.eq_or_lt with rfl | hpos
    · simpa using hp
    · have hqzero : q * δ ^ 2 = 0 := by linarith
      have hkzero : k * δ ^ 3 = 0 := by linarith
      obtain rfl : q = 0 := (mul_eq_zero.mp hqzero).resolve_right (by positivity)
      obtain rfl : k = 0 := (mul_eq_zero.mp hkzero).resolve_right (by positivity)
      simpa using hp
  · refine le_of_mul_le_mul_left ?_ (sub_pos.mpr hlt)
    linarith

namespace Rises

variable {o : Rat} (h : c.Rises x o)

include h

theorem slope_nonneg (ht : o ≤ t) : 0 ≤ c.xSlopeAt t := by
  obtain ⟨s, rfl⟩ : ∃ s, t = o + s := ⟨t - o, by ring⟩
  have hs : 0 ≤ s := by linarith
  have hbend := mul_nonneg h.bend hs
  have hlead := mul_nonneg h.lead (sq_nonneg s)
  rw [xSlopeAt_add]
  linarith [h.slope]

theorem bend_nonneg (ht : o ≤ t) : 0 ≤ c.bendAt t := by
  obtain ⟨s, rfl⟩ : ∃ s, t = o + s := ⟨t - o, by ring⟩
  have hlead := mul_nonneg h.lead (by linarith : 0 ≤ s)
  rw [bendAt_add]
  linarith [h.bend]

theorem gap_mono {t' : Rat} (ht : o ≤ t) (htt' : t ≤ t') : c.gapAt x t ≤ c.gapAt x t' := by
  obtain ⟨s, rfl⟩ : ∃ s, t' = t + s := ⟨t' - t, by ring⟩
  have hs : 0 ≤ s := by linarith
  rw [gapAt_add]
  linarith [mul_nonneg (h.slope_nonneg ht) hs, mul_nonneg (h.bend_nonneg ht) (sq_nonneg s),
    mul_nonneg h.lead (pow_nonneg hs 3)]

theorem gap_le (ht : o ≤ t) : c.gapAt x t ≤ c.xSlopeAt t * (t - o) := by
  obtain ⟨s, rfl⟩ : ∃ s, t = o + s := ⟨t - o, by ring⟩
  have hs : 0 ≤ s := by linarith
  have hbend := mul_nonneg h.bend (sq_nonneg s)
  have hlead := mul_nonneg h.lead (pow_nonneg hs 3)
  rw [gapAt_add, xSlopeAt_add, add_sub_cancel_left]
  linarith [h.gap]

theorem step (ht : o ≤ t) (hgap : 0 ≤ c.gapAt x t) (hslope : 0 < c.xSlopeAt t) :
    o ≤ c.next x t ∧ c.next x t ≤ t ∧ 0 ≤ c.gapAt x (c.next x t) ∧
      3 * c.gapAt x (c.next x t) ≤ c.gapAt x t := by
  have hδ : 0 ≤ c.gapAt x t / c.xSlopeAt t := div_nonneg hgap hslope.le
  have hstep : c.xSlopeAt t * (c.gapAt x t / c.xSlopeAt t) = c.gapAt x t :=
    mul_div_cancel₀ _ hslope.ne'
  rw [c.gapAt_next hslope.ne', next]
  generalize c.gapAt x t / c.xSlopeAt t = δ at hδ hstep ⊢
  obtain ⟨s, rfl⟩ : ∃ s, t = o + s := ⟨t - o, by ring⟩
  have hs : 0 ≤ s := by linarith
  have heq := hstep
  rw [xSlopeAt_add, gapAt_add] at heq
  rw [xSlopeAt_add] at hslope
  obtain ⟨hle, hthird⟩ := step_third h.slope h.bend h.lead (neg_nonneg.mpr h.gap) hs hδ hslope
    (by linarith)
  have hfactor : 0 ≤ c.bendAt o + 3 * c.lead * s - c.lead * δ := by
    linarith [h.bend, mul_nonneg h.lead hs, mul_le_mul_of_nonneg_left hle h.lead]
  rw [bendAt_add]
  refine ⟨by linarith, by linarith, mul_nonneg hfactor (sq_nonneg δ), ?_⟩
  have hscaled := mul_le_mul_of_nonneg_right hthird hδ
  rw [← xSlopeAt_add, hstep] at hscaled
  linarith

theorem overshoot (ht : o ≤ t) (hgap : c.gapAt x t ≤ 0) (hslope : 0 < c.xSlopeAt t) :
    0 ≤ c.gapAt x (c.next x t) := by
  have hδ : c.gapAt x t / c.xSlopeAt t ≤ 0 := div_nonpos_of_nonpos_of_nonneg hgap hslope.le
  have hlead := mul_nonneg h.lead (neg_nonneg.mpr hδ)
  rw [c.gapAt_next hslope.ne']
  exact mul_nonneg (by linarith [h.bend_nonneg ht]) (sq_nonneg _)

section

variable (hc : c.Forward) (hzero : 0 ≤ o) (hone : o ≤ 1) (hx : x ≤ 1)

include hc hzero hone hx

theorem meets (ht : o ≤ t) (hgap : 0 ≤ c.gapAt x t) (hnear : c.gapAt x t < 1 / 10000) :
    c.Meets x t := by
  have habs : |c.gapAt x t| < 1 / 10000 := by rwa [abs_of_nonneg hgap]
  rcases le_total t 1 with hend | hend
  · exact meets_of_mem (hzero.trans ht) hend habs
  · refine meets_of_gt hend ?_ (h.gap_mono hone hend) habs
    rw [gapAt, hc.xAt_one]
    exact sub_nonneg.mpr hx

theorem settles (n : Nat) : ∀ {t : Rat}, o ≤ t → t ≤ o + 100 → 0 ≤ c.gapAt x t →
    c.gapAt x t < 3 ^ n / 10000 → c.Settles x n t := by
  induction n with
  | zero =>
      intro t ht _ hgap hnear
      rw [pow_zero] at hnear
      exact h.meets hc hzero hone hx ht hgap hnear
  | succ n ih =>
      intro t ht hfar hgap hheight
      have hslope := h.slope_nonneg ht
      -- the height is no more than the slope times the way back to `o`
      have hway := mul_le_mul_of_nonneg_left (by linarith : t - o ≤ 100) hslope
      have habs : |c.gapAt x t| = c.gapAt x t := abs_of_nonneg hgap
      refine settles_short hslope ?_ ?_ fun hpos => ?_
      · linarith [h.gap_le ht]
      · intro hnear
        rw [habs] at hnear
        exact h.meets hc hzero hone hx ht hgap hnear
      · obtain ⟨hbehind, hback, hgap', hthird⟩ := h.step ht hgap hpos
        refine ih hbehind (by linarith) hgap' ?_
        rw [pow_succ] at hheight
        linarith

/-- A first step of at most 30 leads to a height that the other nineteen steps take off. -/
theorem settles_start (hox : o ≤ x) (hshort : |c.gapAt x x| ≤ 30 * c.xSlopeAt x) :
    c.Settles x 20 x := by
  have hx0 : 0 ≤ x := hzero.trans hox
  rcases le_or_gt 0 (c.gapAt x x) with hgap | hgap
  · refine h.settles hc hzero hone hx 20 hox (by linarith) hgap ?_
    have hle := (hc.xAt_mem hx0 hx).2
    rw [gapAt]
    norm_num
    linarith
  · have hslope := h.slope_nonneg hox
    refine settles_short hslope (by linarith) (meets_of_mem hx0 hx) fun hpos => ?_
    rw [abs_of_neg hgap] at hshort
    have hbend : c.bendAt x ≤ 6 := by
      have hmul := mul_le_mul_of_nonneg_left hx h.lead
      have heq := hc.lead_eq
      rw [hc.bendAt_eq]
      linarith [hc.c0_le, hc.c1_nonneg]
    obtain ⟨hle, hle', hgap'⟩ := next_forward 30 hgap.le hpos hshort h.lead hbend (by norm_num)
    refine h.settles hc hzero hone hx 19 (hox.trans hle) (by linarith)
      (h.overshoot hox hgap.le hpos) ?_
    norm_num at hgap' ⊢
    linarith [hc.lead_le]

end

end Rises

/-! ## Across the turning point -/

/-- The curve turns at `o` from bending downwards to bending upwards, and the solution is not far
behind for the slope there. -/
structure Turns (c : Curve Rat) (x o : Rat) : Prop extends Rises c x o where
  turn : c.bendAt o = 0
  near : -c.gapAt x o ≤ 2 / 3 * c.xSlopeAt o
  zero_le : 0 ≤ o
  le_one : o ≤ 1

namespace Turns

variable {o : Rat} (h : c.Turns x o) (hc : c.Forward) (hx : x ≤ 1)

include h

theorem slope_eq (s : Rat) : c.xSlopeAt (o + s) = c.xSlopeAt o + 3 * c.lead * s ^ 2 := by
  rw [xSlopeAt_add, h.turn]
  ring

theorem gap_eq (s : Rat) :
    c.gapAt x (o + s) = c.gapAt x o + c.xSlopeAt o * s + c.lead * s ^ 3 := by
  rw [gapAt_add, h.turn]
  ring

theorem slope_le (s : Rat) : c.xSlopeAt o ≤ c.xSlopeAt (o + s) := by
  rw [h.slope_eq]
  linarith [mul_nonneg h.lead (sq_nonneg s)]

theorem slope_behind (u : Rat) :
    c.xSlopeAt (o - u) = c.xSlopeAt o + 3 * c.lead * u ^ 2 := by
  rw [sub_eq_add_neg, h.slope_eq, neg_sq]

theorem gap_behind (u : Rat) :
    c.gapAt x (o - u) = c.gapAt x o - c.xSlopeAt o * u - c.lead * u ^ 3 := by
  rw [sub_eq_add_neg, h.gap_eq]
  ring

theorem gap_behind_mem {u : Rat} (hu : 0 ≤ u) (hu' : u ≤ 1 / 6) :
    c.gapAt x (o - u) ≤ 0 ∧ -c.gapAt x (o - u) ≤ c.xSlopeAt (o - u) := by
  have hmu := mul_nonneg h.slope hu
  have hmu' := mul_le_mul_of_nonneg_left hu' h.slope
  have hku := mul_nonneg h.lead (pow_nonneg hu 3)
  have hku' := mul_le_mul_of_nonneg_left hu' (mul_nonneg h.lead (sq_nonneg u))
  rw [h.gap_behind, h.slope_behind]
  constructor
  · linarith [h.gap]
  · linarith [h.near, h.slope, mul_nonneg h.lead (sq_nonneg u)]

include hc

/-- From before the turning point a step leads beyond it or takes a third of the way off. -/
theorem step_behind {u : Rat} (hu : 0 ≤ u) (hu' : u ≤ 1 / 6) (hpos : 0 < c.xSlopeAt (o - u)) :
    (∃ s, c.next x (o - u) = o + s ∧ 0 ≤ s ∧ s ≤ 2 / 3 ∧ c.gapAt x (o + s) ≤ 4) ∨
      ∃ v, c.next x (o - u) = o - v ∧ 0 ≤ v ∧ v ≤ 2 / 3 * u ∧
        |c.gapAt x (o - v)| ≤ 2 * c.lead * u ^ 3 := by
  have hgap := h.gap_behind u
  have hslope := h.slope_behind u
  have hbend := c.bendAt_add o (-u)
  rw [h.turn, ← sub_eq_add_neg] at hbend
  have hk := h.lead
  have hku := mul_nonneg hk (sq_nonneg u)
  have hku' := mul_nonneg hk (pow_nonneg hu 3)
  have hstep : c.xSlopeAt (o - u) * (c.gapAt x (o - u) / c.xSlopeAt (o - u)) = c.gapAt x (o - u) :=
    mul_div_cancel₀ _ hpos.ne'
  obtain ⟨hbelow, hreach⟩ := h.gap_behind_mem hu hu'
  rcases le_or_gt (c.gapAt x (o - u) / c.xSlopeAt (o - u)) (-u) with hfar | hfar
  · left
    have hnext : c.next x (o - u) = o + (-u - c.gapAt x (o - u) / c.xSlopeAt (o - u)) := by
      rw [next]
      ring
    refine ⟨_, hnext, by linarith, ?_, ?_⟩
    · refine le_of_mul_le_mul_left ?_ hpos
      rw [mul_sub, hstep, hgap, hslope]
      linarith [h.near]
    · obtain ⟨-, -, hheight⟩ := next_forward 1 hbelow hpos (by linarith) hk
        (by linarith [mul_nonneg hk hu] : c.bendAt (o - u) ≤ 0) le_rfl
      rw [← hnext]
      linarith [hc.lead_le]
  · right
    have hnext : c.next x (o - u) = o - (u + c.gapAt x (o - u) / c.xSlopeAt (o - u)) := by
      rw [next]
      ring
    refine ⟨_, hnext, by linarith, ?_, ?_⟩
    · refine le_of_mul_le_mul_left ?_ hpos
      rw [mul_add, hstep, hgap, hslope]
      linarith [h.gap, mul_nonneg h.slope hu]
    · rw [← hnext, c.gapAt_next hpos.ne', hbend]
      have hδ : c.gapAt x (o - u) / c.xSlopeAt (o - u) ≤ 0 :=
        div_nonpos_of_nonpos_of_nonneg hbelow hpos.le
      generalize c.gapAt x (o - u) / c.xSlopeAt (o - u) = δ at hfar hδ
      have hsquare : δ ^ 2 ≤ u ^ 2 := by nlinarith
      have hcube : (3 * u + δ) * δ ^ 2 ≤ 2 * u ^ 3 := by
        have hrest : 0 ≤ 2 * u ^ 2 - 2 * u * δ - δ ^ 2 := by nlinarith
        linarith [mul_nonneg (by linarith : 0 ≤ u + δ) hrest]
      have hnonneg : 0 ≤ (3 * u + δ) * δ ^ 2 := mul_nonneg (by linarith) (sq_nonneg δ)
      rw [abs_of_nonpos]
      · linarith [mul_le_mul_of_nonneg_left hcube hk]
      · linarith [mul_nonneg hk hnonneg]

include hx

/-- Behind the turning point, but before the solution: one step leads beyond it. -/
theorem settles_ahead {n : Nat} (hn : 10 ≤ n) {s : Rat} (hs : 0 ≤ s) (hs' : s ≤ 2 / 3)
    (hgap : c.gapAt x (o + s) < 0) : c.Settles x (n + 1) (o + s) := by
  have hslope := h.slope_le s
  have hzero := h.zero_le
  have hend : o + s ≤ 1 := by
    by_contra hgt
    have hmono := h.gap_mono h.le_one (not_le.mp hgt).le
    rw [gapAt, hc.xAt_one] at hmono
    linarith
  have hheight : -c.gapAt x (o + s) ≤ 2 / 3 * c.xSlopeAt o := by
    have hterms := h.gap_eq s
    linarith [h.near, mul_nonneg h.slope hs, mul_nonneg h.lead (pow_nonneg hs 3)]
  have hnonneg := h.slope.trans hslope
  have habs : |c.gapAt x (o + s)| = -c.gapAt x (o + s) := abs_of_neg hgap
  refine settles_short hnonneg (by linarith) (meets_of_mem (by linarith) hend) fun hpos => ?_
  have ht : o ≤ o + s := le_add_of_nonneg_right hs
  have hbend : c.bendAt (o + s) ≤ 8 := by
    rw [bendAt_add, h.turn]
    linarith [mul_le_mul hc.lead_le hs' hs zero_le_four]
  obtain ⟨hle, hle', hgap'⟩ :=
    next_forward (2 / 3) hgap.le hpos (by linarith) h.lead hbend (by norm_num)
  refine h.settles hc hzero h.le_one hx n (ht.trans hle) (by linarith)
    (h.overshoot ht hgap.le hpos) ?_
  have hpow : (3 : Rat) ^ 10 ≤ 3 ^ n := pow_le_pow_right₀ (by norm_num) hn
  norm_num at hgap' hpow
  linarith [hc.lead_le]

/-- A step from before the turning point is followed by at most eleven, or it stays before. -/
theorem settles_step {u : Rat} (hu : 0 ≤ u) (hu' : u ≤ 1 / 6) (huo : u ≤ o) {n : Nat} (hn : 11 ≤ n)
    (hstay : ∀ v, 0 ≤ v → v ≤ 2 / 3 * u → |c.gapAt x (o - v)| ≤ 2 * c.lead * u ^ 3 →
      c.Settles x n (o - v)) : c.Settles x (n + 1) (o - u) := by
  obtain ⟨hbelow, hreach⟩ := h.gap_behind_mem hu hu'
  have habs : |c.gapAt x (o - u)| = -c.gapAt x (o - u) := abs_of_nonpos hbelow
  have hmeets : |c.gapAt x (o - u)| < 1 / 10000 → c.Meets x (o - u) :=
    meets_of_mem (by linarith) (by linarith [h.le_one])
  refine settles_short (by linarith) (by linarith) hmeets fun hpos => ?_
  rcases h.step_behind hc hu hu' hpos with ⟨s, hnext, hs, hs', hheight⟩ |
    ⟨v, hnext, hv, hv', hheight⟩
  · rw [hnext]
    rcases le_or_gt 0 (c.gapAt x (o + s)) with hsign | hsign
    · refine h.settles hc h.zero_le h.le_one hx n (by linarith) (by linarith) hsign ?_
      have hpow : (3 : Rat) ^ 10 ≤ 3 ^ n := pow_le_pow_right₀ (by norm_num) (by omega)
      norm_num at hpow
      linarith
    · obtain ⟨m, rfl⟩ : ∃ m, n = m + 1 := ⟨n - 1, by omega⟩
      exact h.settles_ahead hc hx (by omega) hs hs' hsign
  · rw [hnext]
    exact hstay v hv hv' hheight

theorem settles_behind (j : Nat) : ∀ {n : Nat} {u : Rat}, 12 + j ≤ n → 0 ≤ u → u ≤ 1 / 6 → u ≤ o →
    2 * c.lead * u ^ 3 < (27 / 8) ^ j / 10000 → c.Settles x n (o - u) := by
  induction j with
  | zero =>
      intro n u hn hu hu' huo hheight
      obtain ⟨m, rfl⟩ : ∃ m, n = m + 1 := ⟨n - 1, by omega⟩
      rw [pow_zero] at hheight
      refine h.settles_step hc hx hu hu' huo (by omega) fun v hv hv' hnear => ?_
      have hmeets := meets_of_mem (by linarith) (by linarith [h.le_one]) (hnear.trans_lt hheight)
      exact settles_of_meets hmeets (.inr (hnear.trans_lt hheight)) m
  | succ j ih =>
      -- two thirds of the way are left, and so 8/27 of its cube
      intro n u hn hu hu' huo hheight
      obtain ⟨m, rfl⟩ : ∃ m, n = m + 1 := ⟨n - 1, by omega⟩
      refine h.settles_step hc hx hu hu' huo (by omega) fun v hv hv' _ => ?_
      refine ih (by omega) hv (by linarith) (by linarith) ?_
      have hcube : v ^ 3 ≤ (2 / 3 * u) ^ 3 := pow_le_pow_left₀ hv hv' 3
      have hscaled := mul_le_mul_of_nonneg_left hcube h.lead
      rw [pow_succ (27 / 8 : Rat)] at hheight
      linarith

end Turns

/-! ## Where the curve bends downwards at last -/

/-- Below `x` on a concave stretch that reaches the end. -/
structure Climbs (c : Curve Rat) (x t : Rat) : Prop where
  lead : c.lead ≤ 0
  bend : c.bendAt t ≤ 0
  gap : c.gapAt x t ≤ 0
  zero_le : 0 ≤ t
  le_one : t ≤ 1

namespace Climbs

variable (h : c.Climbs x t) (hc : c.Forward) (hx : x ≤ 1)

include h hc hx

theorem gap_le : -c.gapAt x t ≤ c.xSlopeAt t * (1 - t) := by
  have hrest : 0 ≤ 1 - t := sub_nonneg.mpr h.le_one
  have hend := c.gapAt_add x t (1 - t)
  rw [add_sub_cancel, gapAt, hc.xAt_one] at hend
  linarith [mul_nonneg (neg_nonneg.mpr h.bend) (sq_nonneg (1 - t)),
    mul_nonneg (neg_nonneg.mpr h.lead) (pow_nonneg hrest 3)]

theorem step (hpos : 0 < c.xSlopeAt t) :
    c.Climbs x (c.next x t) ∧ 2 * -c.gapAt x (c.next x t) ≤ -c.gapAt x t := by
  have hδ : c.gapAt x t / c.xSlopeAt t ≤ 0 := div_nonpos_of_nonpos_of_nonneg h.gap hpos.le
  have hδ' : -(1 - t) ≤ c.gapAt x t / c.xSlopeAt t := by
    rw [le_div_iff₀ hpos]
    linarith [h.gap_le hc hx]
  have hstep : c.xSlopeAt t * (c.gapAt x t / c.xSlopeAt t) = c.gapAt x t :=
    mul_div_cancel₀ _ hpos.ne'
  have hnext : c.next x t = t + -(c.gapAt x t / c.xSlopeAt t) := sub_eq_add_neg _ _
  have hgap := c.gapAt_next (x := x) hpos.ne'
  have hbend := c.bendAt_add t (-(c.gapAt x t / c.xSlopeAt t))
  rw [← hnext] at hbend
  generalize c.gapAt x t / c.xSlopeAt t = δ at hδ hδ' hstep hnext hgap hbend
  have hk := neg_nonneg.mpr h.lead
  have hkδ := mul_nonneg hk (neg_nonneg.mpr hδ)
  refine ⟨⟨h.lead, by linarith [h.bend], ?_, by linarith [h.zero_le], by linarith⟩, ?_⟩
  · rw [hgap]
    exact mul_nonpos_of_nonpos_of_nonneg (by linarith [h.bend]) (sq_nonneg δ)
  · have hhalf : 2 * ((-c.bendAt t + c.lead * δ) * -δ) ≤ c.xSlopeAt t := by
      have hb := mul_le_mul_of_nonneg_left (by linarith : -δ ≤ 1 - t) (neg_nonneg.mpr h.bend)
      have hsquare : δ ^ 2 ≤ (1 - t) ^ 2 := sq_le_sq' hδ' (hδ.trans (sub_nonneg.mpr h.le_one))
      linarith [hc.xSlopeAt_end t, mul_le_mul_of_nonneg_left hsquare hk,
        mul_nonneg hk (sq_nonneg (1 - t))]
    rw [hgap]
    linarith [mul_le_mul_of_nonneg_right hhalf (neg_nonneg.mpr hδ)]

omit h in
theorem settles (n : Nat) : ∀ {t : Rat}, c.Climbs x t → -c.gapAt x t < 2 ^ n / 10000 →
    c.Settles x n t := by
  induction n with
  | zero =>
      intro t h hnear
      rw [pow_zero, ← abs_of_nonpos h.gap] at hnear
      exact meets_of_mem h.zero_le h.le_one hnear
  | succ n ih =>
      intro t h hheight
      have hslope := hc.xSlopeAt_nonneg h.zero_le h.le_one
      have hway := mul_le_mul_of_nonneg_left (sub_le_self 1 h.zero_le) hslope
      have habs : |c.gapAt x t| = -c.gapAt x t := abs_of_nonpos h.gap
      have hshort : |c.gapAt x t| ≤ 100 * c.xSlopeAt t := by linarith [h.gap_le hc hx]
      refine settles_short hslope hshort (meets_of_mem h.zero_le h.le_one) fun hpos => ?_
      obtain ⟨hclimbs, hhalf⟩ := h.step hc hx hpos
      rw [pow_succ] at hheight
      exact ih hclimbs (by linarith)

end Climbs

/-! ## Around a steep turning point -/

/-- The curve is steep around `o`, and the solution is near. -/
structure Steep (c : Curve Rat) (x o : Rat) : Prop where
  lead : -2 ≤ c.lead
  lead' : c.lead ≤ 0
  turn : c.bendAt o = 0
  slope : 1 ≤ c.xSlopeAt o
  near : |c.gapAt x o| ≤ 9 / 100
  zero_le : 0 ≤ o
  le_one : o ≤ 1

namespace Steep

variable {o s : Rat} (h : c.Steep x o)

include h

theorem slope_ge (hs : |s| ≤ 1 / 10) : 94 / 100 ≤ c.xSlopeAt (o + s) := by
  have hsquare : s ^ 2 ≤ (1 / 10) ^ 2 := sq_le_sq' (by linarith [(abs_le.mp hs).1]) (abs_le.mp hs).2
  have hk := mul_le_mul_of_nonneg_left hsquare (neg_nonneg.mpr h.lead')
  rw [xSlopeAt_add, h.turn]
  linarith [h.slope, h.lead]

theorem gap_mono {s' : Rat} (hs : |s| ≤ 1 / 10) (hs' : |s'| ≤ 1 / 10) (hle : s ≤ s') :
    c.gapAt x (o + s) ≤ c.gapAt x (o + s') := by
  have hcubes : s' ^ 3 - s ^ 3 ≤ 3 / 100 * (s' - s) := by
    obtain ⟨hlow, hhigh⟩ := abs_le.mp hs
    obtain ⟨hlow', hhigh'⟩ := abs_le.mp hs'
    have hsum : s' ^ 2 + s' * s + s ^ 2 ≤ 3 / 100 := by nlinarith
    linarith [mul_le_mul_of_nonneg_left hsum (sub_nonneg.mpr hle)]
  have hk := mul_le_mul_of_nonneg_left hcubes (neg_nonneg.mpr h.lead')
  have hk' := mul_le_mul_of_nonneg_right h.lead (sub_nonneg.mpr hle)
  have hm := mul_le_mul_of_nonneg_right h.slope (sub_nonneg.mpr hle)
  rw [gapAt_add, gapAt_add, h.turn]
  linarith

theorem meets (hc : c.Forward) (hx : 0 ≤ x) (hx' : x ≤ 1) (hs : |s| ≤ 1 / 10)
    (hnear : |c.gapAt x (o + s)| < 1 / 10000) : c.Meets x (o + s) := by
  obtain ⟨hlow, hhigh⟩ := abs_le.mp hs
  have hzero := h.zero_le
  have hone := h.le_one
  rcases le_or_gt 0 (o + s) with hstart | hstart
  · rcases le_or_gt (o + s) 1 with hend | hend
    · exact meets_of_mem hstart hend hnear
    · refine meets_of_gt hend.le ?_ ?_ hnear
      · rw [gapAt, hc.xAt_one]
        exact sub_nonneg.mpr hx'
      · have hahead : |1 - o| ≤ 1 / 10 := abs_le.mpr ⟨by linarith, by linarith⟩
        have hmono := h.gap_mono hahead hs (by linarith)
        rwa [add_sub_cancel] at hmono
  · refine meets_of_neg hstart.le ?_ ?_ hnear
    · rw [gapAt, hc.xAt_zero]
      linarith
    · have hback : |-o| ≤ 1 / 10 := abs_le.mpr ⟨by linarith, by linarith⟩
      have hmono := h.gap_mono hs hback (by linarith)
      rwa [add_neg_cancel] at hmono

theorem stays (hs : |s| ≤ 1 / 10) : |s - c.gapAt x (o + s) / c.xSlopeAt (o + s)| ≤ 1 / 10 := by
  have hslope := h.slope_ge hs
  have hpos : 0 < c.xSlopeAt (o + s) := by linarith
  have hcube : |c.lead * s ^ 3| ≤ 2 * (1 / 10) ^ 3 := by
    rw [abs_mul, abs_pow, abs_of_nonpos h.lead']
    exact mul_le_mul (by linarith [h.lead]) (pow_le_pow_left₀ (abs_nonneg s) hs 3)
      (by positivity) zero_le_two
  have hway : c.xSlopeAt (o + s) * (s - c.gapAt x (o + s) / c.xSlopeAt (o + s)) =
      2 * (c.lead * s ^ 3) - c.gapAt x o := by
    rw [mul_sub, mul_div_cancel₀ _ hpos.ne', gapAt_add, xSlopeAt_add, h.turn]
    ring
  obtain ⟨hlow, hhigh⟩ := abs_le.mp hcube
  obtain ⟨hlow', hhigh'⟩ := abs_le.mp h.near
  refine abs_le.mpr ⟨le_of_mul_le_mul_left ?_ hpos, le_of_mul_le_mul_left ?_ hpos⟩
  · rw [hway]
    linarith
  · rw [hway]
    linarith

theorem step (hs : |s| ≤ 1 / 10) : ∃ s', c.next x (o + s) = o + s' ∧ |s'| ≤ 1 / 10 ∧
    2 * |c.gapAt x (o + s')| ≤ |c.gapAt x (o + s)| := by
  have hslope := h.slope_ge hs
  have hpos : 0 < c.xSlopeAt (o + s) := by linarith
  have hstays := h.stays hs
  have hnext : c.next x (o + s) = o + (s - c.gapAt x (o + s) / c.xSlopeAt (o + s)) := by
    rw [next]
    ring
  have hgap := c.gapAt_next (x := x) hpos.ne'
  rw [bendAt_add, h.turn, zero_add, hnext] at hgap
  have hheight : |c.gapAt x (o + s)| =
      c.xSlopeAt (o + s) * |c.gapAt x (o + s) / c.xSlopeAt (o + s)| := by
    rw [abs_div, abs_of_pos hpos, mul_div_cancel₀ _ hpos.ne']
  refine ⟨_, hnext, hstays, ?_⟩
  rw [hgap, hheight]
  generalize c.gapAt x (o + s) / c.xSlopeAt (o + s) = δ at hstays
  obtain ⟨hlow, hhigh⟩ := abs_le.mp hs
  obtain ⟨hlow', hhigh'⟩ := abs_le.mp hstays
  have hfactor : |3 * c.lead * s - c.lead * δ| ≤ 1 := by
    have hdist : |3 * s - δ| ≤ 1 / 2 := abs_le.mpr ⟨by linarith, by linarith⟩
    rw [show 3 * c.lead * s - c.lead * δ = c.lead * (3 * s - δ) by ring, abs_mul,
      abs_of_nonpos h.lead']
    linarith [mul_le_mul (by linarith [h.lead] : -c.lead ≤ 2) hdist (abs_nonneg _) zero_le_two]
  have hlength : |δ| ≤ 1 / 5 := abs_le.mpr ⟨by linarith, by linarith⟩
  calc 2 * |(3 * c.lead * s - c.lead * δ) * δ ^ 2|
      = 2 * (|3 * c.lead * s - c.lead * δ| * |δ| * |δ|) := by
        rw [abs_mul, abs_pow]
        ring
    _ ≤ 2 * (1 * (1 / 5) * |δ|) := by gcongr
    _ ≤ 94 / 100 * |δ| := by linarith [abs_nonneg δ]
    _ ≤ c.xSlopeAt (o + s) * |δ| := by gcongr

theorem settles (hc : c.Forward) (hx : 0 ≤ x) (hx' : x ≤ 1) (n : Nat) :
    ∀ {s : Rat}, |s| ≤ 1 / 10 → |c.gapAt x (o + s)| < 2 ^ n / 10000 → c.Settles x n (o + s) := by
  induction n with
  | zero =>
      intro s hs hnear
      rw [pow_zero] at hnear
      exact h.meets hc hx hx' hs hnear
  | succ n ih =>
      intro s hs hheight
      refine settles_succ ?_ (h.meets hc hx hx' hs) ?_
      · intro hflat
        have hslope := h.slope_ge hs
        rw [abs_of_nonneg (by linarith)] at hflat
        linarith
      · intro _ _
        obtain ⟨s', hnext, hs', hhalf⟩ := h.step hs
        rw [hnext]
        rw [pow_succ] at hheight
        exact ih hs' (by linarith)

end Steep

end Segue.Curve
