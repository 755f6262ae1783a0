import Segue.Proofs.Curve.Newton

/-!
# How near a curve comes

From `x` itself twenty Newton steps lead near to a solution, unless the first one is a long one. It
is long in three corners only: both control points at the beginning, both at the end, or each at the
other end.
-/

namespace Segue.Curve

open Scalar

variable {c : Curve Rat} {x : Rat}

/-! ## Inequalities -/

/-- The height at a turning point, if the slope at an end bounds the factor. -/
theorem crest_le {k o : Rat} (hk : 0 ≤ k) (ho : 0 ≤ o) (ho' : o ≤ 1) (hend : k * (2 - 3 * o) ≤ 1) :
    k * (o * (1 - o) * (1 - 2 * o)) ≤ 8 / 100 := by
  rcases le_or_gt (1 / 2) o with hhalf | hhalf
  · have hprod : o * (1 - o) * (1 - 2 * o) ≤ 0 :=
      mul_nonpos_of_nonneg_of_nonpos (mul_nonneg ho (by linarith)) (by linarith)
    linarith [mul_nonpos_of_nonneg_of_nonpos hk hprod]
  · have hcubic : o * (1 - o) * (1 - 2 * o) ≤ 8 / 100 * (2 - 3 * o) := by
      nlinarith [mul_nonneg (by linarith : 0 ≤ 1 / 2 - o) (sq_nonneg (o - 29 / 100)),
        sq_nonneg (o - 29 / 100)]
    linarith [mul_le_mul_of_nonneg_left hcubic hk]

/-- What a multiple of the cube leaves of a line is concave. -/
theorem cube_le_between {k w l s r : Rat} (hk : 0 ≤ k) (hl : 0 ≤ l) (hls : l < s) (hsr : s ≤ r)
    (hleft : w + k * l ^ 3 ≤ l) (hright : w + k * r ^ 3 ≤ r) : w + k * s ^ 3 ≤ s := by
  have heq : (r - l) * (s - (w + k * s ^ 3)) = (r - s) * (l - (w + k * l ^ 3)) +
      (s - l) * (r - (w + k * r ^ 3)) + k * ((r - s) * (s - l) * (r - l) * (r + s + l)) := by
    ring
  have hls' : 0 ≤ s - l := by linarith
  have hsr' := sub_nonneg.mpr hsr
  have hlr : 0 < r - l := by linarith
  have hsum : 0 ≤ r + s + l := by linarith
  have hleft' := sub_nonneg.mpr hleft
  have hright' := sub_nonneg.mpr hright
  refine sub_nonneg.mp (nonneg_of_mul_nonneg_right ?_ hlr)
  rw [heq]
  positivity

theorem rise_of_sum {a b p q r : Rat} (ha : 0 ≤ a) (hb : 0 ≤ b) (hsum : 3 / 500 ≤ a + b)
    (hp : 0 ≤ p) (hq : 0 ≤ q) (hpr : 0 ≤ 3 / 500 * p + r) (hqr : 0 ≤ 3 / 500 * q + r) :
    0 ≤ a * p + b * q + r := by
  rcases le_total p q with h | h
  · linarith [mul_le_mul_of_nonneg_left h hb, mul_le_mul_of_nonneg_right hsum hp]
  · linarith [mul_le_mul_of_nonneg_left h ha, mul_le_mul_of_nonneg_right hsum hq]

/-- Thirty times the slope and the height of the curve above `x`, by its control points `a` and `b`.
-/
theorem rise_nonneg {a b x : Rat} (ha : 0 ≤ a) (ha' : a ≤ 1) (hb : 0 ≤ b) (hb' : b ≤ 1)
    (hsum : 3 / 500 ≤ a + b) (hcross : a - b ≤ 1 - 3 / 500) (hx : 0 ≤ x) (hx' : x ≤ 1) :
    0 ≤ a * ((1 - x) * (90 - 267 * x - 3 * x ^ 2)) + b * (x * (180 - 267 * x - 3 * x ^ 2)) +
      (90 * x ^ 2 - x + x ^ 3) := by
  have hu : 0 ≤ 1 - x := sub_nonneg.mpr hx'
  have hcube : 0 ≤ x * (x - 1 / 2) ^ 2 := mul_nonneg hx (sq_nonneg _)
  -- both factors are positive at first, then only that of `b`, and at last none
  rcases le_total 0 (90 - 267 * x - 3 * x ^ 2) with hp | hp
  · have hq : 0 ≤ 180 - 267 * x - 3 * x ^ 2 := by linarith
    refine rise_of_sum ha hb hsum (mul_nonneg hu hp) (mul_nonneg hx hq) ?_ ?_
    · nlinarith [sq_nonneg (x - 1 / 58), pow_nonneg hx 3]
    · nlinarith [sq_nonneg x, pow_nonneg hx 3]
  have hp' := mul_nonpos_of_nonneg_of_nonpos hu hp
  rcases le_total 0 (180 - 267 * x - 3 * x ^ 2) with hq | hq
  · have hq' := mul_nonneg hx hq
    have hleft : 0 ≤ (1 - 3 / 500) * ((1 - x) * (90 - 267 * x - 3 * x ^ 2)) +
        (90 * x ^ 2 - x + x ^ 3) := by
      nlinarith [sq_nonneg (x - 1 / 2)]
    have hright : 0 ≤ (1 - x) * (90 - 267 * x - 3 * x ^ 2) +
        3 / 500 * (x * (180 - 267 * x - 3 * x ^ 2)) + (90 * x ^ 2 - x + x ^ 3) := by
      nlinarith [sq_nonneg (x - 1 / 2)]
    generalize (1 - x) * (90 - 267 * x - 3 * x ^ 2) = p at hp' hleft hright ⊢
    generalize x * (180 - 267 * x - 3 * x ^ 2) = q at hq' hright ⊢
    rcases le_total a (1 - 3 / 500) with hfar | hfar
    · linarith [mul_le_mul_of_nonpos_right hfar hp', mul_nonneg hb hq']
    · have hcross' : a - (1 - 3 / 500) ≤ b := by linarith
      -- linear in `a`, and not negative at both ends
      linarith [mul_le_mul_of_nonneg_right hcross' hq', mul_nonneg (sub_nonneg.mpr ha') hleft,
        mul_nonneg (sub_nonneg.mpr hfar) hright]
  · have hq' := mul_nonpos_of_nonneg_of_nonpos hx hq
    have hsquare : (1 - x) ^ 2 ≤ 1 := pow_le_one₀ hu (by linarith)
    have hcorner := mul_nonneg hu (sub_nonneg.mpr hsquare)
    linarith [mul_le_mul_of_nonpos_right ha' hp', mul_le_mul_of_nonpos_right hb' hq',
      sq_nonneg (1 - x)]

/-! ## The search from the start -/

namespace Forward

variable (h : c.Forward)

include h

/-- The values at the turning point, in terms of the third power. -/
theorem at_turn {o : Rat} (hturn : c.bendAt o = 0) :
    c.xSlopeAt o = 1 - c.lead * (1 - 3 * o + 3 * o ^ 2) ∧
      c.xAt o = o - c.lead * (o * (1 - o) * (1 - 2 * o)) ∧
      0 ≤ 2 - 2 * c.lead + 3 * c.lead * o ∧ 0 ≤ 1 + 2 * c.lead - 3 * c.lead * o := by
  have hlead := h.lead_eq
  rw [h.bendAt_eq] at hturn
  have hc0 : 3 * c.c0.x = 1 - c.lead + 3 * c.lead * o := by linarith
  have hc1 : 3 * c.c1.x = 2 - 2 * c.lead + 3 * c.lead * o := by linarith
  refine ⟨?_, ?_, ?_, ?_⟩
  · rw [h.xSlopeAt_eq]
    linear_combination ((1 - o) ^ 2 - 2 * (1 - o) * o) * hc0 + (2 * (1 - o) * o - o ^ 2) * hc1
  · rw [h.xAt_eq]
    linear_combination (1 - o) ^ 2 * o * hc0 + (1 - o) * o ^ 2 * hc1
  · linarith [h.c1_nonneg]
  · linarith [h.c1_le]

/-- From above `x` no step leads before the beginning. -/
theorem gap_le_way (hlead : c.lead ≤ 0) (hx : 0 ≤ x) (hx' : x ≤ 1) :
    c.gapAt x x ≤ x * c.xSlopeAt x := by
  have heq : x * c.xSlopeAt x - c.gapAt x x =
      x * ((1 - x) + 3 * (1 - c.c1.x) * x + 2 * (-c.lead) * (x * (1 - x))) := by
    rw [gapAt, h.xSlopeAt_eq, h.xAt_eq, h.lead_eq]
    ring
  have hrest := sub_nonneg.mpr hx'
  have hc1 := sub_nonneg.mpr h.c1_le
  have hk := neg_nonneg.mpr hlead
  have hnonneg : 0 ≤ x * ((1 - x) + 3 * (1 - c.c1.x) * x + 2 * (-c.lead) * (x * (1 - x))) := by
    positivity
  linarith

theorem exists_turn (hlead : c.lead ≤ 0) (hx : 0 ≤ x) (hx' : x ≤ 1) (hbend : c.bendAt x ≤ 0)
    (hgap : 0 < c.gapAt x x) (hpos : 0 < c.xSlopeAt x) (hacross : 0 < c.bendAt (c.next x x)) :
    ∃ o s, x = o + s ∧ c.bendAt o = 0 ∧ 0 ≤ o ∧ 0 ≤ s ∧ s < c.gapAt x x / c.xSlopeAt x := by
  have hδ : 0 < c.gapAt x x / c.xSlopeAt x := div_pos hgap hpos
  have hstart : c.gapAt x x / c.xSlopeAt x ≤ x := by
    rw [div_le_iff₀ hpos]
    exact h.gap_le_way hlead hx hx'
  rw [next, sub_eq_add_neg, bendAt_add] at hacross
  have hlt : c.lead < 0 := by
    refine hlead.lt_of_ne fun hzero => ?_
    rw [hzero] at hacross
    linarith
  obtain ⟨s, hs⟩ : ∃ s, 3 * c.lead * s = c.bendAt x :=
    ⟨_, mul_div_cancel₀ _ (by linarith : 3 * c.lead < 0).ne⟩
  have hs0 : 0 ≤ s := by
    by_contra hneg
    linarith [mul_pos_of_neg_of_neg hlt (not_le.mp hneg)]
  have hshort : s < c.gapAt x x / c.xSlopeAt x := by
    by_contra hlong
    linarith [mul_nonneg (neg_nonneg.mpr hlead) (sub_nonneg.mpr (not_lt.mp hlong))]
  refine ⟨x - s, s, (sub_add_cancel x s).symm, ?_, by linarith, hs0, hshort⟩
  rw [sub_eq_add_neg, bendAt_add]
  linarith

/-- A first step across the turning point begins near to it. -/
theorem steep_of_across (hlead : c.lead ≤ 0) (hx : 0 ≤ x) (hx' : x ≤ 1) (hbend : c.bendAt x ≤ 0)
    (hgap : 0 < c.gapAt x x) (hpos : 0 < c.xSlopeAt x) (hacross : 0 < c.bendAt (c.next x x)) :
    ∃ o s, x = o + s ∧ |s| ≤ 1 / 10 ∧ c.Steep x o := by
  obtain ⟨o, s, ho, hturn, ho0, hs0, hshort⟩ := h.exists_turn hlead hx hx' hbend hgap hpos hacross
  obtain ⟨hslope, hpoint, -, hend⟩ := h.at_turn hturn
  have ho1 : o ≤ 1 := by linarith
  have hk := neg_nonneg.mpr hlead
  have hlow : -2 ≤ c.lead := by
    rw [h.lead_eq]
    linarith [h.c0_nonneg, h.c1_le]
  -- the tangent at `x` is above `x` at the turning point
  have hover : 2 * c.lead * s ^ 3 < c.gapAt x o := by
    have htangent := mul_lt_mul_of_pos_left hshort hpos
    have hheight := c.gapAt_add x o s
    have hslope' := c.xSlopeAt_add o s
    rw [← ho, hturn] at hheight hslope'
    rw [mul_div_cancel₀ _ hpos.ne', hheight, hslope'] at htangent
    linarith
  rw [gapAt, hpoint] at hover
  have hcrest := crest_le hk ho0 ho1 (by linarith)
  have hnear : s ≤ 1 / 10 := by
    -- otherwise no tangent between there and the end is above `x` at the turning point
    by_contra hfar
    have hlast : -c.lead * (o * (1 - o) * (1 - 2 * o)) + 2 * -c.lead * (1 - o) ^ 3 ≤ 1 - o := by
      linarith [mul_nonneg (sub_nonneg.mpr ho1) hend]
    have hle := cube_le_between (mul_nonneg zero_le_two hk) (by norm_num) (not_le.mp hfar)
      (by linarith) (by linarith) hlast
    linarith
  have hcube : s ^ 3 ≤ (1 / 10) ^ 3 := pow_le_pow_left₀ hs0 hnear 3
  have hscaled := mul_le_mul_of_nonneg_left hcube hk
  refine ⟨o, s, ho, abs_le.mpr ⟨by linarith, hnear⟩, hlow, hlead, hturn, ?_, ?_, ho0, ho1⟩
  · rw [hslope]
    have hpart : 0 ≤ 1 - 3 * o + 3 * o ^ 2 := by nlinarith [sq_nonneg (o - 1 / 2)]
    linarith [mul_nonneg hk hpart]
  · rw [gapAt, hpoint]
    exact abs_le.mpr ⟨by linarith, by linarith⟩

/-- From where the curve bends downwards to its end. -/
theorem settles_falling (hlead : c.lead ≤ 0) (hx : 0 ≤ x) (hx' : x ≤ 1) (hbend : c.bendAt x ≤ 0) :
    c.Settles x 20 x := by
  obtain ⟨hlow, hhigh⟩ := h.xAt_mem hx hx'
  rcases le_or_gt (c.gapAt x x) 0 with hgap | hgap
  · have hclimbs : c.Climbs x x := ⟨hlead, hbend, hgap, hx, hx'⟩
    refine Climbs.settles h hx' 20 hclimbs ?_
    rw [gapAt]
    norm_num
    linarith
  by_cases hacross : 0 < c.xSlopeAt x ∧ 0 < c.bendAt (c.next x x)
  · obtain ⟨o, s, hxs, hs, hsteep⟩ :=
      h.steep_of_across hlead hx hx' hbend hgap hacross.1 hacross.2
    have hsettles := hsteep.settles h hx hx' 20 hs
    rw [← hxs] at hsettles
    apply hsettles
    rw [abs_of_pos hgap, gapAt]
    norm_num
    linarith
  · have hslope := h.xSlopeAt_nonneg hx hx'
    have hstart := h.gap_le_way hlead hx hx'
    have hway := mul_le_mul_of_nonneg_right hx' hslope
    have habs : |c.gapAt x x| = c.gapAt x x := abs_of_pos hgap
    refine settles_short hslope (by linarith) (meets_of_mem hx hx') fun hpos => ?_
    have hbend' : c.bendAt (c.next x x) ≤ 0 := not_lt.mp fun h => hacross ⟨hpos, h⟩
    have hδ : 0 ≤ c.gapAt x x / c.xSlopeAt x := div_nonneg hgap.le hpos.le
    have hδ' : c.gapAt x x / c.xSlopeAt x ≤ x := by rwa [div_le_iff₀ hpos]
    have hnext : 0 ≤ c.next x x ∧ c.next x x ≤ 1 := by
      rw [next]
      exact ⟨by linarith, by linarith⟩
    have hbelow : c.gapAt x (c.next x x) ≤ 0 := by
      rw [c.gapAt_next hpos.ne']
      refine mul_nonpos_of_nonpos_of_nonneg ?_ (sq_nonneg _)
      rw [next, sub_eq_add_neg, bendAt_add] at hbend'
      linarith [mul_nonneg (neg_nonneg.mpr hlead) hδ]
    have hclimbs : c.Climbs x (c.next x x) := ⟨hlead, hbend', hbelow, hnext.1, hnext.2⟩
    refine Climbs.settles h hx' 19 hclimbs ?_
    rw [gapAt]
    norm_num
    linarith [(h.xAt_mem hnext.1 hnext.2).1]

/-- Where the curve bends upwards from its beginning. -/
theorem settles_rising (hlead : 0 ≤ c.lead) (hx : 0 ≤ x) (hx' : x ≤ 1) (hbend : 0 ≤ c.bendAt 0)
    (hshort : |c.gapAt x x| ≤ 30 * c.xSlopeAt x) : c.Settles x 20 x := by
  have hgap : c.gapAt x 0 ≤ 0 := by
    rw [gapAt, h.xAt_zero]
    linarith
  have hrises : c.Rises x 0 := ⟨hlead, hbend, h.xSlopeAt_nonneg le_rfl zero_le_one, hgap⟩
  exact hrises.settles_start h le_rfl zero_le_one hx' hx hshort

/-- Where the curve turns upwards below `x`. -/
theorem settles_turning (hlead : 0 ≤ c.lead) (hx : 0 ≤ x) (hx' : x ≤ 1) {o : Rat} (ho : 0 ≤ o)
    (ho' : o ≤ 1) (hturn : c.bendAt o = 0) (hgap : c.gapAt x o ≤ 0)
    (hshort : |c.gapAt x x| ≤ 30 * c.xSlopeAt x) : c.Settles x 20 x := by
  have hrises : c.Rises x o := ⟨hlead, hturn.ge, h.xSlopeAt_nonneg ho ho', hgap⟩
  rcases le_or_gt o x with hox | hox
  · exact hrises.settles_start h ho ho' hx' hox hshort
  obtain ⟨hslope, hpoint, hbegin, -⟩ := h.at_turn hturn
  have hdepth : c.gapAt x o = o - x - c.lead * (o * (1 - o) * (1 - 2 * o)) := by
    rw [gapAt, hpoint]
    ring
  have hhalf : o < 1 / 2 := by
    by_contra hlate
    have hprod : o * (1 - o) * (1 - 2 * o) ≤ 0 :=
      mul_nonpos_of_nonneg_of_nonpos (mul_nonneg ho (by linarith)) (by linarith)
    linarith [mul_nonpos_of_nonneg_of_nonpos hlead hprod]
  have hnear : -c.gapAt x o ≤ 2 / 3 * c.xSlopeAt o := by
    have hpart : 0 ≤ o ^ 2 * (1 - 2 * o) := mul_nonneg (sq_nonneg o) (by linarith)
    rw [hdepth, hslope]
    linarith [mul_nonneg hlead hpart]
  have hcrest := crest_le (by linarith : 0 ≤ c.lead / 2) ho ho' (by linarith)
  have hturns : c.Turns x o := ⟨hrises, hturn, hnear, ho, ho'⟩
  obtain ⟨u, hu⟩ : ∃ u, x = o - u := ⟨o - x, by ring⟩
  have hu0 : 0 ≤ u := by linarith
  have hu' : u ≤ 16 / 100 := by linarith
  have hsettles := hturns.settles_behind h hx' 5 (n := 20) (by norm_num) hu0 (by linarith)
    (by linarith)
  rw [← hu] at hsettles
  apply hsettles
  have hcube : u ^ 3 ≤ (16 / 100) ^ 3 := pow_le_pow_left₀ hu0 hu' 3
  have hscaled := mul_le_mul h.lead_le hcube (pow_nonneg hu0 3) (by norm_num)
  norm_num at hscaled ⊢
  linarith

/-- Unless the first step is a long one, twenty steps are enough. -/
theorem settles (hx : 0 ≤ x) (hx' : x ≤ 1) (hshort : |c.gapAt x x| ≤ 30 * c.xSlopeAt x) :
    c.Settles x 20 x := by
  -- the cases that bend the other way, or turn above `x`, are settled backwards
  have hb := h.backwards
  have hxb : 0 ≤ 1 - x := sub_nonneg.mpr hx'
  have hxb' : 1 - x ≤ 1 := sub_le_self 1 hx
  have hshortb : |c.backwards.gapAt (1 - x) (1 - x)| ≤ 30 * c.backwards.xSlopeAt (1 - x) := by
    rwa [gapAt_backwards, xSlopeAt_backwards, sub_sub_cancel, abs_neg]
  rcases le_or_gt c.lead 0 with hlead | hlead
  · rcases le_total (c.bendAt x) 0 with hbend | hbend
    · exact h.settles_falling hlead hx hx' hbend
    · refine settles_backwards.mp (hb.settles_falling ?_ hxb hxb' ?_)
      · rwa [lead_backwards]
      · rw [bendAt_backwards, sub_sub_cancel]
        exact neg_nonpos.mpr hbend
  have hleadb : 0 ≤ c.backwards.lead := hlead.le.trans_eq (lead_backwards c).symm
  rcases le_or_gt 0 (c.bendAt 0) with hbend | hbend
  · exact h.settles_rising hlead.le hx hx' hbend hshort
  rcases le_or_gt (c.bendAt 1) 0 with hbend' | hbend'
  · refine settles_backwards.mp (hb.settles_rising hleadb hxb hxb' ?_ hshortb)
    rw [bendAt_backwards, sub_zero]
    exact neg_nonneg.mpr hbend'
  obtain ⟨o, ho⟩ : ∃ o, 3 * c.lead * o = -c.bendAt 0 :=
    ⟨_, mul_div_cancel₀ _ (by linarith : 0 < 3 * c.lead).ne'⟩
  have hturn : c.bendAt o = 0 := by
    rw [← zero_add o, bendAt_add]
    linarith
  have ho0 : 0 ≤ o := by
    by_contra hneg
    linarith [mul_pos_of_neg_of_neg (neg_neg_of_pos hlead) (not_le.mp hneg)]
  have ho1 : o ≤ 1 := by
    have hend := c.bendAt_add o (1 - o)
    rw [hturn, add_sub_cancel] at hend
    by_contra hlate
    linarith [mul_pos hlead (sub_pos.mpr (not_le.mp hlate))]
  rcases le_total (c.gapAt x o) 0 with hgap | hgap
  · exact h.settles_turning hlead.le hx hx' ho0 ho1 hturn hgap hshort
  · refine settles_backwards.mp (hb.settles_turning hleadb hxb hxb' (sub_nonneg.mpr ho1)
      (sub_le_self 1 ho0) ?_ ?_ hshortb)
    · rw [bendAt_backwards, sub_sub_cancel, hturn, neg_zero]
    · rw [gapAt_backwards, sub_sub_cancel]
      exact neg_nonpos.mpr hgap

end Forward

/-! ## Clear of the corners -/

/-- At some distance from the three corners. -/
structure Clear (c : Curve Rat) : Prop where
  first : 3 / 500 ≤ c.c0.x + c.c1.x
  last : c.c0.x + c.c1.x ≤ 2 - 3 / 500
  crossed : c.c0.x - c.c1.x ≤ 1 - 3 / 500

theorem Clear.backwards (h : c.Clear) : c.backwards.Clear where
  first := by
    have := h.last
    simp only [Curve.backwards]
    linarith
  last := by
    have := h.first
    simp only [Curve.backwards]
    linarith
  crossed := by
    have := h.crossed
    simp only [Curve.backwards]
    linarith

theorem Clear.gap_ge (h : c.Clear) (hc : c.Forward) (hx : 0 ≤ x) (hx' : x ≤ 1) :
    -(30 * c.xSlopeAt x) ≤ c.gapAt x x := by
  have hrise := rise_nonneg hc.c0_nonneg hc.c0_le hc.c1_nonneg hc.c1_le h.first h.crossed hx hx'
  rw [gapAt, hc.xAt_eq, hc.xSlopeAt_eq]
  linarith

theorem Clear.short (h : c.Clear) (hc : c.Forward) (hx : 0 ≤ x) (hx' : x ≤ 1) :
    |c.gapAt x x| ≤ 30 * c.xSlopeAt x := by
  have hback := h.backwards.gap_ge hc.backwards (sub_nonneg.mpr hx') (sub_le_self 1 hx)
  rw [gapAt_backwards, xSlopeAt_backwards, sub_sub_cancel] at hback
  exact abs_le.mpr ⟨h.gap_ge hc hx hx', neg_le_neg_iff.mp hback⟩

/-! ## Accuracy -/

def xOn (c : Curve Rat) (t : ℝ) : ℝ := bernstein t c.p0.x c.c0.x c.c1.x c.p1.x

def yOn (c : Curve Rat) (t : ℝ) : ℝ := bernstein t c.p0.y c.c0.y c.c1.y c.p1.y

@[simp] theorem xOn_cast (c : Curve Rat) (t : Rat) : c.xOn t = c.xAt t := by
  rw [xOn, xAt, cubic_rat, bernstein, bernstein]
  push_cast
  ring

@[simp] theorem yOn_cast (c : Curve Rat) (t : Rat) : c.yOn t = c.yAt t := by
  rw [yOn, yAt, cubic_rat, bernstein, bernstein]
  push_cast
  ring

theorem near_cast {a b : Rat} : |(a : ℝ) - b| < 1 / 10000 ↔ |a - b| < 1 / 10000 := by
  have hcast : (1 / 10000 : ℝ) = ((1 / 10000 : Rat) : ℝ) := by norm_num
  rw [← Rat.cast_sub, ← Rat.cast_abs, hcast, Rat.cast_lt]

/-- The value at `x` is that at some parameter of the curve, where it is near to `x`. -/
def Accurate (c : Curve Rat) (x : Rat) : Prop :=
  ∃ t : ℝ, 0 ≤ t ∧ t ≤ 1 ∧ c.valueAt x = c.yOn t ∧ |c.xOn t - x| < 1 / 10000

theorem forward_pinned (p0 p1 : Point Rat) {c0 c1 : Point Rat} (h0 : 0 ≤ c0.x ∧ c0.x ≤ 1)
    (h1 : 0 ≤ c1.x ∧ c1.x ≤ 1) : (pinned p0 c0 c1 p1).Forward where
  p0 := by norm_num [pinned]
  p1 := by norm_num [pinned]
  c0_nonneg := h0.1
  c0_le := h0.2
  c1_nonneg := h1.1
  c1_le := h1.2

theorem Forward.accurate_diagonal (h : c.Forward) (hx : 0 ≤ x) (hx' : x ≤ 1)
    (hvalue : c.valueAt x = x) (hdiagonal : ∀ p ∈ c.points, p.x = p.y) : c.Accurate x := by
  have hcontinuous : ContinuousOn c.xOn (Set.Icc 0 1) := by
    unfold xOn bernstein
    fun_prop
  have hmem : (x : ℝ) ∈ Set.Icc (c.xOn 0) (c.xOn 1) := by
    have hzero := c.xOn_cast 0
    have hone := c.xOn_cast 1
    rw [h.xAt_zero] at hzero
    rw [h.xAt_one] at hone
    push_cast at hzero hone
    rw [hzero, hone]
    exact ⟨by exact_mod_cast hx, by exact_mod_cast hx'⟩
  obtain ⟨t, ht, hxt⟩ := intermediate_value_Icc zero_le_one hcontinuous hmem
  have hsame : c.yOn t = c.xOn t := by
    simp only [points, List.forall_mem_cons] at hdiagonal
    obtain ⟨hp0, hc0, hc1, hp1, -⟩ := hdiagonal
    rw [xOn, yOn, hp0, hc0, hc1, hp1]
  refine ⟨t, ht.1, ht.2, ?_, ?_⟩
  · rw [hvalue, hsame, hxt]
  · rw [hxt, sub_self, abs_zero]
    norm_num

/-- A curve with control points between its ends is met at every place, if it is clear of the
corners or the first step is not long. -/
theorem valueAt_accurate {p0 c0 c1 p1 : Point Rat} (h0 : 0 ≤ c0.x ∧ c0.x ≤ 1)
    (h1 : 0 ≤ c1.x ∧ c1.x ≤ 1) (hx : 0 < x ∧ x < 1)
    (hstart : (pinned p0 c0 c1 p1).Clear ∨
      |(pinned p0 c0 c1 p1).gapAt x x| ≤ 30 * (pinned p0 c0 c1 p1).xSlopeAt x) :
    (pinned p0 c0 c1 p1).Accurate x := by
  have hc := forward_pinned p0 p1 h0 h1
  generalize pinned p0 c0 c1 p1 = c at hc hstart ⊢
  have hvalue := c.valueAt_between (x := x) (by rw [hc.p0]; exact hx.1) (by rw [hc.p1]; exact hx.2)
  by_cases hdiagonal : ∀ p ∈ c.points, p.x = p.y
  · rw [if_pos (isDiagonal_iff.mpr hdiagonal)] at hvalue
    exact hc.accurate_diagonal hx.1.le hx.2.le hvalue hdiagonal
  · rw [if_neg (mt isDiagonal_iff.mp hdiagonal)] at hvalue
    have hshort := hstart.elim (fun h => h.short hc hx.1.le hx.2.le) id
    have hmeets : c.Meets x (c.solve x newtonSteps x) := hc.settles hx.1.le hx.2.le hshort
    obtain ⟨hzero, hone⟩ := clamp_mem (c.solve x newtonSteps x)
    rw [Meets, gapAt] at hmeets
    generalize clamp (c.solve x newtonSteps x) 0.0 1.0 = t at hvalue hzero hone hmeets
    refine ⟨t, by exact_mod_cast hzero, by exact_mod_cast hone, ?_, ?_⟩
    · rw [hvalue, yOn_cast]
    · rw [xOn_cast]
      exact near_cast.mpr hmeets

theorem valueAt_accurate_third :
    (pinned ⟨0, 0⟩ ⟨2 / 5, 0⟩ ⟨3 / 5, 1⟩ ⟨1, 1⟩).Clear ∧
      (pinned ⟨0, 0⟩ ⟨2 / 5, 0⟩ ⟨3 / 5, 1⟩ ⟨1, 1⟩).Accurate (1 / 3) := by
  have hclear : (pinned ⟨0, 0⟩ ⟨2 / 5, 0⟩ ⟨3 / 5, 1⟩ ⟨1, 1⟩).Clear := by
    constructor <;> norm_num [pinned]
  exact ⟨hclear, valueAt_accurate (by norm_num) (by norm_num) (by norm_num) (.inl hclear)⟩

theorem valueAt_flat (hx : 0 ≤ x) (hx' : x ≤ 1) (hbefore : c.p0.x < x) (hafter : x < c.p1.x)
    (hdiagonal : ¬ ∀ p ∈ c.points, p.x = p.y) (hflat : |c.xSlopeAt x| < 1 / 1000000) :
    c.valueAt x = c.yAt x := by
  rw [c.valueAt_between hbefore hafter, if_neg (mt isDiagonal_iff.mp hdiagonal), newtonSteps,
    solve_succ, if_pos (.inl hflat), Timeline.clamp_rat, min_eq_left hx', max_eq_right hx]

/-- The curve with its control values at 0 and 1 has each value once. -/
theorem eq_of_smooth_eq {s t : ℝ} (hs : 0 < s) (hs' : s < 1) (ht : 0 ≤ t) (ht' : t ≤ 1)
    (h : 3 * s ^ 2 - 2 * s ^ 3 = 3 * t ^ 2 - 2 * t ^ 3) : s = t := by
  have hfactor : (s - t) * (3 * (s + t) - 2 * (s ^ 2 + s * t + t ^ 2)) = 0 := by
    linear_combination h
  have hpos : 0 < 3 * (s + t) - 2 * (s ^ 2 + s * t + t ^ 2) := by
    nlinarith [mul_pos hs (sub_pos.mpr hs'), mul_nonneg ht (sub_nonneg.mpr ht'),
      mul_nonneg hs.le (sub_nonneg.mpr ht'), mul_nonneg ht (sub_nonneg.mpr hs'.le)]
  exact sub_eq_zero.mp ((mul_eq_zero.mp hfactor).resolve_right hpos.ne')

theorem Forward.not_accurate (h : c.Forward) (hx : 0 < x) (hx' : x < 1)
    (hy : c.p0.y = 0 ∧ c.c0.y = 0 ∧ c.c1.y = 1 ∧ c.p1.y = 1) (hcorner : c.c0.x ≠ 0 ∨ c.c1.x ≠ 1)
    (hflat : |c.xSlopeAt x| < 1 / 1000000) (hfar : 1 / 10000 ≤ |c.gapAt x x|) :
    ¬ c.Accurate x := by
  rintro ⟨t, ht, ht', hvalue, hnear⟩
  obtain ⟨hp0, hc0, hc1, hp1⟩ := hy
  have hdiagonal : ¬ ∀ p ∈ c.points, p.x = p.y := by
    simp only [points, List.forall_mem_cons]
    rintro ⟨-, hx0, hx1, -⟩
    exact hcorner.elim (absurd (hx0.trans hc0)) (absurd (hx1.trans hc1))
  rw [valueAt_flat hx.le hx'.le (by rwa [h.p0]) (by rwa [h.p1]) hdiagonal hflat, ← yOn_cast, yOn,
    yOn, hp0, hc0, hc1, hp1, bernstein, bernstein] at hvalue
  push_cast at hvalue
  obtain rfl : (x : ℝ) = t :=
    eq_of_smooth_eq (by exact_mod_cast hx) (by exact_mod_cast hx') ht ht'
      (by linear_combination hvalue)
  rw [xOn_cast, near_cast] at hnear
  exact absurd hnear (not_lt.mpr hfar)

/-- In the corners the search stops where it starts. -/
theorem corners_missed :
    ¬ (pinned ⟨0, 0⟩ ⟨0, 0⟩ ⟨0, 1⟩ ⟨1, 1⟩).Accurate (1 / 2000) ∧
      ¬ (pinned ⟨0, 0⟩ ⟨1, 0⟩ ⟨1, 1⟩ ⟨1, 1⟩).Accurate (1999 / 2000) ∧
      ¬ (pinned ⟨0, 0⟩ ⟨1, 0⟩ ⟨0, 1⟩ ⟨1, 1⟩).Accurate (2501 / 5000) := by
  refine ⟨?_, ?_, ?_⟩
  all_goals
    refine (forward_pinned _ _ ?_ ?_).not_accurate ?_ ?_ ?_ ?_ ?_ ?_
    all_goals norm_num [pinned, xSlopeAt_rat, gapAt, xAt, cubic_rat, bernstein]

end Segue.Curve
