import Mathlib
import Segue.Proofs.Timeline.Seamless

/-!
# Planned frames cover the timeline once

The frames of a plan go from the start of the timeline to its end: there are as few of them as the
frame rate allows, each is later than the one before, and no clip is left or played backwards.
-/

namespace Segue

open Scalar Extended

namespace Timeline

/-- The order in which phases follow each other. -/
def Phase.rank : Phase → Nat
  | .clipA => 0
  | .transition => 1
  | .clipB => 2

/-- A sample that comes before another one: everything else may stand still, time does not. -/
structure Sample.Before (r s : Sample Rat) : Prop where
  time : r.time < s.time
  progress : r.progress ≤ s.progress
  timeA : r.timeA ≤ s.timeA
  timeB : r.timeB ≤ s.timeB
  phase : r.phase.rank ≤ s.phase.rank

/-- Both clips are sampled where they have something to show. -/
structure Sample.Within (s : Sample Rat) (q : Params Rat) : Prop where
  timeA : s.timeA ∈ Set.Icc 0 (max 0 (q.durationA - q.margin))
  timeB : s.timeB ∈ Set.Icc 0 (max 0 (q.durationB - q.margin))

/-- Samples from the start of the timeline to its end. -/
structure Walk (q : Params Rat) (mode : Mode) (n : Nat) (s : Nat → Sample Rat) : Prop where
  first : (s 0).progress = 0 ∧ (s 0).time = 0
  last : (s (n - 1)).progress = 1 ∧ (s (n - 1)).time = q.total mode
  advance : ∀ i j, i < j → j < n → (s i).Before (s j)
  within : ∀ i < n, (s i).Within q

variable {q : Params Rat}

/-! ## One position after another -/

theorem normalize_of_mem {x : Rat} (hx : x ∈ Set.Icc 0 1) : Timeline.normalize x = x := by
  have hclamp : Timeline.normalize x = max 0 (min x 1) := clamp_rat x
  rw [hclamp, min_eq_left hx.2, max_eq_right hx.1]

theorem clampToClip_mono (d m : Rat) {s t : Rat} (h : s ≤ t) :
    clampToClip s d m ≤ clampToClip t d m := by
  rw [clampToClip_rat, clampToClip_rat]
  exact max_le_max_left 0 (min_le_min_right _ h)

theorem clampToClip_mem (t d m : Rat) : clampToClip t d m ∈ Set.Icc 0 (max 0 (d - m)) := by
  rw [clampToClip_rat]
  exact ⟨le_max_left _ _, max_le_max_left 0 (min_le_right _ _)⟩

theorem Params.sampleAt_phase_mono (h : q.Safe) {s t : Rat} (hst : s ≤ t) :
    (q.sampleAt s).phase.rank ≤ (q.sampleAt t).phase.rank := by
  have htransition := h.transition
  simp only [Params.sampleAt]
  split
  · exact Nat.zero_le _
  · rename_i hA
    rw [if_neg (not_lt.mpr ((not_lt.mp hA).trans hst))]
    split
    · split <;> decide
    · rename_i hT
      rw [if_neg (not_lt.mpr ((not_lt.mp hT).trans hst))]

theorem Params.sampleAt_within (q : Params Rat) (t : Rat) : (q.sampleAt t).Within q where
  timeA := ⟨le_max_left _ _, max_le_max_left 0 (min_le_right _ _)⟩
  timeB := ⟨le_max_left _ _, max_le_max_left 0 (min_le_right _ _)⟩

theorem total_pos_of_usable (h : q.Usable) (mode : Mode) : 0 < q.total mode := by
  cases mode with
  | transitionOnly => exact h.transition
  | fullSequence => exact total_pos h

theorem resolve_time {x : Rat} (h : q.Safe) (hx : x ∈ Set.Icc 0 1) (mode : Mode) :
    (resolve mode x q).time = x * q.total mode := by
  cases mode with
  | transitionOnly =>
      change Timeline.normalize x * q.transition = x * q.transition
      rw [normalize_of_mem hx]
  | fullSequence =>
      change (resolveFull x q).time = x * q.total .fullSequence
      rw [resolveFull_at h, normalize_of_mem hx, Params.sampleAt]

theorem resolve_within (h : q.Safe) (mode : Mode) (x : Rat) : (resolve mode x q).Within q := by
  cases mode with
  | transitionOnly => exact ⟨clampToClip_mem _ _ _, clampToClip_mem _ _ _⟩
  | fullSequence =>
      change (resolveFull x q).Within q
      rw [resolveFull_at h]
      exact q.sampleAt_within _

theorem resolve_before {x y : Rat} (h : q.Safe) (hx : x ∈ Set.Icc 0 1) (hy : y ∈ Set.Icc 0 1)
    (hxy : x < y) (mode : Mode) : (resolve mode x q).Before (resolve mode y q) := by
  have htime : (resolve mode x q).time < (resolve mode y q).time := by
    rw [resolve_time h hx, resolve_time h hy]
    exact mul_lt_mul_of_pos_right hxy (total_pos_of_usable h.toUsable mode)
  have hprogress := resolve_progress_mono h.toUsable mode hxy.le
  cases mode with
  | transitionOnly =>
      have helapsed (start : Rat) : start + Timeline.normalize x * q.transition ≤
          start + Timeline.normalize y * q.transition := by
        rw [normalize_of_mem hx, normalize_of_mem hy]
        exact add_le_add_right (mul_le_mul_of_nonneg_right hxy.le h.transition.le) start
      exact ⟨htime, hprogress, clampToClip_mono _ _ (helapsed _), clampToClip_mono _ _ (helapsed _),
        le_rfl⟩
  | fullSequence =>
      change (resolveFull x q).Before (resolveFull y q)
      change (resolveFull x q).time < (resolveFull y q).time at htime
      change (resolveFull x q).progress ≤ (resolveFull y q).progress at hprogress
      rw [resolveFull_at h, resolveFull_at h] at htime hprogress ⊢
      exact ⟨htime, hprogress, h.seamless.timeA.2 htime.le, h.seamless.timeB.2 htime.le,
        Params.sampleAt_phase_mono h htime.le⟩

theorem resolve_zero_progress (h : q.Safe) (mode : Mode) : (resolve mode 0 q).progress = 0 := by
  cases mode with
  | transitionOnly => exact normalize_of_mem ⟨le_rfl, zero_le_one⟩
  | fullSequence =>
      have hbefore : (0 * q.total .fullSequence - q.durationA) / q.transition ≤ 0 :=
        div_nonpos_of_nonpos_of_nonneg (by linarith [h.durationA]) h.transition.le
      change (resolveFull 0 q).progress = 0
      rw [resolveFull_progress h.toUsable, normalize_of_mem ⟨le_rfl, zero_le_one⟩, clamp_rat,
        max_eq_left (min_le_of_left_le hbefore)]

theorem resolve_one_progress (h : q.Safe) (mode : Mode) : (resolve mode 1 q).progress = 1 := by
  cases mode with
  | transitionOnly => exact normalize_of_mem ⟨zero_le_one, le_rfl⟩
  | fullSequence =>
      have hafter : 1 ≤ (1 * q.total .fullSequence - q.durationA) / q.transition := by
        rw [one_le_div h.transition]
        simp only [Params.total]
        linarith [h.durationB]
      change (resolveFull 1 q).progress = 1
      rw [resolveFull_progress h.toUsable, normalize_of_mem ⟨zero_le_one, le_rfl⟩, clamp_rat,
        min_eq_right hafter, max_eq_right zero_le_one]

/-! ## Planned frames -/

theorem frameProgress_mem {i n : Nat} (h : i < n) : (frameProgress i n : Rat) ∈ Set.Icc 0 1 :=
  ⟨frameProgress_nonneg i n, frameProgress_le_one h⟩

theorem frameProgress_lt {i j : Nat} (h : i < j) (n : Nat) :
    (frameProgress i n : Rat) < frameProgress j n := by
  rw [frameProgress_rat, frameProgress_rat]
  exact div_lt_div_of_pos_right (by exact_mod_cast h) (stepCount_pos n)

@[simp] theorem frameProgress_first (n : Nat) : (frameProgress 0 n : Rat) = 0 := by
  rw [frameProgress_rat, Nat.cast_zero, zero_div]

theorem frameProgress_last {n : Nat} (h : 2 ≤ n) : (frameProgress (n - 1) n : Rat) = 1 := by
  have hsteps : stepCount n = n - 1 := max_eq_left (Nat.le_sub_one_of_lt h)
  rw [frameProgress_rat, ← hsteps]
  exact div_self (stepCount_pos n).ne'

/-- Two frames are enough for a start and an end. -/
theorem walk_of_two_le {n : Nat} (h : q.Safe) (hn : 2 ≤ n) (mode : Mode) :
    Walk q mode n fun i => resolve mode (frameProgress i n) q where
  first := by
    rw [frameProgress_first]
    refine ⟨resolve_zero_progress h mode, ?_⟩
    rw [resolve_time h ⟨le_rfl, zero_le_one⟩, zero_mul]
  last := by
    rw [frameProgress_last hn]
    refine ⟨resolve_one_progress h mode, ?_⟩
    rw [resolve_time h ⟨zero_le_one, le_rfl⟩, one_mul]
  advance i j hij hj := resolve_before h (frameProgress_mem (hij.trans hj)) (frameProgress_mem hj)
    (frameProgress_lt hij n) mode
  within i _ := resolve_within h mode (frameProgress i n)

/-! ## The number of frames -/

theorem ceilCount_rat {x : Rat} (h : x ≤ maxCount) : ceilCount x = ⌈x⌉₊ := by
  have hceil : x.ceil.toNat = ⌈x⌉₊ := by
    rw [Rat.ceil_eq_neg_floor_neg]
    rfl
  change min x.ceil.toNat maxCount = ⌈x⌉₊
  rw [hceil]
  exact min_eq_left (Nat.ceil_le.mpr h)

/-- As few frames as last for the whole timeline. -/
theorem isLeast_frameCount {fps : Rat} {mode : Mode} (hfps : 0 < fps)
    (hfits : q.total mode * fps ≤ maxCount) :
    IsLeast {k : Nat | q.total mode ≤ k / fps} (frameCount mode q fps) := by
  have hcount : frameCount mode q fps = ⌈q.total mode * fps⌉₊ := by
    rw [frameCount, if_pos (isPositive_rat.mpr hfps), ceilCount_rat hfits]
  rw [hcount]
  constructor
  · rw [Set.mem_ofPred_eq, le_div_iff₀ hfps]
    exact Nat.le_ceil _
  · intro k hk
    rw [Set.mem_ofPred_eq, le_div_iff₀ hfps] at hk
    exact Nat.ceil_le.mpr hk

@[simp] theorem frameCount_rational (q : Params Rat) (mode : Mode) (fps : Rat) :
    frameCount mode q.rational (.rational fps) = frameCount mode q fps := by
  rw [frameCount, frameCount, isPositive_rational, total_rational, rational_mul]
  rfl

/-- Frames are planned for a rate only that is a number above zero. -/
theorem exists_of_frameCount {p : Params Extended} {mode : Mode} {fps : Extended}
    (h : frameCount mode p fps ≠ 0) : ∃ r : Rat, fps = .rational r ∧ 0 < r := by
  refine exists_of_isPositive ?_
  by_contra hfps
  exact h (if_neg hfps)

@[simp] theorem frameProgress_rational (i n : Nat) :
    (frameProgress i n : Extended) = .rational (frameProgress i n) :=
  rational_div _ (stepCount_pos n).ne'

theorem position_rational {x : Rat} (hx : x ∈ Set.Icc 0 1) : (Extended.rational x).position = x := by
  rw [Extended.position, min_eq_left hx.2, max_eq_right hx.1]

/-- A plan of at least two frames walks over the whole timeline. -/
theorem frames_walk {transition startA startB durationA durationB margin fps : Extended}
    {p : Params Extended} {mode : Mode}
    (hmake : Params.make transition startA startB durationA durationB = .ok p)
    (hfinite : isFinite margin = true) (hmargin : 0.0 ≤ margin)
    (hcount : 2 ≤ frameCount mode (p.withMargin margin) fps)
    (hfits : (p.withMargin margin).total mode * fps ≤ ofNat maxCount) :
    ∃ (q : Params Rat) (r : Rat) (s : Nat → Sample Rat),
      p.withMargin margin = q.rational ∧ durationA = .rational q.durationA ∧
      durationB = .rational q.durationB ∧ margin = .rational q.margin ∧ fps = .rational r ∧
      IsLeast {k : Nat | q.total mode ≤ k / r} (frameCount mode (p.withMargin margin) fps) ∧
      (∀ i < frameCount mode (p.withMargin margin) fps,
        resolve mode (frameProgress i (frameCount mode (p.withMargin margin) fps))
          (p.withMargin margin) = (s i).rational) ∧
      Walk q mode (frameCount mode (p.withMargin margin) fps) s := by
  obtain ⟨q, hq, hsafe, hA, hT, hB, hm⟩ := exists_rational_of_make hmake hfinite hmargin
  obtain ⟨r, rfl, hr⟩ := exists_of_frameCount (Nat.ne_of_gt (Nat.lt_of_lt_of_le Nat.two_pos hcount))
  rw [hq, total_rational, rational_mul] at hfits
  have hfits : q.total mode * r ≤ maxCount := (rational_le _ _).mp hfits
  rw [hq] at hcount ⊢
  rw [frameCount_rational] at hcount ⊢
  refine ⟨q, r, _, rfl, hA, hB, hm, rfl, isLeast_frameCount hr hfits, fun i hi => ?_,
    walk_of_two_le hsafe hcount mode⟩
  rw [frameProgress_rational, resolve_rational hsafe.toUsable,
    position_rational (frameProgress_mem hi)]

/-- Half a frame a second for six seconds: frames at the start, in the middle and at the end. -/
theorem frames_walk_overlong :
    Params.make (.rational 3) .nan (.infinite true) (.rational 1) (.rational 2) = .ok overlong ∧
      isFinite (Extended.rational 5) = true ∧ (0.0 : Extended) ≤ .rational 5 ∧
      2 ≤ frameCount .fullSequence (overlong.withMargin (.rational 5)) (.rational (1 / 2)) ∧
      (overlong.withMargin (.rational 5)).total .fullSequence * .rational (1 / 2) ≤
        ofNat maxCount ∧
      ∃ q : Params Rat, overlong.withMargin (.rational 5) = q.rational ∧
        IsLeast {k : Nat | q.total .fullSequence ≤ k / (1 / 2)} 3 ∧
        (resolve .fullSequence (frameProgress 2 3) (overlong.withMargin (.rational 5))).progress =
          .rational 1 := by
  have hmargin : (0.0 : Extended) ≤ .rational 5 := by decide +kernel
  have hcount :
      frameCount .fullSequence (overlong.withMargin (.rational 5)) (.rational (1 / 2)) = 3 := by
    decide +kernel
  have hfits : (overlong.withMargin (.rational 5)).total .fullSequence * .rational (1 / 2) ≤
      ofNat maxCount := by
    decide +kernel
  have htwo : 2 ≤ frameCount .fullSequence (overlong.withMargin (.rational 5))
      (.rational (1 / 2)) := by
    rw [hcount]
    decide
  obtain ⟨q, r, s, hq, -, -, -, hr, hleast, hsamples, hwalk⟩ :=
    frames_walk make_overlong rfl hmargin htwo hfits
  rw [hcount] at hleast hsamples hwalk
  injection hr with hr
  subst hr
  refine ⟨make_overlong, rfl, hmargin, htwo, hfits, q, hq, hleast, ?_⟩
  rw [hsamples 2 (by decide), ← hwalk.last.1]
  rfl

end Timeline

end Segue
