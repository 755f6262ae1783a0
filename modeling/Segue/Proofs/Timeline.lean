import Mathlib
import Segue.Timeline

/-!
# The timeline in exact arithmetic

On rational numbers nothing is rounded. The planned positions of a build run from 0 to 1 in equal
steps, and the progress of the transition never falls as the position grows.
-/

namespace Segue

namespace Scalar

@[simp] theorem zero_rat : (0.0 : Rat) = 0 := by norm_num

@[simp] theorem one_rat : (1.0 : Rat) = 1 := by norm_num

@[simp] theorem isPositive_rat {x : Rat} : isPositive x = true ↔ 0 < x := by
  simp [isPositive, isFinite, zero_rat]

/-- The integral part of a number that fits. -/
theorem toCount_rat {x : Rat} (h : x ≤ maxCount) : toCount x = ⌊x⌋₊ := by
  have hfloor : ⌊x⌋₊ ≤ maxCount := Nat.floor_le_of_le h
  change min ⌊x⌋.toNat maxCount = ⌊x⌋₊
  rw [Int.floor_toNat]
  omega

theorem greatest_zero_rat {x : Rat} (h : 0 ≤ x) : greatest x 0.0 = x := by
  simp only [greatest, isNaN, zero_rat, Bool.false_eq_true, if_false]
  split
  · rfl
  · rename_i hzero
    exact le_antisymm h (not_lt.mp hzero)

end Scalar

open Scalar

namespace Timeline

@[simp] theorem clamp_rat (x : Rat) : clamp x 0.0 1.0 = max 0 (min x 1) := by
  unfold clamp
  rw [zero_rat, one_rat]
  split
  · rename_i h
    rw [max_eq_left (min_le_of_left_le h.le)]
  · rename_i h
    split
    · rename_i h'
      rw [min_eq_right h'.le, max_eq_right zero_le_one]
    · rename_i h'
      rw [min_eq_left (not_lt.mp h'), max_eq_right (not_lt.mp h)]

theorem clamp_mono {x y : Rat} (h : x ≤ y) : clamp x 0.0 1.0 ≤ clamp y 0.0 1.0 := by
  rw [clamp_rat, clamp_rat]
  exact max_le_max_left 0 (min_le_min_right 1 h)

/-! ## Lengths -/

/-- Lengths that can be used. -/
structure Params.Usable (p : Params Rat) : Prop where
  transition : 0 < p.transition
  durationA : 0 < p.durationA
  durationB : 0 < p.durationB

/-- Accepted lengths are positive and are taken as they are. -/
theorem make_eq_ok {α : Type} [Scalar α] {transition startA startB durationA durationB : α}
    {p : Params α} (h : Params.make transition startA startB durationA durationB = .ok p) :
    isPositive transition = true ∧ isPositive durationA = true ∧ isPositive durationB = true ∧
      p = { transition, startA := finiteOrZero startA, startB := finiteOrZero startB,
            durationA, durationB, margin := defaultMargin } := by
  unfold Params.make at h
  split at h
  · cases h
  · rename_i htransition
    split at h
    · cases h
    · rename_i hA
      split at h
      · cases h
      · rename_i hB
        cases h
        simp only [Bool.not_eq_true', Bool.not_eq_false] at htransition hA hB
        exact ⟨htransition, hA, hB, rfl⟩

theorem usable_of_make {transition startA startB durationA durationB margin : Rat}
    {p : Params Rat} (h : Params.make transition startA startB durationA durationB = .ok p) :
    (p.withMargin margin).Usable := by
  obtain ⟨htransition, hA, hB, rfl⟩ := make_eq_ok h
  exact ⟨isPositive_rat.mp htransition, isPositive_rat.mp hA, isPositive_rat.mp hB⟩

/-! ## The progress of the transition -/

/-- Both holds, before and after the transition, are those of the clamp. -/
theorem resolveFull_progress {p : Params Rat} (h : p.Usable) (x : Rat) :
    (resolveFull x p).progress =
      clamp ((Timeline.normalize x * p.total .fullSequence - p.durationA) / p.transition) 0.0 1.0 := by
  have htransition := h.transition
  unfold resolveFull
  dsimp only
  split
  · rename_i hfirst
    have hneg : (Timeline.normalize x * p.total .fullSequence - p.durationA) / p.transition ≤ 0 :=
      div_nonpos_of_nonpos_of_nonneg (by linarith) htransition.le
    rw [clamp_rat, min_eq_left (hneg.trans zero_le_one), max_eq_left hneg, zero_rat]
  · split
    · rfl
    · rename_i _ hlast
      have hpast : 1 ≤
          (Timeline.normalize x * p.total .fullSequence - p.durationA) / p.transition := by
        rw [one_le_div htransition]
        linarith
      rw [clamp_rat, min_eq_right hpast, max_eq_right zero_le_one, one_rat]

theorem total_pos {p : Params Rat} (h : p.Usable) : 0 < p.total .fullSequence :=
  add_pos (add_pos h.durationA h.transition) h.durationB

theorem resolve_progress_mono {p : Params Rat} (h : p.Usable) (mode : Mode) {x y : Rat}
    (hxy : x ≤ y) : (resolve mode x p).progress ≤ (resolve mode y p).progress := by
  have hnormal : Timeline.normalize x ≤ Timeline.normalize y := clamp_mono hxy
  cases mode with
  | transitionOnly => exact hnormal
  | fullSequence =>
      change (resolveFull x p).progress ≤ (resolveFull y p).progress
      rw [resolveFull_progress h, resolveFull_progress h]
      refine clamp_mono ?_
      have hscaled := mul_le_mul_of_nonneg_right hnormal (total_pos h).le
      exact div_le_div_of_nonneg_right (by linarith) h.transition.le

/-! ## Planned positions -/

theorem frameCount_le (mode : Mode) (p : Params Rat) (fps : Rat) :
    frameCount mode p fps ≤ maxCount := by
  unfold frameCount
  split
  · exact min_le_right _ _
  · exact Nat.zero_le _

/-- The number of steps from the first position of `n` to the last one. -/
def stepCount (n : Nat) : Nat := max (n - 1) 1

theorem stepCount_pos (n : Nat) : (0 : Rat) < stepCount n := by
  have hpos : 0 < stepCount n := Nat.lt_of_lt_of_le Nat.one_pos (le_max_right _ _)
  exact_mod_cast hpos

@[simp] theorem frameProgress_rat (i n : Nat) : (frameProgress i n : Rat) = i / stepCount n := rfl

theorem frameProgress_le_iff {i n : Nat} {p : Rat} :
    (frameProgress i n : Rat) ≤ p ↔ (i : Rat) ≤ p * stepCount n :=
  div_le_iff₀ (stepCount_pos n)

theorem frameProgress_mono {i j : Nat} (h : i ≤ j) (n : Nat) :
    (frameProgress i n : Rat) ≤ frameProgress j n := by
  rw [frameProgress_rat, frameProgress_rat]
  exact div_le_div_of_nonneg_right (by exact_mod_cast h) (stepCount_pos n).le

theorem frameProgress_nonneg (i n : Nat) : (0 : Rat) ≤ frameProgress i n :=
  div_nonneg (Nat.cast_nonneg i) (stepCount_pos n).le

theorem frameProgress_le_one {i n : Nat} (h : i < n) : (frameProgress i n : Rat) ≤ 1 := by
  have hle : i ≤ stepCount n := (Nat.le_sub_one_of_lt h).trans (le_max_left _ _)
  rw [frameProgress_le_iff, one_mul]
  exact_mod_cast hle

end Timeline

end Segue
