import Mathlib
import Segue.Settings.Basic
import Segue.Proofs.Timeline
import Segue.Proofs.Decimal.Difference

/-!
# Times that can be sought

The times of a sample lie in their clips, so that a clamp to the length of the clip changes nothing
in them. This rests on a few laws of comparison and subtraction that survive rounding: they hold of
the rational numbers, and of IEEE doubles with both zeros, the infinities and the values that are no
numbers.
-/

namespace Segue

open Scalar

/-- Laws of comparison and subtraction that survive rounding. -/
class Scalar.Ordered (α : Type) [Scalar α] : Prop where
  isFinite_zero : isFinite (0.0 : α) = true
  isNaN_of_isFinite {x : α} : isFinite x = true → isNaN x = false
  lt_asymm {x y : α} : x < y → ¬y < x
  lt_of_not_lt_of_lt {x y z : α} :
    isNaN x = false → isNaN y = false → ¬y < x → y < z → x < z
  isFinite_between {x y : α} : isFinite x = true → 0.0 < y → ¬x < y → isFinite y = true
  sub_zero {x : α} : isFinite x = true → x - 0.0 = x
  isNaN_sub {x m : α} : isFinite x = true → isNaN m = false → isNaN (x - m) = false
  not_lt_sub {x m : α} : isFinite x = true → isNaN m = false → ¬m < 0.0 → ¬x < x - m

instance : Scalar.Ordered Rat where
  isFinite_zero := rfl
  isNaN_of_isFinite _ := rfl
  lt_asymm := lt_asymm
  lt_of_not_lt_of_lt _ _ hxy hyz := (not_lt.mp hxy).trans_lt hyz
  isFinite_between _ _ _ := rfl
  sub_zero _ := by norm_num
  isNaN_sub _ _ := rfl
  not_lt_sub _ _ hm := by
    norm_num at hm ⊢
    exact hm

open Decimal in
instance : Scalar.Ordered Float where
  isFinite_zero := rfl
  isNaN_of_isFinite := Comparison.isNaN_of_isFinite
  lt_asymm hlt := Comparison.not_lt_of_le (Comparison.le_of_lt hlt)
  lt_of_not_lt_of_lt hx hy hxy hyz :=
    Comparison.lt_of_le_of_lt hx (Comparison.le_of_not_lt hx hy hxy) hyz
  isFinite_between hx hpos hxy := by
    have hzero := Comparison.le_of_lt hpos
    have hnumber := (Comparison.isNaN_of_le hzero).2
    have hle := Comparison.le_of_not_lt hnumber (Comparison.isNaN_of_isFinite hx) hxy
    exact Comparison.isFinite_of_between rfl hx hzero hle
  sub_zero _ := sub_zero_eq _
  isNaN_sub := isNaN_sub
  not_lt_sub := not_lt_sub

variable {α : Type} [Scalar α] [Ordered α]

namespace Scalar

@[simp]
theorem isNaN_zero : isNaN (0.0 : α) = false := Ordered.isNaN_of_isFinite Ordered.isFinite_zero

theorem greatest_zero {x : α} (hx : isNaN x = false) :
    greatest x 0.0 = if 0.0 < x then x else 0.0 := by
  simp only [greatest, hx, isNaN_zero, Bool.false_eq_true, if_false]

/-- The smaller value is a number, and not above a bound of the second one. -/
theorem least_bounded {x y bound : α} (hy : isNaN y = false) (hbound : isNaN bound = false)
    (hle : ¬bound < y) : isNaN (least x y) = false ∧ ¬bound < least x y := by
  unfold least
  by_cases hx : isNaN x = true
  · rw [if_pos hx]
    exact ⟨hy, hle⟩
  · rw [if_neg hx, if_neg (by simp [hy])]
    split
    · exact ⟨hy, hle⟩
    · rename_i hyx
      refine ⟨Bool.eq_false_of_not_eq_true hx, ?_⟩
      intro hlt
      exact hyx (Ordered.lt_of_not_lt_of_lt hy hbound hle hlt)

end Scalar

/-! ## Clamping once more -/

section

variable {duration : α}

theorem clampSeekTime_zero (hd : isPositive duration = true) :
    clampSeekTime 0.0 duration 0.0 = (0.0 : α) := by
  simp only [isPositive, Bool.and_eq_true, decide_eq_true_eq] at hd
  have hnumber : isNaN duration = false := Ordered.isNaN_of_isFinite hd.1
  have hle : ¬duration < 0.0 := Ordered.lt_asymm hd.2
  have hleast : least 0.0 duration = (0.0 : α) := by
    simp only [least, isNaN_zero, hnumber, hle, Bool.false_eq_true, if_false]
  rw [clampSeekTime, if_pos Ordered.isFinite_zero, Ordered.sub_zero hd.1, hleast,
    greatest_zero isNaN_zero, ite_self]

theorem clampSeekTime_of_pos {time : α} (hd : isFinite duration = true) (hpos : 0.0 < time)
    (hle : ¬duration < time) : clampSeekTime time duration 0.0 = time := by
  have hfinite : isFinite time = true := Ordered.isFinite_between hd hpos hle
  have hnumber : isNaN time = false := Ordered.isNaN_of_isFinite hfinite
  have hleast : least time duration = time := by
    simp only [least, hnumber, Ordered.isNaN_of_isFinite hd, hle, Bool.false_eq_true, if_false]
  rw [clampSeekTime, if_pos hfinite, Ordered.sub_zero hd, hleast, greatest_zero hnumber,
    if_pos hpos]

/-- A time in a clip stays as it is. -/
theorem clampSeekTime_clampToClip {margin : α} (hd : isPositive duration = true)
    (hnumber : isNaN margin = false) (hmargin : ¬margin < 0.0) (time : α) :
    clampSeekTime (Timeline.clampToClip time duration margin) duration 0.0 =
      Timeline.clampToClip time duration margin := by
  have hfinite : isFinite duration = true := (Bool.and_eq_true_iff.mp hd).1
  obtain ⟨hleast, hle⟩ := least_bounded (x := time) (Ordered.isNaN_sub hfinite hnumber)
    (Ordered.isNaN_of_isFinite hfinite) (Ordered.not_lt_sub hfinite hnumber hmargin)
  rw [Timeline.clampToClip, greatest_zero hleast]
  split
  · rename_i hpos
    exact clampSeekTime_of_pos hfinite hpos hle
  · exact clampSeekTime_zero hd

end

/-! ## The times of a sample -/

namespace Timeline

/-- Lengths and a margin that keep the times of every sample in their clips. -/
structure Params.Seekable (p : Params α) : Prop where
  durationA : isPositive p.durationA = true
  durationB : isPositive p.durationB = true
  number : isNaN p.margin = false
  margin : ¬p.margin < 0.0

omit [Ordered α] in
theorem durations_of_make {transition startA startB durationA durationB : α} {p : Params α}
    (h : Params.make transition startA startB durationA durationB = .ok p) :
    isPositive p.durationA = true ∧ isPositive p.durationB = true := by
  obtain ⟨-, hA, hB, rfl⟩ := make_eq_ok h
  exact ⟨hA, hB⟩

/-- A margin that is no number counts as none, as a negative one does. -/
theorem greatest_margin (margin : α) :
    isNaN (greatest margin 0.0) = false ∧ ¬greatest margin 0.0 < (0.0 : α) := by
  have hzero : ¬(0.0 : α) < 0.0 := fun h => Ordered.lt_asymm h h
  by_cases hmargin : isNaN margin = true
  · rw [greatest, if_pos hmargin]
    exact ⟨isNaN_zero, hzero⟩
  · have hnumber : isNaN margin = false := Bool.eq_false_of_not_eq_true hmargin
    rw [greatest_zero hnumber]
    split
    · rename_i hpos
      exact ⟨hnumber, Ordered.lt_asymm hpos⟩
    · exact ⟨isNaN_zero, hzero⟩

theorem seekable_of_timelineParams {s : Settings α} {durationA durationB margin : α}
    {p : Params α} (h : s.timelineParams durationA durationB margin = .ok p) : p.Seekable := by
  unfold Settings.timelineParams at h
  cases hmake : Params.make s.duration s.startA s.startB durationA durationB with
  | error e =>
      rw [hmake] at h
      cases h
  | ok q =>
      rw [hmake] at h
      cases h
      obtain ⟨hA, hB⟩ := durations_of_make hmake
      obtain ⟨hnumber, hmargin⟩ := greatest_margin margin
      exact ⟨hA, hB, hnumber, hmargin⟩

namespace Params.Seekable

variable {p : Params α}

theorem clampA (h : p.Seekable) (time : α) :
    clampSeekTime (p.clampA time) p.durationA 0.0 = p.clampA time :=
  clampSeekTime_clampToClip h.durationA h.number h.margin time

theorem clampB (h : p.Seekable) (time : α) :
    clampSeekTime (p.clampB time) p.durationB 0.0 = p.clampB time :=
  clampSeekTime_clampToClip h.durationB h.number h.margin time

theorem timeA (h : p.Seekable) (mode : Mode) (position : α) :
    clampSeekTime (resolve mode position p).timeA p.durationA 0.0 =
      (resolve mode position p).timeA := by
  cases mode with
  | transitionOnly => exact h.clampA _
  | fullSequence =>
      simp only [resolve, resolveFull]
      split
      · exact h.clampA _
      · split
        · exact h.clampA _
        · exact h.clampA _

theorem timeB (h : p.Seekable) (mode : Mode) (position : α) :
    clampSeekTime (resolve mode position p).timeB p.durationB 0.0 =
      (resolve mode position p).timeB := by
  cases mode with
  | transitionOnly => exact h.clampB _
  | fullSequence =>
      simp only [resolve, resolveFull]
      split
      -- clip B waits at its beginning while clip A plays alone
      · exact clampSeekTime_zero h.durationB
      · split
        · exact h.clampB _
        · exact h.clampB _

end Params.Seekable

end Timeline

end Segue
