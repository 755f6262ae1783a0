import Segue.Settings.Basic
import Segue.Proofs.Decimal.Finite

/-!
# Settings that can be used

Moving settings into their usable ranges is a projection onto the settings that are in them, and
with those a transition can be planned between any two clips.
-/

namespace Segue

open Decimal.Comparison

namespace Settings

/-- Every name says something, and every number is in its range. -/
structure Usable (s : Settings Float) : Prop where
  engine : Text.allBlank s.engine = false
  variant : Text.allBlank s.variant = false
  easing : Text.allBlank s.easing = false
  duration : 0.1 ≤ s.duration ∧ s.duration ≤ 10.0
  fps : 12 ≤ s.fps ∧ s.fps ≤ 60
  intensity : 0.0 ≤ s.intensity ∧ s.intensity ≤ 2.0
  startA : -600.0 ≤ s.startA ∧ s.startA ≤ 600.0
  startB : -600.0 ≤ s.startB ∧ s.startB ≤ 600.0

/-! ## Ranges -/

section Range

variable {lo hi standard x : Float}

theorem clampOr_cases (x lo hi standard : Float) :
    clampOr x lo hi standard = standard ∨ clampOr x lo hi standard = lo ∨
      clampOr x lo hi standard = hi ∨
      (clampOr x lo hi standard = x ∧ Scalar.isFinite x = true ∧ ¬x < lo ∧ ¬hi < x) := by
  unfold clampOr Scalar.clamp
  split
  · rename_i hfinite
    split
    · exact Or.inr (Or.inl rfl)
    · split
      · exact Or.inr (Or.inr (Or.inl rfl))
      · exact Or.inr (Or.inr (Or.inr ⟨rfl, hfinite, ‹_›, ‹_›⟩))
  · exact Or.inl rfl

theorem clampOr_mem (hrange : lo ≤ hi) (hstandard : lo ≤ standard ∧ standard ≤ hi) (x : Float) :
    lo ≤ clampOr x lo hi standard ∧ clampOr x lo hi standard ≤ hi := by
  obtain ⟨hlo, hhi⟩ := isNaN_of_le hrange
  rcases clampOr_cases x lo hi standard with h | h | h | ⟨h, hfinite, hlow, hhigh⟩
  · rwa [h]
  · rw [h]
    exact ⟨(le_iff hlo hlo).mpr le_rfl, hrange⟩
  · rw [h]
    exact ⟨hrange, (le_iff hhi hhi).mpr le_rfl⟩
  · have hx := (Decimal.isNaN_isInf_of_isFinite hfinite).1
    rw [h]
    exact ⟨le_of_not_lt hlo hx hlow, le_of_not_lt hx hhi hhigh⟩

theorem clampOr_of_mem (hlo : lo.isFinite = true) (hhi : hi.isFinite = true)
    (h : lo ≤ x ∧ x ≤ hi) : clampOr x lo hi standard = x := by
  have hfinite : Scalar.isFinite x = true := isFinite_of_between hlo hhi h.1 h.2
  unfold clampOr Scalar.clamp
  rw [if_pos hfinite, if_neg (not_lt_of_le h.1), if_neg (not_lt_of_le h.2)]

end Range

theorem orStandard_says {standard : String} (h : Text.allBlank standard = false) (name : String) :
    Text.allBlank (orStandard standard name) = false := by
  unfold orStandard
  split
  · exact h
  · exact Bool.eq_false_iff.mpr ‹_›

theorem orStandard_of_says {name : String} (h : Text.allBlank name = false) (standard : String) :
    orStandard standard name = name := by
  rw [orStandard, h, if_neg Bool.false_ne_true]

theorem clampFps_mem (fps : UInt32) : 12 ≤ clampFps fps ∧ clampFps fps ≤ 60 := by
  unfold clampFps
  split
  · decide
  · split
    · decide
    · exact ⟨UInt32.not_lt.mp ‹_›, UInt32.not_lt.mp ‹_›⟩

theorem clampFps_of_mem {fps : UInt32} (h : 12 ≤ fps ∧ fps ≤ 60) : clampFps fps = fps := by
  rw [clampFps, if_neg (UInt32.not_lt.mpr h.1), if_neg (UInt32.not_lt.mpr h.2)]

/-! ## The projection -/

theorem usable_sanitized (s : Settings Float) : s.sanitized.Usable where
  engine := orStandard_says (by decide +kernel) _
  variant := orStandard_says (by decide +kernel) _
  easing := orStandard_says (by decide +kernel) _
  duration := clampOr_mem (by decide +kernel) (by decide +kernel) _
  fps := clampFps_mem _
  intensity := clampOr_mem (by decide +kernel) (by decide +kernel) _
  startA := clampOr_mem (by decide +kernel) (by decide +kernel) _
  startB := clampOr_mem (by decide +kernel) (by decide +kernel) _

theorem Usable.sanitized_eq {s : Settings Float} (h : s.Usable) : s.sanitized = s := by
  have hstart {x : Float} (hx : -600.0 ≤ x ∧ x ≤ 600.0) : clampOr x (-600.0) 600.0 0.0 = x :=
    clampOr_of_mem (by decide +kernel) (by decide +kernel) hx
  rw [sanitized, orStandard_of_says h.engine, orStandard_of_says h.variant,
    orStandard_of_says h.easing, clampOr_of_mem (by decide +kernel) (by decide +kernel) h.duration,
    clampFps_of_mem h.fps, clampOr_of_mem (by decide +kernel) (by decide +kernel) h.intensity,
    hstart h.startA, hstart h.startB]

theorem Usable.isFinite {s : Settings Float} (h : s.Usable) :
    ∀ x ∈ [s.duration, s.intensity, s.startA, s.startB], Scalar.isFinite x = true := by
  have hbetween {lo hi : Float} (hlo : lo.isFinite = true) (hhi : hi.isFinite = true) {x : Float}
      (hx : lo ≤ x ∧ x ≤ hi) : Scalar.isFinite x = true := isFinite_of_between hlo hhi hx.1 hx.2
  simp only [List.forall_mem_cons, List.not_mem_nil, IsEmpty.forall_iff, implies_true, and_true]
  exact ⟨hbetween (by decide +kernel) (by decide +kernel) h.duration,
    hbetween (by decide +kernel) (by decide +kernel) h.intensity,
    hbetween (by decide +kernel) (by decide +kernel) h.startA,
    hbetween (by decide +kernel) (by decide +kernel) h.startB⟩

theorem Usable.timelineParams {s : Settings Float} (h : s.Usable) {durationA durationB : Float}
    (hA : Scalar.isPositive durationA = true) (hB : Scalar.isPositive durationB = true)
    (margin : Float) :
    s.timelineParams durationA durationB margin = .ok
      { transition := s.duration, startA := s.startA, startB := s.startB, durationA, durationB
        margin := Scalar.greatest margin 0.0 } := by
  have hfinite := h.isFinite
  simp only [List.forall_mem_cons] at hfinite
  obtain ⟨hduration, -, hstartA, hstartB, -⟩ := hfinite
  have hless : (0.0 : Float) < s.duration :=
    lt_of_lt_of_le (by decide +kernel) (by decide +kernel) h.duration.1
  have hpositive : Scalar.isPositive s.duration = true := by
    simp [Scalar.isPositive, hduration, hless]
  unfold Settings.timelineParams Timeline.Params.make Timeline.finiteOrZero
  rw [hpositive, hA, hB, if_pos hstartA, if_pos hstartB]
  rfl

/-- Sanitizing is the projection onto the usable settings: it ends there, moves nothing that is
there, leaves alone what has no range, and lets every pair of clips be planned. -/
theorem sanitized_projects (s : Settings Float) :
    s.sanitized.Usable ∧ s.sanitized.sanitized = s.sanitized ∧ (s.sanitized = s ↔ s.Usable) ∧
      { s.sanitized with
        engine := s.engine, variant := s.variant, duration := s.duration, fps := s.fps
        intensity := s.intensity, easing := s.easing, startA := s.startA, startB := s.startB } = s ∧
      ∀ durationA durationB margin, Scalar.isPositive durationA = true →
        Scalar.isPositive durationB = true →
        s.sanitized.timelineParams durationA durationB margin = .ok
          { transition := s.sanitized.duration, startA := s.sanitized.startA
            startB := s.sanitized.startB, durationA, durationB
            margin := Scalar.greatest margin 0.0 } := by
  have husable := s.usable_sanitized
  refine ⟨husable, husable.sanitized_eq, ⟨fun h => ?_, Usable.sanitized_eq⟩, rfl,
    fun _ _ margin hA hB => husable.timelineParams hA hB margin⟩
  rwa [h] at husable

/-- Settings with nothing usable in them. -/
def unusable : Settings Float :=
  { standard with
    engine := "", variant := " ", easing := "\t", duration := 0.0 / 0.0, fps := 0
    intensity := -1.0 / 0.0, startA := -0.0, startB := 1.0 / 0.0 }

theorem sanitized_projects_unusable :
    (unusable.sanitized = unusable ↔ unusable.Usable) ∧ ¬unusable.Usable ∧
      unusable.sanitized.timelineParams 5.0 0.5 (0.0 / 0.0) = .ok
        { transition := unusable.sanitized.duration, startA := unusable.sanitized.startA
          startB := unusable.sanitized.startB, durationA := 5.0, durationB := 0.5
          margin := Scalar.greatest (0.0 / 0.0) 0.0 } := by
  obtain ⟨-, -, hsame, -, hplan⟩ := sanitized_projects unusable
  exact ⟨hsame, fun h => absurd h.engine (by decide +kernel),
    hplan 5.0 0.5 (0.0 / 0.0) (by decide +kernel) (by decide +kernel)⟩

end Settings

end Segue
