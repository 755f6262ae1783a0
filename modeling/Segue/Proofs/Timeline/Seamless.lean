import Mathlib
import Segue.Proofs.Timeline.Exact

/-!
# The full sequence has no seams

One closed form gives the sample of the full sequence at every time: clip A is held at its end,
clip B at its start, and the progress at both. So nothing jumps where clip B comes in or where clip
A goes out, also when a margin or a transition is longer than a clip.
-/

namespace Segue

open Scalar Extended

namespace Timeline

variable {q : Params Rat}

/-- The sample of the full sequence at time `t`. -/
def Params.sampleAt (q : Params Rat) (t : Rat) : Sample Rat where
  progress := max 0 (min ((t - q.durationA) / q.transition) 1)
  timeA := max 0 (min t (q.durationA - q.margin))
  timeB := max 0 (min (t - q.durationA) (q.durationB - q.margin))
  phase :=
    if t < q.durationA then .clipA
    else if t < q.durationA + q.transition then .transition
    else .clipB
  total := q.durationA + q.transition + q.durationB
  time := t

theorem clampToClip_rat (t d m : Rat) : clampToClip t d m = max 0 (min t (d - m)) := by
  have hleast : least t (d - m) = min t (d - m) := by
    by_cases h : d - m < t
    · exact (if_pos h).trans (min_eq_right h.le).symm
    · exact (if_neg h).trans (min_eq_left (not_lt.mp h)).symm
  rw [clampToClip, hleast, zero_rat, max_comm]
  by_cases h : 0 < min t (d - m)
  · exact (if_pos h).trans (max_eq_left h.le).symm
  · exact (if_neg h).trans (max_eq_right (not_lt.mp h)).symm

/-- While clip A plays alone, clip B is held at its start. -/
theorem resolveFull_clipA {t x : Rat} (ht : Timeline.normalize x * q.total .fullSequence = t)
    (h : q.Safe) (hlt : t < q.durationA) : resolveFull x q = q.sampleAt t := by
  have hprogress : (t - q.durationA) / q.transition ≤ 0 :=
    div_nonpos_of_nonpos_of_nonneg (sub_nonpos.mpr hlt.le) h.transition.le
  have hB : min (t - q.durationA) (q.durationB - q.margin) ≤ 0 :=
    min_le_of_left_le (sub_nonpos.mpr hlt.le)
  unfold resolveFull
  simp only [ht, if_pos hlt]
  simp only [Params.sampleAt, if_pos hlt, Params.clampA, clampToClip_rat, zero_rat, max_eq_left hB,
    max_eq_left (min_le_of_left_le hprogress), Params.total]

/-- In the transition clip A would play past its end, and the clamp holds it there. -/
theorem resolveFull_transition {t x : Rat}
    (ht : Timeline.normalize x * q.total .fullSequence = t) (hle : q.durationA ≤ t)
    (hlt : t < q.durationA + q.transition) : resolveFull x q = q.sampleAt t := by
  have hA : q.durationA + (t - q.durationA) = t := by ring
  unfold resolveFull
  simp only [ht, if_neg hle.not_gt, if_pos hlt]
  simp only [Params.sampleAt, if_neg hle.not_gt, if_pos hlt, Params.clampA, Params.clampB,
    clampToClip_rat, clamp_rat, hA, Params.total]

/-- Afterwards clip A stays at its last safe frame, and clip B goes on from where it was. -/
theorem resolveFull_clipB {t x : Rat} (ht : Timeline.normalize x * q.total .fullSequence = t)
    (h : q.Safe) (hle : q.durationA + q.transition ≤ t) : resolveFull x q = q.sampleAt t := by
  have hfirst : q.durationA ≤ t := le_trans (le_add_of_nonneg_right h.transition.le) hle
  have hprogress : 1 ≤ (t - q.durationA) / q.transition := by
    rw [one_le_div h.transition]
    exact le_sub_iff_add_le'.mpr hle
  have hheld : min q.durationA (q.durationA - q.margin) = min t (q.durationA - q.margin) := by
    have hend : q.durationA - q.margin ≤ q.durationA := sub_le_self _ h.margin
    rw [min_eq_right hend, min_eq_right (hend.trans hfirst)]
  have hB : q.transition + (t - (q.durationA + q.transition)) = t - q.durationA := by ring
  unfold resolveFull
  simp only [ht, if_neg hfirst.not_gt, if_neg hle.not_gt]
  simp only [Params.sampleAt, if_neg hfirst.not_gt, if_neg hle.not_gt, Params.clampA, Params.clampB,
    clampToClip_rat, hheld, hB, min_eq_right hprogress, max_eq_right zero_le_one, one_rat,
    Params.total]

theorem resolveFull_at (h : q.Safe) (x : Rat) :
    resolveFull x q = q.sampleAt (Timeline.normalize x * q.total .fullSequence) := by
  rcases lt_or_ge (Timeline.normalize x * q.total .fullSequence) q.durationA with hA | hA
  · exact resolveFull_clipA rfl h hA
  · rcases lt_or_ge (Timeline.normalize x * q.total .fullSequence)
      (q.durationA + q.transition) with hT | hT
    · exact resolveFull_transition rfl hA hT
    · exact resolveFull_clipB rfl h hT

/-! ## Continuity -/

/-- All four numbers of a sample change continuously and never fall. -/
structure Seamless (s : Rat → Sample Rat) : Prop where
  time : Continuous (fun x => (s x).time) ∧ Monotone fun x => (s x).time
  progress : Continuous (fun x => (s x).progress) ∧ Monotone fun x => (s x).progress
  timeA : Continuous (fun x => (s x).timeA) ∧ Monotone fun x => (s x).timeA
  timeB : Continuous (fun x => (s x).timeB) ∧ Monotone fun x => (s x).timeB

theorem Params.Safe.seamless (h : q.Safe) : Seamless q.sampleAt where
  time := ⟨continuous_id, monotone_id⟩
  progress := by
    constructor
    · simp only [Params.sampleAt]
      fun_prop
    · intro s t hst
      have hquotient : (s - q.durationA) / q.transition ≤ (t - q.durationA) / q.transition :=
        div_le_div_of_nonneg_right (sub_le_sub_right hst _) h.transition.le
      exact max_le_max_left 0 (min_le_min_right 1 hquotient)
  timeA := by
    constructor
    · simp only [Params.sampleAt]
      fun_prop
    · exact fun s t hst => max_le_max_left 0 (min_le_min_right _ hst)
  timeB := by
    constructor
    · simp only [Params.sampleAt]
      fun_prop
    · exact fun s t hst => max_le_max_left 0 (min_le_min_right _ (sub_le_sub_right hst _))

theorem Seamless.comp {s : Rat → Sample Rat} (h : Seamless s) {f : Rat → Rat} (hf : Continuous f)
    (hmono : Monotone f) : Seamless fun x => s (f x) where
  time := ⟨h.time.1.comp hf, h.time.2.comp hmono⟩
  progress := ⟨h.progress.1.comp hf, h.progress.2.comp hmono⟩
  timeA := ⟨h.timeA.1.comp hf, h.timeA.2.comp hmono⟩
  timeB := ⟨h.timeB.1.comp hf, h.timeB.2.comp hmono⟩

/-- At every position, also one that is no number or outside of the sequence, the full sequence
shows the sample of the closed form at that time, without seams. -/
theorem resolveFull_seamless {transition startA startB durationA durationB margin : Extended}
    {p : Params Extended}
    (hmake : Params.make transition startA startB durationA durationB = .ok p)
    (hfinite : isFinite margin = true) (hmargin : 0.0 ≤ margin) :
    ∃ q : Params Rat, durationA = .rational q.durationA ∧ transition = .rational q.transition ∧
      durationB = .rational q.durationB ∧ margin = .rational q.margin ∧
      (∀ x : Extended, resolveFull x (p.withMargin margin) =
        (q.sampleAt (x.position * (q.durationA + q.transition + q.durationB))).rational) ∧
      Seamless fun x =>
        q.sampleAt ((Extended.rational x).position * (q.durationA + q.transition + q.durationB)) := by
  obtain ⟨q, hq, hsafe, hA, hT, hB, hm⟩ := exists_rational_of_make hmake hfinite hmargin
  refine ⟨q, hA, hT, hB, hm, fun x => ?_, ?_⟩
  · have hfull := resolve_rational hsafe.toUsable .fullSequence x
    have hat := resolveFull_at hsafe x.position
    rw [normalize_position] at hat
    rw [hq]
    exact hfull.trans (congrArg Sample.rational hat)
  · refine hsafe.seamless.comp ?_ fun x y hxy => ?_
    · simp only [Extended.position]
      fun_prop
    · exact mul_le_mul_of_nonneg_right (max_le_max_left 0 (min_le_min_right 1 hxy))
        (total_pos hsafe.toUsable).le

/-- A transition longer than both clips. -/
def overlong : Params Extended where
  transition := .rational 3
  startA := 0.0
  startB := 0.0
  durationA := .rational 1
  durationB := .rational 2
  margin := defaultMargin

theorem make_overlong : Params.make (Extended.rational 3) .nan (.infinite true) (.rational 1)
    (.rational 2) = .ok overlong := by
  have hpositive : ∀ a : Rat, 0 < a → isPositive (Extended.rational a) = true := fun a ha => by
    rw [isPositive_rational, isPositive_rat]
    exact ha
  simp only [Params.make, hpositive 3 (by norm_num), hpositive 1 (by norm_num),
    hpositive 2 (by norm_num), Bool.not_true, Bool.false_eq_true, if_false]
  rfl

/-- Starts that are no numbers, a margin longer than the clips, and a position behind the end. -/
theorem resolveFull_seamless_overlong :
    Params.make (.rational 3) .nan (.infinite true) (.rational 1) (.rational 2) = .ok overlong ∧
      isFinite (Extended.rational 5) = true ∧ (0.0 : Extended) ≤ .rational 5 ∧
      resolveFull (.infinite false) (overlong.withMargin (.rational 5)) =
        ⟨.rational 1, .rational 0, .rational 0, .clipB, .rational 6, .rational 6⟩ := by
  have hmargin : (0.0 : Extended) ≤ .rational 5 := by decide +kernel
  obtain ⟨q, hA, hT, hB, hm, hat, -⟩ := resolveFull_seamless make_overlong rfl hmargin
  injection hA with hA
  injection hT with hT
  injection hB with hB
  injection hm with hm
  have hend : (Extended.infinite false).position = 1 := rfl
  refine ⟨make_overlong, rfl, hmargin, ?_⟩
  rw [hat, hend, ← hA, ← hT, ← hB]
  simp only [Params.sampleAt, Sample.rational, ← hA, ← hT, ← hB, ← hm]
  norm_num

end Timeline

end Segue
