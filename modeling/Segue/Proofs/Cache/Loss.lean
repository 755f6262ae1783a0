import Mathlib
import Segue.Proofs.Cache.Ceiling

/-!
# Clips that lose their length

A build looks at the lengths of its clips when it takes the cache over and whenever it begins a
further position. A loss that it meets there makes it fail, and nothing stays in the cache. A loss
that is over by then, or that comes after the last position has begun, goes unnoticed.
-/

namespace Segue

variable {α : Type} [Scalar α]

namespace Turn

def looks (t : Turn α) : Bool := (!t.build.hasBegun && t.after.2.hasBegun) || t.build.entersNext

/-- The build meets a clip without a length. -/
def meetsLoss (t : Turn α) : Bool := t.looks && !Build.bothUsable t.view

end Turn

namespace Build

variable {c : FrameCache α} {b : Build α}

theorem hasFailed_takeOver {v : View α} (hv : bothUsable v = false) :
    (takeOver v c b).2.hasFailed = true := by
  unfold takeOver
  cases hA : usableDuration (v.duration .a) with
  | none => exact hasFailed_finish rfl _ _
  | some durationA =>
      cases hB : usableDuration (v.duration .b) with
      | none => exact hasFailed_finish rfl _ _
      | some durationB => simp [bothUsable, hA, hB] at hv

theorem hasFailed_enterPosition {v : View α} (hlt : b.index < b.total)
    (hv : bothUsable v = false) : (enterPosition v c b).2.hasFailed = true := by
  unfold enterPosition
  rw [if_neg (Nat.not_le.mpr hlt), hv]
  split
  · exact hasFailed_finish rfl _ _
  · exact hasFailed_finish rfl _ _

end Build

/-- A build fails at the turn at which it meets a loss. -/
theorem Turn.hasFailed_of_meetsLoss {t : Turn α} (h : t.meetsLoss = true) :
    t.after.2.hasFailed = true := by
  obtain ⟨hlooks, hv⟩ : t.looks = true ∧ Build.bothUsable t.view = false := by
    simpa [meetsLoss] using h
  cases hbegun : t.build.hasBegun with
  | false =>
      have hafter : t.after.2.hasBegun = true := by
        cases hp : t.build.phase <;>
          simp_all [looks, Build.entersNext, Build.isReporting, Build.hasBegun]
      rcases Build.resume_of_not_hasBegun (c := t.cache) hbegun t.view t.sought with
        ⟨-, hyield⟩ | htake
      · rw [Turn.after, hyield] at hafter
        cases hafter
      · rw [Turn.after, htake]
        exact Build.hasFailed_takeOver hv
  | true =>
      obtain ⟨hreport, hlt⟩ : t.build.isReporting = true ∧ t.build.index + 1 < t.build.total := by
        simpa [looks, hbegun, Build.entersNext] using hlooks
      cases hp : t.build.phase with
      | report x =>
          have hafter : t.after = Build.enterPosition t.view t.cache
              { t.build with index := t.build.index + 1 } := by
            simp only [Turn.after, Build.resume, hp]
          rw [hafter]
          exact Build.hasFailed_enterPosition hlt hv
      | called => simp [Build.isReporting, hp] at hreport
      | grace => simp [Build.isReporting, hp] at hreport
      | seeking clip time => simp [Build.isReporting, hp] at hreport
      | settling clip => simp [Build.isReporting, hp] at hreport
      | ended o => simp [Build.isReporting, hp] at hreport

namespace FrameCache.Session

/-- A build that has met a loss has failed for good. -/
theorem hasFailed_of_meetsLoss (config : CacheConfig) (margin : α) (scale : Resampler)
    (events : List (Event α))
    {k : Nat} {x : BuildCall α}
    (hk : ((start config margin scale).run events).calls[k]? = some (.build x))
    (hloss : ∃ t ∈ turns k (start config margin scale) events, t.meetsLoss = true) :
    x.build.hasFailed = true := by
  induction events using List.reverseRecOn generalizing x with
  | nil => simp [run, start] at hk
  | append_singleton events e ih =>
      rw [run_append] at hk
      rw [turns_concat] at hloss
      cases hturn : ((start config margin scale).run events).turn? k e with
      | none =>
          rw [hturn, Option.toList_none, List.append_nil] at hloss
          exact ih (call_of_turn?_eq_none hturn hk) hloss
      | some t =>
          obtain ⟨-, -, ⟨y, hy, hbuild⟩, hold⟩ := turn_cases hturn
          obtain rfl : x = y := by simpa using hk.symm.trans hy
          rw [hturn, Option.toList_some] at hloss
          rw [hbuild]
          obtain ⟨t', ht', hmeets⟩ := hloss
          rcases List.mem_append.mp ht' with ht' | ht'
          · rcases hold with ⟨w, hw, hsame⟩ | ⟨hlength, -⟩
            · have hfailed := ih hw ⟨t', ht', hmeets⟩
              have hended := Build.hasEnded_of_hasFailed hfailed
              rw [← hsame] at hfailed hended
              have hafter : t.after = (t.cache, t.build) :=
                Build.resume_of_hasEnded hended t.view t.sought
              rw [hafter]
              exact hfailed
            · rw [turns_of_length_le config margin scale events hlength.le] at ht'
              cases ht'
          · obtain rfl := List.mem_singleton.mp ht'
            exact Turn.hasFailed_of_meetsLoss hmeets

/-- A build that meets a loss fails, and nothing of it stays in the cache. A build that nothing else
disturbs fails for no other reason: if it meets no loss, the cache keeps all that it has stored,
whatever its clips were like in between. -/
theorem loss_run (config : CacheConfig) (margin : α) (scale : Resampler)
    (events : List (Event α)) {k : Nat}
    {x : BuildCall α} (hk : ((start config margin scale).run events).calls[k]? = some (.build x)) :
    ((∃ t ∈ turns k (start config margin scale) events, t.meetsLoss = true) →
      x.build.hasFailed = true ∧
        (x.effect = some ((start config margin scale).run events).cache.generation →
          ((start config margin scale).run events).cache.rows = [])) ∧
    ∀ (params : Timeline.Params α) (total : Nat), total ≠ 0 →
      x.effect = some ((start config margin scale).run events).cache.generation →
      ((start config margin scale).run events).cache.isCancelled x.build.generation = false →
      (∀ t ∈ turns k (start config margin scale) events, t.sought ≠ .cancelled) →
      (∀ t ∈ turns k (start config margin scale) events, t.build.hasBegun = false →
        t.after.2.hasBegun = true → Build.Fits t.build.request margin t.view params total) →
      x.build.hasEnded = true →
      (x.build.hasFailed = false ↔
        ∀ t ∈ turns k (start config margin scale) events, t.meetsLoss = false) ∧
      (x.build.hasFailed = false → AtCeiling config params total
        ((start config margin scale).run events).cache x
        (turns k (start config margin scale) events)) := by
  have hsound := sound_run config margin scale events
  have hmeets := hasFailed_of_meetsLoss config margin scale events hk
  constructor
  · intro hloss
    exact ⟨hmeets hloss, fun heffect => (hsound.owner k x hk heffect).empty (hmeets hloss)⟩
  · intro params total htotal heffect hrunning hsought hfits hended
    have hnone : x.build.hasFailed = false →
        ∀ t ∈ turns k (start config margin scale) events, t.meetsLoss = false := by
      intro hfailed t ht
      rw [← Bool.not_eq_true]
      intro hloss
      exact absurd (hmeets ⟨t, ht, hloss⟩) (by simp [hfailed])
    have hceiling : (∀ t ∈ turns k (start config margin scale) events, t.meetsLoss = false) →
        AtCeiling config params total ((start config margin scale).run events).cache x
          (turns k (start config margin scale) events) := by
      intro hno
      have hcalm : Calm margin params total (turns k (start config margin scale) events) := by
        refine ⟨hfits, hsought, ?_⟩
        intro t ht henters
        have hmet := hno t ht
        simpa [Turn.meetsLoss, Turn.looks, henters] using hmet
      exact (fills_run events hk heffect hrunning hcalm).atCeiling hsound hk heffect htotal hended
    refine ⟨⟨hnone, ?_⟩, fun hfailed => hceiling (hnone hfailed)⟩
    intro hno
    have houtcome := (hceiling hno).outcome
    split at houtcome <;> simp [Build.hasFailed, houtcome, BuildOutcome.isSuccess]

/-- Both clips have lost their length. -/
def lostView : Build.View Rat := ⟨fun _ => none, fun _ => none⟩

/-- Both clips are lost while the only position is being taken. -/
def vanished : List (Event Rat) :=
  [.build oneFrame darkView, .resume 0 lostView .timedOut, .resume 0 lostView .completed]

/-- The clips are lost when the second of two positions is to begin. -/
def noticed : List (Event Rat) :=
  [.build (positions 2) darkView] ++ darkPair ++ [.resume 0 lostView .completed]

theorem loss_run_vanished :
    (∃ x, ((atStart tight).run noticed).calls[0]? = some (.build x) ∧ x.build.hasFailed = true) ∧
    ∃ x, ((atStart onePixel).run vanished).calls[0]? = some (.build x) ∧
      AtCeiling onePixel ⟨1, 0, 0, 1, 1, 0⟩ 1 ((atStart onePixel).run vanished).cache x
        (turns 0 (atStart onePixel) vanished) := by
  constructor
  · have hmeets : (turns 0 (atStart tight) noticed).any Turn.meetsLoss = true := by decide +kernel
    obtain ⟨t, ht, hloss⟩ := List.any_eq_true.mp hmeets
    have hbuild : ((atStart tight).run noticed).calls[0]?.any (!·.isClear) = true := by
      decide +kernel
    obtain ⟨call, hcall, hnot⟩ := (Option.any_eq_true _ _).mp hbuild
    cases call with
    | clear g => cases hnot
    | build x =>
        exact ⟨x, hcall, ((loss_run tight 0 Rehearsal.nearest noticed hcall).1 ⟨t, ht, hloss⟩).1⟩
  · have hcheck : ((atStart onePixel).run vanished).calls[0]?.any (fun call =>
        match call with
        | .build x => decide (x.effect = some ((atStart onePixel).run vanished).cache.generation) &&
            !((atStart onePixel).run vanished).cache.isCancelled x.build.generation &&
            x.build.hasEnded && !x.build.hasFailed
        | .clear _ => false) = true := by
      decide +kernel
    obtain ⟨call, hcall, hcheck⟩ := (Option.any_eq_true _ _).mp hcheck
    cases call with
    | clear g => cases hcheck
    | build x =>
        simp only [Bool.and_eq_true, decide_eq_true_eq, Bool.not_eq_true'] at hcheck
        obtain ⟨⟨⟨heffect, hrunning⟩, hended⟩, hfailed⟩ := hcheck
        have hsought : (turns 0 (atStart onePixel) vanished).all
            (fun t => decide (t.sought ≠ .cancelled)) = true := by
          decide +kernel
        simp only [List.all_eq_true, decide_eq_true_eq] at hsought
        have hfits := fits_first onePixel Rehearsal.nearest vanished.tail
          (fits_dark 1 1 (by decide +kernel) (by decide)) (by decide +kernel)
        have hloss := (loss_run onePixel 0 Rehearsal.nearest vanished hcall).2
          ⟨1, 0, 0, 1, 1, 0⟩ 1 (by decide) heffect hrunning hsought hfits hended
        exact ⟨x, hcall, hloss.2 hfailed⟩

/-- The build that lost its clips before it had captured a frame completes with a black pair. -/
theorem vanished_completes :
    ((turns 0 (atStart onePixel) vanished).map fun t =>
      (t.build.isSeeking, Build.bothUsable t.view)) =
        [(false, true), (true, false), (false, false)] ∧
    ((atStart onePixel).run vanished).calls[0]?.any (fun call =>
      match call with
      | .build x => !x.build.hasFailed && x.build.hasEnded
      | .clear _ => false) = true ∧
    ((atStart onePixel).run vanished).cache.isReady = true ∧
    ((atStart onePixel).run vanished).cache.rows.map (fun f => (f.frameA, f.frameB)) =
      [(.solid 1 1 ⟨0, 0, 0, 255⟩, .solid 1 1 ⟨0, 0, 0, 255⟩)] := by
  decide +kernel

end FrameCache.Session

end Segue
