import Mathlib
import Segue.Proofs.Export.Delivery
import Segue.Proofs.Export.Ending
import Segue.Proofs.Export.Later

/-!
# Aborted exports

After an abort no upload of the runs so far begins any more. A run that had not ended takes the
results of the uploads that had begun, and returns the frames that were stored.
-/

namespace Segue

variable {α : Type} [Scalar α]

namespace Exporter.Session

/-- Every run that has not ended is cancelled. -/
theorem Sound.cancelled_of_abort {s : Session α} (h : s.Sound) {k : Nat} {x : ExportCall α}
    (hk : s.runs[k]? = some x) (hended : x.run.hasEnded = false) :
    s.exporter.abort.isCancelled (k + 1) = true := by
  rw [isCancelled_iff]
  rcases (h.each k x hk).alive hended with hc | ht
  · exact List.mem_append_right _ (isCancelled_iff.mp hc)
  · exact List.mem_append_left _ (Option.mem_toList.mpr ht)

/-- A cancelled run that ends returns frames. -/
theorem Sound.exists_frames {s : Session α} (h : s.Sound) {k : Nat} {x : ExportCall α}
    (hk : s.runs[k]? = some x) (hc : s.exporter.isCancelled (k + 1) = true)
    (hended : x.run.hasEnded = true) :
    ∃ frames, x.run.phase = .ended (.ok frames) ∧ s.Delivered k x frames := by
  have horder := (h.each k x hk).inOrder
  rw [hc] at horder
  unfold Export.hasEnded at hended
  split at hended
  · rename_i result hp
    cases result with
    | ok frames => exact ⟨frames, hp, h.delivered hk hp⟩
    | error fault =>
        cases horder with
        | readying _ hp' => simp [hp] at hp'
        | refused _ _ _ _ hnot => cases hnot
        | quit _ hp' => simp [hp] at hp'
        | working hworking =>
            obtain ⟨-, hresult⟩ := hworking.ended _ hp
            cases hresult
  · cases hended

/-- No run up to the number `n` can begin an upload any more. -/
def Stopped (n : Nat) (s : Session α) : Prop :=
  ∀ t, s.exporter.token = some t → s.exporter.isCancelled t = true ∨ n < t

omit [Scalar α] in
theorem stopped_abort (s : Session α) :
    Stopped s.runs.length { s with exporter := s.exporter.abort } := by
  intro t ht
  left
  rw [isCancelled_iff]
  exact List.mem_append_left _ (Option.mem_toList.mpr ht)

omit [Scalar α] in
theorem Stopped.later {n : Nat} {s s' : Session α} (h : Stopped n s) (hn : n ≤ s.runs.length)
    (hlater : Later s s') : Stopped n s' := by
  intro t ht
  rcases hlater.token t ht with ht | hlt
  · rcases h t ht with hc | hlt
    · exact .inl (isCancelled_mono hlater.cancelled hc)
    · exact .inr hlt
  · exact .inr (hn.trans_lt hlt)

/-- An upload that is about to begin belongs to a later run. -/
theorem Stopped.lt_run {n : Nat} {s : Session α} (hstopped : Stopped n s) (h : s.Sound)
    {u : WaitingUpload} (hu : u ∈ s.exporter.waiting) (hc : s.exporter.isCancelled u.run = false) :
    n < u.run := by
  have hasked : u ∈ s.asked := by
    rw [h.ledger.begins.mem_iff]
    exact List.mem_append_left _ hu
  obtain ⟨k, hlt, hrun⟩ := h.asked_run u hasked
  have hk : s.runs[k]? = some s.runs[k] := List.getElem?_eq_getElem hlt
  rw [hrun] at hc ⊢
  -- a run that has ended has nothing left to begin, and all others have lost the token
  cases hended : s.runs[k].run.hasEnded with
  | true =>
      have hnone := h.waitingBy_of_hasEnded hk hended
      have hmem : u ∈ s.waitingBy (k + 1) := by simp [waitingBy, hu, hrun]
      rw [hnone] at hmem
      cases hmem
  | false =>
      rcases (h.each k _ hk).alive hended with hc' | ht
      · cases hc.symm.trans hc'
      · rcases hstopped (k + 1) ht with hc' | hlt
        · cases hc.symm.trans hc'
        · exact hlt

variable [Elementary α]

/-- After a stop, only uploads of later runs begin. -/
theorem Sound.begun_run {s : Session α} (h : s.Sound) {n : Nat} (hn : n ≤ s.runs.length)
    (hstopped : Stopped n s) (events : List (Event α)) :
    ∃ new, (s.run events).begun = s.begun ++ new ∧ ∀ p ∈ new, n < p.1.run := by
  have hrun := h.run_induction (P := fun t => n ≤ t.runs.length ∧ Stopped n t ∧
    ∃ new, t.begun = s.begun ++ new ∧ ∀ p ∈ new, n < p.1.run) ?_
    ⟨hn, hstopped, [], (List.append_nil _).symm, by simp⟩ events
  · exact hrun.2.2
  · rintro t t' ht hchange ⟨hle, hstop, new, hbegun, hnew⟩
    have hlater := hchange.later ht
    obtain ⟨more, hmore, hwaiting⟩ := hchange.exists_begun
    refine ⟨hle.trans hlater.length_le, hstop.later hle hlater, new ++ more, ?_, ?_⟩
    · rw [hmore, hbegun, List.append_assoc]
    · intro p hp
      rcases List.mem_append.mp hp with hp | hp
      · exact hnew p hp
      · obtain ⟨hmem, hc⟩ := hwaiting p hp
        exact hstop.lt_run ht hmem hc

/-- What an abort in `s` does, seen from a later session `s'`. -/
structure CleanCut (s s' : Session α) : Prop where
  begun : ∃ new, s'.begun = s.begun ++ new ∧ ∀ p ∈ new, s.runs.length < p.1.run
  live : ∀ (k : Nat) (x : ExportCall α), s.runs[k]? = some x → ∃ x', s'.runs[k]? = some x' ∧
    s'.Live k x'
  returned : ∀ (k : Nat) (x x' : ExportCall α), s.runs[k]? = some x → x.run.hasEnded = false →
    s'.runs[k]? = some x' → x'.run.hasEnded = true →
    s'.begunBy (k + 1) = s.begunBy (k + 1) ∧
      ∃ frames, x'.run.phase = .ended (.ok frames) ∧ s'.Delivered k x' frames
  off : s'.runs.length = s.runs.length → s'.exporter.status.isExporting = false

/-- Whenever an abort comes, nothing of the runs under way is begun after it, and nothing that was
begun before it is lost. -/
theorem cleanCut_run (p : RetryPolicy) (before later : List (Event α)) :
    CleanCut ((start p).run before) ((((start p).run before).step .abort).run later) := by
  have hbefore := sound_run p before
  generalize (start p : Session α).run before = s at hbefore ⊢
  have habort := (hbefore.change .abort).sound hbefore
  have hlater := habort.later_run later
  have hafter := habort.run later
  obtain ⟨new, hbegun, hnew⟩ := habort.begun_run (Nat.le_refl _) (stopped_abort s) later
  refine ⟨⟨new, hbegun, hnew⟩, ?_, ?_, ?_⟩
  · intro k x hk
    have hlt : k < s.runs.length := (List.getElem?_eq_some_iff.mp hk).1
    have hk' := List.getElem?_eq_getElem (hlt.trans_le hlater.length_le)
    exact ⟨_, hk', hafter.live hk'⟩
  · intro k x x' hk hended hk' hended'
    have hlt : k < s.runs.length := (List.getElem?_eq_some_iff.mp hk).1
    have hc := isCancelled_mono hlater.cancelled (hbefore.cancelled_of_abort hk hended)
    have hsame : ((s.step .abort).run later).begunBy (k + 1) = s.begunBy (k + 1) := by
      have hnone : new.filter (fun p => decide (p.1.run = k + 1)) = [] := by
        rw [List.filter_eq_nil_iff]
        intro p hp
        have hother : s.runs.length < p.1.run := hnew p hp
        simp only [decide_eq_true_eq]
        omega
      simp only [begunBy, hbegun, List.filter_append, hnone, List.append_nil]
      rfl
    exact ⟨hsame, hafter.exists_frames hk' hc hended'⟩
  · intro hlength
    cases hon : ((s.step .abort).run later).exporter.exporting with
    | false => exact hon
    | true =>
        rcases hlater.exporting hon with hoff | hlt
        · cases hoff
        · have hlt' : s.runs.length < ((s.step .abort).run later).runs.length := hlt
          omega

end Exporter.Session

end Segue
