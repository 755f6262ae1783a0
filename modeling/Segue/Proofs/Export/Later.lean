import Mathlib
import Segue.Proofs.Export.Soundness

/-!
# What lasts

What one state of a session says of every later one. Nothing is taken back: runs stay, a
cancellation is for good, and the results of a run are taken in the order in which they came.
-/

namespace Segue

variable {α : Type} [Scalar α]

namespace Exporter.Session

/-- The results of a run in the order in which its uploads ended. -/
def completedBy (s : Session α) (run : Nat) : List FinishedUpload :=
  s.collectedBy run ++ s.finishedBy run

/-- The session `s'` comes after `s`. -/
structure Later (s s' : Session α) : Prop where
  length_le : s.runs.length ≤ s'.runs.length
  cancelled : ∀ t ∈ s.exporter.cancelled, t ∈ s'.exporter.cancelled
  token : ∀ t, s'.exporter.token = some t → s.exporter.token = some t ∨ s.runs.length < t
  exporting : s'.exporter.exporting = true →
    s.exporter.exporting = true ∨ s.runs.length < s'.runs.length
  completed : ∀ run, s.completedBy run <+: s'.completedBy run

omit [Scalar α] in
theorem Later.refl (s : Session α) : Later s s :=
  ⟨Nat.le_refl _, fun _ ht => ht, fun _ ht => .inl ht, .inl, fun _ => List.prefix_refl _⟩

omit [Scalar α] in
theorem Later.trans {s s' s'' : Session α} (h : Later s s') (h' : Later s' s'') : Later s s'' where
  length_le := h.length_le.trans h'.length_le
  cancelled t ht := h'.cancelled t (h.cancelled t ht)
  token t ht := by
    rcases h'.token t ht with ht | hlt
    · exact h.token t ht
    · exact .inr (h.length_le.trans_lt hlt)
  exporting hon := by
    rcases h'.exporting hon with hon | hlt
    · rcases h.exporting hon with hon | hlt
      · exact .inl hon
      · exact .inr (hlt.trans_le h'.length_le)
    · exact .inr (h.length_le.trans_lt hlt)
  completed run := (h.completed run).trans (h'.completed run)

omit [Scalar α] in
/-- An exporter on which no run has acted. -/
theorem Later.of_exporter {s s' : Session α} (hruns : s'.runs = s.runs)
    (hcollected : s'.collected = s.collected)
    (hcancelled : ∀ t ∈ s.exporter.cancelled, t ∈ s'.exporter.cancelled)
    (htoken : s'.exporter.token = s.exporter.token)
    (hexporting : s'.exporter.exporting = true → s.exporter.exporting = true)
    (hfinished : s.exporter.finished <+: s'.exporter.finished) : Later s s' where
  length_le := by rw [hruns]
  cancelled := hcancelled
  token t ht := .inl (htoken.symm.trans ht)
  exporting hon := .inl (hexporting hon)
  completed run := by
    simp only [completedBy, collectedBy, finishedBy, hcollected]
    rw [List.prefix_append_right_inj]
    exact hfinished.filter _

theorem Change.later {s s' : Session α} (h : s.Sound) (hchange : Change s s') : Later s s' := by
  cases hchange with
  | stay => exact .refl s
  | @call y retry hcalled hretry =>
      refine ⟨?_, ?_, ?_, ?_, ?_⟩
      · rw [List.length_append]
        exact Nat.le_add_right _ _
      · exact fun t ht => (mem_cancelled_iff hcalled.cancelled).mpr (.inl ht)
      · intro t ht
        have hnew := hcalled.token t ht
        have hcount := h.count
        right
        omega
      · intro _
        right
        rw [List.length_append]
        exact Nat.lt_add_one _
      · intro run
        simp only [completedBy, finishedBy, hcalled.finished]
        exact List.prefix_refl _
  | @advance k x x' taken left y ha =>
      obtain ⟨-, frames, hspared, -⟩ := ha.exists_frames h
      refine ⟨?_, ?_, ?_, ?_, ?_⟩
      · rw [List.length_set]
      · exact fun t ht => hspared.cancelled.symm ▸ ht
      · exact fun t ht => .inl (hspared.token_of ht)
      · exact fun hon => .inl (hspared.exporting hon)
      · intro run
        simp only [completedBy, collectedBy, finishedBy, hspared.finished, ha.filter_eq,
          List.filter_append, List.append_assoc]
        exact List.prefix_refl _
  | seek hk houtcome =>
      refine ⟨?_, fun _ ht => ht, fun _ ht => .inl ht, .inl, fun _ => List.prefix_refl _⟩
      rw [List.length_set]
  | begin due ending hj hc =>
      exact .of_exporter rfl rfl (fun _ ht => ht) rfl id (List.prefix_refl _)
  | skip hj hc => exact .of_exporter rfl rfl (fun _ ht => ht) rfl id (List.prefix_append _ _)
  | tick millis => exact .of_exporter rfl rfl (fun _ ht => ht) rfl id (List.prefix_append _ _)
  | cancel hwaiting hrunning hfinished hgeneration htoken hcancelled hexporting =>
      refine .of_exporter rfl rfl ?_ htoken ?_ ?_
      · exact fun t ht => (mem_cancelled_iff hcancelled).mpr (.inl ht)
      · intro hon
        cases hexporting.symm.trans hon
      · rw [hfinished]

/-- An upload begins only while its run is not cancelled. -/
theorem Change.exists_begun {s s' : Session α} (hchange : Change s s') :
    ∃ new, s'.begun = s.begun ++ new ∧
      ∀ p ∈ new, p.1 ∈ s.exporter.waiting ∧ s.exporter.isCancelled p.1.run = false := by
  cases hchange with
  | @begin j u due ending hj hc =>
      refine ⟨[(u, ending)], rfl, ?_⟩
      intro p hp
      obtain rfl : p = (u, ending) := by simpa using hp
      exact ⟨List.mem_of_getElem? hj, hc⟩
  | _ => exact ⟨[], (List.append_nil _).symm, by simp⟩

variable [Elementary α]

/-- What every change keeps of a sound session. -/
theorem Sound.run_induction {P : Session α → Prop}
    (hstep : ∀ s s', s.Sound → Change s s' → P s → P s') {s : Session α} (h : s.Sound) (hs : P s)
    (events : List (Event α)) : P (s.run events) := by
  induction events generalizing s with
  | nil => exact hs
  | cons e events ih =>
      have hchange := h.change e
      exact ih (hchange.sound h) (hstep s (s.step e) h hchange hs)

theorem Sound.later_run {s : Session α} (h : s.Sound) (events : List (Event α)) :
    Later s (s.run events) := by
  refine h.run_induction (P := Later s) ?_ (.refl s) events
  intro t t' ht hchange hlater
  exact hlater.trans (hchange.later ht)

end Exporter.Session

end Segue
