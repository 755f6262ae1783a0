import Mathlib
import Segue.Proofs.Export.Session

/-!
# The ledger of uploads

No upload is lost or doubled on its way. What was asked for waits, was begun or was skipped; what
was begun or skipped is under way, has finished or was collected.
-/

namespace Segue

variable {α : Type}

namespace Exporter

@[simp]
theorem isCancelled_iff {e : Exporter α} {t : Nat} : e.isCancelled t = true ↔ t ∈ e.cancelled :=
  List.contains_iff_mem

theorem isCancelled_mono {e e' : Exporter α} (h : ∀ t ∈ e.cancelled, t ∈ e'.cancelled) {t : Nat}
    (ht : e.isCancelled t = true) : e'.isCancelled t = true :=
  isCancelled_iff.mpr (h t (isCancelled_iff.mp ht))

/-! ## Queues -/

theorem perm_of_takeFirst? {run : Nat} {us left : List FinishedUpload} {u : FinishedUpload}
    (h : takeFirst? run us = some (u, left)) : us.Perm (u :: left) ∧ u.run = run := by
  induction us generalizing left with
  | nil => cases h
  | cons v vs ih =>
      unfold takeFirst? at h
      split at h
      · rename_i hrun
        cases h
        exact ⟨List.Perm.refl _, hrun⟩
      · obtain ⟨⟨w, rest⟩, hrest, heq⟩ := Option.map_eq_some_iff.mp h
        cases heq
        obtain ⟨hperm, hrun⟩ := ih hrest
        exact ⟨(hperm.cons v).trans (List.Perm.swap u v rest), hrun⟩

theorem filter_takeFirst? {run : Nat} {us left : List FinishedUpload} {u : FinishedUpload}
    (h : takeFirst? run us = some (u, left)) (n : Nat) :
    us.filter (·.run = n) = (if run = n then [u] else []) ++ left.filter (·.run = n) := by
  induction us generalizing left with
  | nil => cases h
  | cons v vs ih =>
      unfold takeFirst? at h
      split at h
      · rename_i hrun
        cases h
        by_cases hn : run = n
        · simp [hn, hrun]
        · simp [hn, hrun]
      · rename_i hrun
        obtain ⟨⟨w, rest⟩, hrest, heq⟩ := Option.map_eq_some_iff.mp h
        cases heq
        rw [List.filter_cons, List.filter_cons, ih hrest]
        by_cases hn : run = n
        · have hv : v.run ≠ n := fun hv => hrun (hv.trans hn.symm)
          simp [hn, hv]
        · simp [hn]

theorem takeFirst?_isSome {run : Nat} {us : List FinishedUpload}
    (h : us.filter (·.run = run) ≠ []) : ∃ u left, takeFirst? run us = some (u, left) := by
  induction us with
  | nil => exact absurd rfl h
  | cons v vs ih =>
      unfold takeFirst?
      by_cases hrun : v.run = run
      · exact ⟨v, vs, if_pos hrun⟩
      · have hvs : vs.filter (·.run = run) ≠ [] := by
          simpa [List.filter_cons, hrun] using h
        obtain ⟨u, left, hleft⟩ := ih hvs
        exact ⟨u, v :: left, by simp [hrun, hleft]⟩

theorem insertDue_perm (u : RunningUpload) (us : List RunningUpload) :
    (insertDue u us).Perm (u :: us) := by
  induction us with
  | nil => exact List.Perm.refl _
  | cons v vs ih =>
      unfold insertDue
      split
      · exact List.Perm.refl _
      · exact (ih.cons v).trans (List.Perm.swap u v vs)

theorem foldl_insertDue_perm (us sorted : List RunningUpload) :
    (us.foldl (fun us u => insertDue u us) sorted).Perm (us ++ sorted) := by
  induction us generalizing sorted with
  | nil => exact List.Perm.refl _
  | cons u us ih =>
      have hinsert := (insertDue_perm u sorted).append_left us
      exact (ih _).trans (hinsert.trans List.perm_middle)

theorem finishDue_perm (e : Exporter α) (millis : Nat) :
    ((e.finishDue millis).running.map (·.finish) ++ (e.finishDue millis).finished).Perm
      (e.running.map (·.finish) ++ e.finished) := by
  have hended := (foldl_insertDue_perm (e.running.filter fun u => u.due ≤ millis) []).map
    RunningUpload.finish
  rw [List.append_nil] at hended
  have hparts := (List.filter_append_perm (fun u => decide (u.due ≤ millis)) e.running).map
    RunningUpload.finish
  rw [List.map_append] at hparts
  simp only [finishDue, List.partition_eq_filter_filter]
  refine List.Perm.trans ?_ (hparts.append_right e.finished)
  rw [← List.append_assoc]
  refine List.perm_append_comm.trans ?_
  rw [← List.append_assoc]
  exact (hended.append_right _).append_right _

/-! ## The books -/

namespace Session

structure Ledger (s : Session α) : Prop where
  begins : s.asked.Perm (s.exporter.waiting ++ (s.begun.map Prod.fst ++ s.skipped))
  ends : (s.begun.map (fun p => p.1.finish p.2) ++ s.skipped.map (·.finish .skipped)).Perm
    (s.exporter.running.map (·.finish) ++ (s.exporter.finished ++ s.collected))
  skipped_cancelled : ∀ u ∈ s.skipped, s.exporter.isCancelled u.run = true

theorem Ledger.cancel {s : Session α} (h : s.Ledger) {e : Exporter α}
    (hwaiting : e.waiting = s.exporter.waiting) (hrunning : e.running = s.exporter.running)
    (hfinished : e.finished = s.exporter.finished)
    (hcancelled : ∀ t ∈ s.exporter.cancelled, t ∈ e.cancelled) :
    Ledger { s with exporter := e } where
  begins := hwaiting ▸ h.begins
  ends := by
    change List.Perm _ (e.running.map _ ++ (e.finished ++ s.collected))
    rw [hrunning, hfinished]
    exact h.ends
  skipped_cancelled u hu := isCancelled_mono hcancelled (h.skipped_cancelled u hu)

theorem Ledger.begin {s : Session α} (h : s.Ledger) {j : Nat} {u : WaitingUpload}
    (hj : s.exporter.waiting[j]? = some u) (due : Nat) (ending : UploadEnd) :
    Ledger { s with
      exporter := { s.exporter with
        waiting := s.exporter.waiting.eraseIdx j }.beginUpload u due ending
      begun := s.begun ++ [(u, ending)] } := by
  refine ⟨?_, ?_, h.skipped_cancelled⟩
  · obtain ⟨hlt, hu⟩ := List.getElem?_eq_some_iff.mp hj
    have hperm := List.getElem_cons_eraseIdx_perm hlt
    rw [hu] at hperm
    refine h.begins.trans ((hperm.symm.append_right _).trans ?_)
    simp only [beginUpload, List.map_append, List.map_cons, List.map_nil, List.append_assoc]
    refine List.perm_middle.symm.trans ?_
    refine List.Perm.append_left _ ?_
    exact List.perm_middle.symm
  · simp only [beginUpload, List.map_append, List.map_cons, List.map_nil, List.append_assoc]
    refine List.perm_middle.trans ((h.ends.cons (u.finish ending)).trans ?_)
    exact List.perm_middle.symm

theorem Ledger.skip {s : Session α} (h : s.Ledger) {j : Nat} {u : WaitingUpload}
    (hj : s.exporter.waiting[j]? = some u) (hcancelled : s.exporter.isCancelled u.run = true) :
    Ledger { s with
      exporter := { s.exporter with waiting := s.exporter.waiting.eraseIdx j }.skipUpload u
      skipped := s.skipped ++ [u] } := by
  refine ⟨?_, ?_, ?_⟩
  · obtain ⟨hlt, hu⟩ := List.getElem?_eq_some_iff.mp hj
    have hperm := List.getElem_cons_eraseIdx_perm hlt
    rw [hu] at hperm
    refine h.begins.trans ((hperm.symm.append_right _).trans ?_)
    have hlast := List.perm_append_singleton u
      (s.exporter.waiting.eraseIdx j ++ (s.begun.map Prod.fst ++ s.skipped))
    simp only [List.append_assoc] at hlast
    exact hlast.symm
  · have hlast := h.ends.append_right [u.finish .skipped]
    simp only [List.append_assoc] at hlast
    simp only [skipUpload, List.map_append, List.map_cons, List.map_nil, List.append_assoc]
    refine hlast.trans (List.Perm.append_left _ (List.Perm.append_left _ ?_))
    exact List.perm_append_comm
  · intro v hv
    rcases List.mem_append.mp hv with hv | hv
    · exact h.skipped_cancelled v hv
    · obtain rfl : v = u := by simpa using hv
      exact hcancelled

theorem Ledger.tick {s : Session α} (h : s.Ledger) (millis : Nat) :
    Ledger { s with exporter := s.exporter.finishDue millis } := by
  refine ⟨h.begins, ?_, h.skipped_cancelled⟩
  have hperm := (finishDue_perm s.exporter millis).append_right s.collected
  simp only [List.append_assoc] at hperm
  exact h.ends.trans hperm.symm

/-! ## One run -/

/-- The ends of the uploads of a run that have begun or were skipped. -/
theorem Ledger.endsBy {s : Session α} (h : s.Ledger) (run : Nat) :
    ((s.begunBy run).map (fun p => p.1.finish p.2) ++
      (s.skippedBy run).map (·.finish .skipped)).Perm
      ((s.runningBy run).map (·.finish) ++ (s.finishedBy run ++ s.collectedBy run)) := by
  have hperm := h.ends.filter (fun u => decide (u.run = run))
  simp only [List.filter_append, List.filter_map] at hperm
  exact hperm

theorem Ledger.beginsBy {s : Session α} (h : s.Ledger) (run : Nat) :
    (s.askedBy run).Perm ((s.waitingBy run).map (·.frame) ++
      ((s.begunBy run).map (·.1.frame) ++ (s.skippedBy run).map (·.frame))) := by
  have hperm := (h.begins.filter (fun u => decide (u.run = run))).map (·.frame)
  simp only [List.filter_append, List.filter_map, List.map_append, List.map_map] at hperm
  exact hperm

/-- Every index asked for is that of one upload. -/
theorem Ledger.indices {s : Session α} (h : s.Ledger) (run : Nat) :
    ((s.askedBy run).map (·.index)).Perm ((s.waitingBy run).map (·.frame.index) ++
      ((s.runningBy run).map (·.index) ++
        ((s.finishedBy run).map (·.index) ++ (s.collectedBy run).map (·.index)))) := by
  have hbegins := (h.beginsBy run).map (·.index)
  have hends := (h.endsBy run).map (·.index)
  simp only [List.map_append, List.map_map] at hbegins hends
  exact hbegins.trans (hends.append_left _)

/-- An upload whose result waits to be taken is not one whose result was taken. -/
theorem Ledger.index_ne {s : Session α} (h : s.Ledger) {run : Nat}
    (hsorted : ((s.askedBy run).map (·.index)).Pairwise (· < ·)) {u v : FinishedUpload}
    (hu : u ∈ s.finishedBy run) (hv : v ∈ s.collectedBy run) : v.index ≠ u.index := by
  have hnodup := (h.indices run).nodup_iff.mp hsorted.nodup
  have hlast := (List.nodup_append.mp (List.nodup_append.mp hnodup).2.1).2.1
  have hdisjoint := (List.nodup_append.mp hlast).2.2
  exact (hdisjoint u.index (List.mem_map_of_mem hu) v.index (List.mem_map_of_mem hv)).symm

/-- Everything asked for by a run is somewhere. -/
theorem Ledger.count {s : Session α} (h : s.Ledger) (run : Nat) :
    (s.askedBy run).length = (s.waitingBy run).length + ((s.runningBy run).length +
      ((s.finishedBy run).length + (s.collectedBy run).length)) := by
  have hlength := (h.indices run).length_eq
  simpa only [List.length_append, List.length_map] using hlength

theorem Ledger.mem_asked {s : Session α} (h : s.Ledger) {run : Nat} {u : FinishedUpload}
    (hu : u ∈ s.finishedBy run ++ s.collectedBy run) :
    ∃ frame ∈ s.askedBy run, frame.index = u.index := by
  have hmem : u.index ∈ (s.askedBy run).map (·.index) := by
    rw [(h.indices run).mem_iff, ← List.map_append]
    exact List.mem_append_right _ (List.mem_append_right _ (List.mem_map_of_mem hu))
  exact List.mem_map.mp hmem

/-- What a run has not asked for, it has not collected. -/
theorem Ledger.collectedBy_eq_nil {s : Session α} (h : s.Ledger) {run : Nat}
    (hasked : s.askedBy run = []) : s.collectedBy run = [] := by
  have hcount := h.count run
  rw [hasked, List.length_nil] at hcount
  exact List.eq_nil_of_length_eq_zero (by omega)

/-- When a run has collected as much as it asked for, nothing of it is left. -/
theorem Ledger.quiet {s : Session α} (h : s.Ledger) {run : Nat}
    (hlength : (s.askedBy run).length = (s.collectedBy run).length) :
    s.waitingBy run = [] ∧ s.runningBy run = [] ∧ s.finishedBy run = [] := by
  have hcount := h.count run
  refine ⟨?_, ?_, ?_⟩
  · exact List.eq_nil_of_length_eq_zero (by omega)
  · exact List.eq_nil_of_length_eq_zero (by omega)
  · exact List.eq_nil_of_length_eq_zero (by omega)

theorem Ledger.begun_nodup {s : Session α} (h : s.Ledger) {run : Nat}
    (hsorted : ((s.askedBy run).map (·.index)).Pairwise (· < ·)) :
    ((s.begunBy run).map (·.1.frame.index)).Nodup := by
  have hbegins := (h.beginsBy run).map (·.index)
  simp only [List.map_append, List.map_map] at hbegins
  have hnodup := hbegins.nodup_iff.mp hsorted.nodup
  exact (List.nodup_append.mp (List.nodup_append.mp hnodup).2.1).1

theorem Ledger.mem_asked_of_begun {s : Session α} (h : s.Ledger) {run : Nat}
    {p : WaitingUpload × UploadEnd} (hp : p ∈ s.begunBy run) : p.1.frame ∈ s.askedBy run := by
  rw [(h.beginsBy run).mem_iff]
  exact List.mem_append_right _ (List.mem_append_left _ (List.mem_map_of_mem hp))

end Session

end Exporter

end Segue
