import Mathlib
import Segue.Proofs.Export.Soundness

/-!
# Delivery

A run that has ended has taken the results of all its uploads, and the frames that were stored come
out in the order of their positions.
-/

namespace Segue

variable {α : Type} [Scalar α]

namespace Exporter.Session

/-- What the run at place `k` leaves when it returns the frames. -/
structure Delivered (s : Session α) (k : Nat) (x : ExportCall α) (frames : List FrameRef) :
    Prop where
  waiting : s.waitingBy (k + 1) = []
  running : s.runningBy (k + 1) = []
  finished : s.finishedBy (k + 1) = []
  awaited : ∀ p ∈ s.begunBy (k + 1), p.1.finish p.2 ∈ s.collectedBy (k + 1)
  result : ∃ uploads : List (WaitingUpload × UploadEnd), uploads.Perm (s.begunBy (k + 1)) ∧
    (uploads.map (·.1.frame.index)).Pairwise (· < ·) ∧ frames = uploads.filterMap (·.2.stored?)
  told : x.told = Export.shares x.run.total frames.length

omit [Scalar α] in
/-- The results of a run that has nothing left are those of its uploads. -/
theorem Ledger.collectedBy_perm {s : Session α} (h : s.Ledger) {run : Nat}
    (hlength : (s.askedBy run).length = (s.collectedBy run).length) :
    ((s.begunBy run).map (fun p => p.1.finish p.2) ++
      (s.skippedBy run).map (·.finish .skipped)).Perm (s.collectedBy run) := by
  obtain ⟨-, hrunning, hfinished⟩ := h.quiet hlength
  have hends := h.endsBy run
  rw [hrunning, hfinished] at hends
  exact hends

omit [Scalar α] in
/-- The slots hold what was begun. -/
theorem Ledger.slots_eq {s : Session α} (h : s.Ledger) {run total : Nat}
    {slots : Array (Option FrameRef)} (hfilled : Export.Filled slots total (s.collectedBy run))
    (hlength : (s.askedBy run).length = (s.collectedBy run).length)
    (hlt : ∀ frame ∈ s.askedBy run, frame.index < total)
    {uploads : List (WaitingUpload × UploadEnd)} (hperm : uploads.Perm (s.begunBy run))
    (hsorted : (uploads.map (·.1.frame.index)).Pairwise (· < ·)) :
    slots.toList.filterMap id = uploads.filterMap (·.2.stored?) := by
  have hresults := h.collectedBy_perm hlength
  have hhit : ∀ p ∈ uploads, slots.toList[p.1.frame.index]?.join = p.2.stored? := by
    intro p hp
    have hmem : p.1.finish p.2 ∈ s.collectedBy run :=
      hresults.subset (List.mem_append_left _ (List.mem_map_of_mem (hperm.subset hp)))
    have hslot := hfilled.hit _ hmem
    rw [Array.getElem?_toList]
    change slots[(p.1.finish p.2).index]?.join = _
    rw [hslot]
    rfl
  -- a slot stays empty when its position was not begun, also when it was asked for and skipped
  have hmiss : ∀ i < total, (∀ p ∈ uploads, p.1.frame.index ≠ i) →
      slots.toList[i]?.join = none := by
    intro i hi hno
    rw [Array.getElem?_toList]
    by_cases hu : ∃ u ∈ s.collectedBy run, u.index = i
    · obtain ⟨u, hu, rfl⟩ := hu
      rcases List.mem_append.mp (hresults.symm.subset hu) with hbegun | hskipped
      · obtain ⟨p, hp, rfl⟩ := List.mem_map.mp hbegun
        exact absurd rfl (hno p (hperm.symm.subset hp))
      · obtain ⟨w, -, rfl⟩ := List.mem_map.mp hskipped
        rw [hfilled.hit _ hu]
        rfl
    · rw [hfilled.miss i hi fun u hmem heq => hu ⟨u, hmem, heq⟩]
      rfl
  have hin : ∀ p ∈ uploads, p.1.frame.index < total :=
    fun p hp => hlt p.1.frame (h.mem_asked_of_begun (hperm.subset hp))
  have hsize : slots.toList.length = total := by rw [Array.length_toList, hfilled.size]
  calc slots.toList.filterMap id
      = (List.range total).filterMap fun i => slots.toList[i]?.join := by
        rw [← hsize, filterMap_range_getElem?]
    _ = uploads.filterMap (·.2.stored?) := filterMap_range_slots hsorted hin hhit hmiss

omit [Scalar α] in
/-- As many results of stored frames were taken as uploads stored one: what was skipped stored
nothing. -/
theorem Ledger.stored_count {s : Session α} (h : s.Ledger) {run : Nat}
    (hlength : (s.askedBy run).length = (s.collectedBy run).length) :
    ((s.collectedBy run).filterMap (·.ending.stored?)).length =
      ((s.begunBy run).filterMap (·.2.stored?)).length := by
  have hcount := ((h.collectedBy_perm hlength).filterMap (·.ending.stored?)).length_eq
  have hskipped : (s.skippedBy run).filterMap
      ((·.ending.stored?) ∘ fun u : WaitingUpload => u.finish .skipped) = [] := by
    rw [List.filterMap_eq_nil_iff]
    intro u _
    rfl
  rw [List.filterMap_append, List.filterMap_map, List.filterMap_map, hskipped,
    List.append_nil] at hcount
  exact hcount.symm

/-- A run that had nothing to do returns nothing. -/
theorem Sound.delivered_of_idle {s : Session α} (h : s.Sound) {k : Nat} {x : ExportCall α}
    (hidle : Export.Idle x.run (s.account (k + 1) x)) : s.Delivered k x [] := by
  have hasked : s.askedBy (k + 1) = [] := hidle.asked
  have hcollected : s.collectedBy (k + 1) = [] := hidle.collected
  have hlength : (s.askedBy (k + 1)).length = (s.collectedBy (k + 1)).length := by
    rw [hasked, hcollected]
    rfl
  have hbegun : s.begunBy (k + 1) = [] := by
    have hcount := (h.ledger.beginsBy (k + 1)).length_eq
    simp only [hasked, List.length_append, List.length_map, List.length_nil] at hcount
    exact List.eq_nil_of_length_eq_zero (by omega)
  obtain ⟨hwaiting, hrunning, hfinished⟩ := h.ledger.quiet hlength
  refine ⟨hwaiting, hrunning, hfinished, by simp [hbegun], ⟨[], ?_, ?_, rfl⟩, hidle.told⟩
  · rw [hbegun]
  · exact List.Pairwise.nil

theorem Sound.delivered_of_working {s : Session α} (h : s.Sound) {k : Nat} {x : ExportCall α}
    {frames : List FrameRef}
    (hworking : Export.Working (s.exporter.isCancelled (k + 1)) x.run (s.account (k + 1) x))
    (hp : x.run.phase = .ended (.ok frames)) : s.Delivered k x frames := by
  obtain ⟨hpending, hresult⟩ := hworking.ended _ hp
  have hlength : (s.askedBy (k + 1)).length = (s.collectedBy (k + 1)).length := by
    have heq : x.run.pending + (s.collectedBy (k + 1)).length = (s.askedBy (k + 1)).length :=
      hworking.books.pending_eq
    omega
  obtain ⟨hwaiting, hrunning, hfinished⟩ := h.ledger.quiet hlength
  obtain ⟨uploads, hperm, hsorted⟩ :=
    exists_perm_sorted (h.ledger.begun_nodup hworking.index_sorted)
  have hframes : frames = uploads.filterMap (·.2.stored?) := by
    obtain rfl : frames = x.run.slots.toList.filterMap id := by simpa using hresult
    exact h.ledger.slots_eq hworking.books.filled hlength hworking.index_lt hperm hsorted
  refine ⟨hwaiting, hrunning, hfinished, ?_, ⟨uploads, hperm, hsorted, hframes⟩, ?_⟩
  · intro p hmem
    exact (h.ledger.collectedBy_perm hlength).subset
      (List.mem_append_left _ (List.mem_map_of_mem hmem))
  · have htold : x.told ++ x.run.unreported = Export.shares x.run.total x.run.uploaded :=
      hworking.told
    have huploaded : x.run.uploaded =
        ((s.collectedBy (k + 1)).filterMap (·.ending.stored?)).length :=
      hworking.books.uploaded_eq
    have hunreported : x.run.unreported = [] := by simp [Export.unreported, hp]
    rw [hunreported, List.append_nil, huploaded, h.ledger.stored_count hlength] at htold
    rw [htold, hframes, (hperm.filterMap (·.2.stored?)).length_eq]

theorem Sound.delivered {s : Session α} (h : s.Sound) {k : Nat} {x : ExportCall α}
    {frames : List FrameRef} (hk : s.runs[k]? = some x) (hp : x.run.phase = .ended (.ok frames)) :
    s.Delivered k x frames := by
  cases (h.each k x hk).inOrder with
  | readying _ hp' => simp [hp] at hp'
  | refused _ _ hp' => simp [hp] at hp'
  | quit hidle hp' =>
      obtain rfl : frames = [] := by simpa [hp] using hp'
      exact h.delivered_of_idle hidle
  | working hworking => exact h.delivered_of_working hworking hp

/-- A run that ends in its preparations has asked for nothing. -/
theorem Sound.askedBy_of_error {s : Session α} (h : s.Sound) {k : Nat} {x : ExportCall α}
    {fault : ExportError α} (hk : s.runs[k]? = some x) (hp : x.run.phase = .ended (.error fault)) :
    s.askedBy (k + 1) = [] := by
  cases (h.each k x hk).inOrder with
  | readying _ hp' => simp [hp] at hp'
  | refused _ hidle => exact hidle.asked
  | quit _ hp' => simp [hp] at hp'
  | working hworking =>
      obtain ⟨-, hresult⟩ := hworking.ended _ hp
      cases hresult

/-- Nothing of a run that has ended waits to begin. -/
theorem Sound.waitingBy_of_hasEnded {s : Session α} (h : s.Sound) {k : Nat} {x : ExportCall α}
    (hk : s.runs[k]? = some x) (hended : x.run.hasEnded = true) : s.waitingBy (k + 1) = [] := by
  unfold Export.hasEnded at hended
  split at hended
  · rename_i result hp
    cases result with
    | error fault =>
        have hasked := h.askedBy_of_error hk hp
        have hcount := h.ledger.count (k + 1)
        rw [hasked, List.length_nil] at hcount
        exact List.eq_nil_of_length_eq_zero (by omega)
    | ok frames => exact (h.delivered hk hp).waiting
  · cases hended

end Exporter.Session

end Segue
