import Mathlib
import Segue.Proofs.Export.Soundness

/-!
# Runs come to their end

A run that gets its answers ends, in whatever state of a session it is: the answers that it waits
for can always come, and each of them brings it closer to its end.
-/

namespace Segue

variable {α : Type} [Scalar α]

namespace Exporter

/-- The event neither calls a run nor cancels one. -/
def Event.isAnswer : Event α → Bool
  | .call _ _ _ | .abort | .clear => false
  | .prepare _ _ _ _ | .resume _ _ | .seek _ _ | .join _ | .start _ _ _ | .tick _ => true

namespace Session

/-! ## What a run waits for -/

/-- The run at place `k` waits for its clips, for a reply, for the end of an attempt or a rest of
its seek, or for one of its uploads. -/
inductive Waits (s : Session α) (k : Nat) (x : ExportCall α) : Prop
  | clips : x.run.isReadying = true → Waits s k x
  | reply (r : Export.Reply α) : x.run.awaits x.retry r = true → Waits s k x
  | seek : x.run.isSeeking = true → (∀ o, x.retry ≠ .ended o) → Waits s k x
  | upload : x.run.isJoining = true →
      s.waitingBy (k + 1) ≠ [] ∨ s.runningBy (k + 1) ≠ [] ∨ s.finishedBy (k + 1) ≠ [] → Waits s k x

theorem Sound.replies_le {s : Session α} (h : s.Sound) {k : Nat} {x : ExportCall α}
    (hk : s.runs[k]? = some x) : x.replies ≤ 6 * x.run.total + 2 := by
  cases (h.each k x hk).inOrder with
  | readying _ _ hreplies =>
      have hzero : x.replies = 0 := hreplies
      omega
  | refused _ _ _ hreplies =>
      have htwo : x.replies ≤ 2 := hreplies
      omega
  | quit _ _ hreplies =>
      have htwo : x.replies ≤ 2 := hreplies
      omega
  | working hworking =>
      have hle : x.replies + x.run.toCome ≤ 6 * x.run.total + 2 := hworking.replies
      omega

/-- A run that waits for an upload has one. -/
theorem Sound.exists_upload {s : Session α} (h : s.Sound) {k : Nat} {x : ExportCall α}
    (hk : s.runs[k]? = some x) (hj : x.run.isJoining = true) :
    s.waitingBy (k + 1) ≠ [] ∨ s.runningBy (k + 1) ≠ [] ∨ s.finishedBy (k + 1) ≠ [] := by
  have hp := Export.isJoining_iff.mp hj
  have hworking := (h.each k x hk).inOrder.working_of (by simp [hp]) (by simp [Export.hasEnded, hp])
  have hpending := hworking.joining hj
  have heq : x.run.pending + (s.collectedBy (k + 1)).length = (s.askedBy (k + 1)).length :=
    hworking.books.pending_eq
  have hcount := h.ledger.count (k + 1)
  by_contra hnone
  simp only [ne_eq, not_or, not_not] at hnone
  obtain ⟨hwaiting, hrunning, hfinished⟩ := hnone
  rw [hwaiting, hrunning, hfinished] at hcount
  simp only [List.length_nil, Nat.zero_add] at hcount
  omega

theorem Sound.waits {s : Session α} (h : s.Sound) {k : Nat} {x : ExportCall α}
    (hk : s.runs[k]? = some x) (hended : x.run.hasEnded = false) : s.Waits k x := by
  by_cases hreadying : x.run.phase = .readying
  · exact .clips (Export.isReadying_iff.mpr hreadying)
  have hprepared := ((h.each k x hk).inOrder.working_of hreadying hended).prepared
  cases hp : x.run.phase with
  | called => simp [Export.isPreparing, hp] at hprepared
  | readying => exact absurd hp hreadying
  | composing => simp [Export.isPreparing, hp] at hprepared
  | seeking clip time =>
      cases hretry : x.retry with
      | ended o => exact .reply (.sought o) (by simp [Export.awaits, hp, hretry])
      | seeking timeouts => exact .seek (by simp [Export.isSeeking, hp]) (by simp [hretry])
      | resting timeouts => exact .seek (by simp [Export.isSeeking, hp]) (by simp [hretry])
  | drawing time shot => exact .reply (.drawn .skipped) (by simp [Export.awaits, hp])
  | encoding i => exact .reply .done (by simp [Export.awaits, hp])
  | joining =>
      have hj : x.run.isJoining = true := Export.isJoining_iff.mpr hp
      exact .upload hj (h.exists_upload hk hj)
  | report progress => exact .reply .done (by simp [Export.awaits, hp])
  | ended result => simp [Export.hasEnded, hp] at hended

variable [Elementary α]

/-! ## Answers -/

/-- Answers alone bring the run at place `k` to where `P` holds of it. -/
def CanReach (s : Session α) (k : Nat) (P : Session α → ExportCall α → Prop) : Prop :=
  ∃ answers : List (Event α), (∀ e ∈ answers, e.isAnswer = true) ∧
    ∃ x, (s.run answers).runs[k]? = some x ∧ P (s.run answers) x

theorem CanReach.here {s : Session α} {k : Nat} {x : ExportCall α}
    {P : Session α → ExportCall α → Prop} (hk : s.runs[k]? = some x) (hp : P s x) :
    s.CanReach k P :=
  ⟨[], by simp, x, hk, hp⟩

theorem CanReach.step {s : Session α} {k : Nat} {P : Session α → ExportCall α → Prop}
    {e : Event α} (he : e.isAnswer = true) (h : (s.step e).CanReach k P) : s.CanReach k P := by
  obtain ⟨answers, hanswers, x, hk, hp⟩ := h
  refine ⟨e :: answers, ?_, x, hk, hp⟩
  intro e' he'
  rcases List.mem_cons.mp he' with rfl | he'
  · exact he
  · exact hanswers e' he'

theorem CanReach.trans {s : Session α} (h : s.Sound) {k : Nat}
    {P Q : Session α → ExportCall α → Prop} (hp : s.CanReach k P)
    (hq : ∀ s' x, s'.Sound → s'.runs[k]? = some x → P s' x → s'.CanReach k Q) :
    s.CanReach k Q := by
  obtain ⟨answers, hanswers, x, hk, hx⟩ := hp
  obtain ⟨more, hmore, x', hk', hx'⟩ := hq _ x (h.run answers) hk hx
  rw [← run_append] at hk' hx'
  refine ⟨answers ++ more, ?_, x', hk', hx'⟩
  intro e he
  rcases List.mem_append.mp he with he | he
  · exact hanswers e he
  · exact hmore e he

/-! ## Uploads -/

/-- An upload under way ends in time. -/
theorem canFinish_of_running {s : Session α} {k : Nat} {x : ExportCall α}
    (hk : s.runs[k]? = some x) (hrunning : s.runningBy (k + 1) ≠ []) :
    s.CanReach k fun s' x' => x' = x ∧ s'.finishedBy (k + 1) ≠ [] := by
  obtain ⟨u, hu⟩ := List.exists_mem_of_ne_nil _ hrunning
  obtain ⟨hmem, hrun⟩ := List.mem_filter.mp hu
  refine CanReach.step (e := .tick u.due) rfl (CanReach.here hk ⟨rfl, ?_⟩)
  have hended : u.finish ∈ (s.exporter.finishDue u.due).finished := by
    have hperm := foldl_insertDue_perm (s.exporter.running.filter fun v => v.due ≤ u.due) []
    have hdue := hperm.mem_iff (a := u)
    simp only [finishDue, List.partition_eq_filter_filter]
    refine List.mem_append_right _ (List.mem_map_of_mem (hdue.mpr ?_))
    simp [hmem]
  refine List.ne_nil_of_mem (a := u.finish) ?_
  exact List.mem_filter.mpr ⟨hended, hrun⟩

theorem canFinish_of_waiting {s : Session α} {k : Nat} {x : ExportCall α}
    (hk : s.runs[k]? = some x) (hwaiting : s.waitingBy (k + 1) ≠ []) :
    s.CanReach k fun s' x' => x' = x ∧ s'.finishedBy (k + 1) ≠ [] := by
  obtain ⟨u, hu⟩ := List.exists_mem_of_ne_nil _ hwaiting
  obtain ⟨hmem, hrun⟩ := List.mem_filter.mp hu
  obtain ⟨j, hj⟩ := List.mem_iff_getElem?.mp hmem
  refine CanReach.step (e := .start j 0 .lost) rfl ?_
  cases hc : s.exporter.isCancelled u.run with
  | true =>
      have hstep : s.step (.start j 0 .lost) = { s with
          exporter := { s.exporter with waiting := s.exporter.waiting.eraseIdx j }.skipUpload u
          skipped := s.skipped ++ [u] } := by
        simp only [Session.step, hj]
        exact if_pos hc
      rw [hstep]
      refine CanReach.here hk ⟨rfl, ?_⟩
      refine List.ne_nil_of_mem (a := u.finish .skipped) (List.mem_filter.mpr ⟨?_, hrun⟩)
      exact List.mem_append_right _ (List.mem_singleton.mpr rfl)
  | false =>
      have hstep : s.step (.start j 0 .lost) = { s with
          exporter := { s.exporter with
            waiting := s.exporter.waiting.eraseIdx j }.beginUpload u 0 .lost
          begun := s.begun ++ [(u, .lost)] } := by
        simp only [Session.step, hj]
        exact if_neg (Bool.eq_false_iff.mp hc)
      rw [hstep]
      refine canFinish_of_running hk ?_
      refine List.ne_nil_of_mem (a := ⟨u.run, u.frame.index, 0, .lost⟩)
        (List.mem_filter.mpr ⟨?_, hrun⟩)
      exact List.mem_append_right _ (List.mem_singleton.mpr rfl)

/-! ## Replies -/

def Answered (x : ExportCall α) (_ : Session α) (x' : ExportCall α) : Prop :=
  x'.replies = x.replies + 1 ∧ x'.run.total = x.run.total ∧ x'.run.isReadying = false

omit [Scalar α] [Elementary α] in
theorem isReadying_of_isPreparing {r : Export α} (h : r.isPreparing = false) :
    r.isReadying = false := by
  cases hp : r.phase <;> simp [Export.isPreparing, Export.isReadying, hp] at h ⊢

theorem Sound.canReach_of_awaits {s : Session α} (h : s.Sound) {k : Nat} {x : ExportCall α}
    (hk : s.runs[k]? = some x) {reply : Export.Reply α}
    (hreply : x.run.awaits x.retry reply = true) : s.CanReach k (Answered x) := by
  have hlt : k < s.runs.length := (List.getElem?_eq_some_iff.mp hk).1
  obtain ⟨-, htotal, frames, -, hafter⟩ := h.resume_goes hk hreply
  refine CanReach.step (e := .resume k reply) rfl ?_
  rw [step_resume hk hreply]
  exact CanReach.here (List.getElem?_set_self hlt)
    ⟨rfl, htotal, isReadying_of_isPreparing hafter.prepared⟩

theorem Sound.canReach_of_finished {s : Session α} (h : s.Sound) {k : Nat} {x : ExportCall α}
    (hk : s.runs[k]? = some x) (hj : x.run.isJoining = true)
    (hfinished : s.finishedBy (k + 1) ≠ []) : s.CanReach k (Answered x) := by
  have hlt : k < s.runs.length := (List.getElem?_eq_some_iff.mp hk).1
  obtain ⟨u, left, hleft⟩ := takeFirst?_isSome hfinished
  obtain ⟨-, htotal, frames, -, hafter⟩ := h.join_goes hk hj hleft
  refine CanReach.step (e := .join k) rfl ?_
  rw [h.step_join hk hj hleft]
  exact CanReach.here (List.getElem?_set_self hlt)
    ⟨rfl, htotal, isReadying_of_isPreparing hafter.prepared⟩

/-- The attempts and rests of a seek are over at some time. -/
theorem Sound.canReach_of_seeking {s : Session α} (h : s.Sound) {k : Nat} {x : ExportCall α}
    (hk : s.runs[k]? = some x) (hseeking : x.run.isSeeking = true) :
    s.CanReach k (Answered x) := by
  induction hleft : x.retry.left s.policy using Nat.strong_induction_on generalizing s x with
  | h left ih =>
      obtain ⟨clip, time, hp⟩ : ∃ clip time, x.run.phase = .seeking clip time := by
        cases hp : x.run.phase <;> simp [Export.isSeeking, hp] at hseeking ⊢
      by_cases hended : ∃ o, x.retry = .ended o
      · obtain ⟨o, ho⟩ := hended
        have hreply : x.run.awaits x.retry (.sought o) = true := by simp [Export.awaits, hp, ho]
        exact h.canReach_of_awaits hk hreply
      · have hnot : ∀ o, x.retry ≠ .ended o := fun o ho => hended ⟨o, ho⟩
        have hlt : k < s.runs.length := (List.getElem?_eq_some_iff.mp hk).1
        have hstep : s.step (.seek k .completed) = { s with
            runs := s.runs.set k
              (x.seek s.policy (s.exporter.isCancelled (k + 1)) .completed) } := by
          simp [Session.step, hk, hseeking, (h.each k x hk).number]
        have hsound := (h.change (.seek k .completed)).sound h
        refine CanReach.step (e := .seek k .completed) rfl ?_
        rw [hstep] at hsound ⊢
        rw [ExportCall.seek_eq hnot] at hsound ⊢
        have hnext := Retry.left_proceed_lt (p := s.policy) hnot
          (s.exporter.isCancelled (k + 1)) .completed
        rw [hleft] at hnext
        have hreach := ih _ hnext hsound (List.getElem?_set_self hlt) hseeking rfl
        exact hreach

theorem Sound.canAnswer {s : Session α} (h : s.Sound) {k : Nat} {x : ExportCall α}
    (hk : s.runs[k]? = some x) (hreadying : x.run.isReadying = false)
    (hended : x.run.hasEnded = false) : s.CanReach k (Answered x) := by
  cases h.waits hk hended with
  | clips hready =>
      rw [hready] at hreadying
      cases hreadying
  | reply r hreply => exact h.canReach_of_awaits hk hreply
  | seek hseeking _ => exact h.canReach_of_seeking hk hseeking
  | upload hj hupload =>
      have hfinish : s.CanReach k fun s' x' => x' = x ∧ s'.finishedBy (k + 1) ≠ [] := by
        rcases hupload with hwaiting | hrunning | hfinished
        · exact canFinish_of_waiting hk hwaiting
        · exact canFinish_of_running hk hrunning
        · exact CanReach.here hk ⟨rfl, hfinished⟩
      refine hfinish.trans h ?_
      rintro s' x' hsound hk' ⟨rfl, hfinished⟩
      exact hsound.canReach_of_finished hk' hj hfinished

theorem Sound.canEnd_of_working {s : Session α} (h : s.Sound) {k : Nat} {x : ExportCall α}
    (hk : s.runs[k]? = some x) (hreadying : x.run.isReadying = false) :
    s.CanReach k fun _ x' => x'.run.hasEnded = true := by
  -- by induction on the replies that the run can still get
  obtain ⟨n, hn⟩ : ∃ n, 6 * x.run.total + 2 < x.replies + n := ⟨6 * x.run.total + 3, by omega⟩
  induction n generalizing s x with
  | zero =>
      have hle := h.replies_le hk
      omega
  | succ n ih =>
      cases hended : x.run.hasEnded with
      | true => exact .here hk hended
      | false =>
          refine (h.canAnswer hk hreadying hended).trans h ?_
          rintro s' x' hsound hk' ⟨hreplies, htotal, hreadying'⟩
          refine ih hsound hk' hreadying' ?_
          omega

/-- A run whose clips are ready has gone on. -/
theorem Sound.isReadying_prepare {s : Session α} (h : s.Sound) {k : Nat} {x : ExportCall α}
    (hk : s.runs[k]? = some x) (hready : x.run.isReadying = true) (a b : Export.ClipFacts α)
    (supported : Bool) : (x.prepare a b supported s.exporter).2.run.isReadying = false := by
  have hlt : k < s.runs.length := (List.getElem?_eq_some_iff.mp hk).1
  have hsound := (h.prepare_change hk hready a b supported).sound h
  have hafter := (hsound.each k _ (List.getElem?_set_self hlt)).inOrder
  rw [← Bool.not_eq_true]
  intro hagain
  have hnone := (hafter.of_readying (Export.isReadying_iff.mp hagain)).2
  have htwo : x.replies + 2 = 0 := hnone
  omega

/-- Every run ends if only it gets its answers. -/
theorem Sound.canEnd {s : Session α} (h : s.Sound) {k : Nat} {x : ExportCall α}
    (hk : s.runs[k]? = some x) : s.CanReach k fun _ x' => x'.run.hasEnded = true := by
  cases hreadying : x.run.isReadying with
  | false => exact h.canEnd_of_working hk hreadying
  | true =>
      have hlt : k < s.runs.length := (List.getElem?_eq_some_iff.mp hk).1
      have hsound := (h.change (.prepare k ⟨none, none⟩ ⟨none, none⟩ true)).sound h
      refine CanReach.step (e := .prepare k ⟨none, none⟩ ⟨none, none⟩ true) rfl ?_
      rw [step_prepare hk hreadying] at hsound ⊢
      exact hsound.canEnd_of_working (List.getElem?_set_self hlt)
        (h.isReadying_prepare hk hreadying _ _ true)

/-- The run comes to its end: it gets only so many replies, a seek has only so many attempts and
rests, and answers can always bring it to its end. -/
structure Live (s : Session α) (k : Nat) (x : ExportCall α) : Prop where
  replies : x.replies ≤ 6 * x.run.total + 2
  turns : x.turns ≤ 2 * s.policy.retries + 1
  ends : s.CanReach k fun _ x' => x'.run.hasEnded = true

theorem Sound.live {s : Session α} (h : s.Sound) {k : Nat} {x : ExportCall α}
    (hk : s.runs[k]? = some x) : s.Live k x where
  replies := h.replies_le hk
  turns := by
    have hturns := (h.each k x hk).turns_le
    omega
  ends := h.canEnd hk

end Session

end Exporter

end Segue
