import Mathlib
import Segue.Proofs.Export.Changes

/-!
# The invariant is kept

Every change of a session keeps the invariant, so that it holds after every run of events.
-/

namespace Segue

variable {α : Type} [Scalar α]

namespace Exporter.Session

/-! ## A step that no run takes -/

theorem Sound.of_exporter {s s' : Session α} (h : s.Sound) (hledger : s'.Ledger)
    (hpolicy : s'.policy = s.policy) (hruns : s'.runs = s.runs) (hasked : s'.asked = s.asked)
    (hcollected : s'.collected = s.collected)
    (hgeneration : s'.exporter.generation = s.exporter.generation)
    (htoken : s'.exporter.token = s.exporter.token)
    (hmono : ∀ t ∈ s.exporter.cancelled, t ∈ s'.exporter.cancelled)
    (hnew : ∀ t ∈ s'.exporter.cancelled, t ∈ s.exporter.cancelled ∨ s.exporter.token = some t) :
    s'.Sound where
  ledger := hledger
  count := by rw [hgeneration, h.count, hruns]
  token_eq t ht := by
    rw [hgeneration]
    exact h.token_eq t (htoken ▸ ht)
  cancelled_le t ht := by
    rw [hgeneration]
    rcases hnew t ht with ht | ht
    · exact h.cancelled_le t ht
    · exact (h.token_eq t ht).le
  asked_run u hu := by
    rw [hruns]
    exact h.asked_run u (hasked ▸ hu)
  each k x hk := by
    have haccount : s'.account (k + 1) x = s.account (k + 1) x := by
      simp only [account, askedBy, collectedBy, hasked, hcollected]
    refine (h.each k x (hruns ▸ hk)).follow hpolicy haccount hmono ?_ ?_ ?_
    · intro hc
      rw [isCancelled_iff] at hc ⊢
      exact hnew (k + 1) hc
    · exact fun ht => htoken.symm.trans ht
    · exact fun ht => .inr (htoken.trans ht)

/-! ## A run goes on -/

omit [Scalar α] in
/-- The account of a run when a run has asked for frames and taken results. -/
theorem account_append (s s' : Session α) (frames : List EncodedFrame)
    (taken : List FinishedUpload) (n run : Nat) (x : ExportCall α)
    (hasked : s'.asked = s.asked ++ frames.map (WaitingUpload.mk n))
    (hcollected : s'.collected = s.collected ++ taken) (htaken : ∀ u ∈ taken, u.run = n) :
    s'.account run x = ⟨x.drawn, s.askedBy run ++ if n = run then frames else [],
      s.collectedBy run ++ if n = run then taken else [], x.told, x.replies⟩ := by
  simp only [account, askedBy, collectedBy, hasked, hcollected, List.filter_append, List.map_append]
  by_cases hn : n = run
  · have hall : taken.filter (·.run = run) = taken := by
      rw [List.filter_eq_self]
      intro u hu
      simp [htaken u hu, hn]
    rw [if_pos hn, if_pos hn, hall]
    simp [hn, List.filter_map, Function.comp_def]
  · have hnone : taken.filter (·.run = run) = [] := by
      rw [List.filter_eq_nil_iff]
      intro u hu
      simp [htaken u hu, hn]
    rw [if_neg hn, if_neg hn, hnone]
    simp [hn, List.filter_map, Function.comp_def]

/-- What the run does to the exporter, and its books afterwards. -/
theorem Advance.exists_frames {s : Session α} (h : s.Sound) {k : Nat} {x x' : ExportCall α}
    {taken left : List FinishedUpload} {y : Export.Running α} (ha : Advance s k x x' taken left y) :
    x'.run.generation = k + 1 ∧ ∃ frames : List EncodedFrame,
      Spared (k + 1) x'.run.hasEnded frames { s.exporter with finished := left } y.1 ∧
      Export.InOrder (s.exporter.isCancelled (k + 1)) x'.run
        ⟨x'.drawn, s.askedBy (k + 1) ++ frames, s.collectedBy (k + 1) ++ taken, x'.told,
          x'.replies⟩ := by
  obtain ⟨hnumber, frames, hspared, horder⟩ := ha.proceeds
  rw [(h.each k x ha.here).number] at hspared hnumber
  rw [ha.run_eq]
  exact ⟨hnumber, frames, hspared, horder⟩

theorem Advance.ledger {s : Session α} (h : s.Sound) {k : Nat} {x x' : ExportCall α}
    {taken left : List FinishedUpload} {y : Export.Running α} (ha : Advance s k x x' taken left y)
    {frames : List EncodedFrame}
    (hspared : Spared (k + 1) x'.run.hasEnded frames { s.exporter with finished := left } y.1) :
    Ledger { s with
      exporter := y.1
      runs := s.runs.set k x'
      asked := s.asked ++ frames.map (WaitingUpload.mk (k + 1))
      collected := s.collected ++ taken } := by
  refine ⟨?_, ?_, ?_⟩
  · refine (h.ledger.begins.append_right (frames.map (WaitingUpload.mk (k + 1)))).trans ?_
    simp only [hspared.waiting, List.append_assoc]
    refine List.Perm.append_left _ ?_
    rw [← List.append_assoc]
    exact List.perm_append_comm
  · refine h.ledger.ends.trans ?_
    simp only [hspared.running, hspared.finished]
    refine List.Perm.append_left _ ((ha.perm.append_right s.collected).trans ?_)
    rw [List.append_assoc]
    refine List.perm_append_comm.trans ?_
    rw [List.append_assoc]
  · intro u hu
    exact (hspared.isCancelled_eq u.run).trans (h.ledger.skipped_cancelled u hu)

/-- The run that goes on. -/
theorem Advance.runSound {s s' : Session α} (h : s.Sound) {k : Nat} {x x' : ExportCall α}
    {taken left : List FinishedUpload} {y : Export.Running α} (ha : Advance s k x x' taken left y)
    (hexporter : s'.exporter = y.1) {frames : List EncodedFrame}
    (hspared : Spared (k + 1) x'.run.hasEnded frames { s.exporter with finished := left } y.1)
    (hnumber : x'.run.generation = k + 1)
    (horder : Export.InOrder (s.exporter.isCancelled (k + 1)) x'.run (s'.account (k + 1) x')) :
    s'.RunSound k x' := by
  have hsame : s'.exporter.isCancelled (k + 1) = s.exporter.isCancelled (k + 1) := by
    rw [hexporter]
    exact hspared.isCancelled_eq (k + 1)
  refine ⟨hnumber, ?_, ?_, ?_, ?_, ?_⟩
  · intro ht
    rw [hexporter] at ht
    have hlatest := h.token_eq (k + 1) (hspared.token_of ht)
    cases hended : x'.run.hasEnded with
    | false => rfl
    | true =>
        -- the latest run gives the token back when it ends
        have hnone := hspared.released hended hlatest.symm
        cases hnone.symm.trans ht
  · intro hended
    rw [hsame, hexporter]
    rcases hspared.token with hold | ⟨hend, -, -⟩
    · rw [hold]
      exact (h.each k x ha.here).alive ha.not_ended
    · rw [hended] at hend
      cases hend
  · intro hcut
    rw [ha.retry_eq, ← ha.run_eq, hnumber, ← hexporter] at hcut
    exact Retry.cancelled_of_start hcut
  · rw [ha.turns_eq, ha.retry_eq, Nat.zero_add]
    exact Retry.left_start s'.policy _
  · rw [hsame]
    exact horder

theorem Advance.sound {s : Session α} (h : s.Sound) {k : Nat} {x x' : ExportCall α}
    {taken left : List FinishedUpload} {y : Export.Running α}
    (ha : Advance s k x x' taken left y) :
    Sound { s with
      exporter := y.1
      runs := s.runs.set k x'
      asked := s.asked ++ y.1.waiting.drop s.exporter.waiting.length
      collected := s.collected ++ taken } := by
  obtain ⟨hnumber, frames, hspared, horder⟩ := ha.exists_frames h
  have hdrop : y.1.waiting.drop s.exporter.waiting.length =
      frames.map (WaitingUpload.mk (k + 1)) := by
    rw [hspared.waiting, List.drop_left]
  have hlt : k < s.runs.length := (List.getElem?_eq_some_iff.mp ha.here).1
  have haccount := fun j z => account_append s
    { s with
      exporter := y.1
      runs := s.runs.set k x'
      asked := s.asked ++ frames.map (WaitingUpload.mk (k + 1))
      collected := s.collected ++ taken } frames taken (k + 1) (j + 1) z rfl rfl ha.taken_run
  rw [hdrop]
  refine ⟨ha.ledger h hspared, ?_, ?_, ?_, ?_, ?_⟩
  · change y.1.generation = (s.runs.set k x').length
    rw [hspared.generation, List.length_set]
    exact h.count
  · intro t ht
    exact (h.token_eq t (hspared.token_of ht)).trans hspared.generation.symm
  · intro t ht
    exact (h.cancelled_le t (hspared.cancelled ▸ ht)).trans hspared.generation.ge
  · intro u hu
    change ∃ j < (s.runs.set k x').length, u.run = j + 1
    rw [List.length_set]
    rcases List.mem_append.mp hu with hu | hu
    · exact h.asked_run u hu
    · obtain ⟨frame, -, rfl⟩ := List.mem_map.mp hu
      exact ⟨k, hlt, rfl⟩
  · intro j z hj
    rcases (getElem?_set_eq_some ha.here).mp hj with ⟨rfl, rfl⟩ | ⟨hne, hj⟩
    · refine ha.runSound h rfl hspared hnumber ?_
      rw [haccount j z, if_pos rfl, if_pos rfl]
      exact horder
    · have hother := haccount j z
      rw [if_neg (by omega), if_neg (by omega), List.append_nil, List.append_nil] at hother
      refine (h.each j z hj).follow rfl hother (fun t ht => hspared.cancelled.symm ▸ ht) ?_
        hspared.token_of ?_
      · intro hc
        exact .inl ((hspared.isCancelled_eq (j + 1)).symm.trans hc)
      · intro ht
        rcases hspared.token with hold | ⟨-, hlatest, -⟩
        · exact .inr (hold.trans ht)
        · have hother' := h.token_eq (j + 1) ht
          have hlatest' : s.exporter.generation = k + 1 := hlatest
          omega

/-! ## Every change -/

omit [Scalar α] in
/-- A call, or a cancellation, cancels the run that has the token. -/
theorem mem_cancelled_iff {e e' : Exporter α}
    (h : e'.cancelled = e.token.toList ++ e.cancelled) {t : Nat} :
    t ∈ e'.cancelled ↔ t ∈ e.cancelled ∨ e.token = some t := by
  rw [h, List.mem_append, Option.mem_toList, or_comm]

theorem Sound.cancelToken {s : Session α} (h : s.Sound) {e : Exporter α}
    (hwaiting : e.waiting = s.exporter.waiting) (hrunning : e.running = s.exporter.running)
    (hfinished : e.finished = s.exporter.finished)
    (hgeneration : e.generation = s.exporter.generation) (htoken : e.token = s.exporter.token)
    (hcancelled : e.cancelled = s.exporter.token.toList ++ s.exporter.cancelled) :
    Sound { s with exporter := e } := by
  have hmono : ∀ t ∈ s.exporter.cancelled, t ∈ e.cancelled :=
    fun t ht => (mem_cancelled_iff hcancelled).mpr (.inl ht)
  exact h.of_exporter (h.ledger.cancel hwaiting hrunning hfinished hmono) rfl rfl rfl rfl
    hgeneration htoken hmono fun t ht => (mem_cancelled_iff hcancelled).mp ht

section

variable {s : Session α} {y : Export.Running α}

theorem Sound.cancelled_le_of_called (h : s.Sound) (hy : Export.Called s.exporter y) {t : Nat}
    (ht : t ∈ y.1.cancelled) : t ≤ s.exporter.generation := by
  rcases (mem_cancelled_iff hy.cancelled).mp ht with ht | ht
  · exact h.cancelled_le t ht
  · exact (h.token_eq t ht).le

/-- The run that a call begins. -/
theorem Sound.called_run (h : s.Sound) (hy : Export.Called s.exporter y) {s' : Session α}
    (hexporter : s'.exporter = y.1) (hasked : s'.asked = s.asked)
    (hcollected : s'.collected = s.collected) {retry : Retry}
    (hretry : retry = .start (y.1.isCancelled y.2.generation)) :
    s'.RunSound s.runs.length ⟨y.2, retry, 0, [], [], 0⟩ := by
  have hfresh : s'.exporter.isCancelled (s.runs.length + 1) = false := by
    rw [← Bool.not_eq_true, isCancelled_iff, hexporter, ← h.count]
    intro ht
    have hle := h.cancelled_le_of_called hy ht
    omega
  have hnone : s.askedBy (s.runs.length + 1) = [] := by
    rw [askedBy, List.map_eq_nil_iff, List.filter_eq_nil_iff]
    intro u hu
    obtain ⟨j, hj, hrun⟩ := h.asked_run u hu
    simp only [decide_eq_true_eq]
    omega
  have haccount : s'.account (s.runs.length + 1) ⟨y.2, retry, 0, [], [], 0⟩ =
      ⟨[], [], [], [], 0⟩ := by
    rw [← hnone, ← h.ledger.collectedBy_eq_nil hnone]
    simp only [account, askedBy, collectedBy, hasked, hcollected]
  refine ⟨?_, ?_, ?_, ?_, ?_, ?_⟩
  · rw [hy.number, h.count]
  · rw [hexporter, ← h.count]
    exact hy.held
  · rw [hexporter, ← h.count]
    exact fun hended => .inr (hy.alive hended)
  · intro hcut
    rw [hretry, ← hexporter, hy.number, h.count] at hcut
    exact Retry.cancelled_of_start hcut
  · rw [hretry, Nat.zero_add]
    exact Retry.left_start s'.policy _
  · rw [hfresh, haccount]
    exact hy.inOrder

/-- A run that was there before the call. -/
theorem Sound.called_other (h : s.Sound) (hy : Export.Called s.exporter y) {s' : Session α}
    (hexporter : s'.exporter = y.1) (hpolicy : s'.policy = s.policy) (hasked : s'.asked = s.asked)
    (hcollected : s'.collected = s.collected) {k : Nat} {x : ExportCall α}
    (hk : s.runs[k]? = some x) : s'.RunSound k x := by
  have hlt : k < s.runs.length := (List.getElem?_eq_some_iff.mp hk).1
  have haccount : s'.account (k + 1) x = s.account (k + 1) x := by
    simp only [account, askedBy, collectedBy, hasked, hcollected]
  have hcancelled : s'.exporter.cancelled = s.exporter.token.toList ++ s.exporter.cancelled := by
    rw [hexporter, hy.cancelled]
  refine (h.each k x hk).follow hpolicy haccount
    (fun t ht => (mem_cancelled_iff hcancelled).mpr (.inl ht)) ?_ ?_ ?_
  · intro hc
    rw [isCancelled_iff] at hc ⊢
    exact (mem_cancelled_iff hcancelled).mp hc
  · intro ht
    have htop := hy.token (k + 1) (hexporter ▸ ht)
    rw [h.count] at htop
    omega
  · intro ht
    left
    rw [isCancelled_iff]
    exact (mem_cancelled_iff hcancelled).mpr (.inr ht)

theorem Sound.call (h : s.Sound) (hy : Export.Called s.exporter y) (retry : Retry)
    (hretry : retry = .start (y.1.isCancelled y.2.generation)) :
    Sound { s with exporter := y.1, runs := s.runs ++ [⟨y.2, retry, 0, [], [], 0⟩] } := by
  have hledger := h.ledger.cancel hy.waiting hy.running hy.finished
    fun t ht => (mem_cancelled_iff hy.cancelled).mpr (.inl ht)
  refine ⟨⟨hledger.begins, hledger.ends, hledger.skipped_cancelled⟩, ?_, ?_, ?_, ?_, ?_⟩
  · change y.1.generation = (s.runs ++ [_]).length
    rw [hy.generation, h.count, List.length_append, List.length_singleton]
  · intro t ht
    exact (hy.token t ht).trans hy.generation.symm
  · intro t ht
    change t ≤ y.1.generation
    have hle := h.cancelled_le_of_called hy ht
    rw [hy.generation]
    omega
  · intro u hu
    obtain ⟨k, hk, hrun⟩ := h.asked_run u hu
    refine ⟨k, ?_, hrun⟩
    rw [List.length_append]
    omega
  · intro k x hk
    rcases getElem?_append_eq_some.mp hk with ⟨rfl, rfl⟩ | ⟨-, hk⟩
    · refine h.called_run hy ?_ ?_ ?_ hretry <;> rfl
    · refine h.called_other hy ?_ ?_ ?_ ?_ hk <;> rfl

end

/-- An attempt or a rest of a run's seek is over. -/
theorem Sound.seek {s : Session α} (h : s.Sound) {k : Nat} {x : ExportCall α}
    (hk : s.runs[k]? = some x) {outcome : SeekOutcome}
    (houtcome : outcome = .cancelled → s.exporter.isCancelled (k + 1) = true) :
    Sound { s with
      runs := s.runs.set k (x.seek s.policy (s.exporter.isCancelled (k + 1)) outcome) } := by
  have hx := h.each k x hk
  refine ⟨⟨h.ledger.begins, h.ledger.ends, h.ledger.skipped_cancelled⟩, ?_, h.token_eq,
    h.cancelled_le, ?_, ?_⟩
  · rw [List.length_set]
    exact h.count
  · intro u hu
    rw [List.length_set]
    exact h.asked_run u hu
  · intro j z hj
    rcases (getElem?_set_eq_some hk).mp hj with ⟨rfl, rfl⟩ | ⟨-, hj⟩
    · unfold ExportCall.seek
      split
      · exact hx.follow rfl rfl (fun t ht => ht) .inl id .inr
      · rename_i hended
        have hlt := Retry.left_proceed_lt (p := s.policy) hended
          (s.exporter.isCancelled (j + 1)) outcome
        refine ⟨hx.number, hx.held, hx.alive, ?_, ?_, hx.inOrder⟩
        · exact Retry.cancelled_of_proceed houtcome hx.cut
        · have hturns := hx.turns_le
          dsimp only
          omega
    · exact (h.each j z hj).follow rfl rfl (fun t ht => ht) .inl id .inr

theorem Change.sound {s s' : Session α} (h : s.Sound) (hchange : Change s s') : s'.Sound := by
  cases hchange with
  | stay => exact h
  | call hcalled hretry => exact h.call hcalled _ hretry
  | advance ha => exact ha.sound h
  | seek hk houtcome => exact h.seek hk houtcome
  | begin due ending hj _ =>
      exact h.of_exporter (h.ledger.begin hj due ending) rfl rfl rfl rfl rfl rfl
        (fun t ht => ht) (fun t ht => .inl ht)
  | skip hj hc =>
      exact h.of_exporter (h.ledger.skip hj hc) rfl rfl rfl rfl rfl rfl
        (fun t ht => ht) (fun t ht => .inl ht)
  | tick millis =>
      exact h.of_exporter (h.ledger.tick millis) rfl rfl rfl rfl rfl rfl
        (fun t ht => ht) (fun t ht => .inl ht)
  | cancel hwaiting hrunning hfinished hgeneration htoken hcancelled _ =>
      exact h.cancelToken hwaiting hrunning hfinished hgeneration htoken hcancelled

variable [Elementary α]

theorem Sound.run {s : Session α} (h : s.Sound) (events : List (Event α)) : (s.run events).Sound :=
  run_induction (fun _ e hs => (hs.change e).sound hs) h events

theorem sound_run (p : RetryPolicy) (events : List (Event α)) :
    ((start p : Session α).run events).Sound :=
  (sound_start p).run events

end Exporter.Session

end Segue
