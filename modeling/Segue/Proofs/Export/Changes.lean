import Mathlib
import Segue.Proofs.Export.Ledger
import Segue.Proofs.Export.Replies

/-!
# The invariant of a session

The ledger of uploads balances, the books of every run are in order, and a run that has not ended
can be cancelled: it holds the token or has been cancelled already.
-/

namespace Segue

variable {α : Type} [Scalar α]

namespace Exporter.Session

/-- What a run has done so far; the first run has the number 1. -/
def account (s : Session α) (run : Nat) (x : ExportCall α) : Export.Account α :=
  ⟨x.drawn, s.askedBy run, s.collectedBy run, x.told, x.replies⟩

/-- What holds of the run at place `k`, which has the number `k + 1`. -/
structure RunSound (s : Session α) (k : Nat) (x : ExportCall α) : Prop where
  number : x.run.generation = k + 1
  held : s.exporter.token = some (k + 1) → x.run.hasEnded = false
  alive : x.run.hasEnded = false →
    s.exporter.isCancelled (k + 1) = true ∨ s.exporter.token = some (k + 1)
  cut : x.retry = .ended .cancelled → s.exporter.isCancelled (k + 1) = true
  turns_le : x.turns + x.retry.left s.policy ≤ 2 * s.policy.retries + 1
  inOrder : Export.InOrder (s.exporter.isCancelled (k + 1)) x.run (s.account (k + 1) x)

structure Sound (s : Session α) : Prop where
  ledger : s.Ledger
  count : s.exporter.generation = s.runs.length
  token_eq : ∀ t, s.exporter.token = some t → t = s.exporter.generation
  cancelled_le : ∀ t ∈ s.exporter.cancelled, t ≤ s.exporter.generation
  asked_run : ∀ u ∈ s.asked, ∃ k < s.runs.length, u.run = k + 1
  each : ∀ (k : Nat) (x : ExportCall α), s.runs[k]? = some x → s.RunSound k x

/-- A run that does nothing while others go on. Only a run that has the token is cancelled, and one
that loses the token has been. -/
theorem RunSound.follow {s s' : Session α} {k : Nat} {x : ExportCall α} (h : s.RunSound k x)
    (hpolicy : s'.policy = s.policy) (haccount : s'.account (k + 1) x = s.account (k + 1) x)
    (hmono : ∀ t ∈ s.exporter.cancelled, t ∈ s'.exporter.cancelled)
    (hnew : s'.exporter.isCancelled (k + 1) = true →
      s.exporter.isCancelled (k + 1) = true ∨ s.exporter.token = some (k + 1))
    (hheld : s'.exporter.token = some (k + 1) → s.exporter.token = some (k + 1))
    (hkeep : s.exporter.token = some (k + 1) →
      s'.exporter.isCancelled (k + 1) = true ∨ s'.exporter.token = some (k + 1)) :
    s'.RunSound k x where
  number := h.number
  held ht := h.held (hheld ht)
  alive hended := by
    rcases h.alive hended with hc | ht
    · exact .inl (isCancelled_mono hmono hc)
    · exact hkeep ht
  cut hcut := isCancelled_mono hmono (h.cut hcut)
  turns_le := hpolicy ▸ h.turns_le
  inOrder := by
    rw [haccount]
    have horder := h.inOrder
    cases hc : s.exporter.isCancelled (k + 1) with
    | true =>
        rw [hc] at horder
        rw [isCancelled_mono hmono hc]
        exact horder
    | false =>
        rw [hc] at horder
        cases hc' : s'.exporter.isCancelled (k + 1) with
        | false => exact horder
        | true =>
            rcases hnew hc' with hc'' | ht
            · rw [hc] at hc''
              cases hc''
            · exact horder.cancel (h.held ht)

theorem sound_start (p : RetryPolicy) : (start p : Session α).Sound where
  ledger := ⟨List.Perm.refl _, List.Perm.refl _, by simp [start]⟩
  count := rfl
  token_eq := by simp [start, make]
  cancelled_le := by simp [start, make]
  asked_run := by simp [start]
  each := by simp [start]

end Exporter.Session

end Segue

namespace Segue

/-!
## What a step of a session can do

A step changes nothing, or it is of one of few kinds. All that is proved of every step is proved of
these kinds.
-/

variable {α : Type} [Scalar α]

namespace Exporter.Session

/-- The run at place `k` goes on from `x` to `x'`, perhaps with a result that it has just taken. -/
structure Advance (s : Session α) (k : Nat) (x x' : ExportCall α)
    (taken left : List FinishedUpload) (y : Export.Running α) : Prop where
  here : s.runs[k]? = some x
  not_ended : x.run.hasEnded = false
  perm : s.exporter.finished.Perm (taken ++ left)
  filter_eq : ∀ n, s.exporter.finished.filter (·.run = n) =
    taken.filter (·.run = n) ++ left.filter (·.run = n)
  taken_run : ∀ u ∈ taken, u.run = k + 1
  run_eq : x'.run = y.2
  retry_eq : x'.retry = .start (y.1.isCancelled y.2.generation)
  turns_eq : x'.turns = 0
  proceeds : Export.Proceeds (s.exporter.isCancelled (k + 1)) { s.exporter with finished := left }
    x.run ⟨x'.drawn, s.askedBy (k + 1), s.collectedBy (k + 1) ++ taken, x'.told, x'.replies⟩ y

/-- A step leads from `s` to another session. -/
inductive Change (s : Session α) : Session α → Prop
  | stay : Change s s
  | call {y : Export.Running α} {retry : Retry} : Export.Called s.exporter y →
      retry = .start (y.1.isCancelled y.2.generation) →
      Change s { s with exporter := y.1, runs := s.runs ++ [⟨y.2, retry, 0, [], [], 0⟩] }
  | advance {k : Nat} {x x' : ExportCall α} {taken left : List FinishedUpload}
      {y : Export.Running α} : Advance s k x x' taken left y →
      Change s { s with
        exporter := y.1
        runs := s.runs.set k x'
        asked := s.asked ++ y.1.waiting.drop s.exporter.waiting.length
        collected := s.collected ++ taken }
  | seek {k : Nat} {x : ExportCall α} {outcome : SeekOutcome} : s.runs[k]? = some x →
      (outcome = .cancelled → s.exporter.isCancelled (k + 1) = true) →
      Change s { s with
        runs := s.runs.set k (x.seek s.policy (s.exporter.isCancelled (k + 1)) outcome) }
  | begin {j : Nat} {u : WaitingUpload} (due : Nat) (ending : UploadEnd) :
      s.exporter.waiting[j]? = some u → s.exporter.isCancelled u.run = false →
      Change s { s with
        exporter := { s.exporter with
          waiting := s.exporter.waiting.eraseIdx j }.beginUpload u due ending
        begun := s.begun ++ [(u, ending)] }
  | skip {j : Nat} {u : WaitingUpload} : s.exporter.waiting[j]? = some u →
      s.exporter.isCancelled u.run = true →
      Change s { s with
        exporter := { s.exporter with waiting := s.exporter.waiting.eraseIdx j }.skipUpload u
        skipped := s.skipped ++ [u] }
  | tick (millis : Nat) : Change s { s with exporter := s.exporter.finishDue millis }
  | cancel {e : Exporter α} : e.waiting = s.exporter.waiting → e.running = s.exporter.running →
      e.finished = s.exporter.finished → e.generation = s.exporter.generation →
      e.token = s.exporter.token → e.cancelled = s.exporter.token.toList ++ s.exporter.cancelled →
      e.exporting = false → Change s { s with exporter := e }

variable [Elementary α]

/-- A step happens as its event says, unless the event finds nothing that waits for it. -/
inductive Taken (s : Session α) : Event α → Session α → Prop
  | idle {e : Event α} : (∀ job a b, e ≠ .call job a b) → Taken s e s
  | call (job : ExportJob α) (a b : Option MediaError) :
      Taken s (.call job a b) (s.step (.call job a b))
  | prepare {k : Nat} {x : ExportCall α} (a b : Export.ClipFacts α) (supported : Bool) :
      s.runs[k]? = some x → x.run.isReadying = true →
      Taken s (.prepare k a b supported) (s.moved k s.exporter (x.prepare a b supported s.exporter))
  | resume {k : Nat} {x : ExportCall α} {reply : Export.Reply α} : s.runs[k]? = some x →
      x.run.awaits x.retry reply = true →
      Taken s (.resume k reply) (s.moved k s.exporter (x.resume reply s.exporter))
  | seek {k : Nat} {x : ExportCall α} {outcome : SeekOutcome} : s.runs[k]? = some x →
      (outcome = .cancelled → s.exporter.isCancelled x.run.generation = true) →
      Taken s (.seek k outcome) { s with
        runs := s.runs.set k (x.seek s.policy (s.exporter.isCancelled x.run.generation) outcome) }
  | join {k : Nat} {x : ExportCall α} {u : FinishedUpload} {left : List FinishedUpload} :
      s.runs[k]? = some x → x.run.isJoining = true →
      takeFirst? x.run.generation s.exporter.finished = some (u, left) →
      Taken s (.join k) (moved k { s.exporter with finished := left }
        (x.resume (.finished u.index u.ending) { s.exporter with finished := left })
        { s with collected := s.collected ++ [u] })
  | skip {j : Nat} {u : WaitingUpload} (due : Nat) (ending : UploadEnd) :
      s.exporter.waiting[j]? = some u → s.exporter.isCancelled u.run = true →
      Taken s (.start j due ending) { s with
        exporter := { s.exporter with waiting := s.exporter.waiting.eraseIdx j }.skipUpload u
        skipped := s.skipped ++ [u] }
  | begin {j : Nat} {u : WaitingUpload} (due : Nat) (ending : UploadEnd) :
      s.exporter.waiting[j]? = some u → s.exporter.isCancelled u.run = false →
      Taken s (.start j due ending) { s with
        exporter := { s.exporter with
          waiting := s.exporter.waiting.eraseIdx j }.beginUpload u due ending
        begun := s.begun ++ [(u, ending)] }
  | tick (millis : Nat) : Taken s (.tick millis) { s with exporter := s.exporter.finishDue millis }
  | abort : Taken s .abort { s with exporter := s.exporter.abort }
  | clear : Taken s .clear { s with exporter := s.exporter.clear }

theorem taken (s : Session α) (e : Event α) : Taken s e (s.step e) := by
  cases e with
  | call job a b => exact .call job a b
  | prepare k a b supported =>
      unfold Session.step
      dsimp only
      split
      · rename_i x hk
        split
        · rename_i hready
          exact .prepare a b supported hk hready
        · exact .idle fun _ _ _ h => nomatch h
      · exact .idle fun _ _ _ h => nomatch h
  | resume k reply =>
      unfold Session.step
      dsimp only
      split
      · rename_i x hk
        split
        · rename_i hreply
          exact .resume hk hreply
        · exact .idle fun _ _ _ h => nomatch h
      · exact .idle fun _ _ _ h => nomatch h
  | seek k outcome =>
      unfold Session.step
      dsimp only
      split
      · rename_i x hk
        split
        · rename_i hseeking
          refine .seek hk ?_
          rintro rfl
          simpa using (Bool.and_eq_true_iff.mp hseeking).2
        · exact .idle fun _ _ _ h => nomatch h
      · exact .idle fun _ _ _ h => nomatch h
  | join k =>
      unfold Session.step
      dsimp only
      split
      · rename_i x hk
        split
        · rename_i hj
          unfold takeFinished?
          cases hleft : takeFirst? x.run.generation s.exporter.finished with
          | none => exact .idle fun _ _ _ h => nomatch h
          | some taken => exact .join hk hj hleft
        · exact .idle fun _ _ _ h => nomatch h
      · exact .idle fun _ _ _ h => nomatch h
  | start j due ending =>
      unfold Session.step
      dsimp only
      split
      · rename_i u hj
        split
        · rename_i hc
          exact .skip due ending hj hc
        · rename_i hc
          exact .begin due ending hj (Bool.eq_false_of_not_eq_true hc)
      · exact .idle fun _ _ _ h => nomatch h
  | tick millis => exact .tick millis
  | abort => exact .abort
  | clear => exact .clear

/-! ### Steps that happen -/

omit [Scalar α] [Elementary α] in
@[simp] theorem run_seek (p : RetryPolicy) (cancelled : Bool) (outcome : SeekOutcome)
    (x : ExportCall α) : (x.seek p cancelled outcome).run = x.run := by
  unfold ExportCall.seek
  split
  · rfl
  · rfl

section

variable {s : Session α} {k : Nat} {x : ExportCall α}

theorem step_prepare (hk : s.runs[k]? = some x) (hready : x.run.isReadying = true)
    (a b : Export.ClipFacts α) (supported : Bool) : s.step (.prepare k a b supported) =
      s.moved k s.exporter (x.prepare a b supported s.exporter) := by
  simp only [Session.step, hk, hready, if_true]

theorem step_resume (hk : s.runs[k]? = some x) {reply : Export.Reply α}
    (hreply : x.run.awaits x.retry reply = true) :
    s.step (.resume k reply) = s.moved k s.exporter (x.resume reply s.exporter) := by
  simp only [Session.step, hk, hreply, if_true]

theorem Sound.step_join (h : s.Sound) (hk : s.runs[k]? = some x) (hj : x.run.isJoining = true)
    {u : FinishedUpload} {left : List FinishedUpload}
    (hleft : takeFirst? (k + 1) s.exporter.finished = some (u, left)) :
    s.step (.join k) = moved k { s.exporter with finished := left }
      (x.resume (.finished u.index u.ending) { s.exporter with finished := left })
      { s with collected := s.collected ++ [u] } := by
  simp only [Session.step, hk, hj, if_true, takeFinished?, (h.each k x hk).number, hleft]

end

theorem Sound.prepare_change {s : Session α} (h : s.Sound) {k : Nat} {x : ExportCall α}
    (hk : s.runs[k]? = some x) (hp : x.run.isReadying = true) (a b : Export.ClipFacts α)
    (supported : Bool) :
    Change s (s.moved k s.exporter (x.prepare a b supported s.exporter)) := by
  have hx := h.each k x hk
  have hphase := Export.isReadying_iff.mp hp
  have hproceeds := Export.setUp_proceeds hx.inOrder hphase a b supported (by rw [hx.number])
  have hadvance : Advance s k x (x.prepare a b supported s.exporter).2 [] s.exporter.finished
      (x.run.setUp a b supported s.exporter) := by
    have hended : x.run.hasEnded = false := by simp [Export.hasEnded, hphase]
    refine ⟨hk, hended, .refl _, fun _ => rfl, by simp, rfl, rfl, rfl, ?_⟩
    rw [List.append_nil]
    exact hproceeds
  have hchange := Change.advance hadvance
  rw [List.append_nil] at hchange
  exact hchange

theorem Sound.resume_goes {s : Session α} (h : s.Sound) {k : Nat} {x : ExportCall α}
    (hk : s.runs[k]? = some x) {reply : Export.Reply α}
    (hreply : x.run.awaits x.retry reply = true) :
    Export.Goes (s.exporter.isCancelled (k + 1)) s.exporter x.run
      ((s.account (k + 1) x).next x.run reply) (x.run.resume reply s.exporter) := by
  have hx := h.each k x hk
  have hreadying : x.run.phase ≠ .readying := by
    intro hp
    simp [Export.awaits, hp] at hreply
  have hworking := hx.inOrder.working_of hreadying (Export.hasEnded_of_awaits hreply)
  exact Export.resume_goes hworking hreply hx.cut (by rw [hx.number])

theorem Sound.resume_change {s : Session α} (h : s.Sound) {k : Nat} {x : ExportCall α}
    (hk : s.runs[k]? = some x) {reply : Export.Reply α}
    (hreply : x.run.awaits x.retry reply = true) :
    Change s (s.moved k s.exporter (x.resume reply s.exporter)) := by
  have hended := Export.hasEnded_of_awaits hreply
  have hadvance : Advance s k x (x.resume reply s.exporter).2 [] s.exporter.finished
      (x.run.resume reply s.exporter) := by
    refine ⟨hk, hended, .refl _, fun _ => rfl, by simp, rfl, rfl, rfl, ?_⟩
    rw [List.append_nil]
    exact (h.resume_goes hk hreply).proceeds
  have hchange := Change.advance hadvance
  rw [List.append_nil] at hchange
  exact hchange

/-- The result of an upload that a run takes is one of its own, and a new one. -/
theorem Sound.join_goes {s : Session α} (h : s.Sound) {k : Nat} {x : ExportCall α}
    (hk : s.runs[k]? = some x) (hj : x.run.isJoining = true) {u : FinishedUpload}
    {left : List FinishedUpload} (hleft : takeFirst? (k + 1) s.exporter.finished = some (u, left)) :
    Export.Goes (s.exporter.isCancelled (k + 1)) { s.exporter with finished := left } x.run
      ⟨x.drawn, s.askedBy (k + 1), s.collectedBy (k + 1) ++ [u], x.told, x.replies + 1⟩
      (x.run.resume (.finished u.index u.ending) { s.exporter with finished := left }) := by
  obtain ⟨hperm, hrun⟩ := perm_of_takeFirst? hleft
  have hx := h.each k x hk
  have hu : u ∈ s.finishedBy (k + 1) := by
    have hmem : u ∈ s.exporter.finished := hperm.mem_iff.mpr (by simp)
    simp [finishedBy, hmem, hrun]
  have hp := Export.isJoining_iff.mp hj
  have hworking := hx.inOrder.working_of (by simp [hp]) (by simp [Export.hasEnded, hp])
  have hnew : ∀ v ∈ s.collectedBy (k + 1), v.index ≠ u.index :=
    fun v hv => h.ledger.index_ne hworking.index_sorted hu hv
  have hasked := h.ledger.mem_asked (List.mem_append_left (s.collectedBy (k + 1)) hu)
  have hc : Exporter.isCancelled { s.exporter with finished := left } x.run.generation =
      s.exporter.isCancelled (k + 1) := by
    rw [hx.number]
    rfl
  exact Export.join_goes hworking hj hasked hnew hc

theorem Sound.join_change {s : Session α} (h : s.Sound) {k : Nat} {x : ExportCall α}
    (hk : s.runs[k]? = some x) (hj : x.run.isJoining = true) {u : FinishedUpload}
    {left : List FinishedUpload} (hleft : takeFirst? (k + 1) s.exporter.finished = some (u, left)) :
    Change s (moved k { s.exporter with finished := left }
      (x.resume (.finished u.index u.ending) { s.exporter with finished := left })
      { s with collected := s.collected ++ [u] }) := by
  obtain ⟨hperm, hrun⟩ := perm_of_takeFirst? hleft
  have hp := Export.isJoining_iff.mp hj
  have hended : x.run.hasEnded = false := by simp [Export.hasEnded, hp]
  have htold : (x.resume (.finished u.index u.ending) { s.exporter with finished := left }).2.told =
      x.told := by simp [ExportCall.resume, ExportCall.goOn, hp]
  have hfilter : ∀ n, s.exporter.finished.filter (·.run = n) =
      [u].filter (·.run = n) ++ left.filter (·.run = n) := by
    intro n
    rw [filter_takeFirst? hleft n, ← hrun]
    by_cases hn : u.run = n
    · simp [hn]
    · simp [hn]
  have hadvance : Advance s k x
      (x.resume (.finished u.index u.ending) { s.exporter with finished := left }).2 [u] left
      (x.run.resume (.finished u.index u.ending) { s.exporter with finished := left }) := by
    refine ⟨hk, hended, hperm, hfilter, by simp [hrun], rfl, rfl, rfl, ?_⟩
    rw [htold]
    exact (h.join_goes hk hj hleft).proceeds
  exact Change.advance hadvance

theorem Taken.change {s s' : Session α} {e : Event α} (ht : Taken s e s') (h : s.Sound) :
    Change s s' := by
  cases ht with
  | idle => exact .stay
  | call job a b => exact .call (Export.call_called job a b s.exporter) rfl
  | prepare a b supported hk hready => exact h.prepare_change hk hready a b supported
  | resume hk hreply => exact h.resume_change hk hreply
  | @seek k x outcome hk hcancelled =>
      rw [(h.each k x hk).number] at hcancelled ⊢
      exact .seek hk hcancelled
  | @join k x u left hk hj hleft =>
      rw [(h.each k x hk).number] at hleft
      exact h.join_change hk hj hleft
  | skip due ending hj hc => exact .skip hj hc
  | begin due ending hj hc => exact .begin due ending hj hc
  | tick millis => exact .tick millis
  | abort => exact .cancel rfl rfl rfl rfl rfl rfl rfl
  | clear => exact .cancel rfl rfl rfl rfl rfl rfl rfl

/-- Every step is a change of one of these kinds. -/
theorem Sound.change {s : Session α} (h : s.Sound) (e : Event α) : Change s (s.step e) :=
  (s.taken e).change h

end Exporter.Session

end Segue
