import Mathlib
import Segue.Proofs.Export.Books

/-!
# The steps of a run

A step of a run asks for at most one upload and leaves all other uploads alone. It never sets the
exporter going, and it takes the token back only at its end. The books of the run agree again
after the step.
-/

namespace Segue

open Scalar

variable {α : Type}

/-- What a step of a run does to the exporter when it asks for the uploads of some frames. -/
structure Exporter.Spared (run : Nat) (ended : Bool) (frames : List EncodedFrame)
    (e e' : Exporter α) : Prop where
  waiting : e'.waiting = e.waiting ++ frames.map (WaitingUpload.mk run)
  running : e'.running = e.running
  finished : e'.finished = e.finished
  generation : e'.generation = e.generation
  cancelled : e'.cancelled = e.cancelled
  exporting : e'.exporting = true → e.exporting = true
  token : e'.token = e.token ∨ (ended = true ∧ e.generation = run ∧ e'.token = none)
  released : ended = true → e.generation = run → e'.token = none

namespace Exporter

theorem Spared.refl (run : Nat) (e : Exporter α) : Spared run false [] e e :=
  ⟨by simp, rfl, rfl, rfl, rfl, id, .inl rfl, by simp⟩

theorem Spared.trans {run : Nat} {ended : Bool} {xs ys : List EncodedFrame} {e e' e'' : Exporter α}
    (h : Spared run false xs e e') (h' : Spared run ended ys e' e'') :
    Spared run ended (xs ++ ys) e e'' where
  waiting := by rw [h'.waiting, h.waiting, List.map_append, List.append_assoc]
  running := h'.running.trans h.running
  finished := h'.finished.trans h.finished
  generation := h'.generation.trans h.generation
  cancelled := h'.cancelled.trans h.cancelled
  exporting := h.exporting ∘ h'.exporting
  token := by
    have htoken : e'.token = e.token := by simpa using h.token
    rw [← htoken, ← h.generation]
    exact h'.token
  released hended hlatest := h'.released hended (h.generation.trans hlatest)

theorem Spared.token_of {run : Nat} {ended : Bool} {frames : List EncodedFrame} {e e' : Exporter α}
    (h : Spared run ended frames e e') {t : Nat} (ht : e'.token = some t) : e.token = some t := by
  rcases h.token with hsame | ⟨-, -, hnone⟩
  · exact hsame.symm.trans ht
  · cases hnone.symm.trans ht

theorem Spared.isCancelled_eq {run : Nat} {ended : Bool} {frames : List EncodedFrame}
    {e e' : Exporter α} (h : Spared run ended frames e e') (t : Nat) :
    e'.isCancelled t = e.isCancelled t := by
  simp only [isCancelled, h.cancelled]

theorem spared_requestUpload (run : Nat) (frame : EncodedFrame) (e : Exporter α) :
    Spared run false [frame] e (e.requestUpload run frame) :=
  ⟨rfl, rfl, rfl, rfl, rfl, id, .inl rfl, by simp⟩

theorem spared_onlyLatest (run : Nat) (change : Exporter α → Exporter α) (e : Exporter α)
    (h : Spared run false [] e (change e)) : Spared run false [] e (e.onlyLatest run change) := by
  unfold onlyLatest
  split
  · exact h
  · exact .refl run e

theorem spared_endRun (run : Nat) (e : Exporter α) : Spared run true [] e (e.endRun run) := by
  unfold endRun onlyLatest
  split
  · rename_i hlatest
    exact ⟨by simp, rfl, rfl, rfl, rfl, by simp, .inr ⟨rfl, hlatest, rfl⟩, fun _ _ => rfl⟩
  · rename_i hlatest
    exact ⟨by simp, rfl, rfl, rfl, rfl, id, .inl rfl, fun _ h => absurd h hlatest⟩

end Exporter

namespace Export

/-! ## Uploads that wait -/

section

variable {e : Exporter α} {r : Export α}

theorem waiting_onlyLatest (run : Nat) (change : Exporter α → Exporter α)
    (h : (change e).waiting = e.waiting) : (e.onlyLatest run change).waiting = e.waiting := by
  unfold Exporter.onlyLatest
  split
  · exact h
  · rfl

theorem waiting_drain : (drain e r).1.waiting = e.waiting := by
  unfold drain
  split
  · exact (waiting_onlyLatest _ _ rfl).trans (waiting_onlyLatest _ _ rfl)
  · rfl

variable [Scalar α] [Elementary α]

theorem waiting_seekB : (seekB e r).1.waiting = e.waiting := by
  unfold seekB
  split <;> rfl

/-- No upload is asked for before a frame has been drawn. -/
@[simp] theorem waiting_enterFrame : (enterFrame e r).1.waiting = e.waiting := by
  unfold enterFrame
  split
  · exact waiting_drain
  · split
    · rfl
    · exact waiting_seekB

end

/-! ## Going on -/

variable [Scalar α]

/-- The run has gone on to `y`, and its books agree. -/
def Goes (cancelled : Bool) (e : Exporter α) (r : Export α) (l : Account α) (y : Running α) :
    Prop :=
  y.2.generation = r.generation ∧ y.2.total = r.total ∧ ∃ frames : List EncodedFrame,
    Exporter.Spared r.generation y.2.hasEnded frames e y.1 ∧ Working cancelled y.2 (l.ask frames)

/-- A change of the exporter or of the books before the run goes on. -/
theorem Goes.after {cancelled : Bool} {e e' : Exporter α} {r r' : Export α} {l : Account α}
    {xs : List EncodedFrame} {y : Running α} (h : Goes cancelled e' r' (l.ask xs) y)
    (he : Exporter.Spared r.generation false xs e e') (hgeneration : r'.generation = r.generation)
    (htotal : r'.total = r.total) : Goes cancelled e r l y := by
  obtain ⟨hgen, hsize, frames, hspared, hworking⟩ := h
  rw [hgeneration] at hgen hspared
  refine ⟨hgen, hsize.trans htotal, xs ++ frames, he.trans hspared, ?_⟩
  rw [← Account.ask_ask]
  exact hworking

theorem Prepared.congr {givenUp : Bool} {r r' : Export α} {l : Account α}
    {frames : List EncodedFrame} {n n' : Nat} (h : Prepared givenUp r l frames n)
    (htotal : r'.total = r.total) (hpending : r'.pending = r.pending) (hslots : r'.slots = r.slots)
    (huploaded : r'.uploaded = r.uploaded) (hjob : r'.job = r.job) (hle : n' ≤ n) :
    Prepared givenUp r' l frames n' where
  books := h.books.congr htotal hpending hslots huploaded
  asked := hjob ▸ h.asked
  told := by rw [htotal, huploaded]; exact h.told
  replies := by
    have hreplies := h.replies
    rw [htotal]
    omega

theorem Prepared.loosen {r : Export α} {l : Account α} {frames : List EncodedFrame} {n : Nat}
    (h : Prepared false r l frames n) (givenUp : Bool) : Prepared givenUp r l frames n :=
  ⟨h.books, h.asked.loosen givenUp, h.told, h.replies⟩

/-- The run leaves off at a phase that waits. -/
theorem Prepared.awaiting {cancelled givenUp : Bool} {r : Export α} {l : Account α}
    {frames : List EncodedFrame} {n : Nat} (h : Prepared givenUp r l frames n) (e : Exporter α)
    (phase : Phase α) (hframes : ({ r with phase } : Export α).outstanding = frames)
    (hgivenUp : (cancelled && ({ r with phase } : Export α).position?.isNone) = givenUp)
    (hunreported : ({ r with phase } : Export α).unreported = [])
    (hcome : ({ r with phase } : Export α).toCome ≤ n)
    (hposition : ∀ n, ({ r with phase } : Export α).position? = some n →
      l.drawn.length = n ∧ r.index < r.total)
    (hall : cancelled = false → ({ r with phase } : Export α).position? = none →
      l.drawn.length = r.total)
    (hjoining : ({ r with phase } : Export α).isJoining = true → r.pending ≠ 0)
    (hprepared : ({ r with phase } : Export α).isPreparing = false)
    (hended : ({ r with phase } : Export α).hasEnded = false) :
    Goes cancelled e r l (awaiting phase e r) := by
  have hspared : Exporter.Spared r.generation ({ r with phase } : Export α).hasEnded [] e e :=
    hended ▸ .refl r.generation e
  refine ⟨rfl, rfl, [], hspared, ?_⟩
  rw [Account.ask_nil]
  refine ⟨h.books.congr rfl rfl rfl rfl, hprepared, hposition, hall, ?_, ?_, ?_, hjoining, ?_⟩
  · change Asked (cancelled && ({ r with phase } : Export α).position?.isNone)
      (l.asked ++ ({ r with phase } : Export α).outstanding) (encodings r.job.format l.drawn)
    rw [hframes, hgivenUp]
    exact h.asked
  · have htold := h.told
    change l.told ++ ({ r with phase } : Export α).unreported = _
    rw [hunreported, List.append_nil]
    exact htold
  · have hreplies := h.replies
    change l.replies + ({ r with phase } : Export α).toCome ≤ 6 * r.total + 2
    omega
  · intro result hresult
    have hphase : phase = .ended result := hresult
    simp [hasEnded, hphase] at hended

theorem drain_goes {cancelled : Bool} {e : Exporter α} {r : Export α} {l : Account α}
    (h : Prepared cancelled r l [] (2 * r.pending))
    (hall : cancelled = false → l.drawn.length = r.total) :
    Goes cancelled e r l (drain e r) := by
  unfold drain
  split
  · rename_i hpending
    refine ⟨rfl, rfl, [], ?_, ?_⟩
    · have hframes := Exporter.spared_onlyLatest r.generation
        (fun e => { e with frames := r.slots.toList.filterMap id }) e
        ⟨by simp, rfl, rfl, rfl, rfl, id, .inl rfl, by simp⟩
      exact hframes.trans (Exporter.spared_endRun r.generation _)
    · rw [Account.ask_nil]
      refine ⟨h.books.congr rfl rfl rfl rfl, rfl, ?_, fun hc _ => hall hc, ?_, ?_, ?_, ?_, ?_⟩
      · intro n hn
        cases hn
      · exact (Bool.and_true cancelled).symm ▸ h.asked
      · exact (List.append_nil _).trans h.told
      · have hreplies := h.replies
        change l.replies + 0 ≤ 6 * r.total + 2
        omega
      · intro hjoining
        cases hjoining
      · intro result hresult
        cases hresult
        exact ⟨hpending, rfl⟩
  · rename_i hpending
    have h' : Prepared cancelled { r with next := none } l [] (2 * r.pending) :=
      h.congr rfl rfl rfl rfl rfl le_rfl
    have hcome :
        ({ r with next := none, phase := .joining } : Export α).toCome ≤ 2 * r.pending := by
      simp [toCome, aheadNext]
    have hgoes := h'.awaiting e .joining rfl (Bool.and_true cancelled) rfl hcome
      (fun n hn => by cases hn) (fun hc _ => hall hc) (fun _ => hpending) rfl rfl
    exact hgoes

variable [Elementary α]

theorem draw_goes {cancelled : Bool} {e : Exporter α} {r : Export α} {l : Account α}
    (h : Prepared false r l [] (r.ahead - 2 + 2 * r.pending))
    (hposition : l.drawn.length = r.index) (hlt : r.index < r.total) :
    Goes cancelled e r l (draw e r) := by
  refine h.awaiting e _ rfl (Bool.and_false cancelled) rfl (Nat.le_refl _) ?_ ?_ ?_ rfl rfl
  · intro n hn
    cases hn
    exact ⟨hposition, hlt⟩
  · intro _ hnone
    cases hnone
  · intro hjoining
    cases hjoining

theorem seekB_goes {cancelled : Bool} {e : Exporter α} {r : Export α} {l : Account α}
    (h : Prepared false r l [] (r.ahead - 1 + 2 * r.pending))
    (hposition : l.drawn.length = r.index) (hlt : r.index < r.total) :
    Goes cancelled e r l (seekB e r) := by
  unfold seekB
  split
  · refine h.awaiting e _ rfl (Bool.and_false cancelled) rfl (Nat.le_refl _) ?_ ?_ ?_ rfl rfl
    · intro n hn
      cases hn
      exact ⟨hposition, hlt⟩
    · intro _ hnone
      cases hnone
    · intro hjoining
      cases hjoining
  · refine draw_goes (h.congr rfl rfl rfl rfl rfl ?_) hposition hlt
    omega

theorem enterFrame_goes {cancelled : Bool} {e : Exporter α} {r : Export α} {l : Account α}
    (h : Prepared false r l [] (r.ahead + 2 * r.pending))
    (hposition : l.drawn.length = r.index) (hc : e.isCancelled r.generation = cancelled) :
    Goes cancelled e r l (enterFrame e r) := by
  unfold enterFrame
  rw [hc]
  split
  · rename_i hlast
    refine drain_goes ((h.loosen cancelled).congr rfl rfl rfl rfl rfl (Nat.le_add_left _ _)) ?_
    intro hnot
    have hle : r.total ≤ r.index := by simpa [hnot] using hlast
    have hdrawn := h.books.drawn_le
    omega
  · rename_i hlast
    have hlt : r.index < r.total := by
      simp only [Bool.or_eq_true, decide_eq_true_eq, not_or] at hlast
      omega
    split
    · refine h.awaiting e _ rfl (Bool.and_false cancelled) rfl (Nat.le_refl _) ?_ ?_ ?_ rfl rfl
      · intro n hn
        cases hn
        exact ⟨hposition, hlt⟩
      · intro _ hnone
        cases hnone
      · intro hjoining
        cases hjoining
    · refine seekB_goes (h.congr rfl rfl rfl rfl rfl ?_) hposition hlt
      omega

theorem makeRoom_goes {cancelled : Bool} {e : Exporter α} {r : Export α} {l : Account α}
    {frame : EncodedFrame} (h : Prepared false r l [frame] (r.ahead - 4 + 2 * r.pending))
    (hposition : l.drawn.length = r.index + 1) (hlt : r.index < r.total)
    (hc : e.isCancelled r.generation = cancelled) :
    Goes cancelled e r l (makeRoom frame e r) := by
  unfold makeRoom
  split
  · rename_i hfull
    have hpending : r.pending ≠ 0 := by
      have hlimit : 1 ≤ r.limit := Nat.le_max_right _ _
      omega
    have h' : Prepared false { r with next := some frame } l [frame]
        (r.ahead - 4 + 2 * r.pending) := h.congr rfl rfl rfl rfl rfl le_rfl
    refine h'.awaiting e .joining rfl (Bool.and_false cancelled) rfl (Nat.le_refl _) ?_ ?_
      (fun _ => hpending) rfl rfl
    · intro n hn
      cases hn
      exact ⟨hposition, hlt⟩
    · intro _ hnone
      cases hnone
  · have hbooks : Books { r with next := none, pending := r.pending + 1, index := r.index + 1 }
        (l.ask [frame]) := by
      refine ⟨h.books.positions, h.books.drawn_le, ?_, h.books.filled, h.books.uploaded_eq⟩
      have hpending := h.books.pending_eq
      simp only [Account.ask, List.length_append, List.length_singleton]
      omega
    have hprepared : Prepared false
        { r with next := none, pending := r.pending + 1, index := r.index + 1 } (l.ask [frame]) []
        (6 * (r.total - (r.index + 1)) + 2 * (r.pending + 1)) := by
      refine ⟨hbooks, ?_, h.told, ?_⟩
      · rw [List.append_nil]
        exact h.asked
      · have hreplies := h.replies
        simp only [ahead, Account.ask] at hreplies ⊢
        omega
    have hgoes := enterFrame_goes (e := e.requestUpload r.generation frame) hprepared hposition hc
    exact hgoes.after (Exporter.spared_requestUpload r.generation frame e) rfl rfl

theorem afterJoin_goes {cancelled : Bool} {e : Exporter α} {r : Export α} {l : Account α}
    (h : Prepared (cancelled && (r.next.map fun _ => r.index + 1).isNone) r l r.next.toList
      (r.aheadNext + 2 * r.pending))
    (hposition : ∀ n, r.next.map (fun _ => r.index + 1) = some n →
      l.drawn.length = n ∧ r.index < r.total)
    (hall : cancelled = false → r.next.map (fun _ => r.index + 1) = none →
      l.drawn.length = r.total)
    (hc : e.isCancelled r.generation = cancelled) :
    Goes cancelled e r l (afterJoin e r) := by
  unfold afterJoin
  cases hnext : r.next with
  | some frame =>
      obtain ⟨hdrawn, hlt⟩ := hposition (r.index + 1) (by rw [hnext]; rfl)
      simp only [aheadNext, hnext, Option.map_some, Option.isNone_some, Bool.and_false] at h
      exact makeRoom_goes h hdrawn hlt hc
  | none =>
      simp only [aheadNext, hnext, Option.map_none, Option.isNone_none, Bool.and_true] at h
      refine drain_goes (h.congr rfl rfl rfl rfl rfl (by omega)) ?_
      intro hnot
      exact hall hnot (by rw [hnext]; rfl)

/-! ## Replies -/

/-- The run takes the result of an upload: the caller is told of a stored frame first. -/
theorem finished_goes {cancelled : Bool} {e : Exporter α} {r : Export α} {l : Account α}
    (h : Working cancelled r l) (hp : r.phase = .joining) {u : FinishedUpload}
    (hlt : u.index < r.total) (hnew : ∀ v ∈ l.collected, v.index ≠ u.index)
    (hc : e.isCancelled r.generation = cancelled) :
    Goes cancelled e r { l with collected := l.collected ++ [u], replies := l.replies + 1 }
      (finished u.index u.ending e r) := by
  have hpending : r.pending ≠ 0 := h.joining (by simp [isJoining, hp])
  have hposition := h.position
  have hall := h.all_drawn
  have hasked := h.asked
  have htold := h.told
  have hreplies := h.replies
  simp only [position?, hp] at hposition hall
  simp only [outstanding, position?, hp] at hasked
  simp only [unreported, hp, List.append_nil] at htold
  simp only [toCome, hp] at hreplies
  cases hu : u.ending.stored? with
  | some frame =>
      have hending : u.ending = .stored frame := by
        cases hend : u.ending <;> simp_all [UploadEnd.stored?]
      have hbooks := h.books.take hpending (h.books.filled.stored hu hlt hnew) (l.replies + 1)
      simp only [finished, record, hending]
      have hspared := Exporter.spared_onlyLatest r.generation
        (fun e => { e with progress := ofNat (r.uploaded + 1) / ofNat r.slots.size }) e
        ⟨by simp, rfl, rfl, rfl, rfl, id, .inl rfl, by simp⟩
      refine ⟨rfl, rfl, [], hspared, ?_⟩
      rw [Account.ask_nil]
      refine ⟨hbooks.congr rfl rfl rfl (by rw [hu]; rfl), rfl, hposition, hall, hasked, ?_, ?_, ?_,
        ?_⟩
      · change l.told ++ [_] = shares r.total (r.uploaded + 1)
        rw [shares_succ, ← htold, h.books.filled.size]
      · change l.replies + 1 + (r.aheadNext + 2 * (r.pending - 1) + 1) ≤ 6 * r.total + 2
        omega
      · intro hjoining
        cases hjoining
      · intro result hresult
        cases hresult
  | none =>
      have hfinished : finished u.index u.ending e r =
          afterJoin e { r with pending := r.pending - 1 } := by
        cases hend : u.ending <;> simp_all [UploadEnd.stored?, finished, record]
      have hbooks := h.books.take hpending (h.books.filled.nothing hu hlt hnew) (l.replies + 1)
      rw [hfinished]
      refine afterJoin_goes (r := { r with pending := r.pending - 1 })
        ⟨hbooks.congr rfl rfl rfl (by rw [hu]; rfl), hasked, htold, ?_⟩ hposition hall hc
      change l.replies + 1 + (r.aheadNext + 2 * (r.pending - 1)) ≤ 6 * r.total + 2
      omega

/-- The caller was told. -/
theorem reported_goes {cancelled : Bool} {e : Exporter α} {r : Export α} {l : Account α}
    {progress : α} (h : Working cancelled r l) (hp : r.phase = .report progress)
    (hc : e.isCancelled r.generation = cancelled) :
    Goes cancelled e r { l with told := l.told ++ [progress], replies := l.replies + 1 }
      (afterJoin e r) := by
  have hposition := h.position
  have hall := h.all_drawn
  have hasked := h.asked
  have htold := h.told
  have hreplies := h.replies
  simp only [position?, hp] at hposition hall
  simp only [outstanding, position?, hp] at hasked
  simp only [unreported, hp] at htold
  simp only [toCome, hp] at hreplies
  refine afterJoin_goes ⟨⟨h.books.positions, h.books.drawn_le, h.books.pending_eq, h.books.filled,
    h.books.uploaded_eq⟩, hasked, htold, ?_⟩ hposition hall hc
  change l.replies + 1 + (r.aheadNext + 2 * r.pending) ≤ 6 * r.total + 2
  omega

theorem sought_goes {cancelled : Bool} {e : Exporter α} {r : Export α} {l : Account α}
    {clip : Clip} {time : α} {outcome : SeekOutcome} (h : Working cancelled r l)
    (hp : r.phase = .seeking clip time) (houtcome : outcome = .cancelled → cancelled = true)
    (hc : e.isCancelled r.generation = cancelled) :
    Goes cancelled e r { l with replies := l.replies + 1 } (sought clip outcome e r) := by
  obtain ⟨hdrawn, hlt, hahead, hasked⟩ := h.of_position (n := r.index) (by simp [position?, hp])
  have htold := h.told
  have hreplies := h.replies
  simp only [outstanding, hp] at hasked
  simp only [unreported, hp, List.append_nil] at htold
  have hprepared : ∀ n, l.replies + 1 + n ≤ 6 * r.total + 2 →
      Prepared false r { l with replies := l.replies + 1 } [] n := by
    intro n hn
    exact ⟨h.books.reply _, hasked, htold, hn⟩
  unfold sought
  split
  · rename_i hcut
    have hcancelled : cancelled = true := by
      rw [hc] at hcut
      rcases Bool.or_eq_true_iff.mp hcut with hcut | hcut
      · exact hcut
      · exact houtcome (by simpa using hcut)
    refine drain_goes ((hprepared _ ?_).loosen cancelled) (fun hnot => by simp [hcancelled] at hnot)
    cases clip <;> simp only [toCome, hp] at hreplies <;> omega
  · cases clip with
    | a =>
        refine seekB_goes (hprepared _ ?_) hdrawn hlt
        simp only [toCome, hp] at hreplies
        omega
    | b =>
        refine draw_goes (hprepared _ ?_) hdrawn hlt
        simp only [toCome, hp] at hreplies
        omega

theorem drawn_goes {cancelled : Bool} {e : Exporter α} {r : Export α} {l : Account α} {time : α}
    {shot : Shot α} (h : Working cancelled r l) (hp : r.phase = .drawing time shot) (d : Drawn)
    (hc : e.isCancelled r.generation = cancelled) :
    Goes cancelled e r
      { l with drawn := l.drawn ++ [(r.index, d)], replies := l.replies + 1 } (drawn d e r) := by
  obtain ⟨hdrawn, hlt, hahead, hasked⟩ := h.of_position (n := r.index) (by simp [position?, hp])
  have htold := h.told
  have hreplies := h.replies
  simp only [outstanding, hp, List.append_nil] at hasked
  simp only [unreported, hp, List.append_nil] at htold
  simp only [toCome, hp] at hreplies
  have hbooks := h.books.draw hdrawn hlt d (l.replies + 1)
  have hlength : (l.drawn ++ [(r.index, d)]).length = r.index + 1 := by
    rw [List.length_append, hdrawn, List.length_singleton]
  -- a position without a picture is left behind
  have hnext : encodings r.job.format (l.drawn ++ [(r.index, d)]) = encodings r.job.format l.drawn →
      Goes cancelled e r
        { l with drawn := l.drawn ++ [(r.index, d)], replies := l.replies + 1 }
        (nextFrame e r) := by
    intro hnothing
    have hprepared : Prepared false { r with index := r.index + 1 }
        { l with drawn := l.drawn ++ [(r.index, d)], replies := l.replies + 1 } []
        (6 * (r.total - (r.index + 1)) + 2 * r.pending) := by
      refine ⟨hbooks.congr rfl rfl rfl rfl, .of_eq ?_ false, htold, ?_⟩
      · exact (List.append_nil _).trans ((hasked.all rfl).trans hnothing.symm)
      · simp only [ahead] at hreplies ⊢
        omega
    have hgoes := enterFrame_goes (e := e) hprepared hlength hc
    exact hgoes
  cases d with
  | skipped => exact hnext (by simp [encodings, List.filterMap_append])
  | unreadable => exact hnext (by simp [encodings, List.filterMap_append])
  | picture image =>
      have hprepared : Prepared false r
          { l with drawn := l.drawn ++ [(r.index, .picture image)], replies := l.replies + 1 }
          (EncodedFrame.ofImage? r.index image r.job.format).toList
          (r.ahead - 3 + 2 * r.pending) := by
        refine ⟨hbooks, .of_eq ?_ false, htold, ?_⟩
        · rw [encodings_picture, ← hasked.all rfl]
        · change l.replies + 1 + (r.ahead - 3 + 2 * r.pending) ≤ 6 * r.total + 2
          omega
      refine hprepared.awaiting e (.encoding image) rfl (Bool.and_false cancelled) rfl
        (Nat.le_refl _) ?_ ?_ ?_ rfl rfl
      · intro n hn
        cases hn
        exact ⟨hlength, hlt⟩
      · intro _ hnone
        cases hnone
      · intro hjoining
        cases hjoining

theorem encoded_goes {cancelled : Bool} {e : Exporter α} {r : Export α} {l : Account α}
    {image : Image} (h : Working cancelled r l) (hp : r.phase = .encoding image)
    (hc : e.isCancelled r.generation = cancelled) :
    Goes cancelled e r { l with replies := l.replies + 1 } (encoded image e r) := by
  obtain ⟨hdrawn, hlt, hahead, hasked⟩ := h.of_position (n := r.index + 1) (by simp [position?, hp])
  have hbooks := h.books.reply (l.replies + 1)
  have htold := h.told
  have hreplies := h.replies
  simp only [outstanding, hp] at hasked
  simp only [unreported, hp, List.append_nil] at htold
  simp only [toCome, hp] at hreplies
  unfold encoded
  cases hframe : EncodedFrame.ofImage? r.index image r.job.format with
  | none =>
      simp only [hframe, Option.toList_none] at hasked
      have hprepared : Prepared false { r with index := r.index + 1 }
          { l with replies := l.replies + 1 } []
          (6 * (r.total - (r.index + 1)) + 2 * r.pending) := by
        refine ⟨hbooks.congr rfl rfl rfl rfl, hasked, htold, ?_⟩
        simp only [ahead] at hreplies ⊢
        omega
      have hgoes := enterFrame_goes (e := e) hprepared hdrawn hc
      exact hgoes
  | some frame =>
      simp only [hframe, Option.toList_some] at hasked
      dsimp only
      split
      · rename_i hcut
        have hcancelled : cancelled = true := hc.symm.trans hcut
        subst hcancelled
        refine drain_goes ⟨hbooks, ?_, htold, ?_⟩ (by simp)
        · exact (List.append_nil l.asked).symm ▸ hasked.drop
        · change l.replies + 1 + 2 * r.pending ≤ 6 * r.total + 2
          omega
      · refine makeRoom_goes ⟨hbooks, hasked, htold, ?_⟩ hdrawn hlt hc
        change l.replies + 1 + (r.ahead - 4 + 2 * r.pending) ≤ 6 * r.total + 2
        omega

end Export

end Segue
