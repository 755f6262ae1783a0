import Mathlib
import Segue.Proofs.Export.Steps

/-!
# Replies

Whatever a run is told, it goes on with its books in order: it prepares and has done nothing so far,
or it has ended in its preparations, or it is at work on its frames.
-/

namespace Segue

variable {α : Type} [Scalar α]

namespace Export

/-- Nothing has been done. -/
structure Idle (r : Export α) (l : Account α) : Prop where
  drawn : l.drawn = []
  asked : l.asked = []
  collected : l.collected = []
  told : l.told = []
  pending : r.pending = 0
  uploaded : r.uploaded = 0

/-- The books of a run agree with its phase. -/
inductive InOrder (cancelled : Bool) (r : Export α) (l : Account α) : Prop
  | readying : Idle r l → r.phase = .readying → l.replies = 0 → InOrder cancelled r l
  | refused (fault : ExportError α) : Idle r l → r.phase = .ended (.error fault) →
      l.replies ≤ 2 → cancelled = false → InOrder cancelled r l
  | quit : Idle r l → r.phase = .ended (.ok []) → l.replies ≤ 2 → cancelled = true →
      InOrder cancelled r l
  | working : Working cancelled r l → InOrder cancelled r l

omit [Scalar α] in
theorem Idle.congr {r r' : Export α} {l l' : Account α} (h : Idle r l) (hdrawn : l'.drawn = l.drawn)
    (hasked : l'.asked = l.asked) (hcollected : l'.collected = l.collected)
    (htold : l'.told = l.told) (hpending : r'.pending = r.pending)
    (huploaded : r'.uploaded = r.uploaded) : Idle r' l' :=
  ⟨hdrawn.trans h.drawn, hasked.trans h.asked, hcollected.trans h.collected, htold.trans h.told,
    hpending.trans h.pending, huploaded.trans h.uploaded⟩

/-- A run that is cancelled keeps its books. -/
theorem Working.cancel {cancelled : Bool} {r : Export α} {l : Account α}
    (h : Working cancelled r l) : Working true r l where
  books := h.books
  prepared := h.prepared
  position := h.position
  all_drawn := by simp
  asked := by
    refine ⟨h.asked.isPrefix, ?_⟩
    intro hgivenUp
    refine h.asked.all ?_
    simp only [Bool.true_and] at hgivenUp
    rw [hgivenUp, Bool.and_false]
  told := h.told
  replies := h.replies
  joining := h.joining
  ended := h.ended

theorem InOrder.cancel {cancelled : Bool} {r : Export α} {l : Account α}
    (h : InOrder cancelled r l) (hended : r.hasEnded = false) : InOrder true r l := by
  cases h with
  | readying hidle hp hreplies => exact .readying hidle hp hreplies
  | refused fault _ hp => simp [hasEnded, hp] at hended
  | quit _ hp => simp [hasEnded, hp] at hended
  | working hworking => exact .working hworking.cancel

/-- A run past its preparations that has not ended is at work. -/
theorem InOrder.working_of {cancelled : Bool} {r : Export α} {l : Account α}
    (h : InOrder cancelled r l) (hreadying : r.phase ≠ .readying) (hended : r.hasEnded = false) :
    Working cancelled r l := by
  cases h with
  | readying _ hp => exact absurd hp hreadying
  | refused fault _ hp => simp [hasEnded, hp] at hended
  | quit _ hp => simp [hasEnded, hp] at hended
  | working hworking => exact hworking

theorem InOrder.of_readying {cancelled : Bool} {r : Export α} {l : Account α}
    (h : InOrder cancelled r l) (hp : r.phase = .readying) : Idle r l ∧ l.replies = 0 := by
  cases h with
  | readying hidle _ hreplies => exact ⟨hidle, hreplies⟩
  | refused _ _ hp' => simp [hp] at hp'
  | quit _ hp' => simp [hp] at hp'
  | working hworking =>
      have hprepared := hworking.prepared
      simp [isPreparing, hp] at hprepared

/-- The run has gone on to `y`, and its books are in order. -/
def Proceeds (cancelled : Bool) (e : Exporter α) (r : Export α) (l : Account α) (y : Running α) :
    Prop :=
  y.2.generation = r.generation ∧ ∃ frames : List EncodedFrame,
    Exporter.Spared r.generation y.2.hasEnded frames e y.1 ∧ InOrder cancelled y.2 (l.ask frames)

theorem Goes.proceeds {cancelled : Bool} {e : Exporter α} {r : Export α} {l : Account α}
    {y : Running α} (h : Goes cancelled e r l y) : Proceeds cancelled e r l y := by
  obtain ⟨hgen, -, frames, hspared, hworking⟩ := h
  exact ⟨hgen, frames, hspared, .working hworking⟩

/-- The run ends in its preparations. -/
theorem finish_proceeds {cancelled : Bool} {e : Exporter α} {r : Export α} {l : Account α}
    (result : Except (ExportError α) (List FrameRef))
    (h : InOrder cancelled { r with phase := .ended result } l) :
    Proceeds cancelled e r l (finish result e r) := by
  refine ⟨rfl, [], Exporter.spared_endRun r.generation e, ?_⟩
  rw [Account.ask_nil]
  exact h

variable [Elementary α]

theorem composed_proceeds {e : Exporter α} {r : Export α} {l : Account α} (h : Idle r l)
    (hreplies : l.replies = 0) (supported : Bool) (hc : e.isCancelled r.generation = false) :
    Proceeds false e r { l with replies := l.replies + 2 } (composed supported e r) := by
  unfold composed
  cases supported with
  | false =>
      have hidle : Idle { r with phase := .ended (.error (.unsupported r.job.width r.job.height)) }
          { l with replies := l.replies + 2 } := h.congr rfl rfl rfl rfl rfl rfl
      exact finish_proceeds _ (.refused _ hidle rfl (by simp [hreplies]) rfl)
  | true =>
      have hprepared : Prepared false { r with slots := Array.replicate r.total none, index := 0 }
          { l with replies := l.replies + 2 } [] (6 * (r.total - 0) + 2 * r.pending) := by
        refine ⟨⟨?_, ?_, ?_, ?_, ?_⟩, ?_, ?_, ?_⟩
        · simp [h.drawn]
        · simp [h.drawn]
        · simp [h.pending, h.collected, h.asked]
        · rw [h.collected]
          exact filled_replicate r.total
        · simp [h.uploaded, h.collected]
        · exact .of_eq (by simp [h.asked, h.drawn, encodings]) false
        · simp [h.told, h.uploaded, shares]
        · simp only [hreplies, h.pending]
          omega
      have hspared := Exporter.spared_onlyLatest r.generation
        (fun e => { e with frameCount := r.total }) e
        ⟨by simp, rfl, rfl, rfl, rfl, id, .inl rfl, by simp⟩
      have hc' : Exporter.isCancelled (e.onlyLatest r.generation fun e =>
          { e with frameCount := r.total }) r.generation = false := by
        rw [← hc, Exporter.isCancelled, Exporter.isCancelled, hspared.cancelled]
      have hgoes := enterFrame_goes hprepared (by simp [h.drawn]) hc'
      rw [← Account.ask_nil { l with replies := l.replies + 2 }] at hgoes
      exact (hgoes.after hspared rfl rfl).proceeds

theorem resume_finish (result : Except (ExportError α) (List FrameRef)) (reply : Reply α)
    (e : Exporter α) (r : Export α) :
    (finish result e r).2.resume reply (finish result e r).1 = finish result e r := by
  cases reply <;> rfl

/-- The clips are ready. -/
theorem setUp_proceeds {cancelled : Bool} {e : Exporter α} {r : Export α} {l : Account α}
    (h : InOrder cancelled r l) (hp : r.phase = .readying) (a b : ClipFacts α) (supported : Bool)
    (hc : e.isCancelled r.generation = cancelled) :
    Proceeds cancelled e r { l with replies := l.replies + 2 } (r.setUp a b supported e) := by
  obtain ⟨hidle, hreplies⟩ := h.of_readying hp
  have hready : r.resume (.ready a b) e = plan a b e r := by simp only [resume, hp]
  have hidle' : ∀ r' : Export α, r'.pending = r.pending → r'.uploaded = r.uploaded →
      Idle r' { l with replies := l.replies + 2 } :=
    fun r' hpending huploaded => hidle.congr rfl rfl rfl rfl hpending huploaded
  simp only [setUp, hready]
  cases cancelled with
  | true =>
      have hplan : plan a b e r = finish (.ok []) e r := by simp only [plan, hc, if_true]
      rw [hplan, resume_finish]
      exact finish_proceeds _ (.quit (hidle' _ rfl rfl) rfl (by simp [hreplies]) rfl)
  | false =>
      cases hparams : r.job.settings.timelineParams (durationOf a) (durationOf b) r.job.margin with
      | error fault =>
          have hplan : plan a b e r = finish (.error (.timeline fault)) e r := by
            simp [plan, hc, hparams]
          rw [hplan, resume_finish]
          exact finish_proceeds _ (.refused _ (hidle' _ rfl rfl) rfl (by simp [hreplies]) rfl)
      | ok params =>
          have hplan : plan a b e r = awaiting .composing e { r with
              params
              total := Timeline.frameCount r.job.settings.mode params
                (r.job.settings.effectiveFps [a.frameRate, b.frameRate]) } := by
            simp [plan, hc, hparams]
          have hcomposed : ∀ r' : Export α, r'.generation = r.generation → r'.pending = r.pending →
              r'.uploaded = r.uploaded →
              Proceeds false e r { l with replies := l.replies + 2 } (composed supported e r') := by
            intro r' hgeneration hpending huploaded
            have hidle : Idle r' l := hidle.congr rfl rfl rfl rfl hpending huploaded
            have hnext := composed_proceeds hidle hreplies supported (hgeneration ▸ hc)
            unfold Proceeds at hnext ⊢
            rw [hgeneration] at hnext
            exact hnext
          rw [hplan]
          exact hcomposed _ rfl rfl rfl

/-! ## Every reply -/

/-- What the run has done when it has got a reply. -/
def Account.next (r : Export α) (reply : Reply α) (l : Account α) : Account α :=
  { l with
    drawn := match reply with
      | .drawn d => l.drawn ++ [(r.index, d)]
      | _ => l.drawn
    told := match r.phase with
      | .report progress => l.told ++ [progress]
      | _ => l.told
    replies := l.replies + 1 }

/-- A run at work gets a reply that it waits for. -/
theorem resume_goes {cancelled : Bool} {e : Exporter α} {r : Export α} {l : Account α}
    {retry : Retry} {reply : Reply α} (h : Working cancelled r l)
    (hreply : r.awaits retry reply = true) (hcut : retry = .ended .cancelled → cancelled = true)
    (hc : e.isCancelled r.generation = cancelled) :
    Goes cancelled e r (l.next r reply) (r.resume reply e) := by
  unfold awaits at hreply
  split at hreply
  · rename_i clip time outcome hp
    have hnext : l.next r (.sought outcome) = { l with replies := l.replies + 1 } := by
      simp [Account.next, hp]
    simp only [hnext, resume, hp]
    refine sought_goes h hp ?_ hc
    rintro rfl
    exact hcut (of_decide_eq_true hreply)
  · rename_i time shot d hp
    have hnext : l.next r (.drawn d) =
        { l with drawn := l.drawn ++ [(r.index, d)], replies := l.replies + 1 } := by
      simp [Account.next, hp]
    simp only [hnext, resume, hp]
    exact drawn_goes h hp d hc
  · rename_i image hp
    have hnext : l.next r .done = { l with replies := l.replies + 1 } := by
      simp [Account.next, hp]
    simp only [hnext, resume, hp]
    exact encoded_goes h hp hc
  · rename_i progress hp
    have hnext : l.next r .done =
        { l with told := l.told ++ [progress], replies := l.replies + 1 } := by
      simp [Account.next, hp]
    simp only [hnext, resume, hp]
    exact reported_goes h hp hc
  · cases hreply

/-- The run takes the result of an upload. -/
theorem join_goes {cancelled : Bool} {e : Exporter α} {r : Export α} {l : Account α}
    (h : Working cancelled r l) (hj : r.isJoining = true) {u : FinishedUpload}
    (hasked : ∃ frame ∈ l.asked, frame.index = u.index)
    (hnew : ∀ v ∈ l.collected, v.index ≠ u.index) (hc : e.isCancelled r.generation = cancelled) :
    Goes cancelled e r { l with collected := l.collected ++ [u], replies := l.replies + 1 }
      (r.resume (.finished u.index u.ending) e) := by
  have hp := isJoining_iff.mp hj
  obtain ⟨frame, hmem, hindex⟩ := hasked
  have hlt : u.index < r.total := hindex ▸ h.index_lt frame hmem
  simp only [resume, hp]
  exact finished_goes h hp hlt hnew hc

/-- A run is called: it supersedes the run under way and gets the next number and the token, unless
there is nothing to export. -/
structure Called (e : Exporter α) (y : Running α) : Prop where
  waiting : y.1.waiting = e.waiting
  running : y.1.running = e.running
  finished : y.1.finished = e.finished
  cancelled : y.1.cancelled = e.token.toList ++ e.cancelled
  generation : y.1.generation = e.generation + 1
  number : y.2.generation = e.generation + 1
  token : ∀ t, y.1.token = some t → t = e.generation + 1
  held : y.1.token = some (e.generation + 1) → y.2.hasEnded = false
  alive : y.2.hasEnded = false → y.1.token = some (e.generation + 1)
  inOrder : InOrder false y.2 ⟨[], [], [], [], 0⟩

theorem call_called (job : ExportJob α) (a b : Option MediaError) (e : Exporter α) :
    Called e ((make job).resume (.duplicated a b) e) := by
  have hidle : ∀ r : Export α, r.pending = 0 → r.uploaded = 0 → Idle r ⟨[], [], [], [], 0⟩ :=
    fun r hpending huploaded => ⟨rfl, rfl, rfl, rfl, hpending, huploaded⟩
  have hready : Called e (awaiting .readying e.beginRun
      { make job with generation := e.generation + 1, hasA := a.isNone, hasB := b.isNone }) := by
    refine ⟨rfl, rfl, rfl, rfl, rfl, rfl, ?_, fun _ => rfl, fun _ => rfl, ?_⟩
    · intro t ht
      exact (Option.some.inj ht).symm
    · exact .readying (hidle _ rfl rfl) rfl rfl
  cases a with
  | none => exact hready
  | some fault =>
      cases b with
      | none => exact hready
      | some fault' =>
          have hend := Exporter.spared_endRun (e.generation + 1) e.beginRun
          have htoken : (Exporter.endRun (e.generation + 1) e.beginRun).token = none :=
            congrArg Exporter.token (if_pos rfl)
          refine ⟨?_, hend.running, hend.finished, hend.cancelled, hend.generation, rfl, ?_, ?_, ?_,
            ?_⟩
          · exact hend.waiting.trans (List.append_nil _)
          · intro t ht
            cases htoken.symm.trans ht
          · intro ht
            cases htoken.symm.trans ht
          · intro hended
            cases hended
          · exact .refused _ (hidle _ rfl rfl) rfl (Nat.zero_le 2) rfl

end Export

end Segue
