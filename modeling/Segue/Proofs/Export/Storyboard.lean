import Mathlib
import Segue.Proofs.Export.Later

/-!
# The storyboard of a run

What a run does to its clips and its compositor is laid down when it has been planned: frame after
frame it seeks both clips and draws. At every wait the run has done a first part of this and has the
rest to do, however its seeks and uploads end and whatever other runs do in between. Only a
cancellation makes it leave something out, and then all that is left.
-/

namespace Segue

open Scalar

variable {α : Type}

namespace Export

/-- What a run does outside. -/
inductive Deed (α : Type) where
  /-- A clip is sought, with as many attempts as it takes (`Export.await`). -/
  | seek (clip : Clip) (time : α)
  /-- The time is pinned and a picture is drawn (`Export.picture`). -/
  | draw (time : α) (shot : Shot α)

/-- What the run does while it waits, with the index of the frame. -/
def deeds (r : Export α) : List (Nat × Deed α) :=
  match r.phase with
  | .seeking clip time => [(r.index, .seek clip time)]
  | .drawing time shot => [(r.index, .draw time shot)]
  | _ => []

/-- Of the deeds that were to come some were done and some are left. -/
structure Follows (cancelled : Bool) (whole done left : List (Nat × Deed α)) : Prop where
  isPrefix : done ++ left <+: whole
  all : cancelled = false → done ++ left = whole

namespace Follows

variable {cancelled cancelled' : Bool} {whole done done' left left' : List (Nat × Deed α)}

theorem of_eq (cancelled : Bool) (h : done ++ left = whole) : Follows cancelled whole done left :=
  ⟨h ▸ List.prefix_refl _, fun _ => h⟩

theorem of_cancelled (whole : List (Nat × Deed α)) : Follows true whole [] [] :=
  ⟨List.nil_prefix, fun h => by cases h⟩

theorem mono (h : Follows cancelled whole done left)
    (hmono : cancelled = true → cancelled' = true) : Follows cancelled' whole done left where
  isPrefix := h.isPrefix
  all hc := by
    refine h.all ?_
    rw [← Bool.not_eq_true]
    intro hcut
    cases hc.symm.trans (hmono hcut)

theorem trans (h : Follows cancelled whole done left) (h' : Follows cancelled' left done' left')
    (hmono : cancelled = true → cancelled' = true) :
    Follows cancelled' whole (done ++ done') left' where
  isPrefix := by
    rw [List.append_assoc]
    exact ((List.prefix_append_right_inj done).mpr h'.isPrefix).trans h.isPrefix
  all hc := by
    rw [List.append_assoc, h'.all hc]
    exact (h.mono hmono).all hc

end Follows

variable [Scalar α] [Elementary α]

/-! ## What a planned run has to do -/

def sampleAt (r : Export α) (i : Nat) : Timeline.Sample α :=
  ({ r with index := i } : Export α).sample

def seekingAt (r : Export α) (i : Nat) : Clip → Deed α
  | .a => .seek .a (clampSeekTime (r.sampleAt i).timeA r.params.durationA 0.0)
  | .b => .seek .b (clampSeekTime (r.sampleAt i).timeB r.params.durationB 0.0)

def drawingAt (r : Export α) (i : Nat) : Deed α :=
  .draw (single (r.sampleAt i).time) (shot r.job (r.sampleAt i))

def frameFromB (r : Export α) (i : Nat) : List (Nat × Deed α) :=
  (if r.hasB then [(i, r.seekingAt i .b)] else []) ++ [(i, r.drawingAt i)]

/-- The deeds at a frame. A clip that could not be duplicated is not sought. -/
def frame (r : Export α) (i : Nat) : List (Nat × Deed α) :=
  (if r.hasA then [(i, r.seekingAt i .a)] else []) ++ r.frameFromB i

def framesFrom (r : Export α) (i : Nat) : List (Nat × Deed α) :=
  (List.range' i (r.total - i)).flatMap r.frame

/-- The deeds after those of the present wait. -/
def todo (r : Export α) : List (Nat × Deed α) :=
  match r.phase with
  | .seeking .a _ => r.frameFromB r.index ++ r.framesFrom (r.index + 1)
  | .seeking .b _ => (r.index, r.drawingAt r.index) :: r.framesFrom (r.index + 1)
  | .drawing _ _ | .encoding _ => r.framesFrom (r.index + 1)
  | .joining | .report _ =>
    match r.next with
    | some _ => r.framesFrom (r.index + 1)
    | none => []
  | .called | .readying | .composing | .ended _ => []

def script (r : Export α) : List (Nat × Deed α) := r.deeds ++ r.todo

theorem script_of_hasEnded {r : Export α} (h : r.hasEnded = true) : r.script = [] := by
  cases hp : r.phase <;> simp [hasEnded, hp] at h
  simp only [script, deeds, todo, hp, List.append_nil]

theorem framesFrom_of_le {r : Export α} {i : Nat} (h : r.total ≤ i) : r.framesFrom i = [] := by
  rw [framesFrom, Nat.sub_eq_zero_of_le h]
  rfl

theorem framesFrom_of_lt {r : Export α} {i : Nat} (h : i < r.total) :
    r.framesFrom i = r.frame i ++ r.framesFrom (i + 1) := by
  have hcount : r.total - i = r.total - (i + 1) + 1 := by omega
  rw [framesFrom, hcount, List.range'_succ, List.flatMap_cons]
  rfl

/-! ## One function after the other -/

/-- The run has come from `whole` to `y` with nothing done. -/
def Keeps (whole : List (Nat × Deed α)) (e : Exporter α) (r : Export α) (y : Running α) : Prop :=
  Follows (e.isCancelled r.generation) whole [] y.2.script

@[simp] theorem drain_script (e : Exporter α) (r : Export α) : (drain e r).2.script = [] := by
  unfold drain
  split
  · rfl
  · rfl

@[simp] theorem draw_script (e : Exporter α) (r : Export α) :
    (draw e r).2.script = (r.index, r.drawingAt r.index) :: r.framesFrom (r.index + 1) := rfl

@[simp] theorem seekB_script (e : Exporter α) (r : Export α) :
    (seekB e r).2.script = r.frameFromB r.index ++ r.framesFrom (r.index + 1) := by
  unfold seekB
  split
  · rename_i hB
    rw [frameFromB, if_pos hB]
    rfl
  · rename_i hB
    rw [draw_script, frameFromB, if_neg hB]
    rfl

theorem enterFrame_keeps (e : Exporter α) (r : Export α) :
    Keeps (r.framesFrom r.index) e r (enterFrame e r) := by
  unfold Keeps enterFrame
  split
  · rename_i hstop
    -- all frames are done, or a cancelled run gives the rest of them up
    rw [drain_script]
    rcases Bool.or_eq_true_iff.mp hstop with hlast | hcut
    · rw [framesFrom_of_le (of_decide_eq_true hlast)]
      exact .of_eq _ rfl
    · rw [hcut]
      exact .of_cancelled _
  · rename_i hgo
    have hlt : r.index < r.total := by
      simp only [Bool.or_eq_true, decide_eq_true_eq, not_or] at hgo
      omega
    rw [framesFrom_of_lt hlt]
    split
    · rename_i hA
      rw [frame, if_pos hA]
      exact .of_eq _ rfl
    · rename_i hA
      rw [seekB_script, frame, if_neg hA]
      exact .of_eq _ rfl

@[simp]
theorem enterFrame_total (e : Exporter α) (r : Export α) : (enterFrame e r).2.total = r.total := by
  unfold enterFrame
  split
  · unfold drain
    split
    · rfl
    · rfl
  · split
    · rfl
    · unfold seekB
      split
      · rfl
      · rfl

theorem nextFrame_keeps (e : Exporter α) (r : Export α) :
    Keeps (r.framesFrom (r.index + 1)) e r (nextFrame e r) :=
  enterFrame_keeps e { r with index := r.index + 1 }

theorem makeRoom_keeps (frame : EncodedFrame) (e : Exporter α) (r : Export α) :
    Keeps (r.framesFrom (r.index + 1)) e r (makeRoom frame e r) := by
  unfold makeRoom
  split
  · exact .of_eq _ rfl
  · exact nextFrame_keeps (e.requestUpload r.generation frame)
      { r with next := none, pending := r.pending + 1 }

theorem afterJoin_keeps {e : Exporter α} {r : Export α}
    (hp : r.isJoining = true ∨ ∃ x, r.phase = .report x) :
    Keeps r.todo e r (afterJoin e r) := by
  have htodo : r.todo = match r.next with
      | some _ => r.framesFrom (r.index + 1)
      | none => [] := by
    rcases hp with hp | ⟨x, hp⟩
    · simp only [todo, isJoining_iff.mp hp]
    · simp only [todo, hp]
  rw [htodo]
  unfold afterJoin
  cases r.next with
  | some frame => exact makeRoom_keeps frame e r
  | none =>
      unfold Keeps
      rw [drain_script]
      exact .of_eq _ rfl

theorem sought_keeps {e : Exporter α} {r : Export α} {clip : Clip} {time : α}
    {outcome : SeekOutcome} (hp : r.phase = .seeking clip time)
    (hcut : outcome = .cancelled → e.isCancelled r.generation = true) :
    Keeps r.todo e r (sought clip outcome e r) := by
  unfold Keeps sought
  split
  · rename_i hstop
    have hc : e.isCancelled r.generation = true := by
      rcases Bool.or_eq_true_iff.mp hstop with hc | ho
      · exact hc
      · exact hcut (of_decide_eq_true ho)
    rw [drain_script, hc]
    exact .of_cancelled _
  · cases clip with
    | a =>
        simp only [todo, hp, seekB_script]
        exact .of_eq _ rfl
    | b =>
        simp only [todo, hp, draw_script]
        exact .of_eq _ rfl

theorem drawn_keeps {e : Exporter α} {r : Export α} {time : α} {shot : Shot α}
    (hp : r.phase = .drawing time shot) (d : Drawn) : Keeps r.todo e r (drawn d e r) := by
  have htodo : r.todo = r.framesFrom (r.index + 1) := by simp only [todo, hp]
  rw [htodo]
  cases d with
  | skipped => exact nextFrame_keeps e r
  | unreadable => exact nextFrame_keeps e r
  | picture image => exact .of_eq _ rfl

theorem encoded_keeps {e : Exporter α} {r : Export α} {image : Image}
    (hp : r.phase = .encoding image) : Keeps r.todo e r (encoded image e r) := by
  have htodo : r.todo = r.framesFrom (r.index + 1) := by simp only [todo, hp]
  rw [htodo]
  unfold encoded
  split
  · exact nextFrame_keeps e r
  · split
    · rename_i hc
      unfold Keeps
      rw [drain_script, hc]
      exact .of_cancelled _
    · exact makeRoom_keeps _ e r

/-- The result of an upload changes nothing in what is to be done. -/
theorem finished_keeps {e : Exporter α} {r : Export α} (hj : r.isJoining = true) (index : Nat)
    (ending : UploadEnd) : Keeps r.todo e r (finished index ending e r) := by
  have hp := isJoining_iff.mp hj
  have hjoined : Keeps r.todo e r (afterJoin e { r with pending := r.pending - 1 }) :=
    afterJoin_keeps (r := { r with pending := r.pending - 1 }) (.inl hj)
  cases ending with
  | stored frame =>
      refine .of_eq _ ?_
      simp only [finished, record, awaiting, script, deeds, todo, hp]
      rfl
  | failed fault => exact hjoined
  | skipped => exact hjoined
  | lost => exact hjoined

/-! ## Replies -/

/-- Whatever the run is told, it has done what it was doing and goes on with the rest. -/
theorem resume_follows {e : Exporter α} {r : Export α} {retry : Retry} {reply : Reply α}
    (hreply : r.awaits retry reply = true)
    (hcut : retry = .ended .cancelled → e.isCancelled r.generation = true) :
    Follows (e.isCancelled r.generation) r.script r.deeds (r.resume reply e).2.script := by
  have hkeeps : Keeps r.todo e r (r.resume reply e) := by
    unfold awaits at hreply
    split at hreply
    · rename_i clip time outcome hp
      simp only [resume, hp]
      refine sought_keeps hp ?_
      rintro rfl
      exact hcut (of_decide_eq_true hreply)
    · rename_i time shot d hp
      simp only [resume, hp]
      exact drawn_keeps hp d
    · rename_i image hp
      simp only [resume, hp]
      exact encoded_keeps hp
    · rename_i progress hp
      simp only [resume, hp]
      exact afterJoin_keeps (.inr ⟨progress, hp⟩)
    · cases hreply
  have hnow : Follows (e.isCancelled r.generation) r.script r.deeds r.todo := .of_eq _ rfl
  have hnext := hnow.trans hkeeps id
  rwa [List.append_nil] at hnext

theorem join_follows {e : Exporter α} {r : Export α} (hj : r.isJoining = true) (index : Nat)
    (ending : UploadEnd) : Follows (e.isCancelled r.generation) r.script []
      (r.resume (.finished index ending) e).2.script := by
  have hp := isJoining_iff.mp hj
  have hscript : r.script = r.todo := by simp only [script, deeds, hp, List.nil_append]
  rw [hscript]
  simp only [resume, hp]
  exact finished_keeps hj index ending

/-- A run whose clips are ready has all its frames before it. -/
theorem setUp_follows {e : Exporter α} {r : Export α} (hp : r.phase = .readying)
    {a b : ClipFacts α} {params : Timeline.Params α}
    (hparams : r.job.settings.timelineParams (durationOf a) (durationOf b) r.job.margin =
      .ok params) :
    let total := Timeline.frameCount r.mode params
      (r.job.settings.effectiveFps [a.frameRate, b.frameRate])
    (e.isCancelled r.generation = false → (r.setUp a b true e).2.total = total) ∧
      Keeps (({ r with params, total } : Export α).framesFrom 0) e r (r.setUp a b true e) := by
  intro total
  have hready : r.resume (.ready a b) e = plan a b e r := by simp only [resume, hp]
  simp only [setUp, hready]
  cases hc : e.isCancelled r.generation with
  | true =>
      have hplan : plan a b e r = finish (.ok []) e r := by simp only [plan, hc, if_true]
      rw [hplan, resume_finish]
      constructor
      · intro hnot
        cases hnot
      · unfold Keeps
        rw [hc]
        exact .of_cancelled _
  | false =>
      have hplan : plan a b e r = awaiting .composing e { r with params, total } := by
        simp only [plan, hc, hparams]
        rfl
      rw [hplan]
      -- the compositor is made at once, and the run enters its first frame
      let e' := e.onlyLatest r.generation fun e => { e with frameCount := total }
      let r' : Export α := { r with
        params, total, phase := .composing, slots := Array.replicate total none, index := 0 }
      have hgo : (awaiting .composing e { r with params, total }).2.resume (.composed true)
          (awaiting .composing e { r with params, total }).1 = enterFrame e' r' := rfl
      have hspared := Exporter.spared_onlyLatest r.generation
        (fun e => { e with frameCount := total }) e
        ⟨by simp, rfl, rfl, rfl, rfl, id, .inl rfl, by simp⟩
      have hkeeps := enterFrame_keeps e' r'
      rw [hgo]
      refine ⟨fun _ => enterFrame_total e' r', ?_⟩
      unfold Keeps at hkeeps ⊢
      rw [hspared.isCancelled_eq] at hkeeps
      exact hkeeps

end Export

end Segue
