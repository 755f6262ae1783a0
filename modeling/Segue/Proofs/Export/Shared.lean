import Mathlib
import Segue.Proofs.Export.Replies

/-!
# What a run writes

The runs of an exporter share what hosts are shown and the token that the next call cancels. A run
writes these fields when it is called, when it has its compositor, with every stored frame and at
its end. After the call it does so only as long as it is the latest run.
-/

namespace Segue

open Scalar

variable {α : Type}

/-- The frames that a run has returned; one that ended before it came to its uploads has none. -/
def Export.returned (r : Export α) : List FrameRef :=
  match r.phase with
  | .ended (.ok frames) => frames
  | _ => []

theorem Export.returned_of_not_hasEnded {r : Export α} (h : r.hasEnded = false) :
    r.returned = [] := by
  cases hp : r.phase with
  | ended result => simp [hasEnded, hp] at h
  | _ => simp [returned, hp]

namespace Exporter

/-- The fields that all runs of an exporter share. -/
structure Shared (α : Type) where
  exporting : Bool
  progress : α
  frameCount : Nat
  frames : List FrameRef
  token : Option Nat

def shared (e : Exporter α) : Shared α :=
  ⟨e.exporting, e.progress, e.frameCount, e.frames, e.token⟩

theorem onlyLatest_of_eq {run : Nat} {e : Exporter α} (h : e.generation = run)
    (change : Exporter α → Exporter α) : e.onlyLatest run change = change e :=
  if_pos h

theorem onlyLatest_of_ne {run : Nat} {e : Exporter α} (h : e.generation ≠ run)
    (change : Exporter α → Exporter α) : e.onlyLatest run change = e :=
  if_neg h

/-- What shows of a step from `r` to `r'`, if no frames were shown before it. -/
structure Written [Scalar α] (r r' : Export α) (e e' : Exporter α) : Prop where
  generation : e'.generation = e.generation
  stale : e.generation ≠ r.generation → e'.shared = e.shared
  size : r.isReadying = false → r'.slots.size = r.slots.size
  exporting : e.generation = r.generation → e.frames = [] →
    e'.exporting = (e.exporting && !r'.hasEnded)
  frames : e.generation = r.generation → e.frames = [] → e'.frames = r'.returned
  token : e.generation = r.generation → e.frames = [] →
    e'.token = if r'.hasEnded then none else e.token
  progress : e.generation = r.generation → e.frames = [] →
    r'.uploaded = r.uploaded ∧ e'.progress = e.progress ∨
      r'.uploaded = r.uploaded + 1 ∧ e'.progress = ofNat r'.uploaded / ofNat r'.slots.size
  frameCount : e.generation = r.generation → e.frames = [] →
    e.isCancelled r.generation = true ∨ r.isReadying = false → e'.frameCount = e.frameCount

end Exporter

namespace Export

/-! ## To the next wait -/

/-- The run goes on to `y`, and all that shows is that it may have ended. -/
structure Passes (e : Exporter α) (r : Export α) (y : Running α) : Prop where
  uploaded : y.2.uploaded = r.uploaded
  size : y.2.slots.size = r.slots.size
  generation : y.1.generation = e.generation
  stale : e.generation ≠ r.generation → y.1.shared = e.shared
  latest : e.generation = r.generation → e.frames = [] → y.1.shared = { e.shared with
    exporting := e.exporting && !y.2.hasEnded
    frames := y.2.returned
    token := if y.2.hasEnded then none else e.token }

/-- Something changed before, on either side, that does not show. -/
theorem Passes.after {e d : Exporter α} {r q : Export α} {y : Running α} (h : Passes d q y)
    (hd : d.generation = e.generation) (hshared : d.shared = e.shared)
    (hq : q.generation = r.generation) (huploaded : q.uploaded = r.uploaded)
    (hsize : q.slots.size = r.slots.size) : Passes e r y := by
  have hexporting : d.exporting = e.exporting := congrArg Exporter.Shared.exporting hshared
  have hframes : d.frames = e.frames := congrArg Exporter.Shared.frames hshared
  have htoken : d.token = e.token := congrArg Exporter.Shared.token hshared
  refine ⟨h.uploaded.trans huploaded, h.size.trans hsize, h.generation.trans hd, ?_, ?_⟩
  · intro hrun
    rw [← hd, ← hq] at hrun
    exact (h.stale hrun).trans hshared
  · intro hrun hempty
    rw [← hd, ← hq] at hrun
    rw [h.latest hrun (hframes.trans hempty), hshared, hexporting, htoken]

theorem awaiting_passes (phase : Phase α) (e : Exporter α) (r : Export α)
    (hended : ({ r with phase } : Export α).hasEnded = false) :
    Passes e r (awaiting phase e r) := by
  refine ⟨rfl, rfl, rfl, fun _ => rfl, ?_⟩
  intro _ hempty
  change e.shared = { e.shared with
    exporting := e.exporting && !({ r with phase } : Export α).hasEnded
    frames := ({ r with phase } : Export α).returned
    token := if ({ r with phase } : Export α).hasEnded then none else e.token }
  rw [returned_of_not_hasEnded hended, hended, ← hempty]
  simp [Exporter.shared]

/-- The run ends, and what it returns is shown already. -/
theorem finish_passes {e d : Exporter α} {r : Export α}
    {result : Except (ExportError α) (List FrameRef)} (hd : d.generation = e.generation)
    (hstale : e.generation ≠ r.generation → d = e)
    (hlatest : e.generation = r.generation → e.frames = [] → d.shared = { e.shared with
      frames := ({ r with phase := .ended result } : Export α).returned }) :
    Passes e r (finish result d r) := by
  by_cases hrun : e.generation = r.generation
  · have hend : (finish result d r).1 = { d with exporting := false, token := none } := by
      simp only [finish, Exporter.endRun]
      exact Exporter.onlyLatest_of_eq (hd.trans hrun) _
    refine ⟨rfl, rfl, ?_, fun hne => absurd hrun hne, ?_⟩
    · rw [hend]
      exact hd
    · intro _ hempty
      have hshared := hlatest hrun hempty
      simp only [Exporter.shared, Exporter.Shared.mk.injEq] at hshared
      obtain ⟨-, hprogress, hcount, hframes, -⟩ := hshared
      rw [hend]
      simp [Exporter.shared, finish, hasEnded, hprogress, hcount, hframes]
  · have hend : (finish result d r).1 = d := by
      simp only [finish, Exporter.endRun]
      exact Exporter.onlyLatest_of_ne (fun hrun' => hrun (hd.symm.trans hrun')) _
    refine ⟨rfl, rfl, ?_, ?_, fun hrun' => absurd hrun' hrun⟩
    · rw [hend]
      exact hd
    · intro _
      rw [hend, hstale hrun]

/-- A run that ends before it has come to its uploads returns nothing. -/
theorem quit_passes (result : Except (ExportError α) (List FrameRef)) (e : Exporter α)
    (r : Export α)
    (hnone : ({ r with phase := .ended result } : Export α).returned = []) :
    Passes e r (finish result e r) := by
  refine finish_passes rfl (fun _ => rfl) ?_
  intro _ hempty
  rw [hnone, ← hempty]
  rfl

theorem drain_passes (e : Exporter α) (r : Export α) : Passes e r (drain e r) := by
  unfold drain
  split
  · refine finish_passes ?_ ?_ ?_
    · unfold Exporter.onlyLatest
      split <;> rfl
    · intro hrun
      exact Exporter.onlyLatest_of_ne hrun _
    · intro hrun _
      rw [Exporter.onlyLatest_of_eq hrun]
      rfl
  · exact (awaiting_passes .joining e { r with next := none } rfl).after rfl rfl rfl
      rfl rfl

variable [Scalar α] [Elementary α]

theorem draw_passes (e : Exporter α) (r : Export α) : Passes e r (draw e r) :=
  awaiting_passes _ e r rfl

theorem seekB_passes (e : Exporter α) (r : Export α) : Passes e r (seekB e r) := by
  unfold seekB
  split
  · exact awaiting_passes _ e r rfl
  · exact draw_passes e r

theorem enterFrame_passes (e : Exporter α) (r : Export α) : Passes e r (enterFrame e r) := by
  unfold enterFrame
  split
  · exact drain_passes e r
  · split
    · exact awaiting_passes _ e r rfl
    · exact seekB_passes e r

theorem nextFrame_passes (e : Exporter α) (r : Export α) : Passes e r (nextFrame e r) :=
  (enterFrame_passes e { r with index := r.index + 1 }).after rfl rfl rfl rfl rfl

theorem makeRoom_passes (frame : EncodedFrame) (e : Exporter α) (r : Export α) :
    Passes e r (makeRoom frame e r) := by
  unfold makeRoom
  split
  · exact (awaiting_passes .joining e { r with next := some frame } rfl).after rfl rfl
      rfl rfl rfl
  · exact (nextFrame_passes (e.requestUpload r.generation frame)
      { r with next := none, pending := r.pending + 1 }).after rfl rfl rfl rfl rfl

theorem afterJoin_passes (e : Exporter α) (r : Export α) : Passes e r (afterJoin e r) := by
  unfold afterJoin
  split
  · exact makeRoom_passes _ e r
  · exact drain_passes e r

/-! ## Every step -/

omit [Elementary α] in
theorem Passes.written {e : Exporter α} {r : Export α} {y : Running α} (h : Passes e r y) :
    Exporter.Written r y.2 e y.1 where
  generation := h.generation
  stale := h.stale
  size _ := h.size
  exporting hrun hempty := congrArg Exporter.Shared.exporting (h.latest hrun hempty)
  frames hrun hempty := congrArg Exporter.Shared.frames (h.latest hrun hempty)
  token hrun hempty := congrArg Exporter.Shared.token (h.latest hrun hempty)
  progress hrun hempty :=
    .inl ⟨h.uploaded, congrArg Exporter.Shared.progress (h.latest hrun hempty)⟩
  frameCount hrun hempty _ := congrArg Exporter.Shared.frameCount (h.latest hrun hempty)

/-- The run takes the result of an upload. -/
theorem finished_written (index : Nat) (ending : UploadEnd) (e : Exporter α) (r : Export α) :
    Exporter.Written r (finished index ending e r).2 e (finished index ending e r).1 := by
  have hnothing : Passes e r (afterJoin e { r with pending := r.pending - 1 }) :=
    (afterJoin_passes e { r with pending := r.pending - 1 }).after rfl rfl rfl rfl rfl
  cases ending with
  | failed _ => exact hnothing.written
  | skipped => exact hnothing.written
  | lost => exact hnothing.written
  | stored frame =>
      have hsize : (r.slots.setIfInBounds index (some frame)).size = r.slots.size :=
        Array.size_setIfInBounds
      by_cases hrun : e.generation = r.generation
      · have hstep : (finished index (.stored frame) e r).1 =
            { e with progress := ofNat (r.uploaded + 1) / ofNat r.slots.size } := by
          simp only [finished, record, awaiting]
          exact Exporter.onlyLatest_of_eq hrun _
        rw [hstep]
        refine ⟨rfl, fun hne => absurd hrun hne, fun _ => hsize, ?_, ?_, fun _ _ => rfl, ?_,
          fun _ _ _ => rfl⟩
        · intro _ _
          exact (Bool.and_true e.exporting).symm
        · intro _ hempty
          exact hempty
        · intro _ _
          refine .inr ⟨rfl, ?_⟩
          change _ = ofNat (r.uploaded + 1) / ofNat (r.slots.setIfInBounds index (some frame)).size
          rw [hsize]
      · have hstep : (finished index (.stored frame) e r).1 = e := by
          simp only [finished, record, awaiting]
          exact Exporter.onlyLatest_of_ne hrun _
        rw [hstep]
        exact ⟨rfl, fun _ => rfl, fun _ => hsize, fun h => absurd h hrun, fun h => absurd h hrun,
          fun h => absurd h hrun, fun h => absurd h hrun, fun h => absurd h hrun⟩

theorem resume_written {retry : Retry} {r : Export α} {reply : Reply α}
    (h : r.awaits retry reply = true) (e : Exporter α) :
    Exporter.Written r (r.resume reply e).2 e (r.resume reply e).1 := by
  refine Passes.written ?_
  unfold awaits at h
  split at h
  · rename_i clip time outcome hp
    simp only [resume, hp]
    unfold sought
    split
    · exact drain_passes e r
    · cases clip with
      | a => exact seekB_passes e r
      | b => exact draw_passes e r
  · rename_i time shot d hp
    simp only [resume, hp]
    cases d with
    | skipped => exact nextFrame_passes e r
    | unreadable => exact nextFrame_passes e r
    | picture image => exact awaiting_passes _ e r rfl
  · rename_i image hp
    simp only [resume, hp]
    unfold encoded
    split
    · exact nextFrame_passes e r
    · split
      · exact drain_passes e r
      · exact makeRoom_passes _ e r
  · rename_i progress hp
    simp only [resume, hp]
    exact afterJoin_passes e r
  · cases h

/-- When the clips are ready, a run ends or goes on with a compositor; a cancelled one ends. -/
theorem setUp_cases {r : Export α} (hp : r.phase = .readying) (a b : ClipFacts α)
    (supported : Bool) (e : Exporter α) :
    (∃ result, ({ r with phase := .ended result } : Export α).returned = [] ∧
      r.setUp a b supported e = finish result e r) ∨
    (e.isCancelled r.generation = false ∧ ∃ (params : Timeline.Params α) (total : Nat),
      r.setUp a b supported e =
        composed supported e { r with params, total, phase := .composing }) := by
  have hready : r.resume (.ready a b) e = plan a b e r := by simp only [resume, hp]
  simp only [setUp, hready]
  cases hc : e.isCancelled r.generation with
  | true =>
      have hplan : plan a b e r = finish (.ok []) e r := by simp only [plan, hc, if_true]
      rw [hplan, resume_finish]
      exact .inl ⟨_, rfl, rfl⟩
  | false =>
      cases hparams : r.job.settings.timelineParams (durationOf a) (durationOf b) r.job.margin with
      | error fault =>
          have hplan : plan a b e r = finish (.error (.timeline fault)) e r := by
            simp [plan, hc, hparams]
          rw [hplan, resume_finish]
          exact .inl ⟨_, rfl, rfl⟩
      | ok params =>
          refine .inr ⟨rfl, params, Timeline.frameCount r.job.settings.mode params
            (r.job.settings.effectiveFps [a.frameRate, b.frameRate]), ?_⟩
          simp [plan, hc, hparams, awaiting, resume]

omit [Elementary α] in
/-- The run shows how many frames it has, and goes on. -/
theorem Passes.written_of_count {e : Exporter α} {r q : Export α} {y : Running α} {total : Nat}
    (h : Passes (e.onlyLatest r.generation fun e => { e with frameCount := total }) q y)
    (hgeneration : q.generation = r.generation) (huploaded : q.uploaded = r.uploaded)
    (hp : r.phase = .readying) (hc : e.isCancelled r.generation = false) :
    Exporter.Written r y.2 e y.1 := by
  have hsize : r.isReadying = false → y.2.slots.size = r.slots.size := by
    intro hnot
    cases (isReadying_iff.mpr hp).symm.trans hnot
  by_cases hrun : e.generation = r.generation
  · rw [Exporter.onlyLatest_of_eq hrun] at h
    have hlatest := h.latest (hrun.trans hgeneration.symm)
    refine ⟨h.generation, fun hne => absurd hrun hne, hsize, ?_, ?_, ?_, ?_, ?_⟩
    · exact fun _ hempty => congrArg Exporter.Shared.exporting (hlatest hempty)
    · exact fun _ hempty => congrArg Exporter.Shared.frames (hlatest hempty)
    · exact fun _ hempty => congrArg Exporter.Shared.token (hlatest hempty)
    · intro _ hempty
      exact .inl ⟨h.uploaded.trans huploaded,
        congrArg Exporter.Shared.progress (hlatest hempty)⟩
    · rintro _ _ (hcut | hnot)
      · cases hc.symm.trans hcut
      · cases (isReadying_iff.mpr hp).symm.trans hnot
  · rw [Exporter.onlyLatest_of_ne hrun] at h
    exact ⟨h.generation, fun _ => h.stale (hgeneration ▸ hrun), hsize, fun h => absurd h hrun,
      fun h => absurd h hrun, fun h => absurd h hrun, fun h => absurd h hrun, fun h => absurd h hrun⟩

theorem setUp_written {r : Export α} (hp : r.phase = .readying) (a b : ClipFacts α)
    (supported : Bool) (e : Exporter α) :
    Exporter.Written r (r.setUp a b supported e).2 e (r.setUp a b supported e).1 := by
  rcases setUp_cases hp a b supported e with ⟨result, hnone, heq⟩ | ⟨hc, params, total, heq⟩
  · rw [heq]
    exact (quit_passes result e r hnone).written
  · rw [heq]
    cases supported with
    | false =>
        have hquit := quit_passes (.error (.unsupported r.job.width r.job.height)) e
          { r with params, total, phase := .composing } rfl
        exact (hquit.after (r := r) rfl rfl rfl rfl rfl).written
    | true =>
        have hpasses := enterFrame_passes
          (e.onlyLatest r.generation fun e => { e with frameCount := total })
          { r with
            params, total, slots := Array.replicate total none, index := 0, phase := .composing }
        exact hpasses.written_of_count rfl rfl hp hc

end Export

end Segue
