import Mathlib
import Segue.Command.Picture
import Segue.Export.Perform
import Segue.Proofs.Clock
import Segue.Proofs.Export.Complete
import Segue.Proofs.Export.Storyboard
import Segue.Proofs.Preview
import Segue.Proofs.Seekable

/-!
# Previews and exports in step

At the position of each of its frames an export seeks the clips to the very times to which a preview
of the same settings seeks them, and draws the very shot that the preview draws. The time that its
shaders see is the one that the preview gives for the position, as it is for a single picture.
-/

namespace Segue

open Scalar

variable {α : Type} [Scalar α] [Elementary α]

/-! ## The deeds of a run in a session -/

namespace Export

/-- A planned run has come from `r` to `r'`. -/
structure Onward (cancelled : Bool) (r : Export α) (done : List (Nat × Deed α)) (r' : Export α) :
    Prop where
  readying : r'.isReadying = false
  total : r'.total = r.total
  follows : Follows cancelled r.script done r'.script

theorem Onward.refl (cancelled : Bool) {r : Export α} (h : r.isReadying = false) :
    Onward cancelled r [] r :=
  ⟨h, rfl, .of_eq cancelled rfl⟩

theorem Onward.trans {cancelled cancelled' : Bool} {r r' r'' : Export α}
    {done done' : List (Nat × Deed α)} (h : Onward cancelled r done r')
    (h' : Onward cancelled' r' done' r'') (hmono : cancelled = true → cancelled' = true) :
    Onward cancelled' r (done ++ done') r'' :=
  ⟨h'.readying, h'.total.trans h.total, h.follows.trans h'.follows hmono⟩

end Export

namespace Exporter

def Event.addressee? : Event α → Option Nat
  | .prepare k _ _ _ | .resume k _ | .seek k _ | .join k => some k
  | .call _ _ _ | .start _ _ _ | .tick _ | .abort | .clear => none

namespace Session

open Export

/-- What the run at place `k` has done when it gets a reply in a step. -/
def deedsIn (s : Session α) (k : Nat) : Event α → List (Nat × Deed α)
  | .resume j reply =>
    if j = k then
      match s.runs[k]? with
      | some x => if x.run.awaits x.retry reply then x.run.deeds else []
      | none => []
    else []
  | _ => []

def deeds (k : Nat) : Session α → List (Event α) → List (Nat × Deed α)
  | _, [] => []
  | s, e :: events => s.deedsIn k e ++ deeds k (s.step e) events

/-- A run stays as it is at an event that is not for it. -/
theorem Taken.runs_of_ne {s s' : Session α} {k : Nat} {e : Event α} (ht : Taken s e s')
    (hlt : k < s.runs.length) (he : e.addressee? ≠ some k) : s'.runs[k]? = s.runs[k]? := by
  have hset : ∀ {j : Nat} {y : ExportCall α}, some j ≠ some k →
      (s.runs.set j y)[k]? = s.runs[k]? :=
    fun hj => List.getElem?_set_ne (fun hjk => hj (congrArg some hjk))
  cases ht with
  | call job a b => exact List.getElem?_append_left hlt
  | prepare | resume | seek | join => exact hset he
  | idle | skip | begin | tick | abort | clear => rfl

theorem runs_step_of_ne {s : Session α} {k : Nat} {e : Event α} (hlt : k < s.runs.length)
    (he : e.addressee? ≠ some k) : (s.step e).runs[k]? = s.runs[k]? :=
  (s.taken e).runs_of_ne hlt he

omit [Scalar α] [Elementary α] in
theorem deedsIn_of_ne {s : Session α} {k : Nat} {e : Event α} (he : e.addressee? ≠ some k) :
    s.deedsIn k e = [] := by
  cases e with
  | resume j reply => exact if_neg fun hjk => he (congrArg some hjk)
  | _ => rfl

section Steps

variable {s : Session α} {k : Nat} {x : ExportCall α}

theorem Sound.onward_resume (h : s.Sound) (hk : s.runs[k]? = some x) {reply : Reply α}
    (hreply : x.run.awaits x.retry reply = true) :
    Onward (s.exporter.isCancelled (k + 1)) x.run x.run.deeds
      (x.resume reply s.exporter).2.run := by
  have hx := h.each k x hk
  obtain ⟨-, htotal, frames, -, hafter⟩ := h.resume_goes hk hreply
  refine ⟨isReadying_of_isPreparing hafter.prepared, htotal, ?_⟩
  have hfollows := resume_follows (e := s.exporter) hreply (hx.number ▸ hx.cut)
  rw [hx.number] at hfollows
  exact hfollows

theorem Sound.onward_join (h : s.Sound) (hk : s.runs[k]? = some x)
    (hj : x.run.isJoining = true) {u : FinishedUpload} {left : List FinishedUpload}
    (hleft : takeFirst? (k + 1) s.exporter.finished = some (u, left)) :
    Onward (s.exporter.isCancelled (k + 1)) x.run []
      (x.resume (.finished u.index u.ending) { s.exporter with finished := left }).2.run := by
  obtain ⟨-, htotal, frames, -, hafter⟩ := h.join_goes hk hj hleft
  refine ⟨isReadying_of_isPreparing hafter.prepared, htotal, ?_⟩
  have hfollows := join_follows (e := { s.exporter with finished := left }) hj u.index u.ending
  rw [(h.each k x hk).number] at hfollows
  exact hfollows

/-- A step of the session takes the run on by what it has done in the step. -/
theorem Sound.onward_step (h : s.Sound) (hk : s.runs[k]? = some x)
    (hready : x.run.isReadying = false) (e : Event α) :
    ∃ x', (s.step e).runs[k]? = some x' ∧
      Onward (s.exporter.isCancelled (k + 1)) x.run (s.deedsIn k e) x'.run := by
  have hlt : k < s.runs.length := (List.getElem?_eq_some_iff.mp hk).1
  have hstay := Onward.refl (s.exporter.isCancelled (k + 1)) hready
  by_cases he : e.addressee? = some k
  · cases e with
    | prepare j a b supported =>
        obtain rfl : j = k := Option.some.inj he
        refine ⟨x, ?_, hstay⟩
        simp only [Session.step, hk, hready, Bool.false_eq_true, if_false]
    | resume j reply =>
        obtain rfl : j = k := Option.some.inj he
        simp only [Session.step, deedsIn, hk, if_true]
        split
        · rename_i hreply
          exact ⟨_, List.getElem?_set_self hlt, h.onward_resume hk hreply⟩
        · exact ⟨x, hk, hstay⟩
    -- an attempt or a rest of a seek leaves the run at its wait
    | seek j outcome =>
        obtain rfl : j = k := Option.some.inj he
        simp only [Session.step, deedsIn, hk]
        split
        · refine ⟨_, List.getElem?_set_self hlt, ?_⟩
          rw [run_seek]
          exact hstay
        · exact ⟨x, hk, hstay⟩
    | join j =>
        obtain rfl : j = k := Option.some.inj he
        simp only [Session.step, deedsIn, hk]
        split
        · rename_i hj
          rw [(h.each j x hk).number]
          unfold takeFinished?
          cases hleft : takeFirst? (j + 1) s.exporter.finished with
          | none => exact ⟨x, hk, hstay⟩
          | some taken => exact ⟨_, List.getElem?_set_self hlt, h.onward_join hk hj hleft⟩
        · exact ⟨x, hk, hstay⟩
    | call job a b => cases he
    | start j due ending => cases he
    | tick millis => cases he
    | abort => cases he
    | clear => cases he
  · rw [deedsIn_of_ne he, runs_step_of_ne hlt he]
    exact ⟨x, hk, hstay⟩

theorem Sound.onward_run (h : s.Sound) (hk : s.runs[k]? = some x)
    (hready : x.run.isReadying = false) (events : List (Event α)) :
    ∃ x', (s.run events).runs[k]? = some x' ∧
      Onward ((s.run events).exporter.isCancelled (k + 1)) x.run (deeds k s events) x'.run := by
  induction events generalizing s x with
  | nil => exact ⟨x, hk, .refl _ hready⟩
  | cons e events ih =>
      obtain ⟨x', hk', honward⟩ := h.onward_step hk hready e
      have hsound := (h.change e).sound h
      obtain ⟨x'', hk'', honward'⟩ := ih hsound hk' honward.readying
      refine ⟨x'', hk'', honward.trans honward' ?_⟩
      exact isCancelled_mono (h.later_run (e :: events)).cancelled

/-- A run whose clips are ready has all its frames before it, and then does them one by one. -/
theorem Sound.follows_prepare (h : s.Sound) (hk : s.runs[k]? = some x)
    (hready : x.run.isReadying = true) {a b : ClipFacts α} {params : Timeline.Params α}
    (hparams : x.run.job.settings.timelineParams (durationOf a) (durationOf b) x.run.job.margin =
      .ok params) (events : List (Event α)) :
    let total := Timeline.frameCount x.run.mode params
      (x.run.job.settings.effectiveFps [a.frameRate, b.frameRate])
    let s' := s.step (.prepare k a b true)
    ∃ x', (s'.run events).runs[k]? = some x' ∧
      ((s'.run events).exporter.isCancelled (k + 1) = false → x'.run.total = total) ∧
      Follows ((s'.run events).exporter.isCancelled (k + 1))
        (({ x.run with params, total } : Export α).framesFrom 0) (deeds k s' events)
        x'.run.script := by
  intro total s'
  have hlt : k < s.runs.length := (List.getElem?_eq_some_iff.mp hk).1
  have hsound : s'.Sound := (h.change _).sound h
  have hstep : s' = s.moved k s.exporter (x.prepare a b true s.exporter) :=
    step_prepare hk hready a b true
  have hnow : s'.runs[k]? = some (x.prepare a b true s.exporter).2 := by
    rw [hstep]
    exact List.getElem?_set_self hlt
  obtain ⟨htotal, hkeeps⟩ := setUp_follows (e := s.exporter) (isReadying_iff.mp hready) hparams
  unfold Keeps at hkeeps
  rw [(h.each k x hk).number] at htotal hkeeps
  obtain ⟨x', hk', honward⟩ :=
    hsound.onward_run hnow (h.isReadying_prepare hk hready a b true) events
  have hmono : s.exporter.isCancelled (k + 1) = true →
      (s'.run events).exporter.isCancelled (k + 1) = true :=
    isCancelled_mono (h.later_run (.prepare k a b true :: events)).cancelled
  refine ⟨x', hk', ?_, hkeeps.trans honward.follows hmono⟩
  intro hc
  refine honward.total.trans (htotal ?_)
  rw [← Bool.not_eq_true]
  intro hcut
  cases hc.symm.trans (hmono hcut)

end Steps

end Session

end Exporter

/-! ## What a run does at a wait -/

namespace Export

/-- Waiting with both clips and a compositor, the run does the deed, whatever the clips, the
compositor and the effects of both are: it seeks the clip to the time as often as the policy allows,
or it shows the frames of both clips, pins the time, draws the shot and reads the picture. -/
def CarriesOut (r : Export Float) (d : Deed Float) : Prop :=
  ∀ (m : Type → Type) (κ σ : Type) [Monad m] [MonadStateOf (Exporter Float) m]
    [Compositor m Float κ] [Source m Float σ] (config : ExportConfig) (dropped : m Bool)
    (report : Float → m Unit) (a b : σ) (k : κ),
    let cut : m Bool := do if ← isCancelled r.generation then pure true else dropped
    let crew (a b : σ) (k : κ) : Crew σ κ := ⟨some a, some b, some k⟩
    r.await config dropped report (crew a b k) =
      match d with
      | .seek .a time => do
        let (o, a) ← seekRetrying (policy config) cut a time
        return (some (.sought o), crew a b k)
      | .seek .b time => do
        let (o, b) ← seekRetrying (policy config) cut b time
        return (some (.sought o), crew a b k)
      | .draw time shot => do
        let (drawn, crew) ← (do
          let k ← Compositor.show k .a (Source.frame m a)
          let k ← Compositor.show k .b (Source.frame m b)
          let k ← Compositor.pinTime k (some time)
          let (drawn, k) ← (Compositor.render k shot : m (Bool × κ))
          if !drawn then
            return (.skipped, crew a b k)
          let (image?, k) ← (Compositor.readPixels k : m (Option Image × κ))
          match image? with
          | some i => return (.picture i, crew a b k)
          | none => return (.unreadable, crew a b k) : m (Drawn × Crew σ κ))
        return (some (.drawn drawn), crew)

theorem carriesOut_of_mem {r : Export Float} {i : Nat} {d : Deed Float} (h : (i, d) ∈ r.deeds) :
    r.CarriesOut d := by
  intro m κ σ _ _ _ _ config dropped report a b k cut crew
  unfold await
  cases hp : r.phase with
  | seeking clip time =>
      simp only [deeds, hp, List.mem_singleton] at h
      cases h
      cases clip with
      | a => exact Task.bind_assoc ..
      | b => exact Task.bind_assoc ..
  | drawing time shot =>
      simp only [deeds, hp, List.mem_singleton] at h
      cases h
      rfl
  | called | readying | composing | encoding image | joining | report x | ended result =>
      simp only [deeds, hp, List.not_mem_nil] at h

end Export

/-! ## What a preview shows -/

/-- What one picture is made from. -/
structure Panel (α : Type) where
  timeA : α
  timeB : α
  time : α
  shot : Shot α

def Panel.deeds (t : Panel α) (i : Nat) : List (Nat × Export.Deed α) :=
  [(i, .seek .a t.timeA), (i, .seek .b t.timeB), (i, .draw t.time t.shot)]

namespace Preview

def panel (p : Preview α) (position : α) : Panel α where
  timeA := (p.sample position).timeA
  timeB := (p.sample position).timeB
  time := single (p.sample position).time
  shot := p.shot (p.sample position).progress

/-- The deeds that make the pictures of a preview at the positions of `n` frames. -/
def storyboard (p : Preview α) (n : Nat) : List (Nat × Export.Deed α) :=
  (List.range n).flatMap fun i => (p.panel (Timeline.frameProgress i n)).deeds i

/-- Live, the preview seeks the clips to the times of the panel and draws its shot, whatever the
sources, the compositor and the effects of both are. -/
def Shows (p : Preview α) (position : α) (t : Panel α) : Prop :=
  ∀ (m : Type → Type) (κ σ : Type) [Monad m] [Compositor m α κ] [Source m α σ]
    (cancelled : m Bool) (k : κ) (a b : σ),
    p.renderLive cancelled position k a b = do
      let frame (drawn : Bool) : PreviewFrame α :=
        ⟨p.sample position, p.eased (p.sample position).progress, false, drawn⟩
      let (outcomeA, a) ← seekBounded p.seekTimeout.millis cancelled a t.timeA
      let (outcomeB, b) ← seekBounded p.seekTimeout.millis cancelled b t.timeB
      if outcomeA = .cancelled || outcomeB = .cancelled then
        return (frame false, k, a, b)
      let (drawn, k) ← (do
        let k ← Compositor.show k .a (Source.frame m a)
        let k ← Compositor.show k .b (Source.frame m b)
        Compositor.render k t.shot : m (Bool × κ))
      return (frame drawn, k, a, b)

/-- For a single picture the renderer is given a time before the preview draws live. -/
def Pins (p : Preview Float) (position time : Float) : Prop :=
  ∀ (m : Type → Type) [Monad m] [FileSystem m] (registry : Registry Float) (r : Renderer)
    (a b : Footage), ∃ r' : Renderer, r'.pinned? = some time ∧
      (Command.draw p registry position r a b : m _) = do
        let (frame, r, _) ← Command.runAlone (p.renderLive (pure false) position r' a b)
        return (frame, r)

/-- The export at `x`, which has done some deeds so far, makes the pictures of the preview. -/
structure InStep (p : Preview α) (n : Nat) (cancelled : Bool) (x : ExportCall α)
    (done : List (Nat × Export.Deed α)) : Prop where
  total : cancelled = false → x.run.total = n
  soFar : done ++ x.run.deeds <+: p.storyboard n
  all : cancelled = false → x.run.hasEnded = true → done = p.storyboard n

theorem shows_panel (p : Preview α) (position : α) : p.Shows position (p.panel position) := by
  intro m κ σ _ _ _ cancelled k a b
  rfl

theorem pins_panel (p : Preview Float) (position : Float) :
    p.Pins position (p.panel position).time := by
  intro m _ _ registry r a b
  exact ⟨(r.useVariant registry p.key).2.pinTime (some (p.sample position).time), rfl, rfl⟩

/-- What a preview takes from its settings and the registry. -/
theorem of_make {s : Settings α} {registry : Registry α} {durationA durationB margin : α}
    {p : Preview α} (h : make s registry durationA durationB margin = .ok p) :
    s.timelineParams durationA durationB margin = .ok p.params ∧ p.mode = s.mode ∧
      ∀ progress, p.shot progress =
        ⟨single (s.easingSelection.evaluate progress), single s.intensity,
          Uniforms.merge (registry.uniforms s.shaderKey) s.liveUniforms⟩ := by
  unfold make at h
  cases hparams : s.timelineParams durationA durationB margin with
  | error e =>
      rw [hparams] at h
      cases h
  | ok params =>
      rw [hparams] at h
      cases h
      exact ⟨rfl, rfl, fun _ => rfl⟩

variable [Ordered α] {p : Preview α}

/-- A frame of the export is the panel of the preview at its position. -/
theorem frame_eq {r : Export α} {durationA durationB margin : α}
    (hp : make r.job.settings r.job.registry durationA durationB margin = .ok p)
    (hA : r.hasA = true) (hB : r.hasB = true) (hparams : r.params = p.params) (i : Nat) :
    r.frame i = (p.panel (Timeline.frameProgress i r.total)).deeds i := by
  generalize hposition : (Timeline.frameProgress i r.total : α) = position
  obtain ⟨hplanned, hmode, hshot⟩ := of_make hp
  have hsample : r.sampleAt i = p.sample position := by
    rw [sample, hmode, ← hparams, ← hposition]
    rfl
  have hseekable := Timeline.seekable_of_timelineParams hplanned
  have hseekA : r.seekingAt i .a = .seek .a (p.panel position).timeA := by
    rw [Export.seekingAt, hsample, hparams]
    exact congrArg _ (hseekable.timeA p.mode position)
  have hseekB : r.seekingAt i .b = .seek .b (p.panel position).timeB := by
    rw [Export.seekingAt, hsample, hparams]
    exact congrArg _ (hseekable.timeB p.mode position)
  have hdraw : r.drawingAt i = .draw (p.panel position).time (p.panel position).shot := by
    have hdrawn : (p.panel position).shot = Export.shot r.job (p.sample position) := hshot _
    rw [Export.drawingAt, hsample, hdrawn]
    rfl
  rw [Export.frame, Export.frameFromB, if_pos hA, if_pos hB, hseekA, hseekB, hdraw]
  rfl

theorem framesFrom_eq {r : Export α} {durationA durationB margin : α}
    (hp : make r.job.settings r.job.registry durationA durationB margin = .ok p)
    (hA : r.hasA = true) (hB : r.hasB = true) (hparams : r.params = p.params) :
    r.framesFrom 0 = p.storyboard r.total := by
  rw [Export.framesFrom, storyboard, Nat.sub_zero, ← List.range_eq_range']
  exact List.flatMap_congr fun i _ => frame_eq hp hA hB hparams i

open Exporter

/-- Previews and exports cannot drift apart: when the clips of a run are ready, what it does from
then on are the pictures of the preview at the positions of its frames, in their order and each with
the same times, the same shot and the same time for its shaders; and it does all of them unless it
is cancelled. What a preview does for its picture and what an export does for its deeds is said for
all clips and compositors. -/
theorem inStep_run (policy : RetryPolicy) (before after : List (Event α)) {k : Nat}
    {x : ExportCall α} (hk : ((Session.start policy).run before).runs[k]? = some x)
    (hready : x.run.isReadying = true) (hA : x.run.hasA = true) (hB : x.run.hasB = true)
    {a b : Export.ClipFacts α} {durationA durationB : α}
    (ha : usableDuration a.duration = some durationA)
    (hb : usableDuration b.duration = some durationB)
    (hp : make x.run.job.settings x.run.job.registry durationA durationB x.run.job.margin =
      .ok p) :
    let s := ((Session.start policy).run before).step (.prepare k a b true)
    let n := Timeline.frameCount p.mode p.params
      (x.run.job.settings.effectiveFps [a.frameRate, b.frameRate])
    (∃ x', (s.run after).runs[k]? = some x' ∧
      p.InStep n ((s.run after).exporter.isCancelled (k + 1)) x' (Session.deeds k s after)) ∧
    (∀ position, p.Shows position (p.panel position)) ∧
    (∀ (q : Preview Float) (position : Float), q.Pins position (q.panel position).time) ∧
    ∀ (r : Export Float) (i : Nat) (d : Export.Deed Float), (i, d) ∈ r.deeds → r.CarriesOut d := by
  intro s n
  refine ⟨?_, p.shows_panel, pins_panel, fun _ _ _ => Export.carriesOut_of_mem⟩
  have hlengthA : Export.durationOf a = durationA := by
    rw [Export.durationOf, ha]
    rfl
  have hlengthB : Export.durationOf b = durationB := by
    rw [Export.durationOf, hb]
    rfl
  obtain ⟨hplanned, hmode, -⟩ := of_make hp
  rw [← hlengthA, ← hlengthB] at hplanned
  obtain ⟨x', hk', htotal, hfollows⟩ :=
    (Session.sound_run policy before).follows_prepare hk hready hplanned after
  have hcount : Timeline.frameCount x.run.mode p.params
      (x.run.job.settings.effectiveFps [a.frameRate, b.frameRate]) = n := by
    rw [Export.mode, ← hmode]
  rw [hcount, framesFrom_eq (r := { x.run with params := p.params, total := n }) hp hA hB rfl]
    at hfollows
  rw [hcount] at htotal
  refine ⟨x', hk', htotal, ?_, ?_⟩
  · refine List.IsPrefix.trans ?_ hfollows.isPrefix
    rw [Export.script, ← List.append_assoc]
    exact List.prefix_append _ _
  · intro hc hended
    have hall := hfollows.all hc
    rwa [Export.script_of_hasEnded hended, List.append_nil] at hall

open Session in
omit [Scalar α] [Elementary α] [Ordered α] in
theorem inStep_run_twoFrames : letI : Elementary Rat := ⟨id, id, id, id, 3⟩
    ∃ p : Preview Rat, make twoFrames.settings .empty 1 1 0 = .ok p ∧
      deeds 0 ((start .standard).run (crossed.take 2)) (crossed.drop 2) = p.storyboard 2 := by
  let _ : Elementary Rat := ⟨id, id, id, id, 3⟩
  obtain ⟨p, hp, -⟩ := exists_make (s := twoFrames.settings) .empty 0 (by decide +kernel)
    zero_lt_one zero_lt_one
  obtain ⟨x, hk, hjob, hready, hA, hB⟩ : ∃ x,
      ((start .standard).run [.call twoFrames none none]).runs[0]? = some x ∧
        x.run.job = twoFrames ∧ x.run.isReadying = true ∧ x.run.hasA = true ∧
        x.run.hasB = true := ⟨_, rfl, rfl, rfl, rfl, rfl⟩
  have hlength : usableDuration (some 1) = some (1 : Rat) := by decide +kernel
  have hmade : make x.run.job.settings x.run.job.registry 1 1 x.run.job.margin = .ok p := by
    rw [hjob]
    exact hp
  obtain ⟨⟨x', hk', hstep⟩, -⟩ := inStep_run .standard [.call twoFrames none none]
    (crossed.drop 2) hk hready hA hB (a := ⟨some 1, none⟩) (b := ⟨some 1, none⟩) hlength hlength
    hmade
  have hafter : ((((start .standard).run (crossed.take 2)).run (crossed.drop 2)).runs[0]?.any
      fun y => y.run.hasEnded && y.run.total == 2) = true := by decide +kernel
  have hrunning : (((start .standard).run (crossed.take 2)).run
      (crossed.drop 2)).exporter.isCancelled 1 = false := by decide +kernel
  have hended : x'.run.hasEnded = true ∧ x'.run.total = 2 := by
    obtain ⟨y, hy, hcheck⟩ := (Option.any_eq_true _ _).mp hafter
    obtain rfl : x' = y := Option.some.inj (hk'.symm.trans hy)
    simpa using hcheck
  have hall := hstep.all hrunning hended.1
  rw [← hstep.total hrunning, hended.2] at hall
  exact ⟨p, hp, hall⟩

end Preview

end Segue
