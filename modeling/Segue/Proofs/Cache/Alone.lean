import Mathlib
import Segue.Proofs.Cache.Contents

/-!
# A build on its own

The numbers of builds serve to tell them apart. A build that owns the cache and has not been
cancelled does the same whatever its number is, so it goes on as it would on a cache of its own.
Other calls can only delay it or cancel it.
-/

namespace Segue

variable {α : Type} [Scalar α]

/-- What is left of a cache without the numbering of its builds. -/
def FrameCache.unnumbered (c : FrameCache α) : FrameCache α :=
  { c with generation := 0, token := none, cancelled := [] }

namespace Build

def unnumbered (b : Build α) : Build α := { b with generation := 0 }

def unnumber (y : Running α) : Running α := (y.1.unnumbered, y.2.unnumbered)

/-- A build with what it hears, on a new cache that nothing else is done with. -/
def alone (config : CacheConfig) (margin : α) (scale : Resampler) (request : CacheRequest α)
    (heard : List (View α × SeekOutcome)) : Running α :=
  heard.foldl (fun (c, b) (v, sought) => b.resume v sought c)
    (.make config margin scale, .make request)

/-! ## Numbers do not matter -/

/-- The build began the present generation and has not been cancelled. -/
structure Owns (c : FrameCache α) (b : Build α) : Prop where
  generation : c.generation = b.generation
  running : c.isCancelled b.generation = false

omit [Scalar α] in
theorem owns_unnumbered (c : FrameCache α) (b : Build α) : Owns c.unnumbered b.unnumbered :=
  ⟨rfl, rfl⟩

theorem finish_unnumber {c : FrameCache α} {b : Build α} (h : c.generation = b.generation)
    (o : BuildOutcome α) :
    unnumber (finish o c b) = finish o c.unnumbered b.unnumbered := by
  have hnew : c.unnumbered.generation = b.unnumbered.generation := rfl
  unfold finish
  cases o.isSuccess with
  | true => rw [FrameCache.endBuild_keep h, FrameCache.endBuild_keep hnew]; rfl
  | false => rw [FrameCache.endBuild_drop h, FrameCache.endBuild_drop hnew]; rfl

theorem store_unnumber {c : FrameCache α} {b : Build α} (h : c.generation = b.generation)
    (frameB : Image) :
    unnumber (store c b frameB) = store c.unnumbered b.unnumbered frameB := by
  have hnew : ¬c.unnumbered.generation ≠ b.unnumbered.generation := not_not.mpr rfl
  unfold store
  rw [if_neg (not_not.mpr h), if_neg hnew]
  dsimp only
  split
  · rename_i hfull
    refine Eq.trans ?_ (if_pos hfull).symm
    exact finish_unnumber (c := c.push _ _) h _
  · rename_i hfull
    exact (if_neg hfull).symm

theorem enterB_unnumber {c : FrameCache α} {b : Build α} (h : c.generation = b.generation)
    (v : View α) : unnumber (enterB v c b) = enterB v c.unnumbered b.unnumbered := by
  unfold enterB
  cases usableDuration (v.duration .b) with
  | none => exact store_unnumber h _
  | some d => rfl

theorem enterA_unnumber {c : FrameCache α} {b : Build α} (h : c.generation = b.generation)
    (v : View α) : unnumber (enterA v c b) = enterA v c.unnumbered b.unnumbered := by
  unfold enterA
  cases usableDuration (v.duration .a) with
  | none => exact enterB_unnumber (b := { b with captured := fit c none }) h v
  | some d => rfl

theorem capture_unnumber {c : FrameCache α} {b : Build α} (h : c.generation = b.generation)
    (clip : Clip) (v : View α) :
    unnumber (capture clip v c b) = capture clip v c.unnumbered b.unnumbered := by
  cases clip with
  | a => exact enterB_unnumber (b := { b with captured := fit c (v.frame .a) }) h v
  | b => exact store_unnumber h _

theorem enterPosition_unnumber {c : FrameCache α} {b : Build α} (h : Owns c b) (v : View α) :
    unnumber (enterPosition v c b) = enterPosition v c.unnumbered b.unnumbered := by
  have hnew := (owns_unnumbered c b).running
  unfold enterPosition
  rw [h.running, hnew]
  simp only [Bool.false_eq_true, if_false]
  by_cases hlast : b.total ≤ b.index
  · rw [if_pos hlast]
    exact (finish_unnumber h.generation _).trans (if_pos hlast).symm
  · rw [if_neg hlast]
    refine Eq.trans ?_ (if_neg hlast).symm
    cases bothUsable v with
    | true => exact enterA_unnumber h.generation v
    | false => exact finish_unnumber h.generation _

theorem plan_unnumber {c : FrameCache α} {b : Build α} (h : Owns c b) (v : View α)
    (durationA durationB : α) :
    unnumber (plan v c b durationA durationB) =
      plan v c.unnumbered b.unnumbered durationA durationB := by
  unfold plan
  cases hmatches : b.request.matchesClips durationA durationB with
  | false =>
      have hmatches' : b.unnumbered.request.matchesClips durationA durationB = false := hmatches
      simp only [hmatches', Bool.not_false, if_true]
      exact finish_unnumber h.generation _
  | true =>
      have hmatches' : b.unnumbered.request.matchesClips durationA durationB = true := hmatches
      simp only [hmatches', Bool.not_true, Bool.false_eq_true, if_false]
      cases hparams : b.request.params durationA durationB c.margin with
      | error e =>
          have hparams' : b.unnumbered.request.params durationA durationB c.unnumbered.margin =
              .error e := hparams
          simp only [hparams']
          exact finish_unnumber h.generation _
      | ok params =>
          have hparams' : b.unnumbered.request.params durationA durationB c.unnumbered.margin =
              .ok params := hparams
          simp only [hparams']
          split
          · rename_i htotal
            refine Eq.trans ?_ (if_pos htotal).symm
            exact finish_unnumber h.generation _
          · rename_i htotal
            refine Eq.trans ?_ (if_neg htotal).symm
            have howns : Owns
                { c with planned := Timeline.frameCount b.request.mode params b.request.fps }
                { b with
                  params, total := Timeline.frameCount b.request.mode params b.request.fps
                  index := 0 } := ⟨h.generation, h.running⟩
            exact enterPosition_unnumber howns v

/-- A build that owns the cache goes on in the same way under any number. -/
theorem resume_unnumber {c : FrameCache α} {b : Build α} (h : Owns c b)
    (hbegun : b.hasBegun = true) (v : View α) (sought : SeekOutcome) :
    unnumber (b.resume v sought c) = b.unnumbered.resume v sought c.unnumbered := by
  have hnew := (owns_unnumbered c b).running
  have hphase : b.unnumbered.phase = b.phase := rfl
  unfold resume
  rw [hphase, h.running, hnew]
  cases hp : b.phase with
  | called => simp [hasBegun, hp] at hbegun
  | grace => simp [hasBegun, hp] at hbegun
  | seeking clip time =>
      simp only [Bool.false_eq_true, if_false]
      cases sought with
      | completed => rfl
      | timedOut => exact capture_unnumber h.generation clip v
      | failed _ => exact capture_unnumber h.generation clip v
      | cancelled => exact finish_unnumber h.generation _
  | settling clip =>
      simp only [Bool.false_eq_true, if_false]
      exact capture_unnumber h.generation clip v
  | report x =>
      exact enterPosition_unnumber (b := { b with index := b.index + 1 })
        ⟨h.generation, h.running⟩ v
  | ended o => rfl

/-! ## Taking over -/

/-- Whether a build has rested before does not matter when it takes the cache over. -/
@[simp] theorem takeOver_phase (v : View α) (c : FrameCache α) (b : Build α) (phase : Phase α) :
    takeOver v c { b with phase } = takeOver v c b := rfl

/-- The number of the next build has not been used. -/
def HasNext (c : FrameCache α) : Prop := ∀ t ∈ c.token.toList ++ c.cancelled, t ≤ c.generation

omit [Scalar α] in
theorem HasNext.not_mem {c : FrameCache α} (h : HasNext c) :
    c.generation + 1 ∉ c.token.toList ++ c.cancelled := by
  intro hmem
  have hle := h _ hmem
  omega

theorem owns_beginBuild {c : FrameCache α} (h : HasNext c) (b : Build α) :
    Owns (c.beginBuild b.request) { b with generation := (c.beginBuild b.request).generation } := by
  refine ⟨rfl, ?_⟩
  have hlist : (c.beginBuild b.request).cancelled = c.token.toList ++ c.cancelled := rfl
  have hnumber : (c.beginBuild b.request).generation = c.generation + 1 := rfl
  simpa [FrameCache.isCancelled, hlist, hnumber] using h.not_mem

/-- A build takes over any cache as it would a new one. -/
theorem takeOver_unnumber {c d : FrameCache α} (hc : HasNext c) (hd : HasNext d)
    (htuning : d.SameTuning c) (v : View α) (b : Build α) :
    unnumber (takeOver v c b) = unnumber (takeOver v d b) := by
  have hown := owns_beginBuild hc b
  have hown' := owns_beginBuild hd b
  have hcache : (c.beginBuild b.request).unnumbered = (d.beginBuild b.request).unnumbered := by
    simp only [FrameCache.unnumbered, FrameCache.beginBuild, FrameCache.reset, FrameCache.cancel,
      htuning.config_eq, htuning.margin_eq, htuning.resampler_eq]
  have hplan : ∀ durationA durationB,
      unnumber (plan v (c.beginBuild b.request)
        { b with generation := (c.beginBuild b.request).generation } durationA durationB) =
      unnumber (plan v (d.beginBuild b.request)
        { b with generation := (d.beginBuild b.request).generation } durationA durationB) := by
    intro durationA durationB
    rw [plan_unnumber hown, plan_unnumber hown', hcache]
    rfl
  have hfinish : ∀ o : BuildOutcome α,
      unnumber (finish o (c.beginBuild b.request)
        { b with generation := (c.beginBuild b.request).generation }) =
      unnumber (finish o (d.beginBuild b.request)
        { b with generation := (d.beginBuild b.request).generation }) := by
    intro o
    rw [finish_unnumber hown.generation, finish_unnumber hown'.generation, hcache]
    rfl
  unfold takeOver
  cases usableDuration (v.duration .a) with
  | none => exact hfinish _
  | some durationA =>
      cases usableDuration (v.duration .b) with
      | none => exact hfinish _
      | some durationB => exact hplan durationA durationB

theorem takeOver_owns {c : FrameCache α} (h : HasNext c) (v : View α) (b : Build α) :
    Owns (takeOver v c b).1 (takeOver v c b).2 ∧ (takeOver v c b).2.hasBegun = true := by
  -- as if the build had rested, so that the move is not a rest
  have hmove := takeOver_move (c := c) (b := { b with phase := .grace }) v rfl
  rw [takeOver_phase] at hmove
  obtain ⟨hbegun, hc, hb⟩ := hmove.of_grace rfl
  refine ⟨⟨hc.trans hb.symm, ?_⟩, hbegun⟩
  simpa [FrameCache.isCancelled, hmove.cancelled, hb, Build.hasBegun] using h.not_mem

theorem Owns.resume {c : FrameCache α} {b : Build α} (h : Owns c b) (hbegun : b.hasBegun = true)
    (v : View α) (sought : SeekOutcome) :
    Owns (b.resume v sought c).1 (b.resume v sought c).2 ∧
      (b.resume v sought c).2.hasBegun = true := by
  have hmove := resume_move v sought c b
  obtain ⟨hbegun', hb⟩ := hmove.hasBegun hbegun
  have hc : (b.resume v sought c).1.generation = c.generation := by
    rcases hmove.generation with ⟨hc, -⟩ | ⟨hnot, -⟩
    · exact hc
    · simp [hbegun] at hnot
  refine ⟨⟨by rw [hc, hb, h.generation], ?_⟩, hbegun'⟩
  have hrunning := h.running
  simp only [FrameCache.isCancelled] at hrunning ⊢
  rw [hmove.cancelled, if_pos hbegun, hb, hrunning]

/-! ## On a cache of its own -/

theorem alone_append (config : CacheConfig) (margin : α) (scale : Resampler)
    (request : CacheRequest α)
    (heard : List (View α × SeekOutcome)) (v : View α) (sought : SeekOutcome) :
    alone config margin scale request (heard ++ [(v, sought)]) =
      (alone config margin scale request heard).2.resume v sought
        (alone config margin scale request heard).1 := by
  simp [alone, List.foldl_append]

theorem hasNext_make (config : CacheConfig) (margin : α) (scale : Resampler) :
    HasNext (FrameCache.make config margin scale) := by
  simp [HasNext, FrameCache.make]

/-- Nothing takes a cache of its own from a build. -/
theorem alone_owns (config : CacheConfig) (margin : α) (scale : Resampler)
    (request : CacheRequest α)
    (heard : List (View α × SeekOutcome)) (h : heard ≠ []) :
    Owns (alone config margin scale request heard).1 (alone config margin scale request heard).2 ∧
      (alone config margin scale request heard).2.hasBegun = true := by
  induction heard using List.reverseRecOn with
  | nil => exact absurd rfl h
  | append_singleton heard x ih =>
      obtain ⟨v, sought⟩ := x
      rw [alone_append]
      rcases List.eq_nil_or_concat heard with rfl | ⟨front, last, rfl⟩
      · exact takeOver_owns (hasNext_make config margin scale) v _
      · obtain ⟨hown, hbegun⟩ := ih (by simp)
        exact hown.resume hbegun v sought

end Build

end Segue
