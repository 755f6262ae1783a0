import Mathlib
import Segue.Preview
import Segue.Proofs.Cache.Lookup

/-!
# Cached and live previews

A preview draws from a cache that was built for it just what it would draw live at the same
position, but for the images, which the build has taken there. From a cache that was built for
anything else it draws nothing.
-/

namespace Segue

open Scalar Timeline

namespace CacheRequest

@[simp] theorem same_iff {r s : CacheRequest Rat} : r.same s = true ↔ r = s := by
  cases r
  cases s
  simp [same, Scalar.same, and_assoc]

end CacheRequest

/-- The build has ended with all of its `n` pairs. -/
def Build.isComplete (n : Nat) (b : Build Rat) : Bool :=
  match b.phase with
  | .ended (.complete m) => m == n
  | _ => false

@[simp] theorem Build.isComplete_iff {n : Nat} {b : Build Rat} :
    b.isComplete n = true ↔ b.phase = .ended (.complete n) := by
  unfold isComplete
  split
  · rename_i m hp
    simp [hp]
  · rename_i hnot
    constructor
    · intro hfalse
      cases hfalse
    · intro hp
      exact absurd hp (hnot n)

/-- The build that was called, if it is one. -/
def FrameCache.Call.build? : Call Rat → Option (BuildCall Rat)
  | .build x => some x
  | .clear _ => none

@[simp] theorem FrameCache.Call.build?_eq_some {call : Call Rat} {x : BuildCall Rat} :
    call.build? = some x ↔ call = .build x := by
  cases call with
  | build y => simp [build?]
  | clear g => simp [build?]

namespace Preview

/-- A preview of settings over clips of these lengths, whatever it is told about its cache and its
seeks. -/
def IsMade (s : Settings Rat) (r : Registry Rat) (durationA durationB margin : Rat)
    (p : Preview Rat) : Prop :=
  ∃ (q : Preview Rat) (fps : Rat) (seekTimeout : Duration),
    make s r durationA durationB margin = .ok q ∧
      p = { q.withCacheFps fps with seekTimeout }

theorem IsMade.timeline {s : Settings Rat} {r : Registry Rat} {durationA durationB margin : Rat}
    {p : Preview Rat} (h : p.IsMade s r durationA durationB margin) :
    p.request.params durationA durationB margin = .ok p.params ∧ p.request.mode = p.mode := by
  obtain ⟨q, fps, seekTimeout, hmake, rfl⟩ := h
  unfold make at hmake
  cases hparams : s.timelineParams durationA durationB margin with
  | error e =>
      rw [hparams] at hmake
      cases hmake
  | ok params =>
      rw [hparams] at hmake
      cases hmake
      exact ⟨hparams, rfl⟩

/-- The cache is looked into only if it was built for the preview. -/
theorem request_of_cached? {p : Preview Rat} {c : FrameCache Rat} {position : Rat}
    {f : CachedFrame Rat} (h : p.cached? c position = some f) : c.request = some p.request := by
  unfold cached? at h
  split at h
  · rename_i hfits
    simp only [Bool.and_eq_true, Bool.not_eq_true'] at hfits
    have hcurrent := hfits.2
    unfold FrameCache.needsRebuild at hcurrent
    split at hcurrent
    · rename_i r hr
      simp only [Bool.or_eq_false_iff, Bool.not_eq_false'] at hcurrent
      rw [hr, CacheRequest.same_iff.mp hcurrent.1]
    · cases hcurrent
  · cases h

/-- The build `x` is the latest one on the cache, was made for a request over clips of these
lengths, and has ended with all its `n` pairs. -/
structure Built (s : FrameCache.Session Rat) (request : CacheRequest Rat)
    (durationA durationB : Rat) (n : Nat) (x : BuildCall Rat) : Prop where
  called : .build x ∈ s.calls
  latest : x.effect = some s.cache.generation
  request : x.build.request = request
  complete : x.build.phase = .ended (.complete n)
  clips : ∃ v sought, x.heard.head? = some (v, sought) ∧ v.duration .a = some durationA ∧
    v.duration .b = some durationB

theorem eq_of_usableDuration {d e : Rat} (h : usableDuration (some d) = some e) : d = e :=
  Option.some.inj (Option.filter_eq_some_iff.mp h).1

theorem needsRebuild_of_request {c : FrameCache Rat} {r : CacheRequest Rat}
    (hr : c.request = some r) (hready : c.isReady = true) : c.needsRebuild r = false := by
  have hsame : r.same r = true := CacheRequest.same_iff.mpr rfl
  simp only [FrameCache.isReady, Bool.and_eq_true, Bool.not_eq_true'] at hready
  simp [FrameCache.needsRebuild, hr, hsame, hready.1.2]

/-- The build has planned the timeline of the preview. -/
theorem Built.timeline {s : FrameCache.Session Rat} {margin : Rat} (hplans : s.Plans margin)
    {settings : Settings Rat} {r : Registry Rat} {durationA durationB : Rat} {p : Preview Rat}
    (hp : p.IsMade settings r durationA durationB margin) {n : Nat} {x : BuildCall Rat}
    (hbuilt : Built s p.request durationA durationB n x) :
    x.build.request.mode = p.mode ∧ x.build.params = p.params := by
  obtain ⟨k, hk⟩ := List.mem_iff_getElem?.mp hbuilt.called
  obtain ⟨hbegun, -⟩ := BuildCall.effect_eq_some_iff.mp hbuilt.latest
  obtain ⟨hfailed, -⟩ := Build.stored_of_success (.inl hbuilt.complete)
  obtain ⟨v, sought, hheard, dA, dB, hA, hB, hplanned⟩ := hplans.planned k x hk hbegun hfailed
  obtain ⟨w, o, hheard', hdurationA, hdurationB⟩ := hbuilt.clips
  obtain ⟨hparams, hmode⟩ := hp.timeline
  obtain rfl : w = v := congrArg Prod.fst (Option.some.inj (hheard'.symm.trans hheard))
  rw [hdurationA] at hA
  rw [hdurationB] at hB
  obtain rfl := eq_of_usableDuration hA
  obtain rfl := eq_of_usableDuration hB
  have hsame := hplanned.params
  rw [hbuilt.request, hparams] at hsame
  rw [hbuilt.request]
  exact ⟨hmode, (Except.ok.inj hsame).symm⟩

/-- The cache shows a preview the pair that was taken at a planned position, with the progress of
the transition there. -/
theorem cached?_frameProgress {s : FrameCache.Session Rat} (hs : s.Sound) {margin : Rat}
    (hplans : s.Plans margin) {settings : Settings Rat} {r : Registry Rat}
    {durationA durationB : Rat} {p : Preview Rat}
    (hp : p.IsMade settings r durationA durationB margin) {n : Nat} {x : BuildCall Rat}
    (hbuilt : Built s p.request durationA durationB n x) {i : Nat} (hi : i < n) :
    ∃ f, p.cached? s.cache (frameProgress i n) = some f ∧ x.pushed[i]? = some (i, f) ∧
      f.progress = (p.sample (frameProgress i n)).progress := by
  obtain ⟨k, hk⟩ := List.mem_iff_getElem?.mp hbuilt.called
  obtain ⟨hsize, hof⟩ := hs.readyOf hplans hk hbuilt.latest (Nat.ne_zero_of_lt hi)
    (.inl hbuilt.complete)
  have howner := hs.owner k x hk hbuilt.latest
  have hholds := howner.holds hof.stored.1
  have htotal : n = x.build.total := howner.complete n hbuilt.complete
  obtain ⟨f, hentry, hpushed, hprogress⟩ := hof.entryAt? hs hk (frameProgress_nonneg i n)
    (frameProgress_le_one hi) (i := i) (by rw [hsize, shown_frameProgress hi])
  have hready := hof.isReady hs hk
  have hrequest : s.cache.request = some p.request := by rw [hholds.request, hbuilt.request]
  obtain ⟨hmode, hparams⟩ := hbuilt.timeline hplans hp
  refine ⟨f, ?_, hpushed, ?_⟩
  · rw [cached?, hready, needsRebuild_of_request hrequest hready]
    exact hentry
  · rw [hprogress, hmode, hparams, ← htotal]
    rfl

/-! ## What is drawn -/

variable [Elementary Rat]

/-- At a position a preview draws the images of the cached pair `f` as it draws those of the clips
live: the compositor gets the same shot. -/
structure Agrees (p : Preview Rat) (c : FrameCache Rat) (position : Rat) (f : CachedFrame Rat) :
    Prop where
  cached : ∀ (m : Type → Type) (κ : Type) [Monad m] [Compositor m Rat κ] (k : κ),
    (p.renderCached c position k : m _) = do
      let (drawn, k) ← (do
        let k ← Compositor.updateImage k .a f.frameA
        let k ← Compositor.updateImage k .b f.frameB
        Compositor.render k (p.shot f.progress))
      return (some ⟨p.sample position, p.eased f.progress, true, drawn⟩, k)
  live : ∀ (m : Type → Type) (κ σ : Type) [Monad m] [Compositor m Rat κ] [Source m Rat σ]
    (cancelled : m Bool) (k : κ) (a b : σ),
    p.renderLive cancelled position k a b = do
      let (outcomeA, a) ←
        seekBounded p.seekTimeout.millis cancelled a (p.sample position).timeA
      let (outcomeB, b) ←
        seekBounded p.seekTimeout.millis cancelled b (p.sample position).timeB
      if outcomeA = .cancelled || outcomeB = .cancelled then
        return (⟨p.sample position, p.eased f.progress, false, false⟩, k, a, b)
      let (drawn, k) ← (do
        let k ← Compositor.show k .a (Source.frame m a)
        let k ← Compositor.show k .b (Source.frame m b)
        Compositor.render k (p.shot f.progress) : m (Bool × κ))
      return (⟨p.sample position, p.eased f.progress, false, drawn⟩, k, a, b)

theorem agrees_of_cached? {p : Preview Rat} {c : FrameCache Rat} {position : Rat}
    {f : CachedFrame Rat} (h : p.cached? c position = some f)
    (hprogress : f.progress = (p.sample position).progress) : p.Agrees c position f where
  cached m κ _ _ k := by
    simp only [renderCached, h]
    rfl
  live m κ σ _ _ _ cancelled k a b := by
    rw [hprogress]
    rfl

/-- A preview draws from a cache just what it draws live at the planned positions, and nothing from
a cache that was built for anything else. -/
theorem agrees_run {settings : Settings Rat} {r : Registry Rat} {durationA durationB margin : Rat}
    {p : Preview Rat} (hp : p.IsMade settings r durationA durationB margin) :
    (∀ (config : CacheConfig) (scale : Resampler) (events : List (FrameCache.Event Rat)) (n : Nat)
      (x : BuildCall Rat),
      Built ((FrameCache.Session.start config margin scale).run events) p.request durationA
        durationB n x →
      ∀ i < n, ∃ f, x.pushed[i]? = some (i, f) ∧
        p.Agrees ((FrameCache.Session.start config margin scale).run events).cache
          (frameProgress i n) f) ∧
    ∀ (c : FrameCache Rat) (position : Rat), c.request ≠ some p.request →
      ∀ (m : Type → Type) (κ : Type) [Monad m] [Compositor m Rat κ] (k : κ),
        (p.renderCached c position k : m _) = pure (none, k) := by
  constructor
  · intro config scale events n x hbuilt i hi
    have hsound := FrameCache.Session.sound_run config margin scale events
    have hplans := FrameCache.Session.plans_run config margin scale events
    obtain ⟨f, hcached, hpushed, hprogress⟩ := cached?_frameProgress hsound hplans hp hbuilt hi
    exact ⟨f, hpushed, agrees_of_cached? hcached hprogress⟩
  · intro c position hother m κ _ _ k
    cases hcached : p.cached? c position with
    | none => simp only [renderCached, hcached]
    | some f => exact absurd (request_of_cached? hcached) hother

omit [Elementary Rat] in
theorem exists_make {s : Settings Rat} (r : Registry Rat) {durationA durationB : Rat}
    (margin : Rat) (hs : 0 < s.duration) (hA : 0 < durationA) (hB : 0 < durationB) :
    ∃ q, make s r durationA durationB margin = .ok q ∧
      q.request = .ofSettings s (ofNat s.fps.toNat) durationA durationB := by
  have hparams : ∃ params, s.timelineParams durationA durationB margin = .ok params := by
    simp only [Settings.timelineParams, Params.make, isPositive_rat.mpr hs, isPositive_rat.mpr hA,
      isPositive_rat.mpr hB]
    exact ⟨_, rfl⟩
  obtain ⟨params, hparams⟩ := hparams
  unfold make
  rw [hparams]
  exact ⟨_, rfl, rfl⟩

def oneSecond : Settings Rat := { (Settings.standard : Settings Rat) with duration := 1, fps := 2 }

open FrameCache.Session in
omit [Elementary Rat] in
theorem exists_built : ∃ x, Built ((atStart tight).run both) (positions 2) 1 1 2 x := by
  have hcheck : (((atStart tight).run both).calls[0]?.bind FrameCache.Call.build?).any (fun x =>
      decide (x.effect = some ((atStart tight).run both).cache.generation) &&
        x.build.request.same (positions 2) && x.build.isComplete 2 &&
        x.heard.head?.any fun h =>
          decide (h.1.duration .a = some 1) && decide (h.1.duration .b = some 1)) = true := by
    decide +kernel
  obtain ⟨x, hx, hcheck⟩ := (Option.any_eq_true _ _).mp hcheck
  obtain ⟨call, hcall, hbuild⟩ := Option.bind_eq_some_iff.mp hx
  obtain rfl := FrameCache.Call.build?_eq_some.mp hbuild
  simp only [Bool.and_eq_true, decide_eq_true_eq, Option.any_eq_true] at hcheck
  obtain ⟨⟨⟨hlatest, hrequest⟩, hcomplete⟩, ⟨v, sought⟩, hheard, hA, hB⟩ := hcheck
  exact ⟨x, List.mem_of_getElem? hcall, hlatest, CacheRequest.same_iff.mp hrequest,
    Build.isComplete_iff.mp hcomplete, v, sought, hheard, hA, hB⟩

open FrameCache.Session in
omit [Elementary Rat] in
theorem agrees_run_oneSecond : letI : Elementary Rat := ⟨id, id, id, id, 3⟩
    ∃ (p : Preview Rat) (x : BuildCall Rat) (f : CachedFrame Rat),
      p.IsMade oneSecond .empty 1 1 0 ∧ Built ((atStart tight).run both) p.request 1 1 2 x ∧
        x.pushed[1]? = some (1, f) ∧
        p.Agrees ((atStart tight).run both).cache (frameProgress 1 2) f := by
  let _ : Elementary Rat := ⟨id, id, id, id, 3⟩
  obtain ⟨q, hmake, hrequest⟩ := exists_make (s := oneSecond) .empty 0 (by decide +kernel)
    zero_lt_one zero_lt_one
  have hq : q.IsMade oneSecond .empty 1 1 0 := ⟨q, q.request.fps, q.seekTimeout, hmake, rfl⟩
  have hsame : CacheRequest.ofSettings oneSecond (ofNat oneSecond.fps.toNat) 1 1 = positions 2 :=
    CacheRequest.same_iff.mp (by decide +kernel)
  obtain ⟨x, hbuilt⟩ := exists_built
  rw [← hsame, ← hrequest] at hbuilt
  obtain ⟨f, hpushed, hagrees⟩ :=
    (agrees_run hq).1 tight Rehearsal.nearest both 2 x hbuilt 1 one_lt_two
  exact ⟨q, x, f, hq, hbuilt, hpushed, hagrees⟩

end Preview

end Segue
