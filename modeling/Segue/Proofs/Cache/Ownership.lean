import Mathlib
import Segue.Proofs.Cache.Session

/-!
# Who owns the cache

At any time at most one build may change the cache: the one that began the present generation. The
invariant `Session.Sound` says what the cache holds of it and that all earlier builds have been
cancelled. It holds at the start and is kept by every step, whether the present owner goes on, a
build takes over or the cache is cleared.
-/

namespace Segue

variable {α : Type} [Scalar α]

namespace FrameCache

/-- The cache holds just what a build has pushed, position by position. -/
structure Holds (c : FrameCache α) (x : BuildCall α) : Prop where
  request : c.request = some x.build.request
  rows : c.rows = x.pushed.map Prod.snd
  positions : x.pushed.map Prod.fst = List.range x.build.stored
  progress : ∀ p ∈ x.pushed, p.2.progress = { x.build with index := p.1 }.sample.progress
  planned : c.planned = x.build.total

/-- The build went on and the rows stayed. -/
theorem Holds.congr {c c' : FrameCache α} {x : BuildCall α} (h : Holds c x) {b : Build α}
    {heard : List (Build.View α × SeekOutcome)} (hrows : c'.rows = c.rows)
    (hc : c'.request = c.request) (hplanned : c'.planned = c.planned)
    (hrequest : b.request = x.build.request)
    (hsample : ∀ i, { b with index := i }.sample = { x.build with index := i }.sample)
    (htotal : b.total = x.build.total) (hstored : b.stored = x.build.stored) :
    Holds c' ⟨b, heard, x.pushed⟩ where
  request := by rw [hc, h.request, hrequest]
  rows := by rw [hrows, h.rows]
  positions := by rw [h.positions, hstored]
  progress p hp := by rw [h.progress p hp, hsample]
  planned := by rw [hplanned, h.planned, htotal]

/-- The build stored the pair of its present position. -/
theorem Holds.push {c : FrameCache α} {x : BuildCall α} (h : Holds c x) (hc : c.Consistent)
    (hseek : x.build.isSeeking = true) (f : CachedFrame α)
    (hf : f.progress = x.build.sample.progress) (progress : α) {b : Build α}
    {heard : List (Build.View α × SeekOutcome)} (hrequest : b.request = x.build.request)
    (hsample : ∀ i, { b with index := i }.sample = { x.build with index := i }.sample)
    (htotal : b.total = x.build.total) (hstored : b.stored = x.build.index + 1) :
    Holds (c.push f progress) ⟨b, heard, x.pushed ++ [(x.build.index, f)]⟩ where
  request := by rw [hrequest]; exact h.request
  rows := by rw [hc.rows_push, h.rows]; simp
  positions := by
    rw [hstored, List.range_succ, List.map_append, h.positions,
      Build.stored_of_isSeeking hseek]
    rfl
  progress p hp := by
    rcases List.mem_append.mp hp with hp | hp
    · rw [h.progress p hp, hsample]
    · obtain rfl : p = (x.build.index, f) := by simpa using hp
      rw [hf, hsample]
  planned := by rw [htotal]; exact h.planned

/-- The pair that the build pushed at a position is the row there. -/
theorem Holds.row {c : FrameCache α} {x : BuildCall α} (h : Holds c x) (hc : c.Consistent)
    {i : Nat} (hi : i < x.build.stored) :
    ∃ f, c.row? i = some f ∧ x.pushed[i]? = some (i, f) ∧
      f.progress = { x.build with index := i }.sample.progress := by
  have hfst : (x.pushed.map Prod.fst)[i]? = some i := by
    rw [h.positions, List.getElem?_range hi]
  obtain ⟨⟨j, f⟩, hp, rfl⟩ : ∃ p, x.pushed[i]? = some p ∧ p.1 = i := by
    simpa [List.getElem?_map, Option.map_eq_some_iff] using hfst
  refine ⟨f, ?_, hp, h.progress (j, f) (List.mem_of_getElem? hp)⟩
  rw [hc.row?_eq, h.rows, List.getElem?_map, hp]
  rfl

/-- What the cache is while a build owns it. -/
structure Owner (c : FrameCache α) (x : BuildCall α) : Prop where
  building : c.building = !x.build.hasEnded
  token : x.build.hasEnded = false →
    c.token = some x.build.generation ∨ x.build.generation ∈ c.cancelled
  index_lt : x.build.hasEnded = false → x.build.index < x.build.total
  empty : x.build.hasFailed = true → c.rows = []
  holds : x.build.hasFailed = false → Holds c x
  complete : ∀ n, x.build.phase = .ended (.complete n) → n = x.build.total

namespace Session

structure Sound (s : Session α) : Prop where
  consistent : s.cache.Consistent
  token_eq : ∀ t, s.cache.token = some t → t = s.cache.generation
  cancelled_le : ∀ t ∈ s.cache.cancelled, t ≤ s.cache.generation
  effect_le : ∀ (k : Nat) (call : Call α) (g : Nat), s.calls[k]? = some call →
    call.effect = some g → g ≤ s.cache.generation
  effect_inj : ∀ (k l : Nat) (call call' : Call α) (g : Nat), s.calls[k]? = some call →
    s.calls[l]? = some call' → call.effect = some g → call'.effect = some g → k = l
  older : ∀ (k : Nat) (x : BuildCall α) (g : Nat), s.calls[k]? = some (.build x) →
    x.effect = some g → x.build.hasEnded = false → g < s.cache.generation →
    g ∈ s.cache.cancelled
  owner : ∀ (k : Nat) (x : BuildCall α), s.calls[k]? = some (.build x) →
    x.effect = some s.cache.generation → Owner s.cache x
  owned : s.cache.rows ≠ [] → ∃ (k : Nat) (x : BuildCall α), s.calls[k]? = some (.build x) ∧
    x.effect = some s.cache.generation
  fresh : ∀ (k : Nat) (x : BuildCall α), s.calls[k]? = some (.build x) →
    x.build.hasBegun = false → x.Fresh

theorem sound_start (config : CacheConfig) (margin : α)
    (scale : Resampler) : (start config margin scale).Sound where
  consistent := ⟨rfl, rfl, rfl⟩
  token_eq := by simp [start, make]
  cancelled_le := by simp [start, make]
  effect_le := by simp [start]
  effect_inj := by simp [start]
  older := by simp [start]
  owner := by simp [start]
  owned := by simp [start, make, rows]
  fresh := by simp [start]

/-- The present generation goes on: one call is replaced, and only its owner may have changed the
cache. -/
theorem Sound.replace {s : Session α} (h : s.Sound) {k : Nat} {x x' : BuildCall α}
    (hk : s.calls[k]? = some (.build x)) {c : FrameCache α} (hc : c.Consistent)
    (hgeneration : c.generation = s.cache.generation)
    (htoken : ∀ t, c.token = some t → s.cache.token = some t)
    (hsub : ∀ t ∈ s.cache.cancelled, t ∈ c.cancelled)
    (hcancelled : ∀ t ∈ c.cancelled, t ∈ s.cache.cancelled ∨ s.cache.token = some t)
    (heffect : x'.effect = x.effect)
    (hended : x'.build.hasEnded = false → x.build.hasEnded = false)
    (hfresh : x'.build.hasBegun = false → x'.Fresh)
    (hself : x.effect = some s.cache.generation → Owner c x')
    (hother : x.effect ≠ some s.cache.generation →
      (∀ y, Owner s.cache y → Owner c y) ∧ c.rows = s.cache.rows) :
    Sound ⟨c, s.calls.set k (.build x')⟩ where
  consistent := hc
  token_eq t ht := (h.token_eq t (htoken t ht)).trans hgeneration.symm
  cancelled_le t ht := by
    change t ≤ c.generation
    rw [hgeneration]
    rcases hcancelled t ht with hold | hold
    · exact h.cancelled_le t hold
    · exact (h.token_eq t hold).le
  effect_le j call g hj hg := by
    change g ≤ c.generation
    rw [hgeneration]
    rcases (getElem?_set_eq_some hk).mp hj with ⟨rfl, rfl⟩ | ⟨-, hj⟩
    · exact h.effect_le j _ g hk (heffect.symm.trans hg)
    · exact h.effect_le j call g hj hg
  effect_inj i j call call' g hi hj hg hg' := by
    -- a replaced call stands for the old one
    have hold : ∀ (i : Nat) (call : Call α), (s.calls.set k (.build x'))[i]? = some call →
        call.effect = some g → ∃ old, s.calls[i]? = some old ∧ old.effect = some g := by
      intro i call hi hg
      rcases (getElem?_set_eq_some hk).mp hi with ⟨rfl, rfl⟩ | ⟨-, hi⟩
      · exact ⟨_, hk, heffect.symm.trans hg⟩
      · exact ⟨call, hi, hg⟩
    obtain ⟨old, hi, hg⟩ := hold i call hi hg
    obtain ⟨old', hj, hg'⟩ := hold j call' hj hg'
    exact h.effect_inj i j old old' g hi hj hg hg'
  older j y g hj hg hy hlt := by
    apply hsub
    rw [show (Session.mk c _).cache.generation = s.cache.generation from hgeneration] at hlt
    rcases (getElem?_set_eq_some hk).mp hj with ⟨rfl, hxy⟩ | ⟨-, hj⟩
    · cases hxy
      exact h.older j x g hk (heffect.symm.trans hg) (hended hy) hlt
    · exact h.older j y g hj hg hy hlt
  owner j y hj hg := by
    rw [show (Session.mk c _).cache.generation = s.cache.generation from hgeneration] at hg
    rcases (getElem?_set_eq_some hk).mp hj with ⟨rfl, hxy⟩ | ⟨hne, hj⟩
    · cases hxy
      exact hself (heffect.symm.trans hg)
    · have hx : x.effect ≠ some s.cache.generation := fun hx =>
        hne (h.effect_inj j k _ _ _ hj hk hg hx)
      exact (hother hx).1 y (h.owner j y hj hg)
  owned hrows := by
    change ∃ (j : Nat) (y : BuildCall α), _ ∧ y.effect = some c.generation
    rw [hgeneration]
    by_cases hx : x.effect = some s.cache.generation
    · exact ⟨k, x', (getElem?_set_eq_some hk).mpr (.inl ⟨rfl, rfl⟩), heffect.trans hx⟩
    · obtain ⟨j, y, hj, hg⟩ := h.owned ((hother hx).2 ▸ hrows)
      have hne : j ≠ k := by
        rintro rfl
        rw [hk] at hj
        cases hj
        exact hx hg
      exact ⟨j, y, (getElem?_set_eq_some hk).mpr (.inr ⟨hne, hj⟩), hg⟩
  fresh j y hj hy := by
    rcases (getElem?_set_eq_some hk).mp hj with ⟨-, hxy⟩ | ⟨-, hj⟩
    · cases hxy
      exact hfresh hy
    · exact h.fresh j y hj hy

/-- A build that goes on holds the token or has been cancelled. -/
theorem Sound.mem_cancelled {s : Session α} (h : s.Sound) {k : Nat} {x : BuildCall α} {g : Nat}
    (hk : s.calls[k]? = some (.build x)) (hg : x.effect = some g)
    (hended : x.build.hasEnded = false) : g ∈ s.cache.token.toList ++ s.cache.cancelled := by
  rcases (h.effect_le k _ g hk hg).lt_or_eq with hlt | rfl
  · exact List.mem_append_right _ (h.older k x g hk hg hended hlt)
  · have hgeneration := (BuildCall.effect_eq_some_iff.mp hg).2
    rcases (h.owner k x hk hg).token hended with htoken | hmem
    · exact List.mem_append_left _ (by simp [htoken, hgeneration])
    · exact List.mem_append_right _ (hgeneration ▸ hmem)

/-- A new generation begins: the owner so far is cancelled, and the call that takes effect owns the
cache from now on. -/
theorem Sound.supersede {s : Session α} (h : s.Sound) {c : FrameCache α} (hc : c.Consistent)
    (hgeneration : c.generation = s.cache.generation + 1)
    (htoken : ∀ t, c.token = some t → t = s.cache.generation + 1)
    (hcancelled : c.cancelled = s.cache.token.toList ++ s.cache.cancelled)
    {k : Nat} {new : Call α} {calls : List (Call α)}
    (hcalls : ∀ j call, calls[j]? = some call ↔
      (j = k ∧ call = new) ∨ (j ≠ k ∧ s.calls[j]? = some call))
    (heffect : new.effect = some (s.cache.generation + 1))
    (hnew : (∃ x, new = .build x ∧ Owner c x) ∨ (∀ x, new ≠ .build x) ∧ c.rows = []) :
    Sound ⟨c, calls⟩ where
  consistent := hc
  token_eq t ht := (htoken t ht).trans hgeneration.symm
  cancelled_le t ht := by
    change t ≤ c.generation
    rw [hcancelled] at ht
    rcases List.mem_append.mp ht with htok | hold
    · have := h.token_eq t (by simpa using htok)
      omega
    · have := h.cancelled_le t hold
      omega
  effect_le j call g hj hg := by
    change g ≤ c.generation
    rcases (hcalls j call).mp hj with ⟨-, rfl⟩ | ⟨-, hj⟩
    · rw [heffect] at hg
      cases hg
      omega
    · have := h.effect_le j call g hj hg
      omega
  effect_inj i j call call' g hi hj hg hg' := by
    -- an older call cannot have begun the new generation
    have hold : ∀ (i : Nat) (call : Call α), s.calls[i]? = some call →
        call.effect = some (s.cache.generation + 1) → False := by
      intro i call hi hg
      have := h.effect_le i call _ hi hg
      omega
    rcases (hcalls i call).mp hi with ⟨rfl, rfl⟩ | ⟨hik, hi⟩ <;>
      rcases (hcalls j call').mp hj with ⟨rfl, rfl⟩ | ⟨hjk, hj⟩
    · rfl
    · exact (hold j call' hj (hg'.trans (hg.symm.trans heffect))).elim
    · exact (hold i call hi (hg.trans (hg'.symm.trans heffect))).elim
    · exact h.effect_inj i j call call' g hi hj hg hg'
  older j y g hj hg hy hlt := by
    change g ∈ c.cancelled
    rw [hcancelled]
    rcases (hcalls j _).mp hj with ⟨-, hxy⟩ | ⟨-, hj⟩
    · subst hxy
      obtain rfl : g = s.cache.generation + 1 := Option.some.inj (hg.symm.trans heffect)
      exact absurd hlt (by simp [hgeneration])
    · exact h.mem_cancelled hj hg hy
  owner j y hj hg := by
    rw [show (Session.mk c _).cache.generation = s.cache.generation + 1 from hgeneration] at hg
    rcases (hcalls j _).mp hj with ⟨-, hxy⟩ | ⟨-, hj⟩
    · rcases hnew with ⟨x, hx, howner⟩ | ⟨hx, -⟩
      · rw [hx] at hxy
        cases hxy
        exact howner
      · exact absurd hxy.symm (hx y)
    · have := h.effect_le j _ _ hj hg
      omega
  owned hrows := by
    rcases hnew with ⟨x, rfl, -⟩ | ⟨-, hempty⟩
    · exact ⟨k, x, (hcalls k _).mpr (.inl ⟨rfl, rfl⟩), heffect.trans (by rw [← hgeneration])⟩
    · exact absurd hempty hrows
  fresh j y hj hy := by
    rcases (hcalls j _).mp hj with ⟨-, hxy⟩ | ⟨-, hj⟩
    · subst hxy
      have hbegun := (BuildCall.effect_eq_some_iff.mp heffect).1
      simp [hy] at hbegun
    · exact h.fresh j y hj hy

/-! ## One step -/

/-- A build goes on without a change to the cache. -/
theorem Sound.keep {s : Session α} (h : s.Sound) {k : Nat} {x : BuildCall α}
    (hk : s.calls[k]? = some (.build x)) {b : Build α}
    {heard : List (Build.View α × SeekOutcome)} (hbegun : b.hasBegun = true)
    (hxbegun : x.build.hasBegun = true) (hgeneration : b.generation = x.build.generation)
    (hended : b.hasEnded = false → x.build.hasEnded = false)
    (hself : Owner s.cache x → x.effect = some s.cache.generation →
      Owner s.cache ⟨b, heard, x.pushed⟩) :
    Sound ⟨s.cache, s.calls.set k (.build ⟨b, heard, x.pushed⟩)⟩ := by
  refine h.replace hk h.consistent rfl (fun t ht => ht) (fun t ht => ht) (fun t ht => .inl ht)
    ?_ hended ?_ (fun hx => hself (h.owner k x hk hx) hx) (fun _ => ⟨fun _ hy => hy, rfl⟩)
  · simp [BuildCall.effect, hbegun, hxbegun, hgeneration]
  · intro hb
    exact absurd (hbegun.symm.trans hb) (by simp)

/-- The owner changes the cache. -/
theorem Sound.own {s : Session α} (h : s.Sound) {k : Nat} {x x' : BuildCall α}
    (hk : s.calls[k]? = some (.build x)) {c : FrameCache α} (hc : c.Consistent)
    (hx : x.effect = some s.cache.generation) (hgeneration : c.generation = s.cache.generation)
    (hcancelled : c.cancelled = s.cache.cancelled)
    (htoken : ∀ t, c.token = some t → s.cache.token = some t)
    (hx' : x'.effect = x.effect) (hended : x'.build.hasEnded = false → x.build.hasEnded = false)
    (howner : Owner c x') : Sound ⟨c, s.calls.set k (.build x')⟩ := by
  refine h.replace hk hc hgeneration htoken (fun t ht => hcancelled ▸ ht)
    (fun t ht => .inl (hcancelled ▸ ht)) hx' hended ?_ (fun _ => howner)
    (fun hne => absurd hx hne)
  intro hb
  have hbegun := (BuildCall.effect_eq_some_iff.mp (hx'.trans hx)).1
  simp [hb] at hbegun

theorem Sound.of_yield {s : Session α} (h : s.Sound) {k : Nat} {x : BuildCall α}
    (hk : s.calls[k]? = some (.build x)) (hp : x.build.phase = .called) :
    Sound ⟨s.cache.cancel,
      s.calls.set k (.build ⟨{ x.build with phase := .grace }, x.heard, x.pushed⟩)⟩ := by
  have hbegun : x.build.hasBegun = false := by simp [Build.hasBegun, hp]
  have hx : x.effect = none := by simp [BuildCall.effect, hbegun]
  have hold := h.fresh k x hk hbegun
  refine h.replace hk (h.consistent.of_columns rfl rfl rfl rfl) rfl (by simp [cancel])
    (fun t ht => List.mem_append_right _ ht) ?_ ?_ ?_ ?_ ?_ ?_
  · intro t ht
    rcases List.mem_append.mp ht with htok | hmem
    · exact .inr (by simpa using htok)
    · exact .inl hmem
  · rw [hx]
    rfl
  · intro _
    simp [Build.hasEnded, hp]
  · intro _
    exact ⟨congrArg (fun b : Build α => { b with phase := .grace }) hold.build_eq,
      hold.heard_eq, hold.pushed_eq⟩
  · intro hown
    exact absurd (hx.symm.trans hown) (by simp)
  · intro _
    refine ⟨fun y hy => ⟨hy.building, ?_, hy.index_lt, hy.empty, ?_, hy.complete⟩, rfl⟩
    · intro hended
      rcases hy.token hended with htok | hmem
      · exact .inr (List.mem_append_left _ (by simp [htok]))
      · exact .inr (List.mem_append_right _ hmem)
    · intro hfailed
      have hy := hy.holds hfailed
      exact ⟨hy.request, hy.rows, hy.positions, hy.progress, hy.planned⟩

theorem Sound.of_refuse {s : Session α} (h : s.Sound) {k : Nat} {x : BuildCall α}
    (hk : s.calls[k]? = some (.build x)) (planned : Nat) {b : Build α}
    (hfailed : b.hasFailed = true) (hgeneration : b.generation = s.cache.generation + 1)
    (heard : List (Build.View α × SeekOutcome)) (pushed : List (Nat × CachedFrame α)) :
    Sound ⟨{ s.cache.beginBuild x.build.request with planned }.endBuild
        (s.cache.generation + 1) false,
      s.calls.set k (.build ⟨b, heard, pushed⟩)⟩ := by
  have hended := Build.hasEnded_of_hasFailed hfailed
  have hbegun := Build.hasBegun_of_hasEnded hended
  have hend := endBuild_drop (c := { s.cache.beginBuild x.build.request with planned })
    (g := s.cache.generation + 1) rfl
  rw [hend]
  refine h.supersede (reset_consistent _) rfl (by simp [reset]) rfl
    (fun j call => getElem?_set_eq_some hk)
    (BuildCall.effect_eq_some_iff.mpr ⟨hbegun, hgeneration⟩) (.inl ⟨_, rfl, ?_⟩)
  exact ⟨by simp [reset, hended], by simp [hended], by simp [hended], fun _ => rows_reset _,
    by simp [hfailed], Build.not_complete_of_hasFailed hfailed⟩

theorem Sound.of_takeOver {s : Session α} (h : s.Sound) {k : Nat} {x : BuildCall α}
    (hk : s.calls[k]? = some (.build x)) (params : Timeline.Params α) {total : Nat} (time : α)
    (htotal : total ≠ 0) (heard : List (Build.View α × SeekOutcome)) :
    Sound ⟨{ s.cache.beginBuild x.build.request with planned := total },
      s.calls.set k (.build
        ⟨{ x.build with
            generation := s.cache.generation + 1, params, total, index := 0
            phase := .seeking .a time }, heard, []⟩)⟩ := by
  have heffect : (Call.build ⟨{ x.build with
      generation := s.cache.generation + 1, params, total, index := 0
      phase := .seeking .a time }, heard, []⟩).effect = some (s.cache.generation + 1) := rfl
  have hc : Consistent { s.cache.beginBuild x.build.request with planned := total } :=
    (reset_consistent s.cache.cancel).of_columns rfl rfl rfl rfl
  refine h.supersede hc rfl (fun t ht => (Option.some.inj ht).symm) rfl
    (fun j call => getElem?_set_eq_some hk) heffect (.inl ⟨_, rfl, ?_⟩)
  refine ⟨rfl, fun _ => .inl rfl, fun _ => Nat.pos_of_ne_zero htotal, by simp [Build.hasFailed],
    fun _ => ⟨rfl, rfl, rfl, by simp, rfl⟩, by simp⟩

theorem Sound.of_wait {s : Session α} (h : s.Sound) {k : Nat} {x : BuildCall α}
    (hk : s.calls[k]? = some (.build x)) {i : Image} {phase : Build.Phase α}
    (hseek : x.build.isSeeking = true)
    (hseek' : Build.isSeeking { x.build with captured := i, phase } = true)
    (heard : List (Build.View α × SeekOutcome)) :
    Sound ⟨s.cache, s.calls.set k (.build
      ⟨{ x.build with captured := i, phase }, heard, x.pushed⟩)⟩ := by
  have hnot := Build.hasEnded_of_isSeeking hseek
  have hnot' := Build.hasEnded_of_isSeeking hseek'
  refine h.keep hk (Build.hasBegun_of_isSeeking hseek') (Build.hasBegun_of_isSeeking hseek) rfl
    (fun _ => hnot) ?_
  intro howner _
  have hholds := howner.holds (Build.hasFailed_of_not_hasEnded hnot)
  refine ⟨by rw [howner.building, hnot, hnot'], fun _ => howner.token hnot,
    fun _ => howner.index_lt hnot, ?_, fun _ => ?_, ?_⟩
  · intro hfailed
    exact absurd (Build.hasFailed_of_not_hasEnded hnot') (by simp [hfailed])
  · refine hholds.congr rfl rfl rfl rfl (fun _ => rfl) rfl ?_
    rw [Build.stored_of_isSeeking hseek, Build.stored_of_isSeeking hseek']
  · intro n hn
    have hp : phase = .ended (.complete n) := hn
    simp [Build.hasEnded, hp] at hnot'

theorem Sound.of_advance {s : Session α} (h : s.Sound) {k : Nat} {x : BuildCall α}
    (hk : s.calls[k]? = some (.build x)) (hreport : x.build.isReporting = true)
    (hlt : x.build.index + 1 < x.build.total) (time : α)
    (heard : List (Build.View α × SeekOutcome)) :
    Sound ⟨s.cache, s.calls.set k (.build
      ⟨{ x.build with index := x.build.index + 1, phase := .seeking .a time }, heard,
        x.pushed⟩)⟩ := by
  have hnot := Build.hasEnded_of_isReporting hreport
  refine h.keep hk rfl (Build.hasBegun_of_isReporting hreport) rfl (fun _ => hnot) ?_
  intro howner _
  have hholds := howner.holds (Build.hasFailed_of_not_hasEnded hnot)
  refine ⟨by rw [howner.building, hnot]; rfl, fun _ => howner.token hnot, fun _ => hlt,
    by simp [Build.hasFailed], fun _ => ?_, by simp⟩
  refine hholds.congr rfl rfl rfl rfl (fun _ => rfl) rfl ?_
  rw [Build.stored_of_isReporting hreport]
  rfl

theorem Sound.of_fail {s : Session α} (h : s.Sound) {k : Nat} {x : BuildCall α}
    (hk : s.calls[k]? = some (.build x)) (hbegun : x.build.hasBegun = true) {b : Build α}
    (hfailed : b.hasFailed = true) (hgeneration : b.generation = x.build.generation)
    (heard : List (Build.View α × SeekOutcome)) :
    Sound ⟨s.cache.endBuild x.build.generation false,
      s.calls.set k (.build ⟨b, heard, x.pushed⟩)⟩ := by
  have hend := Build.hasEnded_of_hasFailed hfailed
  have hb := Build.hasBegun_of_hasEnded hend
  by_cases hx : x.effect = some s.cache.generation
  · have hgen := (BuildCall.effect_eq_some_iff.mp hx).2
    have hb' : BuildCall.effect ⟨b, heard, x.pushed⟩ = x.effect := by
      simp [BuildCall.effect, hb, hbegun, hgeneration]
    rw [endBuild_drop hgen.symm]
    refine h.own hk (reset_consistent _) hx rfl rfl (by simp [reset]) hb' (by simp [hend]) ?_
    exact ⟨by simp [reset, hend], by simp [hend], by simp [hend], fun _ => rows_reset _,
      by simp [hfailed], Build.not_complete_of_hasFailed hfailed⟩
  · have hne : s.cache.generation ≠ x.build.generation := fun hgen =>
      hx (BuildCall.effect_eq_some_iff.mpr ⟨hbegun, hgen.symm⟩)
    rw [endBuild_of_ne hne]
    exact h.keep hk hb hbegun hgeneration (by simp [hend]) (fun _ hown => absurd hown hx)

theorem Sound.of_complete {s : Session α} (h : s.Sound) {k : Nat} {x : BuildCall α}
    (hk : s.calls[k]? = some (.build x)) (hreport : x.build.isReporting = true)
    (hlast : x.build.total ≤ x.build.index + 1)
    (heard : List (Build.View α × SeekOutcome)) :
    Sound ⟨s.cache.endBuild x.build.generation true,
      s.calls.set k (.build ⟨{ x.build with
        index := x.build.index + 1, phase := .ended (.complete x.build.total) }, heard,
        x.pushed⟩)⟩ := by
  have hbegun := Build.hasBegun_of_isReporting hreport
  by_cases hx : x.effect = some s.cache.generation
  · have hgen := (BuildCall.effect_eq_some_iff.mp hx).2
    have howner := h.owner k x hk hx
    have hnot := Build.hasEnded_of_isReporting hreport
    have hlt := howner.index_lt hnot
    have hholds := howner.holds (Build.hasFailed_of_not_hasEnded hnot)
    rw [endBuild_keep hgen.symm]
    refine h.own hk (h.consistent.of_columns rfl rfl rfl rfl) hx rfl rfl (by simp)
      (BuildCall.effect_of_hasBegun hbegun).symm (by simp [Build.hasEnded]) ?_
    refine ⟨rfl, by simp [Build.hasEnded], by simp [Build.hasEnded],
      by simp [Build.hasFailed, BuildOutcome.isSuccess], fun _ => ?_, by simp⟩
    refine hholds.congr rfl rfl rfl rfl (fun _ => rfl) rfl ?_
    have hstored := Build.stored_of_isReporting hreport
    have hthis : x.build.total = x.build.index + 1 := by omega
    rw [hstored, ← hthis]
    rfl
  · have hne : s.cache.generation ≠ x.build.generation := fun hgen =>
      hx (BuildCall.effect_eq_some_iff.mpr ⟨hbegun, hgen.symm⟩)
    rw [endBuild_of_ne hne]
    exact h.keep hk rfl hbegun rfl (by simp [Build.hasEnded]) (fun _ hown => absurd hown hx)

theorem Sound.of_push {s : Session α} (h : s.Sound) {k : Nat} {x : BuildCall α}
    (hk : s.calls[k]? = some (.build x)) (hseek : x.build.isSeeking = true)
    (hgeneration : s.cache.generation = x.build.generation) (f : CachedFrame α)
    (hf : f.progress = x.build.sample.progress) (progress : α)
    (heard : List (Build.View α × SeekOutcome)) :
    Sound ⟨s.cache.push f progress, s.calls.set k (.build
      ⟨{ x.build with captured := f.frameA, phase := .report progress }, heard,
        x.pushed ++ [(x.build.index, f)]⟩)⟩ := by
  have hbegun := Build.hasBegun_of_isSeeking hseek
  have hnot := Build.hasEnded_of_isSeeking hseek
  have hx := BuildCall.effect_eq_some_iff.mpr ⟨hbegun, hgeneration.symm⟩
  have howner := h.owner k x hk hx
  have hholds := howner.holds (Build.hasFailed_of_not_hasEnded hnot)
  refine h.own hk (h.consistent.push _ _) hx rfl rfl (fun t ht => ht)
    (BuildCall.effect_of_hasBegun hbegun).symm (fun _ => hnot) ?_
  refine ⟨?_, fun _ => howner.token hnot, fun _ => howner.index_lt hnot,
    by simp [Build.hasFailed], fun _ => ?_, by simp⟩
  · exact howner.building.trans (by rw [hnot]; rfl)
  · exact hholds.push h.consistent hseek f hf progress rfl (fun _ => rfl) rfl rfl

theorem Sound.of_fill {s : Session α} (h : s.Sound) {k : Nat} {x : BuildCall α}
    (hk : s.calls[k]? = some (.build x)) (hseek : x.build.isSeeking = true)
    (hgeneration : s.cache.generation = x.build.generation) (f : CachedFrame α)
    (hf : f.progress = x.build.sample.progress) (progress : α)
    (heard : List (Build.View α × SeekOutcome)) :
    Sound ⟨(s.cache.push f progress).endBuild x.build.generation true, s.calls.set k (.build
      ⟨{ x.build with captured := f.frameA, phase := .ended (.truncated (x.build.index + 1)) },
        heard, x.pushed ++ [(x.build.index, f)]⟩)⟩ := by
  have hbegun := Build.hasBegun_of_isSeeking hseek
  have hnot := Build.hasEnded_of_isSeeking hseek
  have hx := BuildCall.effect_eq_some_iff.mpr ⟨hbegun, hgeneration.symm⟩
  have howner := h.owner k x hk hx
  have hholds := howner.holds (Build.hasFailed_of_not_hasEnded hnot)
  have hend := endBuild_keep (c := s.cache.push f progress) hgeneration
  rw [hend]
  refine h.own hk ((h.consistent.push f progress).of_columns rfl rfl rfl rfl) hx rfl rfl (by simp)
    (BuildCall.effect_of_hasBegun hbegun).symm (fun _ => hnot) ?_
  refine ⟨rfl, by simp [Build.hasEnded], by simp [Build.hasEnded],
    by simp [Build.hasFailed, BuildOutcome.isSuccess], fun _ => ?_, by simp⟩
  have hpush : Holds (s.cache.push f progress)
      ⟨{ x.build with
          captured := f.frameA, phase := .ended (.truncated (x.build.index + 1)) },
        heard, x.pushed ++ [(x.build.index, f)]⟩ :=
    hholds.push h.consistent hseek f hf progress rfl (fun _ => rfl) rfl rfl
  exact ⟨hpush.request, hpush.rows, hpush.positions, hpush.progress, hpush.planned⟩

/-- The step of one call, by the kinds of moves. -/
theorem Sound.of_move {s : Session α} (h : s.Sound) {k : Nat} {x : BuildCall α}
    (hk : s.calls[k]? = some (.build x)) {y : Build.Running α}
    (hmove : Build.Move s.cache x.build y) {heard : List (Build.View α × SeekOutcome)}
    (hheard : y.2.hasBegun = false → heard = x.heard) :
    Sound ⟨y.1, s.calls.set k (.build ⟨y.2, heard,
      x.pushed ++ (y.1.rows.drop s.cache.rows.length).map (x.build.index, ·)⟩)⟩ := by
  cases hmove with
  | yield hp =>
      have hdrop : s.cache.cancel.rows.drop s.cache.rows.length = [] := List.drop_length
      rw [hdrop, List.map_nil, List.append_nil, hheard rfl]
      exact h.of_yield hk hp
  | refuse planned b _ hfailed hgeneration _ =>
      exact h.of_refuse hk planned hfailed hgeneration heard _
  | takeOver params total time hbegun htotal =>
      have hdrop : ({ s.cache.beginBuild x.build.request with
          planned := total } : FrameCache α).rows.drop s.cache.rows.length = [] := List.drop_nil
      rw [hdrop, List.map_nil, List.append_nil, (h.fresh k x hk hbegun).pushed_eq]
      exact h.of_takeOver hk params time htotal heard
  | wait b i phase hseek hb hseek' =>
      subst hb
      simp only [List.drop_length, List.map_nil, List.append_nil]
      exact h.of_wait hk hseek hseek' heard
  | push frameA frameB progress hseek hgeneration =>
      rw [h.consistent.rows_push, List.drop_left]
      exact h.of_push hk hseek hgeneration ⟨frameA, frameB, _⟩ rfl progress heard
  | fill frameA frameB progress hseek hgeneration =>
      have hrows := h.consistent.rows_push ⟨frameA, frameB, x.build.sample.progress⟩ progress
      rw [rows_endBuild_keep, hrows, List.drop_left]
      exact h.of_fill hk hseek hgeneration ⟨frameA, frameB, _⟩ rfl progress heard
  | advance time hreport hlt =>
      simp only [List.drop_length, List.map_nil, List.append_nil]
      exact h.of_advance hk hreport hlt time heard
  | complete hreport hlast =>
      rw [rows_endBuild_keep, List.drop_length, List.map_nil, List.append_nil]
      exact h.of_complete hk hreport hlast heard
  | fail b hbegun hnot hfailed hgeneration _ =>
      have hdrop : (s.cache.endBuild x.build.generation false).rows.drop
          s.cache.rows.length = [] := by
        rcases eq_or_ne s.cache.generation x.build.generation with heq | hne
        · rw [endBuild_drop heq]
          exact List.drop_nil
        · rw [endBuild_of_ne hne, List.drop_length]
      rw [hdrop, List.map_nil, List.append_nil]
      exact h.of_fail hk hbegun hfailed hgeneration heard
  | rest hend =>
      have hbegun := Build.hasBegun_of_hasEnded hend
      simp only [List.drop_length, List.map_nil, List.append_nil]
      refine h.keep hk hbegun hbegun rfl (fun hnot => hnot) ?_
      intro howner _
      refine ⟨howner.building, howner.token, howner.index_lt, howner.empty, fun hfailed => ?_,
        howner.complete⟩
      exact (howner.holds hfailed).congr rfl rfl rfl rfl (fun _ => rfl) rfl rfl

end Session

end FrameCache

end Segue
