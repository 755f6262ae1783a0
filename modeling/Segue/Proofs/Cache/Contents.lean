import Mathlib
import Segue.Proofs.Cache.Ownership

/-!
# What a cache holds

However the calls of a cache interleave, its rows are those of one build, the latest one, position
by position. Builds that it has replaced are cancelled and out of touch with it, and what readers
are offered as ready is all that a build took before it ended.
-/

namespace Segue

variable {α : Type} [Scalar α]

namespace FrameCache.Session

/-! ## Every run is sound -/

/-- A build that was only just called changes nothing. -/
theorem Sound.call {s : Session α} (h : s.Sound) (request : CacheRequest α) :
    (s.call request).Sound := by
  have hnone : (BuildCall.make request).effect = none := rfl
  have hold : ∀ {j : Nat} {call : Call α} {g : Nat},
      (s.calls ++ [Call.build (.make request)])[j]? = some call → call.effect = some g →
        s.calls[j]? = some call := by
    intro j call g hj hg
    rcases getElem?_append_eq_some.mp hj with ⟨-, rfl⟩ | ⟨-, hj⟩
    · exact absurd (hnone.symm.trans hg) (by simp)
    · exact hj
  refine ⟨h.consistent, h.token_eq, h.cancelled_le, ?_, ?_, ?_, ?_, ?_, ?_⟩
  · intro k call g hk hg
    exact h.effect_le k call g (hold hk hg) hg
  · intro k l call call' g hk hl hg hg'
    exact h.effect_inj k l call call' g (hold hk hg) (hold hl hg') hg hg'
  · intro k x g hk hg
    exact h.older k x g (hold hk hg) hg
  · intro k x hk hg
    exact h.owner k x (hold hk hg) hg
  · intro hrows
    obtain ⟨k, x, hk, hg⟩ := h.owned hrows
    have hne : k ≠ s.calls.length := (List.getElem?_eq_some_iff.mp hk).1.ne
    exact ⟨k, x, getElem?_append_eq_some.mpr (.inr ⟨hne, hk⟩), hg⟩
  · intro k x hk hbegun
    rcases getElem?_append_eq_some.mp hk with ⟨-, hx⟩ | ⟨-, hk⟩
    · cases hx
      exact ⟨rfl, rfl, rfl⟩
    · exact h.fresh k x hk hbegun

theorem Sound.advance {s : Session α} (h : s.Sound) (k : Nat) (v : Build.View α)
    (sought : SeekOutcome) : (s.advance k v sought).Sound := by
  rcases advance_cases s k v sought with ⟨x, hk, heq⟩ | heq
  · rw [heq]
    exact h.of_move hk (Build.resume_move v sought s.cache x.build)
      BuildCall.heard_resume_of_not_hasBegun
  · rw [heq]
    exact h

theorem Sound.clear {s : Session α} (h : s.Sound) :
    Sound ⟨s.cache.clear, s.calls ++ [.clear (s.cache.generation + 1)]⟩ := by
  have hc : s.cache.clear.Consistent := ⟨rfl, rfl, rfl⟩
  have htoken : ∀ t, s.cache.clear.token = some t → t = s.cache.generation + 1 := by
    simp [FrameCache.clear, reset, cancel]
  refine h.supersede hc rfl htoken rfl (fun j call => getElem?_append_eq_some) rfl (.inr ⟨?_, rfl⟩)
  intro x hx
  cases hx

theorem Sound.step {s : Session α} (h : s.Sound) (e : Event α) : (s.step e).Sound := by
  cases e with
  | build request v => exact (h.call request).advance s.calls.length v .completed
  | resume k v sought => exact h.advance k v sought
  | clear => exact h.clear

theorem sound_run (config : CacheConfig) (margin : α) (scale : Resampler)
    (events : List (Event α)) :
    ((start config margin scale).run events).Sound :=
  run_induction (fun _ e hs => hs.step e) (sound_start config margin scale) events

/-! ## The contents -/

/-- What is true of a cache at any time of a session. -/
structure Contents (s : Session α) : Prop where
  consistent : s.cache.Consistent
  /-- The rows are those that the build of the present generation has stored, each at its
  position. -/
  owned : s.cache.size ≠ 0 → ∃ (k : Nat) (x : BuildCall α), s.calls[k]? = some (.build x) ∧
    x.effect = some s.cache.generation ∧ s.cache.request = some x.build.request ∧
    x.pushed.length = s.cache.size ∧
    ∀ i < s.cache.size, ∃ f, s.cache.row? i = some f ∧ x.pushed[i]? = some (i, f) ∧
      f.progress = { x.build with index := i }.sample.progress
  /-- A build of an older generation that has not ended is cancelled and changes nothing any
  more. -/
  superseded : ∀ (k : Nat) (x : BuildCall α) (g : Nat), s.calls[k]? = some (.build x) →
    x.effect = some g → x.build.hasEnded = false → g < s.cache.generation →
    s.cache.isCancelled g = true ∧
      ∀ (later : List (Event α)) (v : Build.View α) (sought : SeekOutcome),
        ((s.run later).advance k v sought).cache = (s.run later).cache
  /-- What is ready is all that a build has stored, and that build has ended with it. -/
  ready : s.cache.isReady = true → ∃ (k : Nat) (x : BuildCall α),
    s.calls[k]? = some (.build x) ∧ x.effect = some s.cache.generation ∧
    s.cache.rows = x.pushed.map Prod.snd ∧
    (x.build.phase = .ended (.complete s.cache.size) ∧ s.cache.size = x.build.total ∨
      x.build.phase = .ended (.truncated s.cache.size))

theorem Sound.rows_ne_nil {s : Session α} (h : s.Sound) (hsize : s.cache.size ≠ 0) :
    s.cache.rows ≠ [] := by
  intro hrows
  exact hsize (by rw [← h.consistent.length_rows, hrows, List.length_nil])

/-- A cache with rows holds what its owner has pushed. -/
theorem Sound.exists_holds {s : Session α} (h : s.Sound) (hsize : s.cache.size ≠ 0) :
    ∃ (k : Nat) (x : BuildCall α), s.calls[k]? = some (.build x) ∧
      x.effect = some s.cache.generation ∧ Owner s.cache x ∧ x.build.hasFailed = false ∧
      Holds s.cache x ∧ x.build.stored = s.cache.size := by
  have hrows := h.rows_ne_nil hsize
  obtain ⟨k, x, hk, hg⟩ := h.owned hrows
  have howner := h.owner k x hk hg
  have hfailed : x.build.hasFailed = false := by
    rw [← Bool.not_eq_true]
    exact fun hfailed => hrows (howner.empty hfailed)
  have hholds := howner.holds hfailed
  refine ⟨k, x, hk, hg, howner, hfailed, hholds, ?_⟩
  have hlength := congrArg List.length hholds.positions
  rw [← h.consistent.length_rows, hholds.rows, List.length_map]
  simpa using hlength.symm

theorem Sound.contents {s : Session α} (h : s.Sound) : s.Contents where
  consistent := h.consistent
  owned hsize := by
    obtain ⟨k, x, hk, hg, -, -, hholds, hstored⟩ := h.exists_holds hsize
    refine ⟨k, x, hk, hg, hholds.request, ?_, ?_⟩
    · rw [← h.consistent.length_rows, hholds.rows, List.length_map]
    · intro i hi
      exact hholds.row h.consistent (hstored ▸ hi)
  superseded k x g hk hg hended hlt := by
    refine ⟨by simpa [isCancelled] using h.older k x g hk hg hended hlt, ?_⟩
    intro later v sought
    have heffect : (s.run later).TookEffect k g := TookEffect.run ⟨.build x, hk, hg⟩ later
    exact heffect.cache_advance (hlt.trans_le (generation_le_run s later)) v sought
  ready hready := by
    have hsize : s.cache.size ≠ 0 := by
      intro hsize
      have hempty : s.cache.framesA.isEmpty = true := by simpa [Array.isEmpty, size] using hsize
      simp [isReady, hempty] at hready
    have hbuilding : s.cache.building = false := by
      simp only [isReady, Bool.and_eq_true, Bool.not_eq_true'] at hready
      exact hready.1.1
    obtain ⟨k, x, hk, hg, howner, hfailed, hholds, hstored⟩ := h.exists_holds hsize
    have hended : x.build.hasEnded = true := by
      simpa [hbuilding] using howner.building
    refine ⟨k, x, hk, hg, hholds.rows, ?_⟩
    rw [← hstored]
    cases hp : x.build.phase with
    | ended o =>
        cases o with
        | complete n =>
            have hn : x.build.stored = n := by simp [Build.stored, hp]
            exact .inl ⟨by rw [hn], hn.trans (howner.complete n hp)⟩
        | truncated n =>
            have hn : x.build.stored = n := by simp [Build.stored, hp]
            exact .inr (by rw [hn])
        | cancelled => simp [Build.hasFailed, hp, BuildOutcome.isSuccess] at hfailed
        | failed _ => simp [Build.hasFailed, hp, BuildOutcome.isSuccess] at hfailed
    | called => simp [Build.hasEnded, hp] at hended
    | grace => simp [Build.hasEnded, hp] at hended
    | seeking _ _ => simp [Build.hasEnded, hp] at hended
    | settling _ => simp [Build.hasEnded, hp] at hended
    | report _ => simp [Build.hasEnded, hp] at hended

/-- However builds, clearings and readers interleave, the cache holds what it should. -/
theorem contents_run (config : CacheConfig) (margin : α) (scale : Resampler)
    (events : List (Event α)) :
    ((start config margin scale).run events).Contents :=
  (sound_run config margin scale events).contents

end FrameCache.Session

end Segue
