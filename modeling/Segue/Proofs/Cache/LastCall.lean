import Mathlib
import Segue.Proofs.Cache.Alone
import Segue.Rehearsal.Stage

/-!
# Whose frames a cache shows in the end

Calls take effect one after another, each with a new generation, and once all have returned the
cache is as the last of them to take effect leaves it. A clearing takes effect when it is made. A
build that finds another one under way rests first, and what is called during its rest takes effect
before it. So the last call to be made has the last word only if no other build rests when it takes
effect.
-/

namespace Segue

variable {α : Type} [Scalar α]

namespace Build

/-- A build that has not begun rests or takes the cache over. -/
theorem resume_of_not_hasBegun {c : FrameCache α} {b : Build α} (h : b.hasBegun = false)
    (v : View α) (sought : SeekOutcome) :
    (c.token.isSome = true ∧ b.resume v sought c = (c.cancel, { b with phase := .grace })) ∨
      b.resume v sought c = takeOver v c b := by
  unfold resume
  cases hp : b.phase with
  | called =>
      simp only [start]
      split
      · rename_i hbusy
        exact .inl ⟨(Bool.and_eq_true _ _ ▸ hbusy).2, rfl⟩
      · exact .inr rfl
  | grace => exact .inr rfl
  | seeking => simp [hasBegun, hp] at h
  | settling => simp [hasBegun, hp] at h
  | report => simp [hasBegun, hp] at h
  | ended => simp [hasBegun, hp] at h

end Build

namespace FrameCache

/-- What a call leaves of a cache that nothing else is done with. -/
def Call.leaves (config : CacheConfig) (margin : α) (scale : Resampler) : Call α → FrameCache α
  | .build x => (Build.alone config margin scale x.build.request x.heard).1
  | .clear _ => (FrameCache.make config margin scale).clear

def Call.Agrees (config : CacheConfig) (margin : α) (scale : Resampler)
    (c : FrameCache α) : Call α → Prop
  | .build x => Build.unnumber (c, x.build) =
      Build.unnumber (Build.alone config margin scale x.build.request x.heard)
  | .clear _ => c.unnumbered = (FrameCache.make config margin scale).clear.unnumbered

theorem Call.Agrees.leaves {config : CacheConfig} {margin : α} {scale : Resampler}
    {c : FrameCache α} {call : Call α}
    (h : call.Agrees config margin scale c) :
    c.unnumbered = (call.leaves config margin scale).unnumbered := by
  cases call with
  | build x => exact congrArg Prod.fst h
  | clear _ => exact h

/-- The build that owns the cache goes on and still stands as it would on its own. -/
theorem Call.Agrees.resume {config : CacheConfig} {margin : α} {scale : Resampler}
    {c : FrameCache α}
    {x : BuildCall α} (h : Call.Agrees config margin scale c (.build x))
    (hown : Build.Owns c x.build)
    (hbegun : x.build.hasBegun = true) (v : Build.View α) (sought : SeekOutcome) :
    Call.Agrees config margin scale (x.resume v sought c).1 (.build (x.resume v sought c).2) := by
  have hheard : x.heard ≠ [] := by
    intro hnil
    have hphase : x.build.phase = .called := by
      have hbuild := congrArg (fun y => y.2.phase) h
      rw [hnil] at hbuild
      exact hbuild
    simp [Build.hasBegun, hphase] at hbegun
  obtain ⟨hown', hbegun'⟩ := Build.alone_owns config margin scale x.build.request x.heard hheard
  have hmove := Build.resume_move v sought c x.build
  have hlist : (x.resume v sought c).2.heard = x.heard ++ [(v, sought)] :=
    if_pos (hmove.hasBegun hbegun).1
  have hcache : c.unnumbered =
      (Build.alone config margin scale x.build.request x.heard).1.unnumbered := congrArg Prod.fst h
  have hbuild : x.build.unnumbered =
      (Build.alone config margin scale x.build.request x.heard).2.unnumbered := congrArg Prod.snd h
  change Build.unnumber (x.build.resume v sought c) =
    Build.unnumber (Build.alone config margin scale (x.build.resume v sought c).2.request
      (x.resume v sought c).2.heard)
  rw [hlist, hmove.request, Build.alone_append, Build.resume_unnumber hown hbegun,
    Build.resume_unnumber hown' hbegun', hcache, hbuild]

namespace Session

/-! ## Only a cancellation makes a difference -/

/-- Unless it has been cancelled, the owner of the cache stands as it would on its own. -/
structure Undisturbed (config : CacheConfig) (margin : α) (scale : Resampler)
    (s : Session α) : Prop where
  sound : s.Sound
  tuning : s.cache.SameTuning (make config margin scale)
  /-- A build cancels the owner only to take the cache over itself. -/
  pending : s.cache.isCancelled s.cache.generation = true →
    ∃ (k : Nat) (x : BuildCall α), s.calls[k]? = some (.build x) ∧ x.build.hasBegun = false
  owner : s.cache.generation ≠ 0 → ∃ k, s.TookEffect k s.cache.generation
  agrees : s.cache.isCancelled s.cache.generation = false → ∀ (k : Nat) (call : Call α),
    s.calls[k]? = some call → call.effect = some s.cache.generation →
    call.Agrees config margin scale s.cache

theorem Sound.hasNext {s : Session α} (h : s.Sound) : Build.HasNext s.cache := by
  intro t ht
  rcases List.mem_append.mp ht with htok | hmem
  · exact (h.token_eq t (by simpa using htok)).le
  · exact h.cancelled_le t hmem

theorem undisturbed_start (config : CacheConfig) (margin : α) (scale : Resampler) :
    (start config margin scale).Undisturbed config margin scale where
  sound := sound_start config margin scale
  tuning := .refl _
  pending := by simp [start, make, isCancelled]
  owner := by simp [start, make]
  agrees := by simp [start]

variable {config : CacheConfig} {margin : α} {scale : Resampler}

theorem Undisturbed.call {s : Session α} (h : s.Undisturbed config margin scale)
    (request : CacheRequest α) : (s.call request).Undisturbed config margin scale where
  sound := h.sound.call request
  tuning := h.tuning
  pending _ := ⟨s.calls.length, .make request, getElem?_append_eq_some.mpr (.inl ⟨rfl, rfl⟩), rfl⟩
  owner hne := by
    obtain ⟨k, hk⟩ := h.owner hne
    exact ⟨k, hk.append s.cache _⟩
  agrees hrunning k call hk hg := by
    rcases getElem?_append_eq_some.mp hk with ⟨-, rfl⟩ | ⟨-, hk⟩
    · cases hg
    · exact h.agrees hrunning k call hk hg

theorem Undisturbed.clear {s : Session α} (h : s.Undisturbed config margin scale) :
    Undisturbed config margin scale
      ⟨s.cache.clear, s.calls ++ [.clear (s.cache.generation + 1)]⟩ := by
  have hnot := h.sound.hasNext.not_mem
  have hrunning : s.cache.clear.isCancelled (s.cache.generation + 1) = false := by
    simpa [isCancelled, FrameCache.clear, reset, cancel] using hnot
  have htuning : s.cache.clear.SameTuning s.cache := ⟨rfl, rfl, rfl⟩
  refine ⟨h.sound.clear, htuning.trans h.tuning, ?_, ?_, ?_⟩
  · intro hcancelled
    exact absurd (hcancelled.symm.trans hrunning) (by simp)
  · intro _
    exact ⟨s.calls.length, _, getElem?_append_eq_some.mpr (.inl ⟨rfl, rfl⟩), rfl⟩
  · intro _ k call hk hg
    rcases getElem?_append_eq_some.mp hk with ⟨-, rfl⟩ | ⟨-, hk⟩
    · simp only [Call.Agrees, unnumbered, FrameCache.clear, reset, cancel, make,
        h.tuning.config_eq, h.tuning.margin_eq, h.tuning.resampler_eq]
    · have hle := h.sound.effect_le k call _ hk hg
      exact absurd hle (Nat.not_succ_le_self _)

/-- A build that has begun goes on. -/
theorem Undisturbed.of_hasBegun {s : Session α} (h : s.Undisturbed config margin scale)
    {k : Nat}
    {x : BuildCall α} (hk : s.calls[k]? = some (.build x)) (hbegun : x.build.hasBegun = true)
    (v : Build.View α) (sought : SeekOutcome) :
    (s.advance k v sought).Undisturbed config margin scale := by
  have hsound := h.sound.advance k v sought
  have hkeep : ∀ {j g : Nat}, s.TookEffect j g → (s.advance k v sought).TookEffect j g :=
    fun heffect => heffect.advance k v sought
  rw [advance_of_build hk] at hsound hkeep ⊢
  have hmove := Build.resume_move v sought s.cache x.build
  have hgen : (x.resume v sought s.cache).1.generation = s.cache.generation := by
    rcases hmove.generation with ⟨hsame, -⟩ | ⟨hnot, -⟩
    · exact hsame
    · simp [hbegun] at hnot
  have hcancelled : ∀ t,
      (x.resume v sought s.cache).1.isCancelled t = s.cache.isCancelled t := by
    intro t
    have hlist := hmove.cancelled
    rw [if_pos hbegun] at hlist
    simp only [isCancelled, BuildCall.resume_fst, hlist]
  refine ⟨hsound, hmove.tuning.trans h.tuning, ?_, ?_, ?_⟩
  · intro hcancel
    obtain ⟨j, y, hj, hy⟩ := h.pending (by rwa [← hcancelled, ← hgen])
    have hne : j ≠ k := by
      rintro rfl
      obtain rfl : x = y := by simpa using hk.symm.trans hj
      simp [hbegun] at hy
    exact ⟨j, y, (getElem?_set_eq_some hk).mpr (.inr ⟨hne, hj⟩), hy⟩
  · intro hne
    obtain ⟨j, hj⟩ := h.owner (hgen ▸ hne)
    exact ⟨j, hgen.symm ▸ hkeep hj⟩
  · intro hrunning j call hj hg
    change call.effect = some (x.resume v sought s.cache).1.generation at hg
    rw [hgen] at hg
    have hrunning' : s.cache.isCancelled s.cache.generation = false := by
      rwa [← hcancelled, ← hgen]
    rcases (getElem?_set_eq_some hk).mp hj with ⟨rfl, rfl⟩ | ⟨hne, hj⟩
    · have hx : x.effect = some s.cache.generation := by
        have hnew := (BuildCall.effect_eq_some_iff.mp hg).2
        exact BuildCall.effect_eq_some_iff.mpr ⟨hbegun, (hmove.hasBegun hbegun).2.symm.trans hnew⟩
      have hgen' := (BuildCall.effect_eq_some_iff.mp hx).2
      have hown : Build.Owns s.cache x.build := ⟨hgen'.symm, hgen' ▸ hrunning'⟩
      exact (h.agrees hrunning' j _ hk hx).resume hown hbegun v sought
    · have hstale : s.cache.generation ≠ x.build.generation := by
        intro heq
        have hx : x.effect = some s.cache.generation :=
          BuildCall.effect_eq_some_iff.mpr ⟨hbegun, heq.symm⟩
        exact hne (h.sound.effect_inj j k _ _ _ hj hk hg hx)
      have hcache : (x.resume v sought s.cache).1 = s.cache := hmove.stale hbegun hstale
      change call.Agrees config margin scale (x.resume v sought s.cache).1
      rw [hcache]
      exact h.agrees hrunning' j call hj hg

/-- A build that has rested, or need not, takes the cache over. -/
theorem Undisturbed.of_takeOver {s : Session α} (h : s.Undisturbed config margin scale)
    {k : Nat}
    {x : BuildCall α} (hk : s.calls[k]? = some (.build x)) (hbegun : x.build.hasBegun = false)
    {v : Build.View α} {sought : SeekOutcome}
    (hresume : x.build.resume v sought s.cache = Build.takeOver v s.cache x.build) :
    (s.advance k v sought).Undisturbed config margin scale := by
  have hsound := h.sound.advance k v sought
  rw [advance_of_build hk] at hsound ⊢
  have hmove := Build.resume_move v sought s.cache x.build
  have hfresh := h.sound.fresh k x hk hbegun
  obtain ⟨hown, hnow⟩ := Build.takeOver_owns h.sound.hasNext v x.build
  rw [← hresume] at hown hnow
  have hgen : (x.resume v sought s.cache).1.generation = s.cache.generation + 1 := by
    rcases hmove.generation with ⟨-, hsame⟩ | ⟨-, hnext, -⟩
    · exact absurd (hnow.symm.trans hsame) (by simp [hbegun])
    · exact hnext
  have heffect : (x.resume v sought s.cache).2.effect =
      some (x.resume v sought s.cache).1.generation :=
    BuildCall.effect_eq_some_iff.mpr ⟨hnow, hown.generation.symm⟩
  refine ⟨hsound, hmove.tuning.trans h.tuning, ?_, ?_, ?_⟩
  · intro hcancelled
    have hrunning := hown.running
    rw [← hown.generation] at hrunning
    exact absurd (hcancelled.symm.trans hrunning) (by simp)
  · intro _
    exact ⟨k, _, (getElem?_set_eq_some hk).mpr (.inl ⟨rfl, rfl⟩), heffect⟩
  · intro _ j call hj hg
    rcases (getElem?_set_eq_some hk).mp hj with ⟨rfl, rfl⟩ | ⟨-, hj⟩
    · have hheard : (x.resume v sought s.cache).2.heard = [(v, sought)] := by
        have hlist : (x.resume v sought s.cache).2.heard = x.heard ++ [(v, sought)] := if_pos hnow
        rw [hlist, hfresh.heard_eq, List.nil_append]
      have hnew := Build.takeOver_unnumber h.sound.hasNext (Build.hasNext_make config margin scale)
        h.tuning.symm v x.build
      change Build.unnumber (x.build.resume v sought s.cache) =
        Build.unnumber (Build.alone config margin scale (x.build.resume v sought s.cache).2.request
          (x.resume v sought s.cache).2.heard)
      rw [hheard, hmove.request, hresume, hnew, hfresh.build_eq, Build.takeOver_phase]
      rfl
    · change call.effect = some (x.resume v sought s.cache).1.generation at hg
      rw [hgen] at hg
      exact absurd (h.sound.effect_le j call _ hj hg) (Nat.not_succ_le_self _)

theorem Undisturbed.of_yield {s : Session α} (h : s.Undisturbed config margin scale) {k : Nat}
    {x : BuildCall α} (hk : s.calls[k]? = some (.build x)) {v : Build.View α}
    {sought : SeekOutcome} (htoken : s.cache.token.isSome = true)
    (hresume :
      x.build.resume v sought s.cache = (s.cache.cancel, { x.build with phase := .grace })) :
    (s.advance k v sought).Undisturbed config margin scale := by
  have hsound := h.sound.advance k v sought
  have hkeep : ∀ {j g : Nat}, s.TookEffect j g → (s.advance k v sought).TookEffect j g :=
    fun heffect => heffect.advance k v sought
  rw [advance_of_build hk] at hsound hkeep ⊢
  have hcache : (x.resume v sought s.cache).1 = s.cache.cancel := congrArg Prod.fst hresume
  have hcancelled : s.cache.cancel.isCancelled s.cache.generation = true := by
    obtain ⟨t, ht⟩ := Option.isSome_iff_exists.mp htoken
    simp [isCancelled, cancel, ht, h.sound.token_eq t ht]
  rw [hcache] at hsound hkeep ⊢
  have htuning : s.cache.cancel.SameTuning s.cache := ⟨rfl, rfl, rfl⟩
  refine ⟨hsound, htuning.trans h.tuning, ?_, ?_, ?_⟩
  · intro _
    refine ⟨k, (x.resume v sought s.cache).2, (getElem?_set_eq_some hk).mpr (.inl ⟨rfl, rfl⟩), ?_⟩
    rw [BuildCall.resume_build, hresume]
    rfl
  · intro hne
    obtain ⟨j, hj⟩ := h.owner hne
    exact ⟨j, hkeep hj⟩
  · intro hrunning
    exact absurd (hcancelled.symm.trans hrunning) (by simp)

theorem Undisturbed.advance {s : Session α} (h : s.Undisturbed config margin scale) (k : Nat)
    (v : Build.View α) (sought : SeekOutcome) :
    (s.advance k v sought).Undisturbed config margin scale := by
  rcases advance_cases s k v sought with ⟨x, hk, -⟩ | heq
  · cases hbegun : x.build.hasBegun with
    | true => exact h.of_hasBegun hk hbegun v sought
    | false =>
        rcases Build.resume_of_not_hasBegun hbegun v sought with ⟨htoken, hresume⟩ | hresume
        · exact h.of_yield hk htoken hresume
        · exact h.of_takeOver hk hbegun hresume
  · rw [heq]
    exact h

theorem undisturbed_run (config : CacheConfig) (margin : α) (scale : Resampler)
    (events : List (Event α)) :
    ((start config margin scale).run events).Undisturbed config margin scale := by
  refine run_induction (P := Undisturbed config margin scale) ?_
    (undisturbed_start config margin scale) events
  intro s e hs
  cases e with
  | build request v => exact (hs.call request).advance s.calls.length v .completed
  | resume k v sought => exact hs.advance k v sought
  | clear => exact hs.clear

/-! ## The order of effects -/

/-- A call that takes effect in a step begins the next generation. -/
theorem effect_advance {s : Session α} {j g k : Nat} {v : Build.View α} {sought : SeekOutcome}
    (h : (s.advance k v sought).TookEffect j g) :
    s.TookEffect j g ∨
      (j = k ∧ s.cache.generation < g ∧ (s.advance k v sought).cache.generation = g) := by
  rcases advance_cases s k v sought with ⟨x, hk, heq⟩ | heq
  · rw [heq] at h ⊢
    obtain ⟨call, hj, hg⟩ := h
    rcases (getElem?_set_eq_some hk).mp hj with ⟨rfl, rfl⟩ | ⟨-, hj⟩
    · have hmove := Build.resume_move v sought s.cache x.build
      obtain ⟨hbegun', hgen'⟩ := BuildCall.effect_eq_some_iff.mp hg
      rcases hmove.generation with ⟨-, hsame⟩ | ⟨-, hnext, -, hnumber⟩
      · have hbegun : x.build.hasBegun = true := hsame.symm.trans hbegun'
        have hgen := (hmove.hasBegun hbegun).2
        exact .inl ⟨_, hk, BuildCall.effect_eq_some_iff.mpr ⟨hbegun, hgen.symm.trans hgen'⟩⟩
      · have hg' : g = s.cache.generation + 1 := hgen'.symm.trans hnumber
        exact .inr ⟨rfl, by omega, hnext.trans hg'.symm⟩
    · exact .inl ⟨call, hj, hg⟩
  · rw [heq] at h
    exact .inl h

omit [Scalar α] in
theorem TookEffect.of_append {s : Session α} {c : FrameCache α} {call : Call α} {j g : Nat}
    (h : TookEffect ⟨c, s.calls ++ [call]⟩ j g) :
    s.TookEffect j g ∨ (j = s.calls.length ∧ call.effect = some g) := by
  obtain ⟨other, hj, hg⟩ := h
  rcases getElem?_append_eq_some.mp hj with ⟨rfl, rfl⟩ | ⟨-, hj⟩
  · exact .inr ⟨rfl, hg⟩
  · exact .inl ⟨other, hj, hg⟩

theorem effect_step {s : Session α} {e : Event α} {j g : Nat} (h : (s.step e).TookEffect j g) :
    s.TookEffect j g ∨ (s.cache.generation < g ∧ (s.step e).cache.generation = g) := by
  cases e with
  | build request v =>
      rcases effect_advance h with hcall | ⟨-, hlt, hg⟩
      · rcases hcall.of_append with hold | ⟨-, hnone⟩
        · exact .inl hold
        · cases hnone
      · exact .inr ⟨hlt, hg⟩
  | resume k v sought =>
      rcases effect_advance h with hold | ⟨-, hlt, hg⟩
      · exact .inl hold
      · exact .inr ⟨hlt, hg⟩
  | clear =>
      rcases h.of_append with hold | ⟨-, hg⟩
      · exact .inl hold
      · obtain rfl : s.cache.generation + 1 = g := Option.some.inj hg
        exact .inr ⟨Nat.lt_succ_self _, rfl⟩

/-- What takes effect later begins a later generation. -/
theorem effect_run {s : Session α} {events : List (Event α)} {j g : Nat}
    (h : (s.run events).TookEffect j g) : s.TookEffect j g ∨ s.cache.generation < g := by
  induction events generalizing s with
  | nil => exact .inl h
  | cons e events ih =>
      have hle : s.cache.generation ≤ (s.step e).cache.generation := generation_le_run s [e]
      rcases ih h with hstep | hlt
      · rcases effect_step hstep with hold | ⟨hlt, -⟩
        · exact .inl hold
        · exact .inr hlt
      · exact .inr (hle.trans_lt hlt)

@[simp] theorem length_advance (s : Session α) (k : Nat) (v : Build.View α) (sought : SeekOutcome) :
    (s.advance k v sought).calls.length = s.calls.length := by
  rcases advance_cases s k v sought with ⟨x, -, heq⟩ | heq
  · rw [heq, List.length_set]
  · rw [heq]

theorem length_le_run (s : Session α) (events : List (Event α)) :
    s.calls.length ≤ (s.run events).calls.length := by
  refine run_induction (P := fun t => s.calls.length ≤ t.calls.length) ?_ le_rfl events
  intro t e ht
  cases e with
  | build request v =>
      have hlength := length_advance (t.call request) t.calls.length v .completed
      have hcall : (t.call request).calls.length = t.calls.length + 1 := by simp [call]
      change s.calls.length ≤ ((t.call request).advance _ v .completed).calls.length
      omega
  | resume k v sought => exact ht.trans (length_advance t k v sought).ge
  | clear =>
      have hlength : (t.step .clear).calls.length = t.calls.length + 1 := by simp [step]
      omega

/-- A step after which something holds for the first time. -/
theorem exists_step {P : Session α → Prop} {s : Session α} (hs : ¬P s) {events : List (Event α)}
    (h : P (s.run events)) : ∃ before e after, events = before ++ e :: after ∧
      ¬P (s.run before) ∧ P ((s.run before).step e) := by
  induction events generalizing s with
  | nil => exact absurd h hs
  | cons e events ih =>
      by_cases hstep : P (s.step e)
      · exact ⟨[], e, events, rfl, hs, hstep⟩
      · obtain ⟨before, e', after, rfl, hbefore, hnow⟩ := ih hstep h
        exact ⟨e :: before, e', after, rfl, hbefore, hnow⟩

omit [Scalar α] in
theorem TookEffect.unique {s : Session α} {k g g' : Nat} (h : s.TookEffect k g)
    (h' : s.TookEffect k g') : g = g' := by
  obtain ⟨call, hk, hg⟩ := h
  obtain ⟨call', hk', hg'⟩ := h'
  obtain rfl : call = call' := by simpa using hk.symm.trans hk'
  exact Option.some.inj (hg.symm.trans hg')

theorem length_step_le (s : Session α) (e : Event α) :
    (s.step e).calls.length ≤ s.calls.length + 1 := by
  cases e with
  | build request v =>
      have hcall : (s.call request).calls.length = s.calls.length + 1 := by simp [call]
      exact (length_advance (s.call request) s.calls.length v .completed).le.trans hcall.le
  | resume k v sought => exact (length_advance s k v sought).le.trans (Nat.le_succ _)
  | clear => simp [step]

/-! ## The last word -/

/-- The build called at `k` rests, to give the one under way time to end. -/
def Rests (s : Session α) (k : Nat) : Prop :=
  ∃ x : BuildCall α, s.calls[k]? = some (.build x) ∧ x.build.phase = .grace

theorem phase_ne_called_advance {s : Session α} {k : Nat}
    (h : ∀ (j : Nat) (x : BuildCall α), j ≠ k → s.calls[j]? = some (.build x) →
      x.build.phase ≠ .called) (v : Build.View α) (sought : SeekOutcome) :
    ∀ (j : Nat) (x : BuildCall α), (s.advance k v sought).calls[j]? = some (.build x) →
      x.build.phase ≠ .called := by
  intro j y hj
  unfold advance at hj
  split at hj
  · rename_i x hk
    rcases (getElem?_set_eq_some hk).mp hj with ⟨-, hy⟩ | ⟨hne, hj⟩
    · cases hy
      exact (Build.resume_move v sought s.cache x.build).phase_ne_called
    · exact h j y hne hj
  · rename_i hnot
    by_cases hjk : j = k
    · subst hjk
      exact absurd hj (hnot y)
    · exact h j y hjk hj

theorem phase_ne_called_run (config : CacheConfig) (margin : α) (scale : Resampler)
    (events : List (Event α)) :
    ∀ (j : Nat) (x : BuildCall α),
      ((start config margin scale).run events).calls[j]? = some (.build x) →
      x.build.phase ≠ .called := by
  refine run_induction (P := fun s => ∀ (j : Nat) (x : BuildCall α),
    s.calls[j]? = some (.build x) → x.build.phase ≠ .called) ?_ (by simp [start]) events
  intro s e hs
  cases e with
  | build request v =>
      refine phase_ne_called_advance ?_ v .completed
      intro j x hne hj
      rcases getElem?_append_eq_some.mp hj with ⟨heq, -⟩ | ⟨-, hj⟩
      · exact absurd heq hne
      · exact hs j x hj
  | resume k v sought => exact phase_ne_called_advance (fun j x _ hj => hs j x hj) v sought
  | clear =>
      intro j x hj
      rcases getElem?_append_eq_some.mp hj with ⟨-, hx⟩ | ⟨-, hj⟩
      · cases hx
      · exact hs j x hj

/-- A call without an effect so far is a build that rests. -/
theorem rests_of_not_tookEffect {config : CacheConfig} {margin : α} {scale : Resampler}
    {events : List (Event α)}
    {k : Nat} (hlt : k < ((start config margin scale).run events).calls.length)
    (h : ∀ g, ¬((start config margin scale).run events).TookEffect k g) :
    ((start config margin scale).run events).Rests k := by
  have hk := List.getElem?_eq_getElem hlt
  generalize ((start config margin scale).run events).calls[k] = call at hk
  cases call with
  | clear g => exact absurd ⟨_, hk, rfl⟩ (h g)
  | build x =>
      refine ⟨x, hk, ?_⟩
      have hnot : x.build.hasBegun = false := by
        rw [← Bool.not_eq_true]
        exact fun hbegun => h _ ⟨_, hk, BuildCall.effect_of_hasBegun hbegun⟩
      have hcalled := phase_ne_called_run config margin scale events k x hk
      cases hp : x.build.phase with
      | called => exact absurd hp hcalled
      | grace => rfl
      | seeking => simp [Build.hasBegun, hp] at hnot
      | settling => simp [Build.hasBegun, hp] at hnot
      | report => simp [Build.hasBegun, hp] at hnot
      | ended => simp [Build.hasBegun, hp] at hnot

omit [Scalar α] in
theorem Rests.not_tookEffect {s : Session α} {k : Nat} (h : s.Rests k) (g : Nat) :
    ¬s.TookEffect k g := by
  rintro ⟨call, hk, hg⟩
  obtain ⟨x, hx, hp⟩ := h
  obtain rfl : call = .build x := by simpa using hk.symm.trans hx
  have hbegun := (BuildCall.effect_eq_some_iff.mp hg).1
  simp [Build.hasBegun, hp] at hbegun

omit [Scalar α] in
/-- What has returned has taken effect. -/
theorem tookEffect_of_hasReturned {s : Session α}
    (h : ∀ call ∈ s.calls, call.hasReturned = true) {k : Nat} (hlt : k < s.calls.length) :
    ∃ g, s.TookEffect k g := by
  have hk := List.getElem?_eq_getElem hlt
  have hreturned := h _ (List.getElem_mem hlt)
  generalize s.calls[k] = call at hk hreturned
  cases call with
  | clear g => exact ⟨g, _, hk, rfl⟩
  | build x =>
      have hbegun := Build.hasBegun_of_hasEnded hreturned
      exact ⟨_, _, hk, BuildCall.effect_of_hasBegun hbegun⟩

/-- Once all calls have returned, the cache is as the last one to take effect leaves it. -/
theorem Undisturbed.exists_leaves {s : Session α} (h : s.Undisturbed config margin scale)
    (hreturned : ∀ call ∈ s.calls, call.hasReturned = true) (hpos : s.cache.generation ≠ 0) :
    ∃ (w : Nat) (call : Call α), s.calls[w]? = some call ∧ s.TookEffect w s.cache.generation ∧
      s.cache.unnumbered = (call.leaves config margin scale).unnumbered := by
  obtain ⟨w, call, hw, hg⟩ := h.owner hpos
  refine ⟨w, call, hw, ⟨call, hw, hg⟩, ?_⟩
  refine Call.Agrees.leaves (h.agrees ?_ w call hw hg)
  rw [← Bool.not_eq_true]
  intro hcancelled
  obtain ⟨k, x, hk, hnot⟩ := h.pending hcancelled
  have hended : x.build.hasEnded = true := hreturned _ (List.mem_of_getElem? hk)
  simp [Build.hasBegun_of_hasEnded hended] at hnot

/-- A call that takes effect in this step, and not before, begins the next generation. -/
theorem generation_of_step {s : Session α} {e : Event α} {k g : Nat}
    (hbefore : ∀ g, ¬s.TookEffect k g) (h : (s.step e).TookEffect k g) :
    s.cache.generation < g ∧ (s.step e).cache.generation = g := by
  rcases effect_step h with hold | hnew
  · exact absurd hold (hbefore g)
  · exact hnew

/-- A build that rests while another call takes effect takes effect later. -/
theorem Rests.generation_lt {s : Session α} (hs : s.Sound) {e : Event α}
    {after : List (Event α)} {j k g g' : Nat} (hj : s.Rests j) (hne : j ≠ k)
    (hbefore : ∀ g, ¬s.TookEffect k g) (hk : (s.step e).TookEffect k g)
    (hlater : ((s.step e).run after).TookEffect j g') : g < g' := by
  obtain ⟨-, hgen⟩ := generation_of_step hbefore hk
  rcases effect_run hlater with hstep | hlt
  · obtain ⟨-, hgen'⟩ := generation_of_step hj.not_tookEffect hstep
    obtain rfl : g = g' := hgen.symm.trans hgen'
    obtain ⟨call, hcall, heffect⟩ := hk
    obtain ⟨call', hcall', heffect'⟩ := hstep
    exact absurd ((hs.step e).effect_inj j k _ _ g hcall' hcall heffect' heffect) hne
  · omega

/-- What takes effect after the last call was already called before. -/
theorem not_tookEffect_of_later {s : Session α} {e : Event α} {after : List (Event α)}
    {w k g g' : Nat} (hbefore : ∀ g, ¬s.TookEffect k g) (hs : s.Sound)
    (hk : (s.step e).TookEffect k g) (hw : ((s.step e).run after).TookEffect w g')
    (hle : g ≤ g') : ∀ g'', ¬s.TookEffect w g'' := by
  intro g'' hold
  obtain ⟨hlt, -⟩ := generation_of_step hbefore hk
  have hsame : g'' = g' := TookEffect.unique (TookEffect.run hold (e :: after)) hw
  obtain ⟨call, hcall, heffect⟩ := hold
  have hle' := hs.effect_le w call g'' hcall heffect
  omega

/-- The cache of a session shows what the call at `w` leaves, while the one made last, at `k`, took
effect with the event `e` after those before. -/
structure LastWord (config : CacheConfig) (margin : α) (scale : Resampler) (s : Session α)
    (k : Nat)
    (before : List (Event α)) (e : Event α) (w : Nat) (call : Call α) : Prop where
  not_before : ∀ g, ¬((start config margin scale).run before).TookEffect k g
  now : ∃ g, (((start config margin scale).run before).step e).TookEffect k g
  call_eq : s.calls[w]? = some call
  leaves : s.cache.unnumbered = (call.leaves config margin scale).unnumbered
  /-- It is the last one just when no other build rests at that moment. -/
  last_iff : w = k ↔ ∀ j ≠ k, ¬((start config margin scale).run before).Rests j
  rests : w ≠ k → ((start config margin scale).run before).Rests w

/-- When all calls have returned, one of them has the last word: the one that was made last or a
build that was at rest when the last one took effect. -/
theorem exists_lastWord (config : CacheConfig) (margin : α) (scale : Resampler)
    (events : List (Event α))
    {s : Session α} (hs : (start config margin scale).run events = s)
    (hreturned : ∀ call ∈ s.calls, call.hasReturned = true) {k : Nat}
    (hk : s.calls.length = k + 1) :
    ∃ before e after w call, events = before ++ e :: after ∧
      LastWord config margin scale s k before e w call := by
  have hfirst : ¬∃ g, (start config margin scale).TookEffect k g := by
    rintro ⟨g, call, hcall, -⟩
    simp [start] at hcall
  have hlast : ∃ g, ((start config margin scale).run events).TookEffect k g :=
    hs ▸ tookEffect_of_hasReturned hreturned (by omega)
  obtain ⟨before, e, after, rfl, hbefore, g, hg⟩ :=
    exists_step (P := fun t => ∃ g, t.TookEffect k g) hfirst hlast
  have hnot : ∀ g, ¬((start config margin scale).run before).TookEffect k g :=
    fun g hg => hbefore ⟨g, hg⟩
  have hsound := sound_run config margin scale before
  have hend : (((start config margin scale).run before).step e).run after = s := by
    rw [← hs, run_append, run_cons]
  have hfinal : s.Undisturbed config margin scale := hs ▸ undisturbed_run config margin scale _
  -- the last call to take effect
  obtain ⟨-, hnow⟩ := generation_of_step hnot hg
  obtain ⟨hlt, -⟩ := generation_of_step hnot hg
  have hle : g ≤ s.cache.generation := hnow ▸ hend ▸ generation_le_run _ after
  obtain ⟨w, call, hw, hwg, hleaves⟩ := hfinal.exists_leaves hreturned (by omega)
  have hother : w ≠ k → ((start config margin scale).run before).Rests w := by
    intro hne
    have hstep := length_step_le ((start config margin scale).run before) e
    have hwlt := hwg.lt_length
    have hklt := hg.lt_length
    refine rests_of_not_tookEffect (by omega) ?_
    rw [← hend] at hwg hle
    exact not_tookEffect_of_later hnot hsound hg hwg hle
  refine ⟨before, e, after, w, call, rfl, hnot, ⟨g, hg⟩, hw, hleaves, ⟨?_, ?_⟩, hother⟩
  · intro hwk j hne hrests
    have hjlt : j < s.calls.length := by
      obtain ⟨x, hx, -⟩ := hrests
      have hj := (List.getElem?_eq_some_iff.mp hx).1
      have hmono := length_le_run ((start config margin scale).run before) (e :: after)
      rw [run_cons, hend] at hmono
      omega
    obtain ⟨g', hg'⟩ := tookEffect_of_hasReturned hreturned hjlt
    have hlater : g < g' := by
      rw [← hend] at hg'
      exact hrests.generation_lt hsound hne hnot hg hg'
    have hsame : g = s.cache.generation := by
      have hthen : s.TookEffect k g := hend ▸ hg.run after
      exact hthen.unique (hwk ▸ hwg)
    obtain ⟨call', hcall', heffect'⟩ := hg'
    have hle' := hfinal.sound.effect_le j call' g' hcall' heffect'
    omega
  · intro hnone
    by_contra hne
    exact hnone w hne (hother hne)

/-! ## A clearing without effect -/

open Rehearsal (nearest)

def onePixel : CacheConfig where
  memoryLimit := 1
  width := 1
  height := 1
  seekTimeout := .ofSeconds 1
  settle := .ofMillis 16

abbrev atStart (config : CacheConfig) : Session Rat := start config 0 nearest

def oneFrame : CacheRequest Rat where
  transition := 1
  startA := 0
  startB := 0
  fps := 1
  mode := .transitionOnly
  durationA := 1
  durationB := 1

/-- Both clips last a second and show nothing. -/
def darkView : Build.View Rat := ⟨fun _ => some 1, fun _ => none⟩

/-- A second build finds the first one under way and rests. Then the cache is cleared, the first
build ends, and the second one goes on to its end. -/
def refill : List (Event Rat) :=
  [.build oneFrame darkView, .build oneFrame darkView, .clear, .resume 0 darkView .timedOut,
    .resume 1 darkView .completed, .resume 1 darkView .timedOut, .resume 1 darkView .timedOut,
    .resume 1 darkView .completed]

theorem exists_lastWord_refill :
    ∃ before e after w call, refill = before ++ e :: after ∧
      LastWord onePixel 0 nearest ((atStart onePixel).run refill) 2 before e w call := by
  have hreturned : ∀ call ∈ ((atStart onePixel).run refill).calls, call.hasReturned = true := by
    decide +kernel
  have hlength : ((atStart onePixel).run refill).calls.length = 2 + 1 := by decide +kernel
  exact exists_lastWord onePixel 0 nearest refill rfl hreturned hlength

/-- A build that rests fills the cache after it was cleared. -/
theorem refill_not_cleared :
    (∀ call ∈ ((atStart onePixel).run refill).calls, call.hasReturned = true) ∧
      ∃ g, ((atStart onePixel).run refill).calls.getLast? = some (.clear g) ∧
        ((atStart onePixel).run refill).cache.unnumbered ≠
          ((Call.clear g).leaves onePixel 0 nearest).unnumbered := by
  have hlast : ((atStart onePixel).run refill).calls.getLast?.any Call.isClear = true := by
    decide +kernel
  have hsize : ((atStart onePixel).run refill).cache.size = 1 := by decide +kernel
  refine ⟨by decide +kernel, ?_⟩
  cases hcall : ((atStart onePixel).run refill).calls.getLast? with
  | none => simp [hcall] at hlast
  | some call =>
      cases call with
      | build x => simp [hcall, Call.isClear] at hlast
      | clear g =>
          refine ⟨g, rfl, ?_⟩
          intro heq
          have hempty : ((atStart onePixel).run refill).cache.size = 0 := congrArg size heq
          omega

end Session

end FrameCache

end Segue
