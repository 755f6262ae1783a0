import Mathlib
import Segue.Proofs.Cache.Filling
import Segue.Proofs.Cache.LastCall

/-!
# The turns of a build

A run of a session consists of the turns of its builds and of clearings. Between the turns of a
build that keeps the cache nothing happens to what the cache holds. So a build that is not
disturbed at any of its turns fills the cache, tells its caller of each pair in turn and comes to
its end.
-/

namespace Segue

variable {α : Type} [Scalar α]

/-- One step of a build in a run: where it stood and what it heard. -/
structure Turn (α : Type) where
  cache : FrameCache α
  build : Build α
  view : Build.View α
  sought : SeekOutcome

def Turn.after (t : Turn α) : Build.Running α := t.build.resume t.view t.sought t.cache

/-- A build that does not own the cache begins a generation or leaves the columns alone. -/
theorem Build.Move.foreign {c : FrameCache α} {b : Build α} {y : Build.Running α}
    (h : Build.Move c b y) (hnot : b.hasBegun = true → c.generation ≠ b.generation) :
    y.1 = c ∨ y.1 = c.cancel ∨ y.1.generation = c.generation + 1 := by
  cases hb : b.hasBegun with
  | true => exact .inl (h.stale hb (hnot hb))
  | false =>
      cases h with
      | yield => exact .inr (.inl rfl)
      | refuse => exact .inr (.inr (FrameCache.endBuild_generation _ _ _))
      | takeOver => exact .inr (.inr rfl)
      | wait _ _ _ hseek => simp [hasBegun_of_isSeeking hseek] at hb
      | push _ _ _ hseek => simp [hasBegun_of_isSeeking hseek] at hb
      | fill _ _ _ hseek => simp [hasBegun_of_isSeeking hseek] at hb
      | advance _ hreport => simp [hasBegun_of_isReporting hreport] at hb
      | complete hreport => simp [hasBegun_of_isReporting hreport] at hb
      | fail _ hbegun => simp [hbegun] at hb
      | rest hended => simp [hasBegun_of_hasEnded hended] at hb

/-- A build that has still not begun after a step has yielded. -/
theorem Build.Move.yields {c : FrameCache α} {b : Build α} {y : Build.Running α}
    (h : Build.Move c b y) (hnot : y.2.hasBegun = false) :
    b.phase = .called ∧ y.2.phase = .grace := by
  cases h with
  | yield hp => exact ⟨hp, rfl⟩
  | refuse _ _ _ hfailed =>
      simp [hasBegun_of_hasEnded (hasEnded_of_hasFailed hfailed)] at hnot
  | takeOver => cases hnot
  | wait _ _ _ _ _ hseek => simp [hasBegun_of_isSeeking hseek] at hnot
  | push => cases hnot
  | fill => cases hnot
  | advance => cases hnot
  | complete => cases hnot
  | fail _ _ _ hfailed =>
      simp [hasBegun_of_hasEnded (hasEnded_of_hasFailed hfailed)] at hnot
  | rest hended => simp [hasBegun_of_hasEnded hended] at hnot

/-- A build that still owns the cache after a step has owned it before. -/
theorem Build.Move.owns {c : FrameCache α} {b : Build α} {y : Build.Running α}
    (h : Build.Move c b y) (hbegun : b.hasBegun = true) (hgen : y.2.generation = y.1.generation)
    (hrunning : y.1.isCancelled y.2.generation = false) : Build.Owns c b := by
  have hkept : y.2.generation = b.generation := (h.hasBegun hbegun).2
  have hlist : y.1.cancelled = c.cancelled := h.cancelled.trans (if_pos hbegun)
  constructor
  · rcases h.generation with ⟨hsame, -⟩ | ⟨hnot, -⟩
    · exact hsame.symm.trans (hgen.symm.trans hkept)
    · simp [hbegun] at hnot
  · rw [FrameCache.isCancelled, hlist, hkept] at hrunning
    exact hrunning

namespace FrameCache.Session

/-- The turn of the build at `k` in a step. -/
def turn? (s : Session α) (k : Nat) : Event α → Option (Turn α)
  | .build request v =>
    if s.calls.length = k then some ⟨s.cache, .make request, v, .completed⟩ else none
  | .resume j v sought =>
    if j = k then
      match s.calls[k]? with
      | some (.build x) => some ⟨s.cache, x.build, v, sought⟩
      | _ => none
    else none
  | .clear => none

def turns (k : Nat) : Session α → List (Event α) → List (Turn α)
  | _, [] => []
  | s, e :: events => (s.turn? k e).toList ++ turns k (s.step e) events

@[simp] theorem turns_append (k : Nat) (s : Session α) (before after : List (Event α)) :
    turns k s (before ++ after) = turns k s before ++ turns k (s.run before) after := by
  induction before generalizing s with
  | nil => rfl
  | cons e before ih =>
      simp only [List.cons_append, turns, ih, List.append_assoc]
      rfl

@[simp] theorem turns_concat (k : Nat) (s : Session α) (events : List (Event α)) (e : Event α) :
    turns k s (events ++ [e]) = turns k s events ++ ((s.run events).turn? k e).toList := by
  rw [turns_append]
  simp [turns]

/-! ## One step -/

/-- A build takes its turn: it was there or is called just now. -/
theorem turn_cases {s : Session α} {k : Nat} {e : Event α} {t : Turn α}
    (h : s.turn? k e = some t) :
    t.cache = s.cache ∧ (s.step e).cache = t.after.1 ∧
      (∃ x, (s.step e).calls[k]? = some (.build x) ∧ x.build = t.after.2) ∧
      ((∃ x, s.calls[k]? = some (.build x) ∧ t.build = x.build) ∨
        s.calls.length = k ∧ ∃ request, t.build = .make request) := by
  cases e with
  | build request v =>
      simp only [turn?] at h
      split at h
      · rename_i hk
        obtain rfl := Option.some.inj h
        have hcall : (s.call request).calls[s.calls.length]? = some (.build (.make request)) :=
          getElem?_append_eq_some.mpr (.inl ⟨rfl, rfl⟩)
        have hstep : s.step (.build request v) = _ := advance_of_build hcall v .completed
        rw [hstep, ← hk]
        exact ⟨rfl, rfl, ⟨_, (getElem?_set_eq_some hcall).mpr (.inl ⟨rfl, rfl⟩), rfl⟩,
          .inr ⟨rfl, request, rfl⟩⟩
      · cases h
  | resume j v sought =>
      simp only [turn?] at h
      split at h
      · rename_i hjk
        subst hjk
        split at h
        · rename_i x hk
          obtain rfl := Option.some.inj h
          have hstep : s.step (.resume j v sought) = _ := advance_of_build hk v sought
          rw [hstep]
          exact ⟨rfl, rfl, ⟨_, (getElem?_set_eq_some hk).mpr (.inl ⟨rfl, rfl⟩), rfl⟩,
            .inl ⟨x, hk, rfl⟩⟩
        · cases h
      · cases h
  | clear => cases h

theorem calls_advance_of_ne (s : Session α) {j k : Nat} (hjk : j ≠ k) (v : Build.View α)
    (sought : SeekOutcome) : (s.advance j v sought).calls[k]? = s.calls[k]? := by
  rcases advance_cases s j v sought with ⟨y, -, heq⟩ | heq
  · rw [heq]
    exact List.getElem?_set_ne hjk
  · rw [heq]

/-- A build changes at its own turns only. -/
theorem call_of_turn?_eq_none {s : Session α} {k : Nat} {e : Event α}
    (hnone : s.turn? k e = none) {x : BuildCall α}
    (hk : (s.step e).calls[k]? = some (.build x)) : s.calls[k]? = some (.build x) := by
  cases e with
  | build request v =>
      have hne : s.calls.length ≠ k := by
        intro heq
        simp [turn?, heq] at hnone
      change ((s.call request).advance s.calls.length v .completed).calls[k]? = _ at hk
      rw [calls_advance_of_ne (s.call request) hne] at hk
      rcases getElem?_append_eq_some.mp hk with ⟨heq, -⟩ | ⟨-, hold⟩
      · exact absurd heq.symm hne
      · exact hold
  | resume j v sought =>
      by_cases hjk : j = k
      · subst hjk
        rcases advance_cases s j v sought with ⟨y, hj, -⟩ | heq
        · simp [turn?, hj] at hnone
        · change s.step (.resume j v sought) = s at heq
          rwa [heq] at hk
      · change (s.advance j v sought).calls[k]? = _ at hk
        rwa [calls_advance_of_ne s hjk] at hk
  | clear =>
      rcases getElem?_append_eq_some.mp hk with ⟨-, hx⟩ | ⟨-, hk⟩
      · cases hx
      · exact hk

/-- Another build goes on, and the owner of the cache keeps it. -/
theorem cache_advance_of_ne {s : Session α} (hs : s.Sound) {j k : Nat} (hjk : j ≠ k)
    {v : Build.View α} {sought : SeekOutcome} {x : BuildCall α}
    (hk : s.calls[k]? = some (.build x))
    (heffect : x.effect = some (s.advance j v sought).cache.generation) :
    (s.advance j v sought).cache = s.cache ∨ (s.advance j v sought).cache = s.cache.cancel := by
  rcases advance_cases s j v sought with ⟨y, hj, heq⟩ | heq
  · rw [heq] at heffect ⊢
    have hmove := Build.resume_move v sought s.cache y.build
    have hle := hs.effect_le k _ _ hk heffect
    have hforeign : y.build.hasBegun = true → s.cache.generation ≠ y.build.generation := by
      intro hbegun hgen
      have hy : y.effect = some s.cache.generation :=
        BuildCall.effect_eq_some_iff.mpr ⟨hbegun, hgen.symm⟩
      rcases hmove.generation with ⟨hsame, -⟩ | ⟨hnot, -⟩
      · have hx : x.effect = some s.cache.generation := heffect.trans (congrArg some hsame)
        exact hjk (hs.effect_inj j k _ _ _ hj hk hy hx)
      · simp [hbegun] at hnot
    rcases hmove.foreign hforeign with hcache | hcache | hgen
    · exact .inl hcache
    · exact .inr hcache
    · change (y.build.resume v sought s.cache).1.generation ≤ s.cache.generation at hle
      omega
  · rw [heq]
    exact .inl rfl

/-- Between the turns of the build that owns the cache only its token may be taken. -/
theorem cache_of_turn?_eq_none {s : Session α} (hs : s.Sound) {k : Nat} {e : Event α}
    (hnone : s.turn? k e = none) {x : BuildCall α} (hk : s.calls[k]? = some (.build x))
    (heffect : x.effect = some (s.step e).cache.generation) :
    (s.step e).cache = s.cache ∨ (s.step e).cache = s.cache.cancel := by
  cases e with
  | build request v =>
      have hne : s.calls.length ≠ k := by
        intro heq
        simp [turn?, heq] at hnone
      have hold : (s.call request).calls[k]? = some (.build x) :=
        getElem?_append_eq_some.mpr (.inr ⟨hne.symm, hk⟩)
      exact cache_advance_of_ne (hs.call request) hne hold heffect
  | resume j v sought =>
      by_cases hjk : j = k
      · subst hjk
        simp [turn?, hk] at hnone
      · exact cache_advance_of_ne hs hjk hk heffect
  | clear =>
      have hle := hs.effect_le k _ _ hk heffect
      exact absurd hle (Nat.not_succ_le_self _)

/-! ## Before a build has begun -/

theorem turns_of_length_le (config : CacheConfig) (margin : α) (scale : Resampler)
    (events : List (Event α)) {k : Nat}
    (h : ((start config margin scale).run events).calls.length ≤ k) :
    turns k (start config margin scale) events = [] := by
  induction events using List.reverseRecOn with
  | nil => rfl
  | append_singleton events e ih =>
      have hmono := length_le_run ((start config margin scale).run events) [e]
      rw [run_append] at h
      have hnow : ((start config margin scale).run events).turn? k e = none := by
        cases hturn : ((start config margin scale).run events).turn? k e with
        | none => rfl
        | some t =>
            obtain ⟨-, -, ⟨x, hx, -⟩, -⟩ := turn_cases hturn
            have hlt := (List.getElem?_eq_some_iff.mp hx).1
            exact absurd (Nat.lt_of_lt_of_le hlt h) (Nat.lt_irrefl k)
      rw [turns_concat, hnow, ih (Nat.le_trans hmono h)]
      rfl

/-- A build that has not begun has taken one turn, at which it yielded to another one. -/
theorem turns_of_not_hasBegun (config : CacheConfig) (margin : α) (scale : Resampler)
    (events : List (Event α))
    {k : Nat} {x : BuildCall α}
    (hk : ((start config margin scale).run events).calls[k]? = some (.build x))
    (hbegun : x.build.hasBegun = false) :
    x.build.phase = .grace ∧ ∃ t, turns k (start config margin scale) events = [t] ∧
      t.after.2.told = [] := by
  induction events using List.reverseRecOn generalizing x with
  | nil => simp [run, start] at hk
  | append_singleton events e ih =>
      rw [run_append] at hk
      rw [turns_concat]
      cases hturn : ((start config margin scale).run events).turn? k e with
      | none =>
          rw [Option.toList_none, List.append_nil]
          exact ih (call_of_turn?_eq_none hturn hk) hbegun
      | some t =>
          obtain ⟨-, -, ⟨y, hy, hbuild⟩, hold⟩ := turn_cases hturn
          obtain rfl : x = y := by simpa using hk.symm.trans hy
          rw [hbuild] at hbegun ⊢
          obtain ⟨hcalled, hgrace⟩ :=
            (Build.resume_move t.view t.sought t.cache t.build).yields hbegun
          refine ⟨hgrace, t, ?_, by rw [Build.told, show t.after.2.phase = .grace from hgrace]⟩
          -- a build that had a turn before this one would be in its grace already
          rcases hold with ⟨w, hw, hsame⟩ | ⟨hlength, -⟩
          · have hnot : w.build.hasBegun = false := by
              rw [← hsame, Build.hasBegun, hcalled]
            have hphase := (ih hw hnot).1
            rw [← hsame, hcalled] at hphase
            cases hphase
          · rw [turns_of_length_le config margin scale events hlength.le]
            rfl

def toldAt (ts : List (Turn α)) : List α := ts.flatMap fun t => t.after.2.told

@[simp] theorem toldAt_concat (ts : List (Turn α)) (t : Turn α) :
    toldAt (ts ++ [t]) = toldAt ts ++ t.after.2.told := by
  simp [toldAt]

/-- The turns of a build up to the one at which it begins. -/
theorem turns_before_begin (config : CacheConfig) (margin : α) (scale : Resampler)
    (events : List (Event α)) {k : Nat}
    {e : Event α} {t : Turn α} (ht : ((start config margin scale).run events).turn? k e = some t)
    (hnot : t.build.hasBegun = false) :
    (turns k (start config margin scale) events).length ≤ 1 ∧
      toldAt (turns k (start config margin scale) events) = [] := by
  obtain ⟨-, -, -, hold⟩ := turn_cases ht
  rcases hold with ⟨w, hw, hsame⟩ | ⟨hlength, -⟩
  · obtain ⟨-, t', hturns, htold⟩ :=
      turns_of_not_hasBegun config margin scale events hw (hsame ▸ hnot)
    rw [hturns]
    exact ⟨Nat.le_refl 1, by simpa [toldAt] using htold⟩
  · rw [turns_of_length_le config margin scale events hlength.le]
    exact ⟨Nat.zero_le 1, rfl⟩

/-! ## Undisturbed runs -/

/-- Nothing disturbs a build at its turns: its clips fit when it takes the cache over, they are
usable where it begins a position, and none of its seeks is cancelled. -/
structure Calm (margin : α) (params : Timeline.Params α) (total : Nat) (ts : List (Turn α)) :
    Prop where
  fits : ∀ t ∈ ts, t.build.hasBegun = false → t.after.2.hasBegun = true →
    Build.Fits t.build.request margin t.view params total
  sought : ∀ t ∈ ts, t.sought ≠ .cancelled
  usable : ∀ t ∈ ts, t.build.entersNext = true → Build.bothUsable t.view = true

theorem Calm.of_append {margin : α} {params : Timeline.Params α} {total : Nat}
    {ts us : List (Turn α)} (h : Calm margin params total (ts ++ us)) :
    Calm margin params total ts where
  fits t ht := h.fits t (List.mem_append_left us ht)
  sought t ht := h.sought t (List.mem_append_left us ht)
  usable t ht := h.usable t (List.mem_append_left us ht)

/-- A build has filled the cache as far as it is. -/
structure Fills (config : CacheConfig) (params : Timeline.Params α) (total : Nat)
    (y : Build.Running α) (ts : List (Turn α)) : Prop where
  filling : Build.Filling config y
  params_eq : y.2.params = params
  total_eq : y.2.total = total
  told : toldAt ts = Export.shares total y.2.reported
  left : y.2.hasEnded = false → ts.length + y.2.left ≤ 5 * total + 2

section

variable {config : CacheConfig} {margin : α} {scale : Resampler} {params : Timeline.Params α}
  {total : Nat}

/-- The turn at which a build takes the cache over. -/
theorem Fills.begin {ts : List (Turn α)} {t : Turn α} (hnot : t.build.hasBegun = false)
    (hbegun : t.after.2.hasBegun = true) (hnext : Build.HasNext t.cache)
    (hconfig : t.cache.config = config)
    (hfits : Build.Fits t.build.request t.cache.margin t.view params total)
    (hlength : ts.length ≤ 1) (htold : toldAt ts = []) :
    Fills config params total t.after (ts ++ [t]) := by
  have hafter : t.after = Build.takeOver t.view t.cache t.build := by
    rcases Build.resume_of_not_hasBegun (c := t.cache) hnot t.view t.sought with ⟨-, hyield⟩ | htake
    · rw [Turn.after, hyield] at hbegun
      cases hbegun
    · exact htake
  obtain ⟨hfilling, hleft, hreported, htold'⟩ := Build.filling_takeOver hconfig hnext hfits
  obtain ⟨time, htime⟩ := Build.takeOver_eq hnext hfits
  rw [← hafter] at hfilling hleft hreported htold' htime
  refine ⟨hfilling, by rw [htime], by rw [htime], ?_, ?_⟩
  · rw [toldAt_concat, htold, htold', hreported]
    rfl
  · intro _
    rw [hleft, List.length_append, List.length_singleton]
    omega

theorem Fills.turn {ts : List (Turn α)} {t : Turn α}
    (h : Fills config params total (t.cache, t.build) ts) (hown : Build.Owns t.cache t.build)
    (hbegun : t.build.hasBegun = true) (hsought : t.sought ≠ .cancelled)
    (husable : t.build.entersNext = true → Build.bothUsable t.view = true) :
    Fills config params total t.after (ts ++ [t]) := by
  have hcaptured := h.filling.captured
  rw [← h.filling.config_eq] at hcaptured
  have hsmooth := Build.resume_smooth hown hbegun hcaptured hsought husable
  cases hended : t.build.hasEnded with
  | true =>
      have hafter : t.after = (t.cache, t.build) :=
        Build.resume_of_hasEnded hended t.view t.sought
      have htold : t.build.told = [] := by
        cases hp : t.build.phase <;> simp_all [Build.told, Build.hasEnded]
      rw [hafter]
      refine ⟨h.filling, h.params_eq, h.total_eq, ?_, by simp [hended]⟩
      rw [toldAt_concat, h.told, hafter, htold, List.append_nil]
  | false =>
      have hwithin := h.filling.within hended
      have hleft := hsmooth.left_lt hended hwithin
      have hold := h.left hended
      obtain ⟨hparams, htotal⟩ := hsmooth.plan
      have htold := hsmooth.told hwithin hended
      refine ⟨hsmooth.filling h.filling hown.generation, hparams.trans h.params_eq,
        htotal.trans h.total_eq, ?_, ?_⟩
      · rw [htotal, show t.build.total = total from h.total_eq] at htold
        rw [toldAt_concat, h.told]
        exact htold.symm
      · intro _
        rw [List.length_append, List.length_singleton]
        change ts.length + t.build.left ≤ 5 * total + 2 at hold
        change t.after.2.left < t.build.left at hleft
        omega

/-- Between its turns nothing happens to what the cache holds of a build. -/
theorem Fills.between {ts : List (Turn α)} {c d : FrameCache α} {b : Build α}
    (h : Fills config params total (c, b) ts) (hd : d = c ∨ d = c.cancel) :
    Fills config params total (d, b) ts := by
  refine ⟨?_, h.params_eq, h.total_eq, h.told, h.left⟩
  rcases hd with rfl | rfl
  · exact h.filling
  · exact h.filling.congr rfl rfl rfl rfl rfl

omit [Scalar α] in
theorem running_of_between {c d : FrameCache α} (hd : d = c ∨ d = c.cancel) {n : Nat}
    (hrunning : d.isCancelled n = false) : d.generation = c.generation ∧
      c.isCancelled n = false := by
  rcases hd with rfl | rfl
  · exact ⟨rfl, hrunning⟩
  · refine ⟨rfl, ?_⟩
    rw [← Bool.not_eq_true] at hrunning ⊢
    intro hcancelled
    refine hrunning ?_
    simp only [isCancelled, List.contains_iff_mem] at hcancelled ⊢
    exact List.mem_append_right _ hcancelled

/-- A build that keeps the cache and is not disturbed fills it. -/
theorem fills_run (events : List (Event α)) {k : Nat} {x : BuildCall α}
    (hk : ((start config margin scale).run events).calls[k]? = some (.build x))
    (heffect : x.effect = some ((start config margin scale).run events).cache.generation)
    (hrunning :
      ((start config margin scale).run events).cache.isCancelled x.build.generation = false)
    (hcalm : Calm margin params total (turns k (start config margin scale) events)) :
    Fills config params total (((start config margin scale).run events).cache, x.build)
      (turns k (start config margin scale) events) := by
  -- from the last event back: it is a turn of the build, or nothing happens to its pairs
  induction events using List.reverseRecOn generalizing x with
  | nil => simp [run, start] at hk
  | append_singleton events e ih =>
      have hall := undisturbed_run config margin scale events
      have hsound := hall.sound
      rw [turns_concat] at hcalm ⊢
      rw [run_append] at hk heffect hrunning ⊢
      generalize hs : (start config margin scale).run events = s at *
      cases hturn : s.turn? k e with
      | none =>
          rw [hturn] at hcalm
          rw [Option.toList_none, List.append_nil] at hcalm ⊢
          have hold := call_of_turn?_eq_none hturn hk
          have hcache := cache_of_turn?_eq_none hsound hturn hold heffect
          obtain ⟨hgen, hrunning'⟩ := running_of_between hcache hrunning
          exact (ih hold (heffect.trans (congrArg some hgen)) hrunning' hcalm).between hcache
      | some t =>
          obtain ⟨hcache, hstep, ⟨y, hy, hbuild⟩, hold⟩ := turn_cases hturn
          obtain rfl : x = y := by simpa using hk.symm.trans hy
          have hafter : ((s.run [e]).cache, x.build) = t.after := Prod.ext hstep hbuild
          rw [hturn, Option.toList_some] at hcalm
          rw [hafter, Option.toList_some]
          have hmem : t ∈ turns k (start config margin scale) events ++ [t] := by simp
          have hmove := Build.resume_move t.view t.sought t.cache t.build
          obtain ⟨hbegun', hgen⟩ := BuildCall.effect_eq_some_iff.mp heffect
          rw [hbuild] at hbegun' hgen hrunning
          change t.after.2.generation = (s.step e).cache.generation at hgen
          change (s.step e).cache.isCancelled t.after.2.generation = false at hrunning
          rw [hstep] at hgen hrunning
          cases hbegun : t.build.hasBegun with
          | false =>
              obtain ⟨hlength, htold⟩ :=
                turns_before_begin config margin scale events (hs ▸ hturn) hbegun
              have hfits := hcalm.fits t hmem hbegun hbegun'
              have hmargin : s.cache.margin = margin := hall.tuning.margin_eq
              rw [← hmargin, ← hcache] at hfits
              exact Fills.begin hbegun hbegun' (hcache ▸ hsound.hasNext)
                (hcache ▸ hall.tuning.config_eq) hfits hlength htold
          | true =>
              have hown : Build.Owns t.cache t.build := hmove.owns hbegun hgen hrunning
              have hsame : t.build.generation = s.cache.generation := by
                rw [← hcache]
                exact hown.generation.symm
              obtain ⟨w, hw, hwt⟩ : ∃ w, s.calls[k]? = some (.build w) ∧ t.build = w.build := by
                rcases hold with hold | ⟨-, request, hnew⟩
                · exact hold
                · rw [hnew] at hbegun
                  cases hbegun
              have hfills := ih hw
                (BuildCall.effect_eq_some_iff.mpr ⟨hwt ▸ hbegun, hwt ▸ hsame⟩)
                (by rw [← hwt, ← hcache]; exact hown.running) hcalm.of_append
              rw [← hwt, ← hcache] at hfills
              exact hfills.turn hown hbegun (hcalm.sought t hmem) (hcalm.usable t hmem)

end

end FrameCache.Session

end Segue
