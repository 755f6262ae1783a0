import Mathlib
import Segue.Proofs.Cache.Alone
import Segue.Proofs.Export.Books

/-!
# A build that nothing disturbs

What the steps of a build are when it owns the cache, has not been cancelled and finds its clips
usable wherever it begins a position. All frames that it stores have the size of the cache, so the
memory is known from their number, and the build ends after the first pair that exceeds the limit
or after the last one.
-/

namespace Segue

variable {α : Type}

/-! ## Sizes -/

def Image.Sized (config : CacheConfig) (i : Image) : Prop :=
  i.width = config.width ∧ i.height = config.height

def CacheConfig.pairBytes (config : CacheConfig) : Nat := 8 * config.width * config.height

theorem CachedFrame.bytes_of_sized {config : CacheConfig} {f : CachedFrame α}
    (hA : f.frameA.Sized config) (hB : f.frameB.Sized config) : f.bytes = config.pairBytes := by
  rw [CachedFrame.bytes, Image.bytes, Image.bytes, hA.1, hA.2, hB.1, hB.2, CacheConfig.pairBytes]
  ring

theorem Resampler.sized (r : Resampler) (config : CacheConfig) (i : Image) :
    (r.resize i config.width config.height).Sized config :=
  ⟨r.width_resize _ _ _, r.height_resize _ _ _⟩

namespace FrameCache

/-- The memory of a cache is that of its rows. -/
theorem Consistent.bytes_rows {c : FrameCache α} (h : c.Consistent) :
    c.bytes = (c.rows.map CachedFrame.bytes).sum := by
  have hB : c.framesB.toList.length = c.framesA.toList.length := h.framesB_size
  have hP : c.progresses.toList.length = c.framesA.toList.length := h.progresses_size
  rw [h.bytes_eq, rows]
  generalize c.framesA.toList = as at hB hP ⊢
  generalize c.framesB.toList = bs at hB ⊢
  generalize c.progresses.toList = ps at hP ⊢
  induction as generalizing bs ps with
  | nil =>
      obtain rfl := List.length_eq_zero_iff.mp hB
      rfl
  | cons a as ih =>
      cases bs with
      | nil => cases hB
      | cons b bs =>
          cases ps with
          | nil => cases hP
          | cons p ps =>
              have hrest := ih bs (Nat.succ.inj hB) ps (Nat.succ.inj hP)
              simp only [List.map_cons, List.sum_cons, List.zip_cons_cons, CachedFrame.bytes]
                at hrest ⊢
              omega

def AllSized (config : CacheConfig) (c : FrameCache α) : Prop :=
  ∀ f ∈ c.rows, f.frameA.Sized config ∧ f.frameB.Sized config

theorem AllSized.bytes {config : CacheConfig} {c : FrameCache α} (h : c.AllSized config)
    (hc : c.Consistent) : c.bytes = c.size * config.pairBytes := by
  have heach : c.rows.map CachedFrame.bytes = List.replicate c.size config.pairBytes := by
    rw [List.eq_replicate_iff, List.length_map, hc.length_rows]
    refine ⟨rfl, ?_⟩
    intro b hb
    obtain ⟨f, hf, rfl⟩ := List.mem_map.mp hb
    exact CachedFrame.bytes_of_sized (h f hf).1 (h f hf).2
  rw [hc.bytes_rows, heach, List.sum_replicate, smul_eq_mul]

end FrameCache

namespace Build

/-! ## Steps -/

def isAt (clip : Clip) (b : Build α) : Bool :=
  match b.phase with
  | .seeking c _ | .settling c => c = clip
  | _ => false

def entersNext (b : Build α) : Bool := b.isReporting && decide (b.index + 1 < b.total)

theorem isSeeking_of_isAt {b : Build α} {clip : Clip} (h : b.isAt clip = true) :
    b.isSeeking = true := by
  cases hp : b.phase <;> simp_all [isAt, isSeeking]

variable [Scalar α]

/-- The part of the work that is done when the present pair is stored. -/
def share (b : Build α) : α := Scalar.ofNat (b.index + 1) / Scalar.ofNat b.total

omit [Scalar α] in
theorem fit_sized (c : FrameCache α) (i : Option Image) : (fit c i).Sized c.config := by
  unfold fit
  split
  · split
    · rename_i hsize
      exact Prod.ext_iff.mp hsize
    · exact c.resampler.sized c.config _
  · exact ⟨rfl, rfl⟩

/-- What one step of a build does if nothing disturbs it. -/
inductive Smooth (c : FrameCache α) (b : Build α) : Running α → Prop
  | settle (clip : Clip) (time : α) : b.phase = .seeking clip time →
      Smooth c b (c, { b with phase := .settling clip })
  | seekB (frameA : Image) (time : α) : b.isAt .a = true → frameA.Sized c.config →
      Smooth c b (c, { b with captured := frameA, phase := .seeking .b time })
  | push (frameA frameB : Image) : b.isSeeking = true → frameA.Sized c.config →
      frameB.Sized c.config →
      (c.push ⟨frameA, frameB, b.sample.progress⟩ b.share).bytes ≤ c.config.limitBytes →
      Smooth c b
        (c.push ⟨frameA, frameB, b.sample.progress⟩ b.share,
          { b with captured := frameA, phase := .report b.share })
  | fill (frameA frameB : Image) : b.isSeeking = true → frameA.Sized c.config →
      frameB.Sized c.config →
      c.config.limitBytes < (c.push ⟨frameA, frameB, b.sample.progress⟩ b.share).bytes →
      Smooth c b
        ((c.push ⟨frameA, frameB, b.sample.progress⟩ b.share).endBuild b.generation true,
          { b with captured := frameA, phase := .ended (.truncated (b.index + 1)) })
  | enter (time : α) : b.entersNext = true →
      Smooth c b (c, { b with index := b.index + 1, phase := .seeking .a time })
  | complete : b.isReporting = true → b.total ≤ b.index + 1 →
      Smooth c b
        (c.endBuild b.generation true,
          { b with index := b.index + 1, phase := .ended (.complete b.total) })
  | rest : b.hasEnded = true → Smooth c b (c, b)

section

variable {c : FrameCache α} {b : Build α}

/-- A position whose clips are usable begins with a seek of clip A. -/
theorem enterPosition_eq {v : View α} (hlt : b.index < b.total)
    (hrunning : c.isCancelled b.generation = false) (hv : bothUsable v = true) :
    ∃ time, enterPosition v c b = (c, { b with phase := .seeking .a time }) := by
  obtain ⟨time, htime⟩ := enterA_eq (c := c) (b := b) v hv
  refine ⟨time, ?_⟩
  unfold enterPosition
  rw [if_neg (Nat.not_le.mpr hlt), hrunning, hv]
  exact htime

theorem store_smooth (hown : Owns c b) (hb : b.isSeeking = true) {frameA frameB : Image}
    (hA : frameA.Sized c.config) (hB : frameB.Sized c.config) :
    Smooth c b (store c { b with captured := frameA } frameB) := by
  unfold store
  rw [if_neg (not_not.mpr hown.generation)]
  dsimp only
  split
  · rename_i hfull
    exact .fill frameA frameB hb hA hB hfull
  · rename_i hroom
    exact .push frameA frameB hb hA hB (Nat.not_lt.mp hroom)

theorem captureA_smooth (hown : Owns c b) (hb : b.isAt .a = true) (v : View α)
    (frame : Option Image) : Smooth c b (captureA v c b frame) := by
  have hA := fit_sized c frame
  unfold captureA enterB
  split
  · exact store_smooth hown (isSeeking_of_isAt hb) hA (fit_sized c none)
  · exact .seekB _ _ hb hA

theorem capture_smooth (hown : Owns c b) {clip : Clip} (hb : b.isAt clip = true)
    (hA : b.isAt .b = true → b.captured.Sized c.config) (v : View α) :
    Smooth c b (capture clip v c b) := by
  cases clip with
  | a => exact captureA_smooth hown hb v _
  | b => exact store_smooth hown (isSeeking_of_isAt hb) (hA hb) (fit_sized c _)

theorem resume_smooth (hown : Owns c b) (hbegun : b.hasBegun = true)
    (hA : b.isAt .b = true → b.captured.Sized c.config) {v : View α} {sought : SeekOutcome}
    (hsought : sought ≠ .cancelled) (hv : b.entersNext = true → bothUsable v = true) :
    Smooth c b (b.resume v sought c) := by
  have hrunning : ¬c.isCancelled b.generation = true := by simp [hown.running]
  unfold resume
  cases hp : b.phase with
  | called => simp [hasBegun, hp] at hbegun
  | grace => simp [hasBegun, hp] at hbegun
  | seeking clip time =>
      have hat : b.isAt clip = true := by simp [isAt, hp]
      simp only
      rw [if_neg hrunning]
      cases sought with
      | completed => exact .settle clip time hp
      | timedOut => exact capture_smooth hown hat hA v
      | failed _ => exact capture_smooth hown hat hA v
      | cancelled => exact absurd rfl hsought
  | settling clip =>
      have hat : b.isAt clip = true := by simp [isAt, hp]
      simp only
      rw [if_neg hrunning]
      exact capture_smooth hown hat hA v
  | report x =>
      have hreport : b.isReporting = true := by simp [isReporting, hp]
      by_cases hlast : b.total ≤ b.index + 1
      · simp only [enterPosition]
        rw [if_pos hlast]
        exact .complete hreport hlast
      · have henter : b.entersNext = true := by
          simpa [entersNext, hreport] using hlast
        obtain ⟨time, htime⟩ := enterPosition_eq (c := c) (b := { b with index := b.index + 1 })
          (Nat.not_le.mp hlast) hown.running (hv henter)
        simp only
        rw [← hp, htime]
        exact .enter time henter
  | ended o => exact .rest (by simp [hasEnded, hp])

theorem resume_of_hasEnded (hended : b.hasEnded = true) (v : View α) (sought : SeekOutcome) :
    b.resume v sought c = (c, b) := by
  unfold resume
  cases hp : b.phase <;> simp_all [hasEnded]

theorem Smooth.plan {y : Running α} (h : Smooth c b y) :
    y.2.params = b.params ∧ y.2.total = b.total := by
  cases h <;> exact ⟨rfl, rfl⟩

end

/-! ## How far a build is -/

/-- How a build ends by itself: complete, or with the first pair that exceeds the limit. -/
def EndsBy (config : CacheConfig) (total : Nat) (o : BuildOutcome α) : Prop :=
  (o = .complete total ∧ total * config.pairBytes ≤ config.limitBytes) ∨
    ∃ k, o = .truncated (k + 1) ∧ k < total ∧ k * config.pairBytes ≤ config.limitBytes ∧
      config.limitBytes < (k + 1) * config.pairBytes

omit [Scalar α] in
/-- The outcome depends on the limit and the number of planned pairs only. -/
theorem EndsBy.eq {config : CacheConfig} {total : Nat} {o : BuildOutcome α}
    (h : EndsBy config total o) :
    o = if total * config.pairBytes ≤ config.limitBytes then .complete total
      else .truncated (config.limitBytes / config.pairBytes + 1) := by
  rcases h with ⟨rfl, hroom⟩ | ⟨k, rfl, hk, hroom, hfull⟩
  · rw [if_pos hroom]
  · have hle : (k + 1) * config.pairBytes ≤ total * config.pairBytes :=
      Nat.mul_le_mul_right _ hk
    have hdiv : config.limitBytes / config.pairBytes = k := Nat.div_eq_of_lt_le hroom hfull
    rw [if_neg (Nat.not_le.mpr (Nat.lt_of_lt_of_le hfull hle)), hdiv]

omit [Scalar α] in
theorem EndsBy.isSuccess {config : CacheConfig} {total : Nat} {o : BuildOutcome α}
    (h : EndsBy config total o) : o.isSuccess = true := by
  rcases h with ⟨rfl, -⟩ | ⟨k, rfl, -⟩ <;> rfl

def reported (b : Build α) : Nat :=
  match b.phase with
  | .ended (.truncated k) => k - 1
  | _ => b.stored

/-- What the caller is told when the build leaves off. -/
def told (b : Build α) : List α :=
  match b.phase with
  | .report x => [x]
  | _ => []

/-- The most steps that the build can still take: five for each position. -/
def left (b : Build α) : Nat :=
  match b.phase with
  | .seeking .a _ => 5 * (b.total - b.index)
  | .settling .a => 5 * (b.total - b.index) - 1
  | .seeking .b _ => 5 * (b.total - b.index) - 2
  | .settling .b => 5 * (b.total - b.index) - 3
  | .report _ => 5 * (b.total - b.index) - 4
  | _ => 0

/-- A cache that a build fills with pairs of its size. -/
structure Filling (config : CacheConfig) (y : Running α) : Prop where
  config_eq : y.1.config = config
  consistent : y.1.Consistent
  size_eq : y.1.size = y.2.stored
  sized : y.1.AllSized config
  captured : y.2.isAt .b = true → y.2.captured.Sized config
  within : y.2.hasEnded = false → y.2.index < y.2.total
  room : y.2.hasEnded = false → y.2.stored * config.pairBytes ≤ config.limitBytes
  outcome : ∀ o, y.2.phase = .ended o → EndsBy config y.2.total o

namespace Filling

variable {config : CacheConfig} {c : FrameCache α} {b : Build α}

omit [Scalar α] in
theorem of_running {y : Running α} (hnot : y.2.hasEnded = false) (hconfig : y.1.config = config)
    (hconsistent : y.1.Consistent) (hsize : y.1.size = y.2.stored) (hsized : y.1.AllSized config)
    (hcaptured : y.2.isAt .b = true → y.2.captured.Sized config)
    (hwithin : y.2.index < y.2.total)
    (hroom : y.2.stored * config.pairBytes ≤ config.limitBytes) : Filling config y where
  config_eq := hconfig
  consistent := hconsistent
  size_eq := hsize
  sized := hsized
  captured := hcaptured
  within _ := hwithin
  room _ := hroom
  outcome o hp := by simp [hasEnded, hp] at hnot

omit [Scalar α] in
theorem of_ended {y : Running α} {o : BuildOutcome α} (hp : y.2.phase = .ended o)
    (hconfig : y.1.config = config) (hconsistent : y.1.Consistent)
    (hsize : y.1.size = y.2.stored) (hsized : y.1.AllSized config)
    (houtcome : EndsBy config y.2.total o) : Filling config y where
  config_eq := hconfig
  consistent := hconsistent
  size_eq := hsize
  sized := hsized
  captured hat := by simp [isAt, hp] at hat
  within hnot := by simp [hasEnded, hp] at hnot
  room hnot := by simp [hasEnded, hp] at hnot
  outcome o' hp' := by
    obtain rfl : o = o' := by simpa using hp.symm.trans hp'
    exact houtcome

omit [Scalar α] in
/-- The tokens of the builds do not matter. -/
theorem congr (h : Filling config (c, b)) {d : FrameCache α} (hconfig : d.config = c.config)
    (hA : d.framesA = c.framesA) (hB : d.framesB = c.framesB) (hP : d.progresses = c.progresses)
    (hbytes : d.bytes = c.bytes) : Filling config (d, b) where
  config_eq := hconfig.trans h.config_eq
  consistent := h.consistent.of_columns hA hB hP hbytes
  size_eq := (congrArg Array.size hA).trans h.size_eq
  sized := by
    have hrows : d.rows = c.rows := by rw [FrameCache.rows, FrameCache.rows, hA, hB, hP]
    rw [FrameCache.AllSized, hrows]
    exact h.sized
  captured := h.captured
  within := h.within
  room := h.room
  outcome := h.outcome

omit [Scalar α] in
theorem push (h : Filling config (c, b)) (hseek : b.isSeeking = true) {f : CachedFrame α}
    (hA : f.frameA.Sized config) (hB : f.frameB.Sized config) (progress : α) :
    (c.push f progress).Consistent ∧ (c.push f progress).AllSized config ∧
      (c.push f progress).size = b.index + 1 ∧
      (c.push f progress).bytes = (b.index + 1) * config.pairBytes := by
  have hconsistent := h.consistent.push f progress
  have hsized : (c.push f progress).AllSized config := by
    intro g hg
    rw [h.consistent.rows_push] at hg
    rcases List.mem_append.mp hg with hg | hg
    · exact h.sized g hg
    · obtain rfl := List.mem_singleton.mp hg
      exact ⟨hA, hB⟩
  have hsize : (c.push f progress).size = b.index + 1 := by
    have hold : c.size = b.index := h.size_eq.trans (stored_of_isSeeking hseek)
    rw [← hold]
    exact Array.size_push f.frameA
  exact ⟨hconsistent, hsized, hsize, by rw [hsized.bytes hconsistent, hsize]⟩

end Filling

/-- A step that nothing disturbs goes on filling the cache. -/
theorem Smooth.filling {config : CacheConfig} {c : FrameCache α} {b : Build α} {y : Running α}
    (h : Smooth c b y) (hfill : Filling config (c, b)) (hown : c.generation = b.generation) :
    Filling config y := by
  have hconfig : c.config = config := hfill.config_eq
  cases h with
  | settle clip time hp =>
      have hseek : b.isSeeking = true := by simp [isSeeking, hp]
      have hstored := stored_of_isSeeking hseek
      have hnot := hasEnded_of_isSeeking hseek
      refine .of_running rfl hconfig hfill.consistent (hfill.size_eq.trans hstored) hfill.sized ?_
        (hfill.within hnot) (hstored ▸ hfill.room hnot)
      intro hat
      have hclip : clip = .b := by simpa [isAt] using hat
      exact hfill.captured (by simp [isAt, hp, hclip])
  | seekB frameA time hat hA =>
      have hseek := isSeeking_of_isAt hat
      have hstored := stored_of_isSeeking hseek
      have hnot := hasEnded_of_isSeeking hseek
      exact .of_running rfl hconfig hfill.consistent (hfill.size_eq.trans hstored) hfill.sized
        (fun _ => hconfig ▸ hA) (hfill.within hnot) (hstored ▸ hfill.room hnot)
  | push frameA frameB hseek hA hB hroom =>
      have hnot := hasEnded_of_isSeeking hseek
      rw [hconfig] at hA hB hroom
      obtain ⟨hconsistent, hsized, hsize, hbytes⟩ :=
        hfill.push (f := ⟨frameA, frameB, b.sample.progress⟩) hseek hA hB b.share
      refine .of_running rfl hconfig hconsistent hsize hsized ?_ (hfill.within hnot)
        (hbytes ▸ hroom)
      intro hat
      cases hat
  | fill frameA frameB hseek hA hB hfull =>
      have hnot := hasEnded_of_isSeeking hseek
      rw [hconfig] at hA hB hfull
      obtain ⟨hconsistent, hsized, hsize, hbytes⟩ :=
        hfill.push (f := ⟨frameA, frameB, b.sample.progress⟩) hseek hA hB b.share
      -- the pair that exceeds the limit stays, and the build ends with it
      have hend := FrameCache.endBuild_keep
        (c := c.push ⟨frameA, frameB, b.sample.progress⟩ b.share) hown
      rw [hend]
      refine .of_ended rfl hconfig (hconsistent.of_columns rfl rfl rfl rfl) hsize hsized ?_
      have hroom := hfill.room hnot
      rw [stored_of_isSeeking hseek] at hroom
      exact .inr ⟨b.index, rfl, hfill.within hnot, hroom, hbytes ▸ hfull⟩
  | enter time henter =>
      obtain ⟨hreport, hlt⟩ : b.isReporting = true ∧ b.index + 1 < b.total := by
        simpa [entersNext] using henter
      have hstored := stored_of_isReporting hreport
      have hnot := hasEnded_of_isReporting hreport
      refine .of_running rfl hconfig hfill.consistent (hfill.size_eq.trans hstored) hfill.sized ?_
        hlt (hstored ▸ hfill.room hnot)
      intro hat
      cases hat
  | complete hreport hlast =>
      have hstored := stored_of_isReporting hreport
      have hnot := hasEnded_of_isReporting hreport
      have htotal : b.index + 1 = b.total := Nat.le_antisymm (hfill.within hnot) hlast
      have hsize : c.size = b.total := hfill.size_eq.trans (hstored.trans htotal)
      rw [FrameCache.endBuild_keep hown]
      refine .of_ended rfl hconfig (hfill.consistent.of_columns rfl rfl rfl rfl) hsize hfill.sized ?_
      have hroom := hfill.room hnot
      rw [hstored, htotal] at hroom
      exact .inl ⟨rfl, hroom⟩
  | rest => exact hfill

/-! ## Steps that remain -/

omit [Scalar α] in
theorem le_left_of_isSeeking {b : Build α} (h : b.isSeeking = true) :
    5 * (b.total - b.index) - 3 ≤ b.left := by
  cases hp : b.phase with
  | seeking clip time => cases clip <;> simp only [left, hp] <;> omega
  | settling clip => cases clip <;> simp only [left, hp] <;> omega
  | called => simp [isSeeking, hp] at h
  | grace => simp [isSeeking, hp] at h
  | report x => simp [isSeeking, hp] at h
  | ended o => simp [isSeeking, hp] at h

omit [Scalar α] in
theorem left_of_isReporting {b : Build α} (h : b.isReporting = true) :
    b.left = 5 * (b.total - b.index) - 4 := by
  cases hp : b.phase with
  | report x => simp only [left, hp]
  | called => simp [isReporting, hp] at h
  | grace => simp [isReporting, hp] at h
  | seeking clip time => simp [isReporting, hp] at h
  | settling clip => simp [isReporting, hp] at h
  | ended o => simp [isReporting, hp] at h

omit [Scalar α] in
theorem left_pos {b : Build α} (hbegun : b.hasBegun = true) (hnot : b.hasEnded = false)
    (hwithin : b.index < b.total) : 0 < b.left := by
  cases hseek : b.isSeeking with
  | true =>
      have hle := le_left_of_isSeeking hseek
      omega
  | false =>
      have hreport : b.isReporting = true := by
        cases hp : b.phase <;> simp_all [hasBegun, hasEnded, isSeeking, isReporting]
      rw [left_of_isReporting hreport]
      omega

/-- A build that has not ended is a step closer to its end after each step. -/
theorem Smooth.left_lt {c : FrameCache α} {b : Build α} {y : Running α} (h : Smooth c b y)
    (hnot : b.hasEnded = false) (hwithin : b.index < b.total) : y.2.left < b.left := by
  cases h with
  | settle clip time hp =>
      cases clip <;> simp only [left, hp] <;> omega
  | seekB frameA time hat =>
      cases hp : b.phase with
      | seeking clip t =>
          obtain rfl : clip = .a := by simpa [isAt, hp] using hat
          simp only [left, hp]
          omega
      | settling clip =>
          obtain rfl : clip = .a := by simpa [isAt, hp] using hat
          simp only [left, hp]
          omega
      | called => simp [isAt, hp] at hat
      | grace => simp [isAt, hp] at hat
      | report x => simp [isAt, hp] at hat
      | ended o => simp [isAt, hp] at hat
  | push frameA frameB hseek =>
      have hle := le_left_of_isSeeking hseek
      change 5 * (b.total - b.index) - 4 < b.left
      omega
  | fill frameA frameB hseek =>
      have hle := le_left_of_isSeeking hseek
      change 0 < b.left
      omega
  | enter time henter =>
      obtain ⟨hreport, hlt⟩ : b.isReporting = true ∧ b.index + 1 < b.total := by
        simpa [entersNext] using henter
      rw [left_of_isReporting hreport]
      change 5 * (b.total - (b.index + 1)) < 5 * (b.total - b.index) - 4
      omega
  | complete hreport =>
      rw [left_of_isReporting hreport]
      change 0 < 5 * (b.total - b.index) - 4
      omega
  | rest hended => simp [hended] at hnot

omit [Scalar α] in
theorem reported_of_not_hasEnded {b : Build α} (h : b.hasEnded = false) :
    b.reported = b.stored := by
  cases hp : b.phase <;> simp_all [reported, hasEnded]

/-- The caller is told of each further pair when it has been stored. -/
theorem Smooth.told {c : FrameCache α} {b : Build α} {y : Running α} (h : Smooth c b y)
    (hwithin : b.index < b.total) (hnot : b.hasEnded = false) :
    Export.shares y.2.total y.2.reported = Export.shares b.total b.reported ++ y.2.told := by
  rw [reported_of_not_hasEnded hnot]
  cases h with
  | settle clip time hp =>
      have hstored : b.stored = b.index := by simp [stored, hp]
      rw [hstored]
      exact (List.append_nil _).symm
  | seekB frameA time hat =>
      rw [stored_of_isSeeking (isSeeking_of_isAt hat)]
      exact (List.append_nil _).symm
  | push frameA frameB hseek =>
      rw [stored_of_isSeeking hseek]
      exact Export.shares_succ b.total b.index
  | fill frameA frameB hseek =>
      rw [stored_of_isSeeking hseek]
      exact (List.append_nil _).symm
  | enter time henter =>
      obtain ⟨hreport, _⟩ : b.isReporting = true ∧ b.index + 1 < b.total := by
        simpa [entersNext] using henter
      rw [stored_of_isReporting hreport]
      exact (List.append_nil _).symm
  | complete hreport hlast =>
      have htotal : b.index + 1 = b.total := Nat.le_antisymm hwithin hlast
      rw [stored_of_isReporting hreport, htotal]
      exact (List.append_nil _).symm
  | rest hended => simp [hended] at hnot

omit [Scalar α] in
theorem EndsBy.reported {config : CacheConfig} {b : Build α} {o : BuildOutcome α}
    (h : EndsBy config b.total o) (hp : b.phase = .ended o) :
    b.stored = (if b.total * config.pairBytes ≤ config.limitBytes then b.total
      else config.limitBytes / config.pairBytes + 1) ∧
    b.reported = (if b.total * config.pairBytes ≤ config.limitBytes then b.total
      else config.limitBytes / config.pairBytes) := by
  rw [h.eq] at hp
  by_cases hroom : b.total * config.pairBytes ≤ config.limitBytes
  · rw [if_pos hroom] at hp ⊢
    rw [if_pos hroom]
    exact ⟨by simp [stored, hp], by simp [Build.reported, stored, hp]⟩
  · rw [if_neg hroom] at hp ⊢
    rw [if_neg hroom]
    exact ⟨by simp [stored, hp], by simp [Build.reported, hp]⟩

/-! ## Taking over -/

/-- Clips of these lengths fit a request, and there are positions to take. -/
structure Fits (request : CacheRequest α) (margin : α) (v : View α) (params : Timeline.Params α)
    (total : Nat) : Prop where
  clips : ∃ durationA durationB, usableDuration (v.duration .a) = some durationA ∧
    usableDuration (v.duration .b) = some durationB ∧
    request.matchesClips durationA durationB = true ∧
    request.params durationA durationB margin = .ok params
  total_eq : Timeline.frameCount request.mode params request.fps = total
  pos : total ≠ 0

/-- A build whose clips fit begins with the first position. -/
theorem takeOver_eq {c : FrameCache α} {b : Build α} {v : View α} {params : Timeline.Params α}
    {total : Nat} (hnext : HasNext c) (hfits : Fits b.request c.margin v params total) :
    ∃ time, takeOver v c b =
      ({ c.beginBuild b.request with planned := total },
        { b with
          generation := c.generation + 1, params, total, index := 0
          phase := .seeking .a time }) := by
  obtain ⟨⟨durationA, durationB, hA, hB, hclips, hparams⟩, htotal, hpos⟩ := hfits
  have husable : bothUsable v = true := by simp [bothUsable, hA, hB]
  have hparams' : b.request.params durationA durationB (c.beginBuild b.request).margin =
      .ok params := hparams
  obtain ⟨time, htime⟩ := enterPosition_eq (v := v)
    (c := { c.beginBuild b.request with planned := total })
    (b := { b with generation := (c.beginBuild b.request).generation, params, total, index := 0 })
    (Nat.pos_of_ne_zero hpos) (owns_beginBuild hnext b).running husable
  refine ⟨time, ?_⟩
  simp only [takeOver, plan, hA, hB, hclips, hparams', htotal, hpos, Bool.not_true,
    Bool.false_eq_true, if_false]
  exact htime

theorem filling_takeOver {config : CacheConfig} {c : FrameCache α} {b : Build α} {v : View α}
    {params : Timeline.Params α} {total : Nat} (hconfig : c.config = config) (hnext : HasNext c)
    (hfits : Fits b.request c.margin v params total) :
    Filling config (takeOver v c b) ∧ (takeOver v c b).2.left = 5 * total ∧
      (takeOver v c b).2.reported = 0 ∧ (takeOver v c b).2.told = [] := by
  obtain ⟨time, htime⟩ := takeOver_eq hnext hfits
  rw [htime]
  refine ⟨.of_running rfl hconfig ⟨rfl, rfl, rfl⟩ rfl ?_ ?_ (Nat.pos_of_ne_zero hfits.pos) ?_,
    rfl, rfl, rfl⟩
  · intro f hf
    cases hf
  · intro hat
    cases hat
  · exact (Nat.zero_mul _).trans_le (Nat.zero_le _)

end Build

end Segue
