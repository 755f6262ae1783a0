import Mathlib
import Segue.Cache.Build

/-!
# The steps of a build

One step of a build does one of ten things, listed in `Build.Move`. A build that is no longer the
latest one leaves the cache alone, whatever it does. The rows of a cache and their memory are kept
right by every change that a step can make.
-/

namespace Segue

variable {α : Type}

namespace FrameCache

/-! ## Rows -/

def rows (c : FrameCache α) : List (CachedFrame α) :=
  (c.framesA.toList.zip (c.framesB.toList.zip c.progresses.toList)).map
    fun (frameA, frameB, progress) => ⟨frameA, frameB, progress⟩

/-- The columns are equally long, and the memory is that of all stored frames. -/
structure Consistent (c : FrameCache α) : Prop where
  framesB_size : c.framesB.size = c.framesA.size
  progresses_size : c.progresses.size = c.framesA.size
  bytes_eq : c.bytes =
    (c.framesA.toList.map Image.bytes).sum + (c.framesB.toList.map Image.bytes).sum

theorem Consistent.length_rows {c : FrameCache α} (h : c.Consistent) :
    c.rows.length = c.size := by
  simp [rows, size, h.framesB_size, h.progresses_size]

theorem Consistent.push {c : FrameCache α} (h : c.Consistent) (f : CachedFrame α) (x : α) :
    (c.push f x).Consistent where
  framesB_size := by simp [FrameCache.push, h.framesB_size]
  progresses_size := by simp [FrameCache.push, h.progresses_size]
  bytes_eq := by
    simp [FrameCache.push, h.bytes_eq, CachedFrame.bytes]
    omega

theorem Consistent.rows_push {c : FrameCache α} (h : c.Consistent) (f : CachedFrame α) (x : α) :
    (c.push f x).rows = c.rows ++ [f] := by
  have hA : c.framesA.toList.length = (c.framesB.toList.zip c.progresses.toList).length := by
    simp [h.framesB_size, h.progresses_size]
  have hB : c.framesB.toList.length = c.progresses.toList.length := by
    simp [h.framesB_size, h.progresses_size]
  simp [rows, FrameCache.push, List.zip_append hB, List.zip_append hA]

/-- Nothing but the columns and the memory matters for the rows. -/
theorem Consistent.of_columns {c d : FrameCache α} (h : c.Consistent)
    (hA : d.framesA = c.framesA) (hB : d.framesB = c.framesB)
    (hP : d.progresses = c.progresses) (hbytes : d.bytes = c.bytes) : d.Consistent :=
  ⟨by rw [hA, hB, h.framesB_size], by rw [hA, hP, h.progresses_size],
    by rw [hA, hB, hbytes, h.bytes_eq]⟩

/-- Two caches were made with the same. -/
structure SameTuning (d c : FrameCache α) : Prop where
  config_eq : d.config = c.config
  margin_eq : d.margin = c.margin
  resampler_eq : d.resampler = c.resampler

theorem SameTuning.refl (c : FrameCache α) : c.SameTuning c := ⟨rfl, rfl, rfl⟩

theorem SameTuning.symm {c d : FrameCache α} (h : d.SameTuning c) : c.SameTuning d :=
  ⟨h.config_eq.symm, h.margin_eq.symm, h.resampler_eq.symm⟩

theorem SameTuning.trans {b c d : FrameCache α} (h : d.SameTuning c) (h' : c.SameTuning b) :
    d.SameTuning b :=
  ⟨h.config_eq.trans h'.config_eq, h.margin_eq.trans h'.margin_eq,
    h.resampler_eq.trans h'.resampler_eq⟩

variable [Scalar α]

theorem Consistent.row?_eq {c : FrameCache α} (h : c.Consistent) (i : Nat) :
    c.row? i = c.rows[i]? := by
  have hB := h.framesB_size
  have hP := h.progresses_size
  by_cases hi : i < c.framesA.size
  · have hiB : i < c.framesB.size := by omega
    have hiP : i < c.progresses.size := by omega
    simp [row?, rows, hi, hiB, hiP]
  · simp [row?, rows, hi]

theorem reset_consistent (c : FrameCache α) : c.reset.Consistent :=
  ⟨rfl, rfl, rfl⟩

@[simp] theorem rows_reset (c : FrameCache α) : c.reset.rows = [] := rfl

theorem endBuild_keep {c : FrameCache α} {g : Nat} (h : c.generation = g) :
    c.endBuild g true = { c with building := false, token := none } := by
  simp [endBuild, h]

theorem endBuild_drop {c : FrameCache α} {g : Nat} (h : c.generation = g) :
    c.endBuild g false = { c with building := false, token := none }.reset := by
  simp [endBuild, h]

theorem endBuild_of_ne {c : FrameCache α} {g : Nat} (h : c.generation ≠ g) (keep : Bool) :
    c.endBuild g keep = c := by
  simp [endBuild, h]

@[simp]
theorem rows_endBuild_keep (c : FrameCache α) (g : Nat) : (c.endBuild g true).rows = c.rows := by
  unfold endBuild
  split <;> rfl

@[simp] theorem endBuild_generation (c : FrameCache α) (g : Nat) (keep : Bool) :
    (c.endBuild g keep).generation = c.generation := by
  unfold endBuild
  split
  · cases keep <;> rfl
  · rfl

@[simp] theorem endBuild_cancelled (c : FrameCache α) (g : Nat) (keep : Bool) :
    (c.endBuild g keep).cancelled = c.cancelled := by
  unfold endBuild
  split
  · cases keep <;> rfl
  · rfl

theorem endBuild_tuning (c : FrameCache α) (g : Nat) (keep : Bool) :
    (c.endBuild g keep).SameTuning c := by
  unfold endBuild
  split
  · cases keep <;> exact ⟨rfl, rfl, rfl⟩
  · exact .refl c

end FrameCache

namespace Build

/-! ## Phases -/

def hasBegun (b : Build α) : Bool :=
  match b.phase with
  | .called | .grace => false
  | _ => true

def hasEnded (b : Build α) : Bool :=
  match b.phase with
  | .ended _ => true
  | _ => false

def isSeeking (b : Build α) : Bool :=
  match b.phase with
  | .seeking _ _ | .settling _ => true
  | _ => false

def isReporting (b : Build α) : Bool :=
  match b.phase with
  | .report _ => true
  | _ => false

/-- The build has ended without frames that can be used. -/
def hasFailed (b : Build α) : Bool :=
  match b.phase with
  | .ended o => !o.isSuccess
  | _ => false

def stored (b : Build α) : Nat :=
  match b.phase with
  | .called | .grace => 0
  | .seeking _ _ | .settling _ => b.index
  | .report _ => b.index + 1
  | .ended (.complete n) | .ended (.truncated n) => n
  | .ended _ => 0

theorem hasBegun_of_isSeeking {b : Build α} (h : b.isSeeking = true) : b.hasBegun = true := by
  cases hp : b.phase <;> simp_all [isSeeking, hasBegun]

theorem hasEnded_of_isSeeking {b : Build α} (h : b.isSeeking = true) : b.hasEnded = false := by
  cases hp : b.phase <;> simp_all [isSeeking, hasEnded]

theorem hasBegun_of_isReporting {b : Build α} (h : b.isReporting = true) :
    b.hasBegun = true := by
  cases hp : b.phase <;> simp_all [isReporting, hasBegun]

theorem hasEnded_of_isReporting {b : Build α} (h : b.isReporting = true) :
    b.hasEnded = false := by
  cases hp : b.phase <;> simp_all [isReporting, hasEnded]

theorem hasEnded_of_hasFailed {b : Build α} (h : b.hasFailed = true) : b.hasEnded = true := by
  cases hp : b.phase <;> simp_all [hasFailed, hasEnded]

theorem not_complete_of_hasFailed {b : Build α} (h : b.hasFailed = true) :
    ∀ n, b.phase = .ended (.complete n) → n = b.total := by
  intro n hn
  simp [hasFailed, hn, BuildOutcome.isSuccess] at h

theorem hasFailed_of_not_hasEnded {b : Build α} (h : b.hasEnded = false) :
    b.hasFailed = false := by
  cases hp : b.phase <;> simp_all [hasFailed, hasEnded]

theorem hasBegun_of_hasEnded {b : Build α} (h : b.hasEnded = true) : b.hasBegun = true := by
  cases hp : b.phase <;> simp_all [hasBegun, hasEnded]

theorem exists_outcome {b : Build α} (h : b.hasEnded = true) : ∃ o, b.phase = .ended o := by
  cases hp : b.phase <;> simp_all [hasEnded]

theorem stored_of_isSeeking {b : Build α} (h : b.isSeeking = true) : b.stored = b.index := by
  cases hp : b.phase <;> simp_all [isSeeking, stored]

theorem stored_of_isReporting {b : Build α} (h : b.isReporting = true) :
    b.stored = b.index + 1 := by
  cases hp : b.phase <;> simp_all [isReporting, stored]

/-! ## Moves -/

variable [Scalar α]

/-- What one step of a build does to the cache and to the build. -/
inductive Move (c : FrameCache α) (b : Build α) : Running α → Prop
  | yield : b.phase = .called → Move c b (c.cancel, { b with phase := .grace })
  /-- Takes the cache over and ends without a frame. -/
  | refuse (planned : Nat) (b' : Build α) : b.hasBegun = false → b'.hasFailed = true →
      b'.generation = c.generation + 1 → b'.request = b.request →
      Move c b
        ({ c.beginBuild b.request with planned }.endBuild (c.generation + 1) false, b')
  /-- Takes the cache over and seeks the first position. -/
  | takeOver (params : Timeline.Params α) (total : Nat) (time : α) : b.hasBegun = false →
      total ≠ 0 →
      Move c b
        ({ c.beginBuild b.request with planned := total },
          { b with
            generation := c.generation + 1, params, total, index := 0
            phase := .seeking .a time })
  | wait (b' : Build α) (i : Image) (phase : Phase α) : b.isSeeking = true →
      b' = { b with captured := i, phase } → b'.isSeeking = true → Move c b (c, b')
  | push (frameA frameB : Image) (progress : α) : b.isSeeking = true →
      c.generation = b.generation →
      Move c b
        (c.push ⟨frameA, frameB, b.sample.progress⟩ progress,
          { b with captured := frameA, phase := .report progress })
  /-- Stores the pair of the present position, after which the memory is full. -/
  | fill (frameA frameB : Image) (progress : α) : b.isSeeking = true →
      c.generation = b.generation →
      Move c b
        ((c.push ⟨frameA, frameB, b.sample.progress⟩ progress).endBuild b.generation true,
          { b with captured := frameA, phase := .ended (.truncated (b.index + 1)) })
  | advance (time : α) : b.isReporting = true → b.index + 1 < b.total →
      Move c b (c, { b with index := b.index + 1, phase := .seeking .a time })
  | complete : b.isReporting = true → b.total ≤ b.index + 1 →
      Move c b
        (c.endBuild b.generation true,
          { b with index := b.index + 1, phase := .ended (.complete b.total) })
  | fail (b' : Build α) : b.hasBegun = true → b.hasEnded = false → b'.hasFailed = true →
      b'.generation = b.generation → b'.request = b.request →
      Move c b (c.endBuild b.generation false, b')
  /-- An ended build does nothing. -/
  | rest : b.hasEnded = true → Move c b (c, b)

theorem finish_move {c : FrameCache α} {b : Build α} (o : BuildOutcome α) (b' : Build α)
    (ho : o.isSuccess = false) (hbegun : b.hasBegun = true) (hended : b.hasEnded = false)
    (hg : b'.generation = b.generation) (hr : b'.request = b.request) :
    Move c b (finish o c b') := by
  have h := Move.fail (c := c) { b' with phase := .ended o } hbegun hended
    (by simp [hasFailed, ho]) hg hr
  simpa [finish, ho, hg] using h

theorem store_move {c : FrameCache α} {b : Build α} (hb : b.isSeeking = true)
    (frameA frameB : Image) :
    Move c b (store c { b with captured := frameA } frameB) := by
  unfold store
  split
  · exact finish_move _ _ rfl (hasBegun_of_isSeeking hb) (hasEnded_of_isSeeking hb) rfl rfl
  · rename_i hg
    have hown : c.generation = b.generation := by simpa using hg
    dsimp only
    split
    · exact .fill frameA frameB _ hb hown
    · exact .push frameA frameB _ hb hown

theorem enterB_move {c : FrameCache α} {b : Build α} (v : View α) (hb : b.isSeeking = true)
    (frameA : Image) : Move c b (enterB v c { b with captured := frameA }) := by
  unfold enterB
  split
  · exact store_move hb frameA _
  · exact .wait _ frameA _ hb rfl rfl

theorem capture_move {c : FrameCache α} {b : Build α} (clip : Clip) (v : View α)
    (hb : b.isSeeking = true) : Move c b (capture clip v c b) := by
  cases clip with
  | a => exact enterB_move v hb _
  | b => exact store_move hb b.captured _

/-- Where both clips have a length, the next thing is a seek of clip A. -/
theorem enterA_eq {c : FrameCache α} {b : Build α} (v : View α) (h : bothUsable v = true) :
    ∃ time, enterA v c b = (c, { b with phase := .seeking .a time }) := by
  unfold enterA
  cases hd : usableDuration (v.duration .a) with
  | none => simp [bothUsable, hd] at h
  | some d => exact ⟨_, rfl⟩

theorem enterPosition_move {c : FrameCache α} {b : Build α} (v : View α)
    (hb : b.isReporting = true) :
    Move c b (enterPosition v c { b with index := b.index + 1 }) := by
  have hbegun := hasBegun_of_isReporting hb
  have hended := hasEnded_of_isReporting hb
  unfold enterPosition
  split
  · rename_i hlast
    exact .complete hb hlast
  · rename_i hlast
    split
    · exact finish_move _ _ rfl hbegun hended rfl rfl
    · split
      · exact finish_move _ _ rfl hbegun hended rfl rfl
      · rename_i husable
        obtain ⟨time, htime⟩ := enterA_eq (c := c) (b := { b with index := b.index + 1 }) v
          (by simpa using husable)
        rw [htime]
        exact .advance time hb (by simpa using hlast)

theorem refuse_move {c : FrameCache α} {b : Build α} (o : BuildOutcome α) (planned : Nat)
    (b' : Build α) (ho : o.isSuccess = false) (hb : b.hasBegun = false)
    (hg : b'.generation = c.generation + 1) (hr : b'.request = b.request) :
    Move c b (finish o { c.beginBuild b.request with planned } b') := by
  have h := Move.refuse (c := c) planned { b' with phase := .ended o } hb
    (by simp [hasFailed, ho]) hg hr
  simpa [finish, ho, hg] using h

theorem plan_move {c : FrameCache α} {b : Build α} (v : View α) (durationA durationB : α)
    (hb : b.hasBegun = false) :
    Move c b (plan v (c.beginBuild b.request)
      { b with generation := (c.beginBuild b.request).generation } durationA durationB) := by
  unfold plan
  split
  · exact refuse_move _ 0 _ rfl hb rfl rfl
  · split
    · exact refuse_move _ 0 _ rfl hb rfl rfl
    · rename_i params _
      dsimp only
      split
      · exact refuse_move _ 0 _ rfl hb rfl rfl
      · rename_i htotal
        unfold enterPosition
        split
        · rename_i hlast
          exact absurd (Nat.le_zero.mp hlast) htotal
        · split
          · exact refuse_move _ _ _ rfl hb rfl rfl
          · split
            · exact refuse_move _ _ _ rfl hb rfl rfl
            · rename_i husable
              obtain ⟨time, htime⟩ := enterA_eq v (by simpa using husable)
              rw [htime]
              exact .takeOver params _ time hb htotal

theorem takeOver_move {c : FrameCache α} {b : Build α} (v : View α) (hb : b.hasBegun = false) :
    Move c b (takeOver v c b) := by
  unfold takeOver
  dsimp only
  split
  · exact plan_move v _ _ hb
  · exact refuse_move _ 0 _ rfl hb rfl rfl

/-- Every step is one of the moves. -/
theorem resume_move (v : View α) (sought : SeekOutcome) (c : FrameCache α) (b : Build α) :
    Move c b (b.resume v sought c) := by
  unfold resume
  split
  · rename_i hp
    have hb : b.hasBegun = false := by simp [hasBegun, hp]
    unfold start
    split
    · exact .yield hp
    · exact takeOver_move v hb
  · rename_i hp
    exact takeOver_move v (by simp [hasBegun, hp])
  · rename_i clip time hp
    have hb : b.isSeeking = true := by simp [isSeeking, hp]
    have hbegun := hasBegun_of_isSeeking hb
    have hended := hasEnded_of_isSeeking hb
    split
    · exact finish_move _ _ rfl hbegun hended rfl rfl
    · cases sought with
      | cancelled => exact finish_move _ _ rfl hbegun hended rfl rfl
      | completed => exact .wait _ b.captured (.settling clip) hb rfl rfl
      | timedOut => exact capture_move clip v hb
      | failed _ => exact capture_move clip v hb
  · rename_i clip hp
    have hb : b.isSeeking = true := by simp [isSeeking, hp]
    split
    · exact finish_move _ _ rfl (hasBegun_of_isSeeking hb) (hasEnded_of_isSeeking hb) rfl rfl
    · exact capture_move clip v hb
  · rename_i x hp
    exact enterPosition_move v (by simp [isReporting, hp])
  · rename_i o hp
    exact .rest (by simp [hasEnded, hp])

/-! ## What all moves have in common -/

/-- A build that has begun stays what it is. -/
theorem Move.hasBegun {c : FrameCache α} {b : Build α} {y : Running α} (h : Move c b y)
    (hb : b.hasBegun = true) : y.2.hasBegun = true ∧ y.2.generation = b.generation := by
  cases h with
  | yield hp => simp [Build.hasBegun, hp] at hb
  | refuse _ _ hnot => simp [hnot] at hb
  | takeOver _ _ _ hnot => simp [hnot] at hb
  | wait b' i phase _ hb' hseek =>
      subst hb'
      exact ⟨hasBegun_of_isSeeking hseek, rfl⟩
  | push => exact ⟨rfl, rfl⟩
  | fill => exact ⟨rfl, rfl⟩
  | advance => exact ⟨rfl, rfl⟩
  | complete => exact ⟨rfl, rfl⟩
  | fail b' _ _ hfailed hg =>
      exact ⟨hasBegun_of_hasEnded (hasEnded_of_hasFailed hfailed), hg⟩
  | rest => exact ⟨hb, rfl⟩

/-- A build that is not the latest one leaves the cache alone. -/
theorem Move.stale {c : FrameCache α} {b : Build α} {y : Running α} (h : Move c b y)
    (hb : b.hasBegun = true) (hg : c.generation ≠ b.generation) : y.1 = c := by
  cases h with
  | yield hp => simp [Build.hasBegun, hp] at hb
  | refuse _ _ hnot => simp [hnot] at hb
  | takeOver _ _ _ hnot => simp [hnot] at hb
  | wait => rfl
  | push _ _ _ _ hown => exact absurd hown hg
  | fill _ _ _ _ hown => exact absurd hown hg
  | advance => rfl
  | complete => exact FrameCache.endBuild_of_ne hg true
  | fail => exact FrameCache.endBuild_of_ne hg false
  | rest => rfl

/-- A new generation begins with a build that takes the cache over, and only then. -/
theorem Move.generation {c : FrameCache α} {b : Build α} {y : Running α} (h : Move c b y) :
    (y.1.generation = c.generation ∧ y.2.hasBegun = b.hasBegun) ∨
      (b.hasBegun = false ∧ y.1.generation = c.generation + 1 ∧ y.2.hasBegun = true ∧
        y.2.generation = c.generation + 1) := by
  cases h with
  | yield hp => exact .inl ⟨rfl, by simp [Build.hasBegun, hp]⟩
  | refuse _ _ hnot hfailed hg =>
      exact .inr ⟨hnot, FrameCache.endBuild_generation _ _ _,
        hasBegun_of_hasEnded (hasEnded_of_hasFailed hfailed), hg⟩
  | takeOver _ _ _ hnot => exact .inr ⟨hnot, rfl, rfl, rfl⟩
  | wait b' i phase hseek hb' hseek' =>
      exact .inl ⟨rfl, by rw [hasBegun_of_isSeeking hseek, hasBegun_of_isSeeking hseek']⟩
  | push _ _ _ hseek => exact .inl ⟨rfl, (hasBegun_of_isSeeking hseek).symm⟩
  | fill _ _ _ hseek =>
      exact .inl ⟨FrameCache.endBuild_generation _ _ _, (hasBegun_of_isSeeking hseek).symm⟩
  | advance _ hreport => exact .inl ⟨rfl, (hasBegun_of_isReporting hreport).symm⟩
  | complete hreport =>
      exact .inl ⟨FrameCache.endBuild_generation _ _ _, (hasBegun_of_isReporting hreport).symm⟩
  | fail b' hbegun _ hfailed =>
      exact .inl ⟨FrameCache.endBuild_generation _ _ _,
        by rw [hbegun, hasBegun_of_hasEnded (hasEnded_of_hasFailed hfailed)]⟩
  | rest => exact .inl ⟨rfl, rfl⟩

/-- After its rest a build takes the cache over. -/
theorem Move.of_grace {c : FrameCache α} {b : Build α} {y : Running α} (h : Move c b y)
    (hb : b.phase = .grace) : y.2.hasBegun = true ∧ y.1.generation = c.generation + 1 ∧
      y.2.generation = c.generation + 1 := by
  have hnot : b.hasBegun = false := by simp [Build.hasBegun, hb]
  cases h with
  | yield hp => simp [hb] at hp
  | refuse _ b' _ hfailed hg =>
      exact ⟨hasBegun_of_hasEnded (hasEnded_of_hasFailed hfailed),
        FrameCache.endBuild_generation _ _ _, hg⟩
  | takeOver => exact ⟨rfl, rfl, rfl⟩
  | wait _ _ _ hseek => simp [hasBegun_of_isSeeking hseek] at hnot
  | push _ _ _ hseek => simp [hasBegun_of_isSeeking hseek] at hnot
  | fill _ _ _ hseek => simp [hasBegun_of_isSeeking hseek] at hnot
  | advance _ hreport => simp [hasBegun_of_isReporting hreport] at hnot
  | complete hreport => simp [hasBegun_of_isReporting hreport] at hnot
  | fail _ hbegun => simp [hbegun] at hnot
  | rest hend => simp [hasBegun_of_hasEnded hend] at hnot

/-- Only a build that has not begun cancels anything, and it cancels the build under way. -/
theorem Move.cancelled {c : FrameCache α} {b : Build α} {y : Running α} (h : Move c b y) :
    y.1.cancelled = if b.hasBegun then c.cancelled else c.token.toList ++ c.cancelled := by
  cases h with
  | yield hp => simp [Build.hasBegun, hp, FrameCache.cancel]
  | refuse _ _ hnot =>
      rw [FrameCache.endBuild_cancelled, hnot]
      rfl
  | takeOver _ _ _ hnot =>
      rw [hnot]
      rfl
  | wait _ _ _ hseek => rw [hasBegun_of_isSeeking hseek, if_pos rfl]
  | push _ _ _ hseek =>
      rw [hasBegun_of_isSeeking hseek]
      rfl
  | fill _ _ _ hseek =>
      rw [FrameCache.endBuild_cancelled, hasBegun_of_isSeeking hseek]
      rfl
  | advance _ hreport => rw [hasBegun_of_isReporting hreport, if_pos rfl]
  | complete hreport =>
      rw [FrameCache.endBuild_cancelled, hasBegun_of_isReporting hreport, if_pos rfl]
  | fail _ hbegun => rw [FrameCache.endBuild_cancelled, hbegun, if_pos rfl]
  | rest hend => rw [hasBegun_of_hasEnded hend, if_pos rfl]

/-- The tuning of a cache never changes. -/
theorem Move.tuning {c : FrameCache α} {b : Build α} {y : Running α} (h : Move c b y) :
    y.1.SameTuning c := by
  cases h with
  | refuse => exact (FrameCache.endBuild_tuning (α := α) _ _ _).trans ⟨rfl, rfl, rfl⟩
  | fill => exact (FrameCache.endBuild_tuning (c.push _ _) _ _).trans ⟨rfl, rfl, rfl⟩
  | complete => exact c.endBuild_tuning _ _
  | fail => exact c.endBuild_tuning _ _
  | yield => exact ⟨rfl, rfl, rfl⟩
  | takeOver => exact ⟨rfl, rfl, rfl⟩
  | wait => exact .refl c
  | push => exact ⟨rfl, rfl, rfl⟩
  | advance => exact .refl c
  | rest => exact .refl c

theorem Move.request {c : FrameCache α} {b : Build α} {y : Running α} (h : Move c b y) :
    y.2.request = b.request := by
  cases h with
  | refuse _ _ _ _ _ hr => exact hr
  | wait b' i phase _ hb' _ => rw [hb']
  | fail _ _ _ _ _ hr => exact hr
  | yield => rfl
  | takeOver => rfl
  | push => rfl
  | fill => rfl
  | advance => rfl
  | complete => rfl
  | rest => rfl

/-- A build that was called does not stay where it began. -/
theorem Move.phase_ne_called {c : FrameCache α} {b : Build α} {y : Running α}
    (h : Move c b y) : y.2.phase ≠ .called := by
  intro hy
  have hbegun : y.2.hasBegun = false := by simp [Build.hasBegun, hy]
  cases h with
  | yield => cases hy
  | takeOver => cases hy
  | push => cases hy
  | fill => cases hy
  | advance => cases hy
  | complete => cases hy
  | refuse _ b' _ hfailed =>
      simp [hasBegun_of_hasEnded (hasEnded_of_hasFailed hfailed)] at hbegun
  | wait b' _ _ _ _ hseek => simp [hasBegun_of_isSeeking hseek] at hbegun
  | fail b' _ _ hfailed =>
      simp [hasBegun_of_hasEnded (hasEnded_of_hasFailed hfailed)] at hbegun
  | rest hend => simp [hasBegun_of_hasEnded hend] at hbegun

end Build

end Segue
