import Mathlib
import Segue.Proofs.Cache.LastCall
import Segue.Proofs.Cache.Plan
import Segue.Proofs.Decimal.Rounding
import Segue.Proofs.Timeline.Exact

/-!
# Scrubbing

A build of `n` positions takes the entry `i` at `i / (n - 1)`. A reader divides the timeline evenly
between the `k` entries that there are: at `p` it is shown the entry `⌊p * k⌋`, or the last one. There
is an entry for whatever number it asks for, and a greater number never shows an earlier one, also
where products are rounded.
-/

namespace Segue

open Scalar Timeline

/-- The last of `k` planned positions that does not lie after `p`. -/
def IsNearestEarlier (n k : Nat) (p : Rat) (j : Nat) : Prop :=
  IsGreatest {i : Nat | i < k ∧ (frameProgress i n : Rat) ≤ p} j

theorem isNearestEarlier {n k : Nat} (hk : k ≠ 0) {p : Rat} (h0 : 0 ≤ p) :
    IsNearestEarlier n k p (min ⌊p * stepCount n⌋₊ (k - 1)) := by
  have hscaled : 0 ≤ p * stepCount n := mul_nonneg h0 (stepCount_pos n).le
  constructor
  · refine ⟨by omega, ?_⟩
    rw [frameProgress_le_iff]
    have hle : ((min ⌊p * stepCount n⌋₊ (k - 1) : Nat) : Rat) ≤ ⌊p * stepCount n⌋₊ := by
      exact_mod_cast min_le_left _ _
    exact hle.trans (Nat.floor_le hscaled)
  · rintro i ⟨hi, hp⟩
    have hfloor : i ≤ ⌊p * stepCount n⌋₊ := Nat.le_floor (frameProgress_le_iff.mp hp)
    omega

theorem cacheIndex_rat {k : Nat} (hk : k ≠ 0) (hmax : k ≤ maxCount) {p : Rat} (h0 : 0 ≤ p)
    (h1 : p ≤ 1) : cacheIndex p k = some (min ⌊p * k⌋₊ (k - 1)) := by
  have hfits : p * k ≤ maxCount := by
    have hmax' : (k : Rat) ≤ maxCount := by exact_mod_cast hmax
    have hscaled := mul_le_mul_of_nonneg_right h1 (Nat.cast_nonneg (α := Rat) k)
    linarith
  unfold cacheIndex
  rw [if_neg hk]
  simp only [isNaN, greatest_zero_rat h0, Bool.false_eq_true, if_false]
  rw [← toCount_rat hfits]
  rfl

/-! ## Against the nearest earlier position -/

/-- With fewer entries than were planned, a reader is shown one that lies no later. -/
theorem shown_le_of_truncated {n k : Nat} (hkn : k < n) {p : Rat} (h0 : 0 ≤ p) :
    min ⌊p * k⌋₊ (k - 1) ≤ min ⌊p * stepCount n⌋₊ (k - 1) := by
  have hle : k ≤ stepCount n := (Nat.le_sub_one_of_lt hkn).trans (le_max_left _ _)
  have hscaled : p * k ≤ p * stepCount n :=
    mul_le_mul_of_nonneg_left (by exact_mod_cast hle) h0
  exact min_le_min_right _ (Nat.floor_mono hscaled)

/-- With all entries, a reader is shown the nearest earlier one or the next. -/
theorem shown_of_complete {n : Nat} (hn : n ≠ 0) {p : Rat} (h0 : 0 ≤ p) (h1 : p ≤ 1) :
    min ⌊p * stepCount n⌋₊ (n - 1) ≤ min ⌊p * n⌋₊ (n - 1) ∧
      min ⌊p * n⌋₊ (n - 1) ≤ min ⌊p * stepCount n⌋₊ (n - 1) + 1 := by
  rcases Nat.lt_or_eq_of_le (Nat.one_le_iff_ne_zero.mpr hn) with htwo | rfl
  · have hsteps : stepCount n + 1 = n := by
      unfold stepCount
      omega
    have hcast : (n : Rat) = stepCount n + 1 := by exact_mod_cast hsteps.symm
    have hsplit : p * n = p * stepCount n + p := by rw [hcast]; ring
    have hscaled : 0 ≤ p * stepCount n := mul_nonneg h0 (stepCount_pos n).le
    have hlower : ⌊p * stepCount n⌋₊ ≤ ⌊p * n⌋₊ := Nat.floor_mono (by linarith)
    have hupper : ⌊p * n⌋₊ ≤ ⌊p * stepCount n⌋₊ + 1 := by
      rw [← Nat.floor_add_one hscaled]
      exact Nat.floor_mono (by linarith)
    omega
  · simp

/-- What is shown of all entries lies less than a step too late. -/
theorem frameProgress_shown_le (n : Nat) {p : Rat} (h0 : 0 ≤ p) :
    (frameProgress (min ⌊p * n⌋₊ (n - 1)) n : Rat) ≤ p + p / stepCount n := by
  have hpos := stepCount_pos n
  have hscaled : 0 ≤ p * n := mul_nonneg h0 (Nat.cast_nonneg n)
  have hle : ((min ⌊p * n⌋₊ (n - 1) : Nat) : Rat) ≤ p * n := by
    have hmin : ((min ⌊p * n⌋₊ (n - 1) : Nat) : Rat) ≤ ⌊p * n⌋₊ := by
      exact_mod_cast min_le_left _ _
    exact hmin.trans (Nat.floor_le hscaled)
  have hsteps : (n : Rat) ≤ stepCount n + 1 := by
    have hnat : n ≤ stepCount n + 1 := by
      unfold stepCount
      omega
    exact_mod_cast hnat
  have hcancel : (p + p / stepCount n) * stepCount n = p * (stepCount n + 1) := by
    rw [add_mul, div_mul_cancel₀ p hpos.ne']
    ring
  rw [frameProgress_le_iff, hcancel]
  exact hle.trans (mul_le_mul_of_nonneg_left hsteps h0)

/-- At a planned position the entry that was taken there is shown. -/
theorem shown_frameProgress {n i : Nat} (hi : i < n) :
    min ⌊(frameProgress i n : Rat) * n⌋₊ (n - 1) = i := by
  have hpos := stepCount_pos n
  have h0 := frameProgress_nonneg i n
  have hback : (frameProgress i n : Rat) * stepCount n = i := div_mul_cancel₀ (i : Rat) hpos.ne'
  have hlower := (shown_of_complete (Nat.ne_zero_of_lt hi) h0 (frameProgress_le_one hi)).1
  rw [hback, Nat.floor_natCast] at hlower
  rcases Nat.lt_or_eq_of_le (Nat.le_sub_one_of_lt hi) with hbefore | hlast
  · have hsteps : stepCount n + 1 = n := by
      unfold stepCount
      omega
    have hcast : (n : Rat) = stepCount n + 1 := by exact_mod_cast hsteps.symm
    have hroom : (i : Rat) < stepCount n := by
      have hnat : i < stepCount n := by omega
      exact_mod_cast hnat
    have hless : (frameProgress i n : Rat) < 1 := by
      rw [frameProgress_rat, div_lt_one hpos]
      exact hroom
    have hvalue : (frameProgress i n : Rat) * n = i + frameProgress i n := by
      rw [hcast, mul_add, hback, mul_one]
    have hfloor : ⌊(frameProgress i n : Rat) * n⌋₊ = i := by
      rw [hvalue, Nat.floor_eq_iff (by positivity)]
      exact ⟨by linarith, by linarith⟩
    omega
  · omega

/-! ## Every number -/

/-- Every number shows one of `k` entries, and a greater number none that is earlier; what lies
before the beginning, or is no number, shows the first one, and infinity the last. -/
structure OrderlyIndex (α : Type) [Scalar α] (k : Nat) : Prop where
  within (p : α) : ∃ i < k, cacheIndex p k = some i
  mono {p q : α} : p ≤ q → ∃ i j, cacheIndex p k = some i ∧ cacheIndex q k = some j ∧ i ≤ j
  before {p : α} : ¬0.0 ≤ p → cacheIndex p k = some 0
  infinite {p : α} : 0.0 ≤ p → isFinite p = false → cacheIndex p k = some (k - 1)

section

variable {α : Type} [Scalar α] {k : Nat}

theorem cacheIndex_of_pos (hk : 0 < k) (p : α) :
    cacheIndex p k = some (min (toCount (greatest p 0.0 * ofNat k)) (k - 1)) := by
  have hpart : (if isNaN p then 0.0 else greatest p 0.0) = greatest p 0.0 := by
    unfold greatest
    split <;> rfl
  unfold cacheIndex
  rw [if_neg hk.ne', hpart]

theorem exists_cacheIndex (hk : 0 < k) (p : α) : ∃ i < k, cacheIndex p k = some i :=
  ⟨_, (min_le_right _ _).trans_lt (Nat.sub_one_lt_of_lt hk), cacheIndex_of_pos hk p⟩

theorem FrameCache.exists_frameAt? (c : FrameCache α) (clip : Clip) (p : α)
    (h : 0 < (c.frames clip).size) : ∃ image, c.frameAt? clip p = some image := by
  obtain ⟨i, hi, hindex⟩ := exists_cacheIndex h p
  refine ⟨(c.frames clip)[i], ?_⟩
  rw [frameAt?, hindex]
  exact Array.getElem?_eq_getElem hi

theorem FrameCache.exists_entryAt? (c : FrameCache α) (p : α)
    (h : 0 < min c.framesA.size c.framesB.size) : ∃ f, c.entryAt? p = some f := by
  obtain ⟨i, hi, hindex⟩ := exists_cacheIndex h p
  obtain ⟨hA, hB⟩ := lt_min_iff.mp hi
  refine ⟨⟨c.framesA[i], c.framesB[i], c.progresses[i]?.getD 0.0⟩, ?_⟩
  rw [entryAt?, hindex]
  change c.row? i = _
  rw [row?, Array.getElem?_eq_getElem hA, Array.getElem?_eq_getElem hB]
  rfl

end

variable {k : Nat}

/-! ### Doubles -/

section

open Decimal

theorem exists_cacheIndex_float (hk : 0 < k) (hmax : k ≤ maxCount) :
    ∃ c, 0 ≤ c ∧ ∀ p : Float,
      cacheIndex p k = some (min (countAt (scaled c (height p))) (k - 1)) := by
  obtain ⟨c, hc, hnormal⟩ := exists_isNormal_ofNat hk hmax
  refine ⟨c, hc, fun p => ?_⟩
  rw [cacheIndex_of_pos hk, ← toCount_mul p hnormal]
  rfl

theorem orderlyIndex_float (hk : 0 < k) (hmax : k ≤ maxCount) : OrderlyIndex Float k := by
  obtain ⟨c, hc, hindex⟩ := exists_cacheIndex_float hk hmax
  constructor
  case within => exact exists_cacheIndex hk
  case mono =>
    intro p q h
    refine ⟨_, _, hindex p, hindex q, ?_⟩
    apply min_le_min_right
    apply countAt_mono
    exact scaled_mono hc (height_mono h)
  case before =>
    intro p hp
    rw [hindex, height_eq_zero hp, scaled_zero]
    exact congrArg some (Nat.zero_min _)
  case infinite =>
    intro p hp hinfinite
    rw [hindex, height_eq_top hp hinfinite]
    exact congrArg some (min_eq_right ((Nat.sub_le k 1).trans hmax))

end

/-! ### Exact numbers -/

theorem min_toCount (hmax : k ≤ maxCount) (q : Rat) :
    min (toCount (q * k)) (k - 1) = min ⌊min q 1 * k⌋₊ (k - 1) := by
  have hcount : toCount (q * k) = min ⌊q * k⌋₊ maxCount := by
    rw [← Int.floor_toNat]
    rfl
  rcases le_total q 1 with h1 | h1
  · rw [hcount, min_eq_left h1]
    omega
  · have hall : k ≤ ⌊q * k⌋₊ := Nat.le_floor (le_mul_of_one_le_left (Nat.cast_nonneg k) h1)
    rw [hcount, min_eq_right h1, one_mul, Nat.floor_natCast]
    omega

theorem Extended.infinite_mul_ofNat (hk : 0 < k) : infinite false * ofNat k = infinite false := by
  have hpos : (0 : Rat) < k := by exact_mod_cast hk
  change scale false k = _
  rw [scale, if_neg hpos.ne', decide_eq_false (not_lt.mpr hpos.le)]
  rfl

theorem cacheIndex_extended (hk : 0 < k) (hmax : k ≤ maxCount) (x : Extended) :
    cacheIndex x k = some (min ⌊x.position * k⌋₊ (k - 1)) := by
  rw [cacheIndex_of_pos hk]
  apply congrArg some
  rcases x.greatest_zero_cases with ⟨q, hpart, hposition⟩ | rfl
  · rw [hpart, hposition]
    exact min_toCount hmax q
  · have hpart : greatest (Extended.infinite false) 0.0 = .infinite false := rfl
    have hposition : (Extended.infinite false).position = 1 := rfl
    rw [hpart, Extended.infinite_mul_ofNat hk, hposition, one_mul, Nat.floor_natCast,
      min_eq_right (Nat.sub_le k 1)]
    exact min_eq_right ((Nat.sub_le k 1).trans hmax)

theorem orderlyIndex_extended (hk : 0 < k) (hmax : k ≤ maxCount) : OrderlyIndex Extended k := by
  have hindex := cacheIndex_extended hk hmax
  constructor
  case within => exact exists_cacheIndex hk
  case mono =>
    intro p q h
    refine ⟨_, _, hindex p, hindex q, ?_⟩
    apply min_le_min_right
    apply Nat.floor_mono
    exact mul_le_mul_of_nonneg_right (Extended.position_mono h) (Nat.cast_nonneg k)
  case before =>
    intro p hp
    rw [hindex, Extended.position_eq_zero hp, zero_mul, Nat.floor_zero, Nat.zero_min]
  case infinite =>
    intro p hp hinfinite
    cases p with
    | rational q => cases hinfinite
    | nan => cases hp
    | infinite s =>
        cases s with
        | true => cases hp
        | false =>
            have hposition : (Extended.infinite false).position = 1 := rfl
            rw [hindex, hposition, one_mul, Nat.floor_natCast, min_eq_right (Nat.sub_le k 1)]

theorem shown_eq_iff {i : Nat} (hi : i + 1 < k) {p : Rat} (h0 : 0 ≤ p) :
    min ⌊p * k⌋₊ (k - 1) = i ↔ (i : Rat) / k ≤ p ∧ p < ((i + 1 : Nat) : Rat) / k := by
  have hpos : (0 : Rat) < k := by exact_mod_cast Nat.zero_lt_of_lt hi
  rw [div_le_iff₀ hpos, lt_div_iff₀ hpos, Nat.cast_succ,
    ← Nat.floor_eq_iff (mul_nonneg h0 hpos.le)]
  omega

theorem shown_eq_last_iff (hk : 0 < k) {p : Rat} (h0 : 0 ≤ p) :
    min ⌊p * k⌋₊ (k - 1) = k - 1 ↔ ((k - 1 : Nat) : Rat) / k ≤ p := by
  have hpos : (0 : Rat) < k := by exact_mod_cast hk
  rw [div_le_iff₀ hpos, ← Nat.le_floor_iff (mul_nonneg h0 hpos.le), min_eq_right_iff]

theorem shown_div {i : Nat} (hi : i < k) : min ⌊(i : Rat) / k * k⌋₊ (k - 1) = i := by
  have hpos : (0 : Rat) < k := by exact_mod_cast Nat.zero_lt_of_lt hi
  rw [div_mul_cancel₀ _ hpos.ne', Nat.floor_natCast]
  omega

theorem natCast_div_le_one {i : Nat} (hi : i ≤ k) : (i : Rat) / k ≤ 1 :=
  div_le_one_of_le₀ (by exact_mod_cast hi) (Nat.cast_nonneg k)

/-- The `k` entries of a cache cover every position: each has its share of those from 0 to 1, in
their order, and a reader is never left without a frame. -/
structure IndexCover (k : Nat) : Prop where
  floats : OrderlyIndex Float k
  frame (c : FrameCache Float) (clip : Clip) (p : Float) :
    (c.frames clip).size = k → ∃ image, c.frameAt? clip p = some image
  entry (c : FrameCache Float) (p : Float) :
    min c.framesA.size c.framesB.size = k → ∃ f, c.entryAt? p = some f
  numbers : OrderlyIndex Extended k
  onto : ∀ i < k, ∃ q ∈ Set.Icc (0 : Rat) 1, cacheIndex (Extended.rational q) k = some i
  share (i : Nat) : i + 1 < k → ∀ p : Extended, 0.0 ≤ p →
    (cacheIndex p k = some i ↔ .rational (i / k) ≤ p ∧ p < .rational ((i + 1 : Nat) / k))
  last (p : Extended) : 0.0 ≤ p →
    (cacheIndex p k = some (k - 1) ↔ .rational ((k - 1 : Nat) / k) ≤ p)

theorem cacheIndex_cover {k : Nat} (hpos : 0 < k) (hfits : k ≤ maxCount) : IndexCover k := by
  have hindex := cacheIndex_extended hpos hfits
  constructor
  case floats => exact orderlyIndex_float hpos hfits
  case frame => exact fun c clip p h => c.exists_frameAt? clip p (hpos.trans_eq h.symm)
  case entry => exact fun c p h => c.exists_entryAt? p (hpos.trans_eq h.symm)
  case numbers => exact orderlyIndex_extended hpos hfits
  case onto =>
    intro i hi
    have h0 : (0 : Rat) ≤ i / k := div_nonneg (Nat.cast_nonneg i) (Nat.cast_nonneg k)
    have h1 : (i : Rat) / k ≤ 1 := natCast_div_le_one hi.le
    have hposition : (Extended.rational (i / k)).position = i / k := by
      rw [Extended.position, min_eq_left h1, max_eq_right h0]
    refine ⟨i / k, ⟨h0, h1⟩, ?_⟩
    rw [hindex, hposition, shown_div hi]
  case share =>
    intro i hi p hp
    rw [hindex, Option.some_inj, shown_eq_iff hi p.position_mem.1,
      Extended.le_position_iff (natCast_div_le_one (Nat.lt_of_succ_lt hi).le) hp,
      Extended.position_lt_iff (natCast_div_le_one hi.le) hp]
  case last =>
    intro p hp
    rw [hindex, Option.some_inj, shown_eq_last_iff hpos p.position_mem.1,
      Extended.le_position_iff (natCast_div_le_one (Nat.sub_le k 1)) hp]

/-- As many entries as a machine word counts. -/
theorem cacheIndex_cover_full : 0 < maxCount ∧ maxCount ≤ maxCount ∧ IndexCover maxCount :=
  ⟨by decide, le_rfl, cacheIndex_cover (by decide) le_rfl⟩

example : [0.0 / 0.0, -0.3, 0.55, 1.0, 1.0 / 0.0].map (fun p : Float => cacheIndex p 10) =
    [some 0, some 0, some 5, some 9, some 9] := by decide +kernel

/-! ## Ready caches -/

theorem CacheRequest.usable_params {r : CacheRequest Rat} {durationA durationB margin : Rat}
    {p : Params Rat} (h : r.params durationA durationB margin = .ok p) : p.Usable := by
  unfold CacheRequest.params at h
  cases hmake : Params.make r.transition r.startA r.startB durationA durationB with
  | error e =>
      rw [hmake] at h
      cases h
  | ok q =>
      rw [hmake] at h
      cases h
      exact usable_of_make hmake

theorem Build.stored_of_success {b : Build Rat} {n : Nat}
    (h : b.phase = .ended (.complete n) ∨ b.phase = .ended (.truncated n)) :
    b.hasFailed = false ∧ b.stored = n := by
  rcases h with hp | hp
  · simp [hasFailed, stored, hp, BuildOutcome.isSuccess]
  · simp [hasFailed, stored, hp, BuildOutcome.isSuccess]

namespace FrameCache.Session

/-- The cache is ready with all that a build has stored of the positions that it planned. -/
structure ReadyOf (s : Session Rat) (x : BuildCall Rat) : Prop where
  latest : x.effect = some s.cache.generation
  ended : x.build.phase = .ended (.complete s.cache.size) ∧ s.cache.size = x.build.total ∨
    x.build.phase = .ended (.truncated s.cache.size)
  pos : 0 < s.cache.size
  planned : s.cache.planned = x.build.total
  size_le : s.cache.size ≤ x.build.total
  fits : x.build.total ≤ maxCount
  usable : x.build.params.Usable

theorem ReadyOf.stored {s : Session Rat} {x : BuildCall Rat} (h : s.ReadyOf x) :
    x.build.hasFailed = false ∧ x.build.stored = s.cache.size :=
  Build.stored_of_success (h.ended.imp_left And.left)

/-- What a build has left in the cache that it took over last. -/
theorem Sound.readyOf {s : Session Rat} (h : s.Sound) {margin : Rat} (hplans : s.Plans margin)
    {k : Nat} {x : BuildCall Rat} (hk : s.calls[k]? = some (.build x))
    (hg : x.effect = some s.cache.generation) {n : Nat} (hn : n ≠ 0)
    (hended : x.build.phase = .ended (.complete n) ∨ x.build.phase = .ended (.truncated n)) :
    s.cache.size = n ∧ s.ReadyOf x := by
  have hbegun := (BuildCall.effect_eq_some_iff.mp hg).1
  obtain ⟨hfailed, hstored⟩ := Build.stored_of_success hended
  have howner := h.owner k x hk hg
  have hholds := howner.holds hfailed
  obtain ⟨v, sought, -, durationA, durationB, -, -, hplanned⟩ :=
    hplans.planned k x hk hbegun hfailed
  have hsize : s.cache.size = n := by
    have hlength := congrArg List.length hholds.positions
    rw [List.length_map, List.length_range, hstored] at hlength
    rw [← h.consistent.length_rows, hholds.rows, List.length_map, hlength]
  refine ⟨hsize, hg, ?_, ?_, hholds.planned, ?_, ?_, ?_⟩
  · rw [hsize]
    exact hended.imp_left fun hp => ⟨hp, howner.complete n hp⟩
  · rw [hsize]
    exact Nat.pos_of_ne_zero hn
  · rw [hsize, ← hstored]
    exact (hplans.within k x hk hbegun).stored_le
  · rw [hplanned.total]
    exact frameCount_le _ _ _
  · exact CacheRequest.usable_params hplanned.params

theorem ReadyOf.isReady {s : Session Rat} {k : Nat} {x : BuildCall Rat} (h : s.ReadyOf x)
    (hs : s.Sound) (hk : s.calls[k]? = some (.build x)) : s.cache.isReady = true := by
  have hended : x.build.hasEnded = true := by
    rcases h.ended with ⟨hp, -⟩ | hp
    · simp [Build.hasEnded, hp]
    · simp [Build.hasEnded, hp]
  have hbuilding := (hs.owner k x hk h.latest).building
  have hpos : s.cache.framesA.size ≠ 0 := h.pos.ne'
  simpa [FrameCache.isReady, hbuilding, hended, hs.consistent.framesB_size, Array.isEmpty] using hpos

theorem Sound.exists_readyOf {s : Session Rat} (h : s.Sound) {margin : Rat}
    (hplans : s.Plans margin) (hready : s.cache.isReady = true) :
    ∃ (k : Nat) (x : BuildCall Rat), s.calls[k]? = some (.build x) ∧ s.ReadyOf x := by
  obtain ⟨k, x, hk, hg, -, hended⟩ := h.contents.ready hready
  have hsize : s.cache.size ≠ 0 := by
    intro hsize
    have hempty : s.cache.framesA.isEmpty = true := by simpa [Array.isEmpty, size] using hsize
    simp [isReady, hempty] at hready
  exact ⟨k, x, hk, (h.readyOf hplans hk hg hsize (hended.imp_left And.left)).2⟩

/-- A reader is shown the pair that was taken at the position of its row. -/
theorem ReadyOf.entryAt? {s : Session Rat} {k : Nat} {x : BuildCall Rat} (h : s.ReadyOf x)
    (hs : s.Sound) (hk : s.calls[k]? = some (.build x)) {p : Rat} (h0 : 0 ≤ p) (h1 : p ≤ 1)
    {i : Nat} (hi : i = min ⌊p * s.cache.size⌋₊ (s.cache.size - 1)) :
    ∃ f, s.cache.entryAt? p = some f ∧ x.pushed[i]? = some (i, f) ∧
      f.progress = (resolve x.build.request.mode (frameProgress i x.build.total)
        x.build.params).progress := by
  have hcolumns : min s.cache.framesA.size s.cache.framesB.size = s.cache.size := by
    rw [hs.consistent.framesB_size, min_self]
    rfl
  have hindex := cacheIndex_rat h.pos.ne' (h.size_le.trans h.fits) h0 h1
  have hlt : i < x.build.stored := by
    have hpos := h.pos
    rw [h.stored.2]
    omega
  obtain ⟨f, hrow, hpushed, hprogress⟩ :=
    ((hs.owner k x hk h.latest).holds h.stored.1).row hs.consistent hlt
  refine ⟨f, ?_, hpushed, hprogress⟩
  rw [FrameCache.entryAt?, hcolumns, hindex, ← hi]
  exact hrow

/-- What a ready cache shows at `p` is the pair `f` that its build took at the `i`-th of its
positions. -/
structure Scrub (s : Session Rat) (x : BuildCall Rat) (p : Rat) (i : Nat)
    (f : CachedFrame Rat) : Prop where
  entry : s.cache.entryAt? p = some f
  index : i = min ⌊p * s.cache.size⌋₊ (s.cache.size - 1)
  pushed : x.pushed[i]? = some (i, f)
  progress : f.progress =
    (resolve x.build.request.mode (frameProgress i x.build.total) x.build.params).progress
  /-- Fewer entries than were planned never run ahead. -/
  truncated : s.cache.size < x.build.total →
    (∃ j, IsNearestEarlier x.build.total s.cache.size p j ∧ i ≤ j) ∧
      f.progress ≤ (resolve x.build.request.mode p x.build.params).progress
  /-- All entries run ahead by less than a step, and not at all at the positions themselves. -/
  complete : s.cache.size = x.build.total →
    (∃ j, IsNearestEarlier x.build.total s.cache.size p j ∧ j ≤ i ∧ i ≤ j + 1) ∧
      (frameProgress i x.build.total : Rat) ≤ p + p / stepCount x.build.total ∧
      f.progress ≤ (resolve x.build.request.mode (p + p / stepCount x.build.total)
        x.build.params).progress ∧
      ∀ j < x.build.total, p = frameProgress j x.build.total → i = j

theorem scrub_run (config : CacheConfig) (margin : Rat) (scale : Resampler)
    (events : List (Event Rat)) {p : Rat}
    (hready : ((start config margin scale).run events).cache.isReady = true)
    (h0 : 0 ≤ p) (h1 : p ≤ 1) :
    ∃ (k : Nat) (x : BuildCall Rat) (i : Nat) (f : CachedFrame Rat),
      ((start config margin scale).run events).calls[k]? = some (.build x) ∧
      ((start config margin scale).run events).ReadyOf x ∧
      ((start config margin scale).run events).Scrub x p i f := by
  have hsound := sound_run config margin scale events
  have hplans := plans_run config margin scale events
  generalize (start config margin scale).run events = s at hready hsound hplans ⊢
  obtain ⟨k, x, hk, hof⟩ := hsound.exists_readyOf hplans hready
  have hpos := hof.pos
  obtain ⟨f, hentry, hpushed, hprogress⟩ := hof.entryAt? hsound hk h0 h1 rfl
  refine ⟨k, x, _, f, hk, hof, hentry, rfl, hpushed, hprogress, ?_, ?_⟩
  · intro hlt
    have hnearest := isNearestEarlier (n := x.build.total) hpos.ne' h0
    have hle := shown_le_of_truncated hlt h0
    have hearlier := (frameProgress_mono hle x.build.total).trans hnearest.1.2
    refine ⟨⟨_, hnearest, hle⟩, ?_⟩
    rw [hprogress]
    exact resolve_progress_mono hof.usable _ hearlier
  · intro hall
    have hnearest := isNearestEarlier (n := x.build.total) hpos.ne' h0
    rw [hall] at hpos hnearest hprogress ⊢
    have hahead := frameProgress_shown_le x.build.total h0
    refine ⟨⟨_, hnearest, shown_of_complete hpos.ne' h0 h1⟩, hahead, ?_, ?_⟩
    · rw [hprogress]
      exact resolve_progress_mono hof.usable _ hahead
    · rintro j hj rfl
      exact shown_frameProgress hj

open Rehearsal (nearest)

def tight : CacheConfig where
  memoryLimit := 1
  width := 256
  height := 256
  seekTimeout := .ofSeconds 1
  settle := .ofMillis 16

/-- A transition of one second with `n` positions. -/
def positions (n : Nat) : CacheRequest Rat := { oneFrame with fps := n }

/-- The clips show nothing in time at one position. -/
def darkPair : List (Event Rat) := [.resume 0 darkView .timedOut, .resume 0 darkView .timedOut]

def cutShort : List (Event Rat) :=
  [.build (positions 9) darkView] ++ darkPair ++ [.resume 0 darkView .completed] ++ darkPair ++
    [.resume 0 darkView .completed] ++ darkPair

theorem scrub_run_cutShort : ∃ (k : Nat) (x : BuildCall Rat) (i : Nat) (f : CachedFrame Rat),
    ((atStart tight).run cutShort).calls[k]? = some (.build x) ∧
      ((atStart tight).run cutShort).ReadyOf x ∧
      ((atStart tight).run cutShort).Scrub x (3 / 10) i f := by
  have hready : ((atStart tight).run cutShort).cache.isReady = true := by decide +kernel
  exact scrub_run tight 0 nearest cutShort hready (p := 3 / 10) (by norm_num)
    (by norm_num)

/-- Both pairs of two are there. -/
def both : List (Event Rat) :=
  [.build (positions 2) darkView] ++ darkPair ++ [.resume 0 darkView .completed] ++ darkPair ++
    [.resume 0 darkView .completed]

/-- Halfway through two positions the second one is shown already; the third pair of nine is not
shown at its own position. -/
theorem scrub_not_nearest :
    (((atStart tight).run both).cache.isReady,
      ((atStart tight).run both).cache.size, ((atStart tight).run both).cache.planned,
      (((atStart tight).run both).cache.entryAt? (1 / 2)).map (·.progress)) =
      (true, 2, 2, some 1) ∧ IsNearestEarlier 2 2 (1 / 2) 0 ∧
    (((atStart tight).run cutShort).cache.isReady,
      ((atStart tight).run cutShort).cache.size, ((atStart tight).run cutShort).cache.planned,
      (((atStart tight).run cutShort).cache.entryAt? (3 / 10)).map (·.progress)) =
      (true, 3, 9, some 0) ∧ IsNearestEarlier 9 3 (3 / 10) 2 := by
  have hhalf : ⌊(1 / 2 : Rat) * stepCount 2⌋₊ = 0 := by
    rw [Nat.floor_eq_zero]
    norm_num [stepCount]
  have hthird : ⌊(3 / 10 : Rat) * stepCount 9⌋₊ = 2 := by
    rw [Nat.floor_eq_iff (by norm_num [stepCount])]
    norm_num [stepCount]
  refine ⟨by decide +kernel, ?_, by decide +kernel, ?_⟩
  · have hnearest := isNearestEarlier (n := 2) (k := 2) two_ne_zero (p := 1 / 2) (by norm_num)
    rwa [hhalf] at hnearest
  · have hnearest := isNearestEarlier (n := 9) (k := 3) three_ne_zero (p := 3 / 10) (by norm_num)
    rwa [hthird] at hnearest

end FrameCache.Session

end Segue
