import Mathlib
import Segue.Proofs.Cache.Turns
import Segue.Proofs.Cache.Lookup
import Segue.Proofs.Decimal.Quotient

/-!
# The memory ceiling

A build that nothing disturbs comes to its end. It stores all planned pairs if they fit the memory
limit, and otherwise the pairs that fit and one more. The cache is ready then and exceeds the limit
by less than one pair.
-/

namespace Segue

variable {α : Type} [Scalar α]

/-- The pairs that a build keeps of those it has planned. -/
def CacheConfig.keptPairs (config : CacheConfig) (total : Nat) : Nat :=
  if total * config.pairBytes ≤ config.limitBytes then total
  else config.limitBytes / config.pairBytes + 1

/-- The pairs of which the caller is told: the one that exceeds the limit is not reported. -/
def CacheConfig.toldPairs (config : CacheConfig) (total : Nat) : Nat :=
  if total * config.pairBytes ≤ config.limitBytes then total
  else config.limitBytes / config.pairBytes

theorem CacheConfig.keptPairs_pos (config : CacheConfig) {total : Nat} (h : total ≠ 0) :
    0 < config.keptPairs total := by
  unfold keptPairs
  split
  · exact Nat.pos_of_ne_zero h
  · exact Nat.succ_pos _

theorem CacheConfig.keptPairs_le (config : CacheConfig) (total : Nat) :
    config.keptPairs total * config.pairBytes ≤ config.limitBytes + config.pairBytes := by
  unfold keptPairs
  split
  · rename_i hroom
    exact Nat.le_add_right_of_le hroom
  · rw [Nat.succ_mul]
    exact Nat.add_le_add_right (Nat.div_mul_le_self _ _) _

/-- In exact arithmetic the shares of a total grow. -/
theorem pairwise_shares_rat {total : Nat} (h : total ≠ 0) (k : Nat) :
    (Export.shares total k : List Rat).Pairwise (· < ·) := by
  have hpos : (0 : Rat) < total := by exact_mod_cast Nat.pos_of_ne_zero h
  unfold Export.shares
  rw [List.pairwise_map]
  refine List.pairwise_lt_range.imp ?_
  intro i j hij
  have hlt : ((i + 1 : Nat) : Rat) < ((j + 1 : Nat) : Rat) := by
    exact_mod_cast Nat.succ_lt_succ hij
  exact div_lt_div_of_pos_right hlt hpos

theorem CacheConfig.toldPairs_le (config : CacheConfig) (total : Nat) :
    config.toldPairs total ≤ total := by
  unfold toldPairs
  split
  · exact le_rfl
  · rename_i hfull
    rcases Nat.eq_zero_or_pos config.pairBytes with hzero | hpos
    · exact absurd (by rw [hzero, Nat.mul_zero]; exact Nat.zero_le _) hfull
    · exact Nat.div_le_of_le_mul (by rw [Nat.mul_comm]; exact (not_le.mp hfull).le)

/-- A pair of frames takes eight bytes at least. -/
theorem CacheConfig.toldPairs_le_div {config : CacheConfig} (hwidth : config.width ≠ 0)
    (hheight : config.height ≠ 0) (total : Nat) :
    config.toldPairs total ≤ config.limitBytes / 8 := by
  have hpair : 8 ≤ config.pairBytes := by
    rw [CacheConfig.pairBytes, Nat.mul_assoc]
    exact Nat.le_mul_of_pos_right 8
      (Nat.mul_pos (Nat.pos_of_ne_zero hwidth) (Nat.pos_of_ne_zero hheight))
  unfold toldPairs
  split
  · rename_i hroom
    rw [Nat.le_div_iff_mul_le (by decide)]
    exact (Nat.mul_le_mul_left total hpair).trans hroom
  · exact Nat.div_le_div_left hpair (by decide)

/-- In doubles the shares of a total grow as long as their counts have digits enough. -/
theorem pairwise_shares_float {total k : Nat} (hk : k ≤ total)
    (h : total ≤ 2 ^ 53 ∨ k ≤ 2 ^ 52 ∧ total ≤ maxCount) :
    (Export.shares total k : List Float).Pairwise (· < ·) := by
  unfold Export.shares
  rw [List.pairwise_map]
  refine (List.pairwise_lt_range (n := k)).imp_of_mem ?_
  intro i j _ hj hij
  have hjk := List.mem_range.mp hj
  exact Decimal.share_lt (Nat.succ_pos i) (Nat.succ_lt_succ hij) (by omega)

namespace FrameCache.Session

/-- What an undisturbed build leaves when it ends. -/
structure AtCeiling (config : CacheConfig) (params : Timeline.Params α) (total : Nat)
    (c : FrameCache α) (x : BuildCall α) (ts : List (Turn α)) : Prop where
  outcome : x.build.phase = .ended
    (if total * config.pairBytes ≤ config.limitBytes then .complete total
      else .truncated (config.limitBytes / config.pairBytes + 1))
  ready : c.isReady = true
  size : c.framesA.size = config.keptPairs total ∧ c.framesB.size = config.keptPairs total
  rows : ∀ i < config.keptPairs total, ∃ f, c.row? i = some f ∧ x.pushed[i]? = some (i, f) ∧
    f.frameA.Sized config ∧ f.frameB.Sized config ∧
    f.progress = (Timeline.resolve x.build.request.mode (Timeline.frameProgress i total)
      params).progress
  bytes : c.bytes = config.keptPairs total * config.pairBytes
  bounded : c.bytes ≤ config.limitBytes + config.pairBytes
  told : toldAt ts = Export.shares total (config.toldPairs total)

theorem Fills.atCeiling {config : CacheConfig} {params : Timeline.Params α} {total : Nat}
    {s : Session α} {k : Nat} {x : BuildCall α} {ts : List (Turn α)}
    (h : Fills config params total (s.cache, x.build) ts) (hs : s.Sound)
    (hk : s.calls[k]? = some (.build x)) (heffect : x.effect = some s.cache.generation)
    (htotal : total ≠ 0) (hended : x.build.hasEnded = true) :
    AtCeiling config params total s.cache x ts := by
  obtain ⟨o, hp⟩ := Build.exists_outcome hended
  have hends := h.filling.outcome o hp
  obtain ⟨hstored, hreported⟩ := hends.reported hp
  have hall : x.build.total = total := h.total_eq
  have hphase := hp.trans (congrArg Build.Phase.ended hends.eq)
  rw [hall] at hstored hreported
  change x.build.stored = config.keptPairs total at hstored
  change x.build.reported = config.toldPairs total at hreported
  change x.build.phase = .ended (if x.build.total * _ ≤ _ then .complete x.build.total else _)
    at hphase
  rw [hall] at hphase
  have hsize : s.cache.size = config.keptPairs total := h.filling.size_eq.trans hstored
  have hbytes := h.filling.sized.bytes h.filling.consistent
  change s.cache.bytes = s.cache.size * _ at hbytes
  rw [hsize] at hbytes
  have howner := hs.owner k x hk heffect
  have hfailed : x.build.hasFailed = false := by simp [Build.hasFailed, hp, hends.isSuccess]
  have hholds := howner.holds hfailed
  have hkept := config.keptPairs_pos htotal
  have hB : s.cache.framesB.size = config.keptPairs total :=
    hs.consistent.framesB_size.trans hsize
  constructor
  · exact hphase
  · have hA : s.cache.framesA.size ≠ 0 := hsize.trans_ne hkept.ne'
    simp [isReady, howner.building, hended, Array.isEmpty, hA, hB, hkept.ne']
  · exact ⟨hsize, hB⟩
  · intro i hi
    obtain ⟨f, hrow, hpushed, hprogress⟩ := hholds.row hs.consistent (hstored ▸ hi)
    have hf : f ∈ s.cache.rows := by
      rw [hs.consistent.row?_eq] at hrow
      exact List.mem_of_getElem? hrow
    obtain ⟨hA, hB⟩ := h.filling.sized f hf
    refine ⟨f, hrow, hpushed, hA, hB, ?_⟩
    rw [hprogress, Build.sample, ← hall, ← h.params_eq]
  · exact hbytes
  · rw [hbytes]
    exact config.keptPairs_le total
  · rw [h.told]
    exact congrArg _ hreported

/-- A build that nothing disturbs ends after five turns a position at most, and then it has filled
the cache up to the ceiling. The shares it tells grow: always in exact arithmetic, and as doubles if
the total has 53 digits or the memory limit is less than 32 pebibytes. -/
theorem ceiling_run (config : CacheConfig) (margin : α) (scale : Resampler)
    (events : List (Event α)) {k : Nat}
    {x : BuildCall α} {params : Timeline.Params α} {total : Nat}
    (hk : ((start config margin scale).run events).calls[k]? = some (.build x))
    (heffect : x.effect = some ((start config margin scale).run events).cache.generation)
    (hrunning :
      ((start config margin scale).run events).cache.isCancelled x.build.generation = false)
    (htotal : total ≠ 0)
    (hcalm : Calm margin params total (turns k (start config margin scale) events)) :
    (5 * total + 2 ≤ (turns k (start config margin scale) events).length →
      x.build.hasEnded = true) ∧
    (x.build.hasEnded = true → AtCeiling config params total
      ((start config margin scale).run events).cache x
      (turns k (start config margin scale) events)) ∧
    (Export.shares total (config.toldPairs total) : List Rat).Pairwise (· < ·) ∧
    ((total ≤ 2 ^ 53 ∨ total ≤ maxCount ∧ config.width ≠ 0 ∧ config.height ≠ 0 ∧
        config.limitBytes < 2 ^ 55) →
      (Export.shares total (config.toldPairs total) : List Float).Pairwise (· < ·)) := by
  have hfills := fills_run events hk heffect hrunning hcalm
  refine ⟨?_, ?_, pairwise_shares_rat htotal _, ?_⟩
  · intro hlength
    by_contra hnot
    have hended := Bool.eq_false_iff.mpr hnot
    have hleft := hfills.left hended
    have hbegun := (BuildCall.effect_eq_some_iff.mp heffect).1
    have hpos := Build.left_pos hbegun hended (hfills.filling.within hended)
    change _ + x.build.left ≤ _ at hleft
    omega
  · exact hfills.atCeiling (sound_run config margin scale events) hk heffect htotal
  · rintro (hshort | ⟨hmax, hwidth, hheight, hlimit⟩)
    · exact pairwise_shares_float (config.toldPairs_le total) (.inl hshort)
    · have htold := config.toldPairs_le_div hwidth hheight total
      exact pairwise_shares_float (config.toldPairs_le total) (.inr ⟨by omega, hmax⟩)

/-- Clips of a second fit a transition of a second at any rate that plans a position. -/
theorem fits_dark (fps : Rat) (n : Nat)
    (hn : Timeline.frameCount .transitionOnly ⟨1, 0, 0, 1, 1, 0⟩ fps = n) (hpos : n ≠ 0) :
    Build.Fits { oneFrame with fps } 0 darkView ⟨1, 0, 0, 1, 1, 0⟩ n where
  clips := by
    refine ⟨1, 1, by decide +kernel, by decide +kernel, ?_, ?_⟩
    · have hclose : CacheRequest.closeTo (1 : Rat) 1 = true := by decide +kernel
      simp [CacheRequest.matchesClips, oneFrame, hclose]
    · have hzero : Scalar.greatest (0 : Rat) 0 = 0 := by
        simpa using Scalar.greatest_zero_rat (le_refl (0 : Rat))
      have hone : Scalar.isPositive (1 : Rat) = true := Scalar.isPositive_rat.mpr one_pos
      simp [CacheRequest.params, oneFrame, Timeline.Params.make, hone,
        Timeline.Params.withMargin, Timeline.finiteOrZero, Scalar.isFinite, hzero, bind,
        Except.bind]
  total_eq := hn
  pos := hpos

/-- Only the first turn of a build that finds no other one takes the cache over. -/
theorem fits_first (config : CacheConfig) (scale : Resampler) (rest : List (Event α)) {margin : α}
    {request : CacheRequest α} {v : Build.View α} {params : Timeline.Params α} {total : Nat}
    (hfits : Build.Fits request margin v params total)
    (hrest : (turns 0 ((start config margin scale).step (.build request v)) rest).all
      (·.build.hasBegun) = true) :
    ∀ t ∈ turns 0 (start config margin scale) (.build request v :: rest), t.build.hasBegun = false →
      t.after.2.hasBegun = true → Build.Fits t.build.request margin t.view params total := by
  intro t ht hnot _
  rcases List.mem_cons.mp ht with rfl | ht
  · exact hfits
  · exact absurd ((List.all_eq_true.mp hrest) t ht) (by simp [hnot])

theorem calm_cutShort :
    Calm 0 ⟨1, 0, 0, 1, 1, 0⟩ 9 (turns 0 (atStart tight) cutShort) := by
  have hturns : (turns 0 (atStart tight) cutShort).all
      (fun t => decide (t.sought ≠ .cancelled) && Build.bothUsable t.view) = true := by
    decide +kernel
  simp only [List.all_eq_true, Bool.and_eq_true, decide_eq_true_eq] at hturns
  refine ⟨?_, fun t ht => (hturns t ht).1, fun t ht _ => (hturns t ht).2⟩
  exact fits_first tight Rehearsal.nearest cutShort.tail
    (fits_dark 9 9 (by decide +kernel) (by decide)) (by decide +kernel)

theorem ceiling_run_cutShort : ∃ x, ((atStart tight).run cutShort).calls[0]? = some (.build x) ∧
    x.build.phase = .ended (.truncated 3) ∧
    AtCeiling tight ⟨1, 0, 0, 1, 1, 0⟩ 9 ((atStart tight).run cutShort).cache x
      (turns 0 (atStart tight) cutShort) ∧
    (Export.shares 9 (tight.toldPairs 9) : List Float).Pairwise (· < ·) := by
  have hcheck : ((atStart tight).run cutShort).calls[0]?.any (fun call =>
      match call with
      | .build x => decide (x.effect = some ((atStart tight).run cutShort).cache.generation) &&
          !((atStart tight).run cutShort).cache.isCancelled x.build.generation &&
          x.build.hasEnded
      | .clear _ => false) = true := by
    decide +kernel
  obtain ⟨call, hcall, hcheck⟩ := (Option.any_eq_true _ _).mp hcheck
  cases call with
  | clear g => cases hcheck
  | build x =>
      simp only [Bool.and_eq_true, decide_eq_true_eq, Bool.not_eq_true'] at hcheck
      obtain ⟨⟨heffect, hrunning⟩, hended⟩ := hcheck
      obtain ⟨-, hends, -, hgrow⟩ :=
        ceiling_run tight 0 Rehearsal.nearest cutShort hcall heffect hrunning (by decide)
          calm_cutShort
      have hceiling := hends hended
      have hfull : ¬9 * tight.pairBytes ≤ tight.limitBytes := by decide
      have hkept : tight.limitBytes / tight.pairBytes = 2 := by decide
      have houtcome := hceiling.outcome
      rw [if_neg hfull, hkept] at houtcome
      exact ⟨x, hcall, houtcome, hceiling, hgrow (.inl (by decide))⟩

end FrameCache.Session

end Segue
