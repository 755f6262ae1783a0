import Mathlib
import Segue.Proofs.Cache.Contents

/-!
# What a build plans

A build plans its positions once, when it takes the cache over, from the lengths that its clips have
then and from the safety margin of the cache. It stores no more pairs than it has planned.
-/

namespace Segue

variable {α : Type} [Scalar α]

namespace Build

/-- The positions are those of clips of these lengths. -/
structure PlannedFor (durationA durationB margin : α) (b : Build α) : Prop where
  clips : b.request.matchesClips durationA durationB = true
  params : b.request.params durationA durationB margin = .ok b.params
  total : b.total = Timeline.frameCount b.request.mode b.params b.request.fps

def Planned (margin : α) (v : View α) (b : Build α) : Prop :=
  ∃ durationA durationB, usableDuration (v.duration .a) = some durationA ∧
    usableDuration (v.duration .b) = some durationB ∧ PlannedFor durationA durationB margin b

theorem PlannedFor.congr {durationA durationB margin : α} {b b' : Build α}
    (h : PlannedFor durationA durationB margin b) (hrequest : b'.request = b.request)
    (hparams : b'.params = b.params) (htotal : b'.total = b.total) :
    PlannedFor durationA durationB margin b' where
  clips := hrequest ▸ h.clips
  params := by rw [hrequest, hparams, h.params]
  total := by rw [hrequest, hparams, htotal, h.total]

theorem hasFailed_finish {o : BuildOutcome α} (ho : o.isSuccess = false) (c : FrameCache α)
    (b : Build α) : (finish o c b).2.hasFailed = true := by
  simp [finish, hasFailed, ho]

theorem PlannedFor.enterPosition {durationA durationB margin : α} {b : Build α}
    (h : PlannedFor durationA durationB margin b) (v : View α) (c : FrameCache α) :
    PlannedFor durationA durationB margin (enterPosition v c b).2 := by
  unfold Build.enterPosition
  split
  · exact h.congr rfl rfl rfl
  · split
    · exact h.congr rfl rfl rfl
    · split
      · exact h.congr rfl rfl rfl
      · rename_i husable
        obtain ⟨time, htime⟩ := enterA_eq (c := c) (b := b) v (by simpa using husable)
        rw [htime]
        exact h.congr rfl rfl rfl

theorem plan_planned {v : View α} {c : FrameCache α} {b : Build α} {durationA durationB : α}
    (hnot : (plan v c b durationA durationB).2.hasFailed = false) :
    PlannedFor durationA durationB c.margin (plan v c b durationA durationB).2 := by
  unfold plan at hnot ⊢
  cases hclips : b.request.matchesClips durationA durationB with
  | false =>
      simp only [hclips, Bool.not_false, if_true] at hnot
      cases (hasFailed_finish rfl c b).symm.trans hnot
  | true =>
      simp only [hclips, Bool.not_true, Bool.false_eq_true, if_false] at hnot ⊢
      cases hparams : b.request.params durationA durationB c.margin with
      | error e =>
          simp only [hparams] at hnot
          cases (hasFailed_finish rfl c b).symm.trans hnot
      | ok params =>
          simp only [hparams] at hnot ⊢
          split
          · rename_i hzero
            simp only [hzero, if_true] at hnot
            cases (hasFailed_finish rfl c b).symm.trans hnot
          · have hplanned : PlannedFor durationA durationB c.margin
                { b with
                  params
                  total := Timeline.frameCount b.request.mode params b.request.fps
                  index := 0 } := ⟨hclips, hparams, rfl⟩
            exact hplanned.enterPosition v _

theorem takeOver_planned {v : View α} {c : FrameCache α} {b : Build α}
    (hnot : (takeOver v c b).2.hasFailed = false) : Planned c.margin v (takeOver v c b).2 := by
  unfold takeOver at hnot ⊢
  dsimp only at hnot ⊢
  split
  · rename_i durationA durationB hA hB
    simp only [hA, hB] at hnot
    exact ⟨durationA, durationB, hA, hB, plan_planned hnot⟩
  · rename_i hnone
    split at hnot
    · rename_i durationA durationB hA hB
      exact absurd hB (hnone durationA durationB hA)
    · cases (hasFailed_finish rfl _ _).symm.trans hnot

/-- The plan is made in the step in which the build begins. -/
theorem resume_planned {v : View α} {sought : SeekOutcome} {c : FrameCache α} {b : Build α}
    (hb : b.hasBegun = false) (hbegun : (b.resume v sought c).2.hasBegun = true)
    (hnot : (b.resume v sought c).2.hasFailed = false) :
    Planned c.margin v (b.resume v sought c).2 := by
  cases hp : b.phase with
  | called =>
      simp only [resume, hp, start] at hbegun hnot ⊢
      split
      · rename_i hrest
        simp only [hrest, if_true] at hbegun
        cases hbegun
      · rename_i hrest
        rw [if_neg hrest] at hnot
        exact takeOver_planned hnot
  | grace =>
      simp only [resume, hp] at hnot ⊢
      exact takeOver_planned hnot
  | seeking clip time => simp [hasBegun, hp] at hb
  | settling clip => simp [hasBegun, hp] at hb
  | report x => simp [hasBegun, hp] at hb
  | ended o => simp [hasBegun, hp] at hb

/-- What a build that has begun keeps, unless it fails. -/
theorem Move.plan {c : FrameCache α} {b : Build α} {y : Running α} (h : Move c b y)
    (hb : b.hasBegun = true) (hnot : y.2.hasFailed = false) :
    b.hasFailed = false ∧ y.2.params = b.params ∧ y.2.total = b.total := by
  cases h with
  | yield hp => simp [Build.hasBegun, hp] at hb
  | refuse _ _ hbegun => simp [hbegun] at hb
  | takeOver _ _ _ hbegun => simp [hbegun] at hb
  | wait b' i phase hseek hb' =>
      subst hb'
      exact ⟨hasFailed_of_not_hasEnded (hasEnded_of_isSeeking hseek), rfl, rfl⟩
  | push _ _ _ hseek =>
      exact ⟨hasFailed_of_not_hasEnded (hasEnded_of_isSeeking hseek), rfl, rfl⟩
  | fill _ _ _ hseek =>
      exact ⟨hasFailed_of_not_hasEnded (hasEnded_of_isSeeking hseek), rfl, rfl⟩
  | advance _ hreport =>
      exact ⟨hasFailed_of_not_hasEnded (hasEnded_of_isReporting hreport), rfl, rfl⟩
  | complete hreport =>
      exact ⟨hasFailed_of_not_hasEnded (hasEnded_of_isReporting hreport), rfl, rfl⟩
  | fail _ _ _ hfailed => cases hfailed.symm.trans hnot
  | rest => exact ⟨hnot, rfl, rfl⟩

/-- A build stands at one of its positions until it has ended, and stores no more than them. -/
structure Within (b : Build α) : Prop where
  index_lt : b.hasEnded = false → b.index < b.total
  stored_le : b.stored ≤ b.total

omit [Scalar α] in
theorem within_of_hasFailed {b : Build α} (h : b.hasFailed = true) : b.Within where
  index_lt hended := by cases (hasEnded_of_hasFailed h).symm.trans hended
  stored_le := by
    cases hp : b.phase with
    | ended o =>
        cases o with
        | complete n => simp [hasFailed, hp, BuildOutcome.isSuccess] at h
        | truncated n => simp [hasFailed, hp, BuildOutcome.isSuccess] at h
        | cancelled => simp [stored, hp]
        | failed fault => simp [stored, hp]
    | _ => simp [hasFailed, hp] at h

theorem Move.within {c : FrameCache α} {b : Build α} {y : Running α} (h : Move c b y)
    (hb : b.hasBegun = true → b.Within) (hbegun : y.2.hasBegun = true) : y.2.Within := by
  cases h with
  | yield => cases hbegun
  | refuse _ b' _ hfailed => exact within_of_hasFailed hfailed
  | takeOver params total time _ htotal =>
      exact ⟨fun _ => Nat.pos_of_ne_zero htotal, Nat.zero_le _⟩
  | wait b' i phase hseek hb' hseek' =>
      subst hb'
      have hlt := (hb (hasBegun_of_isSeeking hseek)).index_lt (hasEnded_of_isSeeking hseek)
      refine ⟨fun _ => hlt, ?_⟩
      rw [stored_of_isSeeking hseek']
      exact hlt.le
  | push frameA frameB progress hseek =>
      have hlt := (hb (hasBegun_of_isSeeking hseek)).index_lt (hasEnded_of_isSeeking hseek)
      exact ⟨fun _ => hlt, hlt⟩
  | fill frameA frameB progress hseek =>
      have hlt := (hb (hasBegun_of_isSeeking hseek)).index_lt (hasEnded_of_isSeeking hseek)
      exact ⟨fun hended => (Bool.true_eq_false_eq_False hended).elim, hlt⟩
  | advance time hreport hlt => exact ⟨fun _ => hlt, hlt.le⟩
  | complete hreport => exact ⟨fun hended => (Bool.true_eq_false_eq_False hended).elim, le_rfl⟩
  | fail b' _ _ hfailed => exact within_of_hasFailed hfailed
  | rest hended => exact hb (hasBegun_of_hasEnded hended)

end Build

namespace FrameCache.Session

/-- What the builds of a session have planned, and for which clips. -/
structure Plans (margin : α) (s : Session α) : Prop where
  margin_eq : s.cache.margin = margin
  within : ∀ (k : Nat) (x : BuildCall α), s.calls[k]? = some (.build x) →
    x.build.hasBegun = true → x.build.Within
  planned : ∀ (k : Nat) (x : BuildCall α), s.calls[k]? = some (.build x) →
    x.build.hasBegun = true → x.build.hasFailed = false →
    ∃ v sought, x.heard.head? = some (v, sought) ∧ x.build.Planned margin v

theorem Plans.advance {margin : α} {s : Session α} (h : s.Plans margin) (hs : s.Sound) (k : Nat)
    (v : Build.View α) (sought : SeekOutcome) : (s.advance k v sought).Plans margin := by
  rcases advance_cases s k v sought with ⟨x, hk, heq⟩ | heq
  · have hmove := Build.resume_move v sought s.cache x.build
    rw [heq]
    refine ⟨hmove.tuning.margin_eq.trans h.margin_eq, ?_, ?_⟩
    · intro j y hj hbegun
      rcases (getElem?_set_eq_some hk).mp hj with ⟨rfl, hxy⟩ | ⟨-, hj⟩
      · cases hxy
        exact hmove.within (h.within j x hk) hbegun
      · exact h.within j y hj hbegun
    · intro j y hj hbegun hnot
      rcases (getElem?_set_eq_some hk).mp hj with ⟨rfl, hxy⟩ | ⟨-, hj⟩
      · cases hxy
        cases hb : x.build.hasBegun with
        | false =>
            refine ⟨v, sought, ?_, ?_⟩
            · have hheard := (hs.fresh j x hk hb).heard_eq
              have hgone : (x.build.resume v sought s.cache).2.hasBegun = true := hbegun
              simp [BuildCall.resume, hgone, hheard]
            · rw [← h.margin_eq]
              exact Build.resume_planned hb hbegun hnot
        | true =>
            obtain ⟨hwas, hparams, htotal⟩ := hmove.plan hb hnot
            obtain ⟨w, o, hheard, durationA, durationB, hA, hB, hplanned⟩ :=
              h.planned j x hk hb hwas
            refine ⟨w, o, ?_, durationA, durationB, hA, hB,
              hplanned.congr hmove.request hparams htotal⟩
            have hgone : (x.build.resume v sought s.cache).2.hasBegun = true := hbegun
            simp [BuildCall.resume, hgone, List.head?_append, hheard]
      · exact h.planned j y hj hbegun hnot
  · rw [heq]
    exact h

/-- A call that has not begun plans nothing. -/
theorem Plans.append {margin : α} {s : Session α} (h : s.Plans margin) {c : FrameCache α}
    {call : Call α} (hc : c.margin = s.cache.margin)
    (hcall : ∀ x, call = .build x → x.build.hasBegun = false) :
    Plans margin ⟨c, s.calls ++ [call]⟩ := by
  have hold : ∀ {k : Nat} {x : BuildCall α}, (s.calls ++ [call])[k]? = some (.build x) →
      x.build.hasBegun = true → s.calls[k]? = some (.build x) := by
    intro k x hk hbegun
    rcases getElem?_append_eq_some.mp hk with ⟨-, hx⟩ | ⟨-, hk⟩
    · cases (hcall x hx.symm).symm.trans hbegun
    · exact hk
  refine ⟨hc.trans h.margin_eq, ?_, ?_⟩
  · intro k x hk hbegun
    exact h.within k x (hold hk hbegun) hbegun
  · intro k x hk hbegun hnot
    exact h.planned k x (hold hk hbegun) hbegun hnot

theorem Plans.step {margin : α} {s : Session α} (h : s.Plans margin) (hs : s.Sound)
    (e : Event α) : (s.step e).Plans margin := by
  cases e with
  | build request v =>
      have hcall : (s.call request).Plans margin := by
        refine h.append rfl ?_
        rintro x ⟨⟩
        rfl
      exact hcall.advance (hs.call request) s.calls.length v .completed
  | resume k v sought => exact h.advance hs k v sought
  | clear =>
      refine h.append rfl ?_
      rintro x ⟨⟩

theorem plans_run (config : CacheConfig) (margin : α) (scale : Resampler)
    (events : List (Event α)) :
    ((start config margin scale).run events).Plans margin := by
  have hboth : ((start config margin scale).run events).Sound ∧
      ((start config margin scale).run events).Plans margin := by
    refine run_induction (P := fun s => s.Sound ∧ s.Plans margin) ?_ ?_ events
    · rintro s e ⟨hsound, hplans⟩
      exact ⟨hsound.step e, hplans.step hsound e⟩
    · exact ⟨sound_start config margin scale, rfl, by simp [start], by simp [start]⟩
  exact hboth.2

end FrameCache.Session

end Segue
