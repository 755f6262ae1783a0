import Mathlib
import Segue.Proofs.Export.Countdown
import Segue.Proofs.Export.Scene
import Segue.Renderer.Basic

/-!
# What a run owns

A run gives back what it owns, whichever way it ends. Its crew says what that is at any time, the
books say what has been obtained and given back, and every function of the run keeps the two in
agreement until the crew is dismissed.
-/

namespace Segue

namespace Scene

variable {ω σ κ β γ : Type}

/-! ## Actions -/

def quiet (dropped : Bool) (l : Custody) : Promise (Staged ω) :=
  Promise.id.stateT fun s => s.dropped = dropped ∧ s.custody = l

section

variable {dropped : Bool} {l : Custody}

theorem quiet_share (x : StateM (Commons ω) β) : (quiet dropped l).safe (share x) :=
  fun _ hs => ⟨trivial, hs⟩

theorem quiet_act (h : Handle β) (x : StateM ω β) :
    (quiet dropped l).holds (h.act x) fun h' => h'.number = h.number :=
  Promise.holds_bind (quiet_share _) fun _ => (quiet dropped l).returns rfl

theorem quiet_ask (h : Handle β) (x : StateM ω (γ × β)) :
    (quiet dropped l).holds (h.ask x) fun r => r.2.number = h.number :=
  Promise.holds_bind (quiet_share _) fun _ => (quiet dropped l).returns rfl

end

variable {x : Staged ω β} {t : Task (Staged ω) β} {f : β → Task (Staged ω) γ} {R : β → Prop}
  {Q : γ → Scene ω → Prop} {s : Scene ω}

theorem meets_quiet (hx : (quiet s.dropped s.custody).holds x R) :
    Meets (liftM x) (fun b s' => R b ∧ s'.custody = s.custody) s := by
  obtain ⟨hR, hdropped, hcustody⟩ := hx s ⟨rfl, rfl⟩
  exact ⟨hdropped, hR, hcustody⟩

theorem meets_act_bind {f : β → Staged ω γ} {R : β → Scene ω → Prop} (hx : Meets (liftM x) R s)
    (hf : ∀ b s, R b s → Meets (liftM (f b)) Q s) : Meets (liftM (x >>= f)) Q s := by
  obtain ⟨hdropped, hR⟩ := hx
  obtain ⟨hkept, hQ⟩ := hf _ _ hR
  exact ⟨hkept.trans hdropped, hQ⟩

theorem meets_look {x : Staged ω Bool} {f : Bool → Task (Staged ω) γ} (hx : Heeds x)
    (hf : ∀ b, Meets (f b) Q s) : Meets (liftM x >>= f) Q s := by
  have hnext : Meets (f (x s).1) Q (x s).2 := by
    rw [hx.looks]
    exact hf _
  exact ⟨congrArg Scene.dropped (hx.looks s), hnext⟩

/-! ## Waits -/

variable {cut : Staged ω Bool} (hcut : Heeds cut)
include hcut

theorem meets_sleepUntil (due : Option Nat) :
    Meets (Task.sleepUntil due cut) (fun _ s' => s'.custody = s.custody) s :=
  ⟨fun _ => hcut, fun _ _ => rfl⟩

theorem meets_giveWay : Meets (Task.giveWay cut) (fun _ s' => s'.custody = s.custody) s := by
  intro t
  refine ⟨fun u => ?_, fun _ _ => rfl⟩
  dsimp only
  split
  · exact ⟨fun _ => rfl, fun _ _ => rfl⟩
  · exact hcut

theorem meets_rest (duration : Nat) :
    Meets (rest duration cut) (fun _ s' => s'.custody = s.custody) s :=
  fun _ => meets_sleepUntil hcut _

/-! ## Seeks -/

variable [Source (StateM ω) Float σ] {P : Custody → Prop} {h : Handle σ}
  (hseek : ∀ l, P l → P (l.seek h.number))
include hseek

omit hcut in
theorem meets_seek (time : Float) (hP : P s.custody) :
    Meets (liftM (Source.seek h time : Staged ω (Seeking (Handle σ))))
      (fun r s' => (r.source.number = h.number ∧
        ∀ landed, r.result = .ok landed → landed.number = h.number) ∧ P s'.custody) s := by
  exact ⟨rfl, ⟨rfl, fun _ hlanded => Handle.seeking_landed hlanded⟩, hseek _ hP⟩

theorem meets_seekBounded (timeout : Nat) (time : Float) (hP : P s.custody) :
    Meets (seekBounded timeout cut h time)
      (fun r s' => r.2.number = h.number ∧ P s'.custody) s := by
  unfold seekBounded
  refine meets_look hcut fun cancelled => ?_
  split
  · exact ⟨rfl, hP⟩
  · intro start
    refine (meets_seek hseek time hP).bind fun r s₁ hr => ?_
    obtain ⟨⟨hsource, hlanded⟩, hP⟩ := hr
    -- `finish` is what comes after the source has given way, or at once if it does not
    extract_lets settled finish
    have hsettled : settled.2.number = h.number := by
      unfold settled
      split
      · rename_i landed hresult
        exact hlanded landed hresult
      · exact hsource
    clear_value settled
    have hfinish : ∀ s₂ : Scene ω, P s₂.custody →
        Meets (finish ()) (fun r s' => r.2.number = h.number ∧ P s'.custody) s₂ := by
      intro s₂ hP
      unfold finish
      split
      · exact ⟨hsettled, hP⟩
      · split
        · exact ⟨hsource, hP⟩
        · refine (meets_sleepUntil hcut _).bind fun _ s₃ hs₃ => meets_look hcut fun cancelled => ?_
          have hP₃ : P s₃.custody := hs₃ ▸ hP
          split
          · exact ⟨hsource, hP₃⟩
          · split
            · refine ⟨?_, hP₃⟩
              split
              · exact hsettled
              · exact hsource
            · exact ⟨hsource, hP₃⟩
    clear_value finish
    split
    · split
      · exact ⟨hsource, hP⟩
      · refine (meets_giveWay hcut).bind fun _ s₂ hs₂ => meets_look hcut fun cancelled => ?_
        have hP₂ : P s₂.custody := hs₂ ▸ hP
        split
        · exact ⟨hsource, hP₂⟩
        · exact hfinish s₂ hP₂
    · exact hfinish s₁ hP

/-- Whatever is kept by a seek of the handle is kept by a retried one. -/
theorem meets_retry (p : RetryPolicy) (time : Float) (n : Nat) (h' : Handle σ)
    (hnumber : h'.number = h.number) (r : Retry) (hP : P s.custody) :
    Meets (Retry.perform p cut time n h' r)
      (fun r s' => r.2.number = h.number ∧ P s'.custody) s := by
  induction n generalizing h' r s with
  | zero => cases r <;> exact ⟨hnumber, hP⟩
  | succ n ih =>
      cases r with
      | seeking timeouts =>
          have hseek' : ∀ l, P l → P (l.seek h'.number) := hnumber ▸ hseek
          refine (meets_seekBounded hcut hseek' _ time hP).bind fun b s₁ hb => ?_
          exact ih b.2 (hb.1.trans hnumber) _ hb.2
      | resting timeouts =>
          refine (meets_rest hcut _).bind fun _ s₁ hs₁ => meets_look hcut fun cancelled => ?_
          exact ih h' hnumber _ (hs₁ ▸ hP)
      | ended o => exact ⟨hnumber, hP⟩

theorem meets_seekRetrying (p : RetryPolicy) (time : Float) (hP : P s.custody) :
    Meets (seekRetrying p cut h time) (fun r s' => r.2.number = h.number ∧ P s'.custody) s :=
  meets_look hcut fun _ => meets_retry hcut hseek p time _ h rfl _ hP

omit hseek in
theorem meets_seekClip (p : RetryPolicy) (time : Float) (h? : Option (Handle σ))
    (hseek : ∀ h ∈ h?, ∀ l, P l → P (l.seek h.number)) (hP : P s.custody) :
    Meets (Export.seekClip p cut time h?)
      (fun r s' => r.2.map Handle.number = h?.map Handle.number ∧ P s'.custody) s := by
  cases h? with
  | none => exact ⟨rfl, hP⟩
  | some h =>
      refine (meets_seekRetrying hcut (hseek h rfl) p time hP).bind fun r s₁ hr => ?_
      exact ⟨congrArg some hr.1, hr.2⟩

end Scene

namespace Export

open Scene

variable {ω σ κ : Type}

/-! ## The crew -/

def Crew.roll (c : Crew (Handle σ) (Handle κ)) : Crew Nat Nat :=
  ⟨c.a.map Handle.number, c.b.map Handle.number, c.compositor.map Handle.number⟩

def Crew.clips (c : Crew Nat Nat) : List Nat := c.a.toList ++ c.b.toList

@[simp] theorem roll_clips (c : Crew (Handle σ) (Handle κ)) : c.roll.clips =
    (c.a.map Handle.number).toList ++ (c.b.map Handle.number).toList := rfl

/-- The crew is what the run has obtained and not given back; of the clips of the caller, whose
numbers are less than `first`, the run has touched none. -/
structure Holds (first : Nat) (c : Crew Nat Nat) (l : Custody) : Prop where
  obtained : l.obtained = c.clips
  distinct : l.obtained.Nodup
  own : ∀ n ∈ l.obtained, first ≤ n ∧ n < l.next
  first_le : first ≤ l.next
  sought : ∀ n ∈ l.sought, n ∈ l.obtained
  released : l.released = []
  composed : l.composed = l.disposed ++ c.compositor.toList
  once : l.composed.length ≤ 1

theorem holds_opening (first : Nat) : Holds first ⟨none, none, none⟩ (.opening first) where
  obtained := rfl
  distinct := List.nodup_nil
  own _ hn := nomatch hn
  first_le := le_rfl
  sought _ hn := nomatch hn
  released := rfl
  composed := rfl
  once := Nat.zero_le 1

section

variable {first : Nat} {c c' : Crew Nat Nat} {l : Custody}

theorem Holds.congr (h : Holds first c l) (hclips : c'.clips = c.clips)
    (hcompositor : c'.compositor = c.compositor) : Holds first c' l :=
  { h with
    obtained := h.obtained.trans hclips.symm
    composed := hcompositor ▸ h.composed }

theorem Holds.seek (h : Holds first c l) {n : Nat} (hn : n ∈ c.clips) :
    Holds first c (l.seek n) where
  obtained := h.obtained
  distinct := h.distinct
  own := h.own
  first_le := h.first_le
  sought m hm := by
    rcases List.mem_append.mp hm with hm | hm
    · exact h.sought m hm
    · rw [List.mem_singleton.mp hm, Custody.seek, h.obtained]
      exact hn
  released := h.released
  composed := h.composed
  once := h.once

theorem Holds.obtain (h : Holds first c l) (hclips : c'.clips = c.clips ++ [l.next])
    (hcompositor : c'.compositor = c.compositor) : Holds first c' l.obtain where
  obtained := by rw [Custody.obtain, h.obtained, hclips]
  distinct := by
    have hnew : ∀ n ∈ l.obtained, n ≠ l.next := fun n hn => (h.own n hn).2.ne
    refine List.nodup_append.mpr ⟨h.distinct, List.nodup_singleton _, fun n hn m hm => ?_⟩
    rw [List.mem_singleton.mp hm]
    exact hnew n hn
  own n hn := by
    rcases List.mem_append.mp hn with hn | hn
    · exact ⟨(h.own n hn).1, (h.own n hn).2.trans (Nat.lt_succ_self l.next)⟩
    · rw [List.mem_singleton.mp hn]
      exact ⟨h.first_le, Nat.lt_succ_self l.next⟩
  first_le := h.first_le.trans (Nat.le_succ l.next)
  sought n hn := List.mem_append_left _ (h.sought n hn)
  released := h.released
  composed := hcompositor ▸ h.composed
  once := h.once

theorem Holds.compose (h : Holds first c l) (hnone : c.compositor = none)
    (hcomposed : l.composed = []) : Holds first { c with compositor := some l.next } l.compose where
  obtained := h.obtained
  distinct := h.distinct
  own n hn := ⟨(h.own n hn).1, (h.own n hn).2.trans (Nat.lt_succ_self l.next)⟩
  first_le := h.first_le.trans (Nat.le_succ l.next)
  sought := h.sought
  released := h.released
  composed := by
    have hdisposed := h.composed
    rw [hnone, Option.toList_none, List.append_nil] at hdisposed
    rw [Custody.compose, hdisposed]
    rfl
  once := by rw [Custody.compose, hcomposed]; exact le_rfl

theorem Holds.dispose (h : Holds first c l) {n : Nat} (hn : c.compositor = some n) :
    Holds first { c with compositor := none } (l.dispose n) where
  obtained := h.obtained
  distinct := h.distinct
  own := h.own
  first_le := h.first_le
  sought := h.sought
  released := h.released
  composed := by
    have hcomposed := h.composed
    rw [hn, Option.toList_some] at hcomposed
    rw [Option.toList_none, List.append_nil]
    exact hcomposed
  once := h.once

end

variable [Source (StateM ω) Float σ] [Compositor (StateM ω) Float κ]

theorem quiet_show {dropped : Bool} {l : Custody} (k : Handle κ) (clip : Clip)
    (image? : Option Image) : (quiet dropped l : Promise (Staged ω)).holds
      (Compositor.show k clip image?) fun k' => k'.number = k.number := by
  cases image? with
  | none => exact (quiet dropped l).returns rfl
  | some image => exact quiet_act k _

theorem quiet_picture {dropped : Bool} {l : Custody} (time : Float) (shot : Shot Float)
    (c : Crew (Handle σ) (Handle κ)) : (quiet dropped l : Promise (Staged ω)).holds
      (picture time shot c) fun r => r.2.roll = c.roll := by
  unfold picture
  cases hk : c.compositor with
  | none => exact (quiet dropped l).returns rfl
  | some k =>
      have hroll : ∀ k' : Handle κ, k'.number = k.number →
          ({ c with compositor := some k' } : Crew (Handle σ) (Handle κ)).roll = c.roll := by
        intro k' hk'
        simp only [Crew.roll, hk, Option.map_some, hk']
      refine (quiet dropped l).bind (quiet_show k .a _) fun k₁ h₁ => ?_
      refine (quiet dropped l).bind (quiet_show k₁ .b _) fun k₂ h₂ => ?_
      refine (quiet dropped l).bind (quiet_act k₂ _) fun k₃ h₃ => ?_
      refine (quiet dropped l).bind (quiet_ask k₃ _) fun ⟨drawn, k₄⟩ h₄ => ?_
      have hrendered : k₄.number = k.number := h₄.trans (h₃.trans (h₂.trans h₁))
      dsimp only
      split
      · exact (quiet dropped l).returns (hroll k₄ hrendered)
      · refine (quiet dropped l).bind (quiet_ask k₄ _) fun ⟨image?, k₅⟩ h₅ => ?_
        have hread : k₅.number = k.number := h₅.trans hrendered
        cases image? with
        | none => exact (quiet dropped l).returns (hroll k₅ hread)
        | some image => exact (quiet dropped l).returns (hroll k₅ hread)

theorem heeds_exporter (p : Exporter Float → Bool) : Heeds (do
    if p (← getThe (Exporter Float)) then pure true else isDropped : Staged ω Bool) := by
  have hlook : ∀ s : Scene ω, (do
      if p (← getThe (Exporter Float)) then pure true else isDropped : Staged ω Bool) s =
      (if p s.commons.exporter then (true, s) else (s.dropped, s)) := by
    intro s
    change (if p s.commons.exporter then pure true else isDropped : Staged ω Bool) s = _
    split <;> rfl
  constructor
  · intro s
    rw [hlook]
    split <;> rfl
  · intro s hs
    rw [hlook]
    split
    · rfl
    · exact hs

theorem meets_join (run : Nat) (s : Scene ω) : Meets (join isDropped run : Task (Staged ω) _)
    (fun reply? s' => (∀ reply ∈ reply?, Suits .joining reply) ∧ s'.custody = s.custody) s := by
  refine ⟨fun _ => heeds_exporter (·.hasFinished run), fun commons dropped => ⟨rfl, ?_, rfl⟩⟩
  intro reply hreply
  obtain ⟨u, -, rfl⟩ := Option.map_eq_some_iff.mp hreply
  exact .finished u.index u.ending

omit [Compositor (StateM ω) Float κ] in
/-- A run seeks a clip of its crew; `put` takes the clip back in. -/
theorem meets_seekOwn {cut : Staged ω Bool} (hcut : Heeds cut) (p : RetryPolicy) (clip : Clip)
    (time : Float) {c : Crew (Handle σ) (Handle κ)} (h? : Option (Handle σ))
    (put : Option (Handle σ) → Crew (Handle σ) (Handle κ))
    (hown : ∀ h ∈ h?, h.number ∈ c.roll.clips)
    (hput : ∀ h'?, h'?.map Handle.number = h?.map Handle.number → (put h'?).roll = c.roll)
    {first : Nat} {s : Scene ω} (hc : Holds first c.roll s.custody) :
    Meets (do
        let (o, h'?) ← seekClip p cut time h?
        return (some (.sought o), put h'?))
      (fun b s' => (∀ reply ∈ b.1, Suits (.seeking clip time) reply) ∧
        Holds first b.2.roll s'.custody) s := by
  have hseek := meets_seekClip hcut p time h? (fun h hh l hl => hl.seek (hown h hh)) hc
  refine hseek.bind fun x s₁ ⟨hsame, hkept⟩ => ⟨?_, ?_⟩
  · intro reply hreply
    cases hreply
    exact .sought clip time x.1
  · rw [hput _ hsame]
    exact hkept

/-- What a run waits for touches nothing but its crew. -/
theorem meets_await (config : ExportConfig) {report : Float → Staged ω Unit}
    (hreport : ∀ x dropped l, (quiet dropped l).safe (report x)) {first : Nat} (r : Export Float)
    (c : Crew (Handle σ) (Handle κ)) {s : Scene ω} (hc : Holds first c.roll s.custody) :
    Meets (r.await config isDropped report c) (fun b s' =>
      (∀ reply ∈ b.1, Suits r.phase reply) ∧ Holds first b.2.roll s'.custody) s := by
  have hcut : Heeds (do if ← isCancelled r.generation then pure true else isDropped) :=
    heeds_exporter (ω := ω) (·.isCancelled r.generation)
  unfold await
  cases r.phase with
  | called => exact ⟨fun _ h => (nomatch h), hc⟩
  | readying => exact ⟨fun _ h => (nomatch h), hc⟩
  | composing => exact ⟨fun _ h => (nomatch h), hc⟩
  | ended result => exact ⟨fun _ h => (nomatch h), hc⟩
  | seeking clip time =>
      cases clip with
      | a =>
          refine meets_seekOwn hcut (policy config) .a time c.a (fun a => { c with a })
            (fun h hh => ?_) (fun a ha => ?_) hc
          · rw [roll_clips, Option.mem_def.mp hh]
            exact List.mem_cons_self
          · exact congrArg (fun a => { c.roll with a }) ha
      | b =>
          refine meets_seekOwn hcut (policy config) .b time c.b (fun b => { c with b })
            (fun h hh => ?_) (fun b hb => ?_) hc
          · rw [roll_clips, Option.mem_def.mp hh]
            exact List.mem_append_right _ List.mem_cons_self
          · exact congrArg (fun b => { c.roll with b }) hb
  | drawing time shot =>
      refine (meets_quiet (quiet_picture time shot c)).bind fun b s₁ hb => ⟨?_, ?_⟩
      · intro reply hreply
        cases hreply
        exact .drawn time shot b.1
      · rw [hb.1, hb.2]
        exact hc
  | encoding i =>
      refine (meets_giveWay heeds_isDropped).bind fun _ s₁ hs₁ => ⟨?_, hs₁ ▸ hc⟩
      intro reply hreply
      cases hreply
      exact .encoded i
  | joining => exact (meets_join r.generation s).bind fun b s₁ hb => ⟨hb.1, hb.2 ▸ hc⟩
  | report x =>
      refine (meets_quiet (hreport x _ _)).bind fun b s₁ hb => ⟨?_, hb.2 ▸ hc⟩
      intro reply hreply
      cases hreply
      exact .told x

/-! ## Runs -/

/-- The run goes on with the exporter as others have left it. -/
theorem meets_step (reply? : Option (Reply Float)) (r : Export Float) (s : Scene ω) :
    Meets (step reply? r : Task (Staged ω) _) (fun r' s' =>
      s'.custody = s.custody ∧ (s'.commons.exporter, r') =
        match reply? with
        | some reply => r.resume reply s.commons.exporter
        | none => r.quit s.commons.exporter) s :=
  ⟨rfl, rfl, by cases reply? <;> rfl⟩

/-- A run at work that gets a reply comes closer to its end; without one it has ended. -/
theorem meets_step_onCourse {own m : Nat} {r : Export Float} (h : Steady own m r)
    (reply? : Option (Reply Float)) (hreply : ∀ reply ∈ reply?, Suits r.phase reply) (s : Scene ω) :
    Meets (step reply? r : Task (Staged ω) _) (fun r' s' => s'.custody = s.custody ∧
      ∃ k, OnCourse own k (s'.commons.exporter, r') ∧ (r'.hasEnded = false → k < m)) s := by
  refine (meets_step reply? r s).mono fun r' s' ⟨hcustody, heq⟩ => ⟨hcustody, ?_⟩
  cases reply? with
  | none =>
      refine ⟨0, heq ▸ quit_onCourse h.number _, fun hgoes => ?_⟩
      have hended : r'.hasEnded = true := congrArg (fun y => y.2.hasEnded) heq
      exact nomatch hended.symm.trans hgoes
  | some reply =>
      have hsuits := hreply reply rfl
      obtain ⟨k, rfl⟩ := Nat.exists_eq_add_one.mpr (h.pos hsuits)
      exact ⟨k, heq ▸ h.resume hsuits _, fun _ => Nat.lt_succ_self k⟩

theorem meets_perform (config : ExportConfig) {report : Float → Staged ω Unit}
    (hreport : ∀ x dropped l, (quiet dropped l).safe (report x)) {first own : Nat} (n : Nat)
    {m : Nat} (c : Crew (Handle σ) (Handle κ)) (r : Export Float) {s : Scene ω}
    (hc : Holds first c.roll s.custody) (hr : OnCourse own m (s.commons.exporter, r))
    (hfuel : r.hasEnded = false → m < n) :
    Meets (perform config isDropped report n c r) (fun b s' =>
      Holds first b.2.roll s'.custody ∧ s'.commons.exporter.Off own) s := by
  -- on the steps that are left; the countdown of the run stays below them
  induction n generalizing m c r s with
  | zero =>
      have hended : r.hasEnded = true := by
        by_contra hgoes
        exact absurd (hfuel (Bool.eq_false_of_not_eq_true hgoes)) (Nat.not_lt_zero m)
      exact ⟨hc, hr.off hended⟩
  | succ n ih =>
      unfold perform
      split
      · rename_i result hp
        exact ⟨hc, hr.off (by simp [hasEnded, hp])⟩
      · rename_i hgoes
        have hended : r.hasEnded = false := by
          unfold hasEnded
          split
          · rename_i result hp
            exact absurd hp (hgoes result)
          · rfl
        refine (meets_await config hreport r c hc).bind fun b s₁ hb => ?_
        refine meets_look heeds_isDropped fun gone => ?_
        have hsuits : ∀ reply ∈ (if gone then none else b.1), Suits r.phase reply := by
          intro reply hreply
          split at hreply
          · cases hreply
          · exact hb.1 reply hreply
        refine (meets_step_onCourse hr.toSteady _ hsuits s₁).bind fun r' s₂ hr' => ?_
        obtain ⟨hcustody, k, hcourse, hless⟩ := hr'
        refine ih b.2 r' (hcustody ▸ hb.2) hcourse fun hgoes => ?_
        exact Nat.lt_of_lt_of_le (hless hgoes) (Nat.le_of_lt_succ (hfuel hended))

/-! ## Obtaining and giving back -/

structure Duplicated (s : Scene ω) (x : Except MediaError (Handle σ)) (s' : Scene ω) : Prop where
  exporter : s'.commons.exporter = s.commons.exporter
  composed : s'.custody.composed = s.custody.composed
  entered : ∀ h, x = .ok h → h.number = s.custody.next ∧ s'.custody = s.custody.obtain
  refused : ∀ e, x = .error e → s'.custody = s.custody

omit [Source (StateM ω) Float σ] in
theorem Duplicated.holds {s s' : Scene ω} {x : Except MediaError (Handle σ)}
    (h : Duplicated s x s') {first : Nat} {c c' : Crew Nat Nat} (hc : Holds first c s.custody)
    (hclips : c'.clips = c.clips ++ (x.toOption.map Handle.number).toList)
    (hcompositor : c'.compositor = c.compositor) : Holds first c' s'.custody := by
  cases x with
  | ok d =>
      obtain ⟨hnumber, hcustody⟩ := h.entered d rfl
      rw [hcustody]
      exact hc.obtain (hnumber ▸ hclips) hcompositor
  | error e =>
      rw [h.refused e rfl]
      exact hc.congr (hclips.trans (List.append_nil _)) hcompositor

theorem meets_duplicate (h : Handle σ) (s : Scene ω) :
    Meets (liftM (Source.duplicate h : Staged ω (Except MediaError (Handle σ))))
      (Duplicated s) s := by
  refine meets_act_bind (R := fun _ s' => s'.commons.exporter = s.commons.exporter ∧
    s'.custody = s.custody) ⟨rfl, rfl, rfl⟩ fun x s₁ ⟨hexporter, hcustody⟩ => ?_
  cases x with
  | ok item =>
      refine ⟨rfl, hexporter, congrArg (fun l => l.obtain.composed) hcustody, fun h hh => ?_,
        fun _ he => nomatch he⟩
      cases hh
      exact ⟨congrArg Custody.next hcustody, congrArg Custody.obtain hcustody⟩
  | error e =>
      exact ⟨rfl, hexporter, congrArg Custody.composed hcustody, fun _ h => (nomatch h),
        fun _ _ => hcustody⟩

omit [Compositor (StateM ω) Float κ] in
theorem meets_hire (a b : Handle σ) {first : Nat} {s : Scene ω}
    (hs : s.custody = .opening first) :
    Meets (liftM (hire a b : Staged ω (Reply Float × Crew (Handle σ) (Handle κ))))
      (fun x s' => (∃ fa fb, x.1 = .duplicated fa fb) ∧ Holds first x.2.roll s'.custody ∧
        x.2.compositor = none ∧ s'.custody.composed = [] ∧
        s'.commons.exporter = s.commons.exporter) s := by
  refine meets_act_bind (meets_duplicate a s) fun ra s₁ ha => ?_
  refine meets_act_bind (meets_duplicate b s₁) fun rb s₂ hb => ?_
  have hopening : Holds first ⟨none, none, none⟩ s.custody := hs ▸ holds_opening first
  have hclipA : Holds first ⟨ra.toOption.map Handle.number, none, none⟩ s₁.custody :=
    ha.holds hopening (List.append_nil _) rfl
  have hclips : Holds first ⟨ra.toOption.map Handle.number, rb.toOption.map Handle.number, none⟩
      s₂.custody := hb.holds hclipA (by simp [Crew.clips]) rfl
  have hcomposed : s₂.custody.composed = [] := by
    rw [hb.composed, ha.composed, hs]
    rfl
  exact ⟨rfl, ⟨_, _, rfl⟩, hclips, rfl, hcomposed, hb.exporter.trans ha.exporter⟩

theorem readyWithin_number (timeout : Nat) (h? : Option (Handle σ)) :
    (readyWithin (Staged ω) timeout h?).2.map Handle.number = h?.map Handle.number := by
  cases h? with
  | none => rfl
  | some h =>
      unfold readyWithin
      dsimp only
      split <;> rfl

omit [Compositor (StateM ω) Float κ] in
theorem meets_makeReady (timeout : Nat) (c : Crew (Handle σ) (Handle κ)) (s : Scene ω) :
    Meets (makeReady isDropped timeout c) (fun x s' => (∃ fa fb, x.1 = .ready fa fb) ∧
      x.2.roll = c.roll ∧ x.2.compositor = c.compositor ∧ s'.custody = s.custody) s := by
  unfold makeReady
  refine (meets_rest heeds_isDropped _).bind fun _ s₁ hs₁ => ?_
  refine ⟨⟨_, _, rfl⟩, ?_, rfl, hs₁⟩
  exact congrArg₂ (fun a b => (⟨a, b, c.compositor.map Handle.number⟩ : Crew Nat Nat))
    (readyWithin_number timeout c.a) (readyWithin_number timeout c.b)

omit [Source (StateM ω) Float σ] in
theorem meets_equip (make : Nat → Nat → StateM ω κ) (r : Export Float)
    (c : Crew (Handle σ) (Handle κ)) {first : Nat} {s : Scene ω}
    (hc : Holds first c.roll s.custody) (hnone : c.compositor = none)
    (hcomposed : s.custody.composed = []) :
    Meets (liftM (equip (Handle.composeWith make) r c :
        Staged ω (Reply Float × Crew (Handle σ) (Handle κ))))
      (fun x s' => (∃ supported, x.1 = .composed supported) ∧ Holds first x.2.roll s'.custody)
      s := by
  refine meets_act_bind (R := fun k s' => k.number = s.custody.next ∧
    s'.custody = s.custody.compose) ⟨rfl, rfl, rfl⟩ fun k s₁ ⟨hk, hs₁⟩ => ?_
  have hroll : c.roll.compositor = none := congrArg (Option.map Handle.number) hnone
  have hequipped : Holds first { c.roll with compositor := some k.number } s₁.custody := by
    rw [hs₁, hk]
    exact hc.compose hroll hcomposed
  split
  · refine meets_act_bind (meets_quiet (quiet_ask k _)) fun ⟨_, k'⟩ s₂ ⟨hk', hs₂⟩ => ?_
    refine ⟨rfl, ⟨true, rfl⟩, ?_⟩
    change Holds first { c.roll with compositor := some k'.number } s₂.custody
    have hsame : k'.number = k.number := hk'
    rw [hs₂, hsame]
    exact hequipped
  · refine ⟨rfl, ⟨false, rfl⟩, ?_⟩
    change Holds first c.roll (s₁.custody.dispose k.number)
    exact (hequipped.dispose rfl).congr rfl hroll

/-- What has become of all that a run has obtained. -/
structure Settled (first own : Nat) (s : Scene ω) : Prop where
  distinct : s.custody.obtained.Nodup
  released : s.custody.released = s.custody.obtained
  once : s.custody.composed.length ≤ 1
  disposed : s.custody.disposed = s.custody.composed
  sought : ∀ n ∈ s.custody.sought, n ∈ s.custody.obtained
  untouched : ∀ n < first, n ∉ s.custody.sought ∧ n ∉ s.custody.released
  off : s.commons.exporter.Off own

theorem Holds.settled {c : Crew Nat Nat} {l : Custody} {first own : Nat} (h : Holds first c l)
    {s : Scene ω} (hs : s.custody = { l with
      released := l.released ++ c.clips
      disposed := l.disposed ++ c.compositor.toList })
    (hoff : s.commons.exporter.Off own) : Settled first own s := by
  have hreleased : s.custody.released = s.custody.obtained := by
    rw [hs]
    change l.released ++ c.clips = l.obtained
    rw [h.released, List.nil_append, h.obtained]
  have hsought : ∀ n ∈ s.custody.sought, n ∈ s.custody.obtained := by
    rw [hs]
    exact h.sought
  have hown : ∀ n ∈ s.custody.obtained, first ≤ n := by
    rw [hs]
    exact fun n hn => (h.own n hn).1
  constructor
  · rw [hs]
    exact h.distinct
  · exact hreleased
  · rw [hs]
    exact h.once
  · rw [hs]
    exact h.composed.symm
  · exact hsought
  · intro n hn
    refine ⟨fun hmem => ?_, fun hmem => ?_⟩
    · exact absurd hn (Nat.not_lt.mpr (hown n (hsought n hmem)))
    · exact absurd hn (Nat.not_lt.mpr (hown n (hreleased ▸ hmem)))
  · exact hoff

theorem meets_dismiss (c : Crew (Handle σ) (Handle κ)) (s : Scene ω) :
    Meets (liftM (dismiss c : Staged ω Unit)) (fun _ s' =>
      s'.commons.exporter = s.commons.exporter ∧ s'.custody = { s.custody with
        released := s.custody.released ++ c.roll.clips
        disposed := s.custody.disposed ++ c.roll.compositor.toList }) s := by
  obtain ⟨a, b, k⟩ := c
  cases a <;> cases b <;> cases k <;> refine ⟨rfl, rfl, ?_⟩
  all_goals
    simp only [Crew.roll, Crew.clips, Option.map_some, Option.map_none, Option.toList_some,
      Option.toList_none, List.append_nil, List.nil_append, ← List.append_assoc]
    rfl

/-- A run with its crew that has been prepared, or has ended. -/
structure Equipped (first own : Nat) (x : Crew (Handle σ) (Handle κ) × Export Float)
    (s : Scene ω) : Prop where
  holds : Holds first x.1.roll s.custody
  course : OnCourse own (6 * x.2.total) (s.commons.exporter, x.2)

omit [Source (StateM ω) Float σ] in
/-- A planned run gets its compositor. -/
theorem meets_composing (make : Nat → Nat → StateM ω κ) {r : Export Float}
    (c : Crew (Handle σ) (Handle κ)) {first own : Nat} {s : Scene ω}
    (hr : Readied own .composing (s.commons.exporter, r)) (hphase : r.phase = .composing)
    (hc : Holds first c.roll s.custody) (hnone : c.compositor = none)
    (hcomposed : s.custody.composed = []) :
    Meets (do
        let (reply, c) ← liftM (equip (Handle.composeWith make) r c :
          Staged ω (Reply Float × Crew (Handle σ) (Handle κ)))
        return (c, ← step (some reply) r) : Task (Staged ω) _)
      (Equipped first own) s := by
  refine (meets_equip make r c hc hnone hcomposed).bind fun equipped s₁ hequipped => ?_
  obtain ⟨reply, c'⟩ := equipped
  obtain ⟨⟨supported, rfl⟩, hc'⟩ := hequipped
  refine (meets_step _ _ s₁).bind fun r' s₂ hstep => ?_
  obtain ⟨hs₂, heq⟩ := hstep
  refine ⟨hs₂ ▸ hc', ?_⟩
  simp only [resume, hphase] at heq
  obtain ⟨hexporter, rfl⟩ := Prod.mk.inj heq
  rw [hexporter]
  exact composed_onCourse hr.number hr.pending supported _

theorem meets_prepare (config : ExportConfig) (make : Nat → Nat → StateM ω κ)
    (job : ExportJob Float) (a b : Handle σ) {first : Nat} {s : Scene ω}
    (hs : s.custody = .opening first) :
    Meets (prepare config isDropped (Handle.composeWith make) job a b)
      (Equipped first (s.commons.exporter.generation + 1)) s := by
  unfold prepare
  refine (meets_hire a b hs).bind fun hired s₁ hhired => ?_
  obtain ⟨reply, c⟩ := hired
  obtain ⟨⟨fa, fb, rfl⟩, hc, hnone, hcomposed, hexporter⟩ := hhired
  refine (meets_step _ _ s₁).bind fun r s₂ hstep => ?_
  obtain ⟨hs₂, heq⟩ := hstep
  have hduplicated : Readied (s.commons.exporter.generation + 1) .readying
      (s₂.commons.exporter, r) := by
    rw [heq, ← hexporter]
    exact duplicated_readied rfl fa fb s₁.commons.exporter
  rw [← hs₂] at hc hcomposed
  dsimp only
  split
  · rename_i hphase
    refine (meets_makeReady _ c s₂).bind fun made s₃ hmade => ?_
    obtain ⟨reply, ready⟩ := made
    obtain ⟨⟨fa, fb, rfl⟩, hroll, hsame, hs₃⟩ := hmade
    rw [← hs₃] at hc hcomposed
    refine meets_look heeds_isDropped fun gone => ?_
    split
    -- dropped while the clips got ready
    · refine (meets_step _ _ s₃).bind fun r' s₄ hstep => ⟨hstep.1 ▸ hc, ?_⟩
      rw [hstep.2]
      exact quit_onCourse hduplicated.number _
    · refine (meets_step _ _ s₃).bind fun r' s₄ hstep => ?_
      obtain ⟨hs₄, heq⟩ := hstep
      have hplanned : Readied (s.commons.exporter.generation + 1) .composing
          (s₄.commons.exporter, r') := by
        rw [heq]
        simp only [resume, hphase]
        exact plan_readied hduplicated.number hduplicated.pending fa fb s₃.commons.exporter
      rw [← hs₄, ← hroll] at hc
      rw [← hs₄] at hcomposed
      dsimp only
      split
      · rename_i hphase
        exact meets_composing make ready hplanned hphase hc (hsame.trans hnone) hcomposed
      · rename_i hphase
        exact ⟨hc, (hplanned.ended hphase).mono _⟩
  · rename_i hphase
    exact ⟨hc, (hduplicated.ended hphase).mono _⟩

/-- Whatever others do, a run that ends leaves everything settled, and a dropped one ends. -/
theorem meets_exportFrames (config : ExportConfig) (make : Nat → Nat → StateM ω κ)
    {report : Float → Staged ω Unit}
    (hreport : ∀ x dropped l, (quiet dropped l).safe (report x)) (job : ExportJob Float)
    (a b : Handle σ) {first : Nat} {s : Scene ω} (hs : s.custody = .opening first) :
    Meets (Exporter.exportFrames config isDropped (Handle.composeWith make) report job a b)
      (fun _ s' => Settled first (s.commons.exporter.generation + 1) s') s := by
  refine (meets_prepare config make job a b hs).bind fun ⟨c, r⟩ s₁ ⟨hc, hr⟩ => ?_
  have hfuel : r.hasEnded = false → 6 * r.total < r.maxSteps := fun _ => by
    unfold maxSteps
    omega
  have hperform := meets_perform config hreport r.maxSteps c r hc hr hfuel
  refine hperform.bind fun ⟨result, c'⟩ s₂ ⟨hc', hoff⟩ => ?_
  refine (meets_dismiss c' s₂).bind fun _ s₃ ⟨hexporter, hs₃⟩ => ?_
  exact hc'.settled hs₃ (hexporter ▸ hoff)

end Export

namespace Exporter

open Scene

variable {ω σ κ : Type} [Source (StateM ω) Float σ] [Compositor (StateM ω) Float κ]

/-- However others have their turns, everything is settled once a run has ended; and a drop at any
turn ends it, without further turns. -/
structure Accounts {β : Type} (first own : Nat)
    (run : List (Interlude ω) → Option (β × Scene ω)) : Prop where
  settled : ∀ turns result s, run turns = some (result, s) → Export.Settled first own s
  dropped : ∀ turns, (∃ u ∈ turns, u.drops = true) → (run turns).isSome

/-- A run gives back all that it has obtained, once, and leaves the clips of its caller alone. -/
theorem custody_run (config : ExportConfig) (make : Nat → Nat → StateM ω κ)
    (report : Float → StateM (Commons ω) Unit) (job : ExportJob Float) (a b : σ)
    (commons : Commons ω) (now : Moment) :
    Accounts 2 (commons.exporter.generation + 1) (play
      (exportFrames config isDropped (Handle.composeWith make) (fun x => share (report x)) job
        (⟨0, a⟩ : Handle σ) ⟨1, b⟩) · now ⟨commons, false, .opening 2⟩) := by
  have hmeets := Export.meets_exportFrames config make (fun x _ _ => quiet_share (report x)) job
    (⟨0, a⟩ : Handle σ) ⟨1, b⟩ (s := ⟨commons, false, .opening 2⟩) rfl
  constructor
  · exact fun turns result s hplay => hmeets.play hplay
  · exact fun turns hdrops => hmeets.ends (.inr hdrops)

/-- A clip that takes a second to get ready. -/
structure SlowClip where
  canDuplicate : Bool

instance : Source (StateM Unit) Float SlowClip where
  duration _ := none
  frameRate _ := none
  frame _ := none
  givesWay _ := false
  seek s _ := return ⟨s, some 0, .ok s⟩
  duplicate s := return if s.canDuplicate then .ok s else .error (.unavailable "clip")
  ready s := (1000, s)
  release s := return s

/-- The run that is dropped while its only duplicate gets ready gives that one back. -/
example (job : ExportJob Float) (e : Exporter Float) :
    (play (exportFrames .standard isDropped
        (Handle.composeWith fun w h => pure (Renderer.create none w h 0)) (fun _ => pure ()) job
        (⟨0, ⟨true⟩⟩ : Handle SlowClip) ⟨1, ⟨false⟩⟩)
      [⟨⟨10, 1⟩, id, true⟩] .start ⟨⟨(), e⟩, false, .opening 2⟩).map (·.2.custody) =
      some ⟨3, [2], [], [2], [], []⟩ := rfl

end Exporter

end Segue
