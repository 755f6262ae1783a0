import Mathlib
import Segue.Proofs.Export.Complete
import Segue.Proofs.Export.Enacted
import Segue.Proofs.Export.Newest

/-!
# Exports on a clock

On a clock that jumps from one event to the next nobody but the uploader does anything while an
export waits. Whatever it then does are events of a session, and it does enough: the clock never
stops before a wait is over. So an export that is carried out alone comes to its end as the run of a
session does.
-/

namespace Segue

namespace Exporter

variable {α : Type} [Scalar α] [Elementary α]

/-- An upload begins, or some end. -/
def Event.OfUploads : Event α → Prop
  | .start _ _ _ | .tick _ => True
  | .call _ _ _ | .prepare _ _ _ _ | .resume _ _ | .seek _ _ | .join _ | .abort | .clear => False

omit [Scalar α] [Elementary α] in
theorem Event.OfUploads.elsewhere {e : Event α} (h : e.OfUploads) (k : Nat) : e.Elsewhere k := by
  cases e with
  | start j due ending => exact fun he => nomatch he
  | tick millis => exact fun he => nomatch he
  | _ => exact h.elim

section

omit [Scalar α] [Elementary α]

@[simp] theorem running_finishDue (e : Exporter α) (millis : Nat) :
    (e.finishDue millis).running = e.running.filter (fun u => !decide (u.due ≤ millis)) := by
  simp only [finishDue, List.partition_eq_filter_filter]
  rfl

theorem running_finishDue_le (e : Exporter α) (millis : Nat) :
    (e.finishDue millis).running.length ≤ e.running.length := by
  rw [running_finishDue]
  exact List.length_filter_le _ _

theorem running_finishDue_lt {e : Exporter α} {millis : Nat}
    (h : e.running.any (fun u => u.due ≤ millis) = true) :
    (e.finishDue millis).running.length < e.running.length := by
  rw [running_finishDue]
  obtain ⟨u, hu, hdue⟩ := List.any_eq_true.mp h
  exact List.length_filter_lt_length_iff_exists.mpr ⟨u, hu, by simpa using hdue⟩

/-- Before the first upload is due nothing ends. -/
theorem finishDue_of_none {e : Exporter α} {millis : Nat}
    (h : e.running.any (fun u => u.due ≤ millis) = false) : e.finishDue millis = e := by
  have hlater : ∀ u ∈ e.running, ¬u.due ≤ millis := by simpa using h
  have hleft : e.running.filter (fun u => !decide (u.due ≤ millis)) = e.running :=
    List.filter_eq_self.mpr fun u hu => by simpa using hlater u hu
  have hended : e.running.filter (fun u => decide (u.due ≤ millis)) = [] :=
    List.filter_eq_nil_iff.mpr fun u hu => by simpa using hlater u hu
  simp only [finishDue, List.partition_eq_filter_filter, hended, List.foldl_nil, List.map_nil,
    List.append_nil]
  exact congrArg (fun running => { e with running }) hleft

end

namespace Session

variable {s : Session α} {u : WaitingUpload} {us : List WaitingUpload}

theorem exporter_start_of_cancelled (hwaiting : s.exporter.waiting = u :: us)
    (hc : s.exporter.isCancelled u.run = true) (due : Nat) (ending : UploadEnd) :
    (s.step (.start 0 due ending)).exporter =
      { s.exporter with waiting := us }.skipUpload u := by
  have hc' : isCancelled { s.exporter with waiting := us } u.run = true := hc
  simp only [Session.step, hwaiting, List.getElem?_cons_zero, List.eraseIdx_cons_zero, hc', if_true]

theorem exporter_start (hwaiting : s.exporter.waiting = u :: us)
    (hc : s.exporter.isCancelled u.run = false) (due : Nat) (ending : UploadEnd) :
    (s.step (.start 0 due ending)).exporter =
      { s.exporter with waiting := us }.beginUpload u due ending := by
  have hc' : isCancelled { s.exporter with waiting := us } u.run = false := hc
  simp only [Session.step, hwaiting, List.getElem?_cons_zero, List.eraseIdx_cons_zero, hc',
    Bool.false_eq_true, if_false]

end Session

end Exporter

open Exporter

namespace Housing

variable {m : Type → Type} [Monad m] [MonadStateOf (Exporter Float) m] {S β γ : Type}
  {H : Housing m S} {k : Nat}

@[simp] theorem exec_modify (f : Exporter Float → Exporter Float) (c : S) :
    H.exec (modifyThe (Exporter Float) f) c = (⟨⟩, H.put (f (H.exporter c)) c) :=
  H.exec_modifyGet _ c

/-! ## Uploads -/

section

variable [Uploader m]

variable (H) in
/-- Uploads know nothing of the exporter. -/
def UploaderApart : Prop := ∀ frame, H.Apart (Uploader.upload frame : m (Nat × UploadEnd))

/-- The uploader takes a frame from those that wait. -/
def take (millis : Nat) (u : WaitingUpload) : m Unit := do
  if (← getThe (Exporter Float)).isCancelled u.run then
    modifyThe (Exporter Float) (·.skipUpload u)
  else
    let (delay, ending) ← Uploader.upload u.frame
    modifyThe (Exporter Float) fun e =>
      let e := e.beginUpload u (millis + delay) ending
      if delay = 0 then e.finishDue millis else e

theorem settle_eq (millis : Nat) : (Background.settle millis : m Bool) = (do
    let e ← getThe (Exporter Float)
    let ended := e.running.any fun u => u.due ≤ millis
    set (Exporter.finishDue { e with waiting := [] } millis)
    e.waiting.forM (take millis)
    return ended || !e.waiting.isEmpty) := rfl

variable (hupload : H.UploaderApart) {s : Session Float} {c : S}
include hupload

/-- The session has the uploads wait that are still to come. -/
theorem exec_take (millis : Nat) {u : WaitingUpload} {us : List WaitingUpload}
    (hwaiting : s.exporter.waiting = u :: us)
    (hsame : H.exporter c = { s.exporter with waiting := [] }) :
    ∃ s', s.Reaches Event.OfUploads s' ∧ s'.exporter.waiting = us ∧
      H.exporter (H.exec (take millis u : m Unit) c).2 = { s'.exporter with waiting := [] } ∧
      s'.exporter.running.length ≤ s.exporter.running.length + 1 := by
  have hcancelled : (H.exporter c).isCancelled u.run = s.exporter.isCancelled u.run := by
    rw [hsame]
    rfl
  unfold take
  rw [H.exec_bind, H.exec_get]
  dsimp only
  rw [hcancelled]
  cases hc : s.exporter.isCancelled u.run with
  | true =>
      have hstart := Session.exporter_start_of_cancelled hwaiting hc 0 .lost
      refine ⟨_, .step (e := .start 0 0 .lost) trivial, ?_, ?_, ?_⟩
      · rw [hstart]
        rfl
      · rw [if_pos rfl, exec_modify, H.exporter_put, hstart, hsame]
        rfl
      · rw [hstart]
        exact Nat.le_succ _
  | false =>
      rw [if_neg Bool.false_ne_true, H.exec_bind]
      have hc₁ := (hupload u.frame c).trans hsame
      generalize H.exec (Uploader.upload u.frame : m (Nat × UploadEnd)) c = r at hc₁ ⊢
      obtain ⟨⟨delay, ending⟩, c₁⟩ := r
      have hc₁ : H.exporter c₁ = { s.exporter with waiting := [] } := hc₁
      have hstart := Session.exporter_start hwaiting hc (millis + delay) ending
      have hbegun : s.Reaches Event.OfUploads (s.step (.start 0 (millis + delay) ending)) :=
        .step trivial
      have hlength : (s.step (.start 0 (millis + delay) ending)).exporter.running.length =
          s.exporter.running.length + 1 := by
        rw [hstart]
        exact List.length_append
      dsimp only
      rw [exec_modify, H.exporter_put, hc₁]
      by_cases hdelay : delay = 0
      · refine ⟨_, hbegun.trans (.step (e := .tick millis) trivial), ?_, ?_, ?_⟩
        · change (finishDue _ millis).waiting = us
          rw [hstart]
          rfl
        · change _ = { finishDue _ millis with waiting := [] }
          rw [if_pos hdelay, hstart]
          rfl
        · exact (running_finishDue_le _ millis).trans hlength.le
      · refine ⟨_, hbegun, ?_, ?_, hlength.le⟩
        · rw [hstart]
          rfl
        · rw [if_neg hdelay, hstart]
          rfl

theorem exec_takeAll (millis : Nat) (us : List WaitingUpload) (hwaiting : s.exporter.waiting = us)
    (hsame : H.exporter c = { s.exporter with waiting := [] }) :
    ∃ s', s.Reaches Event.OfUploads s' ∧ s'.exporter.waiting = [] ∧
      H.exporter (H.exec (us.forM (take millis) : m Unit) c).2 = s'.exporter ∧
      s'.exporter.running.length ≤ s.exporter.running.length + us.length := by
  induction us generalizing s c with
  | nil =>
      refine ⟨s, .refl _ s, hwaiting, ?_, le_rfl⟩
      change H.exporter (H.exec (pure ⟨⟩ : m PUnit) c).2 = _
      rw [H.exec_pure, hsame, ← hwaiting]
  | cons u us ih =>
      obtain ⟨s₁, hs₁, hwaiting₁, hsame₁, hrunning₁⟩ := exec_take hupload millis hwaiting hsame
      obtain ⟨s₂, hs₂, hwaiting₂, hsame₂, hrunning₂⟩ := ih hwaiting₁ hsame₁
      refine ⟨s₂, hs₁.trans hs₂, hwaiting₂, ?_, ?_⟩
      · change H.exporter (H.exec (take millis u >>= fun _ => us.forM (take millis)) c).2 = _
        rw [H.exec_bind]
        exact hsame₂
      · rw [List.length_cons]
        omega

variable (H) in
/-- What has become of the uploads once everything that was due at a time has been done. -/
structure Settled (millis : Nat) (c : S) (worked : Bool) (c' : S) : Prop where
  waiting : (H.exporter c').waiting = []
  running_le : (H.exporter c').running.length ≤
    (H.exporter c).running.length + (H.exporter c).waiting.length
  less : worked = true → (H.exporter c).waiting = [] →
    (H.exporter c').running.length < (H.exporter c).running.length
  same : worked = false → H.exporter c' = H.exporter c ∧
    (H.exporter c).running.any (fun u => u.due ≤ millis) = false

theorem exec_settle (millis : Nat) (hsame : H.exporter c = s.exporter) :
    ∃ s', s.Reaches Event.OfUploads s' ∧
      H.exporter (H.exec (Background.settle millis : m Bool) c).2 = s'.exporter ∧
      H.Settled millis c (H.exec (Background.settle millis : m Bool) c).1
        (H.exec (Background.settle millis : m Bool) c).2 := by
  have hticked : H.exporter (H.put (finishDue { s.exporter with waiting := [] } millis) c) =
      { (s.step (.tick millis)).exporter with waiting := [] } := by
    rw [H.exporter_put]
    rfl
  obtain ⟨s', hs', hwaiting, hsame', hrunning⟩ := exec_takeAll hupload millis s.exporter.waiting
    (s := s.step (.tick millis)) rfl hticked
  have htick := running_finishDue_le s.exporter millis
  have hexec : H.exec (Background.settle millis : m Bool) c =
      (s.exporter.running.any (fun u => u.due ≤ millis) || !s.exporter.waiting.isEmpty,
        (H.exec (s.exporter.waiting.forM (take millis) : m Unit)
          (H.put (finishDue { s.exporter with waiting := [] } millis) c)).2) := by
    rw [settle_eq, H.exec_bind, H.exec_get, hsame]
    dsimp only
    rw [H.exec_bind, H.exec_set, H.exec_bind, H.exec_pure]
  have hreached : s.Reaches Event.OfUploads s' :=
    Session.Reaches.trans (.step (e := .tick millis) trivial) hs'
  rw [hexec]
  refine ⟨s', hreached, hsame', ?_, ?_, ?_, ?_⟩
  · rw [hsame', hwaiting]
  · rw [hsame', hsame]
    exact hrunning.trans (Nat.add_le_add_right htick _)
  · intro hworked hnone
    rw [hsame] at hnone ⊢
    rw [hsame']
    rw [hnone] at hrunning hworked
    have hended : s.exporter.running.any (fun u => u.due ≤ millis) = true := by
      simpa using hworked
    exact hrunning.trans_lt (running_finishDue_lt hended)
  · intro hidle
    obtain ⟨hended, hnone⟩ := Bool.or_eq_false_iff.mp hidle
    have hnone : s.exporter.waiting = [] := by simpa using hnone
    have hsame₀ : { s.exporter with waiting := [] } = s.exporter := by
      rw [← hnone]
    rw [hsame, hnone, hsame₀, finishDue_of_none hended]
    refine ⟨?_, hended⟩
    change H.exporter (H.exec (pure ⟨⟩ : m PUnit) (H.put s.exporter c)).2 = _
    rw [H.exec_pure, H.exporter_put]

end

/-! ## The clock -/

theorem Brief.others {due : Option Nat} {ready : Moment → m Bool} {now : Moment}
    {s s' : Session Float} (h : H.Brief k due ready now s) (hs : s.Reaches (Event.Elsewhere k) s') :
    H.Brief k due ready now s' := by
  cases h with
  | due t ht => exact .due t ht
  | turn hturn => exact .turn hturn
  | upload x hk hpending hready => exact .upload x (hs.runs hk) hpending hready

theorem hasFinished_of_pending {s : Session Float} (h : s.Sound) {x : ExportCall Float}
    (hk : s.runs[k]? = some x) (hpending : x.run.pending ≠ 0) (hwaiting : s.exporter.waiting = [])
    (hrunning : s.exporter.running = []) : s.exporter.hasFinished (k + 1) = true := by
  rw [h.pending_eq hk, Session.openBy, Session.waitingBy, Session.runningBy, hwaiting, hrunning]
    at hpending
  simp only [List.filter_nil, List.length_nil, Nat.zero_add] at hpending
  obtain ⟨u, hu⟩ := List.exists_mem_of_length_pos (Nat.pos_of_ne_zero hpending)
  obtain ⟨hmem, hrun⟩ := List.mem_filter.mp hu
  exact List.any_eq_true.mpr ⟨u, hmem, by simpa using hrun⟩

theorem sooner_eq_some {a b : Option Nat} {t : Nat}
    (h : Task.sooner a b = some t) : a = some t ∨ b = some t := by
  cases a with
  | none => exact .inr h
  | some d =>
      cases b with
      | none => exact .inl h
      | some d' =>
          obtain rfl : min d d' = t := Option.some.inj h
          exact (min_choice d d').imp (fun h => congrArg some h.symm) fun h => congrArg some h.symm

variable [Uploader m] (hupload : H.UploaderApart) {due : Option Nat} {ready : Moment → m Bool}
  (hlooks : ∀ t c, (H.exec (ready t) c).2 = c) {now : Moment} {s : Session Float} {c : S}

omit [Uploader m] in
theorem exec_look {x : m Bool} (hlook : (H.exec x c).2 = c) (f : Bool → m β) :
    H.exec (x >>= f) c = H.exec (f (H.exec x c).1) c := by
  rw [H.exec_bind, hlook]

omit [Uploader m] in
include hlooks in
theorem looks_isOver (due : Option Nat) (t : Moment) (c : S) :
    (H.exec (Task.isOver due ready t) c).2 = c := by
  unfold Task.isOver
  split
  · rw [H.exec_pure]
  · exact hlooks t c

omit [Uploader m] in
theorem isOver_of_ready {t : Moment} (h : (H.exec (ready t) c).1 = true) :
    (H.exec (Task.isOver due ready t) c).1 = true := by
  unfold Task.isOver
  split
  · rw [H.exec_pure]
  · exact h

@[simp] theorem exec_next (c : S) : H.exec (Background.next : m (Option Nat)) c =
    (((H.exporter c).running.map (·.due)).min?, c) := by
  change H.exec (getThe (Exporter Float) >>= fun e => pure (e.running.map (·.due)).min?) c = _
  rw [H.exec_bind, H.exec_get, H.exec_pure]

/-- At most so many times the clock goes on before nothing is left to do. -/
def turnsLeft (e : Exporter Float) (millis : Nat) : Nat :=
  4 * e.waiting.length + 2 * e.running.length +
    if e.running.any (fun u => u.due ≤ millis) then 1 else 2

omit [Uploader m] in
theorem turnsLeft_bounds (e : Exporter Float) (millis : Nat) :
    4 * e.waiting.length + 2 * e.running.length < turnsLeft e millis ∧
      turnsLeft e millis ≤ 4 * e.waiting.length + 2 * e.running.length + 2 := by
  unfold turnsLeft
  split <;> omega

omit [Uploader m] in
theorem Settled.turnsLeft_lt {millis : Nat} {c' : S} (h : H.Settled millis c true c') :
    turnsLeft (H.exporter c') millis < turnsLeft (H.exporter c) millis := by
  have hbounds := turnsLeft_bounds (H.exporter c) millis
  have hbounds' := turnsLeft_bounds (H.exporter c') millis
  have hle := h.running_le
  rw [h.waiting, List.length_nil] at hbounds'
  rcases Nat.eq_zero_or_pos (H.exporter c).waiting.length with hnone | hsome
  · have hless := h.less rfl (List.eq_nil_of_length_eq_zero hnone)
    omega
  · omega

omit [Uploader m] in
/-- When nothing is due, the clock goes on to where something is. -/
theorem turnsLeft_max_lt {e : Exporter Float} {millis : Nat}
    (hnone : e.running.any (fun u => u.due ≤ millis) = false) {u : RunningUpload}
    (hu : u ∈ e.running) : turnsLeft e (max u.due millis) < turnsLeft e millis := by
  have hany : e.running.any (fun v => v.due ≤ max u.due millis) = true :=
    List.any_eq_true.mpr ⟨u, hu, by simp⟩
  rw [turnsLeft, if_pos hany, turnsLeft, if_neg (by simp [hnone])]
  omega

omit [Uploader m] in
/-- A wait that is not over when there is nothing to do has a time to go on to. -/
theorem Brief.exists_next (h : H.Brief k due ready now s) (hs : s.Sound)
    (hsame : H.exporter c = s.exporter) (hwaiting : (H.exporter c).waiting = []) {t : Moment}
    (hround : now.round < t.round) (hready : (H.exec (ready t) c).1 = false) :
    ∃ time, Task.sooner due ((H.exporter c).running.map (·.due)).min? = some time ∧
      (due = some time ∨ ∃ u ∈ (H.exporter c).running, u.due = time) := by
  cases hmin : ((H.exporter c).running.map (·.due)).min? with
  | some next =>
      obtain ⟨time, htime⟩ := Task.sooner_some due next
      refine ⟨time, htime, (sooner_eq_some htime).imp_right fun hnext => ?_⟩
      obtain rfl : next = time := Option.some.inj hnext
      exact List.mem_map.mp (List.min?_mem hmin)
  | none =>
      have hrunning : (H.exporter c).running = [] :=
        List.map_eq_nil_iff.mp (List.min?_eq_none_iff.mp hmin)
      cases h with
      | due time hdue => exact ⟨time, by rw [hdue]; rfl, .inl hdue⟩
      | turn hturn => exact absurd (hturn t c hround) (by rw [hready]; exact Bool.false_ne_true)
      | upload x hk hpending hover =>
          rw [hsame] at hwaiting hrunning
          have hfinished := hasFinished_of_pending hs hk hpending hwaiting hrunning
          rw [← hsame] at hfinished
          exact absurd (hover t c hfinished) (by rw [hready]; exact Bool.false_ne_true)

include hupload hlooks in
/-- One turn of the clock: it stops because the wait is over, or it goes on with less to do. -/
theorem exec_turn (n : Nat) {t : Moment} (hs : s.Sound) (hsame : H.exporter c = s.exporter)
    (hbrief : H.Brief k due ready now s) (hround : now.round ≤ t.round)
    (hn : turnsLeft (H.exporter c) t.millis ≤ n + 1 ∨ Task.isDue due t = true) :
    ∃ s₁ c₁ t₁, s.Reaches Event.OfUploads s₁ ∧ H.exporter c₁ = s₁.exporter ∧
      (H.exec (Task.pass due ready (n + 1) t) c = (t₁, c₁) ∧
          (H.exec (Task.isOver due ready t₁) c₁).1 = true ∨
        H.exec (Task.pass due ready (n + 1) t) c = H.exec (Task.pass due ready n t₁) c₁ ∧
          now.round ≤ t₁.round ∧
          (turnsLeft (H.exporter c₁) t₁.millis ≤ n ∨ 0 < n ∧ Task.isDue due t₁ = true)) := by
  rw [Task.pass, exec_look (looks_isOver hlooks due t c)]
  cases hover : (H.exec (Task.isOver due ready t) c).1 with
  | true =>
      rw [if_pos rfl, H.exec_pure]
      exact ⟨s, c, t, .refl _ s, hsame, .inl ⟨rfl, hover⟩⟩
  | false =>
      have hless : turnsLeft (H.exporter c) t.millis ≤ n + 1 := by
        refine hn.resolve_right fun hdue => ?_
        rw [Task.isOver, if_pos hdue, H.exec_pure] at hover
        exact Bool.false_ne_true hover.symm
      obtain ⟨s₁, hs₁, hsame₁, hsettled⟩ := exec_settle hupload t.millis hsame
      have hlater := Nat.le_succ_of_le hround
      rw [if_neg Bool.false_ne_true, H.exec_bind]
      rcases hsettle : H.exec (Background.settle t.millis : m Bool) c with ⟨worked, c₁⟩
      rw [hsettle] at hsame₁ hsettled
      dsimp only at hsame₁ hsettled ⊢
      cases worked with
      | true =>
          rw [if_pos rfl]
          exact ⟨s₁, c₁, { t with round := t.round + 1 }, hs₁, hsame₁, .inr ⟨rfl, hlater,
            .inl (Nat.le_of_lt_succ (hsettled.turnsLeft_lt.trans_le hless))⟩⟩
      | false =>
          obtain ⟨hkept, hnoneDue⟩ := hsettled.same rfl
          rw [if_neg Bool.false_ne_true, exec_look (hlooks _ c₁)]
          cases hready : (H.exec (ready { t with round := t.round + 1 }) c₁).1 with
          | true =>
              rw [if_pos rfl, H.exec_pure]
              exact ⟨s₁, c₁, _, hs₁, hsame₁, .inl ⟨rfl, isOver_of_ready hready⟩⟩
          | false =>
              have hbrief₁ := hbrief.others (hs₁.weaken fun e he => he.elsewhere k)
              obtain ⟨time, htime, hwhy⟩ := hbrief₁.exists_next (hs₁.sound hs) hsame₁
                hsettled.waiting (Nat.lt_succ_of_le hround) hready
              rw [if_neg Bool.false_ne_true, H.exec_bind, exec_next]
              dsimp only
              rw [htime]
              refine ⟨s₁, c₁, ⟨max time t.millis, t.round + 1⟩, hs₁, hsame₁, .inr ⟨rfl, hlater, ?_⟩⟩
              rcases hwhy with hdue | ⟨u, hu, rfl⟩
              · rw [turnsLeft, hnoneDue, if_neg Bool.false_ne_true] at hless
                refine .inr ⟨by omega, ?_⟩
                rw [hdue]
                exact decide_eq_true (Nat.le_max_left _ _)
              · rw [hkept] at hu ⊢
                exact .inl (Nat.le_of_lt_succ ((turnsLeft_max_lt hnoneDue hu).trans_le hless))

include hupload hlooks in
/-- The wait is over when the clock stops, and what has happened meanwhile are events. -/
theorem exec_pass (n : Nat) {t : Moment} (hs : s.Sound) (hsame : H.exporter c = s.exporter)
    (hbrief : H.Brief k due ready now s) (hround : now.round ≤ t.round)
    (hn : turnsLeft (H.exporter c) t.millis ≤ n ∨ 0 < n ∧ Task.isDue due t = true) :
    ∃ s', s.Reaches Event.OfUploads s' ∧
      H.exporter (H.exec (Task.pass due ready n t) c).2 = s'.exporter ∧
      (H.exec (Task.isOver due ready (H.exec (Task.pass due ready n t) c).1)
        (H.exec (Task.pass due ready n t) c).2).1 = true := by
  induction n generalizing t s c with
  | zero =>
      have hbounds := turnsLeft_bounds (H.exporter c) t.millis
      omega
  | succ n ih =>
      obtain ⟨s₁, c₁, t₁, hs₁, hsame₁, ⟨hexec, hover⟩ | ⟨hexec, hround₁, hn₁⟩⟩ :=
        exec_turn hupload hlooks n hs hsame hbrief hround (hn.imp_right And.right)
      · rw [hexec]
        exact ⟨s₁, hs₁, hsame₁, hover⟩
      · have hbrief₁ := hbrief.others (hs₁.weaken fun e he => he.elsewhere k)
        obtain ⟨s₂, hs₂, hend⟩ := ih (hs₁.sound hs) hsame₁ hbrief₁ hround₁ hn₁
        rw [hexec]
        exact ⟨s₂, hs₁.trans hs₂, hend⟩

include hupload in
/-- Alone on the clock, a task that enacts a run comes to its end; what has happened are events for
that run, and uploads. -/
theorem Enacts.run {heard : Event Float → Prop} {t : Task m β} {Q : β → Session Float → S → Prop}
    (h : H.Enacts heard k t Q s now c) (hs : s.Sound) :
    ∃ s', s.Reaches (fun e => e.Own heard k ∨ e.OfUploads) s' ∧
      Q (H.exec (t.run now) c).1.1 s' (H.exec (t.run now) c).2 := by
  induction t generalizing s now c with
  | done b =>
      obtain ⟨s', hs', hQ⟩ := h
      refine ⟨s', hs'.weaken fun e he => .inl he, ?_⟩
      change Q (H.exec (pure (b, now) : m (β × Moment)) c).1.1 s' _
      rw [Task.run, H.exec_pure]
      exact hQ
  | act x next ih =>
      have hrest := ih _ h hs
      rw [Task.run, H.exec_bind]
      exact hrest
  | now next ih => exact ih now h hs
  | wait due ready next ih =>
      obtain ⟨hlooks, s₁, hs₁, hsame, hbrief, hnext⟩ := h
      have hpending : H.exec (Background.pending : m Nat) c =
          ((H.exporter c).waiting.length + (H.exporter c).running.length, c) := by
        change H.exec (getThe (Exporter Float) >>= fun e =>
          pure (e.waiting.length + e.running.length)) c = _
        rw [H.exec_bind, H.exec_get, H.exec_pure]
      have hbounds := turnsLeft_bounds (H.exporter c) now.millis
      obtain ⟨s₂, hs₂, hsame₂, hover⟩ := exec_pass hupload hlooks
        (4 * ((H.exporter c).waiting.length + (H.exporter c).running.length) + 4)
        (hs₁.sound hs) hsame hbrief le_rfl (.inl (by omega))
      have helsewhere := hs₂.weaken fun e he => he.elsewhere k
      obtain ⟨s₃, hs₃, hQ⟩ := ih (hnext s₂ _ _ helsewhere hsame₂ hover)
        (hs₂.sound (hs₁.sound hs))
      refine ⟨s₃, ?_, ?_⟩
      · exact (hs₁.weaken fun e he => .inl he).trans ((hs₂.weaken fun e he => .inr he).trans hs₃)
      · rw [Task.run, H.exec_bind, hpending, H.exec_bind]
        exact hQ

end Housing

/-! ## Sessions of one run -/

namespace Export

variable {α : Type} [Scalar α] [Elementary α]

/-- A run that is not cancelled shows how many frames it has, unless it cannot be prepared. -/
theorem setUp_counted {r : Export α} {e : Exporter α} (hp : r.phase = .readying)
    (hc : e.isCancelled r.generation = false) (hrun : e.generation = r.generation)
    (hempty : e.frames = []) (a b : ClipFacts α) (supported : Bool) :
    (∃ fault, (r.setUp a b supported e).2.phase = .ended (.error fault)) ∨
      (r.setUp a b supported e).1.frameCount = (r.setUp a b supported e).2.slots.size := by
  have hready : r.resume (.ready a b) e = plan a b e r := by simp only [resume, hp]
  simp only [setUp, hready]
  cases hparams : r.job.settings.timelineParams (durationOf a) (durationOf b) r.job.margin with
  | error fault =>
      have hplan : plan a b e r = finish (.error (.timeline fault)) e r := by
        simp [plan, hc, hparams]
      rw [hplan, resume_finish]
      exact .inl ⟨_, rfl⟩
  | ok params =>
      have hplan : plan a b e r = (e, { r with
          params
          total := Timeline.frameCount r.job.settings.mode params
            (r.job.settings.effectiveFps [a.frameRate, b.frameRate])
          phase := .composing }) := by
        simp [plan, hc, hparams, awaiting]
      rw [hplan]
      cases supported with
      | false => exact .inl ⟨_, rfl⟩
      | true => 
          right
          generalize Timeline.frameCount r.job.settings.mode params
            (r.job.settings.effectiveFps [a.frameRate, b.frameRate]) = total
          have hpasses := enterFrame_passes (e.onlyLatest r.generation fun e =>
            { e with frameCount := total }) { r with
              params, total, slots := Array.replicate total none, index := 0, phase := .composing }
          rw [Exporter.onlyLatest_of_eq hrun] at hpasses
          have hcount := congrArg Exporter.Shared.frameCount (hpasses.latest hrun hempty)
          have hsize := hpasses.size.trans Array.size_replicate
          show (composed true e _).1.frameCount = (composed true e _).2.slots.size
          unfold composed
          dsimp only
          rw [if_pos rfl, Exporter.onlyLatest_of_eq hrun, hsize]
          exact hcount

end Export

namespace Exporter.Session

variable {α : Type} [Scalar α] [Elementary α]

/-- What a run and the uploads do cuts no run short, and calls none. -/
theorem keeps_on {s : Session α} (h : s.Sound) {k : Nat} {e : Event α}
    (he : e.addressee? = some k ∨ e.OfUploads) :
    (s.step e).exporter.cancelled = s.exporter.cancelled ∧
      (s.step e).runs.length = s.runs.length := by
  have ht := s.taken e
  generalize s.step e = s' at ht
  cases ht with
  | idle => exact ⟨rfl, rfl⟩
  | call | abort | clear => rcases he with hnone | hnone <;> cases hnone
  | prepare a b supported hk hready =>
      have hx := h.each _ _ hk
      obtain ⟨-, frames, hspared, -⟩ := Export.setUp_proceeds hx.inOrder
        (Export.isReadying_iff.mp hready) a b supported (by rw [hx.number])
      exact ⟨hspared.cancelled, List.length_set⟩
  | resume hk hreply =>
      obtain ⟨-, -, frames, hspared, -⟩ := h.resume_goes hk hreply
      exact ⟨hspared.cancelled, List.length_set⟩
  | seek => exact ⟨rfl, List.length_set⟩
  | join hk hj hleft =>
      rw [(h.each _ _ hk).number] at hleft
      obtain ⟨-, -, frames, hspared, -⟩ := h.join_goes hk hj hleft
      exact ⟨hspared.cancelled, List.length_set⟩
  | skip => exact ⟨rfl, rfl⟩
  | begin => exact ⟨rfl, rfl⟩
  | tick => exact ⟨rfl, rfl⟩

/-- The first run shows how many frames it has, unless it cannot be prepared. -/
def Counted (e : Exporter α) (r : Export α) : Prop :=
  r.phase = .readying ∨ (∃ fault, r.phase = .ended (.error fault)) ∨ e.frameCount = r.slots.size

/-- There is one run, which nobody cuts short. -/
structure Lone (s : Session α) : Prop extends s.Sound where
  shows : s.Shows
  one : s.runs.length = 1
  uncut : s.exporter.cancelled = []
  counted : ∀ x, s.runs[0]? = some x → Counted s.exporter x.run

theorem lone_call (p : RetryPolicy) (job : ExportJob α) (a b : Option MediaError) :
    ((start p).step (.call job a b)).Lone where
  toSound := ((sound_start p).change _).sound (sound_start p)
  shows := shows_run p [.call job a b]
  one := rfl
  uncut := by
    cases a <;> cases b <;> rfl
  counted x hx := by
    obtain rfl := Option.some.inj hx
    cases a with
    | none => exact .inl rfl
    | some fault =>
        cases b with
        | none => exact .inl rfl
        | some fault' => exact .inr (.inl ⟨_, rfl⟩)

omit [Elementary α] in
/-- A run that has gone on still shows how many frames it has. -/
theorem Counted.of_written {r r' : Export α} {e e' : Exporter α} (h : Counted e r)
    (hwritten : Written r r' e e') (hrun : e.generation = r.generation) (hempty : e.frames = [])
    (hready : r.isReadying = false) (hended : r.hasEnded = false) : Counted e' r' := by
  have hcount : e.frameCount = r.slots.size := by
    rcases h with hp | ⟨fault, hp⟩ | hcount
    · simp [Export.isReadying, hp] at hready
    · simp [Export.hasEnded, hp] at hended
    · exact hcount
  refine .inr (.inr ?_)
  rw [hwritten.frameCount hrun hempty (.inr hready), hwritten.size hready, hcount]

omit [Elementary α] in
theorem Lone.isCancelled_eq {s : Session α} (h : s.Lone) (run : Nat) :
    s.exporter.isCancelled run = false := by
  rw [isCancelled, h.uncut]
  rfl

omit [Elementary α] in
/-- The one run is the newest. -/
theorem Lone.newest {s : Session α} (h : s.Lone) {k : Nat} {x : ExportCall α}
    (hk : s.runs[k]? = some x) : k = 0 ∧ s.exporter.generation = x.run.generation ∧
      (x.run.hasEnded = false → s.exporter.frames = []) := by
  obtain ⟨hlt, -⟩ := List.getElem?_eq_some_iff.mp hk
  obtain rfl : k = 0 := by
    have hone := h.one
    omega
  have hnewest : s.newest? = some x.run := by
    rw [newest?, h.one, hk]
    rfl
  refine ⟨rfl, ?_, h.shows.frames_eq_nil hnewest⟩
  rw [h.count, h.one, (h.each 0 x hk).number]

theorem Lone.step {s : Session α} (h : s.Lone) {e : Event α}
    (he : e.addressee? = some 0 ∨ e.OfUploads) : (s.step e).Lone := by
  obtain ⟨hcancelled, hlength⟩ := keeps_on h.toSound he
  refine ⟨(h.change e).sound h.toSound, (h.effect e).shows h.shows, hlength.trans h.one,
    hcancelled.trans h.uncut, ?_⟩
  -- whatever the run goes on to, it is all that is there
  have hreplace : ∀ {x y : ExportCall α} {d : Exporter α}, s.runs[0]? = some x → Counted d y.run →
      ∀ x', (s.runs.set 0 y)[0]? = some x' → Counted d x'.run := by
    intro x y d hk hcounted x' hx'
    obtain ⟨-, rfl⟩ | ⟨hne, -⟩ := (getElem?_set_eq_some hk).mp hx'
    · exact hcounted
    · exact absurd rfl hne
  have ht := s.taken e
  generalize s.step e = s' at ht
  cases ht with
  | idle => exact h.counted
  | call | abort | clear => rcases he with hnone | hnone <;> cases hnone
  | @prepare k x a b supported hk hready =>
      obtain ⟨rfl, hlatest, hempty⟩ := h.newest hk
      have hp := Export.isReadying_iff.mp hready
      have hended : x.run.hasEnded = false := by simp [Export.hasEnded, hp]
      have hgoes := h.isCancelled_eq x.run.generation
      exact hreplace hk (.inr (Export.setUp_counted hp hgoes hlatest (hempty hended) a b supported))
  | @resume k x reply hk hreply =>
      obtain ⟨rfl, hlatest, hempty⟩ := h.newest hk
      have hended := Export.hasEnded_of_awaits hreply
      have hready : x.run.isReadying = false := by
        refine Bool.eq_false_of_not_eq_true fun hready => ?_
        simp [Export.awaits, Export.isReadying_iff.mp hready] at hreply
      exact hreplace hk ((h.counted x hk).of_written (Export.resume_written hreply s.exporter)
        hlatest (hempty hended) hready hended)
  | @seek k x outcome hk =>
      obtain ⟨rfl, -, -⟩ := h.newest hk
      refine hreplace hk ?_
      rw [run_seek]
      exact h.counted x hk
  | @join k x u left hk hj hleft =>
      obtain ⟨rfl, hlatest, hempty⟩ := h.newest hk
      have hp := Export.isJoining_iff.mp hj
      have hended : x.run.hasEnded = false := by simp [Export.hasEnded, hp]
      have hready : x.run.isReadying = false := by simp [Export.isReadying, hp]
      exact hreplace hk ((h.counted x hk).of_written (written_join hj u left s.exporter)
        hlatest (hempty hended) hready hended)
  | skip => exact h.counted
  | begin => exact h.counted
  | tick => exact h.counted

omit [Elementary α] in
/-- An exporter that returns frames shows how many there should be. -/
theorem Lone.frameCount {s : Session α} (h : s.Lone) {x : ExportCall α} {frames : List FrameRef}
    (hk : s.runs[0]? = some x) (hp : x.run.phase = .ended (.ok frames)) :
    s.exporter.frameCount = x.run.total := by
  have hcount : s.exporter.frameCount = x.run.slots.size := by
    rcases h.counted x hk with hready | ⟨fault, hfault⟩ | hcount
    · exact nomatch hready.symm.trans hp
    · exact nomatch hfault.symm.trans hp
    · exact hcount
  have horder := (h.each 0 x hk).inOrder
  rw [h.isCancelled_eq] at horder
  cases horder with
  | readying _ hp' => exact nomatch hp'.symm.trans hp
  | refused fault _ hp' => exact nomatch hp'.symm.trans hp
  | quit _ _ _ hcut => exact nomatch hcut
  | working hworking => exact hcount.trans hworking.books.filled.size

end Exporter.Session

/-! ## Alone -/

namespace Housing

variable {m : Type → Type} [Monad m] [LawfulMonad m] [MonadStateOf (Exporter Float) m] [Uploader m]
  {S σ κ : Type} [Source m Float σ] [Compositor m Float κ] {H : Housing m S}
  (hupload : H.UploaderApart) (hsource : H.SourceApart σ) (hcompositor : H.CompositorApart κ)

include hupload hsource hcompositor in
/-- An export that has a new exporter for itself is the one run of a session. -/
theorem exec_exportFrames (config : ExportConfig) {make : Nat → Nat → m κ}
    (hmake : ∀ width height, H.Apart (make width height)) {report : Float → m Unit}
    (hreport : ∀ value, H.Apart (report value)) (job : ExportJob Float) (a b : σ) (now : Moment)
    {c : S} (hnew : H.exporter c = .make) :
    let y := H.exec ((exportFrames config (pure false) make report job a b).run now) c
    ∃ (events : List (Event Float)) (x : ExportCall Float),
      ((Session.start (Export.policy config)).run events).Lone ∧
      ((Session.start (Export.policy config)).run events).exporter = H.exporter y.2 ∧
      ((Session.start (Export.policy config)).run events).runs[0]? = some x ∧
      x.run.job = job ∧ x.run.phase = .ended y.1.1 := by
  have hstart := Session.sound_start (α := Float) (Export.policy config)
  obtain ⟨fa, fb, henacts⟩ := enacts_exportFrames hsource hcompositor (fun _ => False) now hmake
    job a b hstart rfl hnew fun value => (hreport value).causes _ _
  have hcalled := Session.lone_call (Export.policy config) job fa fb
  obtain ⟨s, hreached, x, hseated, hjob, hp⟩ := henacts.run hupload hcalled.toSound
  have hlone : s.Lone := hreached.keep (fun s e he hs => hs.step ?_) hcalled
  · obtain ⟨events, -, rfl⟩ := hreached
    exact ⟨.call job fa fb :: events, x, hlone, hseated.same.symm, hseated.here, hjob, hp⟩
  · rcases he with (haddressee | hfalse) | huploads
    · exact .inl haddressee
    · exact hfalse.elim
    · exact .inr huploads

end Housing

end Segue
