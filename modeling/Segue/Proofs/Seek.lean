import Mathlib
import Segue.Seek
import Segue.Proofs.Clock
import Segue.Proofs.Duration

/-!
# Retried seeks

Every attempt and every rest brings a retried seek closer to its end. On a clock, a retried seek
keeps to its policy: attempts follow each other after a timeout and a rest, there are not more than
allowed, and a cancellation ends it whenever it comes.
-/

namespace Segue.Retry

def proceed (p : RetryPolicy) (cancelled : Bool) (outcome : SeekOutcome) : Retry → Retry
  | .seeking timeouts => sought p timeouts outcome
  | .resting timeouts => rested cancelled timeouts
  | .ended o => .ended o

/-- The most attempts and rests that can still end. -/
def left (p : RetryPolicy) : Retry → Nat
  | .seeking timeouts => 2 * (p.retries - timeouts) + 1
  | .resting timeouts => 2 * (p.retries - timeouts) + 2
  | .ended _ => 0

theorem left_start (p : RetryPolicy) (cancelled : Bool) :
    (start cancelled).left p ≤ 2 * p.retries + 1 := by
  cases cancelled with
  | true => exact Nat.zero_le _
  | false => exact Nat.le_refl _

theorem left_proceed_lt {p : RetryPolicy} {retry : Retry} (h : ∀ o, retry ≠ .ended o)
    (cancelled : Bool) (outcome : SeekOutcome) :
    (retry.proceed p cancelled outcome).left p < retry.left p := by
  cases retry with
  | seeking timeouts =>
      have hpos : 0 < (Retry.seeking timeouts).left p := Nat.succ_pos _
      cases outcome with
      | timedOut =>
          simp only [proceed, sought]
          split
          · exact hpos
          · simp only [left]
            omega
      | completed => exact hpos
      | failed _ => exact hpos
      | cancelled => exact hpos
  | resting timeouts =>
      cases cancelled with
      | true => exact Nat.succ_pos _
      | false => exact Nat.lt_succ_self _
  | ended o => exact absurd rfl (h o)

/-- Only a cancellation cuts a seek short. -/
theorem cancelled_of_proceed {p : RetryPolicy} {retry : Retry} {cancelled : Bool}
    {outcome : SeekOutcome} (houtcome : outcome = .cancelled → cancelled = true)
    (hretry : retry = .ended .cancelled → cancelled = true)
    (h : retry.proceed p cancelled outcome = .ended .cancelled) : cancelled = true := by
  cases retry with
  | seeking timeouts =>
      cases outcome with
      | timedOut =>
          simp only [proceed, sought] at h
          split at h <;> simp at h
      | completed => simp [proceed, sought] at h
      | failed _ => simp [proceed, sought] at h
      | cancelled => exact houtcome rfl
  | resting timeouts =>
      cases cancelled with
      | true => rfl
      | false => simp [proceed, rested, attempt] at h
  | ended o => exact hretry h

theorem sought_of_ne {p : RetryPolicy} {timeouts : Nat} {o : SeekOutcome} (h : o ≠ .timedOut) :
    sought p timeouts o = .ended o := by
  cases o with
  | timedOut => exact absurd rfl h
  | completed | failed _ | cancelled => rfl

theorem sought_of_le {p : RetryPolicy} {timeouts : Nat} (h : p.retries ≤ timeouts)
    (o : SeekOutcome) : sought p timeouts o = .ended o := by
  cases o with
  | timedOut => exact if_pos h
  | completed | failed _ | cancelled => rfl

theorem cancelled_of_start {cancelled : Bool} (h : start cancelled = .ended .cancelled) :
    cancelled = true := by
  cases cancelled with
  | true => rfl
  | false => simp [start, attempt] at h

end Segue.Retry

namespace Segue

open Watch

/-! ## Attempts -/

structure Attempt where
  /-- The milliseconds that it takes, `none` if it never ends. -/
  delay : Option Nat
  error? : Option MediaError
  /-- It lets others run before it begins. -/
  givesWay : Bool

namespace Attempt

/-- Without any time, an attempt that gives way is given up. -/
def inTime (a : Attempt) (timeout : Nat) : Bool :=
  a.delay.any (· ≤ timeout) && !(a.givesWay && timeout = 0)

/-- How it ends if it is in time. -/
def result (a : Attempt) : SeekOutcome :=
  match a.error? with
  | none => .completed
  | some e => .failed e.message

def answer (a : Attempt) (timeout : Nat) : SeekOutcome :=
  if a.inTime timeout then a.result else .timedOut

/-- The milliseconds until there is an answer. -/
def span (a : Attempt) (timeout : Nat) : Nat :=
  if a.inTime timeout then a.delay.getD 0 else timeout

theorem result_ne (a : Attempt) : a.result ≠ .timedOut := by
  unfold result
  split <;> exact nofun

@[simp] theorem answer_eq_timedOut {a : Attempt} {timeout : Nat} :
    a.answer timeout = .timedOut ↔ a.inTime timeout = false := by
  unfold answer
  cases a.inTime timeout with
  | true => simp [a.result_ne]
  | false => simp

theorem inTime_eq_any {a : Attempt} {timeout : Nat} (hway : a.givesWay = true → timeout ≠ 0) :
    a.inTime timeout = a.delay.any (· ≤ timeout) := by
  have hgiven : (a.givesWay && decide (timeout = 0)) = false := by
    cases h : a.givesWay with
    | true => simpa using hway h
    | false => rfl
  rw [inTime, hgiven, Bool.not_false, Bool.and_true]

theorem span_of_late {a : Attempt} {timeout : Nat} (h : a.inTime timeout = false) :
    a.span timeout = timeout := by
  rw [span, h]
  rfl

theorem inTime_of_delay_zero {a : Attempt} {timeout : Nat} (hway : a.givesWay = true → timeout ≠ 0)
    (hdelay : a.delay = some 0) : a.inTime timeout = true := by
  rw [inTime_eq_any hway, hdelay]
  rfl

/-- Without any time, only an attempt that ends at once and gives way to nobody is in time. -/
theorem inTime_zero {a : Attempt} (h : a.givesWay = true ∨ a.delay ≠ some 0) :
    a.inTime 0 = false := by
  rcases h with hway | hdelay
  · simp [inTime, hway]
  · unfold inTime
    cases hd : a.delay with
    | none => rfl
    | some d =>
        have hne : d ≠ 0 := fun hzero => hdelay (by rw [hd, hzero])
        simp [hne]

/-- When it lands, or when it is given up if that is sooner. -/
theorem sooner_landing {a : Attempt} {timeout : Nat} (hway : a.givesWay = true → timeout ≠ 0)
    (start : Nat) : Task.sooner (a.delay.map (start + ·)) (some (start + timeout)) =
      some (start + a.span timeout) := by
  unfold span
  rw [inTime_eq_any hway]
  cases a.delay with
  | none => rfl
  | some d =>
      by_cases hd : d ≤ timeout
      · simp [Task.sooner, hd]
      · simp [Task.sooner, hd, Nat.le_of_lt (Nat.lt_of_not_le hd)]

end Attempt

structure ScriptedClip where
  script : Nat → Attempt
  /-- The number of attempts so far. -/
  attempts : Nat

namespace ScriptedClip

def next (s : ScriptedClip) : ScriptedClip := { s with attempts := s.attempts + 1 }

def attempt (s : ScriptedClip) : Attempt := s.script s.attempts

def seek (s : ScriptedClip) (_ : Float) : Timed (Seeking ScriptedClip) := fun w =>
  (⟨s.next, s.attempt.delay, match s.attempt.error? with
    | none => .ok s.next
    | some e => .error e⟩,
   { w with begun := w.begun ++ [w.now] })

instance : Source Timed Float ScriptedClip where
  duration _ := none
  frameRate _ := none
  frame _ := none
  givesWay s := s.attempt.givesWay
  seek := seek
  duplicate s := return .ok { s with attempts := 0 }
  ready s := (0, s)
  release s := return s

end ScriptedClip

theorem runs_rest (w : Watch) (duration : Nat) : Task.Runs (rest duration Timed.isStopped) w ()
    { w with now := max w.now (cut w.stop (w.now + duration)) } :=
  (Task.runs_millis w).bind (Task.runs_sleepUntil w _)

section

variable {w : Watch} {a : Attempt} {timeout : Nat} {s : ScriptedClip}

/-- What is known at once is known before the cancellation. -/
theorem runs_atOnce (hw : w.isStopped = false) (hspan : a.span timeout = 0) {o : SeekOutcome}
    (ho : a.answer timeout = o) : Task.Runs (pure (o, s)) w
      (if stoppedBy w.stop (w.now + a.span timeout) then .cancelled else a.answer timeout, s)
      { w with now := cut w.stop (w.now + a.span timeout) } := by
  rw [hspan, Nat.add_zero, cut_of_not_stopped hw, ho, show stoppedBy w.stop w.now = false from hw,
    if_neg Bool.false_ne_true]
  exact Task.runs_pure _ w

theorem runs_givenUp (hw : w.isStopped = false) (h : a.givesWay = true ∨ a.delay ≠ some 0)
    (htimeout : timeout = 0) : Task.Runs (pure (.timedOut, s)) w
      (if stoppedBy w.stop (w.now + a.span timeout) then .cancelled else a.answer timeout, s)
      { w with now := cut w.stop (w.now + a.span timeout) } := by
  subst htimeout
  have hlate := Attempt.inTime_zero h
  exact runs_atOnce hw (Attempt.span_of_late hlate) (Attempt.answer_eq_timedOut.mpr hlate)

/-- After the wait the time of the landing decides. -/
theorem runs_landed (hway : a.givesWay = true → timeout ≠ 0) (start : Nat) (w : Watch) :
    Task.Runs (match a.delay.map (start + ·) with
      | some t => pure (if t ≤ start + timeout then (a.result, s) else (.timedOut, s))
      | none => pure (.timedOut, s)) w (a.answer timeout, s) w := by
  rw [Attempt.answer, Attempt.inTime_eq_any hway]
  cases a.delay with
  | none => exact Task.runs_pure _ _
  | some d =>
      by_cases hd : d ≤ timeout
      · simp only [Option.map_some, Option.any_some, hd, Nat.add_le_add_iff_left, decide_true,
          if_true]
        exact Task.runs_pure _ _
      · simp only [Option.map_some, Option.any_some, hd, Nat.add_le_add_iff_left, decide_false,
          if_false]
        exact Task.runs_pure _ _

/-- A wait for the landing, or for the timeout, ends with the cancellation if that comes first. -/
theorem runs_landing (hw : w.isStopped = false) (hway : a.givesWay = true → timeout ≠ 0) :
    Task.Runs (do
      Task.sleepUntil (Task.sooner (a.delay.map (w.now + ·)) (some (w.now + timeout)))
        Timed.isStopped
      if ← Timed.isStopped then return (.cancelled, s)
      match a.delay.map (w.now + ·) with
      | some t => return if t ≤ w.now + timeout then (a.result, s) else (.timedOut, s)
      | none => return (.timedOut, s)) w
      (if stoppedBy w.stop (w.now + a.span timeout) then .cancelled else a.answer timeout, s)
      { w with now := cut w.stop (w.now + a.span timeout) } := by
  have hsleep := Task.runs_sleepUntil w (w.now + a.span timeout)
  rw [max_cut (Nat.le_add_right _ _) hw] at hsleep
  rw [Attempt.sooner_landing hway w.now]
  refine hsleep.bind ((Task.runs_isStopped _).bind ?_)
  have hstopped : ({ w with now := cut w.stop (w.now + a.span timeout) } : Watch).isStopped =
      stoppedBy w.stop (w.now + a.span timeout) := stoppedBy_cut
  rw [hstopped]
  cases stoppedBy w.stop (w.now + a.span timeout) with
  | true => exact Task.runs_pure _ _
  | false => exact runs_landed hway w.now _

end

/-- One attempt: it is cut short when the cancellation comes, and answers otherwise. -/
theorem runs_seekBounded {w : Watch} (hw : w.isStopped = false) (timeout : Nat) (s : ScriptedClip)
    (time : Float) :
    let finish := w.now + s.attempt.span timeout
    Task.Runs (seekBounded timeout Timed.isStopped s time) w
      (if stoppedBy w.stop finish then .cancelled else s.attempt.answer timeout, s.next)
      { w with now := cut w.stop finish, begun := w.begun ++ [w.now] } := by
  intro finish
  unfold seekBounded
  refine (Task.runs_isStopped w).bind ?_
  rw [hw, if_neg Bool.false_ne_true]
  refine (Task.runs_millis w).bind ((Task.runs_lift (Eq.refl (s.seek time w)) rfl).bind ?_)
  let w₁ : Watch := { w with begun := w.begun ++ [w.now] }
  show Task.Runs _ w₁ _ _
  have hw₁ : w₁.isStopped = false := hw
  extract_lets settled rest
  have hsettled : settled = (s.attempt.result, s.next) := by
    unfold settled Attempt.result
    cases s.attempt.error? <;> rfl
  clear_value settled
  subst hsettled
  have hrest : (s.attempt.givesWay = true → timeout ≠ 0) → Task.Runs (rest ()) w₁
      (if stoppedBy w.stop finish then .cancelled else s.attempt.answer timeout, s.next)
      { w₁ with now := cut w.stop finish } := by
    intro hway
    unfold rest
    split
    · rename_i hdelay
      have hdelay : s.attempt.delay = some 0 := hdelay
      have hin := Attempt.inTime_of_delay_zero hway hdelay
      apply runs_atOnce hw₁
      · rw [Attempt.span, if_pos hin, hdelay]
        rfl
      · exact if_pos hin
    · rename_i hdelay
      split
      · rename_i htimeout
        exact runs_givenUp hw₁ (.inr hdelay) htimeout
      · exact runs_landing hw₁ hway
  clear_value rest
  split
  · rename_i hway
    split
    · rename_i htimeout
      exact runs_givenUp hw₁ (.inl hway) htimeout
    · rename_i htimeout
      refine (Task.runs_giveWay w₁).bind ((Task.runs_isStopped w₁).bind ?_)
      rw [hw₁, if_neg Bool.false_ne_true]
      exact hrest fun _ => htimeout
  · rename_i hway
    exact hrest fun h => absurd h hway

/-! ## Courses -/

/-- What a retried seek comes to. -/
@[ext]
structure Course where
  outcome : SeekOutcome
  /-- When it ends. -/
  finish : Nat
  /-- When its attempts began. -/
  begun : List Nat
  deriving DecidableEq

namespace Course

/-- It goes on until the cancellation. -/
def cutBy (stop : Option Nat) (c : Course) : Course where
  outcome := if stoppedBy stop c.finish then .cancelled else c.outcome
  finish := cut stop c.finish
  begun := c.begun.filter (!stoppedBy stop ·)

variable {stop : Option Nat} {t : Nat} {c : Course}

@[simp] theorem cutBy_none : c.cutBy none = c :=
  Course.ext rfl rfl (List.filter_eq_self.mpr fun _ _ => rfl)

/-- Of what comes after the cancellation nothing is left. -/
theorem cutBy_stopped (hstop : stoppedBy stop t = true) (hfinish : t ≤ c.finish)
    (hbegun : ∀ u ∈ c.begun, t ≤ u) : c.cutBy stop = ⟨.cancelled, cut stop t, []⟩ := by
  have hnone : c.begun.filter (!stoppedBy stop ·) = [] := by
    rw [List.filter_eq_nil_iff]
    intro u hu
    simp [stoppedBy_mono (hbegun u hu) hstop]
  rw [cutBy, stoppedBy_mono hfinish hstop, cut_cut hfinish hstop, hnone]
  rfl

theorem cutBy_later (hfinish : stoppedBy stop c.finish = false)
    (hbegun : ∀ u ∈ c.begun, u ≤ c.finish) : c.cutBy stop = c := by
  refine Course.ext ?_ (cut_of_not_stopped hfinish) (List.filter_eq_self.mpr fun u hu => ?_)
  · show (if stoppedBy stop c.finish then _ else _) = _
    rw [hfinish, if_neg Bool.false_ne_true]
  · cases hu' : stoppedBy stop u with
    | true => exact absurd (stoppedBy_mono (hbegun u hu) hu') (by simp [hfinish])
    | false => rfl

theorem cutBy_outcome_ne (h : c.outcome ≠ .timedOut) : (c.cutBy stop).outcome ≠ .timedOut := by
  unfold cutBy
  split
  · exact nofun
  · exact h

def after (t : Nat) (c : Course) : Course := { c with begun := t :: c.begun }

theorem cutBy_after (h : stoppedBy stop t = false) :
    (c.after t).cutBy stop = (c.cutBy stop).after t := by
  have hkept : (!stoppedBy stop t) = true := by rw [h]; rfl
  exact congrArg (Course.mk _ _) (List.filter_cons_of_pos hkept)

end Course

section

variable (p : RetryPolicy) (script : Nat → Attempt)

/-- One attempt, the last. -/
def lastAttempt (k t : Nat) : Course :=
  ⟨(script k).answer p.timeout.millis, t + (script k).span p.timeout.millis, [t]⟩

/-- A retried seek that nothing cancels: attempt `k` begins at a time, and that many may follow. -/
def course : (left k t : Nat) → Course
  | 0, k, t => lastAttempt p script k t
  | left + 1, k, t =>
    if (script k).inTime p.timeout.millis then lastAttempt p script k t
    else (course left (k + 1) (t + p.timeout.millis + p.backoff.millis)).after t

variable {p script} {left k t : Nat}

theorem course_of_inTime (h : (script k).inTime p.timeout.millis = true) :
    course p script left k t = lastAttempt p script k t := by
  cases left with
  | zero => rfl
  | succ left => exact if_pos h

theorem course_of_late (h : (script k).inTime p.timeout.millis = false) :
    course p script (left + 1) k t =
      (course p script left (k + 1) (t + p.timeout.millis + p.backoff.millis)).after t :=
  if_neg (by simp [h])

theorem course_bounds (left k t : Nat) : (∀ u ∈ (course p script left k t).begun, t ≤ u) ∧
    t ≤ (course p script left k t).finish := by
  have hlast : ∀ k t, (∀ u ∈ (lastAttempt p script k t).begun, t ≤ u) ∧
      t ≤ (lastAttempt p script k t).finish := by
    intro k t
    exact ⟨fun u hu => Nat.le_of_eq (List.mem_singleton.mp hu).symm, Nat.le_add_right _ _⟩
  induction left generalizing k t with
  | zero => exact hlast k t
  | succ left ih =>
      cases h : (script k).inTime p.timeout.millis with
      | true =>
          rw [course_of_inTime h]
          exact hlast k t
      | false =>
          rw [course_of_late h]
          obtain ⟨hbegun, hfinish⟩ := ih (k + 1) (t + p.timeout.millis + p.backoff.millis)
          refine ⟨fun u hu => ?_, Nat.le_trans (by omega) hfinish⟩
          rcases List.mem_cons.mp hu with rfl | hu
          · exact Nat.le_refl _
          · exact Nat.le_trans (by omega) (hbegun u hu)

theorem course_begun_le (left k t : Nat) :
    ∀ u ∈ (course p script left k t).begun, u ≤ (course p script left k t).finish := by
  have hlast : ∀ k t, ∀ u ∈ (lastAttempt p script k t).begun,
      u ≤ (lastAttempt p script k t).finish := by
    intro k t u hu
    rw [List.mem_singleton.mp hu]
    exact Nat.le_add_right _ _
  induction left generalizing k t with
  | zero => exact hlast k t
  | succ left ih =>
      cases h : (script k).inTime p.timeout.millis with
      | true =>
          rw [course_of_inTime h]
          exact hlast k t
      | false =>
          rw [course_of_late h]
          intro u hu
          rcases List.mem_cons.mp hu with rfl | hu
          · exact Nat.le_trans (by omega) (course_bounds _ _ _).2
          · exact ih _ _ u hu

/-- The attempts before the cancellation come first. -/
theorem course_begun_prefix (stop : Option Nat) (left k t : Nat) :
    ((course p script left k t).cutBy stop).begun <+: (course p script left k t).begun := by
  have hlast : ∀ k t, ((lastAttempt p script k t).cutBy stop).begun <+:
      (lastAttempt p script k t).begun := by
    intro k t
    cases h : stoppedBy stop t with
    | true => simp [lastAttempt, Course.cutBy, h]
    | false => simp [lastAttempt, Course.cutBy, h]
  induction left generalizing k t with
  | zero => exact hlast k t
  | succ left ih =>
      cases h : (script k).inTime p.timeout.millis with
      | true =>
          rw [course_of_inTime h]
          exact hlast k t
      | false =>
          cases hstop : stoppedBy stop t with
          | true =>
              rw [Course.cutBy_stopped hstop (course_bounds _ _ _).2 (course_bounds _ _ _).1]
              exact List.nil_prefix
          | false =>
              rw [course_of_late h, Course.cutBy_after hstop]
              exact (List.prefix_cons_inj t).mpr (ih _ _)

/-- It ends with its last attempt. -/
theorem course_finish (left k t : Nat) : ∃ u, (course p script left k t).begun.getLast? = some u ∧
    (course p script left k t).finish =
      u + (script (k + (course p script left k t).begun.length - 1)).span p.timeout.millis := by
  induction left generalizing k t with
  | zero => exact ⟨t, rfl, rfl⟩
  | succ left ih =>
      cases h : (script k).inTime p.timeout.millis with
      | true =>
          rw [course_of_inTime h]
          exact ⟨t, rfl, rfl⟩
      | false =>
          rw [course_of_late h]
          obtain ⟨u, hlast, hfinish⟩ := ih (k + 1) (t + p.timeout.millis + p.backoff.millis)
          refine ⟨u, ?_, hfinish.trans ?_⟩
          · rw [Course.after, List.getLast?_cons, hlast, Option.getD_some]
          · rw [Course.after, List.length_cons, Nat.add_right_comm, Nat.add_assoc]

theorem course_head (left k t : Nat) : ∃ l, (course p script left k t).begun = t :: l := by
  cases left with
  | zero => exact ⟨[], rfl⟩
  | succ left =>
      unfold course
      split
      · exact ⟨[], rfl⟩
      · exact ⟨_, rfl⟩

theorem course_length_le (left k t : Nat) :
    (course p script left k t).begun.length ≤ left + 1 := by
  induction left generalizing k t with
  | zero => exact Nat.le_refl _
  | succ left ih =>
      unfold course
      split
      · exact Nat.succ_le_succ (Nat.zero_le _)
      · exact Nat.succ_le_succ (ih _ _)

/-- A further attempt comes after a timeout and the whole rest. -/
theorem course_spaced {i u v : Nat} (hu : (course p script left k t).begun[i]? = some u)
    (hv : (course p script left k t).begun[i + 1]? = some v) :
    (script (k + i)).inTime p.timeout.millis = false ∧
      v = u + p.timeout.millis + p.backoff.millis := by
  induction left generalizing k t i with
  | zero => simp [course, lastAttempt] at hv
  | succ left ih =>
      cases h : (script k).inTime p.timeout.millis with
      | true => simp [course_of_inTime h, lastAttempt] at hv
      | false =>
          rw [course_of_late h] at hu hv
          cases i with
          | zero =>
              obtain ⟨l, hl⟩ := @course_head p script left (k + 1)
                (t + p.timeout.millis + p.backoff.millis)
              simp only [Course.after, hl, List.getElem?_cons_zero, List.getElem?_cons_succ,
                Option.some.injEq] at hu hv
              exact ⟨h, by rw [← hu, ← hv]⟩
          | succ i =>
              obtain ⟨hlate, hgap⟩ := ih hu hv
              exact ⟨by rwa [Nat.add_right_comm, Nat.add_assoc] at hlate, hgap⟩

theorem course_outcome (left k t : Nat) : (course p script left k t).outcome =
    (((List.range' k (left + 1)).map fun j => (script j).answer p.timeout.millis).find?
      (· ≠ .timedOut)).getD .timedOut := by
  induction left generalizing k t with
  | zero =>
      by_cases h : (script k).answer p.timeout.millis = .timedOut <;>
        simp [course, lastAttempt, h, -Attempt.answer_eq_timedOut]
  | succ left ih =>
      rw [List.range'_succ, List.map_cons]
      cases h : (script k).inTime p.timeout.millis with
      | true =>
          have hanswer : (script k).answer p.timeout.millis ≠ .timedOut := by
            simp [Ne, Attempt.answer_eq_timedOut, h]
          rw [course_of_inTime h, List.find?_cons_of_pos (by simpa using hanswer)]
          rfl
      | false =>
          have hanswer := Attempt.answer_eq_timedOut.mpr h
          rw [course_of_late h, List.find?_cons_of_neg (by simpa using hanswer)]
          exact ih (k + 1) _

@[simp] theorem perform_ended (cancelled : Timed Bool) (time : Float) (n : Nat) (s : ScriptedClip)
    (o : SeekOutcome) : Retry.perform p cancelled time n s (.ended o) = pure (o, s) := by
  cases n <;> rfl

/-- An attempt with nothing to follow. -/
theorem runs_lastAttempt {w : Watch} (hw : w.isStopped = false) (n : Nat) (time : Float)
    (hlast : (script k).inTime p.timeout.millis = true ∨ p.retries ≤ k) :
    let c := (lastAttempt p script k w.now).cutBy w.stop
    Task.Runs (Retry.perform p Timed.isStopped time (n + 1) (⟨script, k⟩ : ScriptedClip)
        (.seeking k)) w (c.outcome, ⟨script, k + 1⟩)
      { w with now := c.finish, begun := w.begun ++ c.begun } := by
  intro c
  have hbegun : c.begun = [w.now] := by
    have hkept : (!stoppedBy w.stop w.now) = true := by rw [show stoppedBy _ _ = _ from hw]; rfl
    show List.filter (!stoppedBy w.stop ·) [w.now] = [w.now]
    exact List.filter_cons_of_pos hkept
  have hended : Retry.sought p k c.outcome = .ended c.outcome := by
    rcases hlast with hin | hk
    · have hanswer : (script k).answer p.timeout.millis ≠ .timedOut := by
        simp [Ne, Attempt.answer_eq_timedOut, hin]
      exact Retry.sought_of_ne (Course.cutBy_outcome_ne hanswer)
    · exact Retry.sought_of_le hk _
  refine (runs_seekBounded hw p.timeout.millis ⟨script, k⟩ time).bind ?_
  rw [hbegun]
  show Task.Runs (Retry.perform p Timed.isStopped time n _ (Retry.sought p k c.outcome)) _ _ _
  rw [hended, perform_ended]
  exact Task.runs_pure _ _

theorem runs_resting {w w' : Watch} (hw : w.isStopped = false) {n k : Nat} {time : Float}
    {s : ScriptedClip} {r : SeekOutcome × ScriptedClip}
    (h : Task.Runs (Retry.perform p Timed.isStopped time n s
        (Retry.rested (stoppedBy w.stop (w.now + p.backoff.millis)) k))
      { w with now := cut w.stop (w.now + p.backoff.millis) } r w') :
    Task.Runs (Retry.perform p Timed.isStopped time (n + 1) s (.resting k)) w r w' := by
  have hrest := runs_rest w p.backoff.millis
  rw [max_cut (Nat.le_add_right _ _) hw] at hrest
  refine hrest.bind ((Task.runs_isStopped _).bind ?_)
  have hstopped : ({ w with now := cut w.stop (w.now + p.backoff.millis) } : Watch).isStopped =
      stoppedBy w.stop (w.now + p.backoff.millis) := stoppedBy_cut
  rwa [hstopped]

theorem runs_lateSeek {w : Watch} (hw : w.isStopped = false)
    (h : (script k).inTime p.timeout.millis = false) (time : Float) :
    Task.Runs (seekBounded p.timeout.millis Timed.isStopped (⟨script, k⟩ : ScriptedClip) time) w
      (if stoppedBy w.stop (w.now + p.timeout.millis) then .cancelled else .timedOut,
        ⟨script, k + 1⟩)
      { w with
        now := cut w.stop (w.now + p.timeout.millis)
        begun := w.begun ++ [w.now] } := by
  have hseek := runs_seekBounded hw p.timeout.millis ⟨script, k⟩ time
  dsimp only [ScriptedClip.attempt, ScriptedClip.next] at hseek
  rwa [Attempt.span_of_late h, Attempt.answer_eq_timedOut.mpr h] at hseek

/-- After an attempt that is too late it goes on with a rest. -/
theorem runs_late {w w' : Watch} (hw : w.isStopped = false) {n : Nat} (hk : k < p.retries)
    (h : (script k).inTime p.timeout.millis = false)
    (hgiven : stoppedBy w.stop (w.now + p.timeout.millis) = false) {time : Float}
    {r : SeekOutcome × ScriptedClip}
    (hgo : Task.Runs (Retry.perform p Timed.isStopped time n (⟨script, k + 1⟩ : ScriptedClip)
        (Retry.rested (stoppedBy w.stop (w.now + p.timeout.millis + p.backoff.millis)) (k + 1)))
      { w with
        now := cut w.stop (w.now + p.timeout.millis + p.backoff.millis)
        begun := w.begun ++ [w.now] } r w') :
    Task.Runs (Retry.perform p Timed.isStopped time (n + 2) (⟨script, k⟩ : ScriptedClip)
      (.seeking k)) w r w' := by
  have hseek := runs_lateSeek hw h time
  rw [hgiven, if_neg Bool.false_ne_true, cut_of_not_stopped hgiven] at hseek
  refine hseek.bind ?_
  have hsought : Retry.sought p k .timedOut = .resting (k + 1) := if_neg (Nat.not_le.mpr hk)
  show Task.Runs (Retry.perform p Timed.isStopped time (n + 1) _ (Retry.sought p k .timedOut)) _ _ _
  rw [hsought]
  let w₁ : Watch := { w with now := w.now + p.timeout.millis, begun := w.begun ++ [w.now] }
  have hw₁ : w₁.isStopped = false := hgiven
  exact runs_resting hw₁ hgo

/-- How a course goes while it can be cancelled. -/
theorem runs_perform {w : Watch} (hw : w.isStopped = false) {n left k : Nat}
    (hleft : k + left = p.retries) (hn : 2 * left + 1 ≤ n) (time : Float) :
    let c := (course p script left k w.now).cutBy w.stop
    ∃ s, Task.Runs (Retry.perform p Timed.isStopped time n (⟨script, k⟩ : ScriptedClip)
        (.seeking k)) w (c.outcome, s)
      { w with now := c.finish, begun := w.begun ++ c.begun } := by
  induction left generalizing w n k with
  | zero =>
      obtain ⟨n, rfl⟩ := Nat.exists_eq_add_of_le' hn
      exact ⟨_, runs_lastAttempt hw n time (.inr (Nat.le_of_eq hleft.symm))⟩
  | succ left ih =>
      obtain ⟨n, rfl⟩ : ∃ n', n = n' + 2 := Nat.exists_eq_add_of_le' (by omega)
      cases h : (script k).inTime p.timeout.millis with
      | true =>
          rw [course_of_inTime h]
          exact ⟨_, runs_lastAttempt hw (n + 1) time (.inl h)⟩
      | false =>
          let given := w.now + p.timeout.millis
          let again := given + p.backoff.millis
          obtain ⟨hbegun, hfinish⟩ := @course_bounds p script left (k + 1) again
          rw [course_of_late h, Course.cutBy_after hw]
          cases hgiven : stoppedBy w.stop given with
          | true =>
              -- the cancellation comes before the attempt is given up
              have hseek := runs_lateSeek hw h time
              rw [hgiven, if_pos rfl] at hseek
              rw [Course.cutBy_stopped hgiven (Nat.le_trans (Nat.le_add_right _ _) hfinish)
                fun u hu => Nat.le_trans (Nat.le_add_right _ _) (hbegun u hu)]
              exact ⟨⟨script, k + 1⟩, hseek.bind (Task.runs_pure _ _)⟩
          | false =>
              dsimp only
              rw [Course.after, List.append_cons]
              cases hagain : stoppedBy w.stop again with
              | true =>
                  -- it comes in the rest
                  rw [Course.cutBy_stopped hagain hfinish hbegun, List.append_nil]
                  refine ⟨⟨script, k + 1⟩, runs_late hw (by omega) h hgiven ?_⟩
                  rw [hagain]
                  show Task.Runs (Retry.perform p Timed.isStopped time n _
                    (.ended .cancelled)) _ _ _
                  rw [perform_ended]
                  exact Task.runs_pure _ _
              | false =>
                  have hw₂ : ({ w with now := again, begun := w.begun ++ [w.now] } :
                    Watch).isStopped = false := hagain
                  obtain ⟨s, hgo⟩ := ih hw₂ (n := n) (k := k + 1) (by omega) (by omega)
                  refine ⟨s, runs_late hw (by omega) h hgiven ?_⟩
                  rw [hagain, cut_of_not_stopped hagain]
                  exact hgo

variable (p script)

def retriedSeek (stop : Option Nat) (start : Nat) (time : Float) : Course :=
  let ((r, m), w) := (seekRetrying p Timed.isStopped (⟨script, 0⟩ : ScriptedClip) time).onClock
    ⟨start, 0⟩ ⟨stop, start, []⟩
  ⟨r.1, m.millis, w.begun⟩

theorem retriedSeek_eq (stop : Option Nat) (start : Nat) (time : Float) :
    let c := course p script p.retries 0 start
    retriedSeek p script stop start time =
      { c.cutBy stop with finish := max start (cut stop c.finish) } := by
  intro c
  obtain ⟨hbegun, hfinish⟩ := @course_bounds p script p.retries 0 start
  let w : Watch := ⟨stop, start, []⟩
  have hstart : ∀ {o s w'}, Task.Runs (seekRetrying p Timed.isStopped (⟨script, 0⟩ : ScriptedClip)
      time) w (o, s) w' → retriedSeek p script stop start time = ⟨o, w'.now, w'.begun⟩ := by
    intro o s w' h
    obtain ⟨round', now', hrun⟩ := h 0 start
    unfold retriedSeek
    rw [show Task.onClock _ ⟨start, 0⟩ ⟨stop, start, []⟩ = _ from hrun]
  have hasked := Task.runs_isStopped w
  cases hstop : stoppedBy stop start with
  | true =>
      rw [show w.isStopped = true from hstop] at hasked
      have hrun : Task.Runs (Retry.perform p Timed.isStopped time (Retry.maxSteps p)
          (⟨script, 0⟩ : ScriptedClip) (.ended .cancelled)) w (.cancelled, ⟨script, 0⟩) w :=
        Task.runs_pure _ _
      rw [hstart (hasked.bind hrun), Course.cutBy_stopped hstop hfinish hbegun,
        cut_cut hfinish hstop, Nat.max_eq_left (cut_le stop start)]
  | false =>
      have hw : w.isStopped = false := hstop
      rw [hw] at hasked
      obtain ⟨s, hrun⟩ := @runs_perform p script w hw (Retry.maxSteps p) p.retries 0
        (Nat.zero_add _) (Nat.le_succ _) time
      rw [hstart (hasked.bind hrun), max_cut hfinish hstop]
      rfl

@[simp] theorem retriedSeek_none (start : Nat) (time : Float) :
    retriedSeek p script none start time = course p script p.retries 0 start := by
  rw [retriedSeek_eq, Course.cutBy_none]
  exact Course.ext rfl (Nat.max_eq_right (course_bounds _ _ _).2) rfl

/-- A retried seek makes at most the attempts it is allowed, each after a timeout and a whole rest,
and none once it is cancelled. A cancellation before its end is its outcome; otherwise the first
answer is, if there is one. -/
theorem retriedSeek_keeps (stop : Option Nat) (start : Nat) (time : Float) :
    let r := retriedSeek p script stop start time
    let free := retriedSeek p script none start time
    r.begun.length ≤ p.retries + 1 ∧
    (∀ i t u, r.begun[i]? = some t → r.begun[i + 1]? = some u →
      (script i).answer p.timeout.millis = .timedOut ∧
        1000000 * t + p.timeout.nanos + p.backoff.nanos ≤ 1000000 * u) ∧
    (∀ c ∈ stop, ∀ t ∈ r.begun, t < c) ∧
    (∀ c ∈ stop, c ≤ free.finish → r.outcome = .cancelled ∧ r.finish = max start c) ∧
    ((∀ c ∈ stop, free.finish < c) → r = free) ∧
    free.begun.head? = some start ∧
    (∃ t, free.begun.getLast? = some t ∧
      free.finish = t + (script (free.begun.length - 1)).span p.timeout.millis) ∧
    free.outcome = (((List.range (p.retries + 1)).map fun k =>
      (script k).answer p.timeout.millis).find? (· ≠ .timedOut)).getD .timedOut := by
  intro r free
  have hfree : free = course p script p.retries 0 start := retriedSeek_none p script start time
  have hr : r = { free.cutBy stop with finish := max start (cut stop free.finish) } := by
    rw [hfree]
    exact retriedSeek_eq p script stop start time
  have hprefix : r.begun <+: free.begun := by
    rw [hr, hfree]
    exact course_begun_prefix stop _ _ _
  refine ⟨?_, fun i t u ht hu => ?_, fun c hc t ht => ?_, fun c hc hfinish => ?_, fun hlater => ?_,
    ?_, ?_, ?_⟩
  · refine Nat.le_trans hprefix.length_le ?_
    rw [hfree]
    exact course_length_le _ _ _
  · have hget : ∀ {j v : Nat}, r.begun[j]? = some v → free.begun[j]? = some v := by
      intro j v hv
      obtain ⟨l, hl⟩ := hprefix
      rw [← hl, List.getElem?_append_left (List.getElem?_eq_some_iff.mp hv).1, hv]
    have ht := hget ht
    have hu := hget hu
    rw [hfree] at ht hu
    obtain ⟨hlate, rfl⟩ := course_spaced ht hu
    rw [Nat.zero_add] at hlate
    refine ⟨Attempt.answer_eq_timedOut.mpr hlate, ?_⟩
    have htimeout := p.timeout.nanos_le_millis
    have hbackoff := p.backoff.nanos_le_millis
    omega
  · rw [hr] at ht
    have hkept := (List.mem_filter.mp ht).2
    rw [Option.mem_def.mp hc] at hkept
    simpa [stoppedBy] using hkept
  · rw [hr, Option.mem_def.mp hc]
    exact ⟨if_pos (stoppedBy_some.mpr hfinish), congrArg (max start) (Nat.min_eq_right hfinish)⟩
  · have hnever : stoppedBy stop free.finish = false := by
      cases stop with
      | none => rfl
      | some c => exact decide_eq_false (Nat.not_le.mpr (hlater c rfl))
    have hbounds : start ≤ free.finish := by
      rw [hfree]
      exact (course_bounds _ _ _).2
    rw [hr, Course.cutBy_later hnever, cut_of_not_stopped hnever, Nat.max_eq_right hbounds]
    rw [hfree]
    exact course_begun_le _ _ _
  · obtain ⟨l, hl⟩ := @course_head p script p.retries 0 start
    rw [hfree, hl, List.head?_cons]
  · obtain ⟨t, hlast, hfinish⟩ := @course_finish p script p.retries 0 start
    rw [Nat.zero_add] at hfinish
    rw [hfree]
    exact ⟨t, hlast, hfinish⟩
  · rw [hfree, course_outcome, List.range_eq_range']

end

/-- The first attempt stalls. The cancellation comes in the rest after it, or after the second
attempt. -/
theorem retriedSeek_keeps_stall :
    let p : RetryPolicy := ⟨.ofMillis 20, 1, .ofMillis 5⟩
    let script := fun k => ⟨if k = 0 then none else some 3, none, true⟩
    ((script 0).answer 20 = .timedOut ∧ 1000000 * 0 + 20000000 + 5000000 ≤ 1000000 * 25) ∧ 0 < 22 ∧
      ((retriedSeek p script (some 22) 0 0).outcome = .cancelled ∧
        (retriedSeek p script (some 22) 0 0).finish = max 0 22) ∧
      retriedSeek p script (some 29) 0 0 = retriedSeek p script none 0 0 := by
  intro p script
  have hlate : (retriedSeek p script (some 29) 0 0).begun = [0, 25] := by
    rw [retriedSeek_eq]
    decide
  have hrest : (retriedSeek p script (some 22) 0 0).begun = [0] := by
    rw [retriedSeek_eq]
    decide
  have hfree : (retriedSeek p script none 0 0).finish = 28 := by
    rw [retriedSeek_none]
    decide
  have h29 := retriedSeek_keeps p script (some 29) 0 0
  have h22 := retriedSeek_keeps p script (some 22) 0 0
  simp only [hlate, hrest, hfree] at h29 h22
  exact ⟨h29.2.1 0 0 25 rfl rfl, h22.2.2.1 22 rfl 0 (.head _), h22.2.2.2.1 22 rfl (by decide),
    h29.2.2.2.2.1 fun c hc => by cases hc; decide⟩

end Segue
