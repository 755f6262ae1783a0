import Mathlib
import Segue.Task

/-!
# Tasks on a clock

Alone on the clock, a task ends at a time with a result. Nothing else happens than a cancellation,
at any time or never, and every wait is over by then.
-/

namespace Segue

/-! ## Tasks one after the other -/

namespace Task

variable {m : Type → Type} {α β γ : Type}

protected theorem bind_assoc (t : Task m α) (f : α → Task m β) (g : β → Task m γ) :
    t >>= f >>= g = t >>= fun a => f a >>= g := by
  induction t with
  | done a => rfl
  | act x next ih => exact congrArg (act x) (funext ih)
  | now next ih => exact congrArg now (funext ih)
  | wait due ready next ih => exact congrArg (wait due ready) ih

protected theorem id_map (t : Task m α) : id <$> t = t := by
  induction t with
  | done a => rfl
  | act x next ih => exact congrArg (act x) (funext ih)
  | now next ih => exact congrArg now (funext ih)
  | wait due ready next ih => exact congrArg (wait due ready) ih

instance : LawfulMonad (Task m) :=
  LawfulMonad.mk' (Task m) Task.id_map (fun _ _ => rfl) Task.bind_assoc

end Task

/-! ## What there is besides a task -/

/-- What there is besides a task: the time at which it is cancelled, if it is, the time that it has
been told, and when its seeks began. -/
structure Watch where
  stop : Option Nat
  now : Nat
  begun : List Nat

namespace Watch

def stoppedBy (stop : Option Nat) (t : Nat) : Bool := stop.any (· ≤ t)

def isStopped (w : Watch) : Bool := stoppedBy w.stop w.now

/-- A time, or that of the cancellation if it comes first. -/
def cut (stop : Option Nat) (t : Nat) : Nat := stop.elim t (min t)

variable {stop : Option Nat} {s t : Nat}

@[simp] theorem stoppedBy_some {c : Nat} : stoppedBy (some c) t = true ↔ c ≤ t := decide_eq_true_iff

theorem stoppedBy_mono (hst : s ≤ t) (h : stoppedBy stop s = true) : stoppedBy stop t = true := by
  cases stop with
  | none => exact absurd h Bool.false_ne_true
  | some c => exact stoppedBy_some.mpr (Nat.le_trans (stoppedBy_some.mp h) hst)

theorem cut_le (stop : Option Nat) (t : Nat) : cut stop t ≤ t := by
  cases stop with
  | none => exact Nat.le_refl t
  | some c => exact Nat.min_le_left t c

theorem cut_of_not_stopped (h : stoppedBy stop t = false) : cut stop t = t := by
  cases stop with
  | none => rfl
  | some c =>
      have hc : ¬c ≤ t := fun hc => absurd (stoppedBy_some.mpr hc) (by simp [h])
      exact Nat.min_eq_left (Nat.le_of_lt (Nat.lt_of_not_le hc))

theorem max_cut (hst : s ≤ t) (h : stoppedBy stop s = false) :
    max s (cut stop t) = cut stop t := by
  cases stop with
  | none => exact Nat.max_eq_right hst
  | some c =>
      have hc : ¬c ≤ s := fun hc => absurd (stoppedBy_some.mpr hc) (by simp [h])
      exact Nat.max_eq_right (Nat.le_min.mpr ⟨hst, Nat.le_of_lt (Nat.lt_of_not_le hc)⟩)

@[simp] theorem stoppedBy_cut : stoppedBy stop (cut stop t) = stoppedBy stop t := by
  cases stop with
  | none => rfl
  | some c =>
      rw [Bool.eq_iff_iff, stoppedBy_some, stoppedBy_some, cut, Option.elim_some, Nat.le_min]
      exact and_iff_left (Nat.le_refl c)

theorem cut_cut (hst : s ≤ t) (h : stoppedBy stop s = true) : cut stop t = cut stop s := by
  cases stop with
  | none => exact absurd h Bool.false_ne_true
  | some c =>
      have hc := stoppedBy_some.mp h
      rw [cut, cut, Option.elim_some, Option.elim_some, Nat.min_eq_right hc,
        Nat.min_eq_right (Nat.le_trans hc hst)]

end Watch

open Watch

abbrev Timed := StateM Watch

namespace Timed

def isStopped : Timed Bool := fun w => (w.isStopped, w)

def told {β : Type} (t : Moment) (x : Timed β) : Timed β := fun w => x { w with now := t.millis }

/-- Nothing else happens than the cancellation. -/
instance : Background Timed where
  settle _ := pure false
  next w := (w.stop.filter (w.now < ·), w)
  pending := pure 0

theorem bind_apply {β γ : Type} (x : Timed β) (f : β → Timed γ) (w : Watch) :
    (x >>= f) w = f (x w).1 (x w).2 := rfl

end Timed

namespace Task

variable {β γ : Type}

/-- A task all of whose actions are told the time. -/
def told : Task Timed β → Task Timed β
  | .done b => .done b
  | .act x next => .now fun t => .act (Timed.told t x) fun b => (next b).told
  | .now next => .now fun t => (next t).told
  | .wait due ready next => .wait due (fun t => Timed.told t (ready t)) next.told

def onClock (t : Task Timed β) (m : Moment) (w : Watch) : (β × Moment) × Watch := t.told.run m w

/-- Begun at a time, a task ends at a time with a result. Rounds and what it was told last do not
matter. -/
def Runs (t : Task Timed β) (w : Watch) (b : β) (w' : Watch) : Prop :=
  ∀ round now, ∃ round' now', t.onClock ⟨w.now, round⟩ { w with now } =
    ((b, ⟨w'.now, round'⟩), { w' with now := now' })

@[simp] theorem told_bind (t : Task Timed β) (f : β → Task Timed γ) :
    (t >>= f).told = t.told >>= fun b => (f b).told := by
  induction t with
  | done b => rfl
  | act x next ih =>
      exact congrArg Task.now (funext fun t => congrArg (Task.act _) (funext fun b => ih b))
  | now next ih => exact congrArg Task.now (funext fun t => ih t)
  | wait due ready next ih => exact congrArg (Task.wait _ _) ih

theorem run_bind {m : Type → Type} [Monad m] [LawfulMonad m] [Background m] (t : Task m β)
    (f : β → Task m γ) (start : Moment) :
    (t >>= f).run start = t.run start >>= fun r => (f r.1).run r.2 := by
  induction t generalizing start with
  | done b =>
      show (f b).run start = (pure (b, start) : m (β × Moment)) >>= _
      rw [pure_bind]
  | act x next ih =>
      show (x >>= fun b => (next b >>= f).run start) =
        (x >>= fun b => (next b).run start) >>= fun r => (f r.1).run r.2
      simp only [ih, bind_assoc]
  | now next ih => exact ih start start
  | wait due ready next ih =>
      show (Background.pending >>= fun n => pass due ready (4 * n + 4) start >>= fun t =>
          (next >>= f).run t) =
        (Background.pending >>= fun n => pass due ready (4 * n + 4) start >>= fun t =>
          next.run t) >>= fun r => (f r.1).run r.2
      simp only [ih, bind_assoc]

section

variable {t : Task Timed β} {w w' w'' : Watch} {b : β}

theorem Runs.bind {f : β → Task Timed γ} {c : γ} (h : Runs t w b w') (hf : Runs (f b) w' c w'') :
    Runs (t >>= f) w c w'' := by
  intro round now
  obtain ⟨round', now', ht⟩ := h round now
  obtain ⟨round'', now'', hb⟩ := hf round' now'
  refine ⟨round'', now'', ?_⟩
  have hbind : (t >>= f).onClock ⟨w.now, round⟩ { w with now } =
      (fun r : (β × Moment) × Watch => (f r.1.1).onClock r.1.2 r.2)
        (t.onClock ⟨w.now, round⟩ { w with now }) := by
    rw [onClock, told_bind, run_bind]
    rfl
  rw [hbind, ht]
  exact hb

theorem runs_pure (b : β) (w : Watch) : Runs (pure b : Task Timed β) w b w :=
  fun round now => ⟨round, now, rfl⟩

theorem runs_lift {x : Timed β} (h : x w = (b, w')) (hnow : w'.now = w.now) :
    Runs (liftM x : Task Timed β) w b w' := by
  intro round now
  refine ⟨round, w'.now, ?_⟩
  have hrun : onClock (liftM x) ⟨w.now, round⟩ { w with now } =
      (((x w).1, ⟨w.now, round⟩), (x w).2) := rfl
  rw [hrun, h, ← hnow]

theorem runs_millis (w : Watch) : Runs Task.millis w w.now w := fun round now => ⟨round, now, rfl⟩

theorem runs_isStopped (w : Watch) :
    Runs (liftM Timed.isStopped : Task Timed Bool) w w.isStopped w := runs_lift rfl rfl

/-! ### Waits -/

variable {due : Option Nat} {ready : Moment → Timed Bool} {n : Nat} {m : Moment}

theorem pass_over (h : isOver due ready m w = (true, w')) :
    pass due ready (n + 1) m w = (m, w') := by
  rw [pass, Timed.bind_apply, h]
  rfl

/-- A turn of a wait that was not over before. -/
theorem pass_turn (h : isOver due ready m w = (false, w')) : pass due ready (n + 1) m w =
    match ready ⟨m.millis, m.round + 1⟩ w' with
    | (true, w'') => (⟨m.millis, m.round + 1⟩, w'')
    | (false, w'') =>
      match sooner due (w''.stop.filter (w''.now < ·)) with
      | none => (⟨m.millis, m.round + 1⟩, w'')
      | some t => pass due ready n ⟨max t m.millis, m.round + 1⟩ w'' := by
  have hsettle : (Background.settle m.millis : Timed Bool) w' = (false, w') := rfl
  rw [pass, Timed.bind_apply, h]
  simp only [Bool.false_eq_true, if_false]
  rw [Timed.bind_apply, hsettle]
  simp only [Bool.false_eq_true, if_false]
  rw [Timed.bind_apply]
  obtain ⟨b, w''⟩ := ready ⟨m.millis, m.round + 1⟩ w'
  cases b with
  | true => rfl
  | false =>
      have hnext : (Background.next : Timed (Option Nat)) w'' =
        (w''.stop.filter (w''.now < ·), w'') := rfl
      simp only [Bool.false_eq_true, if_false]
      rw [Timed.bind_apply, hnext]
      dsimp only
      cases sooner due (w''.stop.filter (w''.now < ·)) <;> rfl

theorem pass_ready (h : isOver due ready m w = (false, w'))
    (hready : ready ⟨m.millis, m.round + 1⟩ w' = (true, w'')) :
    pass due ready (n + 1) m w = (⟨m.millis, m.round + 1⟩, w'') := by
  rw [pass_turn h, hready]

theorem pass_later (h : isOver due ready m w = (false, w'))
    (hready : ready ⟨m.millis, m.round + 1⟩ w' = (false, w'')) {t : Nat}
    (ht : sooner due (w''.stop.filter (w''.now < ·)) = some t) :
    pass due ready (n + 1) m w = pass due ready n ⟨max t m.millis, m.round + 1⟩ w'' := by
  rw [pass_turn h, hready]
  dsimp only
  rw [ht]

theorem isOver_due {d : Nat} (hd : d ≤ m.millis) : isOver (some d) ready m w = (true, w) := by
  rw [isOver, isDue, if_pos (decide_eq_true hd)]
  rfl

theorem isOver_before {d : Nat} (hd : m.millis < d) : isOver (some d) ready m = ready m := by
  rw [isOver, isDue, if_neg (by simpa using hd)]

theorem onClock_wait (due : Option Nat) (ready : Moment → Timed Bool) (m : Moment) (w : Watch) :
    onClock (.wait due ready (.done ())) m w =
      (fun p : Moment × Watch => (((), p.1), p.2))
        (pass due (fun t => Timed.told t (ready t)) 4 m w) := rfl

theorem runs_giveWay (w : Watch) : Runs (Task.giveWay Timed.isStopped) w () w := by
  intro round now
  let ready := fun u : Moment => do if round < u.round then pure true else Timed.isStopped
  have hrun := onClock_wait none ready ⟨w.now, round⟩ { w with now }
  have hlook : isOver none (fun u => Timed.told u (ready u)) ⟨w.now, round⟩ { w with now } =
      (w.isStopped, w) := by
    show Timed.told ⟨w.now, round⟩ (ready ⟨w.now, round⟩) { w with now } = _
    rw [show ready ⟨w.now, round⟩ = Timed.isStopped from if_neg (Nat.lt_irrefl round)]
    rfl
  have hnext : Timed.told ⟨w.now, round + 1⟩ (ready ⟨w.now, round + 1⟩) w = (true, w) := by
    rw [show ready ⟨w.now, round + 1⟩ = pure true from if_pos (Nat.lt_succ_self round)]
    rfl
  cases hw : w.isStopped with
  | true => exact ⟨round, w.now, hrun.trans (by rw [pass_over (hlook.trans (by rw [hw]))])⟩
  | false =>
      exact ⟨round + 1, w.now, hrun.trans (by rw [pass_ready (hlook.trans (by rw [hw])) hnext])⟩

theorem runs_sleepUntil (w : Watch) (d : Nat) : Runs (Task.sleepUntil (some d) Timed.isStopped) w ()
    { w with now := max w.now (cut w.stop d) } := by
  obtain ⟨stop, time, begun⟩ := w
  intro round now
  have hrun := onClock_wait (some d) (fun _ => Timed.isStopped) ⟨time, round⟩ ⟨stop, now, begun⟩
  suffices hwait : ∃ round' now', pass (some d) (fun t => Timed.told t Timed.isStopped) 4
      ⟨time, round⟩ ⟨stop, now, begun⟩ = (⟨max time (cut stop d), round'⟩, ⟨stop, now', begun⟩) by
    obtain ⟨round', now', hwait⟩ := hwait
    exact ⟨round', now', hrun.trans (by rw [hwait])⟩
  by_cases hdue : d ≤ time
  · have hend : max time (cut stop d) = time := by cases stop <;> simp [cut, hdue]
    exact ⟨round, now, by rw [pass_over (isOver_due hdue), hend]⟩
  · have hlook : isOver (some d) (fun t => Timed.told t Timed.isStopped) ⟨time, round⟩
        ⟨stop, now, begun⟩ = (stoppedBy stop time, ⟨stop, time, begun⟩) := by
      rw [isOver_before (Nat.lt_of_not_le hdue)]
      rfl
    have hnext : Timed.told ⟨time, round + 1⟩ Timed.isStopped ⟨stop, time, begun⟩ =
        (stoppedBy stop time, ⟨stop, time, begun⟩) := rfl
    cases stop with
    | none =>
        refine ⟨round + 1, time, ?_⟩
        rw [pass_later hlook hnext (t := d) rfl, pass_over (isOver_due (Nat.le_max_left d time)),
          cut, Option.elim_none, Nat.max_comm]
    | some c =>
        by_cases hc : c ≤ time
        · rw [stoppedBy_some.mpr hc] at hlook
          refine ⟨round, time, ?_⟩
          rw [pass_over hlook, cut, Option.elim_some, Nat.max_eq_left (by omega)]
        · have hnot : stoppedBy (some c) time = false := decide_eq_false hc
          have hsooner : sooner (some d) ((some c).filter (time < ·)) = some (min d c) := by
            rw [Option.filter_some_pos (by simpa using Nat.lt_of_not_le hc)]
            rfl
          rw [hnot] at hlook hnext
          rw [pass_later hlook hnext hsooner, cut, Option.elim_some]
          -- the clock goes to whatever comes first, and the wait is over there
          by_cases hdc : d ≤ c
          · refine ⟨round + 1, time, ?_⟩
            rw [pass_over (isOver_due (by simp; omega)), Nat.max_comm]
          · have hreached : max time (min d c) = c := by omega
            refine ⟨round + 1, c, ?_⟩
            rw [Nat.max_comm, hreached, pass_over]
            rw [isOver_before (Nat.lt_of_not_le hdc)]
            exact congrArg (·, _) (stoppedBy_some.mpr (Nat.le_refl c))

end

end Task

end Segue
