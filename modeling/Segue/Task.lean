/-!
# Cooperative tasks

A task runs in steps and gives way to others only where it waits: for a moment on the clock, or
until something has happened. `both` runs two tasks beside each other, and whenever both can go on
the first one does.
-/

namespace Segue

/-- A moment of a run. Rounds count how often all tasks have been left waiting. -/
structure Moment where
  millis : Nat
  round : Nat
  deriving DecidableEq, Repr

def Moment.start : Moment := ⟨0, 0⟩

/-- A computation with places where others may run. -/
inductive Task (m : Type → Type) (α : Type) : Type 1 where
  | done (a : α)
  | act {β : Type} (x : m β) (next : β → Task m α)
  | now (next : Moment → Task m α)
  | wait (due : Option Nat) (ready : Moment → m Bool) (next : Task m α)

namespace Task

variable {m : Type → Type} {α β : Type}

def bind : Task m α → (α → Task m β) → Task m β
  | done a, f => f a
  | act x k, f => act x fun b => bind (k b) f
  | now k, f => now fun t => bind (k t) f
  | wait due ready k, f => wait due ready (bind k f)

instance : Monad (Task m) where
  pure := done
  bind := bind

instance : MonadLift m (Task m) where
  monadLift x := act x done

def millis : Task m Nat := now fun t => done t.millis

/-- Waits until a time, or until something cuts the wait short. -/
def sleepUntil (due : Option Nat) (cut : m Bool) : Task m Unit := wait due (fun _ => cut) (done ())

def sleep [Monad m] (duration : Nat) : Task m Unit :=
  now fun t => wait (some (t.millis + duration)) (fun _ => pure false) (done ())

/-- Lets everything else run once. -/
def giveWay [Monad m] (cut : m Bool) : Task m Unit :=
  now fun t => wait none (fun u => do if t.round < u.round then pure true else cut) (done ())

def sooner : Option Nat → Option Nat → Option Nat
  | some a, some b => some (min a b)
  | some a, none => some a
  | none, b => b

def isDue (due : Option Nat) (t : Moment) : Bool :=
  match due with
  | some d => d ≤ t.millis
  | none => false

def isOver [Monad m] (due : Option Nat) (ready : Moment → m Bool) (t : Moment) : m Bool :=
  if isDue due t then pure true else ready t

/-- Runs a second task beside one that waits; `resumed` is the first one after its wait. -/
def beside [Monad m] (due : Option Nat) (ready : Moment → m Bool)
    (resumed : Task m β → Task m (α × β)) : Task m β → Task m (α × β)
  | act x k => act x fun b => beside due ready resumed (k b)
  | now k => now fun t => beside due ready resumed (k t)
  | done b => wait due ready (resumed (done b))
  | wait due' ready' k =>
    now fun t => act (isOver due' ready' t) fun ended =>
      if ended then beside due ready resumed k
      else
        wait (sooner due due') (fun t => do if ← ready t then pure true else ready' t)
          (now fun t => act (isOver due ready t) fun ended =>
            if ended then resumed (wait due' ready' k) else beside due ready resumed k)

/-- Runs two tasks beside each other. A wait that is over when a task comes to it lets nobody else
run. -/
def both [Monad m] : Task m α → Task m β → Task m (α × β)
  | done a, u => bind u fun b => done (a, b)
  | act x k, u => act x fun b => both (k b) u
  | now k, u => now fun t => both (k t) u
  | wait due ready k, u =>
    now fun t => act (isOver due ready t) fun ended =>
      if ended then both k u else beside due ready (both k) u

end Task

/-- Work that goes on outside of the tasks, such as uploads. -/
class Background (m : Type → Type) where
  /-- Does what can be done at a time; says whether there was anything to do. -/
  settle : (millis : Nat) → m Bool
  next : m (Option Nat)
  /-- How much is not done. -/
  pending : m Nat

namespace Task

variable {m : Type → Type} [Monad m] [Background m] {α : Type}

/-- Moves the clock until a wait is over. Everything in the background that is due comes before the
clock moves. -/
def pass (due : Option Nat) (ready : Moment → m Bool) : (n : Nat) → Moment → m Moment
  | 0, t => pure t
  | n + 1, t => do
    if ← isOver due ready t then return t
    let worked ← Background.settle t.millis
    let t := { t with round := t.round + 1 }
    if worked then return ← pass due ready n t
    if ← ready t then return t
    match sooner due (← Background.next) with
    | none => return t
    | some at_ => pass due ready n { t with millis := max at_ t.millis }

/-- Runs a task on a clock that jumps from one event to the next. -/
def run : Task m α → Moment → m (α × Moment)
  | done a, t => pure (a, t)
  | act x k, t => do run (k (← x)) t
  | now k, t => run (k t) t
  | wait due ready k, t => do
    run k (← pass due ready (4 * (← Background.pending) + 4) t)

end Task

end Segue
