import Segue.Duration
import Segue.Task
import Segue.Media.Source

/-!
# Seeking

A seek is bounded by a timeout and can be cancelled. A retried seek is repeated after a timeout,
with a rest before each further attempt; a failure is not retried.

`Retry` says where a retried seek stands. `seeking` and `resting` wait for something outside; the
functions `sought` and `rested` go on from there. What they are told is whether the work has been
cancelled meanwhile, which wins over everything else.

Seeks run as tasks. Whether the work has been cancelled is asked before a seek begins and whenever
it could go on; next comes the end of the seek, and the timeout last.
-/

namespace Segue

inductive SeekOutcome where
  | completed
  | timedOut
  | failed (message : String)
  | cancelled
  deriving DecidableEq, Repr

structure RetryPolicy where
  timeout : Duration
  /-- Further attempts after the first. -/
  retries : Nat
  backoff : Duration
  deriving DecidableEq, Repr

def RetryPolicy.standard : RetryPolicy where
  timeout := .ofMillis 500
  retries := 5
  backoff := .ofMillis 100

/-- Where a retried seek stands. -/
inductive Retry where
  /-- An attempt is under way, after a number of timeouts. -/
  | seeking (timeouts : Nat)
  | resting (timeouts : Nat)
  | ended (outcome : SeekOutcome)
  deriving DecidableEq, Repr

namespace Retry

def attempt (cancelled : Bool) (timeouts : Nat) : Retry :=
  if cancelled then .ended .cancelled else .seeking timeouts

def start (cancelled : Bool) : Retry := attempt cancelled 0

def sought (p : RetryPolicy) (timeouts : Nat) : SeekOutcome → Retry
  | .timedOut => if p.retries ≤ timeouts then .ended .timedOut else .resting (timeouts + 1)
  | o => .ended o

/-- A rest is over or was cut short. -/
def rested (cancelled : Bool) (timeouts : Nat) : Retry := attempt cancelled timeouts

def maxSteps (p : RetryPolicy) : Nat := 2 * p.retries + 2

end Retry

/-! ## Seeks as tasks -/

variable {m : Type → Type} [Monad m] {α σ : Type} [Source m α σ]

def seekBounded (timeout : Nat) (cancelled : m Bool) (s : σ) (time : α) :
    Task m (SeekOutcome × σ) := do
  if ← cancelled then return (.cancelled, s)
  let start ← Task.millis
  let seeking ← (Source.seek s time : m (Seeking σ))
  if Source.givesWay m s then
    if timeout = 0 then return (.timedOut, seeking.source)
    Task.giveWay cancelled
    if ← cancelled then return (.cancelled, seeking.source)
  let settled : SeekOutcome × σ :=
    match seeking.result with
    | .ok landed => (.completed, landed)
    | .error e => (.failed e.message, seeking.source)
  match seeking.delay with
  | some 0 => return settled
  | delay =>
    if timeout = 0 then return (.timedOut, seeking.source)
    let landing := delay.map (start + ·)
    Task.sleepUntil (Task.sooner landing (some (start + timeout))) cancelled
    if ← cancelled then return (.cancelled, seeking.source)
    match landing with
    | some t => return if t ≤ start + timeout then settled else (.timedOut, seeking.source)
    | none => return (.timedOut, seeking.source)

def rest (duration : Nat) (cancelled : m Bool) : Task m Unit := do
  let start ← Task.millis
  Task.sleepUntil (some (start + duration)) cancelled

namespace Retry

def perform (p : RetryPolicy) (cancelled : m Bool) (time : α) :
    (n : Nat) → σ → Retry → Task m (SeekOutcome × σ)
  | _, s, .ended o => return (o, s)
  | 0, s, _ => return (.timedOut, s)
  | n + 1, s, .seeking timeouts => do
    let (o, s) ← seekBounded p.timeout.millis cancelled s time
    perform p cancelled time n s (sought p timeouts o)
  | n + 1, s, .resting timeouts => do
    rest p.backoff.millis cancelled
    perform p cancelled time n s (rested (← cancelled) timeouts)

end Retry

def seekRetrying (p : RetryPolicy) (cancelled : m Bool) (s : σ) (time : α) :
    Task m (SeekOutcome × σ) := do
  Retry.perform p cancelled time (Retry.maxSteps p) s (Retry.start (← cancelled))

end Segue
