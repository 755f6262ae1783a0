import Segue.Rehearsal.Stage
import Segue.Seek

/-!
# Rehearsing seeks

Seeks one scripted clip several times and tells how each seek ended.
-/

namespace Segue.Rehearsal

structure SeekReport where
  outcome : SeekOutcome
  player : Player
  /-- The milliseconds since the first seek began. -/
  elapsed : Nat

structure SeekSession where
  script : PlayerScript
  times : List Float
  policy : RetryPolicy
  /-- Seeks are not repeated. -/
  once : Bool
  /-- When all of it is cancelled. -/
  stopAfter : Option Nat

namespace SeekSession

def seekAll (s : SeekSession) : List Float → Player → Task Play (List SeekReport)
  | [], _ => return []
  | time :: times, p => do
    let (outcome, p) ←
      if s.once then seekBounded s.policy.timeout.millis isStopped p time
      else seekRetrying s.policy isStopped p time
    let report := ⟨outcome, p, ← Task.millis⟩
    return report :: (← seekAll s times p)

def reports (s : SeekSession) : List SeekReport :=
  let session : Task Play (List SeekReport) := do
    let journal ← openJournal
    withStop s.stopAfter (seekAll s s.times (.make .a s.script journal false))
  ((Stage.make .standard 0.0).rehearse session).1

end SeekSession

end Segue.Rehearsal
