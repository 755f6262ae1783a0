import Segue.Cache.Perform
import Segue.Json.Reader
import Segue.Rehearsal.Stage

/-!
# Rehearsing the frame cache

Instructions for one cache, and what each of them answers. A build can have further instructions
that are carried out beside it, one after another.
-/

namespace Segue.Rehearsal

abbrev Request := CacheRequest Float

inductive CacheStep where
  | build (request : Except Json.Refusal Request) (a b : PlayerScript) (clearAt : Option Float)
      (during : List (Nat × CacheStep))
  | view
  | clear
  | needsRebuild (request : Except Json.Refusal Request)
  | frames (positions : List Float)

structure BuildReport where
  outcome : BuildOutcome Float
  elapsed : Nat
  cache : FrameCache Float
  journal : Journal
  a : Player
  b : Player

inductive CacheAnswer where
  | refused (e : Json.Refusal)
  | built (report : BuildReport) (during : List CacheAnswer)
  | view (cache : FrameCache Float)
  | needsRebuild (yes : Bool)
  | frames (cache : FrameCache Float) (positions : List Float)

/-- The latest progress is told; the cache may be cleared there and then. -/
def hearProgress (journal : Nat) (clearAt : Option Float) (x : Float) : Play Unit := do
  noteProgress journal x
  match clearAt with
  | some y => if y ≤ x then modifyThe (FrameCache Float) (·.clear)
  | none => pure ()

def rehearseBuild (request : Request) (a b : PlayerScript) (clearAt : Option Float) :
    Task Play BuildReport := do
  let journal ← openJournal
  let start ← Task.millis
  let (outcome, a, b) ← FrameCache.build request (hearProgress journal clearAt)
    (Player.make .a a journal false) (Player.make .b b journal false)
  let stop ← Task.millis
  return {
    outcome
    elapsed := stop - start
    cache := ← getThe (FrameCache Float)
    journal := ← journalOf journal
    a
    b }

mutual

def CacheStep.perform : CacheStep → Task Play CacheAnswer
  | .build (.error e) _ _ _ _ => return .refused e
  | .build (.ok request) a b clearAt during => do
    let start ← Task.millis
    let (report, answers) ← Task.both (rehearseBuild request a b clearAt) (performFrom start during)
    return .built report answers
  | .view => return .view (← getThe (FrameCache Float))
  | .clear => do
    modifyThe (FrameCache Float) (·.clear)
    return .view (← getThe (FrameCache Float))
  | .needsRebuild (.error e) => return .refused e
  | .needsRebuild (.ok request) =>
    return .needsRebuild ((← getThe (FrameCache Float)).needsRebuild request)
  | .frames positions => return .frames (← getThe (FrameCache Float)) positions

/-- Performs steps one after another, each not before its time after `start`. -/
def performFrom (start : Nat) : List (Nat × CacheStep) → Task Play (List CacheAnswer)
  | [] => return []
  | (at_, step) :: steps => do
    Task.sleepUntil (some (start + at_)) (pure false)
    let answer ← step.perform
    return answer :: (← performFrom start steps)

end

def cacheAnswers (config : CacheConfig) (margin : Float) (steps : List CacheStep) :
    List CacheAnswer :=
  ((Stage.make config margin).rehearse (performFrom 0 (steps.map fun s => (0, s)))).1

end Segue.Rehearsal
