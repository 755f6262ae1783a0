import Segue.Preview
import Segue.Rehearsal.Caching
import Segue.Rehearsal.Stage

/-!
# Rehearsing the preview

Instructions for one preview with its clips, cache and compositor, and what each of them answers.
-/

namespace Segue.Rehearsal

inductive PreviewStep where
  | prepare
  | sample (position : Float)
  /-- Builds the cache, for the preview unless something else is requested. -/
  | build (request : Option (Except Json.Refusal Request))
  | clear
  | cached (position : Float)
  | live (position : Float) (stopAfter : Option Nat)
  | render (position : Float) (stopAfter : Option Nat)

inductive PreviewResult where
  | program (p : ActiveProgram)
  | sample (s : Timeline.Sample Float)
  | built (o : BuildOutcome Float)
  | refused (e : Json.Refusal)
  | cleared
  | frame (f : Option (PreviewFrame Float))

structure PreviewAnswer where
  result : PreviewResult
  elapsed : Nat
  a : Player
  b : Player
  log : List String

structure Scene where
  a : Player
  b : Player
  easel : Easel

def Scene.noteIn (s : Scene) (journal : Nat) : Scene where
  a := { s.a with journal }
  b := { s.b with journal }
  easel := { s.easel with journal }

def PreviewStep.perform (p : Preview Float) (r : Registry Float) (s : Scene) :
    PreviewStep → Task Play (PreviewResult × Scene)
  | .prepare => do
    let (active, easel) ← (p.prepare r s.easel : Play (ActiveProgram × Easel))
    return (.program active, { s with easel })
  | .sample position => return (.sample (p.sample position), s)
  | .build (some (.error e)) => return (.refused e, s)
  | .build request => do
    let request := match request with
      | some (.ok other) => other
      | _ => p.request
    let (o, a, b) ← FrameCache.build request (fun _ => (pure () : Play Unit)) s.a s.b
    return (.built o, { s with a, b })
  | .clear => do
    modifyThe (FrameCache Float) (·.clear)
    return (.cleared, s)
  | .cached position => do
    let c ← getThe (FrameCache Float)
    let (f, easel) ←
      (p.renderCached c position s.easel : Play (Option (PreviewFrame Float) × Easel))
    return (.frame f, { s with easel })
  | .live position _ => do
    let (f, easel, a, b) ← p.renderLive isStopped position s.easel s.a s.b
    return (.frame (some f), ⟨a, b, easel⟩)
  | .render position _ => do
    let c ← getThe (FrameCache Float)
    let (f, easel, a, b) ← p.render c isStopped position s.easel s.a s.b
    return (.frame (some f), ⟨a, b, easel⟩)

def PreviewStep.stopAfter : PreviewStep → Option Nat
  | .live _ t | .render _ t => t
  | _ => none

/-- Performs a step and reports; the clock of a step begins with it. -/
def PreviewStep.report (p : Preview Float) (r : Registry Float) (s : Scene) (step : PreviewStep) :
    Task Play (PreviewAnswer × Scene) := do
  let journal ← openJournal
  let start ← Task.millis
  let timed : Task Play (PreviewResult × Scene × Nat) := do
    let (result, s) ← step.perform p r (s.noteIn journal)
    return (result, s, ← Task.millis)
  let (result, s, stop) ← withStop step.stopAfter timed
  return (⟨result, stop - start, s.a, s.b, (← journalOf journal).lines⟩, s)

def previewFrom (p : Preview Float) (r : Registry Float) :
    Scene → List PreviewStep → Task Play (List PreviewAnswer)
  | _, [] => return []
  | s, step :: steps => do
    let (answer, s) ← step.report p r s
    return answer :: (← previewFrom p r s steps)

def previewAnswers (p : Preview Float) (r : Registry Float) (config : CacheConfig) (margin : Float)
    (easel : EaselScript) (a b : PlayerScript) (steps : List PreviewStep) : List PreviewAnswer :=
  let scene : Scene := ⟨.make .a a 0 false, .make .b b 0 false, .make easel 0 0 0⟩
  ((Stage.make config margin).rehearse (previewFrom p r scene steps)).1

end Segue.Rehearsal
