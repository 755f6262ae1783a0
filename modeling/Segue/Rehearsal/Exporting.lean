import Segue.Json.Reader
import Segue.Rehearsal.Stage

/-!
# Rehearsing exports

Instructions for one exporter, and what each of them answers. A run can have further instructions
that are carried out beside it, one after another.
-/

namespace Segue.Rehearsal

structure RunScript where
  settings : Settings Float
  a : PlayerScript
  b : PlayerScript
  width : Nat
  height : Nat
  abortAt : Option Float
  clearAt : Option Float

inductive ExportStep where
  | run (script : Except Json.Refusal RunScript) (during : List (Nat × ExportStep))
  | abort
  | clear
  | status

structure RunReport where
  result : Except (ExportError Float) (List FrameRef)
  elapsed : Nat
  exporter : Exporter Float
  journal : Journal
  a : Player
  b : Player

inductive ExportAnswer where
  | refused (e : Json.Refusal)
  | ran (report : RunReport) (during : List ExportAnswer)
  | status (exporter : Exporter Float)

/-- What all runs of an exporter have in common. -/
structure ExportSetting where
  config : ExportConfig
  margin : Float
  registry : Registry Float
  compositor : EaselScript

def RunScript.job (g : ExportSetting) (s : RunScript) : ExportJob Float where
  settings := s.settings
  registry := g.registry
  width := s.width
  height := s.height
  margin := g.margin
  concurrency := g.config.uploadConcurrency
  format := g.config.format

def reached (at_ : Option Float) (x : Float) : Bool :=
  match at_ with
  | some y => y ≤ x
  | none => false

/-- The latest progress is told; the run may be aborted or forgotten there and then. -/
def hearExport (journal : Nat) (s : RunScript) (x : Float) : Play Unit := do
  noteProgress journal x
  if reached s.abortAt x then modifyThe (Exporter Float) (·.abort)
  if reached s.clearAt x then modifyThe (Exporter Float) (·.clear)

def makeEasel (script : EaselScript) (journal width height : Nat) : Play Easel := do
  note journal s!"compositor {width}x{height}"
  return .make script width height journal

def rehearseExport (g : ExportSetting) (s : RunScript) : Task Play RunReport := do
  let journal ← openJournal
  let start ← Task.millis
  let a := Player.make .a s.a journal true
  let b := Player.make .b s.b journal true
  let result ← Exporter.exportFrames g.config (pure false) (makeEasel g.compositor journal)
    (hearExport journal s) (s.job g) a b
  let stop ← Task.millis
  return {
    result
    elapsed := stop - start
    exporter := ← getThe (Exporter Float)
    journal := ← journalOf journal
    a
    b }

def changed (f : Exporter Float → Exporter Float) : Play ExportAnswer := do
  modifyThe (Exporter Float) f
  return .status (← getThe (Exporter Float))

mutual

def ExportStep.perform (g : ExportSetting) : ExportStep → Task Play ExportAnswer
  | .run (.error e) _ => return .refused e
  | .run (.ok s) during => do
    let start ← Task.millis
    let (report, answers) ← Task.both (rehearseExport g s) (exportFrom g start during)
    return .ran report answers
  | .abort => changed (·.abort)
  | .clear => changed (·.clear)
  | .status => changed id

/-- Performs steps one after another, each not before its time after `start`. -/
def exportFrom (g : ExportSetting) (start : Nat) :
    List (Nat × ExportStep) → Task Play (List ExportAnswer)
  | [] => return []
  | (at_, step) :: steps => do
    Task.sleepUntil (some (start + at_)) (pure false)
    let answer ← step.perform g
    return answer :: (← exportFrom g start steps)

end

def exportAnswers (g : ExportSetting) (uploads : UploadScript) (steps : List ExportStep) :
    List ExportAnswer × Stage :=
  { Stage.make .standard g.margin with uploads }.rehearse
    (exportFrom g 0 (steps.map fun s => (0, s)))

end Segue.Rehearsal
