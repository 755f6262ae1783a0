import Segue.Cache.Basic
import Segue.Export.Perform
import Segue.Json.Forms
import Segue.Json.Printer
import Segue.Media.Source
import Segue.Json.Quoted

/-!
# Rehearsals

A rehearsal runs the pipeline on scripted clips, with a clock that jumps from one event to the next.
The stage holds what all of its tasks share. Each run keeps a journal of what its clips and its
compositor were asked to do, and of what its caller was told.
-/

namespace Segue.Rehearsal

/-- The nearest pixels on a grid of another size; of an image without pixels nothing is drawn. -/
def nearest : Resampler where
  resize i width height :=
    let cell (k : Nat) : Rgba :=
      let x := (2 * (k % width) + 1) * i.width / (2 * width)
      let y := (2 * (k / width) + 1) * i.height / (2 * height)
      (i.at? x y).getD ⟨0, 0, 0, 0⟩
    ⟨width, height, match i.pixels with
      | .solid c => .solid (if i.isEmpty then ⟨0, 0, 0, 0⟩ else c)
      | .grid _ => .grid ((List.range (width * height)).map cell).toArray⟩
  width_resize _ _ _ := rfl
  height_resize _ _ _ := rfl

structure UploadScript where
  /-- The milliseconds that the upload of the first frame takes. -/
  delay : Nat
  /-- Each further frame takes that much less. -/
  step : Nat
  /-- The frames whose upload fails. -/
  failures : List Nat

def UploadScript.prompt : UploadScript := ⟨0, 0, []⟩

/-- What happened in one run, the latest first. -/
structure Journal where
  lines : List String
  progress : List Float

structure Stage where
  cache : FrameCache Float
  exporter : Exporter Float
  uploads : UploadScript
  /-- The uploads in the order in which they began, the latest first. -/
  begun : List (Nat × String)
  /-- The most uploads that were under way at a time. -/
  peak : Nat
  stopped : Bool
  journals : Array Journal

abbrev Play := StateM Stage

instance : MonadStateOf (FrameCache Float) Play where
  get := return (← getThe Stage).cache
  set c := modifyThe Stage fun s => { s with cache := c }
  modifyGet f := modifyGetThe Stage fun s =>
    let (x, c) := f s.cache
    (x, { s with cache := c })

instance : MonadStateOf (Exporter Float) Play where
  get := return (← getThe Stage).exporter
  set e := modifyThe Stage fun s => { s with exporter := e }
  modifyGet f := modifyGetThe Stage fun s =>
    let (x, e) := f s.exporter
    (x, { s with exporter := e })

instance : Uploader Play where
  upload frame := do
    modifyThe Stage fun s =>
      { s with
        begun := (frame.index, frame.name) :: s.begun
        peak := max s.peak (s.exporter.running.length + 1) }
    let script := (← getThe Stage).uploads
    return (script.delay - script.step * frame.index,
      if script.failures.contains frame.index then .failed .refused
      else .stored ⟨frame.name, "sub", FrameRef.standardKind⟩)

def Stage.make (config : CacheConfig) (margin : Float) : Stage where
  cache := .make config margin nearest
  exporter := .make
  uploads := .prompt
  begun := []
  peak := 0
  stopped := false
  journals := #[]

def openJournal : Play Nat :=
  modifyGetThe Stage fun s => (s.journals.size, { s with journals := s.journals.push ⟨[], []⟩ })

def note (journal : Nat) (line : String) : Play Unit :=
  modifyThe Stage fun s =>
    { s with journals := s.journals.modify journal fun j => { j with lines := line :: j.lines } }

def noteProgress (journal : Nat) (x : Float) : Play Unit :=
  modifyThe Stage fun s =>
    { s with journals := s.journals.modify journal fun j => { j with progress := x :: j.progress } }

/-- A journal with the earliest first. -/
def journalOf (journal : Nat) : Play Journal := do
  let j := (← getThe Stage).journals.getD journal ⟨[], []⟩
  return ⟨j.lines.reverse, j.progress.reverse⟩

def setStopped (b : Bool) : Play Unit := modifyThe Stage fun s => { s with stopped := b }

def isStopped : Play Bool := return (← getThe Stage).stopped

def withStop {α : Type} (after : Option Nat) (t : Task Play α) : Task Play α := do
  setStopped (after = some 0)
  match after with
  | some (n + 1) =>
    let (x, _) ← Task.both t (do Task.sleep (n + 1); setStopped true)
    return x
  | _ => t

/-- Runs a task with the clock at 0. -/
def Stage.rehearse {α : Type} (s : Stage) (t : Task Play α) : α × Stage :=
  let ((x, _), s) := (t.run Moment.start).run s
  (x, s)

/-!
## Scripted clips

A clip in one colour that tells its position. Its script says how long seeks take, which of them
fail or never end, and when its length or its frames are missing.
-/

structure PlayerScript where
  duration : Option Float
  frameRate : Option Float
  width : Nat
  height : Nat
  delay : Nat
  /-- The first seeks never end. -/
  stallFirst : Nat
  /-- Seeks that never end, by number. -/
  stalls : List Nat
  failures : List Nat
  /-- The length is gone after that many seeks. -/
  vanishAfter : Option Nat
  /-- The length is not known before the clip is ready. -/
  late : Bool
  readyDelay : Nat
  /-- Frames are there after that many seeks. -/
  frameAfter : Nat
  /-- Counts of seeks at which there is no frame. -/
  blanks : List Nat
  /-- The clip cannot be duplicated. -/
  single : Bool

structure Player where
  clip : Clip
  script : PlayerScript
  journal : Nat
  /-- Seeks let other tasks run first. -/
  givesWay : Bool
  position : Float
  seeks : Nat
  ready : Bool

namespace Player

def make (clip : Clip) (script : PlayerScript) (journal : Nat) (givesWay : Bool) : Player :=
  ⟨clip, script, journal, givesWay, 0.0, 0, false⟩

def duration (p : Player) : Option Float :=
  let gone := match p.script.vanishAfter with
    | some n => n ≤ p.seeks
    | none => false
  if gone || (p.script.late && !p.ready) then none else p.script.duration

def colour (p : Player) : Rgba :=
  ⟨(p.position * 10.0).round.toUInt8, if p.clip = .a then 0 else 100, 0, 255⟩

def frame (p : Player) : Option Image :=
  if p.seeks < p.script.frameAfter || p.script.blanks.contains p.seeks then none
  else some (.solid p.script.width p.script.height p.colour)

def seek (p : Player) (time : Float) : Play (Seeking Player) := do
  note p.journal s!"{p.clip.letter} seek {Decimal.data.render time}"
  let n := p.seeks
  let begun := { p with seeks := n + 1 }
  return {
    source := begun
    delay :=
      if n < p.script.stallFirst || p.script.stalls.contains n then none else some p.script.delay
    result :=
      if p.script.failures.contains n then .error (.unavailable s!"{p.clip.letter} attempt {n}")
      else .ok { begun with position := time } }

def duplicate (p : Player) : Play (Except MediaError Player) := do
  if p.script.single then
    return .error (.unavailable s!"{p.clip.letter} cannot be duplicated")
  note p.journal s!"{p.clip.letter} duplicate"
  return .ok { p with seeks := 0, position := 0.0, ready := false }

def release (p : Player) : Play Player := do
  note p.journal s!"{p.clip.letter} release"
  return p

end Player

instance : Source Play Float Player where
  duration := Player.duration
  frameRate p := p.script.frameRate
  frame := Player.frame
  givesWay := Player.givesWay
  seek := Player.seek
  duplicate := Player.duplicate
  ready p := (p.script.readyDelay, { p with ready := true })
  release := Player.release

/-!
## Scripted compositors

A compositor that draws nothing and notes what it is asked for.
-/

structure EaselScript where
  supported : Bool
  /-- The drawings that cannot be read, by number. -/
  unreadable : List Nat

structure Easel where
  script : EaselScript
  width : Nat
  height : Nat
  journal : Nat
  hasImage : Bool
  drawings : Nat
  noted : Option String

namespace Easel

def make (script : EaselScript) (width height journal : Nat) : Easel :=
  ⟨script, width, height, journal, false, 0, none⟩

def useVariant (k : Easel) (r : Registry Float) (key : ShaderKey) :
    Play (ActiveProgram × Easel) := do
  if r.hasVariant key then
    note k.journal s!"variant {key.text} Requested"
    return (.requested, k)
  note k.journal s!"variant {key.text} Fallback"
  return (.fallback, k)

def colourText (c : Rgba) : String := Text.hexOf [c.r, c.g, c.b, c.a]

def updateImage (k : Easel) (clip : Clip) (i : Image) : Play Easel := do
  let first := (i.first?.map colourText).getD ""
  note k.journal s!"image {clip.letter} {i.width}x{i.height} {first}"
  return { k with hasImage := true }

def pinTime (k : Easel) (time : Option Float) : Play Easel := do
  note k.journal ("time " ++ (time.map Decimal.data.render).getD "none")
  return k

def valueText : UniformValue Float → Json Float
  | .flag b => .bool b
  | .scalar x => .str (Decimal.data.render x)
  | .vector xs => .arr (xs.map fun x => .str (Decimal.data.render x))

def uniformsText (u : Uniforms Float) : String :=
  (Json.obj (u.map fun (k, v) => (k, valueText v))).render .compact

def render (k : Easel) (s : Shot Float) : Play (Bool × Easel) := do
  if !k.hasImage then
    note k.journal "render skipped"
    return (false, k)
  note k.journal s!"render {Decimal.data.render s.progress} {Decimal.data.render s.intensity}"
  let text := uniformsText s.uniforms
  if k.noted ≠ some text then note k.journal s!"uniforms {text}"
  return (true, { k with drawings := k.drawings + 1, noted := some text })

def readPixels (k : Easel) : Play (Option Image × Easel) :=
  if k.script.unreadable.contains (k.drawings - 1) then pure (none, k)
  else pure (some (.solid k.width k.height ⟨0, 0, 0, 255⟩), k)

def dispose (k : Easel) : Play Easel := do
  note k.journal "dispose"
  return k

end Easel

instance : Compositor Play Float Easel where
  isSupported k := k.script.supported
  useVariant := Easel.useVariant
  updateImage := Easel.updateImage
  pinTime := Easel.pinTime
  render := Easel.render
  readPixels := Easel.readPixels
  dispose := Easel.dispose

end Segue.Rehearsal
