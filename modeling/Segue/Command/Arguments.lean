import Segue.Command.Grammar
import Segue.Command.Values
import Segue.Settings.Flavor
import Segue.Image

/-!
# Arguments

What can be asked for on the command line: one picture of a transition, all of its pictures, or a
list of the engines.
-/

namespace Segue.Command

/-- What every command takes. -/
structure Shared where
  config? : Option String := none
  /-- engine packs, or directories of such -/
  packs : List String := []
  deriving DecidableEq, Repr

structure Sources where
  a : String := ""
  b : String := ""
  sequenceFps : Float := 30.0
  stillDuration : Float := 5.0
  deriving DecidableEq, Repr

structure Overrides where
  settings? : Option String := none
  engine? : Option String := none
  variant? : Option String := none
  duration? : Option Float := none
  fps? : Option UInt32 := none
  flavor? : Option Flavor := none
  intensity? : Option Float := none
  easing? : Option String := none
  startA? : Option Float := none
  startB? : Option Float := none
  full : Bool := false
  sourceFps : Bool := false
  /-- in the order in which they were given -/
  uniforms : List (String × UniformValue Float) := []
  deriving DecidableEq, Repr

structure Output where
  size : Size := ⟨1280, 720⟩
  software : Bool := false
  lowPower : Bool := false
  deriving DecidableEq, Repr

structure RenderRequest where
  sources : Sources := {}
  overrides : Overrides := {}
  output : Output := {}
  position : Float := 0.5
  path : String := ""
  deriving DecidableEq, Repr

structure ExportRequest where
  sources : Sources := {}
  overrides : Overrides := {}
  output : Output := {}
  directory? : Option String := none
  host? : Option String := none
  format? : Option FrameFormat := none
  subfolder? : Option String := none
  saveTo? : Option String := none
  deriving DecidableEq, Repr

inductive Request where
  | picture (r : RenderRequest)
  | frames (r : ExportRequest)
  | engines (json : Bool)
  deriving DecidableEq, Repr

structure Invocation where
  shared : Shared
  request : Request
  deriving DecidableEq, Repr

/-! ## Values -/

/-- A path; the empty text is none. -/
def asPath (s : String) : Except UsageError String :=
  if s.isEmpty then .error .missingValue else .ok s

def asNumber (s : String) : Except UsageError Float :=
  match Decimal.read? s with
  | some x => .ok x
  | none => .error .badValue

/-- A frame rate: a whole number of 32 bits. A minus sign is only allowed before zero. -/
def asRate (s : String) : Except UsageError UInt32 :=
  let bound := 0xFFFFFFFF
  let n? := match s.toList with
    | '-' :: d :: ds =>
      if d.isDigit then (Decimal.readCount? bound (String.ofList (d :: ds))).filter (· = 0)
      else none
    | _ => Decimal.readCount? bound s
  match n? with
  | some n => .ok n.toUInt32
  | none => .error .badValue

/-- A value whose own errors do not show. -/
def orBad {ε α : Type} : Except ε α → Except UsageError α
  | .ok x => .ok x
  | .error _ => .error .badValue

/-! ## Parameters -/

def valued {σ α : Type} (name : String) (read : String → Except UsageError α) (set : σ → α → σ) :
    Parameter σ :=
  { name, set := fun v s => (read v).map (set s) }

def helpParameter {σ : Type} : Parameter σ :=
  { name := "help", letter? := some 'h', valued := false, set := fun _ _ => .error .help }

def versionParameter {σ : Type} : Parameter σ :=
  { name := "version", letter? := some 'V', valued := false, set := fun _ _ => .error .version }

def configParameter : Parameter Shared :=
  valued "config" asPath fun s p => { s with config? := some p }

def sharedParameters : List (Parameter Shared) :=
  [configParameter,
   { valued "engine-pack" asPath fun s p => { s with packs := s.packs ++ [p] } with
     repeats := true }]

def sourceOperands : List (Parameter Sources) :=
  [valued "CLIP_A" asPath fun s p => { s with a := p },
   valued "CLIP_B" asPath fun s p => { s with b := p }]

def sourceParameters : List (Parameter Sources) :=
  [valued "sequence-fps" asNumber fun s x => { s with sequenceFps := x },
   valued "still-duration" asNumber fun s x => { s with stillDuration := x }]

def overrideParameters : List (Parameter Overrides) :=
  [valued "settings" asPath fun s p => { s with settings? := some p },
   valued "engine" .ok fun s n => { s with engine? := some n },
   valued "variant" .ok fun s n => { s with variant? := some n },
   valued "duration" asNumber fun s x => { s with duration? := some x },
   valued "fps" asRate fun s n => { s with fps? := some n },
   valued "flavor" (fun v => orBad (Flavor.ofName v)) fun s f => { s with flavor? := some f },
   valued "intensity" asNumber fun s x => { s with intensity? := some x },
   valued "easing" .ok fun s n => { s with easing? := some n },
   { valued "clip-a-start" asNumber fun s x => { s with startA? := some x } with hyphens := true },
   { valued "clip-b-start" asNumber fun s x => { s with startB? := some x } with hyphens := true },
   .flag "full" fun s => { s with full := true },
   .flag "source-fps" fun s => { s with sourceFps := true },
   { valued "set" (fun v => orBad (parseOverride v))
       fun s u => { s with uniforms := s.uniforms ++ [u] } with
     repeats := true }]

def outputParameters : List (Parameter Output) :=
  [valued "size" (fun v => orBad (parseSize v)) fun s size => { s with size },
   .flag "software" fun s => { s with software := true },
   .flag "low-power" fun s => { s with lowPower := true }]

/-! ## Grammars -/

/-- The parameters of one command, with those that every command takes. -/
def withShared {τ : Type} (ps : List (Parameter τ)) : List (Parameter (Shared × τ)) :=
  helpParameter
    :: sharedParameters.map (.within fun f (s, t) => (f s).map fun s => (s, t))
    ++ ps.map (.within fun f (s, t) => (f t).map fun t => (s, t))

def Grammar.render : Grammar (Shared × RenderRequest) where
  named := withShared
    (sourceParameters.map (.within fun f r => (f r.sources).map fun s => { r with sources := s })
      ++ overrideParameters.map
        (.within fun f r => (f r.overrides).map fun s => { r with overrides := s })
      ++ outputParameters.map (.within fun f r => (f r.output).map fun s => { r with output := s })
      ++ [valued "position" asNumber fun r x => { r with position := x },
          { valued "output" asPath fun r p => { r with path := p } with letter? := some 'o' }])
  operands := sourceOperands.map
    (.within fun f (s, r) => (f r.sources).map fun x => (s, { r with sources := x }))
  required := [["CLIP_A"], ["CLIP_B"], ["output"]]

def Grammar.exporting : Grammar (Shared × ExportRequest) where
  named := withShared
    (sourceParameters.map (.within fun f r => (f r.sources).map fun s => { r with sources := s })
      ++ overrideParameters.map
        (.within fun f r => (f r.overrides).map fun s => { r with overrides := s })
      ++ outputParameters.map (.within fun f r => (f r.output).map fun s => { r with output := s })
      ++ [valued "out-dir" asPath fun r p => { r with directory? := some p },
          valued "host" .ok fun r h => { r with host? := some h },
          valued "format" (fun v => orBad (FrameFormat.ofName v))
            fun r f => { r with format? := some f },
          valued "subfolder" .ok fun r n => { r with subfolder? := some n },
          valued "save-settings" asPath fun r p => { r with saveTo? := some p }])
  operands := sourceOperands.map
    (.within fun f (s, r) => (f r.sources).map fun x => (s, { r with sources := x }))
  exclusive := [("out-dir", "host")]
  required := [["CLIP_A"], ["CLIP_B"], ["out-dir", "host"]]

def Grammar.engines : Grammar (Shared × Bool) where
  named := withShared [.flag "json" fun _ => true]

def Grammar.all : Grammar Shared where
  named := helpParameter :: versionParameter :: sharedParameters
  commands := ["render", "export", "engines", "help"]

/-! ## Reading a command line -/

def readCommand {τ : Type} (g : Grammar (Shared × τ)) (config? : Option String) (start : τ)
    (args : List String) : Except UsageError (Shared × τ) := do
  let (s, _) ← g.run (g.start ({}, start)) args
  let config := configParameter.within fun f (s, t) => (f s).map fun s => (s, t)
  let s ← Grammar.complete (config?.toList.map fun v => (config, v)) s
  g.check false s
  return s.values

/-- Asking for help by name; there has to be a command of that name. -/
def helpFor : List String → UsageError
  | [] => .help
  | [name] => if Grammar.all.commands.contains name then .help else .unknownCommand
  | _ => .unknownCommand

def readRequest (config? : Option String) (name : String) (args : List String) :
    Except UsageError Invocation :=
  match name with
  | "render" => do
    let (shared, r) ← readCommand .render config? {} args
    return ⟨shared, .picture r⟩
  | "export" => do
    let (shared, r) ← readCommand .exporting config? {} args
    return ⟨shared, .frames r⟩
  | "engines" => do
    let (shared, json) ← readCommand .engines config? false args
    return ⟨shared, .engines json⟩
  | _ => .error (helpFor args)

/-- What is given with the command goes before what is given in front of it, and both before the
configuration that the environment names. -/
def Shared.above (inner outer : Shared) (config? : Option String) : Shared :=
  { config? := inner.config? <|> outer.config? <|> config?
    packs := if inner.packs.isEmpty then outer.packs else inner.packs }

/-- Reads a command line; `config?` is the configuration that the environment names. -/
def Invocation.read (config? : Option String) (args : List String) :
    Except UsageError Invocation := do
  let g := Grammar.all
  match ← g.run (g.start {}) args with
  | (s, none) =>
    let s ← Grammar.complete (config?.toList.map fun v => (configParameter, v)) s
    g.check false s
    throw .noCommand
  | (s, some (name, rest)) =>
    let i ← readRequest config? name rest
    let s ← Grammar.complete (config?.toList.map fun v => (configParameter, v)) s
    return { i with shared := i.shared.above s.values config? }

end Segue.Command
