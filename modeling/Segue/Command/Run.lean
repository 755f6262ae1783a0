import Segue.Json.Forms
import Segue.Json.Printer
import Segue.Shader.Registry
import Segue.Command.Frames

/-!
# Listing engines and running commands

The engines with their variants as a table or as JSON.
-/

namespace Segue.Command

variable {α : Type}

def padRight (n : Nat) (s : String) : String :=
  s ++ String.ofList (List.replicate (n - s.length) ' ')

/-- A line for each engine and each variant, and their numbers. -/
def enginesTable (r : Registry α) : String :=
  let line := fun (e : Shader.Engine) (variant : String) =>
    s!"  {padRight 12 variant} {r.description ⟨e.name, variant⟩}\n"
  String.join (r.engines.flatMap fun e => (e.name ++ "\n") :: e.variants.map (line e))
    ++ s!"{r.engines.length} engines, {r.variantCount} variants\n"

def enginesJson [Numeral α] (r : Registry α) : Json α :=
  .arr (r.engines.map fun e =>
    .obj [("engine", .str e.name),
      ("variants", .arr (e.variants.map fun v =>
        .obj [("name", .str v), ("description", .str (r.description ⟨e.name, v⟩)),
          ("uniforms", (r.uniforms ⟨e.name, v⟩).toJson)]))])

def enginesText [Numeral α] (json : Bool) (r : Registry α) : String :=
  if json then (enginesJson r).render .pretty ++ "\n" else enginesTable r

end Segue.Command

namespace Segue.Command

/-!
## Running commands

The configuration is loaded first, then the engine packs, and then the command is carried out. What
a command prints it prints before it keeps the settings of an export.
-/

/-- Where commands print. -/
class Console (m : Type → Type) where
  /-- Prints a text; says whether that could be done. -/
  print : String → m Bool

instance : Console (StateM Disk) := ⟨fun _ => return true⟩

variable {m : Type → Type} [Monad m] [FileSystem m] [Console m] [Hosts m]

/-- What comes of a command: what it has printed, and why it failed if it did. -/
structure Outcome where
  output : String
  failure? : Option Failure

namespace Outcome

def after (output : String) (work : ExceptT Failure m Unit) : m Outcome := do
  match ← work.run with
  | .ok () => return ⟨output, none⟩
  | .error f => return ⟨output, some f⟩

/-- Prints a text before some work. A text that cannot be printed breaks the program off. -/
def printing (text : String) (work : ExceptT Failure m Unit) : m Outcome := do
  if ← Console.print text then after text work else return ⟨"", some .unprinted⟩

def status (o : Outcome) : Nat :=
  match o.failure? with
  | none => 0
  | some f => if f.isBreakdown then 101 else 1

end Outcome

def UsageError.output : UsageError → String
  | .version => "blendpack 0.1.0\n"
  | _ => ""

def Request.perform (device? : Option Device) (config : Config) (registry : Registry Float) :
    Request → m Outcome
  | .picture r => Outcome.after "" (r.perform device? config registry)
  | .engines json => Outcome.printing (enginesText json registry) (return ())
  | .frames r => do
    match ← (r.perform device? config registry).run with
    | .error f => return ⟨"", some f⟩
    | .ok e => Outcome.printing e.summary (e.save r.saveTo?)

def Invocation.run (device? : Option Device) (i : Invocation) : m Outcome := do
  let load : ExceptT Failure m (Config × Registry Float) := do
    let config ← loadConfig i.shared.config?
    return (config, ← registryWith i.shared.packs)
  match ← load.run with
  | .error f => return ⟨"", some f⟩
  | .ok (config, registry) => i.request.perform device? config registry

end Segue.Command
