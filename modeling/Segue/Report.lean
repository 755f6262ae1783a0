import Segue.Command.Run
import Segue.Config.Text
import Segue.Preview
import Segue.Json.Quoted

/-!
# Reports

A report shows the state of a value as JSON. Numbers with a fraction are shown as text with their
shortest digits, so that nothing is lost on the way and values that are no numbers can be shown too.
-/

namespace Segue

class Report (α : Type) where
  report : α → Json Float

namespace Report

variable {α β : Type} [Report α] [Report β]

def part (name : String) (x : α) : String × Json Float := (name, report x)

def row (parts : List (Json Float)) : Json Float := .arr parts

def sheet (parts : List (String × Json Float)) : Json Float := .obj parts

instance : Report (Json Float) := ⟨id⟩
instance : Report Bool := ⟨.bool⟩
instance : Report Nat := ⟨fun n => .int n⟩
instance : Report String := ⟨.str⟩
instance : Report Float := ⟨fun x => .str (Decimal.data.render x)⟩
instance : Report (List α) := ⟨fun xs => row (xs.map report)⟩
instance : Report (Option α) := ⟨fun x => (x.map report).getD .null⟩
instance : Report (α × β) := ⟨fun (x, y) => row [report x, report y]⟩

instance {ε : Type} [Report ε] : Report (Except ε α) := ⟨fun
  | .ok x => report x
  | .error e => report e⟩

def line (j : Json Float) : String := j.render .compact

end Report

end Segue

namespace Segue.Report

/-!
## Reports of timing and settings
-/

instance : Report (Point Float) := ⟨fun p => report (p.x, p.y)⟩

instance : Report (Curve Float) := ⟨fun c => report c.points⟩

instance : Report Timeline.Mode := ⟨fun m => .str m.name⟩

instance : Report Timeline.Phase := ⟨fun p => .str p.name⟩

instance : Report (Timeline.Params Float) := ⟨fun p => sheet
  [part "transition_duration" p.transition, part "clip_a_start" p.startA,
   part "clip_b_start" p.startB, part "video_dur_a" p.durationA, part "video_dur_b" p.durationB,
   part "safety_margin" p.margin, part "start_time_a" p.startTimeA,
   part "start_time_b" p.startTimeB]⟩

instance : Report (Timeline.Sample Float) := ⟨fun s => sheet
  [part "transition_progress" s.progress, part "time_a" s.timeA, part "time_b" s.timeB,
   part "phase" s.phase, part "total_duration" s.total, part "current_time" s.time]⟩

instance : Report (UniformValue Float) := ⟨fun
  | .flag b => report b
  | .scalar x => report x
  | .vector xs => report xs⟩

instance : Report (Uniforms Float) := ⟨fun u => sheet (u.map fun (k, v) => part k v)⟩

instance : Report (EasingSelection Float) := ⟨fun
  | .named e => sheet [part "named" e.name]
  | .curve c => sheet [part "curve" c]⟩

instance : Report FrameRef := ⟨fun f => report [f.name, f.subfolder, f.kind]⟩

instance : Report (Settings Float) := ⟨fun s => sheet
  [part "json" s.text, part "shader_key" (s.engine, s.variant), part "mode" s.mode,
   part "curve" s.curve?, part "easing" s.easingSelection, part "uniforms" s.liveUniforms]⟩

instance : Report Duration := ⟨fun d => .str d.text⟩

instance : Report CacheConfig := ⟨fun c => sheet
  [part "memory_limit_mb" c.memoryLimit, part "width" c.width, part "height" c.height,
   part "seek_timeout" c.seekTimeout, part "settle" c.settle]⟩

instance : Report ExportConfig := ⟨fun c => sheet
  [part "seek_timeout" c.seekTimeout, part "seek_retries" c.seekRetries,
   part "retry_backoff" c.retryBackoff, part "clone_timeout" c.cloneTimeout,
   part "upload_concurrency" c.uploadConcurrency, part "format" c.format.name,
   part "subfolder" c.subfolder]⟩

instance : Report Config := ⟨fun c => sheet
  [part "safety_margin" c.safetyMargin, part "cache" c.cache, part "export" c.exports,
   part "renderer" (sheet [part "texture_pool" c.texturePool])]⟩

/-!
## Reports of the pipeline
-/

instance : Report (CacheRequest Float) := ⟨fun r => row
  [report r.transition, report r.startA, report r.startB, report r.fps, report r.durationA,
   report r.durationB, report r.mode]⟩

instance : Report (CacheStatus Float) := ⟨fun s => sheet
  [part "isBuilding" s.isBuilding, part "isReady" s.isReady, part "progress" s.progress,
   part "memoryMB" s.memory]⟩

instance : Report (FrameCache Float) := ⟨fun c => sheet
  [part "status" c.status, part "ready" c.isReady, part "building" c.building,
   part "len" c.size, part "empty" c.isEmpty, part "planned" c.planned, part "bytes" c.bytes,
   part "frame_size" c.frameSize, part "request" c.request]⟩

instance : Report Rgba := ⟨fun c => .str (Text.hexOf [c.r, c.g, c.b, c.a])⟩

instance : Report Image := ⟨fun i => sheet
  [part "width" i.width, part "height" i.height, part "first" i.first?, part "solid" i.isSolid]⟩

def positionSheet (c : FrameCache Float) (position : Float) : Json Float :=
  sheet
    [part "a" (c.frameAt? .a position), part "b" (c.frameAt? .b position),
     part "data" ((c.entryAt? position).map fun e =>
       row [report e.frameA.first?, report e.frameB.first?, report e.progress])]

instance : Report (BuildOutcome Float) := ⟨fun
  | .complete n => sheet [part "complete" n]
  | .truncated n => sheet [part "truncated" n]
  | .cancelled => .str "cancelled"
  | .failed f => sheet [part "failed" f.message]⟩

instance : Report (ExportStatus Float) := ⟨fun s => sheet
  [part "isExporting" s.isExporting, part "progress" s.progress, part "frameCount" s.frameCount]⟩

instance : Report (Exporter Float) := ⟨fun e => sheet
  [part "status" e.status, part "frames" e.frames]⟩

instance : Report ActiveProgram := ⟨fun
  | .requested => .str "Requested"
  | .fallback => .str "Fallback"⟩

instance : Report (PreviewFrame Float) := ⟨fun f => sheet
  [part "sample" f.sample, part "eased" f.eased, part "from_cache" f.fromCache,
   part "drawn" f.drawn]⟩

instance : Report ImageSequence := ⟨fun s => sheet
  [part "len" s.size, part "empty" (s.size == 0), part "position" s.position,
   part "duration" s.duration, part "frame_rate" s.fps, part "frame" s.frame, part "root" s.root]⟩

instance : Report Footage := ⟨fun f =>
  let kind := match f with
    | .still _ => "still"
    | .frames _ => "sequence"
  row [report kind, report f.duration, report f.frameRate, report f.frame]⟩

/-!
## Reports of shaders
-/

instance : Report UniformDecl := ⟨fun d => sheet
  [part "ty" d.type, part "name" d.name, part "array_len" d.arrayLength, part "line" d.line]⟩

instance : Report (Registry Float) := ⟨fun r => sheet
  [part "engine_count" r.engines.length, part "total_variants" r.variantCount,
   part "engines" r.engineNames]⟩

/-- A fragment with a mark in place of the shared functions that it begins with. -/
def shortFragment (text : String) : String :=
  if text.startsWith Shader.Library.common then
    "\x7bCOMMON\x7d" ++ (text.drop Shader.Library.common.length).toString
  else text

def variantSheet (r : Registry Float) (k : ShaderKey) : Json Float :=
  let d := r.get? k
  sheet
    [part "has" d.isSome, part "source" (d.map fun d => shortFragment d.fragment),
     part "uniforms" (r.uniforms k), part "description" (r.description k),
     part "key" (d.map fun _ => k.text)]

instance : Report Shader.Pack := ⟨fun p =>
  let r := p.registerInto .empty
  let variants := p.manifest.variants
  sheet
    [part "engine" p.engine, part "root" p.root, part "description" p.manifest.description,
     part "include_common" p.manifest.includeCommon,
     part "variants" (variants.map fun v =>
       row [report v.name, report v.fragment, report v.description, report v.uniforms]),
     part "warnings" p.warnings,
     part "registered" (variants.map fun v => variantSheet r ⟨p.engine, v.name⟩),
     part "stats" r]⟩

def kindName : Shader.ParamKind → String
  | .float => "Float"
  | .int => "Int"
  | .bool => "Bool"
  | .vec2 => "Vec2"
  | .vec3 => "Vec3"
  | .vec4 => "Vec4"

instance : Report Shader.ParamField := ⟨fun f => sheet
  [part "name" f.name, part "kind" (kindName f.kind), part "array_len" f.arrayLength,
   part "offset" f.offset]⟩

instance : Report Renderer.Stats := ⟨fun s => sheet
  [part "supported" s.supported, part "width" s.width, part "height" s.height,
   part "active_program" (s.active?.map ShaderKey.text),
   part "using_fallback" s.active?.isNone, part "compiled_programs" s.compiled,
   part "failed_programs" s.failed, part "active_textures" s.activeTextures,
   part "pooled_textures" s.pooledTextures, part "adapter" s.adapter?]⟩

/-!
## Reports of commands
-/

open Command

instance : Report Flavor := ⟨fun f => .str f.name⟩

instance : Report FrameFormat := ⟨fun f => .str f.name⟩

instance : Report Size := ⟨fun s => row [report s.width, report s.height]⟩

instance : Report Sources := ⟨fun s =>
  row [report s.a, report s.b, report s.sequenceFps, report s.stillDuration]⟩

instance : Report Overrides := ⟨fun o => sheet
  [part "settings" o.settings?, part "engine" o.engine?, part "variant" o.variant?,
   part "duration" o.duration?, part "fps" (o.fps?.map UInt32.toNat), part "flavor" o.flavor?,
   part "intensity" o.intensity?, part "easing" o.easing?, part "clip_a_start" o.startA?,
   part "clip_b_start" o.startB?, part "full" o.full, part "source_fps" o.sourceFps,
   ("set", row (o.uniforms.map fun (name, v) => row [report name, report v]))]⟩

instance : Report Output := ⟨fun o => sheet
  [part "size" o.size, part "software" o.software, part "low_power" o.lowPower]⟩

instance : Report RenderRequest := ⟨fun r => sheet
  [part "sources" r.sources, part "transition" r.overrides, part "output" r.output,
   part "position" r.position, part "path" r.path]⟩

instance : Report ExportRequest := ⟨fun r => sheet
  [part "sources" r.sources, part "transition" r.overrides, part "output" r.output,
   part "out_dir" r.directory?, part "host" r.host?, part "format" r.format?,
   part "subfolder" r.subfolder?, part "save_settings" r.saveTo?]⟩

def request : Request → String × Json Float
  | .picture r => part "render" r
  | .frames r => part "export" r
  | .engines json => ("engines", sheet [part "json" json])

/-- What of a request can be resolved: its settings. -/
def overrides? : Request → Option Overrides
  | .picture r => some r.overrides
  | .frames r => some r.overrides
  | .engines _ => none

def failure (kind : String) (f : Failure) : Json Float :=
  sheet [part "error" kind, part "chain" f.chain]

end Segue.Report
