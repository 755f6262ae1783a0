import Segue.Config.Basic
import Segue.Toml.Document
import Segue.Toml.Printer
import Segue.Toml.Basic

/-!
# The text of configurations

Configurations are kept in TOML. Durations are numbers of seconds or spans such as `500ms`; missing
entries have their standard values.
-/

namespace Segue

open Toml

inductive DurationError where
  | negative
  | unreadable (text : String)
  /-- More seconds than fit a word. -/
  | tooLong
  deriving DecidableEq, Repr

def DurationError.message : DurationError → String
  | .negative => "duration must be non-negative"
  | .unreadable text => s!"invalid duration '{text}'"
  | .tooLong => "duration is too long"

/-- A duration from seconds, or from its written form. -/
def Duration.ofToml : Toml → Except (Misfit DurationError) Duration
  | .str s =>
    match Duration.parse s with
    | .ok d => .ok d
    | .error .malformed => .error (.because (.unreadable s))
    | .error .tooLong => .error (.because .tooLong)
  | .int n => if n < 0 then .error (.because .negative) else .ok (.ofSeconds n.toNat)
  | .float x =>
    if !x.isFinite || Decimal.isNegative x then .error (.because .negative)
    else
      match Duration.ofFloat? x with
      | some d => .ok d
      | none => .error (.because .tooLong)
  | _ => .error .shape

namespace Config

inductive Error where
  | malformed
  | duration (e : DurationError)
  | invalid (f : Fault)
  deriving DecidableEq, Repr

abbrev ConfigField (σ : Type) := FieldReader DurationError σ

def maxWord : Nat := 0xFFFFFFFFFFFFFFFF
def maxHalfWord : Nat := 0xFFFFFFFF

def cacheFields : List (ConfigField CacheConfig) :=
  [.of "memory_limit_mb" (count maxWord) fun c n => { c with memoryLimit := n },
   .of "width" (count maxHalfWord) fun c n => { c with width := n },
   .of "height" (count maxHalfWord) fun c n => { c with height := n },
   .of "seek_timeout" Duration.ofToml fun c d => { c with seekTimeout := d },
   .of "settle" Duration.ofToml fun c d => { c with settle := d }]

def exportFields : List (ConfigField ExportConfig) :=
  [.of "seek_timeout" Duration.ofToml fun c d => { c with seekTimeout := d },
   .of "seek_retries" (count maxHalfWord) fun c n => { c with seekRetries := n },
   .of "retry_backoff" Duration.ofToml fun c d => { c with retryBackoff := d },
   .of "clone_timeout" Duration.ofToml fun c d => { c with cloneTimeout := d },
   .of "upload_concurrency" (count maxWord) fun c n => { c with uploadConcurrency := n },
   .of "format" (choice (FrameFormat.all.map fun f => (f.name, f))) fun c f =>
     { c with format := f },
   .of "subfolder" string fun c s => { c with subfolder := s }]

def rendererFields : List (ConfigField Nat) := [.of "texture_pool" (count maxWord) fun _ n => n]

def fields : List (ConfigField Config) :=
  [.of "safety_margin" number fun c x => { c with safetyMargin := x },
   .of "cache" (record cacheFields .standard) fun c x => { c with cache := x },
   .of "export" (record exportFields .standard) fun c x => { c with exports := x },
   .of "renderer" (record rendererFields standardPool) fun c n => { c with texturePool := n }]

/-- Reads a configuration and checks that it can be used. -/
def parse (text : String) : Except Error Config :=
  match Toml.parse? text with
  | none => .error .malformed
  | some entries =>
    match readEntries fields standard entries with
    | .error .shape => .error .malformed
    | .error (.because e) => .error (.duration e)
    | .ok c =>
      match c.fault? with
      | some f => .error (.invalid f)
      | none => .ok c

def toToml (c : Config) : List (String × Toml) :=
  [("safety_margin", .float c.safetyMargin),
   ("cache", .table
     [("memory_limit_mb", .int c.cache.memoryLimit), ("width", .int c.cache.width),
      ("height", .int c.cache.height), ("seek_timeout", .str c.cache.seekTimeout.text),
      ("settle", .str c.cache.settle.text)]),
   ("export", .table
     [("seek_timeout", .str c.exports.seekTimeout.text),
      ("seek_retries", .int c.exports.seekRetries),
      ("retry_backoff", .str c.exports.retryBackoff.text),
      ("clone_timeout", .str c.exports.cloneTimeout.text),
      ("upload_concurrency", .int c.exports.uploadConcurrency),
      ("format", .str c.exports.format.name), ("subfolder", .str c.exports.subfolder)]),
   ("renderer", .table [("texture_pool", .int c.texturePool)])]

def text (c : Config) : String := Toml.render c.toToml

end Config

end Segue
