import Segue.Duration
import Segue.Image
import Segue.Timeline

/-!
# Configuration

How the pipeline is tuned: the margin at the end of clips, the preview cache, exports and the pool
of textures.
-/

namespace Segue

structure CacheConfig where
  /-- The memory limit in units of 2^20 bytes. -/
  memoryLimit : Nat
  width : Nat
  height : Nat
  seekTimeout : Duration
  /-- How long a clip that was sought gets to show its frame. -/
  settle : Duration
  deriving DecidableEq, Repr

structure ExportConfig where
  seekTimeout : Duration
  /-- Further attempts after a seek timed out. -/
  seekRetries : Nat
  retryBackoff : Duration
  cloneTimeout : Duration
  uploadConcurrency : Nat
  format : FrameFormat
  subfolder : String
  deriving DecidableEq, Repr

structure Config where
  safetyMargin : Float
  cache : CacheConfig
  exports : ExportConfig
  texturePool : Nat
  deriving Repr

def CacheConfig.standard : CacheConfig where
  memoryLimit := 512
  width := 512
  height := 288
  seekTimeout := .ofSeconds 1
  settle := .ofMillis 16

/-- The memory limit in bytes, at most the greatest word. -/
def CacheConfig.limitBytes (c : CacheConfig) : Nat :=
  min (c.memoryLimit * 1048576) 0xFFFFFFFFFFFFFFFF

def ExportConfig.standard : ExportConfig where
  seekTimeout := .ofMillis 500
  seekRetries := 5
  retryBackoff := .ofMillis 100
  cloneTimeout := .ofSeconds 5
  uploadConcurrency := 4
  format := .webp
  subfolder := "blendpack_export"

namespace Config

def standardPool : Nat := 10

def standard : Config where
  safetyMargin := Timeline.defaultMargin
  cache := .standard
  exports := .standard
  texturePool := standardPool

inductive Fault where
  | margin
  | cacheSize
  | concurrency
  | subfolder (name : String)
  | pool
  deriving DecidableEq, Repr

def Fault.message : Fault → String
  | .margin => "safety_margin must be a non-negative number of seconds"
  | .cacheSize => "cache width and height must be greater than zero"
  | .concurrency => "export.upload_concurrency must be at least 1"
  | .subfolder name => s!"export.subfolder '{name}' may not contain '..'"
  | .pool => "renderer.texture_pool must be at least 1"

def hasTwoDots : List Char → Bool
  | '.' :: '.' :: _ => true
  | _ :: cs => hasTwoDots cs
  | [] => false

def fault? (c : Config) : Option Fault :=
  if !c.safetyMargin.isFinite || decide (c.safetyMargin < 0.0) then some .margin
  else if c.cache.width = 0 || c.cache.height = 0 then some .cacheSize
  else if c.exports.uploadConcurrency = 0 then some .concurrency
  else if hasTwoDots c.exports.subfolder.toList then some (.subfolder c.exports.subfolder)
  else if c.texturePool = 0 then some .pool
  else none

def same (a b : Config) : Bool :=
  a.safetyMargin == b.safetyMargin && a.cache == b.cache && a.exports == b.exports
    && a.texturePool == b.texturePool

end Config

end Segue
