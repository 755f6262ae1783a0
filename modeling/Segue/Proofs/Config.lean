import Mathlib
import Segue.Config.Text
import Segue.Proofs.Duration
import Segue.Proofs.Toml.Document
import Segue.Proofs.Toml.Sound

/-!
# Configurations read back

A configuration that was read is printed as a document whose sections are read entry by entry, so
that the text gives the configuration again. Durations are printed as spans that add up to them,
whatever they were read from. Of the margin it is assumed that its own text is read as it.

A text is read or refused, unless the first value in it that does not fit is a duration longer than
any.
-/

namespace Segue

open Toml

/-! ## Values that were read -/

theorem Duration.inRange_ofToml {v : Toml} (hv : v.Fits) {d : Duration}
    (h : Duration.ofToml v = .ok d) : d.InRange := by
  cases hv with
  | str s =>
      rw [ofToml] at h
      split at h
      · rename_i hparse
        cases h
        exact inRange_parse hparse
      · cases h
      · cases h
  | int hword =>
      rw [ofToml] at h
      split at h
      · cases h
      · cases h
        refine inRange_ofSeconds ?_
        simp only [isWord, Bool.and_eq_true, decide_eq_true_eq] at hword
        simp only [maxWord]
        omega
  | float x =>
      rw [ofToml] at h
      split at h
      · cases h
      · split at h
        · rename_i hfloat
          cases h
          exact inRange_ofFloat? hfloat
        · cases h
  | bool => cases h
  | time => cases h
  | arr => cases h
  | table => cases h

/-- A count that fits a field, and an integer with a sign. -/
structure Counted (bound n : Nat) : Prop where
  le : n ≤ bound
  isWord : isWord n = true

theorem counted_of_count {ε : Type} {bound n : Nat} {v : Toml} (hv : v.Fits)
    (h : count bound v = (.ok n : Except (Misfit ε) Nat)) : Counted bound n := by
  cases hv with
  | int hword =>
      rename_i i
      rw [count] at h
      split at h
      · rename_i hrange
        cases h
        simp only [Bool.and_eq_true, decide_eq_true_eq] at hrange
        refine ⟨by omega, ?_⟩
        rw [Int.toNat_of_nonneg hrange.1]
        exact hword
      · cases h
  | str => cases h
  | float => cases h
  | bool => cases h
  | time => cases h
  | arr => cases h
  | table => cases h

theorem Counted.count {ε : Type} {bound n : Nat} (h : Counted bound n) :
    count bound (.int n) = (.ok n : Except (Misfit ε) Nat) := by
  have hle : (n : Int) ≤ bound := by exact_mod_cast h.le
  rw [Toml.count, if_pos (by simp [hle]), Int.toNat_natCast]

theorem Duration.InRange.ofToml {d : Duration} (h : d.InRange) :
    Duration.ofToml (.str d.text) = .ok d := by
  rw [Duration.ofToml, Duration.parse_spans h]

namespace Config

deriving instance DecidableEq for Config

structure CacheSound (c : CacheConfig) : Prop where
  memoryLimit : Counted maxWord c.memoryLimit
  width : Counted maxHalfWord c.width
  height : Counted maxHalfWord c.height
  seekTimeout : c.seekTimeout.InRange
  settle : c.settle.InRange

structure ExportSound (c : ExportConfig) : Prop where
  seekTimeout : c.seekTimeout.InRange
  seekRetries : Counted maxHalfWord c.seekRetries
  retryBackoff : c.retryBackoff.InRange
  cloneTimeout : c.cloneTimeout.InRange
  uploadConcurrency : Counted maxWord c.uploadConcurrency

/-- Every count fits its field, and every duration a word of seconds. -/
structure Sound (c : Config) : Prop where
  cache : CacheSound c.cache
  exports : ExportSound c.exports
  texturePool : Counted maxWord c.texturePool

theorem sound_standard : Sound standard := by
  refine ⟨⟨⟨?_, ?_⟩, ⟨?_, ?_⟩, ⟨?_, ?_⟩, ?_, ?_⟩, ⟨?_, ⟨?_, ?_⟩, ?_, ?_, ⟨?_, ?_⟩⟩, ⟨?_, ?_⟩⟩ <;>
    decide

theorem cacheFields_preserve : FieldsPreserve CacheSound cacheFields := by
  refine .cons (fun c v n hc hv hn => ?_) (.cons (fun c v n hc hv hn => ?_)
    (.cons (fun c v n hc hv hn => ?_) (.cons (fun c v d hc hv hd => ?_)
    (.cons (fun c v d hc hv hd => ?_) fieldsPreserve_nil))))
  · exact { hc with memoryLimit := counted_of_count hv hn }
  · exact { hc with width := counted_of_count hv hn }
  · exact { hc with height := counted_of_count hv hn }
  · exact { hc with seekTimeout := Duration.inRange_ofToml hv hd }
  · exact { hc with settle := Duration.inRange_ofToml hv hd }

theorem exportFields_preserve : FieldsPreserve ExportSound exportFields := by
  refine .cons (fun c v d hc hv hd => ?_) (.cons (fun c v n hc hv hn => ?_)
    (.cons (fun c v d hc hv hd => ?_) (.cons (fun c v d hc hv hd => ?_)
    (.cons (fun c v n hc hv hn => ?_) (.cons (fun c v f hc _ _ => ?_)
    (.cons (fun c v s hc _ _ => ?_) fieldsPreserve_nil))))))
  · exact { hc with seekTimeout := Duration.inRange_ofToml hv hd }
  · exact { hc with seekRetries := counted_of_count hv hn }
  · exact { hc with retryBackoff := Duration.inRange_ofToml hv hd }
  · exact { hc with cloneTimeout := Duration.inRange_ofToml hv hd }
  · exact { hc with uploadConcurrency := counted_of_count hv hn }
  · exact { hc with }
  · exact { hc with }

theorem rendererFields_preserve : FieldsPreserve (Counted maxWord) rendererFields :=
  .cons (fun _ _ _ _ hv hn => counted_of_count hv hn) fieldsPreserve_nil

theorem fields_preserve : FieldsPreserve Sound fields := by
  refine .cons (fun c v x hc _ _ => ?_) (.cons (fun c v x hc hv hx => ?_)
    (.cons (fun c v x hc hv hx => ?_) (.cons (fun c v n hc hv hn => ?_) fieldsPreserve_nil)))
  · exact { hc with }
  · exact { hc with cache := record_preserves cacheFields_preserve hv hx sound_standard.cache }
  · exact { hc with exports := record_preserves exportFields_preserve hv hx sound_standard.exports }
  · exact { hc with
      texturePool := record_preserves rendererFields_preserve hv hn sound_standard.texturePool }

/-- A configuration that is read is sound and has no fault. -/
theorem sound_of_parse {text : String} {c : Config} (h : parse text = .ok c) :
    Sound c ∧ c.fault? = none := by
  unfold parse at h
  split at h
  · cases h
  · rename_i es hes
    split at h
    · cases h
    · cases h
    · rename_i c' hread
      split at h
      · cases h
      · rename_i hfault
        cases h
        exact ⟨readEntries_preserves fields_preserve (fits_of_parse? hes) hread sound_standard,
          hfault⟩

/-! ## The printed document -/

def plainEntries (c : Config) : List (String × Toml) := [("safety_margin", .float c.safetyMargin)]

def cacheEntries (c : CacheConfig) : List (String × Toml) :=
  [("memory_limit_mb", .int c.memoryLimit), ("width", .int c.width), ("height", .int c.height),
   ("seek_timeout", .str c.seekTimeout.text), ("settle", .str c.settle.text)]

def exportEntries (c : ExportConfig) : List (String × Toml) :=
  [("seek_timeout", .str c.seekTimeout.text), ("seek_retries", .int c.seekRetries),
   ("retry_backoff", .str c.retryBackoff.text), ("clone_timeout", .str c.cloneTimeout.text),
   ("upload_concurrency", .int c.uploadConcurrency), ("format", .str c.format.name),
   ("subfolder", .str c.subfolder)]

def sections (c : Config) : List Section :=
  [("cache", cacheEntries c.cache), ("export", exportEntries c.exports),
   ("renderer", [("texture_pool", .int c.texturePool)])]

theorem toToml_eq (c : Config) : c.toToml = plainEntries c ++ c.sections.map Section.entry := rfl

theorem plain_str {name : String} (h : Bare name) (s : String) : Plain (name, .str s) :=
  ⟨h, fun _ => Toml.noConfusion, readBack_str s⟩

theorem plain_int {name : String} (h : Bare name) {bound n : Nat} (hn : Counted bound n) :
    Plain (name, .int n) :=
  ⟨h, fun _ => Toml.noConfusion, readBack_int hn.isWord⟩

theorem Sound.readable {c : Config} (h : Sound c) (hmargin : ReadBack (.float c.safetyMargin)) :
    Readable (plainEntries c) c.sections where
  plain := by
    intro e he
    obtain rfl := List.mem_singleton.mp he
    exact ⟨(by decide +kernel : Bare "safety_margin"), fun _ => Toml.noConfusion, hmargin⟩
  sections := by
    have hcache : Section.Readable ("cache", cacheEntries c.cache) := by
      refine ⟨(by decide +kernel : Bare "cache"), ?_, by simp [cacheEntries]⟩
      simp only [cacheEntries, List.forall_mem_cons]
      refine ⟨plain_int ?_ h.cache.memoryLimit, plain_int ?_ h.cache.width,
        plain_int ?_ h.cache.height, plain_str ?_ _, plain_str ?_ _, fun _ he => absurd he List.not_mem_nil⟩ <;> decide +kernel
    have hexports : Section.Readable ("export", exportEntries c.exports) := by
      refine ⟨(by decide +kernel : Bare "export"), ?_, by simp [exportEntries]⟩
      simp only [exportEntries, List.forall_mem_cons]
      refine ⟨plain_str ?_ _, plain_int ?_ h.exports.seekRetries, plain_str ?_ _, plain_str ?_ _,
        plain_int ?_ h.exports.uploadConcurrency, plain_str ?_ _, plain_str ?_ _,
        fun _ he => absurd he List.not_mem_nil⟩ <;> decide +kernel
    have hrenderer : Section.Readable ("renderer", [("texture_pool", .int c.texturePool)]) := by
      refine ⟨(by decide +kernel : Bare "renderer"), ?_, by simp⟩
      simp only [List.forall_mem_cons]
      exact ⟨plain_int (by decide +kernel) h.texturePool, fun _ he => absurd he List.not_mem_nil⟩
    simp only [Config.sections, List.forall_mem_cons]
    exact ⟨hcache, hexports, hrenderer, fun _ hs => absurd hs List.not_mem_nil⟩
  distinct := by simp [plainEntries, Config.sections]

theorem readEntries_field {ε σ τ : Type} {fs : List (FieldReader ε σ)} {name : String}
    {r : Toml → Except (Misfit ε) τ} {set : σ → τ → σ} {s : σ} {v : Toml} {x : τ}
    (hfind : fs.find? (fun f => f.name = name) = some (.of name r set)) (hread : r v = .ok x)
    (es : List (String × Toml)) :
    readEntries fs s ((name, v) :: es) = readEntries fs (set s x) es := by
  have hfield : (FieldReader.of name r set).read s v = .ok (set s x) := by
    dsimp only [FieldReader.of]
    rw [hread]
    rfl
  rw [readEntries, List.foldlM_cons]
  dsimp only
  rw [hfind]
  dsimp only
  rw [hfield]
  rfl

theorem record_cache {c : CacheConfig} (h : CacheSound c) :
    record cacheFields .standard (.table (cacheEntries c)) = .ok c := by
  rw [record, cacheEntries, readEntries_field rfl h.memoryLimit.count,
    readEntries_field rfl h.width.count, readEntries_field rfl h.height.count,
    readEntries_field rfl h.seekTimeout.ofToml, readEntries_field rfl h.settle.ofToml]
  rfl

@[simp] theorem choice_format (f : FrameFormat) :
    choice (FrameFormat.all.map fun f => (f.name, f)) (.str f.name) =
      (.ok f : Except (Misfit DurationError) FrameFormat) := by
  cases f <;> rfl

theorem record_exports {c : ExportConfig} (h : ExportSound c) :
    record exportFields .standard (.table (exportEntries c)) = .ok c := by
  rw [record, exportEntries, readEntries_field rfl h.seekTimeout.ofToml,
    readEntries_field rfl h.seekRetries.count, readEntries_field rfl h.retryBackoff.ofToml,
    readEntries_field rfl h.cloneTimeout.ofToml, readEntries_field rfl h.uploadConcurrency.count,
    readEntries_field rfl (choice_format c.format),
    readEntries_field rfl (rfl : string (.str c.subfolder) = .ok c.subfolder)]
  rfl

theorem record_renderer {n : Nat} (h : Counted maxWord n) :
    record rendererFields standardPool (.table [("texture_pool", .int n)]) = .ok n := by
  rw [record, readEntries_field rfl h.count]
  rfl

theorem readEntries_toToml {c : Config} (h : Sound c) :
    readEntries fields standard c.toToml = .ok c := by
  have hentries : c.toToml = [("safety_margin", .float c.safetyMargin),
      ("cache", .table (cacheEntries c.cache)), ("export", .table (exportEntries c.exports)),
      ("renderer", .table [("texture_pool", .int c.texturePool)])] := rfl
  rw [hentries,
    readEntries_field rfl (rfl : number (.float c.safetyMargin) = .ok c.safetyMargin),
    readEntries_field rfl (record_cache h.cache), readEntries_field rfl (record_exports h.exports),
    readEntries_field rfl (record_renderer h.texturePool)]
  rfl

/-- A number without a fault can be compared with itself. -/
theorem same_self {c : Config} (h : c.fault? = none) : same c c = true := by
  have hfinite : c.safetyMargin.isFinite = true := by
    by_contra hnot
    rw [fault?, if_pos (by simp [hnot])] at h
    cases h
  have hbeq : (c.safetyMargin == c.safetyMargin) = true := Decimal.beq_self_of_isFinite hfinite
  simp only [same, hbeq, beq_self_eq_true, Bool.and_self]

/-- The text of a configuration that was read is read as that configuration; everything in it can
be printed. -/
theorem parse_reprinted {text : String} {c : Config} (h : parse text = .ok c)
    (hmargin : ReadBack (.float c.safetyMargin)) :
    (∀ e ∈ c.toToml, e.2.Fits) ∧ parse c.text = .ok c ∧ same c c = true := by
  obtain ⟨hsound, hfault⟩ := sound_of_parse h
  have hread : Toml.parse? c.text = some c.toToml := by
    rw [Config.text, toToml_eq]
    exact parse?_render (hsound.readable hmargin)
  refine ⟨fits_of_parse? hread, ?_, same_self hfault⟩
  rw [parse, hread]
  dsimp only
  rw [readEntries_toToml hsound]
  dsimp only
  rw [hfault]

def tunedText : String :=
  "safety_margin = 0.05\n[cache]\nseek_timeout = '1h 750ms'\nsettle = 0.5\n[export]\n" ++
    "clone_timeout = 2\nformat = \"png\"\n"

def tuned : Config :=
  { standard with
    safetyMargin := 0.05
    cache := { CacheConfig.standard with seekTimeout := ⟨3600750000000⟩, settle := .ofMillis 500 }
    exports := { ExportConfig.standard with cloneTimeout := .ofSeconds 2, format := .png } }

theorem parse_reprinted_tuned :
    parse tunedText = .ok tuned ∧ ReadBack (.float tuned.safetyMargin) ∧
      (∀ e ∈ tuned.toToml, e.2.Fits) ∧ parse tuned.text = .ok tuned ∧ same tuned tuned = true := by
  have hparse : parse tunedText = .ok tuned := by decide +kernel
  have hmargin : ReadBack (.float tuned.safetyMargin) :=
    readBack_float (by decide +kernel) (by rfl)
  exact ⟨hparse, hmargin, parse_reprinted hparse hmargin⟩

end Config

/-! ## Durations that are too long -/

/-- A duration that the reader takes for one, but that is longer than any. -/
def Toml.Overlong : Toml → Prop
  | .float x => x.isFinite = true ∧ Decimal.isNegative x = false ∧
      2 ^ 64 ≤ (Decimal.Binary.ofBits x.toBits).value
  | .str s => Duration.Overflows s
  | _ => False

theorem Duration.ofToml_eq_tooLong_iff {v : Toml} :
    ofToml v = .error (.because .tooLong) ↔ v.Overlong := by
  cases v with
  | str s =>
      rw [ofToml, Toml.Overlong, ← parse_eq_tooLong_iff]
      rcases parse s with (_ | _) | _ <;> simp
  | int n =>
      rw [ofToml]
      split <;> exact iff_of_false nofun nofun
  | float x =>
      rw [ofToml, Toml.Overlong, ← ofFloat?_eq_none_iff]
      cases hfinite : x.isFinite <;> cases hnegative : Decimal.isNegative x <;>
        cases hfloat : ofFloat? x <;> simp
  | bool => exact iff_of_false nofun nofun
  | time => exact iff_of_false nofun nofun
  | arr => exact iff_of_false nofun nofun
  | table => exact iff_of_false nofun nofun

namespace Config

variable {σ τ : Type}

/-- A value that a field cannot take because it is an overlong duration. -/
def OverlongFor (names : List String) (f : ConfigField σ) (v : Toml) : Prop :=
  f.name ∈ names ∧ v.Overlong

theorem refuses_duration [Nonempty σ] {names : List String} {name : String}
    (hname : name ∈ names) (set : σ → Duration → σ) (v : Toml) :
    (FieldReader.of name Duration.ofToml set).Refuses v (.because .tooLong) ↔
      OverlongFor names (.of name Duration.ofToml set) v := by
  rw [FieldReader.refuses_of_iff, Duration.ofToml_eq_tooLong_iff]
  exact (and_iff_right hname).symm

theorem refuses_other [Nonempty σ] {names : List String} {name : String}
    (hname : name ∉ names) {r : Toml → Except (Misfit DurationError) τ}
    (hr : ∀ v e, r v ≠ .error (.because e)) (set : σ → τ → σ) (v : Toml) :
    (FieldReader.of name r set).Refuses v (.because .tooLong) ↔
      OverlongFor names (.of name r set) v := by
  rw [FieldReader.refuses_of_iff]
  exact iff_of_false (hr v _) fun h => hname h.1

theorem count_ne_because (bound : Nat) (v : Toml) (e : DurationError) :
    count bound v ≠ .error (.because e) := by
  cases v with
  | int n =>
      rw [count]
      split <;> exact nofun
  | _ => exact nofun

theorem string_ne_because (v : Toml) (e : DurationError) : string v ≠ .error (.because e) := by
  cases v <;> exact nofun

theorem number_ne_because (v : Toml) (e : DurationError) : number v ≠ .error (.because e) := by
  cases v <;> exact nofun

theorem choice_ne_because (options : List (String × τ)) (v : Toml) (e : DurationError) :
    choice options v ≠ .error (.because e) := by
  have hpick (name : String) : choice.pick options name ≠ .error (.because e) := by
    rw [choice.pick]
    split <;> exact nofun
  unfold choice
  split
  · exact hpick _
  · exact hpick _
  · exact hpick _
  · exact nofun

def cacheDurations : List String := ["seek_timeout", "settle"]

def exportDurations : List String := ["seek_timeout", "retry_backoff", "clone_timeout"]

theorem steady_cacheFields : Steady cacheFields :=
  ((((steady_nil.cons _ _ _).cons _ _ _).cons _ _ _).cons _ _ _).cons _ _ _

theorem steady_exportFields : Steady exportFields :=
  ((((((steady_nil.cons _ _ _).cons _ _ _).cons _ _ _).cons _ _ _).cons _ _ _).cons _ _ _).cons
    _ _ _

theorem steady_rendererFields : Steady rendererFields := steady_nil.cons _ _ _

theorem steady_fields : Steady fields :=
  (((steady_nil.cons _ _ _).cons _ _ _).cons _ _ _).cons _ _ _

theorem refuses_cacheFields {f : ConfigField CacheConfig} (hf : f ∈ cacheFields) (v : Toml) :
    f.Refuses v (.because .tooLong) ↔ OverlongFor cacheDurations f v := by
  have : Nonempty CacheConfig := ⟨.standard⟩
  simp only [cacheFields, List.mem_cons, List.not_mem_nil, or_false] at hf
  rcases hf with rfl | rfl | rfl | rfl | rfl
  · exact refuses_other (by decide) (count_ne_because _) _ v
  · exact refuses_other (by decide) (count_ne_because _) _ v
  · exact refuses_other (by decide) (count_ne_because _) _ v
  · exact refuses_duration (by decide) _ v
  · exact refuses_duration (by decide) _ v

theorem refuses_exportFields {f : ConfigField ExportConfig} (hf : f ∈ exportFields) (v : Toml) :
    f.Refuses v (.because .tooLong) ↔ OverlongFor exportDurations f v := by
  have : Nonempty ExportConfig := ⟨.standard⟩
  simp only [exportFields, List.mem_cons, List.not_mem_nil, or_false] at hf
  rcases hf with rfl | rfl | rfl | rfl | rfl | rfl | rfl
  · exact refuses_duration (by decide) _ v
  · exact refuses_other (by decide) (count_ne_because _) _ v
  · exact refuses_duration (by decide) _ v
  · exact refuses_duration (by decide) _ v
  · exact refuses_other (by decide) (count_ne_because _) _ v
  · exact refuses_other (by decide) (choice_ne_because _) _ v
  · exact refuses_other (by decide) string_ne_because _ v

/-- The first misfit of a section is an overlong duration. -/
def OverlongSection (f : ConfigField Config) (v : Toml) : Prop :=
  (f.name = "cache" ∧ FirstMisfit (given cacheFields v) (OverlongFor cacheDurations)) ∨
    (f.name = "export" ∧ FirstMisfit (given exportFields v) (OverlongFor exportDurations))

theorem record_cache_eq_tooLong_iff {v : Toml} :
    record cacheFields .standard v = .error (.because .tooLong) ↔
      FirstMisfit (given cacheFields v) (OverlongFor cacheDurations) :=
  (record_eq_because_iff steady_cacheFields).trans
    (FirstMisfit.congr fun p hp => refuses_cacheFields (mem_of_mem_given hp) p.2)

theorem record_exports_eq_tooLong_iff {v : Toml} :
    record exportFields .standard v = .error (.because .tooLong) ↔
      FirstMisfit (given exportFields v) (OverlongFor exportDurations) :=
  (record_eq_because_iff steady_exportFields).trans
    (FirstMisfit.congr fun p hp => refuses_exportFields (mem_of_mem_given hp) p.2)

theorem record_renderer_ne_tooLong (v : Toml) :
    record rendererFields standardPool v ≠ .error (.because .tooLong) := by
  rw [ne_eq, record_eq_because_iff steady_rendererFields]
  rintro ⟨before, f, w, after, hgiven, -, hrefuses⟩
  have hf : f ∈ rendererFields :=
    mem_of_mem_given (hgiven ▸ List.mem_append_right before List.mem_cons_self)
  obtain rfl := List.mem_singleton.mp hf
  exact count_ne_because _ w _ (FieldReader.refuses_of_iff.mp hrefuses)

theorem refuses_fields {f : ConfigField Config} (hf : f ∈ fields) (v : Toml) :
    f.Refuses v (.because .tooLong) ↔ OverlongSection f v := by
  have : Nonempty Config := ⟨standard⟩
  simp only [fields, List.mem_cons, List.not_mem_nil, or_false] at hf
  rcases hf with rfl | rfl | rfl | rfl <;> rw [FieldReader.refuses_of_iff, OverlongSection]
  · refine iff_of_false (number_ne_because v _) ?_
    simp [FieldReader.of]
  · rw [record_cache_eq_tooLong_iff]
    simp [FieldReader.of]
  · rw [record_exports_eq_tooLong_iff]
    simp [FieldReader.of]
  · refine iff_of_false (record_renderer_ne_tooLong v) ?_
    simp [FieldReader.of]

/-- What is read of a document stops at a duration that is longer than any. -/
def Overlong (es : List (String × Toml)) : Prop :=
  FirstMisfit (given fields (.table es)) OverlongSection

theorem parse_eq_tooLong_iff {text : String} :
    parse text = .error (.duration .tooLong) ↔
      ∃ es, Toml.parse? text = some es ∧ Overlong es := by
  have hread {es : List (String × Toml)} :
      readEntries fields standard es = .error (.because .tooLong) ↔ Overlong es :=
    (readEntries_eq_error_iff steady_fields).trans
      (FirstMisfit.congr fun p hp => refuses_fields (mem_of_mem_given hp) p.2)
  rw [parse]
  cases Toml.parse? text with
  | none => exact iff_of_false nofun (by simp)
  | some es =>
      simp only [Option.some.injEq, exists_eq_left', ← hread]
      cases readEntries fields standard es with
      | error e => cases e <;> simp
      | ok c =>
          refine iff_of_false ?_ nofun
          dsimp only
          split <;> exact nofun

/-- Every value that is given as a duration is read as one or refused, and every text is read as a
configuration without fault or refused, except where a duration is longer than any: a float of at
least `2^64` seconds, or spans that make up so much by their nanoseconds. That breaks the reading
down if nothing before it was refused. -/
theorem parse_answers_iff (text : String) :
    (∀ v : Toml, ((∃ d, Duration.ofToml v = .ok d) ∨
      ∃ e, Duration.ofToml v = .error e ∧ e ≠ .because .tooLong) ↔ ¬v.Overlong) ∧
    (((∃ c, parse text = .ok c ∧ c.fault? = none) ∨
      ∃ e, parse text = .error e ∧ e ≠ .duration .tooLong) ↔
      ¬∃ es, Toml.parse? text = some es ∧ Overlong es) := by
  refine ⟨fun v => ?_, ?_⟩
  · rw [← Duration.ofToml_eq_tooLong_iff]
    cases Duration.ofToml v <;> simp
  · rw [← parse_eq_tooLong_iff]
    cases hparse : parse text with
    | ok c => simp [(sound_of_parse hparse).2]
    | error e => simp

/-- More seconds than a word has are neither a duration nor an error. -/
theorem parse_breakdown :
    parse "[cache]\nsettle = 1e20\n" = .error (.duration .tooLong) := by
  decide +kernel

end Config

end Segue
