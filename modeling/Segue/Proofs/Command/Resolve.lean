import Segue.Command.Resolve
import Segue.Proofs.Disk
import Segue.Proofs.Settings.Saved

/-!
# Settings that are used again

The settings of a command, kept with the frames of an export, give these settings again when they
are named in a later command, unless a uniform was set under the name of a field.
-/

namespace Segue.Command

open Settings (Sound Free fieldNames)

/-! ## What the command line changes -/

theorem fits_entryOf (v : UniformValue Float) : Json.Fits (Json.maxNesting - 1) (Settings.entryOf v) := by
  have hnumber (d : Nat) (x : Float) : Json.Fits d (Json.ofNumber x) := by
    unfold Json.ofNumber
    split
    · exact .float d ‹_›
    · exact .null d
  cases v with
  | flag b => exact .bool _ b
  | scalar x => exact hnumber _ x
  | vector xs =>
      refine .arr fun j hj => ?_
      obtain ⟨x, -, rfl⟩ := List.mem_map.mp hj
      exact hnumber _ x

theorem sound_setUniforms {s : Settings Float} (h : s.Sound)
    (uniforms : List (String × UniformValue Float)) :
    (uniforms.foldl (fun s (name, v) => s.setUniform name v) s).Sound := by
  induction uniforms generalizing s with
  | nil => exact h
  | cons u uniforms ih => exact ih (h.setEntry u.1 (fits_entryOf u.2))

theorem mem_keys_setUniforms {s : Settings Float} {uniforms : List (String × UniformValue Float)}
    {name : String} :
    name ∈ (uniforms.foldl (fun s (name, v) => s.setUniform name v) s).extra.keys ↔
      name ∈ s.extra.keys ∨ ∃ u ∈ uniforms, u.1 = name := by
  induction uniforms generalizing s with
  | nil => simp
  | cons u uniforms ih =>
      have hset : name ∈ (s.setUniform u.1 u.2).extra.keys ↔ name = u.1 ∨ name ∈ s.extra.keys :=
        Keyed.mem_keys_insert
      rw [List.foldl_cons, ih, hset, List.exists_mem_cons_iff, or_assoc, or_left_comm,
        @eq_comm _ name u.1]

theorem pointFinite_curve (f : Flavor) :
    Settings.PointFinite (some (f.curve : Curve Float).p0) ∧
      Settings.PointFinite (some (f.curve : Curve Float).c0) ∧
      Settings.PointFinite (some (f.curve : Curve Float).c1) ∧
      Settings.PointFinite (some (f.curve : Curve Float).p1) := by
  unfold Settings.PointFinite
  cases f <;> decide +kernel

theorem sound_apply (o : Overrides) {s : Settings Float} (h : s.Sound) : (o.apply s).Sound := by
  refine sound_setUniforms ?_ o.uniforms
  cases o.flavor? with
  | none => exact h.of_eq rfl rfl rfl rfl rfl
  | some f =>
      obtain ⟨hp0, hc0, hc1, hp1⟩ := pointFinite_curve f
      exact ⟨h.sorted, h.fits, hp0, hc0, hc1, hp1⟩

@[simp] theorem mem_keys_apply {o : Overrides} {s : Settings Float} {name : String} :
    name ∈ (o.apply s).extra.keys ↔ name ∈ s.extra.keys ∨ ∃ u ∈ o.uniforms, u.1 = name := by
  refine mem_keys_setUniforms.trans ?_
  cases o.flavor? <;> exact Iff.rfl

theorem free_iff {s : Settings Float} :
    s.Free ↔ ∀ name ∈ s.extra.keys, name ∉ fieldNames Float := by
  simp [Settings.Free, Keyed.keys]

/-- The settings stay free of field names as long as no uniform has one. -/
theorem free_apply {o : Overrides} {s : Settings Float} (h : s.Free) :
    (o.apply s).Free ↔ ∀ u ∈ o.uniforms, u.1 ∉ fieldNames Float := by
  rw [free_iff] at h ⊢
  constructor
  · exact fun hfree u hu => hfree u.1 (mem_keys_apply.mpr (Or.inr ⟨u, hu, rfl⟩))
  · intro huniforms name hname
    rcases mem_keys_apply.mp hname with hname | ⟨u, hu, rfl⟩
    · exact h name hname
    · exact huniforms u hu

/-! ## Files of settings -/

def Overrides.source (o : Overrides) (d : Disk) : Except Failure (Settings Float) :=
  match o.settings? with
  | none => .ok .standard
  | some path =>
    match d.read? path >>= Content.text? with
    | none => .error (.settings path (.unreadable path))
    | some text => (Settings.parseFile text).mapError fun e => .settings path (.refused e)

section

variable {σ : Type} [FileSystem (StateM σ)] {st : σ} {d : Disk}
  (hread : ∀ p, (FileSystem.read? p : StateM σ (Option Content)).run st = (d.read? p, st))

include hread

theorem run_load (path : String) :
    (Settings.load path : StateM σ (Except Settings.LoadError (Settings Float))).run st =
      ((match d.read? path >>= Content.text? with
        | none => .error (.unreadable path)
        | some text => (Settings.parseFile text).mapError .refused), st) := by
  have htext : (readText? path : StateM σ (Option String)).run st =
      (d.read? path >>= Content.text?, st) := by
    rw [readText?, StateT.run_bind, hread]
    rfl
  rw [Settings.load, StateT.run_bind, htext]
  cases d.read? path >>= Content.text? <;> rfl

theorem run_base (o : Overrides) :
    (o.base : ExceptT Failure (StateM σ) (Settings Float)).run.run st = (o.source d, st) := by
  unfold Overrides.base Overrides.source
  cases o.settings? with
  | none => rfl
  | some path =>
      have hload := run_load hread path
      dsimp only
      rw [ExceptT.run_bind, ExceptT.run_monadLift, StateT.run_bind, StateT.run_map, monadLift_self,
        hload]
      cases d.read? path >>= Content.text? with
      | none => rfl
      | some text =>
          dsimp only
          cases (Settings.parseFile text : Except Json.Refusal (Settings Float)) <;> rfl

/-- Settings are resolved wherever files are read as from a disk. -/
theorem run_resolve_of_read (o : Overrides) :
    (o.resolve : ExceptT Failure (StateM σ) (Settings Float)).run.run st =
      ((o.source d).map fun s => (o.apply s).sanitized, st) := by
  have hbase := run_base hread o
  rw [Overrides.resolve, ExceptT.run_bind, StateT.run_bind, hbase]
  cases o.source d <;> rfl

end

theorem run_resolve (o : Overrides) (d : Disk) :
    (o.resolve : ExceptT Failure (StateM Disk) (Settings Float)).run.run d =
      ((o.source d).map fun s => (o.apply s).sanitized, d) :=
  run_resolve_of_read (fun _ => rfl) o

theorem sound_source {o : Overrides} {d : Disk} {s : Settings Float} (h : o.source d = .ok s) :
    s.Sound ∧ s.Free := by
  unfold Overrides.source at h
  split at h
  · cases h
    exact ⟨Settings.sound_standard, Settings.free_standard⟩
  · split at h
    · cases h
    · rename_i text _
      cases hparse : (Settings.parseFile text : Except Json.Refusal (Settings Float)) with
      | error e =>
          rw [hparse] at h
          cases h
      | ok t =>
          rw [hparse] at h
          cases h
          exact Settings.sound_of_parseFile hparse

/-! ## Settings that were kept -/

@[simp] theorem text?_ofText (s : String) : (Content.ofText s).text? = some s := by
  rw [Content.ofText, Content.text?, String.toUTF8_eq_toByteArray]
  exact dif_pos s.isValidUTF8

theorem not_allBlank_text (s : Settings Float) : Text.allBlank s.text = false := by
  have htext : s.text.toList.head? = some '\x7b' := by
    rw [Settings.text, Json.render, String.toList_ofList, Settings.toJson_eq, Json.write_obj]
    rfl
  obtain ⟨rest, hcons⟩ := List.head?_eq_some_iff.mp htext
  rw [Text.allBlank, hcons]
  rfl

/-- A command that only names a file changes nothing. -/
theorem apply_settings (path : String) (s : Settings Float) :
    Overrides.apply { settings? := some path } s = s := by
  simp [Overrides.apply]

/-- What a command that names a file of kept settings starts from. -/
theorem source_saved {d : Disk} {path : String} {s : Settings Float}
    (h : d.read? path = some (.ofText s.text)) :
    Overrides.source { settings? := some path } d =
      (Settings.parse s.text).mapError fun e => .settings path (.refused e) := by
  have htext : d.read? path >>= Content.text? = some s.text := by
    rw [h, Option.bind_eq_bind, Option.bind_some, text?_ofText]
  have hparse : Settings.parseFile (α := Float) s.text = Settings.parse s.text := by
    rw [Settings.parseFile, not_allBlank_text]
    rfl
  unfold Overrides.source
  dsimp only
  rw [htext]
  dsimp only
  rw [hparse]

/-- Kept settings that come back are free of the names of fields. -/
theorem free_of_resolve {d d' : Disk} {path : String} {s : Settings Float}
    (hfile : d.read? path = some (.ofText s.text))
    (h : (Overrides.resolve { settings? := some path } :
      ExceptT Failure (StateM Disk) (Settings Float)).run.run d = (.ok s, d')) : s.Free := by
  rw [run_resolve, source_saved hfile] at h
  have hreload := (Prod.mk.inj h).1
  cases hparse : (Settings.parse s.text : Except Json.Refusal (Settings Float)) with
  | error e =>
      rw [hparse] at hreload
      cases hreload
  | ok t =>
      rw [hparse] at hreload
      have heq : (Overrides.apply { settings? := some path } t).sanitized = s :=
        Except.ok.inj hreload
      rw [apply_settings] at heq
      have hextra : s.extra = t.extra := by
        rw [← heq]
        rfl
      intro e he
      exact (Settings.sound_of_parse hparse).2 e (hextra ▸ he)

theorem resolve_of_storable {d : Disk} {path : String} {s : Settings Float}
    (hfile : d.read? path = some (.ofText s.text)) (hstorable : s.Storable)
    (hread : ∀ x ∈ s.toJson.numbers, Scalar.isFinite x = true → Json.ReadsBack x)
    (hsame : s.sanitized = s) :
    (Overrides.resolve { settings? := some path } :
      ExceptT Failure (StateM Disk) (Settings Float)).run.run d = (.ok s, d) := by
  have hprinted := Settings.isRead_settings hstorable fun x hx =>
    hread x hx (hstorable.finite x hx)
  have hparse : Settings.parse s.text = .ok s := Json.readAll_ofList hprinted
  rw [run_resolve, source_saved hfile, hparse]
  simp only [Except.mapError, Except.map, apply_settings, hsame]

theorem sanitized_frames (s : Settings Float) (frames : Option (List FrameRef)) :
    { s.sanitized with frames := frames }.sanitized = { s.sanitized with frames := frames } := by
  have husable := s.usable_sanitized
  have hkept : { s.sanitized with frames := frames }.Usable := { husable with }
  exact hkept.sanitized_eq

/-- The settings of a command, kept with some frames, are the settings of a later command that only
names their file, exactly if no uniform was set under the name of a field. -/
theorem resolve_saved {o : Overrides} {d d₁ d₂ : Disk} {s t : Settings Float}
    (hresolve : (o.resolve : ExceptT Failure (StateM Disk) (Settings Float)).run.run d = (.ok s, d₁))
    {frames : List FrameRef} (ht : t = { s with frames := some frames })
    (hread : ∀ x ∈ t.toJson.numbers, Scalar.isFinite x = true → Json.ReadsBack x) {path : String}
    (hfile : d₂.read? path = some (.ofText t.text)) :
    (Overrides.resolve { settings? := some path } :
        ExceptT Failure (StateM Disk) (Settings Float)).run.run d₂ = (.ok t, d₂) ↔
      ∀ u ∈ o.uniforms, u.1 ∉ fieldNames Float := by
  rw [run_resolve] at hresolve
  have happly := (Prod.mk.inj hresolve).1
  cases hsource : o.source d with
  | error e =>
      rw [hsource] at happly
      cases happly
  | ok base =>
      rw [hsource] at happly
      obtain rfl : (o.apply base).sanitized = s := Except.ok.inj happly
      obtain ⟨hsound, hfree⟩ := sound_source hsource
      rw [← free_apply hfree]
      constructor
      · intro hagain
        have hextra : t.extra = (o.apply base).extra := by
          rw [ht]
          rfl
        intro e he
        exact free_of_resolve hfile hagain e (hextra ▸ he)
      · intro hfreeApply
        have hstorable : t.Storable :=
          ht ▸ Settings.storable_sanitized (sound_apply o hsound) hfreeApply (some frames)
        have hsame : t.sanitized = t := ht ▸ sanitized_frames (o.apply base) (some frames)
        exact resolve_of_storable hfile hstorable hread hsame

/-- A disk with nothing but kept settings. -/
def diskOf (s : Settings Float) : Disk := ⟨[("saved.json", .file (.ofText s.text))], []⟩

theorem read?_diskOf (s : Settings Float) :
    (diskOf s).read? "saved.json" = some (.ofText s.text) := by
  have hname : Disk.IsFileName "saved.json" := by decide +kernel
  rw [Disk.read?, hname.node?_eq rfl]
  rfl

theorem run_resolve_alone {o : Overrides} (h : o.settings? = none) (d : Disk) :
    (o.resolve : ExceptT Failure (StateM Disk) (Settings Float)).run.run d =
      (.ok (o.apply .standard).sanitized, d) := by
  have hsource : o.source d = .ok .standard := by rw [Overrides.source, h]
  rw [run_resolve, hsource, Except.map]

def glowing : Overrides := { duration? := some 3.5, uniforms := [("uGlow", .scalar 0.5)] }

def glowingSettings : Settings Float :=
  { (glowing.apply .standard).sanitized with frames := some [⟨"a.png", "", "temp"⟩] }

theorem resolve_glowing :
    (Overrides.resolve { settings? := some "saved.json" } :
        ExceptT Failure (StateM Disk) (Settings Float)).run.run (diskOf glowingSettings) =
      (.ok glowingSettings, diskOf glowingSettings) := by
  have hnumbers : glowingSettings.toJson.numbers = [3.5, 1.0, 0.0, 0.0, 0.5] := by decide +kernel
  have hread : ∀ x ∈ glowingSettings.toJson.numbers, Scalar.isFinite x = true →
      Json.ReadsBack x := by
    rw [hnumbers]
    decide +kernel
  have hsame : glowingSettings =
      { (glowing.apply .standard).sanitized with frames := some [⟨"a.png", "", "temp"⟩] } := by
    rw [glowingSettings]
  have hnames : ∀ u ∈ glowing.uniforms, u.1 ∉ fieldNames Float := by decide +kernel
  exact (resolve_saved (run_resolve_alone rfl ⟨[], []⟩) hsame hread (read?_diskOf _)).mpr hnames

def misnamed : Overrides := { uniforms := [("engine", .scalar 1.0)] }

def misnamedSettings : Settings Float :=
  { (misnamed.apply .standard).sanitized with frames := some [] }

/-- A uniform with the name of a field is accepted, and the settings that were kept with it do not
come back. -/
theorem misnamed_lost :
    parseOverride "engine=1" = .ok ("engine", .scalar 1.0) ∧
      (misnamed.resolve : ExceptT Failure (StateM Disk) (Settings Float)).run.run ⟨[], []⟩ =
        (.ok (misnamed.apply .standard).sanitized, ⟨[], []⟩) ∧
      (∀ x ∈ misnamedSettings.toJson.numbers, Json.ReadsBack x) ∧
      ∀ d, (Overrides.resolve { settings? := some "saved.json" } :
          ExceptT Failure (StateM Disk) (Settings Float)).run.run (diskOf misnamedSettings) ≠
        (.ok misnamedSettings, d) := by
  have hnumbers : misnamedSettings.toJson.numbers = [2.0, 1.0, 0.0, 0.0, 1.0] := by decide +kernel
  have hengine : ¬misnamedSettings.Free := by
    rw [free_iff]
    decide +kernel
  have hvalue : parseValue (Text.trimChars ['1']) = .ok (.scalar 1.0) := by
    have htrim : Text.trimChars ['1'] = ['1'] := by decide +kernel
    have hnumber : Decimal.read? (String.ofList ['1']) = some 1.0 := by decide +kernel
    rw [htrim, parseValue, if_neg (by decide +kernel), if_neg (by decide +kernel),
      if_neg (by decide +kernel), hnumber]
  refine ⟨?_, run_resolve_alone rfl ⟨[], []⟩, ?_, ?_⟩
  · have hsplit : Text.splitOnce? '=' "engine=1".toList = some ("engine".toList, ['1']) := by
      decide +kernel
    have hname : Text.trimChars "engine".toList = "engine".toList := by decide +kernel
    rw [parseOverride, hsplit]
    dsimp only
    rw [hname, if_neg (by decide +kernel), hvalue, String.ofList_toList]
    rfl
  · rw [hnumbers]
    decide +kernel
  · exact fun d hagain => hengine (free_of_resolve (read?_diskOf _) hagain)

end Segue.Command
