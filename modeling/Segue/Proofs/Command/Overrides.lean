import Segue.Proofs.Command.Resolve
import Segue.Proofs.Registry
import Segue.Proofs.Text

/-!
# What a command line settles

A value that the command line gives decides over the file and the flavor, but for the name of an
easing, which a complete curve hides. A uniform that is set reaches the shader, unless its name is
kept from shaders.
-/

namespace Segue.Command

open Registry (lastFor lastFor_concat)
open Settings (standard orStandard clampOr)

/-! ## Values that are given -/

theorem setUniforms_eq (s : Settings Float) (uniforms : List (String × UniformValue Float)) :
    uniforms.foldl (fun s (name, v) => s.setUniform name v) s =
      { s with
        extra := uniforms.foldl (fun t (name, v) => Keyed.insert name (Settings.entryOf v) t)
          s.extra } := by
  induction uniforms generalizing s with
  | nil => rfl
  | cons u uniforms ih => exact ih (s.setUniform u.1 u.2)

theorem exists_source {o : Overrides} {d d₁ : Disk} {s : Settings Float}
    (h : (o.resolve : ExceptT Failure (StateM Disk) (Settings Float)).run.run d = (.ok s, d₁)) :
    ∃ base, o.source d = .ok base ∧ (o.apply base).sanitized = s := by
  rw [run_resolve] at h
  have hresult := (Prod.mk.inj h).1
  cases hsource : o.source d with
  | error e =>
      rw [hsource] at hresult
      cases hresult
  | ok base =>
      rw [hsource] at hresult
      exact ⟨base, rfl, Except.ok.inj hresult⟩

/-- Every value that is given stands in the settings, made usable. -/
structure Overrides.Heeded (o : Overrides) (s : Settings Float) : Prop where
  engine : ∀ x, o.engine? = some x → s.engine = orStandard Settings.standardEngine x
  variant : ∀ x, o.variant? = some x → s.variant = orStandard Settings.standardVariant x
  duration : ∀ x, o.duration? = some x →
    s.duration = clampOr x 0.1 10.0 Settings.standardDuration
  intensity : ∀ x, o.intensity? = some x →
    s.intensity = clampOr x 0.0 2.0 Settings.standardIntensity
  easing : ∀ x, o.easing? = some x → s.easing = orStandard Settings.standardEasing x
  startA : ∀ x, o.startA? = some x → s.startA = clampOr x (-600.0) 600.0 0.0
  startB : ∀ x, o.startB? = some x → s.startB = clampOr x (-600.0) 600.0 0.0

theorem heeded_apply (o : Overrides) (base : Settings Float) :
    o.Heeded (o.apply base).sanitized := by
  unfold Overrides.apply
  rw [setUniforms_eq]
  constructor <;> intro x hx <;> simp only [Settings.sanitized, hx, Option.getD_some]

def Overrides.curve? (o : Overrides) (d : Disk) : Option (Curve Float) :=
  match o.flavor? with
  | some f => some f.curve
  | none => (o.source d).toOption.bind Settings.curve?

theorem curve?_apply {o : Overrides} {d : Disk} {base : Settings Float}
    (h : o.source d = .ok base) : (o.apply base).sanitized.curve? = o.curve? d := by
  unfold Overrides.apply Overrides.curve?
  rw [setUniforms_eq, h]
  cases o.flavor? with
  | none => rfl
  -- the curve of a flavor is pinned already
  | some f => cases f <;> rfl

theorem easingSelection_eq_iff {s s' : Settings Float} (h : s.easing = s'.easing) :
    s.easingSelection = s'.easingSelection ↔ s.curve? = s'.curve? := by
  unfold Settings.easingSelection
  rw [h]
  cases s.curve? <;> cases s'.curve? <;> simp

/-- Two commands that give the same value agree on what the pipeline reads for it, whatever their
files and flavors are. On the easing they agree exactly if the same curve, or none, is in force. -/
theorem explicit_agree {o o' : Overrides} {d d₁ d' d₁' : Disk} {s s' : Settings Float}
    (h : (o.resolve : ExceptT Failure (StateM Disk) (Settings Float)).run.run d = (.ok s, d₁))
    (h' : (o'.resolve : ExceptT Failure (StateM Disk) (Settings Float)).run.run d' =
      (.ok s', d₁')) :
    (∀ x, o.engine? = some x → o'.engine? = some x →
      s.shaderKey.engine = s'.shaderKey.engine) ∧
    (∀ x, o.variant? = some x → o'.variant? = some x →
      s.shaderKey.variant = s'.shaderKey.variant) ∧
    (∀ x, o.duration? = some x → o'.duration? = some x → s.duration = s'.duration) ∧
    (∀ x, o.intensity? = some x → o'.intensity? = some x → s.intensity = s'.intensity) ∧
    (∀ x, o.startA? = some x → o'.startA? = some x → s.startA = s'.startA) ∧
    (∀ x, o.startB? = some x → o'.startB? = some x → s.startB = s'.startB) ∧
    (∀ x, o.easing? = some x → o'.easing? = some x →
      (s.easingSelection = s'.easingSelection ↔ o.curve? d = o'.curve? d')) := by
  obtain ⟨base, hsource, rfl⟩ := exists_source h
  obtain ⟨base', hsource', rfl⟩ := exists_source h'
  have hs := heeded_apply o base
  have hs' := heeded_apply o' base'
  refine ⟨fun x hx hx' => (hs.engine x hx).trans (hs'.engine x hx').symm,
    fun x hx hx' => (hs.variant x hx).trans (hs'.variant x hx').symm,
    fun x hx hx' => (hs.duration x hx).trans (hs'.duration x hx').symm,
    fun x hx hx' => (hs.intensity x hx).trans (hs'.intensity x hx').symm,
    fun x hx hx' => (hs.startA x hx).trans (hs'.startA x hx').symm,
    fun x hx hx' => (hs.startB x hx).trans (hs'.startB x hx').symm, fun x hx hx' => ?_⟩
  rw [easingSelection_eq_iff ((hs.easing x hx).trans (hs'.easing x hx').symm),
    curve?_apply hsource, curve?_apply hsource']

def outspoken : Overrides :=
  { engine? := some "Wipe", variant? := some "left", duration? := some 3.0, intensity? := some 0.5
    easing? := some "easeInQuad", startA? := some 1.0, startB? := some (-1.0) }

def outspokenPunchy : Overrides := { outspoken with flavor? := some .punchy }

theorem explicit_agree_outspoken :
    (outspoken.apply standard).sanitized.intensity =
        (outspokenPunchy.apply standard).sanitized.intensity ∧
      ((outspoken.apply standard).sanitized.easingSelection =
          (outspokenPunchy.apply standard).sanitized.easingSelection ↔
        outspoken.curve? ⟨[], []⟩ = outspokenPunchy.curve? ⟨[], []⟩) := by
  have hresolve := run_resolve_alone (o := outspoken) rfl ⟨[], []⟩
  have hpunchy := run_resolve_alone (o := outspokenPunchy) rfl ⟨[], []⟩
  obtain ⟨-, -, -, hintensity, -, -, heasing⟩ := explicit_agree hresolve hpunchy
  exact ⟨hintensity 0.5 rfl rfl, heasing "easeInQuad" rfl rfl⟩

/-- The flavor hides the easing that is given with it. -/
theorem flavor_hides_easing :
    outspoken.easing? = outspokenPunchy.easing? ∧ outspoken.easing?.isSome = true ∧
      (outspoken.resolve : ExceptT Failure (StateM Disk) (Settings Float)).run.run ⟨[], []⟩ =
        (.ok (outspoken.apply standard).sanitized, ⟨[], []⟩) ∧
      (outspokenPunchy.resolve : ExceptT Failure (StateM Disk) (Settings Float)).run.run ⟨[], []⟩ =
        (.ok (outspokenPunchy.apply standard).sanitized, ⟨[], []⟩) ∧
      (outspoken.apply standard).sanitized.easingSelection ≠
        (outspokenPunchy.apply standard).sanitized.easingSelection := by
  refine ⟨rfl, rfl, run_resolve_alone rfl _, run_resolve_alone rfl _, fun h => ?_⟩
  have heasing := (heeded_apply outspoken standard).easing "easeInQuad" rfl
  have heasing' := (heeded_apply outspokenPunchy standard).easing "easeInQuad" rfl
  rw [easingSelection_eq_iff (heasing.trans heasing'.symm), curve?_apply (d := ⟨[], []⟩) rfl,
    curve?_apply (d := ⟨[], []⟩) rfl] at h
  cases h

/-! ## Uniforms that are set -/

def numbersOf : UniformValue Float → List Float
  | .flag _ => []
  | .scalar x => [x]
  | .vector xs => xs

theorem mapM_asNumber? {xs : List Float} (h : ∀ x ∈ xs, Scalar.isFinite x = true) :
    (xs.map Json.ofNumber).mapM Json.asNumber? = some xs := by
  induction xs with
  | nil => rfl
  | cons x xs ih =>
      obtain ⟨hx, hxs⟩ := List.forall_mem_cons.mp h
      rw [List.map_cons, List.mapM_cons, ih hxs, Json.ofNumber, if_pos hx]
      rfl

theorem uniformOf?_entryOf {v : UniformValue Float} (hempty : v ≠ .vector [])
    (hfinite : ∀ x ∈ numbersOf v, Scalar.isFinite x = true) :
    Settings.uniformOf? (Settings.entryOf v) = some v := by
  cases v with
  | flag b => rfl
  | scalar x =>
      have hx : Scalar.isFinite x = true := hfinite x List.mem_cons_self
      rw [Settings.entryOf, Json.ofNumber, if_pos hx]
      rfl
  | vector xs =>
      cases xs with
      | nil => exact absurd rfl hempty
      | cons x xs =>
          have hread : (Json.ofNumber x :: xs.map Json.ofNumber).mapM Json.asNumber? =
              some (x :: xs) := mapM_asNumber? hfinite
          rw [Settings.entryOf, List.map_cons, Settings.uniformOf?, hread]
          · rfl
          · nofun

theorem ne_nil_of_mapM {β γ : Type} {f : β → Option γ} {xs : List β} {ys : List γ}
    (h : xs.mapM f = some ys) (hne : xs ≠ []) : ys ≠ [] := by
  obtain ⟨x, xs, rfl⟩ := List.exists_cons_of_ne_nil hne
  rw [List.mapM_cons] at h
  obtain ⟨y, -, h⟩ := Option.bind_eq_some_iff.mp h
  obtain ⟨ys, -, h⟩ := Option.bind_eq_some_iff.mp h
  cases h
  exact List.cons_ne_nil y ys

theorem parseVector_ne_empty {raw : List Char} {v : UniformValue Float}
    (h : parseVector raw = .ok v) : v ≠ .vector [] := by
  have hparts : Text.splitChars (· = ',') raw ≠ [] := by
    apply List.ne_nil_of_length_pos
    rw [Text.length_splitChars]
    exact Nat.succ_pos _
  unfold parseVector at h
  dsimp only at h
  split at h
  · cases h
  · rename_i xs hxs
    split at h
    · cases h
    · cases h
      intro hempty
      exact ne_nil_of_mapM hxs (mt List.map_eq_nil_iff.mp hparts) (UniformValue.vector.inj hempty)

theorem parseValue_ne_empty {raw : List Char} {v : UniformValue Float}
    (h : parseValue raw = .ok v) : v ≠ .vector [] := by
  unfold parseValue at h
  dsimp only at h
  split at h
  · cases h
    nofun
  · split at h
    · cases h
      nofun
    · split at h
      · exact parseVector_ne_empty h
      · split at h
        · cases h
          nofun
        · cases h

theorem parseOverride_ne_empty {text : String} {u : String × UniformValue Float}
    (h : parseOverride text = .ok u) : u.2 ≠ .vector [] := by
  unfold parseOverride at h
  split at h
  · cases h
  · dsimp only at h
    split at h
    · cases h
    · rename_i raw _ _
      cases hvalue : parseValue (Text.trimChars raw) with
      | error e =>
          rw [hvalue] at h
          cases h
      | ok w =>
          rw [hvalue] at h
          cases h
          exact parseValue_ne_empty hvalue

theorem exists_text {texts : List String} {given : List (String × UniformValue Float)}
    (h : texts.mapM parseOverride = .ok given) {u : String × UniformValue Float} (hu : u ∈ given) :
    ∃ text ∈ texts, parseOverride text = .ok u := by
  induction texts generalizing given with
  | nil =>
      cases h
      cases hu
  | cons text texts ih =>
      rw [List.mapM_cons] at h
      obtain ⟨w, hw, h⟩ := bind_eq_ok.mp h
      obtain ⟨rest, hrest, h⟩ := bind_eq_ok.mp h
      cases h
      rcases List.mem_cons.mp hu with rfl | hu
      · exact ⟨text, List.mem_cons_self, hw⟩
      · obtain ⟨text', hmem, hparse⟩ := ih hrest hu
        exact ⟨text', List.mem_cons_of_mem _ hmem, hparse⟩

/-! ## Uniforms that are drawn with -/

theorem get?_setUniforms (name : String) (uniforms : List (String × UniformValue Float))
    (t : Keyed (Json Float)) :
    Keyed.get? name
        (uniforms.foldl (fun t (name, v) => Keyed.insert name (Settings.entryOf v) t) t) =
      ((lastFor name uniforms).map Settings.entryOf).or (Keyed.get? name t) := by
  -- from the end, as the value that is set last goes on top
  induction uniforms using List.reverseRecOn with
  | nil => rfl
  | append_singleton uniforms u ih =>
      obtain ⟨name', v⟩ := u
      rw [List.foldl_append, List.foldl_cons, List.foldl_nil, Keyed.get?_insert, ih,
        lastFor_concat]
      by_cases h : name = name'
      · rw [if_pos h, if_pos h.symm]
        rfl
      · rw [if_neg h, if_neg (Ne.symm h)]

theorem extra_apply (o : Overrides) (base : Settings Float) (name : String) :
    Keyed.get? name (o.apply base).sanitized.extra =
      ((lastFor name o.uniforms).map Settings.entryOf).or (Keyed.get? name base.extra) := by
  unfold Overrides.apply
  rw [setUniforms_eq, ← get?_setUniforms]
  cases o.flavor? <;> rfl

/-- An extra entry as a uniform, if its name is not kept from shaders. -/
def shown (name : String) (j : Json Float) : Option (UniformValue Float) :=
  if name ∈ Settings.hostKeys then none else Settings.uniformOf? j

theorem liveUniforms_eq (s : Settings Float) : s.liveUniforms =
    s.extra.filterMap fun e => (shown e.1 e.2).map fun v => (e.1, v) := by
  unfold Settings.liveUniforms
  refine congrArg (fun f => List.filterMap f s.extra) (funext fun e => ?_)
  obtain ⟨name, j⟩ := e
  by_cases h : name ∈ Settings.hostKeys <;> simp [shown, h]

/-- What is drawn with, by name: the entry of that name, or else the default. -/
theorem get?_drawn {s : Settings Float} (h : Keyed.Sorted s.extra) (defaults : Uniforms Float)
    (name : String) :
    Keyed.get? name (Uniforms.merge defaults s.liveUniforms) =
      ((Keyed.get? name s.extra).bind (shown name)).or (Keyed.get? name defaults) := by
  rw [liveUniforms_eq, Uniforms.merge,
    Keyed.get?_merge name defaults (Keyed.sorted_filterMap shown h).nodup_keys,
    Keyed.get?_filterMap shown name h.nodup_keys]

/-- For every name that shaders may see, what is drawn with is what was set last, or else what the
file has, or else the default; other names keep their defaults. -/
theorem uniforms_drawn {o : Overrides} {d d₁ : Disk} {s base : Settings Float}
    {texts : List String} (hgiven : texts.mapM parseOverride = .ok o.uniforms)
    (hresolve :
      (o.resolve : ExceptT Failure (StateM Disk) (Settings Float)).run.run d = (.ok s, d₁))
    (hbase : o.source d = .ok base) (r : Registry Float) (name : String) :
    (name ∈ Settings.hostKeys →
      Keyed.get? name (Uniforms.merge (r.uniforms s.shaderKey) s.liveUniforms) =
        Keyed.get? name (r.uniforms s.shaderKey)) ∧
    (name ∉ Settings.hostKeys →
      (∀ v, lastFor name o.uniforms = some v →
        (∀ x ∈ numbersOf v, Scalar.isFinite x = true) →
        Keyed.get? name (Uniforms.merge (r.uniforms s.shaderKey) s.liveUniforms) = some v) ∧
      (lastFor name o.uniforms = none →
        Keyed.get? name (Uniforms.merge (r.uniforms s.shaderKey) s.liveUniforms) =
          ((Keyed.get? name base.extra).bind Settings.uniformOf?).or
            (Keyed.get? name (r.uniforms s.shaderKey)))) := by
  obtain ⟨base', hsource, hs⟩ := exists_source hresolve
  obtain rfl : base' = base := Except.ok.inj (hsource.symm.trans hbase)
  have hsorted : Keyed.Sorted s.extra := hs ▸ (sound_apply o (sound_source hbase).1).sorted
  have hextra : Keyed.get? name s.extra = _ := hs ▸ extra_apply o base' name
  have hdrawn := get?_drawn hsorted (r.uniforms s.shaderKey) name
  refine ⟨fun hhost => ?_, fun hseen => ⟨fun v hlast hfinite => ?_, fun hlast => ?_⟩⟩
  · have hnone : (Keyed.get? name s.extra).bind (shown name) = none := by
      cases Keyed.get? name s.extra <;> simp [shown, hhost]
    rw [hdrawn, hnone, Option.none_or]
  · obtain ⟨text, -, htext⟩ := exists_text hgiven (Registry.mem_of_lastFor hlast)
    rw [hdrawn, hextra, hlast, Option.map_some, Option.some_or, Option.bind_some, shown,
      if_neg hseen, uniformOf?_entryOf (parseOverride_ne_empty htext) hfinite, Option.some_or]
  · have hshown : shown name = Settings.uniformOf? := funext fun j => if_neg hseen
    rw [hdrawn, hextra, hlast, Option.map_none, Option.none_or, hshown]

theorem parseOverride_one {text name : String}
    (hsplit : Text.splitOnce? '=' text.toList = some (name.toList, ['1']))
    (hname : Text.trimChars name.toList = name.toList) (hne : name.toList.isEmpty = false) :
    parseOverride text = .ok (name, .scalar 1.0) := by
  have hnumber : Decimal.read? (String.ofList ['1']) = some 1.0 := by decide +kernel
  have hvalue : parseValue (Text.trimChars ['1']) = .ok (.scalar 1.0) := by
    have htrim : Text.trimChars ['1'] = ['1'] := by decide +kernel
    rw [htrim, parseValue, if_neg (by decide +kernel), if_neg (by decide +kernel),
      if_neg (by decide +kernel), hnumber]
  rw [parseOverride, hsplit]
  dsimp only
  rw [hname, hne, if_neg Bool.false_ne_true, hvalue, String.ofList_toList]
  rfl

def single (name : String) : Overrides := { uniforms := [(name, .scalar 1.0)] }

theorem uniforms_drawn_glow :
    ["uGlow=1"].mapM parseOverride = .ok (single "uGlow").uniforms ∧
      Keyed.get? "uGlow" (Uniforms.merge
          (Shader.Library.registry.uniforms ((single "uGlow").apply standard).sanitized.shaderKey)
          ((single "uGlow").apply standard).sanitized.liveUniforms) = some (.scalar 1.0) := by
  have hone : parseOverride "uGlow=1" = .ok ("uGlow", .scalar 1.0) :=
    parseOverride_one (by decide +kernel) (by decide +kernel) (by decide +kernel)
  have hgiven : ["uGlow=1"].mapM parseOverride = .ok (single "uGlow").uniforms := by
    rw [List.mapM_cons, hone]
    rfl
  have hresolve := run_resolve_alone (o := single "uGlow") rfl ⟨[], []⟩
  have hbase : (single "uGlow").source ⟨[], []⟩ = .ok standard := rfl
  obtain ⟨-, hseen⟩ := uniforms_drawn hgiven hresolve hbase Shader.Library.registry "uGlow"
  exact ⟨hgiven, (hseen (by decide +kernel)).1 (.scalar 1.0) rfl (by decide +kernel)⟩

/-- The flag of the host is accepted as a uniform and never drawn with. -/
theorem hostKey_not_drawn :
    parseOverride "isRealPreview=1" = .ok ("isRealPreview", .scalar 1.0) ∧
      ((single "isRealPreview").resolve :
          ExceptT Failure (StateM Disk) (Settings Float)).run.run ⟨[], []⟩ =
        (.ok ((single "isRealPreview").apply standard).sanitized, ⟨[], []⟩) ∧
      Keyed.get? "isRealPreview" (Uniforms.merge
          ((Registry.empty : Registry Float).uniforms
            ((single "isRealPreview").apply standard).sanitized.shaderKey)
          ((single "isRealPreview").apply standard).sanitized.liveUniforms) = none := by
  refine ⟨parseOverride_one (by decide +kernel) (by decide +kernel) (by decide +kernel),
    run_resolve_alone rfl _, ?_⟩
  have hsorted : Keyed.Sorted ((single "isRealPreview").apply standard).sanitized.extra :=
    (sound_apply (single "isRealPreview") Settings.sound_standard).sorted
  rw [get?_drawn hsorted]
  rfl

end Segue.Command
