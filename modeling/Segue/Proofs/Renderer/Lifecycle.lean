import Mathlib
import Segue.Proofs.Renderer.Textures

/-!
# The life of a renderer

A renderer is unsupported from the start, or ready until it is disposed. Its size is kept in two
places, by the renderer and by the surface that it draws on, and pictures are read through a buffer
that was made for some earlier picture. As long as the renderer is ready, all three agree on the
size that was asked for last.
-/

namespace Segue

namespace Renderer

open Texture

/-! ## Stages -/

inductive Stage where
  | unsupported | ready | disposed
  deriving DecidableEq

/-- A stage may be left only for the last one. -/
inductive Stage.Moves : Stage → Stage → Prop
  | stays (x : Stage) : Moves x x
  | ends (x : Stage) : Moves x .disposed

def State.stage : State → Stage
  | .unsupported => .unsupported
  | .ready _ => .ready
  | .disposed => .disposed

def stage (r : Renderer) : Stage := r.state.stage

inductive Operation where
  | act (a : Action)
  | dispose

def operate (r : Renderer) : Operation → Renderer
  | .act a => (r.act a).2
  | .dispose => r.dispose

def after (r : Renderer) (ops : List Operation) : Renderer := ops.foldl operate r

variable {r r' : Renderer} {s s' : Surface}

@[simp] theorem after_concat (r : Renderer) (ops : List Operation) (op : Operation) :
    r.after (ops ++ [op]) = (r.after ops).operate op :=
  List.foldl_concat _ _ _ _

theorem stage_of_surface (h : r.surface? = some s) : r.stage = .ready := by
  obtain ⟨state, width, height, pinned?⟩ := r
  cases state with
  | unsupported => cases h
  | ready s => rfl
  | disposed => cases h

theorem surface_eq_none (h : r.stage ≠ .ready) : r.surface? = none := by
  cases hs : r.surface? with
  | none => rfl
  | some s => exact absurd (stage_of_surface hs) h

/-! ## Without a surface -/

/-- Without a surface an action does nothing, except that it may fix the time. -/
theorem act_idle (h : r.surface? = none) (a : Action) :
    (r.act a).2.state = r.state ∧ (r.act a).2.size = r.size := by
  cases a with
  | useSource key source? => simp only [act, useSource, h, and_self]
  | useVariant registry key => simp only [act, useVariant, useSource, h, and_self]
  | updateImage clip i => simp only [act, updateImage, h, and_self]
  | clearImage clip => simp only [act, clearImage, h, and_self]
  | pinTime time? => exact ⟨rfl, rfl⟩
  | render shot => exact ⟨rfl, rfl⟩
  | readPixels => simp only [act, readPixels, h, and_self]
  | resize width height => simp only [act, resize, h, and_self]

/-- A renderer without a surface has only its size to tell. -/
theorem stats_idle (h : r.surface? = none) (h' : r'.surface? = none) (hsize : r'.size = r.size) :
    r'.stats = r.stats := by
  obtain ⟨hwidth, hheight⟩ := Prod.mk.inj hsize
  simp only [stats, h, h', hwidth, hheight]

/-- A renderer that is of no use. -/
structure Inert (r : Renderer) : Prop where
  draws : r.render = false
  reads : r.readPixels? = none
  selects : ∀ key source?, (r.useSource key source?).1 = .fallback
  selects_variant : ∀ registry key, (r.useVariant registry key).1 = .fallback
  error : ∀ key, r.compileError? key = none
  unchanged : ∀ op, (r.operate op).size = r.size ∧ (r.operate op).stats = r.stats

theorem inert_of_surface (h : r.surface? = none) : r.Inert where
  draws := by rw [render, h]
  reads := by rw [readPixels?, readPixels, h]
  selects key source? := by rw [useSource, h]
  selects_variant registry key := by rw [useVariant, useSource, h]
  error key := by rw [compileError?, h, Option.bind_none]
  unchanged op := by
    cases op with
    | dispose => exact ⟨rfl, stats_idle h rfl rfl⟩
    | act a =>
        obtain ⟨hstate, hsize⟩ := act_idle h a
        have hidle : (r.act a).2.surface? = none := by
          unfold surface? at h ⊢
          rw [hstate, h]
        exact ⟨hsize, stats_idle h hidle hsize⟩

/-- Nothing but disposal changes the stage. -/
@[simp] theorem act_stage (r : Renderer) (a : Action) : (r.act a).2.stage = r.stage := by
  cases hs : r.surface? with
  | none => rw [stage, (act_idle hs a).1, stage]
  | some s =>
      obtain ⟨s', hs', -⟩ := act_ready hs a
      rw [stage_of_surface hs, stage_of_surface hs']

theorem moves (r : Renderer) (op : Operation) : r.stage.Moves (r.operate op).stage := by
  cases op with
  | dispose => exact .ends r.stage
  | act a =>
      rw [operate, act_stage]
      exact .stays r.stage

/-- The stages of a whole run are the first one and, once it is disposed, the last one. -/
theorem stage_after (r : Renderer) (ops : List Operation) :
    (r.after ops).stage = r.stage ∨ (r.after ops).stage = .disposed := by
  induction ops using List.reverseRecOn with
  | nil => exact .inl rfl
  | append_singleton ops op ih =>
      rw [after_concat]
      have hmoves := moves (r.after ops) op
      generalize ((r.after ops).operate op).stage = next at hmoves
      cases hmoves with
      | stays => exact ih
      | ends => exact .inr rfl

/-! ## What was asked for -/

variable {β : Type}

/-- The last thing that an operation of a list tells. -/
def latest (tells? : Operation → Option β) (start : β) (ops : List Operation) : β :=
  ops.foldl (fun x op => (tells? op).getD x) start

theorem latest_concat (tells? : Operation → Option β) (start : β) (ops : List Operation)
    (op : Operation) :
    latest tells? start (ops ++ [op]) = (tells? op).getD (latest tells? start ops) :=
  List.foldl_concat _ _ _ _

def Operation.size? : Operation → Option (Nat × Nat)
  | .act (.resize width height) => some (width, height)
  | _ => none

/-- Whether an operation fills the slot of a clip, or empties it. An image without pixels does
neither. -/
def Operation.fills? (clip : Clip) : Operation → Option Bool
  | .act (.updateImage c i) =>
    if c = clip ∧ ¬(i.width = 0 ∨ i.height = 0) then some true else none
  | .act (.clearImage c) => if c = clip then some false else none
  | _ => none

def lastSize : Nat × Nat → List Operation → Nat × Nat := latest Operation.size?

def holds (clip : Clip) : List Operation → Bool := latest (Operation.fills? clip) false

/-! ## Slots -/

theorem takes_get? {t : Slots} {width height : Nat} {out : Numbered × Slots}
    (h : Slots.Takes t width height out) (clip : Clip) : out.2.get? clip = t.get? clip := by
  cases h with
  | made => cases clip <;> rfl
  | pooled older texture newer hitems => cases clip <;> rfl

/-- An upload fills the slot of its clip, if there are pixels, and leaves the other one. -/
theorem upload_get?_isSome (t : Slots) (c clip : Clip) (width height : Nat) :
    ((t.upload c width height).get? clip).isSome =
      if c = clip ∧ ¬(width = 0 ∨ height = 0) then true else (t.get? clip).isSome := by
  have huploads := Slots.uploads t c width height
  generalize t.upload c width height = t' at huploads
  cases huploads with
  | empty hempty => rw [if_neg fun h => h.2 hempty]
  | reused texture hsize htexture hwidth hheight =>
      by_cases hclip : c = clip
      · subst hclip
        rw [if_pos ⟨rfl, hsize⟩, htexture, Option.isSome_some]
      · rw [if_neg fun h => hclip h.1]
  | other out hsize htakes =>
      by_cases hclip : c = clip
      · subst hclip
        rw [if_pos ⟨rfl, hsize⟩, Slots.get?_set_self, Option.isSome_some]
      · have hother : clip ≠ c := Ne.symm hclip
        rw [if_neg fun h => hclip h.1, Slots.get?_set_of_ne hother, takes_get? htakes,
          Slots.clear_get?_of_ne hother]

@[simp] theorem clear_get?_isSome (t : Slots) (c clip : Clip) :
    ((t.clear c).get? clip).isSome = if c = clip then false else (t.get? clip).isSome := by
  by_cases hclip : c = clip
  · subst hclip
    rw [if_pos rfl, Slots.clear_get?_self, Option.isSome_none]
  · rw [if_neg hclip, Slots.clear_get?_of_ne (Ne.symm hclip)]

/-- An action fills and empties slots as it tells. -/
theorem texturesAfter_isSome (t : Slots) (a : Action) (clip : Clip) :
    ((texturesAfter t a).get? clip).isSome =
      ((Operation.act a).fills? clip).getD (t.get? clip).isSome := by
  cases a with
  | updateImage c i =>
      refine (upload_get?_isSome t c clip i.width i.height).trans ?_
      rw [Operation.fills?]
      split <;> rfl
  | clearImage c =>
      refine (clear_get?_isSome t c clip).trans ?_
      rw [Operation.fills?]
      split <;> rfl
  | useSource key source? => rfl
  | useVariant registry key => rfl
  | pinTime time? => rfl
  | render shot => rfl
  | readPixels => rfl
  | resize width height => rfl

theorem active_pos (t : Slots) : 0 < t.active ↔ ∃ clip, (t.get? clip).isSome = true := by
  rw [Slots.active, Nat.add_pos_iff_pos_or_pos]
  constructor
  · rintro (ha | hb)
    · obtain ⟨x, hx⟩ := List.exists_mem_of_length_pos ha
      exact ⟨.a, Option.isSome_of_mem (Option.mem_toList.mp hx)⟩
    · obtain ⟨x, hx⟩ := List.exists_mem_of_length_pos hb
      exact ⟨.b, Option.isSome_of_mem (Option.mem_toList.mp hx)⟩
  · rintro ⟨clip, hclip⟩
    obtain ⟨x, hx⟩ := Option.isSome_iff_exists.mp hclip
    cases clip with
    | a => exact .inl (List.length_pos_of_mem (Option.mem_toList.mpr hx))
    | b => exact .inr (List.length_pos_of_mem (Option.mem_toList.mpr hx))

/-! ## Reading back -/

/-- Rows are padded to the next multiple of 256 bytes, where a pixel has 4. -/
theorem paddedRow_least (width : Nat) :
    256 ∣ Readback.paddedRow width ∧ 4 * width ≤ Readback.paddedRow width ∧
      Readback.paddedRow width < 4 * width + 256 := by
  unfold Readback.paddedRow
  refine ⟨Nat.dvd_mul_left _ _, ?_, ?_⟩ <;> omega

def Surface.Buffered (s : Surface) : Prop :=
  ∀ b, s.readback? = some b → Readback.make? b.width b.height = some b

theorem make?_size {width height : Nat} {b : Readback}
    (h : Readback.make? width height = some b) : b.width = width ∧ b.height = height := by
  unfold Readback.make? at h
  dsimp only at h
  split at h
  · cases h
    exact ⟨rfl, rfl⟩
  · cases h

/-- A buffer that is used again is no other than a new one. -/
theorem Surface.readback_eq (h : s.Buffered) : s.readback = Readback.make? s.width s.height := by
  unfold Surface.readback
  split
  · rename_i b hb
    obtain ⟨hkept, hsize⟩ := Option.filter_eq_some_iff.mp hb
    obtain ⟨hwidth, hheight⟩ := of_decide_eq_true hsize
    rw [← hwidth, ← hheight, h b hkept]
  · rfl

theorem Surface.Buffered.read (h : s.Buffered) :
    Surface.Buffered { s with readback? := s.readback } := by
  intro b hb
  have hmade : Readback.make? s.width s.height = some b := (readback_eq h).symm.trans hb
  obtain ⟨hwidth, hheight⟩ := make?_size hmade
  rw [hwidth, hheight, hmade]

theorem readPixels?_size (hs : r.surface? = some s) (h : s.Buffered)
    (hrow : Readback.paddedRow s.width < 4294967296) :
    r.readPixels?.map (fun i => (i.width, i.height)) = some (s.width, s.height) := by
  simp only [readPixels?, readPixels, hs]
  rw [Surface.readback_eq h, Readback.make?, if_pos hrow]
  rfl

/-! ## On a surface -/

theorem clamp_eq {d : Device} (h : 1 ≤ d.maxSide) (side : Nat) :
    d.clamp side = max 1 (min side d.maxSide) := by
  unfold Device.clamp
  omega

/-- A renderer that is ready, in terms of the operations so far. -/
structure Draws (d : Device) (first : Nat × Nat) (ops : List Operation) (r : Renderer)
    (s : Surface) : Prop where
  surface : r.surface? = some s
  device : s.device = d
  side : 1 ≤ d.maxSide
  size : r.size = (s.width, s.height)
  width : s.width = max 1 (min (lastSize first ops).1 d.maxSide)
  height : s.height = max 1 (min (lastSize first ops).2 d.maxSide)
  shown : ∀ clip, (s.textures.get? clip).isSome = holds clip ops
  buffered : s.Buffered

variable {d : Device} {first : Nat × Nat} {ops : List Operation}

theorem Draws.next (h : Draws d first ops r s) {op : Operation} (hnone : op.size? = none)
    (hs : r'.surface? = some s') (hdevice : s'.device = s.device)
    (hsize : r'.size = (s'.width, s'.height)) (hwidth : s'.width = s.width)
    (hheight : s'.height = s.height)
    (hshown : ∀ clip, (s'.textures.get? clip).isSome =
      (op.fills? clip).getD (s.textures.get? clip).isSome)
    (hbuffered : s'.Buffered) : Draws d first (ops ++ [op]) r' s' where
  surface := hs
  device := hdevice.trans h.device
  side := h.side
  size := hsize
  width := by
    rw [lastSize, latest_concat, hnone, Option.getD_none, hwidth]
    exact h.width
  height := by
    rw [lastSize, latest_concat, hnone, Option.getD_none, hheight]
    exact h.height
  shown clip := by
    rw [hshown, h.shown]
    exact (latest_concat _ false ops op).symm
  buffered := hbuffered

theorem Draws.resize (h : Draws d first ops r s) (width height : Nat) :
    ∃ s', Draws d first (ops ++ [.act (.resize width height)]) (r.resize width height) s' := by
  have hresize : r.resize width height =
      r.onto { s with width := s.device.clamp width, height := s.device.clamp height } := by
    rw [Renderer.resize, h.surface]
  rw [hresize]
  refine ⟨_, rfl, h.device, h.side, rfl, ?_, ?_, fun clip => ?_, h.buffered⟩
  · rw [lastSize, latest_concat, h.device]
    exact clamp_eq h.side width
  · rw [lastSize, latest_concat, h.device]
    exact clamp_eq h.side height
  · refine (h.shown clip).trans ?_
    exact (latest_concat (Operation.fills? clip) false ops (.act (.resize width height))).symm

theorem Draws.act (h : Draws d first ops r s) (a : Action) :
    ∃ s', Draws d first (ops ++ [.act a]) (r.act a).2 s' := by
  have hshown := texturesAfter_isSome s.textures a
  have hs := h.surface
  cases a with
  | useSource key source? =>
      simp only [Renderer.act, useSource, hs]
      exact ⟨_, h.next rfl rfl rfl rfl rfl rfl hshown h.buffered⟩
  | useVariant registry key =>
      simp only [Renderer.act, useVariant, useSource, hs]
      exact ⟨_, h.next rfl rfl rfl rfl rfl rfl hshown h.buffered⟩
  | updateImage clip i =>
      simp only [Renderer.act, updateImage, hs]
      exact ⟨_, h.next rfl rfl rfl rfl rfl rfl hshown h.buffered⟩
  | clearImage clip =>
      simp only [Renderer.act, clearImage, hs]
      exact ⟨_, h.next rfl rfl rfl rfl rfl rfl hshown h.buffered⟩
  | pinTime time? => exact ⟨s, h.next rfl hs rfl h.size rfl rfl hshown h.buffered⟩
  | render shot => exact ⟨s, h.next rfl hs rfl h.size rfl rfl hshown h.buffered⟩
  | readPixels =>
      simp only [Renderer.act, readPixels, hs]
      exact ⟨_, h.next rfl rfl rfl rfl rfl rfl hshown h.buffered.read⟩
  | resize width height => exact h.resize width height

/-! ## Whole lives -/

/-- What a renderer that is ready shows. -/
structure Live (d : Device) (first : Nat × Nat) (ops : List Operation) (r : Renderer) : Prop where
  side : 1 ≤ d.maxSide
  width : r.size.1 = max 1 (min (lastSize first ops).1 d.maxSide)
  height : r.size.2 = max 1 (min (lastSize first ops).2 d.maxSide)
  stats : (r.stats.width, r.stats.height) = r.size
  picture : Readback.paddedRow r.size.1 < 4294967296 →
    r.readPixels?.map (fun i => (i.width, i.height)) = some r.size
  draws : r.render = true ↔ ∃ clip, holds clip ops = true
  /-- A slot holds an image exactly if the last thing that was done to it was to fill it. -/
  surface : ∃ s, r.surface? = some s ∧
    (∀ clip, (s.textures.get? clip).isSome = holds clip ops) ∧
    ∀ width height, ∃ s', (r.resize width height).surface? = some s' ∧
      s'.textures = s.textures ∧ s'.programs = s.programs

theorem Draws.live (h : Draws d first ops r s) : Live d first ops r where
  side := h.side
  width := by
    rw [h.size]
    exact h.width
  height := by
    rw [h.size]
    exact h.height
  stats := by
    simp only [Renderer.stats, h.surface]
    exact h.size.symm
  picture := by
    rw [h.size]
    exact readPixels?_size h.surface h.buffered
  draws := by
    simp only [render, h.surface, decide_eq_true_eq]
    rw [active_pos]
    exact exists_congr fun clip => by rw [h.shown]
  surface := by
    refine ⟨s, h.surface, h.shown, fun width height => ?_⟩
    obtain ⟨s', hs', -, hprograms, htextures⟩ := act_ready h.surface (.resize width height)
    exact ⟨s', hs', htextures, hprograms⟩

/-- Where a renderer stands after some operations. -/
inductive Stands (device? : Option Device) (first : Nat × Nat) (ops : List Operation)
    (r : Renderer) : Prop
  | unsupported : r.stage = .unsupported → .dispose ∉ ops → Stands device? first ops r
  | ready (d : Device) (s : Surface) : device? = some d → .dispose ∉ ops →
      Draws d first ops r s → Stands device? first ops r
  | disposed : r.stage = .disposed → .dispose ∈ ops → Stands device? first ops r

variable {device? : Option Device}

theorem stands_create (device? : Option Device) (width height pool : Nat) :
    Stands device? (width, height) [] (create device? width height pool) := by
  cases device? with
  | none => exact .unsupported rfl List.not_mem_nil
  | some d =>
      unfold create
      dsimp only
      split
      · rename_i hfits
        obtain ⟨hwidth, hheight⟩ := hfits
        have hside : 1 ≤ d.maxSide := (Nat.le_max_right width 1).trans hwidth
        refine .ready d _ rfl List.not_mem_nil ⟨rfl, rfl, hside, rfl, ?_, ?_, fun clip => ?_, ?_⟩
        · change max width 1 = max 1 (min width d.maxSide)
          omega
        · change max height 1 = max 1 (min height d.maxSide)
          omega
        · cases clip <;> rfl
        · intro b hb
          cases hb
      · exact .unsupported rfl List.not_mem_nil

theorem Stands.operate (h : Stands device? first ops r) (op : Operation) :
    Stands device? first (ops ++ [op]) (r.operate op) := by
  have hkeeps {a : Action} (hnever : .dispose ∉ ops) : Operation.dispose ∉ ops ++ [.act a] := by
    rw [List.mem_append, List.mem_singleton]
    rintro (hmem | hact)
    · exact hnever hmem
    · cases hact
  cases op with
  | dispose => exact .disposed rfl (List.mem_append_right _ (List.mem_singleton_self _))
  | act a =>
      cases h with
      | unsupported hstage hnever =>
          exact .unsupported ((act_stage r a).trans hstage) (hkeeps hnever)
      | ready d s hdevice hnever hdraws =>
          obtain ⟨s', hdraws'⟩ := hdraws.act a
          exact .ready d s' hdevice (hkeeps hnever) hdraws'
      | disposed hstage hmem =>
          exact .disposed ((act_stage r a).trans hstage) (List.mem_append_left _ hmem)

theorem stands_after (device? : Option Device) (width height pool : Nat) (ops : List Operation) :
    Stands device? (width, height) ops ((create device? width height pool).after ops) := by
  induction ops using List.reverseRecOn with
  | nil => exact stands_create device? width height pool
  | append_singleton ops op ih =>
      rw [after_concat]
      exact ih.operate op

theorem Stands.stage_eq_disposed (h : Stands device? first ops r) :
    r.stage = .disposed ↔ .dispose ∈ ops := by
  cases h with
  | unsupported hstage hnever =>
      rw [hstage]
      exact iff_of_false (fun heq => nomatch heq) hnever
  | ready d s hdevice hnever hdraws =>
      rw [stage_of_surface hdraws.surface]
      exact iff_of_false (fun heq => nomatch heq) hnever
  | disposed hstage hmem => exact iff_of_true hstage hmem

/-- A renderer is disposed from the first disposal on and is in its first stage before. When it is
not ready nothing can be done with it, and when it is ready it has the size that was asked for last
and draws if a slot holds an image. -/
theorem lifecycle_run (device? : Option Device) (width height pool : Nat) (ops : List Operation) :
    let first := create device? width height pool
    let r := first.after ops
    (∀ op, r.stage.Moves (r.operate op).stage) ∧
      (r.stage = first.stage ∨ r.stage = .disposed) ∧
      (r.stage = .disposed ↔ .dispose ∈ ops) ∧
      (r.stage ≠ .ready ∧ Inert r ∨
        r.stage = .ready ∧ ∃ d, device? = some d ∧ Live d (width, height) ops r) := by
  intro first r
  have hstands : Stands device? (width, height) ops r := stands_after device? width height pool ops
  refine ⟨moves r, stage_after first ops, hstands.stage_eq_disposed, ?_⟩
  cases hstands with
  | unsupported hstage _ =>
      have hidle : r.stage ≠ .ready := fun hready => nomatch hstage.symm.trans hready
      exact .inl ⟨hidle, inert_of_surface (surface_eq_none hidle)⟩
  | ready d s hdevice _ hdraws =>
      exact .inr ⟨stage_of_surface hdraws.surface, d, hdevice, hdraws.live⟩
  | disposed hstage _ =>
      have hidle : r.stage ≠ .ready := fun hready => nomatch hstage.symm.trans hready
      exact .inl ⟨hidle, inert_of_surface (surface_eq_none hidle)⟩

/-- The picture is read in between, so that its buffer is of the wrong size later. -/
example : ((create (some picky) 2 2 0).after
    [.act .readPixels, .act (.resize 3 9), .act (.updateImage .b (.blank 1 1))]).readPixels? =
      some (.blank 3 4) := rfl

end Renderer

end Segue
