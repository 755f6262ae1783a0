import Mathlib
import Segue.Proofs.Export.Abort
import Segue.Proofs.Export.Newest

/-!
# What a clear leaves

A clear forgets what is shown and cancels the run under way, but that run is still the newest one:
until it has returned it shows every further frame that is stored, and in the end all its frames.
Only the number of its frames stays forgotten. When no run is under way, everything does.
-/

namespace Segue

open Scalar

variable {α : Type} [Scalar α] [Elementary α]

namespace Exporter.Session

omit [Elementary α] in
theorem Sound.generation_newest {s : Session α} (h : s.Sound) {r : Export α}
    (hnewest : s.newest? = some r) : r.generation = s.exporter.generation := by
  obtain ⟨x, hx, rfl⟩ := Option.map_eq_some_iff.mp hnewest
  have hlt := (List.getElem?_eq_some_iff.mp hx).1
  have hnumber := (h.each _ x hx).number
  have hcount := h.count
  omega

omit [Elementary α] in
/-- A run whose clips are not ready has stored nothing. -/
theorem Sound.uploaded_of_readying {s : Session α} (h : s.Sound) {r : Export α}
    (hnewest : s.newest? = some r) (hp : r.isReadying = true) : r.uploaded = 0 := by
  obtain ⟨x, hx, rfl⟩ := Option.map_eq_some_iff.mp hnewest
  exact ((h.each _ x hx).inOrder.of_readying (Export.isReadying_iff.mp hp)).1.uploaded

/-! ## With no run under way -/

omit [Elementary α] in
theorem Effect.keeps {s s' : Session α} {e : Event α} (h : Effect s e s')
    (he : e.isCall = false ∧ e.isClear = false)
    (hidle : ∀ r, s.newest? = some r → r.hasEnded = true) (hoff : s.exporter.exporting = false) :
    s'.newest? = s.newest? ∧ s'.exporter.shared = s.exporter.shared := by
  cases h with
  | quiet hshared hnewest => exact ⟨hnewest, hshared⟩
  | call his => cases he.1.symm.trans his
  | goOn _ hold _ hended => cases hended.symm.trans (hidle _ hold)
  | abort _ hnewest hshared =>
      refine ⟨hnewest, hshared.trans ?_⟩
      rw [shared, hoff]
  | clear his => cases he.2.symm.trans his

/-! ## With a run under way -/

/-- The run that was `r` when everything was forgotten is `r'` now, and is still the newest. -/
structure Drains (r : Export α) (s : Session α) (r' : Export α) : Prop where
  newest : s.newest? = some r'
  cancelled : s.exporter.isCancelled r'.generation = true
  exporting : s.exporter.exporting = false
  frameCount : s.exporter.frameCount = 0
  frames : s.exporter.frames = r'.returned
  le_uploaded : r.uploaded ≤ r'.uploaded
  progress : s.exporter.progress =
    if r'.uploaded = r.uploaded then 0.0 else ofNat r'.uploaded / ofNat r'.slots.size

omit [Elementary α] in
theorem Drains.of_shared {r r' : Export α} {s s' : Session α} (h : Drains r s r')
    (hnewest : s'.newest? = s.newest?) (hshared : s'.exporter.shared = s.exporter.shared)
    (hlater : Later s s') : Drains r s' r' := by
  obtain ⟨hexporting, hprogress, hcount, hframes, -⟩ := Shared.mk.inj hshared
  refine ⟨hnewest.trans h.newest, isCancelled_mono hlater.cancelled h.cancelled,
    hexporting.trans h.exporting, hcount.trans h.frameCount, hframes.trans h.frames,
    h.le_uploaded, hprogress.trans h.progress⟩

omit [Elementary α] in
/-- The run goes on. -/
theorem Drains.goOn {r r' r'' : Export α} {s s' : Session α} (h : Drains r s r') (hs : s.Sound)
    (hs' : s'.Sound) (hlater : Later s s') (hended : r'.hasEnded = false)
    (hnewest : s'.newest? = some r'') (hwritten : Written r' r'' s.exporter s'.exporter) :
    Drains r s' r'' := by
  have hgeneration := (hs.generation_newest h.newest).symm
  have hnil : s.exporter.frames = [] := by
    rw [h.frames, Export.returned_of_not_hasEnded hended]
  have hsame : r''.generation = r'.generation := by
    rw [hs'.generation_newest hnewest, hwritten.generation, hgeneration]
  refine ⟨hnewest, ?_, ?_, ?_, hwritten.frames hgeneration hnil, ?_, ?_⟩
  · rw [hsame]
    exact isCancelled_mono hlater.cancelled h.cancelled
  · rw [hwritten.exporting hgeneration hnil, h.exporting, Bool.false_and]
  · rw [hwritten.frameCount hgeneration hnil (.inl h.cancelled), h.frameCount]
  · have hle := h.le_uploaded
    rcases hwritten.progress hgeneration hnil with ⟨hkept, -⟩ | ⟨hstored, -⟩ <;> omega
  · have hle := h.le_uploaded
    rcases hwritten.progress hgeneration hnil with ⟨hkept, hprogress⟩ | ⟨hstored, hprogress⟩
    · rw [hprogress, h.progress, hkept]
      split
      · rfl
      · rename_i hmore
        -- frames are stored only once the slots have been made
        have hsize : r''.slots.size = r'.slots.size := by
          refine hwritten.size ?_
          cases hp : r'.isReadying with
          | false => rfl
          | true =>
              have hzero := hs.uploaded_of_readying h.newest hp
              omega
        rw [hsize]
    · have hmore : r''.uploaded ≠ r.uploaded := by omega
      rw [hprogress, if_neg hmore]

omit [Elementary α] in
theorem Effect.drains {r r' : Export α} {s s' : Session α} {e : Event α} (h : Effect s e s')
    (he : e.isCall = false ∧ e.isClear = false) (hs : s.Sound) (hs' : s'.Sound)
    (hlater : Later s s') (hdrains : Drains r s r') : ∃ r'', Drains r s' r'' := by
  cases h with
  | quiet hshared hnewest => exact ⟨r', hdrains.of_shared hnewest hshared hlater⟩
  | call his => cases he.1.symm.trans his
  | @goOn q q' _ hold _ hended hnewest hwritten =>
      obtain rfl : q = r' := Option.some.inj (hold.symm.trans hdrains.newest)
      exact ⟨q', hdrains.goOn hs hs' hlater hended hnewest hwritten⟩
  | abort _ hnewest hshared =>
      refine ⟨r', hdrains.of_shared hnewest (hshared.trans ?_) hlater⟩
      rw [shared, hdrains.exporting]
  | clear his => cases he.2.symm.trans his

/-! ## Until the next call -/

/-- What a clear in `s` has left in a later session `s'`. -/
structure Cleared (s s' : Session α) : Prop where
  exporting : s'.exporter.exporting = false
  frameCount : s'.exporter.frameCount = 0
  idle : (∀ r, s.newest? = some r → r.hasEnded = true) →
    s'.exporter.progress = 0.0 ∧ s'.exporter.frames = []
  draining : ∀ r, s.newest? = some r → r.hasEnded = false → ∃ r', s'.newest? = some r' ∧
    r.uploaded ≤ r'.uploaded ∧ s'.exporter.frames = r'.returned ∧ s'.exporter.progress =
      if r'.uploaded = r.uploaded then 0.0 else ofNat r'.uploaded / ofNat r'.slots.size

theorem Sound.idle_run {s : Session α} (h : s.Sound)
    (hidle : ∀ r, s.newest? = some r → r.hasEnded = true) (hoff : s.exporter.exporting = false)
    (later : List (Event α)) (hlater : ∀ e ∈ later, e.isCall = false ∧ e.isClear = false) :
    (s.run later).newest? = s.newest? ∧ (s.run later).exporter.shared = s.exporter.shared := by
  refine h.run_induction_on (P := fun t => t.newest? = s.newest? ∧
    t.exporter.shared = s.exporter.shared) ⟨rfl, rfl⟩ later ?_
  rintro t ht ⟨hnewest, hshared⟩ e he
  have hoff' : t.exporter.exporting = false := (congrArg Shared.exporting hshared).trans hoff
  have hkeeps := (ht.effect e).keeps (hlater e he) (hnewest ▸ hidle) hoff'
  exact ⟨hkeeps.1.trans hnewest, hkeeps.2.trans hshared⟩

theorem Drains.run {r r' : Export α} {s : Session α} (h : Drains r s r') (hs : s.Sound)
    (later : List (Event α)) (hlater : ∀ e ∈ later, e.isCall = false ∧ e.isClear = false) :
    ∃ r'', Drains r (s.run later) r'' := by
  refine hs.run_induction_on (P := fun t => ∃ r'', Drains r t r'') ⟨r', h⟩ later ?_
  rintro t ht ⟨q, hq⟩ e he
  exact (ht.effect e).drains (hlater e he) ht (ht.run [e]) ((ht.change e).later ht) hq

theorem Sound.drains_clear {s : Session α} (h : s.Sound) {r : Export α}
    (hnewest : s.newest? = some r) (hended : r.hasEnded = false) :
    Drains r (s.step .clear) r := by
  obtain ⟨x, hx, rfl⟩ := Option.map_eq_some_iff.mp hnewest
  have hcut := h.cancelled_of_abort hx hended
  rw [← (h.each _ x hx).number] at hcut
  exact ⟨hnewest, hcut, rfl, rfl, (Export.returned_of_not_hasEnded hended).symm,
    Nat.le_refl _, (if_pos rfl).symm⟩

theorem cleared_run (p : RetryPolicy) (before later : List (Event α))
    (hlater : ∀ e ∈ later, e.isCall = false ∧ e.isClear = false) :
    Cleared ((start p).run before) ((((start p).run before).step .clear).run later) := by
  have hsound := sound_run p before
  generalize (start p : Session α).run before = s at hsound ⊢
  have hclear := hsound.run [.clear]
  have hidle : (∀ r, s.newest? = some r → r.hasEnded = true) →
      ((s.step .clear).run later).exporter.shared = ⟨false, 0.0, 0, [], s.exporter.token⟩ :=
    fun hnone => (hclear.idle_run hnone rfl later hlater).2
  have hdrains : ∀ r, s.newest? = some r → r.hasEnded = false →
      ∃ r', Drains r ((s.step .clear).run later) r' :=
    fun r hnewest hended => (hsound.drains_clear hnewest hended).run hclear later hlater
  have hoff : ((s.step .clear).run later).exporter.exporting = false ∧
      ((s.step .clear).run later).exporter.frameCount = 0 := by
    by_cases hnone : ∀ r, s.newest? = some r → r.hasEnded = true
    · have hshared := hidle hnone
      exact ⟨congrArg Shared.exporting hshared, congrArg Shared.frameCount hshared⟩
    · simp only [not_forall, Bool.not_eq_true] at hnone
      obtain ⟨r, hnewest, hended⟩ := hnone
      obtain ⟨r', hr'⟩ := hdrains r hnewest hended
      exact ⟨hr'.exporting, hr'.frameCount⟩
  refine ⟨hoff.1, hoff.2, ?_, ?_⟩
  · intro hnone
    have hshared := hidle hnone
    exact ⟨congrArg Shared.progress hshared, congrArg Shared.frames hshared⟩
  · intro r hnewest hended
    obtain ⟨r', hr'⟩ := hdrains r hnewest hended
    exact ⟨r', hr'.newest, hr'.le_uploaded, hr'.frames, hr'.progress⟩

def uploading : List (Event Rat) :=
  [.call twoFrames none none, .prepare 0 ⟨some 1, none⟩ ⟨some 1, none⟩ true] ++ oneFrame ++
    [.start 0 1 (.stored ⟨"first", "", "temp"⟩)]

/-- The upload ends, and the run, which has been cancelled, returns. -/
def returning : List (Event Rat) :=
  [.tick 1, .seek 0 .cancelled, .resume 0 (.sought .cancelled), .join 0, .resume 0 .done]

theorem cleared_run_returning : letI : Elementary Rat := ⟨id, id, id, id, 3⟩
    (∀ e ∈ returning, e.isCall = false ∧ e.isClear = false) ∧
      Cleared ((start .standard).run uploading)
        ((((start .standard).run uploading).step .clear).run returning) := by
  let _ : Elementary Rat := ⟨id, id, id, id, 3⟩
  have hlater : ∀ e ∈ returning, e.isCall = false ∧ e.isClear = false := by decide +kernel
  exact ⟨hlater, cleared_run .standard uploading returning hlater⟩

/-- What was forgotten is shown again. -/
theorem returning_not_forgotten : letI : Elementary Rat := ⟨id, id, id, id, 3⟩
    let s := (start .standard).run (uploading ++ [.clear])
    let s' := s.run returning
    (s.exporter.progress, s.exporter.frames.map (·.name)) = (0, []) ∧
      (∀ e ∈ returning, e.isCall = false ∧ e.isClear = false) ∧
      (s'.exporter.progress, s'.exporter.frames.map (·.name)) = (1 / 2, ["first"]) := by
  decide +kernel

end Exporter.Session

end Segue
