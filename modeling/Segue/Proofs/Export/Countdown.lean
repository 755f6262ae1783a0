import Mathlib
import Segue.Proofs.Export.Storyboard

/-!
# The countdown of a run

Whatever has become of its uploads, a run comes closer to its end with every reply that it gets, and
when it ends it is no longer shown as under way. Its own state tells how many replies can still
come; nothing need be known of the exporter.
-/

namespace Segue

open Scalar

variable {α : Type}

/-- The exporter does not show the run as under way. -/
def Exporter.Off (run : Nat) (e : Exporter α) : Prop :=
  e.generation = run → e.exporting = false ∧ e.token = none

theorem Exporter.off_endRun (run : Nat) (e : Exporter α) : Off run (e.endRun run) := by
  unfold Off endRun onlyLatest
  split
  · exact fun _ => ⟨rfl, rfl⟩
  · rename_i hlatest
    exact fun hown => absurd hown hlatest

namespace Export

/-- The replies that a run at work waits for. -/
inductive Suits : Phase α → Reply α → Prop
  | sought (clip : Clip) (time : α) (outcome : SeekOutcome) :
      Suits (.seeking clip time) (.sought outcome)
  | drawn (time : α) (shot : Shot α) (d : Drawn) : Suits (.drawing time shot) (.drawn d)
  | encoded (i : Image) : Suits (.encoding i) .done
  | finished (index : Nat) (ending : UploadEnd) : Suits .joining (.finished index ending)
  | told (progress : α) : Suits (.report progress) .done

/-- A run past its preparations that can get `n` more replies at most. -/
structure Steady (own n : Nat) (r : Export α) : Prop where
  number : r.generation = own
  toCome_le : r.toCome ≤ n
  index_lt : r.position? ≠ none → r.index < r.total
  joining : r.isJoining = true → r.pending ≠ 0

/-- A reply can come only if it is counted. -/
theorem Steady.pos {own n : Nat} {r : Export α} (h : Steady own n r) {reply : Reply α}
    (hreply : Suits r.phase reply) : 0 < n := by
  have hle := h.toCome_le
  -- a frame that is under way still counts all its replies in `ahead`
  have hframe : r.position? ≠ none → 6 ≤ r.ahead := by
    intro hposition
    have hlt := h.index_lt hposition
    unfold ahead
    omega
  generalize hp : r.phase = phase at hreply
  cases hreply with
  | sought clip time outcome =>
      have hahead := hframe (by simp [position?, hp])
      cases clip <;> simp only [toCome, hp] at hle <;> omega
  | drawn time shot d =>
      have hahead := hframe (by simp [position?, hp])
      simp only [toCome, hp] at hle
      omega
  | encoded i =>
      have hahead := hframe (by simp [position?, hp])
      simp only [toCome, hp] at hle
      omega
  | finished index ending =>
      have hpending := h.joining (isJoining_iff.mpr hp)
      simp only [toCome, hp] at hle
      omega
  | told progress =>
      simp only [toCome, hp] at hle
      omega

/-- The run has gone on to `y`. -/
structure OnCourse (own n : Nat) (y : Running α) : Prop extends Steady own n y.2 where
  off : y.2.hasEnded = true → y.1.Off own

variable {own n : Nat} {r : Export α}

theorem OnCourse.mono {y : Running α} (h : OnCourse own 0 y) (n : Nat) : OnCourse own n y :=
  ⟨⟨h.number, h.toCome_le.trans (Nat.zero_le n), h.index_lt, h.joining⟩, h.off⟩

theorem Steady.awaiting {phase : Phase α} (h : Steady own n { r with phase }) (e : Exporter α)
    (hended : ({ r with phase } : Export α).hasEnded = false) :
    OnCourse own n (awaiting phase e r) where
  toSteady := h
  off hend := by
    cases hended.symm.trans hend

theorem finish_onCourse (hown : r.generation = own)
    (result : Except (ExportError α) (List FrameRef)) (e : Exporter α) :
    OnCourse own n (finish result e r) where
  number := hown
  toCome_le := Nat.zero_le n
  index_lt h := absurd rfl h
  joining h := nomatch h
  off _ := hown ▸ Exporter.off_endRun r.generation e

theorem quit_onCourse (hown : r.generation = own) (e : Exporter α) : OnCourse own n (quit e r) :=
  finish_onCourse hown _ _

theorem drain_onCourse (hown : r.generation = own) (hle : 2 * r.pending ≤ n) (e : Exporter α) :
    OnCourse own n (drain e r) := by
  unfold drain
  split
  · exact finish_onCourse hown _ _
  · rename_i hpending
    have hsteady : Steady own n { r with next := none, phase := .joining } :=
      ⟨hown, (Nat.zero_add _).trans_le hle, fun h => absurd rfl h, fun _ => hpending⟩
    exact Steady.awaiting (r := { r with next := none }) hsteady e rfl

/-! ## Preparations -/

/-- A run that is being prepared waits for `phase` next, unless it has ended. -/
structure Readied (own : Nat) (phase : Phase α) (y : Running α) : Prop where
  number : y.2.generation = own
  pending : y.2.pending = 0
  ended : y.2.phase ≠ phase → OnCourse own 0 y

theorem finish_readied (hown : r.generation = own) (hpending : r.pending = 0) (phase : Phase α)
    (result : Except (ExportError α) (List FrameRef)) (e : Exporter α) :
    Readied own phase (finish result e r) :=
  ⟨hown, hpending, fun _ => finish_onCourse hown result e⟩

variable [Scalar α]

theorem duplicated_readied (hpending : r.pending = 0) (a b : Option MediaError)
    (e : Exporter α) : Readied (e.generation + 1) .readying (duplicated a b e r) := by
  unfold duplicated
  dsimp only
  split
  · refine finish_readied ?_ ?_ _ _ _
    · rfl
    · exact hpending
  · exact ⟨rfl, hpending, fun hphase => absurd rfl hphase⟩

theorem plan_readied (hown : r.generation = own) (hpending : r.pending = 0) (a b : ClipFacts α)
    (e : Exporter α) : Readied own .composing (plan a b e r) := by
  unfold plan
  split
  · exact finish_readied hown hpending _ _ _
  · dsimp only
    split
    · exact finish_readied hown hpending _ _ _
    · exact ⟨hown, hpending, fun hphase => absurd rfl hphase⟩

/-! ## Frames -/

variable [Elementary α]

theorem draw_onCourse (hown : r.generation = own) (hlt : r.index < r.total)
    (hle : r.ahead - 2 + 2 * r.pending ≤ n) (e : Exporter α) : OnCourse own n (draw e r) := by
  have hsteady : Steady own n
      { r with phase := .drawing (single r.sample.time) (shot r.job r.sample) } :=
    ⟨hown, hle, fun _ => hlt, fun h => nomatch h⟩
  exact hsteady.awaiting e rfl

theorem seekB_onCourse (hown : r.generation = own) (hlt : r.index < r.total)
    (hle : r.ahead - 1 + 2 * r.pending ≤ n) (e : Exporter α) : OnCourse own n (seekB e r) := by
  unfold seekB
  split
  · have hsteady : Steady own n
        { r with phase := .seeking .b (clampSeekTime r.sample.timeB r.params.durationB 0.0) } :=
      ⟨hown, hle, fun _ => hlt, fun h => nomatch h⟩
    exact hsteady.awaiting e rfl
  · exact draw_onCourse hown hlt (by omega) e

theorem enterFrame_onCourse (hown : r.generation = own) (hle : r.ahead + 2 * r.pending ≤ n)
    (e : Exporter α) : OnCourse own n (enterFrame e r) := by
  unfold enterFrame
  split
  · exact drain_onCourse hown ((Nat.le_add_left _ _).trans hle) e
  · rename_i hgoes
    have hlt : r.index < r.total := by
      simp only [Bool.or_eq_true, decide_eq_true_eq, not_or] at hgoes
      omega
    split
    · have hsteady : Steady own n
          { r with phase := .seeking .a (clampSeekTime r.sample.timeA r.params.durationA 0.0) } :=
        ⟨hown, hle, fun _ => hlt, fun h => nomatch h⟩
      exact hsteady.awaiting e rfl
    · exact seekB_onCourse hown hlt (by omega) e

theorem nextFrame_onCourse (hown : r.generation = own)
    (hle : 6 * (r.total - (r.index + 1)) + 2 * r.pending ≤ n) (e : Exporter α) :
    OnCourse own n (nextFrame e r) :=
  enterFrame_onCourse (r := { r with index := r.index + 1 }) hown hle e

theorem makeRoom_onCourse (hown : r.generation = own) (hlt : r.index < r.total)
    (hle : r.ahead - 4 + 2 * r.pending ≤ n) (frame : EncodedFrame) (e : Exporter α) :
    OnCourse own n (makeRoom frame e r) := by
  unfold makeRoom
  split
  · rename_i hfull
    have hpending : r.pending ≠ 0 := by
      have hlimit : 1 ≤ r.limit := Nat.le_max_right _ _
      omega
    have hsteady : Steady own n { r with next := some frame, phase := .joining } :=
      ⟨hown, hle, fun _ => hlt, fun _ => hpending⟩
    exact Steady.awaiting (r := { r with next := some frame }) hsteady e rfl
  · refine nextFrame_onCourse (r := { r with next := none, pending := r.pending + 1 }) hown ?_ _
    unfold ahead at hle
    dsimp only
    omega

theorem afterJoin_onCourse (hown : r.generation = own) (hlt : r.next ≠ none → r.index < r.total)
    (hle : r.aheadNext + 2 * r.pending ≤ n) (e : Exporter α) : OnCourse own n (afterJoin e r) := by
  unfold afterJoin
  split
  · rename_i frame hnext
    rw [hnext] at hlt
    rw [aheadNext, hnext] at hle
    exact makeRoom_onCourse hown (hlt (Option.some_ne_none frame)) hle frame e
  · exact drain_onCourse hown ((Nat.le_add_left _ _).trans hle) e

/-! ## Replies -/

theorem Steady.finished (h : Steady own (n + 1) r) (hp : r.phase = .joining) (index : Nat)
    (ending : UploadEnd) (e : Exporter α) : OnCourse own n (Export.finished index ending e r) := by
  have hpending := h.joining (isJoining_iff.mpr hp)
  have hle := h.toCome_le
  simp only [toCome, hp] at hle
  have hlt : r.next ≠ none → r.index < r.total := by
    intro hnext
    refine h.index_lt ?_
    simp only [position?, hp, ne_eq, Option.map_eq_none_iff]
    exact hnext
  have hless : r.aheadNext + 2 * (r.pending - 1) + 1 ≤ n := by omega
  have hjoined : OnCourse own n (Export.afterJoin e { r with pending := r.pending - 1 }) :=
    afterJoin_onCourse (r := { r with pending := r.pending - 1 }) h.number hlt
      ((Nat.le_succ _).trans hless) e
  cases ending with
  | stored frame =>
      refine ⟨⟨h.number, hless, fun hnext => hlt fun hnone => hnext ?_, ?_⟩, ?_⟩
      · exact congrArg (Option.map _) hnone
      · intro hj
        cases hj
      · intro hend
        cases hend
  | failed fault => exact hjoined
  | skipped => exact hjoined
  | lost => exact hjoined

theorem Steady.sought (h : Steady own (n + 1) r) {clip : Clip} {time : α}
    (hp : r.phase = .seeking clip time) (outcome : SeekOutcome) (e : Exporter α) :
    OnCourse own n (Export.sought clip outcome e r) := by
  have hlt : r.index < r.total := h.index_lt (by simp [position?, hp])
  have hahead : r.ahead = 6 * (r.total - r.index) := rfl
  have hle := h.toCome_le
  unfold Export.sought
  cases clip with
  | a =>
      simp only [toCome, hp] at hle
      split
      · exact drain_onCourse h.number (by omega) e
      · exact seekB_onCourse h.number hlt (by omega) e
  | b =>
      simp only [toCome, hp] at hle
      split
      · exact drain_onCourse h.number (by omega) e
      · exact draw_onCourse h.number hlt (by omega) e

theorem Steady.drawn (h : Steady own (n + 1) r) {time : α} {shot : Shot α}
    (hp : r.phase = .drawing time shot) (d : Drawn) (e : Exporter α) :
    OnCourse own n (Export.drawn d e r) := by
  have hlt : r.index < r.total := h.index_lt (by simp [position?, hp])
  have hahead : r.ahead = 6 * (r.total - r.index) := rfl
  have hle := h.toCome_le
  simp only [toCome, hp] at hle
  cases d with
  | picture i =>
      have hsteady : Steady own n { r with phase := .encoding i } := by
        refine ⟨h.number, ?_, fun _ => hlt, ?_⟩
        · change r.ahead - 3 + 2 * r.pending ≤ n
          omega
        · intro hj
          cases hj
      exact hsteady.awaiting e rfl
  | skipped => exact nextFrame_onCourse h.number (by omega) e
  | unreadable => exact nextFrame_onCourse h.number (by omega) e

theorem Steady.encoded (h : Steady own (n + 1) r) {i : Image} (hp : r.phase = .encoding i)
    (e : Exporter α) : OnCourse own n (Export.encoded i e r) := by
  have hlt : r.index < r.total := h.index_lt (by simp [position?, hp])
  have hahead : r.ahead = 6 * (r.total - r.index) := rfl
  have hle := h.toCome_le
  simp only [toCome, hp] at hle
  unfold Export.encoded
  split
  · exact nextFrame_onCourse h.number (by omega) e
  · split
    · exact drain_onCourse h.number (by omega) e
    · exact makeRoom_onCourse h.number hlt (by omega) _ e

theorem Steady.told (h : Steady own (n + 1) r) {progress : α} (hp : r.phase = .report progress)
    (e : Exporter α) : OnCourse own n (Export.afterJoin e r) := by
  have hle := h.toCome_le
  simp only [toCome, hp] at hle
  refine afterJoin_onCourse h.number (fun hnext => h.index_lt ?_) (by omega) e
  simp only [position?, hp, ne_eq, Option.map_eq_none_iff]
  exact hnext

/-- Every reply that a run waits for brings it closer to its end. -/
theorem Steady.resume (h : Steady own (n + 1) r) {reply : Reply α} (hreply : Suits r.phase reply)
    (e : Exporter α) : OnCourse own n (r.resume reply e) := by
  generalize hp : r.phase = phase at hreply
  cases hreply with
  | sought clip time outcome =>
      simp only [Export.resume, hp]
      exact h.sought hp outcome e
  | drawn time shot d =>
      simp only [Export.resume, hp]
      exact h.drawn hp d e
  | encoded i =>
      simp only [Export.resume, hp]
      exact h.encoded hp e
  | finished index ending =>
      simp only [Export.resume, hp]
      exact h.finished hp index ending e
  | told progress =>
      simp only [Export.resume, hp]
      exact h.told hp e

/-- A planned run gets no more replies than it has steps for. -/
theorem composed_onCourse (hown : r.generation = own) (hpending : r.pending = 0)
    (supported : Bool) (e : Exporter α) :
    OnCourse own (6 * (composed supported e r).2.total) (composed supported e r) := by
  unfold composed
  split
  · rw [enterFrame_total]
    refine enterFrame_onCourse
      (r := { r with slots := Array.replicate r.total none, index := 0 }) hown ?_ _
    change 6 * (r.total - 0) + 2 * r.pending ≤ 6 * r.total
    omega
  · exact finish_onCourse hown _ e

end Export

end Segue
