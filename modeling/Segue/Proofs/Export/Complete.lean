import Mathlib
import Segue.Proofs.Export.Delivery
import Segue.Proofs.Export.Ending
import Segue.Proofs.Export.Later

/-!
# Complete exports

A run that is not cancelled uploads every frame that was drawn and could be encoded, and each of
them once. Whatever order the uploads end in, the stored frames come out in the order of their
positions, and the caller is told of each of them.
-/

namespace Segue

variable {α : Type} [Scalar α]

namespace Exporter.Session

/-- The run at place `k` has drawn every frame and begun the upload of each that could be encoded,
once. -/
structure Complete (s : Session α) (k : Nat) (x : ExportCall α) : Prop where
  drawn : x.drawn.map Prod.fst = List.range x.run.total
  once : ((s.begunBy (k + 1)).map (·.1.frame.index)).Nodup
  begun : ((s.begunBy (k + 1)).map (·.1.frame)).Perm
    (Export.encodings x.run.job.format x.drawn)

theorem Sound.complete {s : Session α} (h : s.Sound) {k : Nat} {x : ExportCall α}
    {frames : List FrameRef} (hk : s.runs[k]? = some x)
    (hc : s.exporter.isCancelled (k + 1) = false) (hp : x.run.phase = .ended (.ok frames)) :
    s.Complete k x := by
  have horder := (h.each k x hk).inOrder
  rw [hc] at horder
  cases horder with
  | readying _ hp' => simp [hp] at hp'
  | refused _ _ hp' => simp [hp] at hp'
  | quit _ _ _ hcut => cases hcut
  | working hworking =>
      have hposition : x.run.position? = none := by simp [Export.position?, hp]
      have houtstanding : x.run.outstanding = [] := by simp [Export.outstanding, hp]
      have hdrawn : x.drawn.length = x.run.total := hworking.all_drawn rfl hposition
      have hpositions : x.drawn.map Prod.fst = List.range x.drawn.length := hworking.books.positions
      have hasked : s.askedBy (k + 1) ++ x.run.outstanding =
          Export.encodings x.run.job.format x.drawn := hworking.asked.all (by simp)
      rw [houtstanding, List.append_nil] at hasked
      have hwaiting := (h.delivered hk hp).waiting
      have hskipped : s.skippedBy (k + 1) = [] := by
        rw [List.eq_nil_iff_forall_not_mem]
        intro u hu
        obtain ⟨hmem, hrun⟩ := List.mem_filter.mp hu
        have hcut := h.ledger.skipped_cancelled u hmem
        rw [of_decide_eq_true hrun, hc] at hcut
        cases hcut
      have hbegins := h.ledger.beginsBy (k + 1)
      rw [hasked, hwaiting, hskipped] at hbegins
      simp only [List.map_nil, List.append_nil, List.nil_append] at hbegins
      have honce := h.ledger.begun_nodup hworking.index_sorted
      exact ⟨hdrawn ▸ hpositions, honce, hbegins.symm⟩

/-- The caller is told once of each stored frame. -/
theorem Sound.told {s : Session α} (h : s.Sound) {k : Nat} {x : ExportCall α}
    (hk : s.runs[k]? = some x) : x.told ++ x.run.unreported =
      Export.shares x.run.total ((s.collectedBy (k + 1)).filterMap (·.ending.stored?)).length := by
  have hidle : ∀ {l : Export.Account α}, l = s.account (k + 1) x → Export.Idle x.run l →
      x.run.unreported = [] → x.told ++ x.run.unreported =
      Export.shares x.run.total ((s.collectedBy (k + 1)).filterMap (·.ending.stored?)).length := by
    rintro l rfl hidle hunreported
    have htold : x.told = [] := hidle.told
    have hcollected : s.collectedBy (k + 1) = [] := hidle.collected
    rw [htold, hcollected, hunreported]
    rfl
  cases (h.each k x hk).inOrder with
  | readying hnothing hp => exact hidle rfl hnothing (by simp [Export.unreported, hp])
  | refused _ hnothing hp => exact hidle rfl hnothing (by simp [Export.unreported, hp])
  | quit hnothing hp => exact hidle rfl hnothing (by simp [Export.unreported, hp])
  | working hworking =>
      have huploaded : x.run.uploaded =
          ((s.collectedBy (k + 1)).filterMap (·.ending.stored?)).length :=
        hworking.books.uploaded_eq
      rw [← huploaded]
      exact hworking.told

variable [Elementary α]

/-- What holds of every run of a session, which has come from `s` to `s'`. -/
structure Faithful (s s' : Session α) : Prop where
  live : ∀ (k : Nat) (x : ExportCall α), s'.runs[k]? = some x → s'.Live k x
  inTurn : ∀ run, s.completedBy run <+: s'.completedBy run
  told : ∀ (k : Nat) (x : ExportCall α), s'.runs[k]? = some x → x.told ++ x.run.unreported =
    Export.shares x.run.total ((s'.collectedBy (k + 1)).filterMap (·.ending.stored?)).length
  refused : ∀ (k : Nat) (x : ExportCall α) (fault : ExportError α), s'.runs[k]? = some x →
    x.run.phase = .ended (.error fault) → s'.begunBy (k + 1) = []
  returned : ∀ (k : Nat) (x : ExportCall α) (frames : List FrameRef), s'.runs[k]? = some x →
    s'.exporter.isCancelled (k + 1) = false → x.run.phase = .ended (.ok frames) →
    s'.Complete k x ∧ s'.Delivered k x frames

/-- No frame is lost, uploaded twice or put in the wrong place, however the runs interleave and
whatever becomes of the uploads. -/
theorem faithful_run (p : RetryPolicy) (before after : List (Event α)) :
    Faithful ((start p).run before) (((start p).run before).run after) := by
  have hbefore := sound_run p before
  have hlater := hbefore.later_run after
  have hafter := hbefore.run after
  refine ⟨?_, hlater.completed, ?_, ?_, ?_⟩
  · exact fun k x hk => hafter.live hk
  · exact fun k x hk => hafter.told hk
  · intro k x fault hk hp
    have hasked := hafter.askedBy_of_error hk hp
    have hcount := (hafter.ledger.beginsBy (k + 1)).length_eq
    simp only [hasked, List.length_append, List.length_map, List.length_nil] at hcount
    exact List.eq_nil_of_length_eq_zero (by omega)
  · intro k x frames hk hc hp
    exact ⟨hafter.complete hk hc hp, hafter.delivered hk hp⟩

def twoFrames : ExportJob Rat where
  settings := { (Settings.standard : Settings Rat) with duration := 1, fps := 2 }
  registry := .empty
  width := 1
  height := 1
  margin := 0
  concurrency := 2
  format := .png

/-- The run seeks both clips, draws a frame and asks for its upload. -/
def oneFrame : List (Event Rat) :=
  [.seek 0 .completed, .resume 0 (.sought .completed), .seek 0 .completed,
    .resume 0 (.sought .completed), .resume 0 (.drawn (.picture (.solid 1 1 ⟨0, 0, 0, 255⟩))),
    .resume 0 .done]

/-- The second upload ends before the first. -/
def crossed : List (Event Rat) :=
  [.call twoFrames none none, .prepare 0 ⟨some 1, none⟩ ⟨some 1, none⟩ true] ++
    oneFrame ++ oneFrame ++
    [.start 0 2 (.stored ⟨"first", "", "temp"⟩), .start 0 1 (.stored ⟨"second", "", "temp"⟩),
      .tick 1, .tick 2, .join 0, .resume 0 .done, .join 0, .resume 0 .done]

-- the easing of the standard settings is linear and needs no elementary functions
example : letI : Elementary Rat := ⟨id, id, id, id, 3⟩
    let s := (start .standard).run crossed
    (s.exporter.isCancelled 1, s.collected.map (·.index), s.exporter.frames.map (·.name),
      s.runs.map (·.told)) = (false, [1, 0], ["first", "second"], [[1 / 2, 1]]) := by
  decide +kernel

end Exporter.Session

end Segue
