import Mathlib
import Segue.Proofs.Export.Complete
import Segue.Proofs.Export.Shared

/-!
# The newest run

Whatever the runs of an exporter do beside each other, only the newest of them writes what they
share. A run that has not ended is cancelled as soon as a newer one is called, and once all runs
have ended, nothing is exported any more and the frames shown are those of the newest run.
-/

namespace Segue

open Scalar

variable {α : Type}

namespace Exporter

namespace Event

def run? : Event α → Option Nat
  | .prepare k _ _ _ | .resume k _ | .join k => some k
  | _ => none

def isCall : Event α → Bool
  | .call _ _ _ => true
  | _ => false

def isAbort : Event α → Bool
  | .abort => true
  | _ => false

def isClear : Event α → Bool
  | .clear => true
  | _ => false

end Event

namespace Session

/-- The run that was called last. -/
def newest? (s : Session α) : Option (Export α) := (s.runs[s.runs.length - 1]?).map (·.run)

theorem newest_of_map_eq {s s' : Session α} (h : s'.runs.map (·.run) = s.runs.map (·.run)) :
    s'.newest? = s.newest? := by
  have hlength : s'.runs.length = s.runs.length := by simpa using congrArg List.length h
  have hlast := congrArg (·[s.runs.length - 1]?) h
  simpa [newest?, hlength] using hlast

theorem newest_append {s s' : Session α} {x : ExportCall α} (h : s'.runs = s.runs ++ [x]) :
    s'.newest? = some x.run := by
  simp [newest?, h]

theorem newest_set {s s' : Session α} {k : Nat} {x x' : ExportCall α} (hk : s.runs[k]? = some x)
    (h : s'.runs = s.runs.set k x') :
    s'.newest? = if k + 1 = s.runs.length then some x'.run else s.newest? := by
  have hlt : k < s.runs.length := (List.getElem?_eq_some_iff.mp hk).1
  simp only [newest?, h, List.length_set]
  split
  · rename_i hlast
    have hplace : s.runs.length - 1 = k := by omega
    rw [hplace, List.getElem?_set_self hlt, Option.map_some]
  · rename_i hlast
    have hplace : k ≠ s.runs.length - 1 := by omega
    rw [List.getElem?_set_ne hplace]

theorem map_run_set {runs : List (ExportCall α)} {k : Nat} {x x' : ExportCall α}
    (hk : runs[k]? = some x) (hrun : x'.run = x.run) :
    (runs.set k x').map (·.run) = runs.map (·.run) := by
  have hmap : (runs.map (·.run))[k]? = some x.run := by rw [List.getElem?_map, hk, Option.map_some]
  obtain ⟨hlt, hx⟩ := List.getElem?_eq_some_iff.mp hmap
  rw [List.map_set, hrun, ← hx]
  exact List.set_getElem_self hlt

variable [Scalar α] [Elementary α]

/-! ## Steps -/

/-- What shows of a step. -/
inductive Effect (s : Session α) (e : Event α) (s' : Session α) : Prop
  /-- Nothing does, also when an older run goes on. -/
  | quiet : s'.exporter.shared = s.exporter.shared → s'.newest? = s.newest? → Effect s e s'
  | call {r : Export α} : e.isCall = true → s'.newest? = some r → r.returned = [] →
      s'.exporter.shared =
        ⟨!r.hasEnded, 0.0, 0, [], if r.hasEnded then none else some s'.runs.length⟩ →
      Effect s e s'
  | goOn {r r' : Export α} : e.run? = some (s.runs.length - 1) → s.newest? = some r →
      r.generation = s.exporter.generation → r.hasEnded = false → s'.newest? = some r' →
      Written r r' s.exporter s'.exporter → Effect s e s'
  | abort : e.isAbort = true → s'.newest? = s.newest? →
      s'.exporter.shared = { s.exporter.shared with exporting := false } → Effect s e s'
  | clear : e.isClear = true → s'.newest? = s.newest? →
      s'.exporter.shared = ⟨false, 0.0, 0, [], s.exporter.token⟩ → Effect s e s'

/-- A run that is called begins afresh, or has nothing to export. -/
theorem call_shared (job : ExportJob α) (a b : Option MediaError) (e : Exporter α) :
    ((Export.make job).resume (.duplicated a b) e).2.returned = [] ∧
    ((Export.make job).resume (.duplicated a b) e).1.shared =
      ⟨!((Export.make job).resume (.duplicated a b) e).2.hasEnded, 0.0, 0, [],
        if ((Export.make job).resume (.duplicated a b) e).2.hasEnded then none
        else some (e.generation + 1)⟩ := by
  cases a with
  | none => exact ⟨rfl, rfl⟩
  | some fault =>
      cases b with
      | none => exact ⟨rfl, rfl⟩
      | some fault' =>
          have hlatest : e.beginRun.generation = e.generation + 1 := rfl
          have hend : ((Export.make job).resume (.duplicated (some fault) (some fault')) e).1 =
              { e.beginRun with exporting := false, token := none } := by
            change endRun (e.generation + 1) e.beginRun = _
            exact onlyLatest_of_eq hlatest _
          refine ⟨rfl, ?_⟩
          rw [hend]
          rfl

omit [Elementary α] in
/-- A run goes on. What an older one writes is lost. -/
theorem Sound.effect_goOn {s s' : Session α} (h : s.Sound) {e : Event α} {k : Nat}
    {x x' : ExportCall α} (he : e.run? = some k) (hk : s.runs[k]? = some x)
    (hended : x.run.hasEnded = false) (hruns : s'.runs = s.runs.set k x')
    (hwritten : Written x.run x'.run s.exporter s'.exporter) : Effect s e s' := by
  have hlt : k < s.runs.length := (List.getElem?_eq_some_iff.mp hk).1
  have hnumber : x.run.generation = k + 1 := (h.each k x hk).number
  have hcount := h.count
  have hnewest := newest_set hk hruns
  by_cases hlast : k + 1 = s.runs.length
  · rw [if_pos hlast] at hnewest
    have hplace : s.runs.length - 1 = k := by omega
    refine .goOn (he.trans (congrArg some hplace.symm)) ?_ (by omega) hended hnewest hwritten
    rw [newest?, hplace, hk, Option.map_some]
  · rw [if_neg hlast] at hnewest
    exact .quiet (hwritten.stale (by omega)) hnewest

theorem Sound.effect_call {s : Session α} (h : s.Sound) (job : ExportJob α)
    (a b : Option MediaError) : Effect s (.call job a b) (s.step (.call job a b)) := by
  obtain ⟨hreturned, hshared⟩ := call_shared job a b s.exporter
  have hlength : (s.step (.call job a b)).runs.length = s.exporter.generation + 1 := by
    rw [h.count]
    exact List.length_append
  refine .call rfl (newest_append rfl) hreturned ?_
  rw [hlength]
  exact hshared

/-- The queue that a result is taken from does not show. -/
theorem written_join {r : Export α} (hj : r.isJoining = true) (u : FinishedUpload)
    (left : List FinishedUpload) (e : Exporter α) :
    Written r (r.resume (.finished u.index u.ending) { e with finished := left }).2 e
      (r.resume (.finished u.index u.ending) { e with finished := left }).1 := by
  have hwritten := Export.finished_written u.index u.ending { e with finished := left } r
  have hresume : r.resume (.finished u.index u.ending) { e with finished := left } =
      Export.finished u.index u.ending { e with finished := left } r := by
    simp only [Export.resume, Export.isJoining_iff.mp hj]
  rw [hresume]
  exact ⟨hwritten.generation, hwritten.stale, hwritten.size, hwritten.exporting,
    hwritten.frames, hwritten.token, hwritten.progress, hwritten.frameCount⟩

theorem Taken.effect {s s' : Session α} {e : Event α} (ht : Taken s e s') (h : s.Sound) :
    Effect s e s' := by
  cases ht with
  | idle => exact .quiet rfl rfl
  | call job a b => exact h.effect_call job a b
  | prepare a b supported hk hready =>
      have hphase := Export.isReadying_iff.mp hready
      have hwritten := Export.setUp_written hphase a b supported s.exporter
      exact h.effect_goOn rfl hk (by simp [Export.hasEnded, hphase]) rfl hwritten
  | resume hk hreply =>
      have hwritten := Export.resume_written hreply s.exporter
      exact h.effect_goOn rfl hk (Export.hasEnded_of_awaits hreply) rfl hwritten
  | @seek k x outcome hk _ =>
      exact .quiet rfl (newest_of_map_eq (map_run_set hk (run_seek s.policy _ outcome x)))
  | @join k x u left hk hj _ =>
      have hended : x.run.hasEnded = false := by simp [Export.hasEnded, Export.isJoining_iff.mp hj]
      exact h.effect_goOn rfl hk hended rfl (written_join hj u left s.exporter)
  | skip | begin | tick => exact .quiet rfl rfl
  | abort => exact .abort rfl rfl rfl
  | clear => exact .clear rfl rfl rfl

theorem Sound.effect {s : Session α} (h : s.Sound) (e : Event α) : Effect s e (s.step e) :=
  (s.taken e).effect h

/-- What each of these events keeps of a sound session holds after all of them. -/
theorem Sound.run_induction_on {P : Session α → Prop} {s : Session α} (h : s.Sound) (hs : P s)
    (events : List (Event α)) (hstep : ∀ t : Session α, t.Sound → P t → ∀ e ∈ events, P (t.step e)) :
    P (s.run events) := by
  induction events using List.reverseRecOn with
  | nil => exact hs
  | append_singleton events e ih =>
      rw [run_append]
      refine hstep _ (h.run events) (ih ?_) e (by simp)
      intro t ht hp d hd
      exact hstep t ht hp d (List.mem_append_left _ hd)

/-! ## What the newest run shows -/

omit [Scalar α] [Elementary α] in
def newestFrames (s : Session α) : List FrameRef := (s.newest?.map Export.returned).getD []

omit [Scalar α] [Elementary α] in
theorem newestFrames_of_newest? {s : Session α} {r : Export α} (h : s.newest? = some r) :
    s.newestFrames = r.returned := by
  rw [newestFrames, h, Option.map_some, Option.getD_some]

/-- Only a run that has not ended exports or can be cancelled, and no frames are shown until it
ends. -/
structure Shows (s : Session α) : Prop where
  busy : s.exporter.exporting = true ∨ s.exporter.token ≠ none →
    ∃ r, s.newest? = some r ∧ r.hasEnded = false
  frames : s.exporter.frames = [] ∨ s.exporter.frames = s.newestFrames

omit [Scalar α] [Elementary α] in
theorem Shows.frames_eq_nil {s : Session α} (h : s.Shows) {r : Export α}
    (hnewest : s.newest? = some r) (hended : r.hasEnded = false) : s.exporter.frames = [] := by
  rcases h.frames with hnil | heq
  · exact hnil
  · rw [heq, newestFrames_of_newest? hnewest, Export.returned_of_not_hasEnded hended]

omit [Scalar α] [Elementary α] in
/-- Nothing changes but that an export may be cut off and frames may be forgotten. -/
theorem Shows.of_newest? {s s' : Session α} (h : s.Shows) (hnewest : s'.newest? = s.newest?)
    (hexporting : s'.exporter.exporting = true → s.exporter.exporting = true)
    (htoken : s'.exporter.token = s.exporter.token)
    (hframes : s'.exporter.frames = [] ∨ s'.exporter.frames = s.exporter.frames) : s'.Shows where
  busy hon := by
    rw [hnewest]
    rw [htoken] at hon
    exact h.busy (hon.imp_left hexporting)
  frames := by
    rcases hframes with hnil | heq
    · exact .inl hnil
    · rw [heq, newestFrames, hnewest]
      exact h.frames

omit [Elementary α] in
theorem Effect.shows {s s' : Session α} {e : Event α} (h : Effect s e s') (hs : s.Shows) :
    s'.Shows := by
  cases h with
  | quiet hshared hnewest =>
      obtain ⟨hexporting, -, -, hframes, htoken⟩ := Shared.mk.inj hshared
      exact hs.of_newest? hnewest (fun hon => hexporting ▸ hon) htoken (.inr hframes)
  | @call r _ hnewest _ hshared =>
      obtain ⟨hexporting, -, -, hframes, htoken⟩ := Shared.mk.inj hshared
      refine ⟨?_, .inl hframes⟩
      rintro (hon | hon)
      · rw [hexporting] at hon
        exact ⟨r, hnewest, by simpa using hon⟩
      · rw [htoken] at hon
        exact ⟨r, hnewest, by simpa using hon⟩
  | @goOn r r' _ hold hgeneration hended hnewest hwritten =>
      have hnil := hs.frames_eq_nil hold hended
      refine ⟨?_, .inr ?_⟩
      · rintro (hon | hon)
        · rw [hwritten.exporting hgeneration.symm hnil] at hon
          exact ⟨r', hnewest, by simpa using (Bool.and_eq_true_iff.mp hon).2⟩
        · rw [hwritten.token hgeneration.symm hnil] at hon
          refine ⟨r', hnewest, ?_⟩
          cases hended' : r'.hasEnded with
          | false => rfl
          | true => exact absurd (if_pos hended') hon
      · rw [newestFrames_of_newest? hnewest]
        exact hwritten.frames hgeneration.symm hnil
  | abort _ hnewest hshared =>
      obtain ⟨hexporting, -, -, hframes, htoken⟩ := Shared.mk.inj hshared
      refine hs.of_newest? hnewest (fun hon => ?_) htoken (.inr hframes)
      cases hexporting.symm.trans hon
  | clear _ hnewest hshared =>
      obtain ⟨hexporting, -, -, hframes, htoken⟩ := Shared.mk.inj hshared
      refine hs.of_newest? hnewest (fun hon => ?_) htoken (.inl hframes)
      cases hexporting.symm.trans hon

omit [Elementary α] in
/-- Without a clear, the frames of the newest run are shown as soon as it has ended. -/
theorem Effect.frames_eq {s s' : Session α} {e : Event α} (h : Effect s e s')
    (hclear : e.isClear = false) (hs : s.exporter.frames = s.newestFrames) :
    s'.exporter.frames = s'.newestFrames := by
  cases h with
  | quiet hshared hnewest =>
      rw [newestFrames, hnewest]
      exact (congrArg Shared.frames hshared).trans hs
  | call _ hnewest hreturned hshared =>
      rw [newestFrames_of_newest? hnewest, hreturned]
      exact congrArg Shared.frames hshared
  | goOn _ hold hgeneration hended hnewest hwritten =>
      rw [newestFrames_of_newest? hold, Export.returned_of_not_hasEnded hended] at hs
      rw [newestFrames_of_newest? hnewest]
      exact hwritten.frames hgeneration.symm hs
  | abort _ hnewest hshared =>
      rw [newestFrames, hnewest]
      exact (congrArg Shared.frames hshared).trans hs
  | clear his _ _ => cases hclear.symm.trans his

theorem shows_run (p : RetryPolicy) (events : List (Event α)) : ((start p).run events).Shows := by
  refine (sound_start p).run_induction_on ⟨by simp [start, make], .inl rfl⟩ events ?_
  intro s hsound hshows e _
  exact (hsound.effect e).shows hshows

theorem frames_run (p : RetryPolicy) (events : List (Event α))
    (hclear : ∀ e ∈ events, e.isClear = false) :
    ((start p).run events).exporter.frames = ((start p).run events).newestFrames := by
  refine (sound_start p).run_induction_on
    (P := fun s => s.exporter.frames = s.newestFrames) rfl events ?_
  intro s hsound hframes e he
  exact (hsound.effect e).frames_eq (hclear e he) hframes

/-! ## The rule of the newest run -/

/-- A run that has not ended when another is called has lost its token for good. -/
theorem Sound.isCancelled_of_call {s : Session α} (h : s.Sound) {k : Nat} {x : ExportCall α}
    (hk : s.runs[k]? = some x) (hended : x.run.hasEnded = false) (job : ExportJob α)
    (a b : Option MediaError) (later : List (Event α)) :
    ((s.step (.call job a b)).run later).exporter.isCancelled (k + 1) = true := by
  have hlater := (h.run [.call job a b]).later_run later
  have hcalled := Export.call_called job a b s.exporter
  refine isCancelled_mono hlater.cancelled ?_
  rcases (h.each k x hk).alive hended with hc | ht
  · have hmono := ((h.change (.call job a b)).later h).cancelled
    exact isCancelled_mono hmono hc
  · rw [isCancelled_iff]
    change k + 1 ∈ ((Export.make job).resume (.duplicated a b) s.exporter).1.cancelled
    rw [hcalled.cancelled, ht]
    exact List.mem_cons_self

omit [Elementary α] in
theorem Sound.isCancelled_of_older {s : Session α} (h : s.Sound) {k : Nat} {x : ExportCall α}
    (hk : s.runs[k]? = some x) (hended : x.run.hasEnded = false) (hlt : k + 1 < s.runs.length) :
    s.exporter.isCancelled (k + 1) = true := by
  rcases (h.each k x hk).alive hended with hc | ht
  · exact hc
  · have hnewest := h.token_eq (k + 1) ht
    have hcount := h.count
    omega

/-- What the runs of a session may do to what they share. -/
structure NewestRules (s : Session α) : Prop where
  written : ∀ e : Event α, e.isClear = false →
    (s.step e).exporter.shared ≠ s.exporter.shared →
    e.isCall = true ∨ e.isAbort = true ∨ e.run? = some (s.runs.length - 1)
  superseded : ∀ (k : Nat) (x : ExportCall α), s.runs[k]? = some x → x.run.hasEnded = false →
    ∀ job a b later, ((s.step (.call job a b)).run later).exporter.isCancelled (k + 1) = true
  older : ∀ (k : Nat) (x : ExportCall α), s.runs[k]? = some x → k + 1 < s.runs.length →
    s.exporter.isCancelled (k + 1) = true ∨ x.run.hasEnded = true ∧ s.waitingBy (k + 1) = []
  returned : (∀ x ∈ s.runs, x.run.hasEnded = true) →
    s.exporter.exporting = false ∧ s.exporter.token = none ∧ s.exporter.frames = s.newestFrames

/-- Whatever the older runs still do, and whenever exports are aborted, only the newest run shows. -/
theorem newest_run (p : RetryPolicy) (events : List (Event α))
    (hclear : ∀ e ∈ events, e.isClear = false) : ((start p).run events).NewestRules := by
  have hsound := sound_run p events
  have hshows := shows_run p events
  have hframes := frames_run p events hclear
  generalize (start p : Session α).run events = s at hsound hshows hframes ⊢
  refine ⟨?_, ?_, ?_, ?_⟩
  · intro e hclear hchanged
    cases hsound.effect e with
    | quiet hshared => exact absurd hshared hchanged
    | call hcall => exact .inl hcall
    | goOn hrun => exact .inr (.inr hrun)
    | abort habort => exact .inr (.inl habort)
    | clear his => cases hclear.symm.trans his
  · intro k x hk hended job a b later
    exact hsound.isCancelled_of_call hk hended job a b later
  · intro k x hk hlt
    cases hended : x.run.hasEnded with
    | false => exact .inl (hsound.isCancelled_of_older hk hended hlt)
    | true => exact .inr ⟨rfl, hsound.waitingBy_of_hasEnded hk hended⟩
  · intro hended
    have hidle : ¬(s.exporter.exporting = true ∨ s.exporter.token ≠ none) := by
      intro hbusy
      obtain ⟨r, hnewest, hgoing⟩ := hshows.busy hbusy
      obtain ⟨x, hx, rfl⟩ := Option.map_eq_some_iff.mp hnewest
      cases hgoing.symm.trans (hended x (List.mem_of_getElem? hx))
    simp only [not_or, Bool.not_eq_true, not_not] at hidle
    exact ⟨hidle.1, hidle.2, hframes⟩

/-- The second run is called while the first one uploads a frame, and can draw nothing. -/
def overtaken : List (Event Rat) :=
  [.call twoFrames none none, .prepare 0 ⟨some 1, none⟩ ⟨some 1, none⟩ true] ++ oneFrame ++
    [.start 0 1 (.stored ⟨"first", "", "temp"⟩), .call twoFrames none none, .tick 1,
      .seek 0 .cancelled, .resume 0 (.sought .cancelled), .join 0, .resume 0 .done,
      .prepare 1 ⟨some 1, none⟩ ⟨some 1, none⟩ false]

/-- The first run returns its frame; nothing is shown of it. -/
theorem newest_run_overtaken : letI : Elementary Rat := ⟨id, id, id, id, 3⟩
    let s := (start .standard).run overtaken
    (s.runs.map fun x => (x.run.hasEnded, x.run.returned.map (·.name))) =
      [(true, ["first"]), (true, [])] ∧ s.NewestRules := by
  let _ : Elementary Rat := ⟨id, id, id, id, 3⟩
  refine ⟨by decide +kernel, newest_run .standard overtaken ?_⟩
  decide +kernel

end Session

end Exporter

end Segue
