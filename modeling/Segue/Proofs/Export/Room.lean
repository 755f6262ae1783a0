import Mathlib
import Segue.Proofs.Export.Complete

/-!
# Room among the uploads

A run counts the uploads whose results it has not taken, ended or not, and holds a frame back while
there are as many as its job allows. So the uploads under way are never more, and since a run holds
back only at the limit, the next result that it takes makes the room for its frame.
-/

namespace Segue

variable {α : Type}

namespace Export

/-- The frame that a run holds back until there is room for its upload. -/
def heldBack? (r : Export α) : Option EncodedFrame :=
  match r.phase with
  | .joining | .report _ => r.next
  | _ => none

theorem heldBack?_cases {r : Export α} {frame : EncodedFrame} (h : r.heldBack? = some frame) :
    r.next = some frame ∧ (r.phase = .joining ∨ ∃ progress, r.phase = .report progress) := by
  unfold heldBack? at h
  split at h
  · rename_i hp
    exact ⟨h, .inl hp⟩
  · rename_i progress hp
    exact ⟨h, .inr ⟨progress, hp⟩⟩
  · cases h

/-! ## The count of a run -/

/-- A run of a job with no more uploads than the job allows. -/
structure Within (job : ExportJob α) (r : Export α) : Prop where
  job_eq : r.job = job
  pending_le : r.pending ≤ max job.concurrency 1

/-- The run holds a frame back only when it has as many as that, and it has less after it has taken
a result. -/
structure Fits (job : ExportJob α) (r : Export α) : Prop extends Within job r where
  full : r.isJoining = true → r.next ≠ none → r.pending = max job.concurrency 1
  taken : ∀ progress, r.phase = .report progress → r.pending < max job.concurrency 1

variable {job : ExportJob α} {r : Export α}

theorem Within.fits (h : Within job r) (hjoining : r.isJoining = false)
    (hreport : ∀ progress, r.phase ≠ .report progress) : Fits job r where
  toWithin := h
  full hj := by
    rw [hjoining] at hj
    cases hj
  taken progress hp := absurd hp (hreport progress)

theorem Within.awaiting (h : Within job r) (phase : Phase α) (e : Exporter α)
    (hjoining : ({ r with phase } : Export α).isJoining = false)
    (hreport : ∀ progress, phase ≠ .report progress) : Fits job (awaiting phase e r).2 :=
  Within.fits ⟨h.job_eq, h.pending_le⟩ hjoining hreport

theorem Within.finish (h : Within job r) (result : Except (ExportError α) (List FrameRef))
    (e : Exporter α) : Fits job (finish result e r).2 :=
  Within.fits ⟨h.job_eq, h.pending_le⟩ rfl fun _ hp => nomatch hp

theorem Within.drain (h : Within job r) (e : Exporter α) : Fits job (drain e r).2 := by
  unfold Export.drain
  split
  · exact h.finish _ _
  · exact ⟨⟨h.job_eq, h.pending_le⟩, fun _ hnext => absurd rfl hnext, fun _ hp => nomatch hp⟩

theorem make_fits [Scalar α] (job : ExportJob α) : Fits job (make job) :=
  Within.fits ⟨rfl, Nat.zero_le _⟩ rfl fun _ hp => nomatch hp

theorem Within.duplicated [Scalar α] (h : Within job r) (a b : Option MediaError) (e : Exporter α) :
    Fits job (duplicated a b e r).2 := by
  have hnew : Within job { r with
      generation := e.beginRun.generation, hasA := a.isNone, hasB := b.isNone } :=
    ⟨h.job_eq, h.pending_le⟩
  unfold Export.duplicated
  dsimp only
  split
  · exact hnew.finish _ _
  · exact hnew.awaiting _ _ rfl fun _ hp => nomatch hp

variable [Scalar α] [Elementary α]

theorem Within.draw (h : Within job r) (e : Exporter α) : Fits job (draw e r).2 :=
  h.awaiting _ e rfl fun _ hp => nomatch hp

theorem Within.seekB (h : Within job r) (e : Exporter α) : Fits job (seekB e r).2 := by
  unfold Export.seekB
  split
  · exact h.awaiting _ e rfl fun _ hp => nomatch hp
  · exact h.draw e

theorem Within.enterFrame (h : Within job r) (e : Exporter α) : Fits job (enterFrame e r).2 := by
  unfold Export.enterFrame
  split
  · exact h.drain e
  · split
    · exact h.awaiting _ e rfl fun _ hp => nomatch hp
    · exact h.seekB e

theorem Within.nextFrame (h : Within job r) (e : Exporter α) : Fits job (nextFrame e r).2 := by
  have hnext : Within job { r with index := r.index + 1 } := ⟨h.job_eq, h.pending_le⟩
  exact hnext.enterFrame e

theorem Within.makeRoom (h : Within job r) (frame : EncodedFrame) (e : Exporter α) :
    Fits job (makeRoom frame e r).2 := by
  obtain ⟨rfl, hle⟩ := h
  unfold Export.makeRoom
  split
  · rename_i hfull
    -- it holds back at the limit only, where the two bounds meet
    exact ⟨⟨rfl, hle⟩, fun _ _ => Nat.le_antisymm hle hfull, fun _ hp => nomatch hp⟩
  · rename_i hroom
    have hasked : Within r.job { r with next := none, pending := r.pending + 1 } :=
      ⟨rfl, Nat.lt_of_not_le hroom⟩
    exact hasked.nextFrame _

theorem Within.afterJoin (h : Within job r) (e : Exporter α) : Fits job (afterJoin e r).2 := by
  unfold Export.afterJoin
  split
  · exact h.makeRoom _ e
  · exact h.drain e

theorem Within.finished (h : Within job r) (index : Nat) (ending : UploadEnd) (e : Exporter α) :
    Fits job (finished index ending e r).2 := by
  have hle := h.pending_le
  have hless : r.pending - 1 < max job.concurrency 1 := by omega
  have htaken : Within job { r with pending := r.pending - 1 } := ⟨h.job_eq, hless.le⟩
  cases ending with
  | stored frame =>
      exact ⟨⟨h.job_eq, hless.le⟩, fun hj _ => (nomatch hj), fun _ _ => hless⟩
  | failed fault => exact htaken.afterJoin e
  | skipped => exact htaken.afterJoin e
  | lost => exact htaken.afterJoin e

omit [Elementary α] in
theorem Within.plan (h : Within job r) (a b : ClipFacts α) (e : Exporter α) :
    Fits job (plan a b e r).2 := by
  unfold Export.plan
  split
  · exact h.finish _ e
  · dsimp only
    split
    · exact h.finish _ e
    · rename_i params _
      have hplanned : Within job { r with
          params
          total := Timeline.frameCount r.job.settings.mode params
            (r.job.settings.effectiveFps [a.frameRate, b.frameRate]) } :=
        ⟨h.job_eq, h.pending_le⟩
      exact hplanned.awaiting .composing e rfl fun _ hp => nomatch hp

theorem Within.composed (h : Within job r) (supported : Bool) (e : Exporter α) :
    Fits job (composed supported e r).2 := by
  unfold Export.composed
  split
  · have hequipped : Within job { r with slots := Array.replicate r.total none, index := 0 } :=
      ⟨h.job_eq, h.pending_le⟩
    exact hequipped.enterFrame _
  · exact h.finish _ e

theorem Within.sought (h : Within job r) (clip : Clip) (outcome : SeekOutcome) (e : Exporter α) :
    Fits job (sought clip outcome e r).2 := by
  unfold Export.sought
  split
  · exact h.drain e
  · cases clip with
    | a => exact h.seekB e
    | b => exact h.draw e

theorem Within.drawn (h : Within job r) (d : Drawn) (e : Exporter α) :
    Fits job (drawn d e r).2 := by
  cases d with
  | picture i => exact h.awaiting _ e rfl fun _ hp => nomatch hp
  | skipped => exact h.nextFrame e
  | unreadable => exact h.nextFrame e

theorem Within.encoded (h : Within job r) (i : Image) (e : Exporter α) :
    Fits job (encoded i e r).2 := by
  unfold Export.encoded
  split
  · exact h.nextFrame e
  · split
    · exact h.drain e
    · exact h.makeRoom _ e

theorem Fits.resume (h : Fits job r) (reply : Reply α) (e : Exporter α) :
    Fits job (r.resume reply e).2 := by
  unfold Export.resume
  split
  · exact h.duplicated _ _ e
  · exact h.plan _ _ e
  · exact h.composed _ e
  · exact h.sought _ _ e
  · exact h.drawn _ e
  · exact h.encoded _ e
  · exact h.finished _ _ e
  · exact h.afterJoin e
  · exact h

/-! ## The way out of the wait for room -/

theorem makeRoom_asks {frame : EncodedFrame} (hroom : r.pending < r.limit) (e : Exporter α) :
    (makeRoom frame e r).1.waiting = e.waiting ++ [⟨r.generation, frame⟩] := by
  unfold makeRoom
  rw [if_neg (Nat.not_le_of_lt hroom)]
  exact waiting_enterFrame

/-- What a result does for the frame that is held back: the caller is told of the result first, or
the frame is asked for at once. -/
inductive Eases (frame : EncodedFrame) (e : Exporter α) (r : Export α) (y : Running α) : Prop
  | tells : y.2.heldBack? = some frame → y.2.isJoining = false → Eases frame e r y
  | asks : y.1.waiting = e.waiting ++ [⟨r.generation, frame⟩] → Eases frame e r y

theorem Within.eases (h : Within job r) {frame : EncodedFrame} (hnext : r.next = some frame)
    (index : Nat) (ending : UploadEnd) (e : Exporter α) :
    Eases frame e r (Export.finished index ending e r) := by
  have hroom : r.pending - 1 < r.limit := by
    have hle := h.pending_le
    rw [limit, h.job_eq]
    omega
  have hasks : Eases frame e r (Export.afterJoin e { r with pending := r.pending - 1 }) := by
    simp only [Export.afterJoin, hnext]
    exact .asks (makeRoom_asks (r := { r with pending := r.pending - 1 }) hroom e)
  cases ending with
  | stored stored => exact .tells hnext rfl
  | failed fault => exact hasks
  | skipped => exact hasks
  | lost => exact hasks

theorem Fits.reported_asks (h : Fits job r) {progress : α} (hp : r.phase = .report progress)
    {frame : EncodedFrame} (hnext : r.next = some frame) (e : Exporter α) :
    (r.resume .done e).1.waiting = e.waiting ++ [⟨r.generation, frame⟩] := by
  have hroom : r.pending < r.limit := by
    rw [limit, h.job_eq]
    exact h.taken progress hp
  simp only [Export.resume, hp, Export.afterJoin, hnext]
  exact makeRoom_asks hroom e

end Export

namespace Exporter

def Event.job? : Event α → Option (ExportJob α)
  | .call job _ _ => some job
  | _ => none

def Event.about? : Event α → Option Nat
  | .prepare k _ _ _ | .resume k _ | .seek k _ | .join k => some k
  | .call _ _ _ | .start _ _ _ | .tick _ | .abort | .clear => none

namespace Session

def jobs (events : List (Event α)) : List (ExportJob α) := events.filterMap Event.job?

/-- How many uploads a run has asked for whose results it has not taken. -/
def openBy (s : Session α) (run : Nat) : Nat :=
  (s.waitingBy run).length + (s.runningBy run).length + (s.finishedBy run).length

/-! ## Every run keeps to the limit of its job -/

/-- The runs are those of the jobs, and each keeps to its limit. -/
structure Fitting (jobs : List (ExportJob α)) (s : Session α) : Prop where
  length_eq : s.runs.length = jobs.length
  each : ∀ (k : Nat) (x : ExportCall α), s.runs[k]? = some x →
    ∃ job, jobs[k]? = some job ∧ Export.Fits job x.run

variable {jobs : List (ExportJob α)} {s s' : Session α}

theorem mem_askedBy_moved {k run : Nat} {frame : EncodedFrame} {e : Exporter α}
    {y : Exporter α × ExportCall α} (h : y.1.waiting = e.waiting ++ [⟨run, frame⟩]) :
    frame ∈ (s.moved k e y).askedBy run := by
  refine List.mem_map.mpr ⟨⟨run, frame⟩, List.mem_filter.mpr ⟨?_, decide_eq_true rfl⟩, rfl⟩
  refine List.mem_append_right _ ?_
  rw [h, List.drop_left]
  exact List.mem_singleton_self _

variable [Scalar α]

theorem Sound.pending_eq (h : s.Sound) {k : Nat} {x : ExportCall α} (hk : s.runs[k]? = some x) :
    x.run.pending = s.openBy (k + 1) := by
  have hcount := h.ledger.count (k + 1)
  have hidle (hidle : Export.Idle x.run (s.account (k + 1) x)) :
      x.run.pending = s.openBy (k + 1) := by
    have hasked : s.askedBy (k + 1) = [] := hidle.asked
    rw [hasked, List.length_nil] at hcount
    rw [hidle.pending, openBy]
    omega
  cases (h.each k x hk).inOrder with
  | readying hnothing _ _ => exact hidle hnothing
  | refused _ hnothing _ _ _ => exact hidle hnothing
  | quit hnothing _ _ _ => exact hidle hnothing
  | working hworking =>
      -- what was asked for is waiting, under way, ended or taken; only the last is not counted
      have hpending : x.run.pending + (s.collectedBy (k + 1)).length = (s.askedBy (k + 1)).length :=
        hworking.books.pending_eq
      rw [openBy]
      omega

variable [Elementary α]

/-- What an event does to the runs: one is called, the one that the event is about goes on, or all
stay as they are. Only that one can take a result. -/
inductive Moves (s : Session α) (e : Event α) (s' : Session α) : Prop
  | stays : e.job? = none → s'.runs = s.runs → s'.collected = s.collected → Moves s e s'
  | calls (job : ExportJob α) (x : ExportCall α) : e.job? = some job → Export.Fits job x.run →
      s'.runs = s.runs ++ [x] → s'.collected = s.collected → Moves s e s'
  | goesOn (k : Nat) (x x' : ExportCall α) : e.job? = none → e.about? = some k →
      s.runs[k]? = some x → s'.runs = s.runs.set k x' →
      (∀ job, Export.Fits job x.run → Export.Fits job x'.run) →
      (∀ run, run ≠ k + 1 → s'.collectedBy run = s.collectedBy run) → Moves s e s'

theorem Taken.moves {s' : Session α} {e : Event α} (ht : Taken s e s') (h : s.Sound) :
    Moves s e s' := by
  cases ht with
  | idle hcall =>
      refine .stays ?_ rfl rfl
      cases e with
      | call job a b => exact absurd rfl (hcall job a b)
      | _ => rfl
  | call job a b =>
      exact .calls job _ rfl ((Export.make_fits job).resume (.duplicated a b) s.exporter) rfl rfl
  | @prepare k x a b supported hk _ =>
      exact .goesOn k x _ rfl rfl hk rfl (fun _ hx => (hx.resume _ _).resume _ _) fun _ _ => rfl
  | @resume k x reply hk _ =>
      exact .goesOn k x _ rfl rfl hk rfl (fun _ hx => hx.resume _ _) fun _ _ => rfl
  | @seek k x outcome hk _ =>
      have hsame := run_seek s.policy (s.exporter.isCancelled x.run.generation) outcome x
      exact .goesOn k x _ rfl rfl hk rfl (fun _ hx => hsame.symm ▸ hx) fun _ _ => rfl
  | @join k x u left hk _ hleft =>
      refine .goesOn k x _ rfl rfl hk rfl (fun _ hx => hx.resume _ _) fun run hrun => ?_
      rw [(h.each k x hk).number] at hleft
      have hother : u.run ≠ run := (perm_of_takeFirst? hleft).2.trans_ne hrun.symm
      change (s.collected ++ [u]).filter _ = s.collected.filter _
      rw [List.filter_append, List.filter_singleton, decide_eq_false hother]
      exact List.append_nil _
  | skip | begin | tick | abort | clear => exact .stays rfl rfl rfl

theorem Sound.moves (h : s.Sound) (e : Event α) : Moves s e (s.step e) := (s.taken e).moves h

omit [Scalar α] [Elementary α] in
theorem Fitting.moves (h : Fitting jobs s) {e : Event α} (hmoves : Moves s e s') :
    Fitting (jobs ++ e.job?.toList) s' := by
  cases hmoves with
  | stays hjob hruns _ =>
      rw [hjob, Option.toList_none, List.append_nil]
      exact ⟨hruns ▸ h.length_eq, fun k x hk => h.each k x (hruns ▸ hk)⟩
  | calls job x hjob hfits hruns _ =>
      rw [hjob, Option.toList_some]
      refine ⟨?_, fun k y hk => ?_⟩
      · rw [hruns, List.length_append, List.length_append, h.length_eq]
        rfl
      · rw [hruns] at hk
        rcases getElem?_append_eq_some.mp hk with ⟨rfl, rfl⟩ | ⟨-, hk⟩
        · exact ⟨job, h.length_eq ▸ List.getElem?_concat_length, hfits⟩
        · obtain ⟨job', hjob', hy⟩ := h.each k y hk
          exact ⟨job', List.getElem?_append_left (List.getElem?_eq_some_iff.mp hjob').1 ▸ hjob', hy⟩
  | goesOn k x x' hjob _ hk hruns hfits _ =>
      rw [hjob, Option.toList_none, List.append_nil]
      refine ⟨by rw [hruns, List.length_set, h.length_eq], fun j z hj => ?_⟩
      rw [hruns] at hj
      rcases (getElem?_set_eq_some hk).mp hj with ⟨rfl, rfl⟩ | ⟨-, hj⟩
      · obtain ⟨job, hjob, hx⟩ := h.each j x hk
        exact ⟨job, hjob, hfits job hx⟩
      · exact h.each j z hj

theorem fitting_run (p : RetryPolicy) (events : List (Event α)) :
    Fitting (Session.jobs events) ((start p).run events) := by
  induction events using List.reverseRecOn with
  | nil => exact ⟨rfl, fun k x hk => by simp [run, start] at hk⟩
  | append_singleton events e ih =>
      have hjobs : Session.jobs (events ++ [e]) = Session.jobs events ++ e.job?.toList := by
        rw [Session.jobs, List.filterMap_append]
        cases hjob : e.job? with
        | none => rw [List.filterMap_cons_none hjob]; rfl
        | some job => rw [List.filterMap_cons_some hjob]; rfl
      rw [hjobs, run_append]
      exact ih.moves ((sound_run p events).moves e)

/-! ## A frame that is held back -/

theorem Sound.askedBy_step (h : s.Sound) (e : Event α) {run : Nat} {frame : EncodedFrame}
    (hframe : frame ∈ s.askedBy run) : frame ∈ (s.step e).askedBy run := by
  have hmono : s.asked <+: (s.step e).asked := by
    have hchange := h.change e
    generalize s.step e = s' at hchange
    cases hchange with
    | advance ha => exact List.prefix_append _ _
    | _ => exact List.prefix_refl _
  exact ((hmono.sublist.filter _).map _).subset hframe

omit [Scalar α] [Elementary α] in
/-- A run that is told nothing and takes nothing stays as it is. -/
theorem Moves.other {e : Event α} (h : Moves s e s') {k : Nat} {x : ExportCall α}
    (hk : s.runs[k]? = some x) (he : e.about? ≠ some k) :
    s'.runs[k]? = some x ∧ s'.collectedBy (k + 1) = s.collectedBy (k + 1) := by
  cases h with
  | stays _ hruns hcollected => exact ⟨hruns ▸ hk, by rw [collectedBy, hcollected, collectedBy]⟩
  | calls _ _ _ _ hruns hcollected =>
      have hlt : k < s.runs.length := (List.getElem?_eq_some_iff.mp hk).1
      refine ⟨?_, by rw [collectedBy, hcollected, collectedBy]⟩
      rw [hruns]
      exact (List.getElem?_append_left hlt).trans hk
  | goesOn j _ _ _ habout _ hruns _ hcollected =>
      have hne : j ≠ k := fun hj => he (hj ▸ habout)
      refine ⟨?_, hcollected (k + 1) (Nat.succ_ne_succ_iff.mpr hne.symm)⟩
      rw [hruns]
      exact (List.getElem?_set_ne hne).trans hk

/-- A run that holds a frame back takes a result: the frame is asked for, or the caller is told
first. -/
theorem Sound.join_held (h : s.Sound) {k : Nat} {x : ExportCall α} (hk : s.runs[k]? = some x)
    {job : ExportJob α} (hx : Export.Fits job x.run) {frame : EncodedFrame}
    (hheld : x.run.heldBack? = some frame) (hj : x.run.isJoining = true) {u : FinishedUpload}
    {left : List FinishedUpload} (hleft : takeFirst? (k + 1) s.exporter.finished = some (u, left)) :
    (s.step (.join k)).collectedBy (k + 1) = s.collectedBy (k + 1) ++ [u] ∧
      (frame ∈ (s.step (.join k)).askedBy (k + 1) ∨
        ∃ x', (s.step (.join k)).runs[k]? = some x' ∧ Export.Fits job x'.run ∧
          x'.run.heldBack? = some frame ∧ x'.run.isJoining = false) := by
  have hlt : k < s.runs.length := (List.getElem?_eq_some_iff.mp hk).1
  have hnumber := (h.each k x hk).number
  have hphase := Export.isJoining_iff.mp hj
  rw [h.step_join hk hj hleft]
  constructor
  · change (s.collected ++ [u]).filter _ = _
    have hrun : u.run = k + 1 := (perm_of_takeFirst? hleft).2
    rw [List.filter_append, List.filter_singleton, decide_eq_true hrun]
    rfl
  · obtain ⟨hnext, -⟩ := Export.heldBack?_cases hheld
    have heases := hx.eases hnext u.index u.ending { s.exporter with finished := left }
    have hresume : x.run.resume (.finished u.index u.ending) { s.exporter with finished := left } =
        Export.finished u.index u.ending { s.exporter with finished := left } x.run := by
      simp only [Export.resume, hphase]
    rw [← hresume] at heases
    cases heases with
    | tells hsame hnot =>
        exact .inr ⟨_, List.getElem?_set_self hlt, hx.resume _ _, hsame, hnot⟩
    | asks hwaiting =>
        rw [hnumber] at hwaiting
        exact .inl (mem_askedBy_moved hwaiting)

theorem Sound.report_held (h : s.Sound) {k : Nat} {x : ExportCall α} (hk : s.runs[k]? = some x)
    {job : ExportJob α} (hx : Export.Fits job x.run) {frame : EncodedFrame}
    (hheld : x.run.heldBack? = some frame) {progress : α} (hp : x.run.phase = .report progress) :
    frame ∈ (s.step (.resume k .done)).askedBy (k + 1) := by
  obtain ⟨hnext, -⟩ := Export.heldBack?_cases hheld
  have hreply : x.run.awaits x.retry .done = true := by simp only [Export.awaits, hp]
  have hwaiting := hx.reported_asks hp hnext s.exporter
  rw [(h.each k x hk).number] at hwaiting
  rw [step_resume hk hreply]
  exact mem_askedBy_moved hwaiting

/-- What becomes of a frame that the run at place `k` holds back in `s`: until it is asked for, the
run takes one result at most. -/
inductive MakesRoom (s : Session α) (k : Nat) (frame : EncodedFrame) (s' : Session α) : Prop
  | waits (x' : ExportCall α) : s'.runs[k]? = some x' → x'.run.heldBack? = some frame →
      x'.run.isJoining = true → s'.collectedBy (k + 1) = s.collectedBy (k + 1) →
      MakesRoom s k frame s'
  | tells (x' : ExportCall α) : s'.runs[k]? = some x' → x'.run.heldBack? = some frame →
      x'.run.isJoining = false →
      (s'.collectedBy (k + 1)).length ≤ (s.collectedBy (k + 1)).length + 1 → MakesRoom s k frame s'
  | asked : frame ∈ s'.askedBy (k + 1) → MakesRoom s k frame s'

omit [Scalar α] [Elementary α] in
theorem MakesRoom.here {k : Nat} {x : ExportCall α} (hk : s.runs[k]? = some x)
    {frame : EncodedFrame} (hheld : x.run.heldBack? = some frame) : MakesRoom s k frame s := by
  cases hj : x.run.isJoining with
  | true => exact .waits x hk hheld hj rfl
  | false => exact .tells x hk hheld hj (Nat.le_add_right _ _)

/-- Only a run that is told something or takes a result changes what it holds back. -/
theorem Sound.step_own (h : s.Sound) {k : Nat} {x : ExportCall α} (hk : s.runs[k]? = some x)
    {frame : EncodedFrame} (hheld : x.run.heldBack? = some frame) {e : Event α}
    (he : e.about? = some k) :
    s.step e = s ∨ (∃ progress, x.run.phase = .report progress ∧ e = .resume k .done) ∨
      (x.run.isJoining = true ∧ e = .join k ∧
        ∃ u left, takeFirst? (k + 1) s.exporter.finished = some (u, left)) := by
  obtain ⟨-, hphase⟩ := Export.heldBack?_cases hheld
  cases e with
  | prepare j a b supported =>
      obtain rfl : j = k := Option.some.inj he
      have hready : x.run.isReadying = false := by
        rcases hphase with hp | ⟨progress, hp⟩ <;> simp only [Export.isReadying, hp]
      left
      simp only [Session.step, hk, hready, Bool.false_eq_true, if_false]
  | resume j reply =>
      obtain rfl : j = k := Option.some.inj he
      cases hreply : x.run.awaits x.retry reply with
      | false =>
          left
          simp only [Session.step, hk, hreply, Bool.false_eq_true, if_false]
      | true =>
          right; left
          rcases hphase with hp | ⟨progress, hp⟩
          · simp only [Export.awaits, hp, Bool.false_eq_true] at hreply
          · cases reply with
            | done => exact ⟨progress, hp, rfl⟩
            | _ => simp only [Export.awaits, hp, Bool.false_eq_true] at hreply
  | seek j outcome =>
      obtain rfl : j = k := Option.some.inj he
      have hseeking : x.run.isSeeking = false := by
        rcases hphase with hp | ⟨progress, hp⟩ <;> simp only [Export.isSeeking, hp]
      left
      simp only [Session.step, hk, hseeking, Bool.false_and, Bool.false_eq_true, if_false]
  | join j =>
      obtain rfl : j = k := Option.some.inj he
      cases hj : x.run.isJoining with
      | false =>
          left
          simp only [Session.step, hk, hj, Bool.false_eq_true, if_false]
      | true =>
          cases hleft : takeFirst? (j + 1) s.exporter.finished with
          | none =>
              left
              simp only [Session.step, hk, hj, if_true, takeFinished?, (h.each j x hk).number,
                hleft]
          | some taken => exact .inr (.inr ⟨rfl, rfl, taken.1, taken.2, rfl⟩)
  | call job a b => cases he
  | start j due ending => cases he
  | tick millis => cases he
  | abort => cases he
  | clear => cases he

theorem MakesRoom.step {s₀ : Session α} (h : s.Sound) (hfits : Fitting jobs s) {k : Nat}
    {frame : EncodedFrame} (hroom : MakesRoom s₀ k frame s) (e : Event α) :
    MakesRoom s₀ k frame (s.step e) := by
  cases hroom with
  | asked hframe => exact .asked (h.askedBy_step e hframe)
  | waits x hk hheld hj hsame =>
      obtain ⟨job, -, hx⟩ := hfits.each k x hk
      by_cases he : e.about? = some k
      · rcases h.step_own hk hheld he with hstay | ⟨progress, hp, -⟩ | ⟨-, rfl, u, left, hleft⟩
        · rw [hstay]
          exact .waits x hk hheld hj hsame
        · cases (Export.isJoining_iff.mp hj).symm.trans hp
        · obtain ⟨hcollected, hframe | ⟨x', hk', -, hheld', hnot⟩⟩ :=
            h.join_held hk hx hheld hj hleft
          · exact .asked hframe
          · refine .tells x' hk' hheld' hnot ?_
            rw [hcollected, hsame, List.length_append, List.length_singleton]
      · obtain ⟨hk', hcollected⟩ := (h.moves e).other hk he
        exact .waits x hk' hheld hj (hcollected.trans hsame)
  | tells x hk hheld hnot hle =>
      obtain ⟨job, -, hx⟩ := hfits.each k x hk
      by_cases he : e.about? = some k
      · rcases h.step_own hk hheld he with hstay | ⟨progress, hp, rfl⟩ | ⟨hj, -, -⟩
        · rw [hstay]
          exact .tells x hk hheld hnot hle
        · exact .asked (h.report_held hk hx hheld hp)
        · cases hnot.symm.trans hj
      · obtain ⟨hk', hcollected⟩ := (h.moves e).other hk he
        exact .tells x hk' hheld hnot (hcollected ▸ hle)

theorem MakesRoom.run {s₀ : Session α} (h : s.Sound) (hfits : Fitting jobs s) {k : Nat}
    {frame : EncodedFrame} (hroom : MakesRoom s₀ k frame s) (events : List (Event α)) :
    MakesRoom s₀ k frame (s.run events) := by
  induction events generalizing s jobs with
  | nil => exact hroom
  | cons e events ih =>
      exact ih ((h.change e).sound h) (hfits.moves (h.moves e)) (hroom.step h hfits e)

theorem Sound.exists_run_step (h : s.Sound) {k : Nat} {x : ExportCall α}
    (hk : s.runs[k]? = some x) (e : Event α) : ∃ x', (s.step e).runs[k]? = some x' := by
  have hlt : k < s.runs.length := (List.getElem?_eq_some_iff.mp hk).1
  exact ⟨_, List.getElem?_eq_getElem (hlt.trans_le ((h.change e).later h).length_le)⟩

theorem Sound.canAsk_of_report (h : s.Sound) {k : Nat} {x : ExportCall α}
    (hk : s.runs[k]? = some x) {job : ExportJob α} (hx : Export.Fits job x.run)
    {frame : EncodedFrame} (hheld : x.run.heldBack? = some frame)
    (hnot : x.run.isJoining = false) : s.CanReach k fun s' _ => frame ∈ s'.askedBy (k + 1) := by
  obtain ⟨-, hp | ⟨progress, hp⟩⟩ := Export.heldBack?_cases hheld
  · cases hnot.symm.trans (Export.isJoining_iff.mpr hp)
  · obtain ⟨x', hk'⟩ := h.exists_run_step hk (.resume k .done)
    exact .step (e := .resume k .done) rfl (.here hk' (h.report_held hk hx hheld hp))

/-- The wait for room is never in vain. -/
theorem Sound.canAsk (h : s.Sound) {k : Nat} {x : ExportCall α} (hk : s.runs[k]? = some x)
    {job : ExportJob α} (hx : Export.Fits job x.run) {frame : EncodedFrame}
    (hheld : x.run.heldBack? = some frame) :
    s.CanReach k fun s' _ => frame ∈ s'.askedBy (k + 1) := by
  cases hj : x.run.isJoining with
  | false => exact h.canAsk_of_report hk hx hheld hj
  | true =>
      -- a run that waits has an upload somewhere; others can bring it to its end
      have hfinish : s.CanReach k fun s' x' => x' = x ∧ s'.finishedBy (k + 1) ≠ [] := by
        rcases h.exists_upload hk hj with hwaiting | hrunning | hfinished
        · exact canFinish_of_waiting hk hwaiting
        · exact canFinish_of_running hk hrunning
        · exact .here hk ⟨rfl, hfinished⟩
      refine hfinish.trans h ?_
      rintro s' x' hsound hk' ⟨rfl, hfinished⟩
      obtain ⟨u, left, hleft⟩ := takeFirst?_isSome hfinished
      refine .step (e := .join k) rfl ?_
      obtain ⟨-, hframe | ⟨y, hy, hfits, hheld', hnot⟩⟩ := hsound.join_held hk' hx hheld hj hleft
      · obtain ⟨y, hy⟩ := hsound.exists_run_step hk' (.join k)
        exact .here hy hframe
      · exact ((hsound.change (.join k)).sound hsound).canAsk_of_report hy hfits hheld' hnot

/-! ## The limit -/

/-- The run at place `k` has no more uploads than its job allows, begun or not, and so no more that
have begun and not ended. A frame is held back only when they are as many; then an upload is there
to end, and the first result that the run takes makes room. -/
structure Limited (job : ExportJob α) (s : Session α) (k : Nat) (x : ExportCall α) : Prop where
  open_le : s.openBy (k + 1) ≤ max job.concurrency 1
  running_le : (s.runningBy (k + 1)).length ≤ max job.concurrency 1
  /-- The uploads under way are those that have begun and not ended. -/
  running_eq : ((s.begunBy (k + 1)).map (fun p => p.1.finish p.2) ++
      (s.skippedBy (k + 1)).map (·.finish .skipped)).Perm
    ((s.runningBy (k + 1)).map (·.finish) ++ (s.finishedBy (k + 1) ++ s.collectedBy (k + 1)))
  full : ∀ frame, x.run.heldBack? = some frame → x.run.isJoining = true →
    s.openBy (k + 1) = max job.concurrency 1
  canAsk : ∀ frame, x.run.heldBack? = some frame →
    s.CanReach k fun s' _ => frame ∈ s'.askedBy (k + 1)
  makesRoom : ∀ frame, x.run.heldBack? = some frame → ∀ later, MakesRoom s k frame (s.run later)

theorem Sound.limited (h : s.Sound) (hfits : Fitting jobs s) {k : Nat} {x : ExportCall α}
    (hk : s.runs[k]? = some x) {job : ExportJob α} (hx : Export.Fits job x.run) :
    Limited job s k x := by
  have hpending := h.pending_eq hk
  have hopen : s.openBy (k + 1) ≤ max job.concurrency 1 := hpending ▸ hx.pending_le
  refine ⟨hopen, ?_, h.ledger.endsBy (k + 1), ?_, ?_, ?_⟩
  · refine le_trans ?_ hopen
    unfold openBy
    omega
  · intro frame hheld hj
    rw [← hpending]
    refine hx.full hj ?_
    rw [(Export.heldBack?_cases hheld).1]
    exact Option.some_ne_none frame
  · exact fun frame hheld => h.canAsk hk hx hheld
  · exact fun frame hheld later => (MakesRoom.here hk hheld).run h hfits later

/-- Every run is one of the runs that were called, and at any time, whatever has become of the
uploads and whatever was aborted, it keeps to the limit of its job. -/
structure KeepsLimits (jobs : List (ExportJob α)) (s : Session α) : Prop where
  length_eq : s.runs.length = jobs.length
  each : ∀ (k : Nat) (x : ExportCall α), s.runs[k]? = some x →
    ∃ job, jobs[k]? = some job ∧ Limited job s k x

theorem limits_run (p : RetryPolicy) (events : List (Event α)) :
    KeepsLimits (Session.jobs events) ((start p).run events) := by
  have hsound := sound_run p events
  have hfits := fitting_run p events
  refine ⟨hfits.length_eq, fun k x hk => ?_⟩
  obtain ⟨job, hjob, hx⟩ := hfits.each k x hk
  exact ⟨job, hjob, hsound.limited hfits hk hx⟩

-- no uploads at a time counts as one: the second frame waits until the first upload has ended
example : letI : Elementary Rat := ⟨id, id, id, id, 3⟩
    let s := (start .standard).run ([.call { twoFrames with concurrency := 0 } none none,
      .prepare 0 ⟨some 1, none⟩ ⟨some 1, none⟩ true] ++ oneFrame ++ oneFrame)
    (s.openBy 1, s.runs.map fun x => x.run.heldBack?.map (·.index),
      ((s.run [.start 0 0 .lost, .tick 0, .join 0]).askedBy 1).map (·.index)) =
      (1, [some 1], [0, 1]) := by
  decide +kernel

end Session

end Exporter

end Segue
