import Mathlib
import Segue.Command.Frames
import Segue.Proofs.Export.Steps
import Segue.Proofs.Path
import Segue.Proofs.Promise

/-!
# What an export writes

An export to a directory makes that directory and writes frames into it, and nothing else: the files
that it reads are left as they are.
-/

namespace Segue

open Promise

/-! ## Reading -/

section

variable {m : Type → Type} [Monad m] [FileSystem m] {P : Promise m}

theorem safe_readImage (h : P.Reads) (path : String) : P.safe (Media.readImage path : m _) := by
  refine safe_bind (h.read path) fun c => ?_
  split <;> exact P.safe_pure _

theorem safe_openFile (h : P.Reads) (path : String) : P.safe (Still.openFile path : m _) :=
  safe_bind (safe_readImage h path) fun _ => P.safe_pure _

theorem safe_openDirectory (h : P.Reads) (root : String) (fps : Float) :
    P.safe (ImageSequence.openDirectory root fps : m _) := by
  refine safe_ite (P.safe_pure _) (safe_bind (h.names root) fun names => ?_)
  split
  · exact P.safe_pure _
  · refine safe_bind (safe_filterM fun p => safe_bind (h.kind p) fun _ => P.safe_pure _) fun _ => ?_
    exact safe_ite (P.safe_pure _) (P.safe_pure _)

theorem safe_openPath (h : P.Reads) (path : String) (fps duration : Float) :
    P.safe (Footage.openPath path fps duration : m _) := by
  refine safe_bind (h.kind path) fun kind => safe_ite ?_ ?_
  · refine safe_bind (safe_openDirectory h path fps) fun r => ?_
    cases r <;> exact P.safe_pure _
  · refine safe_bind (safe_openFile h path) fun r => ?_
    cases r <;> exact P.safe_pure _

theorem safe_seekTo (h : P.Reads) (f : Footage) (time : Float) :
    P.safe (f.seekTo time : m _) := by
  cases f with
  | still s => exact P.safe_pure _
  | frames s =>
      refine safe_bind ?_ fun _ => P.safe_pure _
      refine safe_ite (P.safe_pure _) (safe_ite (P.safe_pure _) ?_)
      refine safe_bind (safe_readImage h _) fun r => ?_
      cases r <;> exact P.safe_pure _

theorem safe_seek (h : P.Reads) (f : Footage) (time : Float) :
    P.safe (Source.seek f time : m (Seeking Footage)) := by
  refine safe_bind (safe_seekTo h f time) fun r => ?_
  obtain ⟨result, left⟩ := r
  cases result <;> exact P.safe_pure _

theorem safe_load (h : P.Reads) (path : String) :
    P.safe (Settings.load path : m (Except Settings.LoadError (Settings Float))) := by
  refine safe_bind (safe_bind (h.read path) fun _ => P.safe_pure _) fun text => ?_
  split <;> exact P.safe_pure _

open Command

theorem safe_resolve (h : P.Reads) (o : Overrides) :
    P.exceptT.safe (o.resolve : ExceptT Failure m (Settings Float)) := by
  refine safe_bind ?_ fun _ => P.exceptT.safe_pure _
  unfold Overrides.base
  split
  · exact P.exceptT.safe_pure _
  · refine safe_bind (exceptT_lift (safe_load h _)) fun r => ?_
    split
    · exact P.exceptT.safe_pure _
    · exact exceptT_throw _

theorem safe_openClip (h : P.Reads) (path : String) (s : Sources) :
    P.exceptT.safe (openClip path s : ExceptT Failure m Footage) := by
  refine safe_bind (exceptT_lift (safe_openPath h _ _ _)) fun r => ?_
  split
  · exact P.exceptT.safe_pure _
  · exact exceptT_throw _

end

/-! ## Loading -/

section

variable {m : Type → Type} [Monad m] [FileSystem m] {P : Promise m} (h : P.Reads)

include h

theorem safe_readText (path : String) : P.safe (readText? path : m _) :=
  safe_bind (h.read path) fun _ => P.safe_pure _

theorem safe_loadConfigFile (path : String) : P.safe (Config.load path : m _) := by
  refine safe_bind (h.kind path) fun kind => ?_
  split
  · exact P.safe_pure _
  · refine safe_bind (safe_readText h path) fun text => ?_
    split <;> exact P.safe_pure _

open Shader

theorem safe_gather (root : String) (man : Manifest) (vs : List ManifestVariant)
    (g : Pack.Gathered) : P.safe (Pack.gather root man vs g : m _) := by
  induction vs generalizing g with
  | nil => exact P.safe_pure _
  | cons v vs ih =>
      refine safe_bind (h.kind _) fun kind => ?_
      split
      · exact ih _
      · refine safe_bind (safe_readText h _) fun text => ?_
        split
        · exact P.safe_pure _
        · exact ih _

theorem safe_loadPack (root : String) : P.safe (Pack.load root : m _) := by
  refine safe_bind (h.kind _) fun kind => ?_
  split
  · exact P.safe_pure _
  · refine safe_bind (safe_readText h _) fun text => ?_
    split
    · exact P.safe_pure _
    · split
      · exact P.safe_pure _
      · refine safe_ite (P.safe_pure _) (safe_bind (safe_gather h _ _ _ _) fun g => ?_)
        split
        · exact P.safe_pure _
        · exact safe_ite (P.safe_pure _) (P.safe_pure _)

theorem safe_isPack (root : String) : P.safe (Pack.isPack root : m _) :=
  safe_bind (h.kind _) fun _ => P.safe_pure _

theorem safe_discover (root : String) : P.safe (Pack.discover root : m _) := by
  refine safe_bind (h.names root) fun names => ?_
  refine safe_bind (safe_filterM fun dir => safe_isPack h dir) fun dirs => ?_
  exact safe_filterMapM fun dir => safe_bind (safe_loadPack h dir) fun _ => P.safe_pure _

open Command

theorem safe_loadConfig (path? : Option String) :
    P.exceptT.safe (loadConfig path? : ExceptT Failure m Config) := by
  refine safe_bind (exceptT_lift (safe_loadConfigFile h _)) fun r => ?_
  split
  · exact P.exceptT.safe_pure _
  · exact exceptT_throw _

theorem safe_packsAt (root : String) :
    P.exceptT.safe (packsAt root : ExceptT Failure m (List Pack)) := by
  refine safe_bind (exceptT_lift (safe_isPack h root)) fun isPack => safe_ite ?_ ?_
  · refine safe_bind (exceptT_lift (safe_loadPack h root)) fun r => ?_
    split
    · exact P.exceptT.safe_pure _
    · exact exceptT_throw _
  · exact exceptT_lift (safe_discover h root)

theorem safe_registryWith (roots : List String) :
    P.exceptT.safe (registryWith roots : ExceptT Failure m (Registry Float)) :=
  safe_foldlM (fun _ root => safe_bind (safe_packsAt h root) fun _ => P.exceptT.safe_pure _) _

end

/-! ## Frames of a run -/

def EncodedFrame.IsNamed (frame : EncodedFrame) : Prop :=
  ∃ index format, frame.name = fileName index format

namespace Export

section

variable {α : Type}

/-- All frames that wait for their upload, or for room, have such names. -/
structure Named (y : Running α) : Prop where
  waiting : ∀ u ∈ y.1.waiting, u.frame.IsNamed
  next : ∀ frame ∈ y.2.next, frame.IsNamed

variable {e d : Exporter α} {r q : Export α}

theorem Named.of_eq (h : Named (e, r)) (he : d.waiting = e.waiting) (hr : q.next = r.next) :
    Named (d, q) :=
  ⟨he ▸ h.waiting, hr ▸ h.next⟩

theorem named_awaiting (h : Named (e, r)) (phase : Phase α) : Named (awaiting phase e r) :=
  h.of_eq rfl rfl

theorem named_finish (h : Named (e, r)) (result : Except (ExportError α) (List FrameRef)) :
    Named (finish result e r) :=
  h.of_eq (waiting_onlyLatest _ _ rfl) rfl

theorem named_quit (h : Named (e, r)) : Named (quit e r) := by
  have hdropped : Named (e.dropUploads r.generation, r) :=
    ⟨fun u hu => h.waiting u (List.mem_filter.mp hu).1, h.next⟩
  exact named_finish hdropped _

theorem named_drain (h : Named (e, r)) : Named (drain e r) := by
  unfold drain
  split
  · exact named_finish (h.of_eq (waiting_onlyLatest _ _ rfl) rfl) _
  · exact ⟨h.waiting, fun _ hnext => nomatch hnext⟩

variable [Scalar α]

theorem named_record (h : Named (e, r)) (index : Nat) (ending : UploadEnd) :
    Named ((record index ending e r).1, (record index ending e r).2.1) := by
  cases ending with
  | stored frame => exact h.of_eq (waiting_onlyLatest _ _ rfl) rfl
  | failed e => exact h.of_eq rfl rfl
  | skipped => exact h.of_eq rfl rfl
  | lost => exact h.of_eq rfl rfl

theorem named_duplicated (h : Named (e, r)) (a b : Option MediaError) :
    Named (duplicated a b e r) := by
  have hbegun : Named (e.beginRun, ({ r with
      generation := e.beginRun.generation, hasA := a.isNone, hasB := b.isNone } : Export α)) :=
    h.of_eq rfl rfl
  unfold duplicated
  dsimp only
  split
  · exact named_finish hbegun _
  · exact named_awaiting hbegun _

theorem named_plan (h : Named (e, r)) (a b : ClipFacts α) : Named (plan a b e r) := by
  unfold plan
  split
  · exact named_finish h _
  · dsimp only
    split
    · exact named_finish h _
    · exact h.of_eq rfl rfl

variable [Elementary α]

theorem named_draw (h : Named (e, r)) : Named (draw e r) := named_awaiting h _

theorem named_seekB (h : Named (e, r)) : Named (seekB e r) := by
  unfold seekB
  split
  · exact named_awaiting h _
  · exact named_draw h

theorem named_enterFrame (h : Named (e, r)) : Named (enterFrame e r) := by
  unfold enterFrame
  split
  · exact named_drain h
  · split
    · exact named_awaiting h _
    · exact named_seekB h

theorem named_nextFrame (h : Named (e, r)) : Named (nextFrame e r) :=
  named_enterFrame (h.of_eq rfl rfl)

theorem named_makeRoom {frame : EncodedFrame} (h : Named (e, r)) (hframe : frame.IsNamed) :
    Named (makeRoom frame e r) := by
  unfold makeRoom
  split
  · refine ⟨h.waiting, fun _ hnext => ?_⟩
    cases hnext
    exact hframe
  · refine named_nextFrame ⟨fun u hu => ?_, fun _ hnext => nomatch hnext⟩
    rcases List.mem_append.mp hu with hu | hu
    · exact h.waiting u hu
    · rw [List.mem_singleton.mp hu]
      exact hframe

theorem named_afterJoin (h : Named (e, r)) : Named (afterJoin e r) := by
  unfold afterJoin
  split
  · rename_i frame hnext
    exact named_makeRoom h (h.next frame hnext)
  · exact named_drain h

theorem named_composed (h : Named (e, r)) (supported : Bool) : Named (composed supported e r) := by
  unfold composed
  split
  · exact named_enterFrame (h.of_eq (waiting_onlyLatest _ _ rfl) rfl)
  · exact named_finish h _

theorem named_sought (h : Named (e, r)) (clip : Clip) (outcome : SeekOutcome) :
    Named (sought clip outcome e r) := by
  unfold sought
  split
  · exact named_drain h
  · cases clip with
    | a => exact named_seekB h
    | b => exact named_draw h

theorem named_drawn (h : Named (e, r)) (d : Drawn) : Named (drawn d e r) := by
  cases d with
  | picture i => exact named_awaiting h _
  | skipped => exact named_nextFrame h
  | unreadable => exact named_nextFrame h

theorem named_encoded (h : Named (e, r)) (i : Image) : Named (encoded i e r) := by
  unfold encoded
  split
  · exact named_nextFrame h
  · rename_i frame hframe
    split
    · exact named_drain h
    · refine named_makeRoom h ⟨r.index, r.job.format, ?_⟩
      unfold EncodedFrame.ofImage? at hframe
      split at hframe
      · cases hframe
        rfl
      · cases hframe

theorem named_finished (h : Named (e, r)) (index : Nat) (ending : UploadEnd) :
    Named (finished index ending e r) := by
  have hrecord := named_record h index ending
  unfold finished
  split
  · rename_i heq
    rw [heq] at hrecord
    exact named_awaiting hrecord _
  · rename_i heq
    rw [heq] at hrecord
    exact named_afterJoin hrecord

/-- A run hands on nothing but frames that it has named. -/
theorem named_resume (h : Named (e, r)) (reply : Reply α) : Named (resume reply e r) := by
  unfold resume
  split
  · exact named_duplicated h _ _
  · exact named_plan h _ _
  · exact named_composed h _
  · exact named_sought h _ _
  · exact named_drawn h _
  · exact named_encoded h _
  · exact named_finished h _ _
  · exact named_afterJoin h
  · exact h

end

end Export

namespace Command

/-! ## The workroom -/

section

variable {m : Type → Type} [Monad m]

/-- The exporter of a workroom has named frames only, and they go to one directory. -/
structure Workroom.Sound (t : DirectoryTarget) (w : Workroom) : Prop where
  destination : w.destination = .directory t
  named : ∀ u ∈ w.exporter.waiting, u.frame.IsNamed

def working (P : Promise m) (t : DirectoryTarget) : Promise (Working m) :=
  P.stateT (Workroom.Sound t)

variable {P : Promise m} {t : DirectoryTarget}

theorem working_getRoom : (working P t).holds (getThe Workroom : Working m _) (Workroom.Sound t) :=
  fun _ hw => P.returns ⟨hw, hw⟩

theorem working_get : (working P t).holds (getThe (Exporter Float) : Working m _)
    fun e => ∀ u ∈ e.waiting, u.frame.IsNamed :=
  (working P t).bind working_getRoom fun _ hw => (working P t).returns hw.named

theorem working_modifyGet {α : Type} {f : Exporter Float → α × Exporter Float} {Q : α → Prop}
    (h : ∀ e : Exporter Float, (∀ u ∈ e.waiting, u.frame.IsNamed) →
      Q (f e).1 ∧ ∀ u ∈ (f e).2.waiting, u.frame.IsNamed) :
    (working P t).holds (modifyGetThe (Exporter Float) f : Working m α) Q :=
  fun w hw => P.returns ⟨(h w.exporter hw.named).1, hw.destination, (h w.exporter hw.named).2⟩

theorem working_modify {f : Exporter Float → Exporter Float}
    (h : ∀ e : Exporter Float, (∀ u ∈ e.waiting, u.frame.IsNamed) →
      ∀ u ∈ (f e).waiting, u.frame.IsNamed) :
    (working P t).safe (modifyThe (Exporter Float) f : Working m PUnit) :=
  working_modifyGet fun e he => ⟨trivial, h e he⟩

theorem working_set {e : Exporter Float} (h : ∀ u ∈ e.waiting, u.frame.IsNamed) :
    (working P t).safe (set e : Working m PUnit) :=
  fun _ hw => P.returns ⟨trivial, hw.destination, h⟩

theorem working_isCancelled (run : Nat) :
    (working P t).safe (Export.isCancelled run : Working m Bool) :=
  safe_bind working_get.safe fun _ => (working P t).safe_pure _

variable [FileSystem m]

/-- A promise to make one directory at most, and to write nothing but frames into it. -/
structure Stores (P : Promise m) (t : DirectoryTarget) : Prop extends P.Reads where
  make : P.safe (FileSystem.makeDirectory t.outputDirectory : m Bool)
  write : ∀ index format content, P.safe (FileSystem.write
    (Path.join t.outputDirectory (EncodedFrame.fileName index format)) content : m Bool)

theorem Stores.store (h : Stores P t) {frame : EncodedFrame} (hframe : frame.IsNamed) :
    P.safe (t.store frame : m _) := by
  obtain ⟨index, format, hname⟩ := hframe
  refine safe_bind h.make fun made => safe_ite (P.safe_pure _) ?_
  rw [hname]
  exact safe_bind (h.write index format frame.content) fun written =>
    safe_ite (P.safe_pure _) (P.safe_pure _)

theorem reads_working (h : Stores P t) : (working P t).Reads where
  kind p := stateT_lift (h.kind p)
  read p := stateT_lift (h.read p)
  names p := stateT_lift (h.names p)

variable [Hosts m]

theorem working_upload (h : Stores P t) {frame : EncodedFrame} (hframe : frame.IsNamed) :
    (working P t).safe (Uploader.upload frame : Working m _) := by
  refine (working P t).bind working_getRoom fun w hw => ?_
  rw [hw.destination]
  refine safe_bind (stateT_lift (h.store hframe)) fun r => ?_
  cases r <;> exact (working P t).safe_pure _

theorem working_settles (h : Stores P t) : (working P t).Settles where
  settle millis := by
    refine (working P t).bind working_get fun e he => ?_
    refine safe_bind (working_set fun _ hu => nomatch hu) fun _ => ?_
    refine safe_bind (safe_forM fun u hu => ?_) fun _ => (working P t).safe_pure _
    refine safe_bind working_get.safe fun current => safe_ite ?_ ?_
    · exact working_modify fun _ hnamed => hnamed
    · refine safe_bind (working_upload h (he u hu)) fun r => working_modify fun e' hnamed => ?_
      obtain ⟨delay, ending⟩ := r
      dsimp only
      split
      · exact hnamed
      · exact hnamed
  next := safe_bind working_get.safe fun _ => (working P t).safe_pure _
  pending := safe_bind working_get.safe fun _ => (working P t).safe_pure _

end

/-! ## Seeks -/

section

variable {m : Type → Type} [Monad m] {P : Promise m}

theorem safe_sleepUntil {cut : m Bool} (h : P.safe cut) (due : Option Nat) :
    P.task.safe (Task.sleepUntil due cut) := ⟨fun _ => h, trivial⟩

theorem safe_giveWay {cut : m Bool} (h : P.safe cut) : P.task.safe (Task.giveWay cut) :=
  fun _ => ⟨fun _ => safe_ite (P.safe_pure true) h, trivial⟩

theorem safe_millis : P.task.safe (Task.millis : Task m Nat) := fun _ => trivial

theorem safe_rest {cut : m Bool} (h : P.safe cut) (duration : Nat) :
    P.task.safe (rest duration cut) :=
  safe_bind safe_millis fun _ => safe_sleepUntil h _

variable [FileSystem m] (h : P.Reads) {cut : m Bool} (hcut : P.safe cut)
include h hcut

theorem safe_seekBounded (timeout : Nat) (s : Footage) (time : Float) :
    P.task.safe (seekBounded timeout cut s time) := by
  refine safe_bind (task_lift hcut) fun _ => safe_ite (P.task.safe_pure _) ?_
  refine safe_bind safe_millis fun start => safe_bind (task_lift (safe_seek h s time)) fun sk => ?_
  have hgives : ¬Source.givesWay m s = true := Bool.false_ne_true
  rw [if_neg hgives]
  dsimp only
  split
  · exact P.task.safe_pure _
  · refine safe_ite (P.task.safe_pure _) (safe_bind (safe_sleepUntil hcut _) fun _ => ?_)
    refine safe_bind (task_lift hcut) fun _ => safe_ite (P.task.safe_pure _) ?_
    split <;> exact P.task.safe_pure _

theorem safe_retry (p : RetryPolicy) (time : Float) (n : Nat) (s : Footage) (r : Retry) :
    P.task.safe (Retry.perform p cut time n s r) := by
  induction n generalizing s r with
  | zero => cases r <;> exact P.task.safe_pure _
  | succ n ih =>
      cases r with
      | seeking timeouts => exact safe_bind (safe_seekBounded h hcut _ s time) fun _ => ih _ _
      | resting timeouts =>
          exact safe_bind (safe_rest hcut _) fun _ => safe_bind (task_lift hcut) fun _ => ih _ _
      | ended o => exact P.task.safe_pure _

theorem safe_seekClip (p : RetryPolicy) (time : Float) (s? : Option Footage) :
    P.task.safe (Export.seekClip p cut time s?) := by
  cases s? with
  | none => exact P.task.safe_pure _
  | some s =>
      refine safe_bind ?_ fun _ => P.task.safe_pure _
      exact safe_bind (task_lift hcut) fun _ => safe_retry h hcut p time _ s _

end

/-! ## Runs -/

section

open Export

variable {m : Type → Type} [Monad m] {P : Promise m} {t : DirectoryTarget}

theorem safe_equip (device? : Option Device) (pool : Nat) (r : Export Float)
    (c : Crew Footage Renderer) :
    P.safe (equip (fun w h => pure (Renderer.create device? w h pool)) r c : m _) :=
  safe_bind (P.safe_pure _) fun _ => safe_ite
    (safe_bind (P.safe_pure _) fun _ => P.safe_pure _)
    (safe_bind (P.safe_pure _) fun _ => P.safe_pure _)

theorem safe_show (k : Renderer) (clip : Clip) (image? : Option Image) :
    P.safe (Compositor.show k clip image? : m Renderer) := by
  cases image? <;> exact P.safe_pure _

/-- The frame for which a run makes room is named. -/
def Next (r : Export Float) : Prop := ∀ frame ∈ r.next, frame.IsNamed

theorem holds_step {r : Export Float} (hr : Next r) (reply? : Option (Reply Float)) :
    (working P t).task.holds (step reply? r : Task (Working m) _) Next := by
  refine working_modifyGet fun e he => ?_
  cases reply? with
  | none => exact ⟨(named_quit ⟨he, hr⟩).next, (named_quit ⟨he, hr⟩).waiting⟩
  | some reply => exact ⟨(named_resume ⟨he, hr⟩ reply).next, (named_resume ⟨he, hr⟩ reply).waiting⟩

theorem working_join (run : Nat) :
    (working P t).task.safe (join (pure false) run : Task (Working m) _) := by
  have hfinished : (working P t).safe (do
      if (← getThe (Exporter Float)).hasFinished run then pure true else pure false :
        Working m Bool) :=
    safe_bind working_get.safe fun _ =>
      safe_ite ((working P t).safe_pure true) ((working P t).safe_pure false)
  have htake : (working P t).safe
      (modifyGetThe (Exporter Float) fun e => e.takeFinished? run : Working m _) := by
    refine working_modifyGet fun e he => ⟨trivial, ?_⟩
    unfold Exporter.takeFinished?
    split
    · exact he
    · exact he
  exact safe_bind ⟨fun _ => hfinished, trivial⟩ fun _ => safe_bind (task_lift htake) fun _ =>
    (working P t).task.safe_pure _

variable [FileSystem m]

theorem safe_hire (a b : Footage) :
    P.safe (hire a b : m (Reply Float × Crew Footage Renderer)) :=
  safe_bind (P.safe_pure _) fun _ => safe_bind (P.safe_pure _) fun _ => P.safe_pure _

theorem safe_makeReady (timeout : Nat) (c : Crew Footage Renderer) :
    P.task.safe (makeReady (pure false) timeout c) :=
  safe_bind (safe_rest (P.safe_pure false) _) fun _ => P.task.safe_pure _

theorem safe_picture (time : Float) (shot : Shot Float) (c : Crew Footage Renderer) :
    P.safe (picture time shot c : m _) := by
  unfold picture
  split
  · exact P.safe_pure _
  · refine safe_bind (safe_show _ _ _) fun k => safe_bind (safe_show k _ _) fun k => ?_
    refine safe_bind (P.safe_pure _) fun k => safe_bind (P.safe_pure _) fun r => ?_
    refine safe_ite (P.safe_pure _) (safe_bind (P.safe_pure _) fun read => ?_)
    obtain ⟨image?, k⟩ := read
    cases image? <;> exact P.safe_pure _

theorem safe_dismiss (c : Crew Footage Renderer) : P.safe (dismiss c : m Unit) := by
  obtain ⟨a, b, compositor⟩ := c
  have hcompositor : P.safe (dismiss ⟨(none : Option Footage), none, compositor⟩ : m Unit) := by
    cases compositor with
    | none => exact P.safe_pure ()
    | some k => exact safe_bind (P.safe_pure k.dispose) fun _ => P.safe_pure ()
  have hb : P.safe (dismiss ⟨none, b, compositor⟩ : m Unit) := by
    cases b with
    | none => exact hcompositor
    | some b => exact safe_bind (P.safe_pure b.release) fun _ => hcompositor
  cases a with
  | none => exact hb
  | some a => exact safe_bind (P.safe_pure a.release) fun _ => hb

theorem working_await (h : Stores P t) (config : ExportConfig) (r : Export Float)
    (c : Crew Footage Renderer) :
    (working P t).task.safe
      (r.await config (pure false) (fun _ => pure ()) c : Task (Working m) _) := by
  have hcut : (working P t).safe (do
      if ← isCancelled r.generation then pure true else pure false : Working m Bool) :=
    safe_bind (working_isCancelled _) fun _ =>
      safe_ite ((working P t).safe_pure true) ((working P t).safe_pure false)
  unfold await
  split
  · exact (working P t).task.safe_pure _
  · exact (working P t).task.safe_pure _
  · exact (working P t).task.safe_pure _
  · exact (working P t).task.safe_pure _
  · exact safe_bind (safe_seekClip (reads_working h) hcut _ _ _) fun _ =>
      (working P t).task.safe_pure _
  · exact safe_bind (safe_seekClip (reads_working h) hcut _ _ _) fun _ =>
      (working P t).task.safe_pure _
  · exact safe_bind (task_lift (safe_picture _ _ c)) fun _ => (working P t).task.safe_pure _
  · exact safe_bind (safe_giveWay ((working P t).safe_pure false)) fun _ =>
      (working P t).task.safe_pure _
  · exact safe_bind (working_join _) fun _ => (working P t).task.safe_pure _
  · exact safe_bind (task_lift ((working P t).safe_pure ())) fun _ => (working P t).task.safe_pure _

theorem working_perform (h : Stores P t) (config : ExportConfig) (n : Nat)
    (c : Crew Footage Renderer) {r : Export Float} (hr : Next r) :
    (working P t).task.safe
      (perform config (pure false) (fun _ => pure ()) n c r : Task (Working m) _) := by
  induction n generalizing c r with
  | zero => exact (working P t).task.safe_pure _
  | succ n ih =>
      unfold perform
      split
      · exact (working P t).task.safe_pure _
      · refine safe_bind (working_await h config r c) fun reply => ?_
        refine safe_bind (task_lift ((working P t).safe_pure false)) fun gone => ?_
        exact (working P t).task.bind (holds_step hr _) fun _ hr => ih _ hr

theorem working_prepare (config : ExportConfig) (device? : Option Device) (pool : Nat)
    (job : ExportJob Float) (a b : Footage) :
    (working P t).task.holds (prepare config (pure false)
      (fun w h => (pure (Renderer.create device? w h pool) : Working m Renderer)) job a b)
      fun x => Next x.2 := by
  have hstep : ∀ {r : Export Float}, Next r → ∀ (reply? : Option (Reply Float))
      (c : Crew Footage Renderer),
      (working P t).task.holds (do return (c, ← step reply? r) : Task (Working m) _)
        fun x => Next x.2 := fun hr reply? _ =>
    (working P t).task.bind (holds_step hr reply?) fun _ hr => (working P t).task.returns hr
  have hmake : Next (Export.make job) := fun _ h => by cases h
  refine holds_bind (task_lift (safe_hire a b)) fun x => ?_
  refine (working P t).task.bind (holds_step hmake _) fun r hr => ?_
  split
  · refine holds_bind (safe_makeReady _ x.2) fun ready => ?_
    refine holds_bind (task_lift ((working P t).safe_pure false)) fun gone => ?_
    cases gone with
    | true => exact hstep hr none x.2
    | false =>
        refine (working P t).task.bind (holds_step hr _) fun r hr => ?_
        split
        · exact holds_bind (task_lift (safe_equip device? pool r ready.2)) fun x => hstep hr _ x.2
        · exact (working P t).task.returns hr
  · exact (working P t).task.returns hr

theorem working_exportFrames (h : Stores P t) (config : ExportConfig) (device? : Option Device)
    (pool : Nat) (job : ExportJob Float) (a b : Footage) :
    (working P t).task.safe (Exporter.exportFrames config (pure false)
      (fun w h => (pure (Renderer.create device? w h pool) : Working m Renderer))
      (fun _ => pure ()) job a b) :=
  (working P t).task.bind (working_prepare config device? pool job a b) fun _ hx =>
    safe_bind (working_perform h config _ _ hx) fun _ =>
      safe_bind (task_lift (safe_dismiss _)) fun _ => (working P t).task.safe_pure _

/-- What is promised for one directory is promised for an export to it. -/
theorem safe_export [Hosts m] (device? : Option Device) (config : Config) (registry : Registry Float)
    {r : ExportRequest} {root : String} (hroot : r.directory? = some root)
    (h : Stores P ⟨root, (r.config config.exports).subfolder⟩) :
    P.exceptT.safe (r.perform device? config registry : ExceptT Failure m Exported) := by
  refine safe_bind (safe_resolve h.toReads _) fun settings => ?_
  have hdestination : r.destination (r.config config.exports).subfolder =
      .ok (.directory ⟨root, (r.config config.exports).subfolder⟩) := by
    rw [ExportRequest.destination, hroot]
  dsimp only
  rw [hdestination]
  refine P.exceptT.bind (P.exceptT.returns (Eq.refl _)) fun destination hd => ?_
  refine safe_bind (safe_openClip h.toReads _ _) fun a => ?_
  refine safe_bind (safe_openClip h.toReads _ _) fun b => ?_
  have hroom : Workroom.Sound ⟨root, (r.config config.exports).subfolder⟩ ⟨.make, destination⟩ :=
    ⟨hd.symm, fun _ hu => by cases hu⟩
  refine safe_bind (exceptT_lift ?_) fun x => ?_
  · exact ((working_settles h).run (working_exportFrames h _ _ _ _ _ _) Moment.start _ hroom).safe
  · obtain ⟨⟨result, moment⟩, room⟩ := x
    cases result with
    | error e => exact exceptT_throw _
    | ok frames => exact P.exceptT.safe_pure _

end

end Command

end Segue
