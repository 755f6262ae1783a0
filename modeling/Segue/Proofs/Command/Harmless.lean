import Segue.Command.Run
import Segue.Proofs.Clock
import Segue.Proofs.Command.Machine
import Segue.Proofs.Command.Resolve

/-!
# Failures are harmless

Until a picture is written, or the first frame is uploaded, a command only reads. A picture is
written last, and once a run has frames to upload it does not fail any more; so a command that fails
for another reason than that something could not be written leaves the disk as it was.
-/

namespace Segue

open Promise

namespace Command

variable {α β : Type} {excused : Failure → Prop}

/-! ## One picture -/

section

variable {m : Type → Type} [Monad m] {P : Promise m}

theorem alone_settles : letI : Background m := alone; P.Settles :=
  letI : Background m := alone
  ⟨fun _ => P.safe_pure _, P.safe_pure _, P.safe_pure _⟩

theorem safe_runAlone {γ : Type} {t : Task m γ} (ht : P.task.safe t) : P.safe (runAlone t) :=
  letI : Background m := alone
  P.map (P.weaken (alone_settles.run ht Moment.start) fun _ _ => trivial)

variable [FileSystem m]

theorem safe_draw (h : P.Reads) (p : Preview Float) (registry : Registry Float) (position : Float)
    (r : Renderer) (a b : Footage) : P.safe (draw p registry position r a b : m _) := by
  refine safe_bind (safe_runAlone ?_) fun _ => P.safe_pure _
  refine safe_bind (safe_seekBounded h (P.safe_pure false) _ _ _) fun a => ?_
  refine safe_bind (safe_seekBounded h (P.safe_pure false) _ _ _) fun b => ?_
  refine safe_ite (P.task.safe_pure _) (safe_bind (task_lift ?_) fun _ => P.task.safe_pure _)
  exact safe_bind (safe_show _ _ _) fun _ => safe_bind (safe_show _ _ _) fun _ => P.safe_pure _

end

def RenderRequest.Excused (r : RenderRequest) (f : Failure) : Prop :=
  f = .unwritten r.path .image ∨
    ∃ directory, Path.parent? r.path = some directory ∧ f = .uncreated directory

theorem blames_writePicture (r : RenderRequest) (i : Image) :
    Blames r.Excused (writePicture r.path i) := by
  have hwrite : Blames r.Excused (do
      if !(← (FileSystem.write r.path (.image .png i) : StateM Machine Bool)) then
        throw (.unwritten r.path .image)) := by
    refine Blames.bind (blames_lift _) fun written => ?_
    exact Blames.ite (blames_throw (.inl rfl)) (blames_pure _)
  unfold writePicture
  split
  · exact hwrite
  · exact hwrite
  · rename_i directory _ hparent
    refine Blames.bind (blames_lift _) fun made => Blames.ite ?_ hwrite
    exact Blames.bind (blames_throw (.inr ⟨directory, hparent, rfl⟩)) fun _ => hwrite

theorem spares_render (device? : Option Device) (config : Config) (registry : Registry Float)
    (r : RenderRequest) : Spares r.Excused (r.perform device? config registry) := by
  refine Spares.bind (fun s => safe_resolve (still_reads s) _) fun settings => ?_
  refine Spares.bind (fun s => safe_openClip (still_reads s) _ _) fun a => ?_
  refine Spares.bind (fun s => safe_openClip (still_reads s) _ _) fun b => ?_
  split
  · exact spares_throw _
  · dsimp only
    refine Spares.ite (spares_throw_bind _ _) ?_
    refine Spares.bind (fun s => exceptT_lift (safe_draw (still_reads s) _ _ _ _ _ _)) fun x => ?_
    refine Spares.ite (spares_throw_bind _ _) ?_
    split
    · exact spares_throw _
    · exact (blames_writePicture r _).spares

end Command

/-! ## Runs that can no longer fail -/

namespace Export

variable {α : Type}

/-- The preparations are over, and without an error. -/
def AtWork : Phase α → Prop
  | .called | .readying | .composing | .ended (.error _) => False
  | _ => True

variable {e : Exporter α} {r : Export α}

theorem atWork_drain : AtWork (drain e r).2.phase := by
  unfold drain
  split <;> trivial

variable [Scalar α] [Elementary α]

theorem atWork_seekB : AtWork (seekB e r).2.phase := by
  unfold seekB
  split <;> trivial

theorem atWork_enterFrame : AtWork (enterFrame e r).2.phase := by
  unfold enterFrame
  split
  · exact atWork_drain
  · split
    · trivial
    · exact atWork_seekB

theorem atWork_makeRoom (frame : EncodedFrame) : AtWork (makeRoom frame e r).2.phase := by
  unfold makeRoom
  split
  · trivial
  · exact atWork_enterFrame

theorem atWork_afterJoin : AtWork (afterJoin e r).2.phase := by
  unfold afterJoin
  split
  · exact atWork_makeRoom _
  · exact atWork_drain

theorem atWork_finished (index : Nat) (ending : UploadEnd) :
    AtWork (finished index ending e r).2.phase := by
  unfold finished
  split
  · trivial
  · exact atWork_afterJoin

/-- A run at work stays at work, or ends well. -/
theorem atWork_resume (h : AtWork r.phase) (reply : Reply α) :
    AtWork (resume reply e r).2.phase := by
  unfold resume
  split
  · rename_i hp
    rw [hp] at h
    exact h.elim
  · rename_i hp
    rw [hp] at h
    exact h.elim
  · rename_i hp
    rw [hp] at h
    exact h.elim
  · rename_i clip _ outcome _
    unfold sought
    split
    · exact atWork_drain
    · cases clip with
      | a => exact atWork_seekB
      | b => trivial
  · rename_i d _
    cases d with
    | picture i => trivial
    | skipped | unreadable => exact atWork_enterFrame
  · unfold encoded
    split
    · exact atWork_enterFrame
    · split
      · exact atWork_drain
      · exact atWork_makeRoom _
  · exact atWork_finished _ _
  · exact atWork_afterJoin
  · exact h

/-! ### Preparations -/

def Reaches (phase : Phase α → Prop) (r : Export α) : Prop :=
  phase r.phase ∨ ∃ result, r.phase = .ended result

/-- The preparations come to such a phase or end, and no upload is asked for. -/
structure Prepares (phase : Phase α → Prop) (e : Exporter α) (y : Running α) : Prop where
  reaches : Reaches phase y.2
  waiting : y.1.waiting = e.waiting

omit [Scalar α] [Elementary α] in
theorem finish_prepares {phase : Phase α → Prop} (result : Except (ExportError α) (List FrameRef)) :
    Prepares phase e (finish result e r) :=
  ⟨.inr ⟨result, rfl⟩, waiting_onlyLatest _ _ rfl⟩

omit [Elementary α] in
theorem duplicated_prepares (a b : Option MediaError) :
    Prepares (· = .readying) e (duplicated a b e r) := by
  unfold duplicated
  dsimp only
  split
  · exact ⟨.inr ⟨_, rfl⟩, waiting_onlyLatest _ _ rfl⟩
  · exact ⟨.inl rfl, rfl⟩

theorem plan_prepares (h : r.phase = .readying) (a b : ClipFacts α) :
    Prepares (· = .composing) e (resume (.ready a b) e r) := by
  unfold resume
  rw [h]
  dsimp only
  unfold plan
  split
  · exact finish_prepares _
  · dsimp only
    split
    · exact finish_prepares _
    · exact ⟨.inl rfl, rfl⟩

theorem composed_prepares (h : r.phase = .composing) (supported : Bool) :
    Prepares AtWork e (resume (.composed supported) e r) := by
  unfold resume
  rw [h]
  dsimp only
  unfold composed
  split
  · exact ⟨.inl atWork_enterFrame, waiting_enterFrame.trans (waiting_onlyLatest _ _ rfl)⟩
  · exact finish_prepares _

omit [Scalar α] [Elementary α] in
theorem quit_prepares {phase : Phase α → Prop} (h : e.waiting = []) :
    Prepares phase e (quit e r) := by
  refine ⟨.inr ⟨_, rfl⟩, (waiting_onlyLatest _ _ rfl).trans ?_⟩
  rw [Exporter.dropUploads, h]
  rfl

end Export

namespace Command

open Export

/-! ## Exports before the first upload -/

section

variable {m : Type → Type} [Monad m] {P : Promise m}

/-- What is promised while nothing waits to be uploaded. -/
def quiet (P : Promise m) : Promise (Working m) := P.stateT fun w => w.exporter.waiting = []

theorem quiet_getRoom : (quiet P).holds (getThe Workroom : Working m _)
    fun w => w.exporter.waiting = [] :=
  fun _ hw => P.returns ⟨hw, hw⟩

theorem quiet_get : (quiet P).holds (getThe (Exporter Float) : Working m _)
    fun e => e.waiting = [] :=
  (quiet P).bind quiet_getRoom fun _ hw => (quiet P).returns hw

theorem quiet_modifyGet {β : Type} {f : Exporter Float → β × Exporter Float} {Q : β → Prop}
    (h : ∀ e : Exporter Float, e.waiting = [] → Q (f e).1 ∧ (f e).2.waiting = []) :
    (quiet P).holds (modifyGetThe (Exporter Float) f : Working m β) Q :=
  fun w hw => P.returns (h w.exporter hw)

theorem quiet_step {r : Export Float} {phase : Phase Float → Prop} {reply? : Option (Reply Float)}
    (h : ∀ e : Exporter Float, e.waiting = [] → Prepares phase e
      (match reply? with
        | some reply => r.resume reply e
        | none => r.quit e)) :
    (quiet P).task.holds (step reply? r : Task (Working m) _) (Reaches phase) := by
  refine quiet_modifyGet fun e he => ?_
  have hprepares := h e he
  cases reply? with
  | none => exact ⟨hprepares.reaches, hprepares.waiting.trans he⟩
  | some reply => exact ⟨hprepares.reaches, hprepares.waiting.trans he⟩

variable [FileSystem m]

theorem quiet_settles [Hosts m] : (quiet P).Settles where
  settle millis := by
    refine (quiet P).bind quiet_get fun e he => ?_
    refine safe_bind (fun w hw => P.returns ⟨trivial, rfl⟩) fun _ => ?_
    rw [he]
    exact safe_bind ((quiet P).safe_pure _) fun _ => (quiet P).safe_pure _
  next := safe_bind quiet_get.safe fun _ => (quiet P).safe_pure _
  pending := safe_bind quiet_get.safe fun _ => (quiet P).safe_pure _

theorem quiet_hire (a b : Footage) :
    (quiet P).holds (hire a b : Working m (Reply Float × Crew Footage Renderer))
      fun x => ∃ faultA faultB, x.1 = .duplicated faultA faultB :=
  holds_bind ((quiet P).safe_pure _) fun _ => holds_bind ((quiet P).safe_pure _) fun _ =>
    (quiet P).returns ⟨_, _, rfl⟩

theorem quiet_makeReady (timeout : Nat) (c : Crew Footage Renderer) :
    (quiet P).task.holds (makeReady (pure false) timeout c : Task (Working m) _)
      fun x => ∃ factsA factsB, x.1 = .ready factsA factsB :=
  holds_bind (safe_rest ((quiet P).safe_pure false) _) fun _ =>
    (quiet P).task.returns ⟨_, _, rfl⟩

omit [FileSystem m] in
theorem quiet_equip (device? : Option Device) (pool : Nat) (r : Export Float)
    (c : Crew Footage Renderer) :
    (quiet P).holds (equip (fun w h => pure (Renderer.create device? w h pool)) r c : Working m _)
      fun x => ∃ supported, x.1 = .composed supported := by
  refine holds_bind ((quiet P).safe_pure _) fun k => ?_
  split
  · exact holds_bind ((quiet P).safe_pure _) fun _ => (quiet P).returns ⟨_, rfl⟩
  · exact holds_bind ((quiet P).safe_pure _) fun _ => (quiet P).returns ⟨_, rfl⟩

theorem quiet_prepare (config : ExportConfig) (device? : Option Device) (pool : Nat)
    (job : ExportJob Float) (a b : Footage) :
    (quiet P).task.holds (prepare config (pure false)
      (fun w h => (pure (Renderer.create device? w h pool) : Working m Renderer)) job a b)
      fun x => Reaches AtWork x.2 := by
  have hended : ∀ {p : Phase Float} {r : Export Float} (c : Crew Footage Renderer),
      Reaches (· = p) r → (r.phase = p → False) →
      (quiet P).task.holds (return (c, r) : Task (Working m) _) fun x => Reaches AtWork x.2 :=
    fun _ hr hnot => (quiet P).task.returns (.inr (hr.resolve_left hnot))
  refine (quiet P).task.bind (task_lift (quiet_hire a b)) fun x hx => ?_
  have hcalled : (quiet P).task.holds (step (some x.1) (Export.make job) : Task (Working m) _)
      (Reaches (· = .readying)) := by
    obtain ⟨faultA, faultB, hx⟩ := hx
    rw [hx]
    exact quiet_step fun e _ => duplicated_prepares faultA faultB
  refine (quiet P).task.bind hcalled fun r hr => ?_
  split
  · rename_i hready
    refine (quiet P).task.bind (quiet_makeReady _ x.2) fun ready hy => ?_
    refine holds_bind (task_lift ((quiet P).safe_pure false)) fun gone => ?_
    cases gone with
    | true =>
        exact (quiet P).task.bind (quiet_step fun e he => quit_prepares he) fun r hr =>
          (quiet P).task.returns hr
    | false =>
        have hplanned : (quiet P).task.holds (step (some ready.1) r : Task (Working m) _)
            (Reaches (· = .composing)) := by
          obtain ⟨factsA, factsB, hy⟩ := hy
          rw [hy]
          exact quiet_step fun e _ => plan_prepares hready factsA factsB
        refine (quiet P).task.bind hplanned fun r hr => ?_
        split
        · rename_i hcomposing
          refine (quiet P).task.bind (task_lift (quiet_equip device? pool r ready.2))
            fun x hx => ?_
          obtain ⟨reply, c⟩ := x
          obtain ⟨supported, rfl⟩ := hx
          exact (quiet P).task.bind (quiet_step fun e _ => composed_prepares hcomposing supported)
            fun r hr => (quiet P).task.returns hr
        · rename_i hnot
          exact hended _ hr hnot
  · rename_i hnot
    exact hended _ hr hnot

end

/-! ## Exports at work -/

/-- Nothing is promised of the machine. -/
def anyMachine : Promise (StateM Machine) := Promise.id.stateT fun _ => True

theorem anyMachine_safe {α : Type} (x : ExceptT Failure (StateM Machine) α) :
    anyMachine.exceptT.safe x :=
  fun _ _ => ⟨fun _ _ => trivial, trivial⟩

def anything : Promise MachineRoom := anyMachine.stateT fun _ => True

theorem anything_safe {α : Type} (x : MachineRoom α) : anything.safe x :=
  fun _ _ _ _ => ⟨⟨trivial, trivial⟩, trivial⟩

theorem anything_task {α : Type} (t : Task MachineRoom α) : anything.task.safe t := by
  induction t with
  | done a => trivial
  | act x next ih => exact anything.weaken (anything_safe x) fun b _ => ih b
  | now next ih => exact fun t => ih t
  | wait due ready next ih => exact ⟨fun t => anything_safe (ready t), ih⟩

theorem anything_settles : anything.Settles :=
  ⟨fun _ => anything_safe _, anything_safe _, anything_safe _⟩

theorem anything_step {r : Export Float} (hr : AtWork r.phase) (reply? : Option (Reply Float)) :
    anything.task.holds (step reply? r : Task MachineRoom _)
      fun r => AtWork r.phase := by
  intro w _ d _
  refine ⟨⟨?_, trivial⟩, trivial⟩
  cases reply? with
  | none => trivial
  | some reply => exact atWork_resume hr reply

theorem anything_perform (config : ExportConfig) (n : Nat) (c : Crew Footage Renderer)
    {r : Export Float} (hr : AtWork r.phase) :
    anything.task.holds
      (perform config (pure false) (fun _ => pure ()) n c r : Task MachineRoom _)
      fun x => ∃ frames, x.1 = .ok frames := by
  induction n generalizing c r with
  | zero => exact anything.task.returns ⟨[], rfl⟩
  | succ n ih =>
      unfold perform
      split
      · rename_i result hended
        rw [hended] at hr
        cases result with
        | error e => exact hr.elim
        | ok frames => exact anything.task.returns ⟨frames, rfl⟩
      · refine holds_bind (anything_task _) fun reply => holds_bind (anything_task _) fun gone => ?_
        exact anything.task.bind (anything_step hr _) fun _ hr => ih _ hr

def conclude (config : ExportConfig) (c : Crew Footage Renderer) (r : Export Float) :
    Task MachineRoom (Except (ExportError Float) (List FrameRef)) := do
  let (result, c) ← perform config (pure false) (fun _ => pure ()) r.maxSteps c r
  (dismiss c : MachineRoom Unit)
  return result

theorem anything_conclude (config : ExportConfig) (c : Crew Footage Renderer) {r : Export Float}
    (hr : AtWork r.phase) :
    anything.task.holds (conclude config c r) fun result => ∃ frames, result = .ok frames :=
  anything.task.bind (anything_perform config r.maxSteps c hr) fun _ hx =>
    holds_bind (anything_task _) fun _ => anything.task.returns hx

theorem quiet_conclude {P : Promise (StateM Machine)} (config : ExportConfig)
    (c : Crew Footage Renderer) {r : Export Float}
    {result : Except (ExportError Float) (List FrameRef)} (hr : r.phase = .ended result) :
    (quiet P).task.safe (conclude config c r) := by
  have hreturned : perform config (pure false) (fun _ => pure ()) r.maxSteps c r =
      (return (result, c) : Task MachineRoom _) := by
    rw [maxSteps, perform, hr]
  rw [conclude, hreturned]
  exact safe_bind ((quiet P).task.safe_pure _) fun x =>
    safe_bind (task_lift (safe_dismiss x.2)) fun _ => (quiet P).task.safe_pure _

/-- An export that fails has only read. -/
theorem exportFrames_spares (config : ExportConfig) (device? : Option Device) (pool : Nat)
    (job : ExportJob Float) (a b : Footage) (start : Moment) {w : Workroom}
    (hw : w.exporter.waiting = []) (s : Machine) {f : ExportError Float} :
    let task : Task MachineRoom (Except (ExportError Float) (List FrameRef)) :=
      Exporter.exportFrames config (pure false)
        (fun w h => (pure (Renderer.create device? w h pool) : MachineRoom Renderer))
        (fun _ => pure ()) job a b
    let ran := ((task.run start).run w).run s
    ran.1.1.1 = .error f → ran.2 = s := by
  intro task ran
  have hprepared := quiet_settles.run
    (quiet_prepare (P := still s) config device? pool job a b) start w hw s rfl
  have hran : ran = StateT.run (StateT.run (((do
      let x ← prepare config (pure false)
        (fun w h => (pure (Renderer.create device? w h pool) : MachineRoom Renderer))
        job a b
      conclude config x.1 x.2) : Task _ _).run start) w) s := rfl
  rw [Task.run_bind, StateT.run_bind, StateT.run_bind] at hran
  rcases hrun : (((prepare config (pure false)
    (fun w h => (pure (Renderer.create device? w h pool) : MachineRoom Renderer)) job a b
      ).run start).run w).run s with ⟨⟨⟨⟨c, r⟩, moment⟩, w'⟩, s'⟩
  rw [hrun] at hprepared hran
  obtain ⟨⟨hreaches, hwaiting⟩, hsame⟩ := hprepared
  obtain rfl : s' = s := hsame
  have hconcluded : ran = (((conclude config c r).run moment).run w').run s' := hran
  rw [hconcluded]
  rcases hreaches with hwork | ⟨result, hended⟩
  · -- from here on the run can only end well
    intro hf
    obtain ⟨⟨⟨frames, hok⟩, -⟩, -⟩ :=
      anything_settles.run (anything_conclude config c hwork) moment w' trivial s' trivial
    exact nomatch hf.symm.trans hok
  · -- nothing waits to be uploaded, and nothing more is asked for
    have hsafe := quiet_conclude (P := still s') config c hended
    exact fun _ => (quiet_settles.run hsafe moment w' hwaiting s' rfl).2

theorem spares_export (device? : Option Device) (config : Config) (registry : Registry Float)
    (r : ExportRequest) : Spares (fun _ => False) (r.perform device? config registry) := by
  refine Spares.bind (fun s => safe_resolve (still_reads s) _) fun settings => ?_
  refine Spares.bind (fun s => ?_) fun destination => ?_
  · cases r.destination (r.config config.exports).subfolder with
    | error f => exact exceptT_throw f
    | ok destination => exact (still s).exceptT.safe_pure destination
  refine Spares.bind (fun s => safe_openClip (still_reads s) _ _) fun a => ?_
  refine Spares.bind (fun s => safe_openClip (still_reads s) _ _) fun b => ?_
  refine Spares.lift_bind fun s f => ?_
  have hspares := fun fault : ExportError Float => exportFrames_spares
    (r.config config.exports) device? config.texturePool (r.job config registry settings) a b
    Moment.start (w := ⟨.make, destination⟩) rfl s (f := fault)
  dsimp only at hspares
  generalize StateT.run (StateT.run _ _) s = ran at hspares ⊢
  obtain ⟨⟨⟨result, moment⟩, room⟩, s'⟩ := ran
  -- the uploads may have changed the machine, but not if there is an error
  cases result with
  | error fault => exact fun _ _ => hspares fault rfl
  | ok frames => exact fun h => nomatch h

/-! ## Settings of an export -/

theorem of_onMachine {α : Type} {x : ExceptT Failure (StateM Machine) α} {Q : α → Prop}
    (hx : anyMachine.exceptT.holds x Q) {s s' : Machine} {a : α}
    (h : onMachine x s = (.ok a, s')) : Q a :=
  (hx s trivial).1 a (congrArg Prod.fst h)

theorem onMachine_resolve (o : Overrides) (s : Machine) :
    onMachine o.resolve s = ((o.source s.disk).map fun t => (o.apply t).sanitized, s) :=
  run_resolve_of_read (fun _ => rfl) o

theorem settings_of_export {device? : Option Device} {config : Config} {registry : Registry Float}
    {r : ExportRequest} {s s' : Machine} {e : Exported}
    (h : onMachine (r.perform device? config registry) s = (.ok e, s')) :
    onMachine r.overrides.resolve s = (.ok e.settings, s) := by
  obtain ⟨settings, s₁, hresolve, hexport⟩ := exists_onMachine_of_bind h
  obtain rfl : s₁ = s :=
    (congrArg Prod.snd hresolve).symm.trans (congrArg Prod.snd (onMachine_resolve r.overrides s))
  have hsettings : e.settings = settings := by
    refine of_onMachine (Q := fun e => e.settings = settings) ?_ hexport
    refine holds_bind (anyMachine_safe _) fun _ => holds_bind (anyMachine_safe _) fun _ => ?_
    refine holds_bind (anyMachine_safe _) fun _ => holds_bind (anyMachine_safe _) fun x => ?_
    obtain ⟨⟨result, moment⟩, room⟩ := x
    cases result with
    | error fault => exact holds_throw _ _
    | ok frames => exact anyMachine.exceptT.returns rfl
  rw [hsettings]
  exact hresolve

/-- Unless a uniform was set under the name of a field, the text that an export keeps gives its
settings with its frames. -/
theorem parse_record {o : Overrides} {s : Machine} {e : Exported}
    (h : onMachine o.resolve s = (.ok e.settings, s))
    (hnames : ∀ u ∈ o.uniforms, u.1 ∉ Settings.fieldNames Float)
    (hread : ∀ x ∈ e.record.toJson.numbers, Scalar.isFinite x = true → Json.ReadsBack x) :
    Settings.parse e.record.text = .ok e.record := by
  rw [onMachine_resolve] at h
  have happly := congrArg Prod.fst h
  cases hsource : o.source s.disk with
  | error f =>
      rw [hsource] at happly
      cases happly
  | ok base =>
      rw [hsource] at happly
      obtain ⟨hsound, hfree⟩ := sound_source hsource
      have hstorable : e.record.Storable := by
        rw [Exported.record, ← Except.ok.inj happly]
        exact Settings.storable_sanitized (sound_apply o hsound) ((free_apply hfree).mpr hnames) _
      refine Json.readAll_ofList (Settings.isRead_settings hstorable fun x hx => ?_)
      exact hread x hx (hstorable.finite x hx)

theorem onMachine_save (e : Exported) (path : String) (s : Machine) :
    onMachine (e.save (some path)) s =
      match s.write path (.ofText e.record.text) with
      | (true, s') => (.ok (), s')
      | (false, s') => (.error (.unwritten path .io), s') := by
  rw [Exported.save, onMachine_bind, onMachine_lift]
  have hrun : (FileSystem.write path (.ofText e.record.text) : StateM Machine Bool).run s =
      s.write path (.ofText e.record.text) := rfl
  rw [hrun]
  obtain ⟨written, s'⟩ := s.write path (.ofText e.record.text)
  cases written <;> rfl

/-! ## Outcomes -/

/-- Why work was not done. -/
def failure? : Except Failure Unit → Option Failure
  | .ok () => none
  | .error f => some f

theorem failure?_eq_some {r : Except Failure Unit} {f : Failure} (h : failure? r = some f) :
    r = .error f := by
  cases r with
  | ok _ => exact nomatch h
  | error e => rw [Option.some.inj h]

theorem run_after (output : String) (work : ExceptT Failure (StateM Machine) Unit) (s : Machine) :
    (Outcome.after output work : StateM Machine Outcome).run s =
      (⟨output, failure? (onMachine work s).1⟩, (onMachine work s).2) := by
  rw [Outcome.after, StateT.run_bind, ← onMachine]
  obtain ⟨r, s'⟩ := onMachine work s
  cases r <;> rfl

theorem run_printing (text : String) (work : ExceptT Failure (StateM Machine) Unit) (s : Machine) :
    (Outcome.printing text work : StateM Machine Outcome).run s =
      if s.prints text then (⟨text, failure? (onMachine work s).1⟩, (onMachine work s).2)
      else (⟨"", some .unprinted⟩, s) := by
  show StateT.run (if s.prints text then Outcome.after text work
    else return ⟨"", some .unprinted⟩ : StateM Machine Outcome) s = _
  split
  · exact run_after text work s
  · rfl

/-! ## Commands -/

/-- What a command loads before it is carried out. -/
def Shared.load (shared : Shared) : ExceptT Failure (StateM Machine) (Config × Registry Float) := do
  let config ← loadConfig shared.config?
  return (config, ← registryWith shared.packs)

theorem safe_sharedLoad (shared : Shared) (s : Machine) : (still s).exceptT.safe shared.load :=
  safe_bind (safe_loadConfig (still_reads s) _) fun _ =>
    safe_bind (safe_registryWith (still_reads s) _) fun _ => (still s).exceptT.safe_pure _

section

variable (device? : Option Device) (config : Config) (registry : Registry Float)

def Request.outcome (r : Request) (s : Machine) : Outcome × Machine :=
  (r.perform device? config registry : StateM Machine Outcome).run s

def Invocation.outcome (i : Invocation) (s : Machine) : Outcome × Machine :=
  (i.run device? : StateM Machine Outcome).run s

theorem outcome_invocation (i : Invocation) (s : Machine) :
    i.outcome device? s =
      match onMachine i.shared.load s with
      | (.error f, s') => (⟨"", some f⟩, s')
      | (.ok loaded, s') => i.request.outcome device? loaded.1 loaded.2 s' := by
  show StateT.run (i.shared.load.run >>= _) s = _
  rw [StateT.run_bind, ← onMachine]
  obtain ⟨f | loaded, s'⟩ := onMachine i.shared.load s
  · rfl
  · rfl

theorem outcome_picture (r : RenderRequest) (s : Machine) :
    (Request.picture r).outcome device? config registry s =
      (⟨"", failure? (onMachine (r.perform device? config registry) s).1⟩,
        (onMachine (r.perform device? config registry) s).2) := run_after "" _ s

/-- What is said of an export is said before its settings are kept. -/
theorem outcome_frames (r : ExportRequest) (s : Machine) :
    (Request.frames r).outcome device? config registry s =
      match onMachine (r.perform device? config registry) s with
      | (.error f, s') => (⟨"", some f⟩, s')
      | (.ok e, s') =>
        if s'.prints e.summary then
          (⟨e.summary, failure? (onMachine (e.save r.saveTo?) s').1⟩,
            (onMachine (e.save r.saveTo?) s').2)
        else (⟨"", some .unprinted⟩, s') := by
  unfold Request.outcome Request.perform
  dsimp only
  rw [StateT.run_bind, ← onMachine]
  obtain ⟨f | e, s'⟩ := onMachine (r.perform device? config registry) s
  · rfl
  · exact run_printing e.summary _ s'

/-- An export is excused where it fails after its frames are there. -/
def Request.Excused : Request → Failure → Prop
  | .picture r, f => r.Excused f
  | .frames r, f => f = .unprinted ∨ ∃ path, r.saveTo? = some path ∧ f = .unwritten path .io
  | .engines _, _ => False

theorem blames_save (r : ExportRequest) (e : Exported) :
    Blames (Request.frames r).Excused (e.save r.saveTo?) := by
  intro s f hf
  cases hpath : r.saveTo? with
  | none =>
      rw [hpath] at hf
      exact nomatch hf
  | some path =>
      rw [hpath, onMachine_save] at hf
      rcases hwritten : s.write path (.ofText e.record.text) with ⟨_ | _, s'⟩
      · rw [hwritten] at hf
        exact .inr ⟨path, hpath, (Except.error.inj hf).symm⟩
      · rw [hwritten] at hf
        exact nomatch hf

theorem request_harmless (r : Request) (s : Machine) {f : Failure} (hexcused : ¬r.Excused f)
    (hf : (r.outcome device? config registry s).1.failure? = some f) :
    (r.outcome device? config registry s).2 = s := by
  cases r with
  | picture r =>
      rw [outcome_picture] at hf ⊢
      exact spares_render device? config registry r s f (failure?_eq_some hf) hexcused
  | frames r =>
      have hspares := spares_export device? config registry r s f
      rw [outcome_frames] at hf ⊢
      rcases hrun : onMachine (r.perform device? config registry) s with ⟨fault | e, s'⟩
      · rw [hrun] at hf hspares
        exact hspares (congrArg Except.error (Option.some.inj hf)) not_false
      · -- the frames are there, so that only what comes afterwards can fail
        rw [hrun] at hf
        dsimp only at hf
        split at hf
        · exact absurd (blames_save r e s' f (failure?_eq_some hf)) hexcused
        · exact absurd (.inl (Option.some.inj hf).symm) hexcused
  | engines json =>
      have hrun := run_printing (enginesText json registry) (return ()) s
      show (StateT.run (Outcome.printing _ _ : StateM Machine Outcome) s).2 = s
      rw [hrun]
      split <;> rfl

/-- How an export ends that has stored its frames and is asked to keep its settings. -/
inductive Exported.Keeps (e : Exported) (path : String) (s : Machine) : Outcome × Machine → Prop
  | unprinted : s.prints e.summary = false → Keeps e path s (⟨"", some .unprinted⟩, s)
  | unwritten (s' : Machine) : s.prints e.summary = true →
      s.write path (.ofText e.record.text) = (false, s') →
      Keeps e path s (⟨e.summary, some (.unwritten path .io)⟩, s')
  | kept (s' : Machine) : s.prints e.summary = true →
      s.write path (.ofText e.record.text) = (true, s') →
      s'.disk.read? path = some (.ofText e.record.text) → Keeps e path s (⟨e.summary, none⟩, s')

theorem keeps_save (e : Exported) (path : String) (s : Machine) :
    e.Keeps path s
      (if s.prints e.summary then
        (⟨e.summary, failure? (onMachine (e.save (some path)) s).1⟩,
          (onMachine (e.save (some path)) s).2)
      else (⟨"", some .unprinted⟩, s)) := by
  split
  · rename_i hprints
    rw [onMachine_save]
    rcases hwritten : s.write path (.ofText e.record.text) with ⟨_ | _, s'⟩
    · exact .unwritten s' hprints hwritten
    · exact .kept s' hprints hwritten (s.read?_of_write hwritten)
  · rename_i hprints
    exact .unprinted (Bool.eq_false_of_not_eq_true hprints)

/-- A command that fails leaves the machine as it was, unless it fails at writing its picture, or
after it has stored the frames of an export: at saying so, or at keeping settings. Settings are kept
of exports that succeeded only, with their frames. -/
theorem run_harmless (i : Invocation) (s : Machine) :
    (∀ f, (i.outcome device? s).1.failure? = some f → ¬i.request.Excused f →
      (i.outcome device? s).2 = s) ∧
    ∀ r path, i.request = .frames r → r.saveTo? = some path →
      (∃ f, (i.outcome device? s).1.failure? = some f ∧ (i.outcome device? s).2 = s) ∨
      ∃ config registry e s', onMachine i.shared.load s = (.ok (config, registry), s) ∧
        onMachine (r.perform device? config registry) s = (.ok e, s') ∧
        onMachine r.overrides.resolve s = (.ok e.settings, s) ∧
        e.Keeps path s' (i.outcome device? s) ∧
        ((∀ u ∈ r.overrides.uniforms, u.1 ∉ Settings.fieldNames Float) →
          (∀ x ∈ e.record.toJson.numbers, Scalar.isFinite x = true → Json.ReadsBack x) →
          Settings.parse e.record.text = .ok e.record) := by
  rw [outcome_invocation]
  have hsame : (onMachine i.shared.load s).2 = s := (safe_sharedLoad i.shared s s rfl).2
  rcases hload : onMachine i.shared.load s with ⟨f | ⟨config, registry⟩, s'⟩
  · rw [hload] at hsame
    exact ⟨fun _ _ _ => hsame, fun _ _ _ _ => .inl ⟨f, rfl, hsame⟩⟩
  rw [hload] at hsame
  obtain rfl : s' = s := hsame
  refine ⟨fun f hf hexcused => request_harmless device? config registry _ s' hexcused hf, ?_⟩
  intro r path hrequest hpath
  dsimp only
  rw [hrequest, outcome_frames, hpath]
  have hspares := spares_export device? config registry r s'
  rcases hrun : onMachine (r.perform device? config registry) s' with ⟨f | e, s₁⟩
  · rw [hrun] at hspares
    exact .inl ⟨f, rfl, hspares f rfl not_false⟩
  · have hsettings := settings_of_export hrun
    exact .inr ⟨config, registry, e, s₁, rfl, hrun, hsettings, keeps_save e path s₁,
      parse_record hsettings⟩

end

/-! ### Files that are not there -/

section

variable {p : String} {s : Machine} (h : s.disk.node? p = none)

include h

theorem kind_absent :
    (FileSystem.kind p : StateM Machine EntryKind).run s = (.absent, s) := by
  show (s.disk.kind p, s) = _
  rw [Disk.kind, h]

theorem load_absent : (Config.load p : StateM Machine (Except Config.LoadError Config)).run s =
    (.ok .standard, s) := by
  rw [Config.load, StateT.run_bind, kind_absent h]
  rfl

theorem openPath_absent (fps duration : Float) :
    (Footage.openPath p fps duration : StateM Machine (Except FootageError Footage)).run s =
      (.error (.image p (.undecodable p)), s) := by
  have hread : (FileSystem.read? p : StateM Machine (Option Content)).run s = (none, s) := by
    show (s.disk.read? p, s) = _
    rw [Disk.read?, h]
  have hopen : (Still.openFile p : StateM Machine (Except MediaError Still)).run s =
      (.error (.undecodable p), s) := by
    rw [Still.openFile, StateT.run_bind, Media.readImage, StateT.run_bind, hread]
    rfl
  rw [Footage.openPath, StateT.run_bind, kind_absent h]
  show StateT.run (Still.openFile p >>= _) s = _
  rw [StateT.run_bind, hopen]
  rfl

end

/-- Nothing is there, and nothing goes wrong. -/
def blank : Machine := ⟨⟨[], []⟩, fun _ => true, fun _ _ => none, fun _ _ _ => (0, .refused)⟩

theorem node?_blank {name : String} (h : Disk.IsFileName name) : blank.disk.node? name = none := by
  have hhome : Disk.find? blank.disk.home blank.disk.tree = some (.dir []) := rfl
  rw [h.node?_eq hhome]
  rfl

/-- An export of clips that are not there. -/
def clipless : ExportRequest where
  sources := { a := "a.png", b := "b.png" }
  directory? := some "out"
  saveTo? := some "saved.json"

def clipMissing : Failure := .footage (.image "a.png" (.undecodable "a.png"))

theorem export_clipless (config : Config) (registry : Registry Float) :
    onMachine (clipless.perform none config registry) blank = (.error clipMissing, blank) := by
  have hclip : onMachine (openClip "a.png" clipless.sources) blank =
      (.error clipMissing, blank) := by
    have hname : Disk.IsFileName "a.png" := by decide +kernel
    rw [openClip, onMachine_bind, onMachine_lift, openPath_absent (node?_blank hname)]
    rfl
  have hresolve : onMachine clipless.overrides.resolve blank =
      (.ok (clipless.overrides.apply .standard).sanitized, blank) := onMachine_resolve _ _
  unfold ExportRequest.perform
  rw [onMachine_bind, hresolve]
  show onMachine (openClip "a.png" clipless.sources >>= _) blank = _
  rw [onMachine_bind, hclip]

/-- Without arguments and without a configuration file the standard values are loaded. -/
theorem load_plain {s : Machine} (h : s.disk.node? standardConfigPath = none) :
    onMachine (Shared.load {}) s = (.ok (.standard, Shader.Library.registry), s) := by
  have hconfig : onMachine (loadConfig none) s = (.ok .standard, s) := by
    rw [loadConfig, onMachine_bind, onMachine_lift]
    dsimp only [Option.getD_none]
    rw [load_absent h]
    rfl
  rw [Shared.load, onMachine_bind, hconfig]
  rfl

theorem isFileName_standardConfigPath : Disk.IsFileName standardConfigPath := by decide +kernel

theorem outcome_clipless :
    (Invocation.outcome none ⟨{}, .frames clipless⟩ blank).1.failure? = some clipMissing := by
  rw [outcome_invocation, load_plain (node?_blank isFileName_standardConfigPath)]
  dsimp only
  rw [outcome_frames, export_clipless]

/-- The export of clips that are not there fails, makes no directory and keeps no settings. -/
theorem run_harmless_clipless :
    (Invocation.outcome none ⟨{}, .frames clipless⟩ blank).1.failure? = some clipMissing ∧
      (Invocation.outcome none ⟨{}, .frames clipless⟩ blank).2 = blank ∧
      ∃ f, (Invocation.outcome none ⟨{}, .frames clipless⟩ blank).1.failure? = some f := by
  have hharmless := run_harmless none ⟨{}, .frames clipless⟩ blank
  refine ⟨outcome_clipless, hharmless.1 _ outcome_clipless ?_, ?_⟩
  · rintro (hfailure | ⟨path, -, hfailure⟩)
    · exact nomatch hfailure
    · exact nomatch hfailure
  · rcases hharmless.2 clipless "saved.json" rfl rfl with ⟨f, hf, -⟩ | ⟨_, _, e, d, -, hrun, -⟩
    · exact ⟨f, hf⟩
    · rw [export_clipless] at hrun
      exact nomatch congrArg Prod.fst hrun

/-! ### Settings that do not come back -/

/-- Two pictures, and a console that can be written to or cannot. -/
def studio (prints : Bool) : Machine :=
  { blank with
    disk := ⟨[("a.png", .file (.image .png (.solid 4 4 ⟨255, 0, 0, 255⟩))),
      ("b.png", .file (.image .png (.solid 4 4 ⟨0, 0, 255, 255⟩)))], []⟩
    prints := fun _ => prints }

/-- An export with a uniform under the name of a field. -/
def doubled : ExportRequest where
  sources := { a := "a.png", b := "b.png" }
  overrides :=
    { engine? := some "Plain"
      duration? := some 0.2
      fps? := some 10
      uniforms := [("preRenderedFrames", .scalar 1.0)] }
  output := { size := ⟨4, 4⟩ }
  directory? := some "out"
  format? := some .png
  saveTo? := some "s.json"

/-- The export has ended well, and its settings can be written but have a name twice. -/
def doubles (prints : Bool) : Except Failure Exported × Machine → Bool
  | (.ok e, s) => s.prints e.summary == prints && s.disk.kind "out" == .directory &&
    (s.write "s.json" (.ofText e.record.text)).1 && e.record.extra.keys.contains "preRenderedFrames"
  | (.error _, _) => false

theorem exists_doubled (prints : Bool) :
    ∃ e s', onMachine (doubled.perform (some .blank) .standard Shader.Library.registry)
        (studio prints) = (.ok e, s') ∧
      s'.prints e.summary = prints ∧ s'.disk.kind "out" = .directory ∧
      (s'.write "s.json" (.ofText e.record.text)).1 = true ∧ ¬e.record.Free := by
  have hcheck : doubles prints (onMachine
      (doubled.perform (some .blank) .standard Shader.Library.registry) (studio prints)) = true := by
    cases prints <;> decide +kernel
  have hfield : "preRenderedFrames" ∈ Settings.fieldNames Float := by decide +kernel
  rcases hrun : onMachine (doubled.perform (some .blank) .standard Shader.Library.registry)
    (studio prints) with ⟨f | e, s'⟩
  · rw [hrun] at hcheck
    exact absurd hcheck Bool.false_ne_true
  · rw [hrun] at hcheck
    simp only [doubles, Bool.and_eq_true, beq_iff_eq, List.contains_iff_mem] at hcheck
    obtain ⟨⟨⟨hprints, hkind⟩, hwritten⟩, hname⟩ := hcheck
    exact ⟨e, s', rfl, hprints, hkind, hwritten, fun hfree => free_iff.mp hfree _ hname hfield⟩

theorem outcome_doubled {prints : Bool} {e : Exported} {s' : Machine}
    (h : onMachine (doubled.perform (some .blank) .standard Shader.Library.registry)
      (studio prints) = (.ok e, s')) :
    Invocation.outcome (some .blank) ⟨{}, .frames doubled⟩ (studio prints) =
      if s'.prints e.summary then
        (⟨e.summary, failure? (onMachine (e.save (some "s.json")) s').1⟩,
          (onMachine (e.save (some "s.json")) s').2)
      else (⟨"", some .unprinted⟩, s') := by
  have habsent : (studio prints).disk.node? standardConfigPath = none := by
    have hhome : Disk.find? (studio prints).disk.home (studio prints).disk.tree =
        some (.dir (studio prints).disk.root) := rfl
    rw [isFileName_standardConfigPath.node?_eq hhome]
    cases prints <;> decide +kernel
  rw [outcome_invocation, load_plain habsent]
  dsimp only
  rw [outcome_frames, h]
  rfl

/-- The settings that were kept do not come back; and where nothing can be printed, the export fails
after it has stored its frames. -/
theorem doubled_not_kept :
    Invocation.read none ["export", "a.png", "b.png", "--out-dir", "out", "--format", "png",
        "--size", "4x4", "--engine", "Plain", "--duration", "0.2", "--fps", "10",
        "--save-settings", "s.json", "--set", "preRenderedFrames=1"] =
      .ok ⟨{}, .frames doubled⟩ ∧
    (∃ e s', onMachine (doubled.perform (some .blank) .standard Shader.Library.registry)
        (studio true) = (.ok e, s') ∧
      (Invocation.outcome (some .blank) ⟨{}, .frames doubled⟩ (studio true)).1.failure? = none ∧
      (Invocation.outcome (some .blank) ⟨{}, .frames doubled⟩ (studio true)).2.disk.read?
        "s.json" = some (.ofText e.record.text) ∧
      Settings.parse e.record.text ≠ .ok e.record) ∧
    (Invocation.outcome (some .blank) ⟨{}, .frames doubled⟩ (studio false)).1.failure? =
        some .unprinted ∧
      (studio false).disk.kind "out" = .absent ∧
      (Invocation.outcome (some .blank) ⟨{}, .frames doubled⟩ (studio false)).2.disk.kind "out" =
        .directory := by
  refine ⟨by decide +kernel, ?_, ?_⟩
  · obtain ⟨e, s', hrun, hprints, -, hwritten, hfree⟩ := exists_doubled true
    rcases hsaved : s'.write "s.json" (.ofText e.record.text) with ⟨written, s''⟩
    rw [hsaved] at hwritten
    obtain rfl : written = true := hwritten
    rw [outcome_doubled hrun, if_pos hprints, onMachine_save, hsaved]
    exact ⟨e, s', hrun, rfl, Machine.read?_of_write hsaved, fun hparse =>
      hfree (Settings.sound_of_parse hparse).2⟩
  · obtain ⟨e, s', hrun, hprints, hkind, -⟩ := exists_doubled false
    rw [outcome_doubled hrun, if_neg (by rw [hprints]; decide)]
    exact ⟨rfl, by decide +kernel, hkind⟩

end Command

end Segue
