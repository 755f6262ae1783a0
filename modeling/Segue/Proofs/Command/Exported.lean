import Mathlib
import Segue.Proofs.Command.Machine
import Segue.Proofs.Export.Clocked

/-!
# What an export tells

The exporter of an export is in its workroom, where nothing else has to do with it. So an export is
the one run of a session, and the frames that it tells of are those of a complete run.
-/

namespace Segue

namespace Command

open Exporter

/-- The workroom is on the machine, and the exporter in it. -/
def housing : Housing MachineRoom (Workroom × Machine) where
  exec x c :=
    let r := (x.run c.1).run c.2
    (r.1.1, r.1.2, r.2)
  exporter c := c.1.exporter
  put e c := ({ c.1 with exporter := e }, c.2)
  exporter_put _ _ := rfl
  exec_pure _ _ := rfl
  exec_bind _ _ _ := rfl
  exec_get _ := rfl
  exec_set _ _ := rfl
  exec_modifyGet _ _ := rfl

variable {β : Type}

theorem apart_pure (b : β) : housing.Apart (pure b) := fun _ => rfl

theorem apart_lift (x : StateM Machine β) : housing.Apart (liftM x) := fun _ => rfl

theorem housing_reads (e : Exporter Float) : (housing.still e).Reads where
  kind p := Housing.Apart.still (apart_lift (FileSystem.kind p)) e
  read p := Housing.Apart.still (apart_lift (FileSystem.read? p)) e
  names p := Housing.Apart.still (apart_lift (FileSystem.names? p)) e

theorem housing_source : housing.SourceApart Footage where
  seek a time := Housing.apart_iff_still.mpr fun e => safe_seek (housing_reads e) a time
  duplicate a := apart_pure a.duplicate
  release a := apart_pure a.release

theorem housing_compositor : housing.CompositorApart Renderer where
  useVariant a registry key := apart_pure (a.useVariant registry key)
  updateImage a clip image := apart_pure (a.updateImage clip image)
  pinTime a time := apart_pure (a.pinTime time)
  render a _ := apart_pure (a.render, a)
  readPixels a := apart_pure a.readPixels
  dispose a := apart_pure a.dispose

open Promise in
theorem housing_uploader : housing.UploaderApart := by
  intro frame
  refine Housing.apart_iff_still.mpr fun e => ?_
  have hroom : (housing.still e).safe (getThe Workroom : MachineRoom Workroom) :=
    Housing.Apart.still (fun _ => rfl) e
  refine safe_bind hroom fun w => ?_
  cases w.destination with
  | host t => exact Housing.Apart.still (apart_lift (t.upload frame)) e
  | directory t =>
      refine safe_bind (Housing.Apart.still (apart_lift (t.store frame)) e) fun stored => ?_
      cases stored with
      | ok ref => exact (housing.still e).safe_pure _
      | error fault => exact (housing.still e).safe_pure _

/-- An export that succeeds is the one run of a session. -/
theorem lone_of_export {device? : Option Device} {config : Config} {registry : Registry Float}
    {r : ExportRequest} {s s' : Machine} {e : Exported}
    (h : onMachine (r.perform device? config registry) s = (.ok e, s')) :
    ∃ (events : List (Event Float)) (x : ExportCall Float),
      let t := (Session.start (Export.policy (r.config config.exports))).run events
      t.Lone ∧ t.runs[0]? = some x ∧ x.run.job = r.job config registry e.settings ∧
        x.run.phase = .ended (.ok e.frames) ∧ e.planned = t.exporter.frameCount := by
  obtain ⟨settings, s₁, -, h⟩ := exists_onMachine_of_bind h
  obtain ⟨destination, s₂, -, h⟩ := exists_onMachine_of_bind h
  obtain ⟨a, s₃, -, h⟩ := exists_onMachine_of_bind h
  obtain ⟨b, s₄, -, h⟩ := exists_onMachine_of_bind h
  obtain ⟨y, s₅, hran, h⟩ := exists_onMachine_of_bind h
  have hmake (w h : Nat) : housing.Apart
      (pure (Renderer.create device? w h config.texturePool) : MachineRoom Renderer) :=
    apart_pure _
  have hreport (_ : Float) : housing.Apart (pure () : MachineRoom Unit) := apart_pure ()
  obtain ⟨events, x, hlone, hsame, hk, hjob, hp⟩ := Housing.exec_exportFrames housing_uploader
    housing_source housing_compositor (r.config config.exports) hmake hreport
    (r.job config registry settings) a b Moment.start (c := (⟨.make, destination⟩, s₄)) rfl
  refine ⟨events, x, hlone, hk, ?_⟩
  rw [hsame, hjob, hp]
  obtain ⟨⟨result, moment⟩, room⟩ := y
  have hcarried : (Except.ok _, _) = (Except.ok ((result, moment), room), s₅) := hran
  have hexec : housing.exec ((Exporter.exportFrames (r.config config.exports) (pure false)
      (fun w h => (pure (Renderer.create device? w h config.texturePool) : MachineRoom Renderer))
      (fun _ => pure ()) (r.job config registry settings) a b).run Moment.start)
      (⟨.make, destination⟩, s₄) = ((result, moment), room, s₅) := by
    obtain ⟨hreturned, hleft⟩ := Prod.mk.inj hcarried
    exact congrArg₂ (fun y s => (y.1, y.2, s)) (Except.ok.inj hreturned) hleft
  rw [hexec]
  cases result with
  | error fault => exact nomatch congrArg Prod.fst h
  | ok frames =>
      obtain rfl := Except.ok.inj (congrArg Prod.fst h)
      exact ⟨rfl, rfl, rfl⟩

/-- All frames that an export tells of were drawn, and uploaded once; it tells of them in the order
of their positions, and how many there should have been. -/
theorem delivered_of_export {device? : Option Device} {config : Config} {registry : Registry Float}
    {r : ExportRequest} {s s' : Machine} {e : Exported}
    (h : onMachine (r.perform device? config registry) s = (.ok e, s')) :
    ∃ (events : List (Event Float)) (x : ExportCall Float),
      let t := (Session.start (Export.policy (r.config config.exports))).run events
      t.runs[0]? = some x ∧ x.run.job = r.job config registry e.settings ∧
        t.Complete 0 x ∧ t.Delivered 0 x e.frames ∧ e.planned = x.run.total := by
  obtain ⟨events, x, hlone, hk, hjob, hp, hplanned⟩ := lone_of_export h
  have hgoes := hlone.isCancelled_eq 1
  exact ⟨events, x, hk, hjob, hlone.toSound.complete hk hgoes hp, hlone.toSound.delivered hk hp,
    hplanned.trans (hlone.frameCount hk hp)⟩

theorem frames_length_le_planned {device? : Option Device} {config : Config}
    {registry : Registry Float} {r : ExportRequest} {s s' : Machine} {e : Exported}
    (h : onMachine (r.perform device? config registry) s = (.ok e, s')) :
    e.frames.length ≤ e.planned := by
  obtain ⟨events, x, hk, -, hcomplete, hdelivered, hplanned⟩ := delivered_of_export h
  obtain ⟨uploads, hperm, -, hframes⟩ := hdelivered.result
  have hdrawn : x.drawn.length = x.run.total := by
    rw [← List.length_map (f := Prod.fst), hcomplete.drawn, List.length_range]
  have hbegun := hcomplete.begun.length_eq
  rw [List.length_map] at hbegun
  calc e.frames.length
      = (uploads.filterMap (·.2.stored?)).length := by rw [hframes]
    _ ≤ uploads.length := List.length_filterMap_le _ _
    _ = _ := hperm.length_eq
    _ = _ := hbegun
    _ ≤ x.drawn.length := List.length_filterMap_le _ _
    _ = e.planned := hdrawn.trans hplanned.symm

end Command

end Segue
