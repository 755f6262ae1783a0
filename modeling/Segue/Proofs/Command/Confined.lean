import Mathlib
import Segue.Proofs.Command.Outputs
import Segue.Proofs.Decimal.Digits

/-!
# Exports stay in their directory

Files that are watched tell which paths an export touches. Whether these lie inside of the directory
it was given depends on the subfolder alone.
-/

namespace Segue

/-! ## Frame names -/

namespace EncodedFrame

theorem isDigit_of_mem_fiveDigits {n : Nat} {c : Char} (hc : c ∈ (fiveDigits n).toList) :
    c.isDigit = true := by
  rw [fiveDigits, String.toList_ofList] at hc
  rcases List.mem_append.mp hc with hc | hc
  · rw [List.eq_of_mem_replicate hc]
    decide
  · exact Decimal.isDigit_toDigits hc

theorem toList_fileName (index : Nat) (format : FrameFormat) :
    (fileName index format).toList =
      "frame_".toList ++ (fiveDigits index).toList ++ ".".toList ++ format.extension.toList := by
  simp only [fileName, toString, String.toList_append]

@[simp] theorem head?_fileName (index : Nat) (format : FrameFormat) :
    (fileName index format).toList.head? = some 'f' := by
  rw [toList_fileName]
  rfl

theorem fileName_ne {index : Nat} {format : FrameFormat} {s : String}
    (hs : s.toList.head? ≠ some 'f') : fileName index format ≠ s := by
  rintro rfl
  exact hs (head?_fileName index format)

theorem not_mem_fileName {c : Char} {index : Nat} {format : FrameFormat}
    (hdigit : c.isDigit = false) (hframe : c ∉ "frame_.".toList)
    (hletters : c ∉ format.extension.toList) :
    c ∉ (fileName index format).toList := by
  rw [toList_fileName]
  simp only [List.mem_append, not_or]
  refine ⟨⟨⟨fun h => hframe ?_, fun h => ?_⟩, fun h => hframe ?_⟩, hletters⟩
  · exact List.mem_append_left ".".toList h
  · rw [isDigit_of_mem_fiveDigits h] at hdigit
    cases hdigit
  · exact List.mem_append_right "frame_".toList h

theorem isName_fileName (index : Nat) (format : FrameFormat) :
    Path.IsName (fileName index format) :=
  Path.isName_of_not_mem (fileName_ne (by decide)) (fileName_ne (by decide))
    (fileName_ne (by decide))
    (not_mem_fileName (by decide) (by decide) (by cases format <;> decide))

end EncodedFrame

/-! ## Accepted subfolders -/

namespace Config

theorem hasTwoDots_of_infix {cs : List Char} (h : ['.', '.'] <:+: cs) : hasTwoDots cs = true := by
  obtain ⟨before, after, rfl⟩ := h
  rw [List.append_assoc]
  induction before with
  | nil => rfl
  | cons c before ih =>
      rw [List.cons_append]
      unfold hasTwoDots
      split
      · rfl
      · rename_i heq
        cases heq
        exact ih
      · contradiction

/-- No name in the subfolder of a configuration that can be used leads upwards. -/
theorem not_mem_components_subfolder {c : Config} (h : c.fault? = none) :
    ".." ∉ Path.components c.exports.subfolder := by
  intro hmem
  have hdots := hasTwoDots_of_infix (Path.infix_of_mem_components hmem)
  unfold fault? at h
  rw [if_pos hdots] at h
  grind

end Config

/-! ## Watched files -/

/-- Files, and the paths that were made or written. -/
structure Watched (σ : Type) where
  files : σ
  touched : List String

namespace Watched

variable {σ α : Type}

/-- Works on files, and notes which paths are touched by that. -/
def noting (paths : List String) (x : StateM σ α) : StateM (Watched σ) α := fun w =>
  let (a, files) := x.run w.files
  (a, ⟨files, w.touched ++ paths⟩)

/-- Only paths of some kind are touched. -/
def touching (allowed : String → Prop) : Promise (StateM (Watched σ)) :=
  Promise.id.stateT fun w => ∀ p ∈ w.touched, allowed p

theorem touching_noting {allowed : String → Prop} {paths : List String} (h : ∀ p ∈ paths, allowed p)
    (x : StateM σ α) : (touching allowed).safe (noting paths x) := by
  intro w hw
  refine ⟨trivial, fun p hp => ?_⟩
  rcases List.mem_append.mp hp with hp | hp
  · exact hw p hp
  · exact h p hp

variable [FileSystem (StateM σ)]

instance : FileSystem (StateM (Watched σ)) where
  kind p := noting [] (FileSystem.kind p)
  read? p := noting [] (FileSystem.read? p)
  names? p := noting [] (FileSystem.names? p)
  makeDirectory p := noting [p] (FileSystem.makeDirectory p)
  write p c := noting [p] (FileSystem.write p c)

instance [Hosts (StateM σ)] : Hosts (StateM (Watched σ)) :=
  ⟨fun endpoint subfolder frame => noting [] (Hosts.post endpoint subfolder frame)⟩

theorem run_makeDirectory (p : String) (w : Watched σ) :
    (FileSystem.makeDirectory p : StateM (Watched σ) Bool).run w =
      pure (((FileSystem.makeDirectory p : StateM σ Bool).run w.files).1,
        ⟨((FileSystem.makeDirectory p : StateM σ Bool).run w.files).2, w.touched ++ [p]⟩) := rfl

theorem run_write (p : String) (c : Content) (w : Watched σ) :
    (FileSystem.write p c : StateM (Watched σ) Bool).run w =
      pure (((FileSystem.write p c : StateM σ Bool).run w.files).1,
        ⟨((FileSystem.write p c : StateM σ Bool).run w.files).2, w.touched ++ [p]⟩) := rfl

open Command in
theorem touching_stores {allowed : String → Prop} {t : DirectoryTarget}
    (hmake : allowed t.outputDirectory)
    (hwrite : ∀ index format,
      allowed (Path.join t.outputDirectory (EncodedFrame.fileName index format))) :
    Stores (touching allowed : Promise (StateM (Watched σ))) t where
  kind _ := touching_noting (fun _ h => nomatch h) _
  read _ := touching_noting (fun _ h => nomatch h) _
  names _ := touching_noting (fun _ h => nomatch h) _
  make := touching_noting (fun _ h => List.mem_singleton.mp h ▸ hmake) _
  write index format _ :=
    touching_noting (fun _ h => List.mem_singleton.mp h ▸ hwrite index format) _

end Watched

variable {σ : Type} [FileSystem (StateM σ)]

def DirectoryTarget.touched (t : DirectoryTarget) (frame : EncodedFrame) (files : σ) :
    List String :=
  ((t.store frame : StateM (Watched σ) _).run ⟨files, []⟩).2.touched

/-- The directory is made first; if it is there then, the frame is written. -/
theorem DirectoryTarget.touched_eq (t : DirectoryTarget) (frame : EncodedFrame) (files : σ) :
    t.touched frame files = t.outputDirectory ::
      if ((FileSystem.makeDirectory t.outputDirectory : StateM σ Bool).run files).1 then
        [Path.join t.outputDirectory frame.name]
      else [] := by
  unfold touched store
  dsimp only
  rw [StateT.run_bind, Watched.run_makeDirectory, pure_bind]
  cases ((FileSystem.makeDirectory t.outputDirectory : StateM σ Bool).run files).1 with
  | false => rfl
  | true =>
      rw [if_neg (by decide), StateT.run_bind, Watched.run_write, pure_bind]
      split <;> rfl

theorem DirectoryTarget.outputDirectory_mem_touched (t : DirectoryTarget) (frame : EncodedFrame)
    (files : σ) : t.outputDirectory ∈ t.touched frame files := by
  rw [touched_eq]
  exact List.mem_cons_self

namespace Command

variable [Hosts (StateM σ)]

def ExportRequest.touched (device? : Option Device) (config : Config) (registry : Registry Float)
    (r : ExportRequest) (root : String) (files : σ) : List String :=
  ((({ r with directory? := some root }.perform device? config registry :
    ExceptT Failure (StateM (Watched σ)) Exported).run).run ⟨files, []⟩).2.touched

def ExportRequest.subfolder (config : Config) (r : ExportRequest) : String :=
  (r.config config.exports).subfolder

/-- An export touches the directory of its frames, and the frames. -/
theorem touched_of_target (device? : Option Device) (config : Config) (registry : Registry Float)
    (r : ExportRequest) (root : String) (files : σ) {allowed : String → Prop}
    (hmake : allowed (Path.join root (r.subfolder config)))
    (hwrite : ∀ index format, allowed
      (Path.join (Path.join root (r.subfolder config)) (EncodedFrame.fileName index format))) :
    ∀ p ∈ r.touched device? config registry root files, allowed p := by
  have hroot : { r with directory? := some root }.directory? = some root := rfl
  have hstores : Stores (Watched.touching allowed : Promise (StateM (Watched σ)))
      ⟨root, r.subfolder config⟩ := Watched.touching_stores hmake hwrite
  exact (safe_export device? config registry hroot hstores ⟨files, []⟩ fun _ h => nomatch h).2

/-- An export stays inside of every directory that it is given, or with all that it touches leaves
some of them. If nothing else is asked for than was configured, only absolute subfolders do that. -/
theorem export_confined {config : Config} (hconfig : config.fault? = none)
    (device? : Option Device) (registry : Registry Float) (r : ExportRequest) :
    (Path.stays (r.subfolder config) = true → ∀ root (files : σ),
      ∀ p ∈ r.touched device? config registry root files, Path.Inside root p) ∧
    (Path.stays (r.subfolder config) = false → ∃ root, root ≠ "" ∧ ∀ files : σ,
      (∀ p ∈ r.touched device? config registry root files, ¬Path.Inside root p) ∧
        ∀ frame, ∃ p ∈ DirectoryTarget.touched ⟨root, r.subfolder config⟩ frame files,
          ¬Path.Inside root p) ∧
    (r.subfolder? = none →
      Path.stays (r.subfolder config) = !Path.isAbsolute (r.subfolder config)) := by
  refine ⟨fun hstays root files => ?_, fun hleaves => ?_, fun hnone => ?_⟩
  · have hinside := Path.inside_join hstays root
    exact touched_of_target device? config registry r root files hinside fun index format =>
      hinside.join_name (EncodedFrame.isName_fileName index format)
  · obtain ⟨root, hroot, hmake, hwrite⟩ := Path.exists_not_inside hleaves
    refine ⟨root, hroot, fun files => ⟨?_, fun frame => ?_⟩⟩
    · refine touched_of_target device? config registry r root files hmake fun index format => ?_
      refine hwrite _ (EncodedFrame.isName_fileName index format) ?_
      rw [EncodedFrame.head?_fileName]
      decide
    · exact ⟨_, DirectoryTarget.outputDirectory_mem_touched _ frame files, hmake⟩
  · have hsub : r.subfolder config = config.exports.subfolder := by
      rw [ExportRequest.subfolder, ExportRequest.config, hnone]
      rfl
    rw [hsub]
    exact Path.stays_of_not_mem (Config.not_mem_components_subfolder hconfig)

def upward : ExportRequest where
  sources := { a := "a.png", b := "b.png" }
  directory? := some "out"
  subfolder? := some "../escaped"

def rooted : Config :=
  { Config.standard with exports := { ExportConfig.standard with subfolder := "/escaped" } }

def firstFrame : EncodedFrame :=
  ⟨0, EncodedFrame.fileName 0 .png, .png, .image .png (.blank 4 4)⟩

/-- The standard subfolder stays inside of all directories, and one that leads upwards leaves some. -/
theorem export_confined_standard :
    Config.standard.fault? = none ∧
      (∀ p ∈ ExportRequest.touched none .standard .empty {} "out" (⟨[], []⟩ : Disk),
        Path.Inside "out" p) ∧
      ∃ root, root ≠ "" ∧ ∀ frame,
        ∃ p ∈ DirectoryTarget.touched ⟨root, "../escaped"⟩ frame (⟨[], []⟩ : Disk),
          ¬Path.Inside root p := by
  have hconfig : Config.standard.fault? = none := by decide +kernel
  refine ⟨hconfig, (export_confined hconfig none .empty {}).1 (by decide +kernel) "out" _, ?_⟩
  obtain ⟨root, hroot, h⟩ :=
    (export_confined (σ := Disk) hconfig none .empty upward).2.1 (by decide +kernel)
  exact ⟨root, hroot, (h _).2⟩

/-- Both are accepted, and lead out of the directory that was asked for. -/
theorem upward_not_confined :
    Config.standard.fault? = none ∧
      Invocation.read none ["export", "a.png", "b.png", "--out-dir", "out",
        "--subfolder", "../escaped"] = .ok ⟨{}, .frames upward⟩ ∧
      (∃ p ∈ DirectoryTarget.touched ⟨"out", upward.subfolder .standard⟩ firstFrame
        (⟨[], []⟩ : Disk), ¬Path.Inside "out" p) ∧
      rooted.fault? = none ∧
      ∃ p ∈ DirectoryTarget.touched ⟨"out", ExportRequest.subfolder rooted {}⟩ firstFrame
        (⟨[], []⟩ : Disk), ¬Path.Inside "out" p := by
  refine ⟨by decide +kernel, rfl, ⟨_, DirectoryTarget.outputDirectory_mem_touched _ _ _, ?_⟩,
    by decide +kernel, ⟨_, DirectoryTarget.outputDirectory_mem_touched _ _ _, ?_⟩⟩
  · decide +kernel
  · decide +kernel

end Command

end Segue
