import Mathlib
import Segue.Proofs.Command.Confined
import Segue.Proofs.Playhead
import Segue.Proofs.Shader.Loading

/-!
# Exported frames as a sequence

The frames of an export are numbered, and a sequence takes the files of a directory in the order of
their names. Both orders agree as long as all numbers have the same width.
-/

namespace Segue

namespace EncodedFrame

/-! ## Numbers of fixed width -/

/-- The last digits of a number. -/
def padded : (width : Nat) → Nat → List Char
  | 0, _ => []
  | width + 1, n => padded width (n / 10) ++ [(n % 10).digitChar]

@[simp] theorem padded_zero (width : Nat) : padded width 0 = List.replicate width '0' := by
  induction width with
  | zero => rfl
  | succ width ih =>
      rw [padded, Nat.zero_div, ih, List.replicate_succ']
      rfl

@[simp] theorem length_padded (width n : Nat) : (padded width n).length = width := by
  induction width generalizing n with
  | zero => rfl
  | succ width ih => rw [padded, List.length_append, ih, List.length_singleton]

theorem isDigit_of_mem_padded {width n : Nat} {c : Char} (hc : c ∈ padded width n) :
    c.isDigit = true := by
  induction width generalizing n with
  | zero => cases hc
  | succ width ih =>
      rw [padded, List.mem_append, List.mem_singleton] at hc
      rcases hc with hc | rfl
      · exact ih hc
      · have hdigit : ∀ k < 10, k.digitChar.isDigit = true := by decide
        exact hdigit _ (Nat.mod_lt n (by decide))

/-- A number with zeros in front. -/
theorem replicate_append_toDigits {width n : Nat} (h : (Nat.toDigits 10 n).length ≤ width) :
    List.replicate (width - (Nat.toDigits 10 n).length) '0' ++ Nat.toDigits 10 n =
      padded width n := by
  induction width generalizing n with
  | zero => exact absurd (List.length_eq_zero_iff.mp (Nat.le_zero.mp h)) Nat.toDigits_ne_nil
  | succ width ih =>
      by_cases hn : n < 10
      · rw [Nat.toDigits_of_lt_base hn, padded, Nat.div_eq_of_lt hn, Nat.mod_eq_of_lt hn,
          padded_zero]
        rfl
      · have hsplit := Nat.toDigits_of_base_le (b := 10) (by decide) (Nat.le_of_not_lt hn)
        rw [hsplit, List.length_append, List.length_singleton] at h
        rw [hsplit, List.length_append, List.length_singleton, Nat.add_sub_add_right,
          ← List.append_assoc, ih (Nat.le_of_succ_le_succ h), padded]

theorem padded_add (width k n : Nat) :
    padded (width + k) n = padded width (n / 10 ^ k) ++ padded k (n % 10 ^ k) := by
  induction k generalizing n with
  | zero => simp [padded]
  | succ k ih =>
      have hquotient : n / 10 / 10 ^ k = n / 10 ^ (k + 1) := by
        rw [Nat.div_div_eq_div_mul, pow_succ']
      have hrest : n / 10 % 10 ^ k = n % 10 ^ (k + 1) / 10 := by
        rw [pow_succ', Nat.mod_mul_right_div_self]
      have hlast : n % 10 = n % 10 ^ (k + 1) % 10 :=
        (Nat.mod_mod_of_dvd n (dvd_pow_self 10 k.succ_ne_zero)).symm
      rw [← Nat.add_assoc, padded, ih, padded, hquotient, hrest, ← hlast, List.append_assoc]

/-- Of two numbers of one width the smaller one comes first, whatever follows them. -/
theorem padded_append_lt {width a b : Nat} (hab : a < b) (hb : b < 10 ^ width)
    (x y : List Char) : padded width a ++ x < padded width b ++ y := by
  induction width generalizing a b x y with
  | zero => omega
  | succ width ih =>
      have hdigit : ∀ k < 10, ∀ l < k, l.digitChar < k.digitChar := by decide
      rw [padded, padded, List.append_assoc, List.append_assoc, List.singleton_append,
        List.singleton_append]
      rcases Nat.lt_or_ge (a / 10) (b / 10) with hlt | hge
      · exact ih hlt (by omega) _ _
      · rw [show a / 10 = b / 10 by omega]
        exact List.append_left_lt (List.cons_lt_cons_iff.mpr
          (.inl (hdigit _ (Nat.mod_lt b (by decide)) _ (by omega))))

/-- A number that goes on comes behind one that ends. -/
theorem dot_cons_lt {k : Nat} (hk : 0 < k) (n : Nat) (x y : List Char) :
    '.' :: x < padded k n ++ y := by
  cases hdigits : padded k n with
  | nil =>
      have := length_padded k n
      rw [hdigits] at this
      exact absurd this hk.ne
  | cons c cs =>
      have hc : c.isDigit = true := isDigit_of_mem_padded (hdigits ▸ List.mem_cons_self)
      have hzero : '0' ≤ c := by
        rw [Char.isDigit, Bool.and_eq_true] at hc
        exact of_decide_eq_true hc.1
      exact List.cons_lt_cons_iff.mpr (.inl (lt_of_lt_of_le (by decide) hzero))

/-! ## Names -/

def width (index : Nat) : Nat := max 5 (Nat.toDigits 10 index).length

@[simp] theorem toList_fiveDigits (n : Nat) : (fiveDigits n).toList = padded (width n) n := by
  have hlength : (Nat.toDigits 10 n).length ≤ width n := Nat.le_max_right _ _
  have hzeros : 5 - (Nat.toDigits 10 n).length = width n - (Nat.toDigits 10 n).length := by
    rw [width]
    omega
  rw [fiveDigits, String.toList_ofList, hzeros, replicate_append_toDigits hlength]

theorem width_le_iff {n k : Nat} (hk : 5 ≤ k) : width n ≤ k ↔ n < 10 ^ k := by
  rw [width, Nat.max_le, and_iff_right hk, Nat.length_toDigits_le_iff (by decide) (by omega)]

theorem lt_pow_width (n : Nat) : n < 10 ^ width n :=
  (width_le_iff (Nat.le_max_left _ _)).mp le_rfl

theorem width_le_width {i j : Nat} (h : i ≤ j) : width i ≤ width j :=
  (width_le_iff (Nat.le_max_left _ _)).mpr (h.trans_lt (lt_pow_width j))

def front (index i : Nat) : Nat := index / 10 ^ (width index - width i)

variable {i j : Nat}

theorem front_lt (h : i ≤ j) : front j i < 10 ^ width i := by
  refine Nat.div_lt_of_lt_mul ?_
  rw [← pow_add, Nat.sub_add_cancel (width_le_width h)]
  exact lt_pow_width j

theorem toList_fileName_front (h : i ≤ j) (f : FrameFormat) : (fileName j f).toList =
    "frame_".toList ++ (padded (width i) (front j i) ++
      (padded (width j - width i) (j % 10 ^ (width j - width i)) ++
        '.' :: f.extension.toList)) := by
  have hdigits := padded_add (width i) (width j - width i) j
  rw [Nat.add_sub_cancel' (width_le_width h)] at hdigits
  rw [toList_fileName, toList_fiveDigits, hdigits]
  simp only [List.append_assoc]
  rfl

theorem fileName_lt_of_le_front (h : i < j) (hfront : i ≤ front j i) (f : FrameFormat) :
    fileName i f < fileName j f := by
  have hi := toList_fileName_front (le_refl i) f
  rw [Nat.sub_self, padded, front, Nat.sub_self, pow_zero, Nat.div_one, List.nil_append] at hi
  rw [String.lt_iff_toList_lt, hi, toList_fileName_front h.le]
  refine List.append_left_lt ?_
  rcases hfront.lt_or_eq with hlt | heq
  · exact padded_append_lt hlt (front_lt h.le) _ _
  · have hwider : 0 < width j - width i := by
      by_contra hsame
      rw [front, Nat.le_zero.mp (Nat.le_of_not_lt hsame), pow_zero, Nat.div_one] at heq
      exact h.ne heq
    rw [← heq]
    exact List.append_left_lt (dot_cons_lt hwider _ _ _)

theorem fileName_lt_of_front_lt (h : i ≤ j) (hfront : front j i < i) (f : FrameFormat) :
    fileName j f < fileName i f := by
  have hi := toList_fileName_front (le_refl i) f
  rw [Nat.sub_self, padded, front, Nat.sub_self, pow_zero, Nat.div_one, List.nil_append] at hi
  rw [String.lt_iff_toList_lt, hi, toList_fileName_front h]
  exact List.append_left_lt (padded_append_lt hfront (lt_pow_width i) _ _)

/-- Names are in the order of their numbers exactly if the smaller number is no greater than what
stands in the other name where its own digits are. -/
theorem fileName_lt_iff (h : i < j) (f : FrameFormat) :
    fileName i f < fileName j f ↔ i ≤ front j i := by
  refine ⟨fun hlt => ?_, fun hfront => fileName_lt_of_le_front h hfront f⟩
  by_contra hfront
  exact String.lt_asymm hlt (fileName_lt_of_front_lt h.le (Nat.lt_of_not_le hfront) f)

theorem fileName_injective (f : FrameFormat) : Function.Injective fun i => fileName i f := by
  have hne : ∀ {i j : Nat}, i < j → fileName i f ≠ fileName j f := by
    intro i j h
    rcases Nat.lt_or_ge (front j i) i with hfront | hfront
    · exact (ne_of_lt (fileName_lt_of_front_lt h.le hfront f)).symm
    · exact ne_of_lt (fileName_lt_of_le_front h hfront f)
  intro i j heq
  rcases lt_trichotomy i j with h | h | h
  · exact absurd heq (hne h)
  · exact h
  · exact absurd heq.symm (hne h)

/-- The names of so many frames are in order exactly if five digits are enough for them. -/
theorem ascending_iff {n : Nat} (f : FrameFormat) :
    (∀ j < n, ∀ i < j, fileName i f < fileName j f) ↔ n ≤ 10 ^ 5 := by
  have hwidth : ∀ {k : Nat}, k < 10 ^ 5 → width k = 5 := fun h =>
    Nat.le_antisymm ((width_le_iff le_rfl).mpr h) (Nat.le_max_left _ _)
  constructor
  · intro h
    by_contra hmany
    -- the first frame with six digits comes before the last one with five
    have hfive : width 99999 = 5 := hwidth (by decide)
    have hsix : width (10 ^ 5) = 6 := by decide +kernel
    have hlt := h (10 ^ 5) (Nat.lt_of_not_le hmany) 99999 (by decide)
    rw [fileName_lt_iff (by decide), front, hfive, hsix] at hlt
    exact absurd hlt (by decide)
  · intro hn j hj i hi
    rw [fileName_lt_iff hi, front, hwidth (hj.trans_le hn), hwidth ((hi.trans hj).trans_le hn)]
    simpa using hi.le

/-! ## Frames among files -/

theorem name_of_ofImage? {index : Nat} {image : Image} {f : FrameFormat} {e : EncodedFrame}
    (h : ofImage? index image f = some e) : e.name = fileName index f := by
  unfold ofImage? at h
  split at h <;> cases h
  rfl

theorem isFileName_fileName {index : Nat} {f : FrameFormat}
    (hshort : (fileName index f).utf8ByteSize ≤ Disk.maxName) :
    Disk.IsFileName (fileName index f) where
  plain := by
    have hne : ∀ s ∈ ["", ".", ".."], s.toList.head? ≠ some 'f' := by decide
    exact fun h => fileName_ne (hne _ h) rfl
  slash := not_mem_fileName (by decide) (by decide) (by cases f <;> decide)
  nul := not_mem_fileName (by decide) (by decide) (by cases f <;> decide)
  short := hshort

@[simp] theorem extension?_fileName (index : Nat) (f : FrameFormat) :
    Path.extension? (fileName index f) = some f.extension := by
  have hname := isName_fileName index f
  have hlast : Path.fileName? (fileName index f) = some (fileName index f) := by
    rw [Path.fileName?, hname.single, List.getLast?_singleton]
    split
    · rename_i heq
      exact absurd (Option.some.inj heq) hname.plain
    · rfl
  have hdot : ∀ c ∈ f.extension.toList.reverse, decide (c ≠ '.') = true := by
    have hdot : '.' ∉ f.extension.toList := by cases f <;> decide
    intro c hc
    refine decide_eq_true fun h => hdot ?_
    rwa [← h, ← List.mem_reverse]
  have hreverse : (fileName index f).toList.reverse =
      f.extension.toList.reverse ++
        '.' :: ((fiveDigits index).toList.reverse ++ "frame_".toList.reverse) := by
    have hpoint : ".".toList = ['.'] := rfl
    rw [toList_fileName, hpoint]
    simp only [List.reverse_append, List.reverse_singleton, List.singleton_append]
  rw [Path.extension?, hlast]
  dsimp only
  rw [hreverse, List.takeWhile_append_of_pos hdot, List.takeWhile_cons_of_neg (by decide),
    List.append_nil, List.drop_left, List.reverse_reverse, String.ofList_toList]
  split
  · rename_i hnil
    exact absurd hnil (List.cons_ne_nil _ _)
  · rename_i hsingle
    have := congrArg List.length hsingle
    simp at this
  · rfl

@[simp] theorem isFrameName_fileName (index : Nat) (f : FrameFormat) :
    ImageSequence.isFrameName (fileName index f) = true := by
  rw [ImageSequence.isFrameName, extension?_fileName]
  cases f <;> decide +kernel

end EncodedFrame

namespace DirectoryTarget

open EncodedFrame (fileName)

/-! ## Stored frames -/

variable {t : DirectoryTarget} {d : Disk} {entries : List (String × Node)}

def framePath (t : DirectoryTarget) (f : FrameFormat) (index : Nat) : String :=
  Path.join t.outputDirectory (fileName index f)

/-- Where the frames of an export are stored, in the order of their names. -/
def framePaths (t : DirectoryTarget) (f : FrameFormat) (n : Nat) : List String :=
  ((List.range n).map fun i => fileName i f).mergeSort.map (Path.join t.outputDirectory)

theorem framePaths_perm (t : DirectoryTarget) (f : FrameFormat) (n : Nat) :
    (t.framePaths f n).Perm ((List.range n).map (t.framePath f)) := by
  refine ((List.mergeSort_perm _ _).map _).trans ?_
  rw [List.map_map]
  exact .rfl

def entry (e : EncodedFrame) : String × Node := (e.name, .file e.content)

def stored (t : DirectoryTarget) (e : EncodedFrame) : FrameRef :=
  ⟨e.name, t.subfolder, FrameRef.standardKind⟩

theorem run_store (t : DirectoryTarget) (e : EncodedFrame) (d : Disk) :
    (t.store e : StateM Disk (Except UploadError FrameRef)).run d =
      match d.makeDirectory t.outputDirectory with
      | (false, d) => (.error (.unwritable t.outputDirectory), d)
      | (true, d) =>
        match d.write? (Path.join t.outputDirectory e.name) e.content with
        | none => (.error (.unwritable (Path.join t.outputDirectory e.name)), d)
        | some d => (.ok (t.stored e), d) := by
  unfold store
  dsimp only
  rw [Disk.run_bind, Disk.run_makeDirectory]
  rcases d.makeDirectory t.outputDirectory with ⟨_ | _, d⟩
  · rfl
  · show StateT.run (FileSystem.write _ _ >>= _) d = _
    rw [Disk.run_bind, Disk.run_write]
    dsimp only
    cases d.write? (Path.join t.outputDirectory e.name) e.content <;> rfl

/-- No directory is among the entries. -/
def HoldsFiles (entries : List (String × Node)) : Prop :=
  ∀ name table, Keyed.get? name entries ≠ some (.dir table)

theorem HoldsFiles.insert (h : HoldsFiles entries) (name : String) (c : Content) :
    HoldsFiles (Keyed.insert name (.file c) entries) := by
  intro other table
  rw [Keyed.get?_insert]
  split
  · exact nofun
  · exact h other table

/-- A frame that can have its path. -/
structure Fits (t : DirectoryTarget) (e : EncodedFrame) : Prop where
  name : Disk.IsFileName e.name
  path : (Path.join t.outputDirectory e.name).utf8ByteSize ≤ Disk.maxPath

/-- Frames go one after the other into a directory of files. -/
theorem exists_run_stores (hdir : d.node? t.outputDirectory = some (.dir entries))
    (hfiles : HoldsFiles entries) {frames : List EncodedFrame} (hfit : ∀ e ∈ frames, t.Fits e) :
    ∃ d', (frames.mapM t.store : StateM Disk (List (Except UploadError FrameRef))).run d =
        (frames.map fun e => .ok (t.stored e), d') ∧
      d'.node? t.outputDirectory = some (.dir (Keyed.merge entries (frames.map entry))) := by
  induction frames generalizing d entries with
  | nil => exact ⟨d, rfl, hdir⟩
  | cons e frames ih =>
      obtain ⟨hname, hpath⟩ := hfit e List.mem_cons_self
      obtain ⟨d₁, hwrite, hdir₁⟩ :=
        Disk.exists_write?_join hdir hname hpath (hfiles e.name) e.content
      obtain ⟨d', hrun, hdir'⟩ := ih hdir₁ (hfiles.insert e.name e.content)
        fun e' he' => hfit e' (List.mem_cons_of_mem _ he')
      refine ⟨d', ?_, hdir'⟩
      have hstore : (t.store e : StateM Disk (Except UploadError FrameRef)).run d =
          (.ok (t.stored e), d₁) := by
        rw [run_store, Disk.makeDirectory_of_node? hdir]
        dsimp only
        rw [hwrite]
      rw [List.mapM_cons, Disk.run_bind, hstore]
      dsimp only
      rw [Disk.run_bind, hrun]
      rfl

/-- The first frame finds its directory made, if it can be made at all. -/
theorem run_stores_made (hmade : (d.makeDirectory t.outputDirectory).1 = true)
    (hdir : (d.makeDirectory t.outputDirectory).2.node? t.outputDirectory = some (.dir entries))
    {frames : List EncodedFrame} (hne : frames ≠ []) :
    (frames.mapM t.store : StateM Disk (List (Except UploadError FrameRef))).run d =
      (frames.mapM t.store : StateM Disk (List (Except UploadError FrameRef))).run
        (d.makeDirectory t.outputDirectory).2 := by
  have hfirst (e : EncodedFrame) :
      (t.store e : StateM Disk (Except UploadError FrameRef)).run d =
        (t.store e : StateM Disk (Except UploadError FrameRef)).run
          (d.makeDirectory t.outputDirectory).2 := by
    rw [run_store, run_store, Disk.makeDirectory_of_node? hdir]
    rcases hresult : d.makeDirectory t.outputDirectory with ⟨there, d₁⟩
    rw [hresult] at hmade
    cases hmade
    rfl
  cases frames with
  | nil => exact absurd rfl hne
  | cons e frames =>
      rw [List.mapM_cons, Disk.run_bind, hfirst]
      rfl

/-! ## Replaying an export -/

/-- The frames of a directory that holds nothing else. -/
theorem framesOn_of_entries {f : FrameFormat} {n : Nat}
    (hdir : d.node? t.outputDirectory = some (.dir entries))
    (hkeys : (Keyed.keys entries).Perm ((List.range n).map fun i => fileName i f))
    (hfile : ∀ i < n, d.kind (t.framePath f i) = .file) :
    ∃ names, d.names? t.outputDirectory = some names ∧
      ImageSequence.framesOn d t.outputDirectory names = t.framePaths f n := by
  have hmem : ∀ name ∈ ((List.range n).map fun i => fileName i f).mergeSort,
      ∃ i < n, name = fileName i f := by
    intro name hname
    rw [List.mem_mergeSort] at hname
    obtain ⟨i, hi, rfl⟩ := List.mem_map.mp hname
    exact ⟨i, List.mem_range.mp hi, rfl⟩
  refine ⟨Keyed.keys entries, by rw [Disk.names?, hdir]; rfl, ?_⟩
  rw [ImageSequence.framesOn, Shader.Pack.mergeSort_congr hkeys, List.filter_eq_self.mpr,
    List.filter_eq_self.mpr, framePaths]
  · intro name hname
    obtain ⟨i, -, rfl⟩ := hmem name hname
    exact EncodedFrame.isFrameName_fileName i f
  · intro p hp
    obtain ⟨name, hname, rfl⟩ := List.mem_map.mp hp
    obtain ⟨i, hi, rfl⟩ := hmem name (List.mem_of_mem_filter hname)
    exact decide_eq_true (hfile i hi)

/-- The frames of a directory are in the order of their numbers exactly if their names are. -/
theorem inOrder_iff (t : DirectoryTarget) (f : FrameFormat) (n : Nat) :
    (∀ i < n, (t.framePaths f n)[i]? = some (t.framePath f i)) ↔
      ∀ j < n, ∀ i < j, fileName i f < fileName j f := by
  rw [framePaths]
  constructor
  · intro h j hj i hi
    have hplace : ∀ {k}, k < n →
        ((List.range n).map fun i => fileName i f).mergeSort[k]? = some (fileName k f) := by
      intro k hk
      have hk := h k hk
      rw [List.getElem?_map, Option.map_eq_some_iff] at hk
      obtain ⟨name, hname, hjoin⟩ := hk
      obtain ⟨l, -, rfl⟩ := List.mem_map.mp (List.mem_mergeSort.mp (List.mem_of_getElem? hname))
      rw [hname, (Path.join_inj (EncodedFrame.isName_fileName l f).relative
        (EncodedFrame.isName_fileName k f).relative).mp hjoin]
    obtain ⟨hi', hnamei⟩ := List.getElem?_eq_some_iff.mp (hplace (hi.trans hj))
    obtain ⟨hj', hnamej⟩ := List.getElem?_eq_some_iff.mp (hplace hj)
    have hle := List.pairwise_iff_getElem.mp (Shader.Pack.sorted_mergeSort _) i j hi' hj' hi
    rw [hnamei, hnamej] at hle
    exact lt_of_le_of_ne hle fun heq => hi.ne (EncodedFrame.fileName_injective f heq)
  · intro h i hi
    have hascending : ((List.range n).map fun i => fileName i f).Pairwise (· ≤ ·) := by
      refine List.pairwise_map.mpr (List.pairwise_lt_range.imp_of_mem fun _ hj hij => ?_)
      exact (h _ (List.mem_range.mp hj) _ hij).le
    rw [List.mergeSort_of_pairwise (hascending.imp decide_eq_true)]
    simp [hi, framePath]

/-- All the frames of an export, in the order in which they are stored. -/
structure Exports (f : FrameFormat) (n : Nat) (frames : List EncodedFrame) : Prop where
  indices : (frames.map (·.index)).Perm (List.range n)
  encoded : ∀ e ∈ frames, ∃ image, EncodedFrame.ofImage? e.index image f = some e

namespace Exports

variable {f : FrameFormat} {n : Nat} {frames : List EncodedFrame}

theorem names (h : Exports f n frames) : ∀ e ∈ frames, e.name = fileName e.index f := by
  intro e he
  obtain ⟨image, hencoded⟩ := h.encoded e he
  exact EncodedFrame.name_of_ofImage? hencoded

theorem keys_eq (h : Exports f n frames) :
    (frames.map entry).map (·.1) = (frames.map (·.index)).map fun i => fileName i f := by
  rw [List.map_map, List.map_map]
  exact List.map_congr_left h.names

theorem nodup_keys (h : Exports f n frames) : ((frames.map entry).map (·.1)).Nodup := by
  rw [h.keys_eq]
  exact (h.indices.nodup_iff.mpr List.nodup_range).map (EncodedFrame.fileName_injective f)

theorem keys_perm (h : Exports f n frames) :
    (Keyed.ofList (frames.map entry)).keys.Perm ((List.range n).map fun i => fileName i f) := by
  refine (Keyed.keys_ofList_perm h.nodup_keys).trans ?_
  rw [h.keys_eq]
  exact h.indices.map _

theorem exists_mem (h : Exports f n frames) {i : Nat} (hi : i < n) : ∃ e ∈ frames, e.index = i :=
  List.mem_map.mp (h.indices.mem_iff.mpr (List.mem_range.mpr hi))

theorem ne_nil (h : Exports f n frames) (hn : 0 < n) : frames ≠ [] := by
  obtain ⟨e, he, -⟩ := h.exists_mem hn
  exact List.ne_nil_of_mem he

/-- What is found in a directory that holds just these frames. -/
theorem node?_framePath (h : Exports f n frames) (hfit : ∀ e ∈ frames, t.Fits e)
    (hdir : d.node? t.outputDirectory = some (.dir (Keyed.ofList (frames.map entry))))
    {e : EncodedFrame} (he : e ∈ frames) :
    d.node? (t.framePath f e.index) = some (.file e.content) := by
  obtain ⟨hname, hpath⟩ := hfit e he
  rw [framePath, ← h.names e he, Disk.node?_join hdir hname hpath]
  have hget : Keyed.get? e.name (frames.map entry) = some (.file e.content) :=
    Keyed.get?_of_mem h.nodup_keys (List.mem_map_of_mem he)
  rw [Keyed.ofList, ← Keyed.merge, Keyed.get?_merge _ _ h.nodup_keys, hget]
  rfl

end Exports

/-- No frame of an export has a name or a path that is too long for a file. -/
structure HasRoom (t : DirectoryTarget) (f : FrameFormat) (n : Nat) : Prop where
  name : ∀ i < n, (fileName i f).utf8ByteSize ≤ Disk.maxName
  path : ∀ i < n, (t.framePath f i).utf8ByteSize ≤ Disk.maxPath

/-- An export to a directory that is empty before it stores every frame, and opens as a sequence of
just these files. Each of them stands at its own index exactly if five digits are enough for all
indices, since names do not sort like their numbers from there on. -/
theorem replay {f : FrameFormat} {n : Nat} {frames : List EncodedFrame} {fps : Float}
    (hn : 0 < n) (hframes : Exports f n frames) (hroom : t.HasRoom f n)
    (hmade : (d.makeDirectory t.outputDirectory).1 = true)
    (hempty : (d.makeDirectory t.outputDirectory).2.names? t.outputDirectory = some [])
    (hfps : Scalar.isPositive fps = true) :
    ∃ d' s,
      (frames.mapM t.store : StateM Disk (List (Except UploadError FrameRef))).run d =
        (frames.map fun e => .ok (t.stored e), d') ∧
      (ImageSequence.openDirectory t.outputDirectory fps :
        StateM Disk (Except MediaError ImageSequence)).run d' = (.ok s, d') ∧
      s.frames.toList.Perm ((List.range n).map (t.framePath f)) ∧
      (∀ e ∈ frames, d'.read? (t.framePath f e.index) = some e.content) ∧
      ((∀ i < n, s.frames[i]? = some (t.framePath f i)) ↔ n ≤ 10 ^ 5) ∧
      ((∀ j < n, ∀ i < j, fileName i f < fileName j f) ↔ n ≤ 10 ^ 5) := by
  have hfit : ∀ e ∈ frames, t.Fits e := by
    intro e he
    have hi : e.index < n :=
      List.mem_range.mp (hframes.indices.mem_iff.mp (List.mem_map_of_mem he))
    refine ⟨?_, ?_⟩ <;> rw [hframes.names e he]
    · exact EncodedFrame.isFileName_fileName (hroom.name _ hi)
    · exact hroom.path _ hi
  have hmade' := Disk.node?_of_names?_nil hempty
  obtain ⟨d', hrun, hdir⟩ := exists_run_stores hmade' (fun _ _ => nofun) hfit
  have hnode : ∀ e ∈ frames, d'.node? (t.framePath f e.index) = some (.file e.content) :=
    fun e he => hframes.node?_framePath hfit hdir he
  have hfile : ∀ i < n, d'.kind (t.framePath f i) = .file := by
    intro i hi
    obtain ⟨e, he, rfl⟩ := hframes.exists_mem hi
    rw [Disk.kind, hnode e he]
  obtain ⟨names, hnames, hframesOn⟩ := framesOn_of_entries hdir hframes.keys_perm hfile
  have hsome : t.framePaths f n ≠ [] := by
    rw [← List.length_pos_iff, (t.framePaths_perm f n).length_eq, List.length_map,
      List.length_range]
    exact hn
  refine ⟨d', ⟨t.outputDirectory, (t.framePaths f n).toArray, fps, none, none, false⟩, ?_, ?_,
    t.framePaths_perm f n, ?_, ?_, EncodedFrame.ascending_iff f⟩
  · rw [run_stores_made hmade hmade' (hframes.ne_nil hn), hrun]
  · rw [ImageSequence.run_openDirectory, if_pos hfps, hnames]
    dsimp only
    rw [hframesOn, if_neg (by simpa using hsome)]
  · intro e he
    rw [Disk.read?, hnode e he]
  · rw [← EncodedFrame.ascending_iff f, ← inOrder_iff t]
    simp only [List.getElem?_toArray]

/-- Two frames, of which the second one is stored first. -/
def reversedFrames : List EncodedFrame :=
  [1, 0].map fun i =>
    ⟨i, fileName i .png, .png, .image .png (Image.solid 1 1 ⟨i.toUInt8, 0, 0, 255⟩)⟩

def emptyClip : Disk := ⟨[("clip", .dir [])], []⟩

theorem replay_reversed :
    ∃ d' s,
      (reversedFrames.mapM (store ⟨"", "clip"⟩) :
        StateM Disk (List (Except UploadError FrameRef))).run emptyClip =
        (reversedFrames.map fun e => .ok (stored ⟨"", "clip"⟩ e), d') ∧
      (ImageSequence.openDirectory "clip" 1.0 :
        StateM Disk (Except MediaError ImageSequence)).run d' = (.ok s, d') ∧
      ∀ i < 2, s.frames[i]? = some (framePath ⟨"", "clip"⟩ .png i) := by
  have hclip : outputDirectory ⟨"", "clip"⟩ = "clip" := by decide +kernel
  have hhome : Disk.find? emptyClip.home emptyClip.tree = some (.dir [("clip", .dir [])]) := rfl
  have hname : Disk.IsFileName "clip" := by decide +kernel
  have hnode : emptyClip.node? "clip" = some (.dir []) := (hname.node?_eq hhome).trans rfl
  have hmade : emptyClip.makeDirectory (outputDirectory ⟨"", "clip"⟩) = (true, emptyClip) := by
    rw [hclip]
    exact Disk.makeDirectory_of_node? hnode
  have hempty : emptyClip.names? (outputDirectory ⟨"", "clip"⟩) = some [] := by
    rw [hclip, Disk.names?, hnode]
    rfl
  have hfps : Scalar.isPositive (1.0 : Float) = true := by decide +kernel
  have hframes : Exports .png 2 reversedFrames := by
    refine ⟨by decide +kernel, fun e he => ?_⟩
    obtain ⟨i, -, rfl⟩ := List.mem_map.mp he
    exact ⟨Image.solid 1 1 ⟨i.toUInt8, 0, 0, 255⟩, rfl⟩
  have hroom : HasRoom ⟨"", "clip"⟩ .png 2 := ⟨by decide +kernel, by decide +kernel⟩
  obtain ⟨d', s, hrun, hopen, -, -, horder, -⟩ :=
    replay Nat.two_pos hframes hroom (congrArg Prod.fst hmade) (hmade ▸ hempty) hfps
  rw [hclip] at hopen
  exact ⟨d', s, hrun, hopen, horder.mpr (by decide)⟩

/-- The first frame with six digits comes before the last one with five. -/
theorem replay_astray :
    ¬fileName 99999 .png < fileName 100000 .png ∧
      fileName 100000 .png < fileName 99999 .png := by
  decide +kernel

end DirectoryTarget

end Segue
