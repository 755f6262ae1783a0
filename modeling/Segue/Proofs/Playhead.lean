import Mathlib
import Segue.Media.Footage
import Segue.Proofs.Disk

/-!
# Playheads

The handles on the frames of one directory are the one that opened it and their duplicates. Whatever
was done with them, each shows the frame of its own last seek that went well, or nothing.
-/

namespace Segue

def Media.imageOn (d : Disk) (path : String) : Except MediaError Image :=
  ((Media.readImage path : StateM Disk (Except MediaError Image)).run d).1

@[simp] theorem Media.run_readImage (d : Disk) (path : String) :
    (Media.readImage path : StateM Disk (Except MediaError Image)).run d =
      (Media.imageOn d path, d) := by
  unfold Media.imageOn Media.readImage
  rw [Disk.run_bind, Disk.run_read?]
  rcases d.read? path with _ | _ | _ <;> rfl

theorem Media.imageOn_congr {d d' : Disk} {path : String} (h : d'.read? path = d.read? path) :
    Media.imageOn d' path = Media.imageOn d path := by
  unfold Media.imageOn Media.readImage
  rw [Disk.run_bind, Disk.run_bind, Disk.run_read?, Disk.run_read?, h]
  rcases d.read? path with _ | _ | _ <;> rfl

namespace ImageSequence

/-! ## One handle -/

theorem frameIndex_lt {s : ImageSequence} (h : 0 < s.size) (time : Float) :
    s.frameIndex time < s.size := by
  unfold frameIndex
  split
  · exact h
  · exact (Nat.min_le_right _ _).trans_lt (Nat.sub_lt h Nat.one_pos)

theorem frameIndex_congr {s h : ImageSequence} (hframes : h.frames = s.frames)
    (hfps : h.fps = s.fps) (time : Float) : h.frameIndex time = s.frameIndex time := by
  unfold frameIndex size
  rw [hframes, hfps]

/-- The frames among the names in a directory, in their order. -/
def framesOn (d : Disk) (root : String) (names : List String) : List String :=
  (((names.mergeSort (decide <| · ≤ ·)).filter isFrameName).map (Path.join root)).filter
    fun p => d.kind p = .file

theorem run_filterM_file (paths : List String) (d : Disk) :
    (paths.filterM fun p => return (← FileSystem.kind p) = .file :
      StateM Disk (List String)).run d =
      (paths.filter fun p => d.kind p = .file, d) := by
  have haux (found : List String) : (paths.filterAuxM (fun p => do
      return decide ((← FileSystem.kind p) = .file)) found : StateM Disk (List String)).run d =
        ((paths.filter fun p => d.kind p = .file).reverse ++ found, d) := by
    induction paths generalizing found with
    | nil => rfl
    | cons p paths ih =>
        rw [List.filterAuxM, Disk.run_bind, Disk.run_bind, Disk.run_kind]
        show StateT.run (List.filterAuxM _ paths
          (cond (decide (d.kind p = .file)) (p :: found) found)) d = _
        rw [ih]
        by_cases hfile : d.kind p = .file
        · simp [hfile]
        · simp [hfile]
  rw [List.filterM, Disk.run_bind, haux]
  show (List.reverse (_ ++ []), d) = _
  rw [List.append_nil, List.reverse_reverse]

theorem run_openDirectory (root : String) (fps : Float) (d : Disk) :
    (openDirectory root fps : StateM Disk (Except MediaError ImageSequence)).run d =
      (if Scalar.isPositive fps then
        match d.names? root with
        | none => .error (.unreadable root)
        | some names =>
          if (framesOn d root names).isEmpty then .error (.empty root)
          else .ok ⟨root, (framesOn d root names).toArray, fps, none, none, false⟩
      else .error (.frameRate fps), d) := by
  unfold openDirectory
  by_cases hfps : Scalar.isPositive fps = true
  · rw [if_neg (by simp [hfps]), if_pos hfps, Disk.run_bind, Disk.run_names?]
    cases d.names? root with
    | none => rfl
    | some names =>
        dsimp only
        rw [Disk.run_bind, run_filterM_file]
        show StateT.run (if (framesOn d root names).isEmpty = true then _ else _) d = _
        split <;> rfl
  · rw [if_pos (by simp [hfps]), if_neg hfps]
    rfl

theorem opened {root : String} {fps : Float} {d : Disk} {s : ImageSequence}
    (h : ((openDirectory root fps : StateM Disk (Except MediaError ImageSequence)).run d).1 =
      .ok s) :
    0 < s.size ∧ s.position = none ∧ s.frame = none ∧ s.released = false := by
  rw [run_openDirectory] at h
  dsimp only at h
  split at h
  · split at h
    · cases h
    · split at h
      · cases h
      · rename_i hne
        cases h
        exact ⟨by simpa [size, List.length_pos_iff] using hne, rfl, rfl, rfl⟩
  · cases h

def imageAt (s : ImageSequence) (d : Disk) (time : Float) : Except MediaError Image :=
  Media.imageOn d (s.frames.getD (s.frameIndex time) "")

theorem run_seek (d : Disk) (s : ImageSequence) (time : Float) :
    (s.seek time : StateM Disk (Except MediaError Unit × ImageSequence)).run d =
      (if s.released then (.error (.unavailable s.root), s)
        else if s.position = some (s.frameIndex time) ∧ s.frame.isSome = true then (.ok (), s)
        else match s.imageAt d time with
          | .error e => (.error e, s)
          | .ok i => (.ok (), { s with position := some (s.frameIndex time), frame := some i }),
        d) := by
  unfold seek
  by_cases hreleased : s.released = true
  · rw [if_pos hreleased, if_pos hreleased]
    rfl
  · rw [if_neg hreleased, if_neg hreleased]
    by_cases hshown : s.position = some (s.frameIndex time) ∧ s.frame.isSome = true
    · have hcond : (decide (s.position = some (s.frameIndex time)) && s.frame.isSome) = true := by
        simpa using hshown
      rw [if_pos hcond, if_pos hshown]
      rfl
    · have hcond : ¬(decide (s.position = some (s.frameIndex time)) && s.frame.isSome) = true := by
        simpa using hshown
      rw [if_neg hcond, if_neg hshown, Disk.run_bind, Media.run_readImage, imageAt]
      cases Media.imageOn d (s.frames.getD (s.frameIndex time) "") <;> rfl

/-! ## Handles on the same frames -/

inductive Action where
  | seek (time : Float)
  | duplicate
  | release

/-- What an action on a handle comes to. -/
structure Outcome where
  result : Except MediaError Unit
  handle : ImageSequence
  made : List ImageSequence

structure Call where
  handle : Nat
  action : Action

/-- How a call ended; `none` if there is no such handle. -/
abbrev Answer := Option (Except MediaError Unit)

section

variable {m : Type → Type} [Monad m] [FileSystem m]

def act (s : ImageSequence) : Action → m Outcome
  | .seek time => do
    let (result, s) ← s.seek time
    return ⟨result, s, []⟩
  | .duplicate =>
    return match s.duplicate with
      | .ok copy => ⟨.ok (), s, [copy]⟩
      | .error e => ⟨.error e, s, []⟩
  | .release => return ⟨.ok (), s.release, []⟩

/-- Handles are numbered in the order in which they were made. -/
def Call.perform (c : Call) (hs : List ImageSequence) : m (Answer × List ImageSequence) := do
  match hs[c.handle]? with
  | none => return (none, hs)
  | some s =>
    let o ← s.act c.action
    return (some o.result, hs.set c.handle o.handle ++ o.made)

end

structure Desk where
  handles : List ImageSequence
  log : List (Call × Answer)

def Desk.next (t : Desk) (e : Disk × Call) : Desk :=
  let r := ((e.2.perform t.handles : StateM Disk (Answer × List ImageSequence)).run e.1).1
  ⟨r.2, t.log ++ [(e.2, r.1)]⟩

def Desk.answer (t : Desk) (e : Disk × Call) : Answer :=
  ((e.2.perform t.handles : StateM Disk (Answer × List ImageSequence)).run e.1).1.1

def run (s : ImageSequence) (events : List (Disk × Call)) : Desk :=
  events.foldl Desk.next ⟨[s], []⟩

@[simp] theorem run_concat (s : ImageSequence) (events : List (Disk × Call)) (e : Disk × Call) :
    s.run (events ++ [e]) = (s.run events).next e :=
  List.foldl_concat _ _ _ _

/-! ### The record of the calls -/

def sought : Action → Except MediaError Unit → Option Float
  | .seek time, .ok _ => some time
  | _, _ => none

def soughtBy (i : Nat) (e : Call × Answer) : Option Float :=
  if e.1.handle = i then e.2.bind (sought e.1.action) else none

def lastSought (log : List (Call × Answer)) (i : Nat) : Option Float :=
  (log.filterMap (soughtBy i)).getLast?

def IsReleased (log : List (Call × Answer)) (i : Nat) : Prop :=
  ∃ r, (⟨i, .release⟩, some r) ∈ log

@[simp] theorem lastSought_concat (log : List (Call × Answer)) (e : Call × Answer) (i : Nat) :
    lastSought (log ++ [e]) i = (soughtBy i e).or (lastSought log i) := by
  unfold lastSought
  rw [List.filterMap_append, List.filterMap_cons]
  cases soughtBy i e with
  | none => simp
  | some time => simp

@[simp] theorem isReleased_concat {log : List (Call × Answer)} {c : Call} {a : Answer} {i : Nat} :
    IsReleased (log ++ [(c, a)]) i ↔
      IsReleased log i ∨ c = ⟨i, .release⟩ ∧ a.isSome = true := by
  unfold IsReleased
  cases a <;> simp [eq_comm, exists_or]

/-- A call leaves the record of every handle but its own. -/
theorem record_of_ne (log : List (Call × Answer)) {c : Call} {a : Answer} {i : Nat}
    (h : c.handle ≠ i ∨ a = none) :
    lastSought (log ++ [(c, a)]) i = lastSought log i ∧
      (IsReleased (log ++ [(c, a)]) i ↔ IsReleased log i) := by
  rw [lastSought_concat, isReleased_concat, soughtBy]
  rcases h with h | rfl
  · refine ⟨by rw [if_neg h, Option.none_or], or_iff_left ?_⟩
    rintro ⟨rfl, -⟩
    exact h rfl
  · simp

theorem record_of_new {log : List (Call × Answer)} {i : Nat}
    (h : ∀ e ∈ log, e.2.isSome = true → e.1.handle < i) :
    lastSought log i = none ∧ ¬IsReleased log i := by
  constructor
  · have hnone : log.filterMap (soughtBy i) = [] := by
      refine List.filterMap_eq_nil_iff.mpr fun e he => ?_
      unfold soughtBy
      split
      · rename_i hi
        cases hanswer : e.2 with
        | none => rfl
        | some r => exact absurd (h e he (by rw [hanswer]; rfl)) (by omega)
      · rfl
    rw [lastSought, hnone, List.getLast?_nil]
  · rintro ⟨r, hr⟩
    exact absurd (h _ hr rfl) (lt_irrefl i)

/-! ### What a handle shows -/

/-- The handle `h` on the frames of `s` on a disk, if it was last sought at that time. -/
structure Shows (s : ImageSequence) (d : Disk) (released : Prop) (last : Option Float)
    (h : ImageSequence) : Prop where
  root : h.root = s.root
  frames : h.frames = s.frames
  fps : h.fps = s.fps
  released : h.released = true ↔ released
  together : h.position.isSome = h.frame.isSome
  position : h.position = if h.released then none else last.map s.frameIndex
  inRange : ∀ n ∈ h.position, n < s.size
  frame : ∀ n ∈ h.position, ∃ path image, s.frames[n]? = some path ∧
    Media.imageOn d path = .ok image ∧ h.frame = some image

/-- The files of the frames hold the same on both disks. -/
def SameFrames (s : ImageSequence) (d d' : Disk) : Prop :=
  ∀ path ∈ s.frames, d'.read? path = d.read? path

section

variable {s h : ImageSequence} {d d' : Disk} {released : Prop} {last : Option Float}

theorem Shows.congr {released' : Prop} {last' : Option Float} (hs : Shows s d released last h)
    (hlast : last' = last) (hreleased : released' ↔ released) : Shows s d released' last' h :=
  hlast ▸ { hs with released := hs.released.trans hreleased.symm }

theorem shows_fresh (hroot : h.root = s.root) (hframes : h.frames = s.frames) (hfps : h.fps = s.fps)
    (hposition : h.position = none) (hframe : h.frame = none) (hreleased : h.released = false) :
    Shows s d False none h where
  root := hroot
  frames := hframes
  fps := hfps
  released := by simp [hreleased]
  together := by rw [hposition, hframe]; rfl
  position := by simp [hposition]
  inRange := by simp [hposition]
  frame := by simp [hposition]

theorem Shows.release (hs : Shows s d released last h) : Shows s d True last h.release where
  root := hs.root
  frames := hs.frames
  fps := hs.fps
  released := by simp [ImageSequence.release]
  together := rfl
  position := rfl
  inRange := by simp [ImageSequence.release]
  frame := by simp [ImageSequence.release]

theorem Shows.move (hs : Shows s d released last h) (hsize : 0 < s.size)
    (hreleased : h.released = false) {time : Float} {image : Image}
    (himage : s.imageAt d time = .ok image) :
    Shows s d released (some time)
      { h with position := some (s.frameIndex time), frame := some image } where
  root := hs.root
  frames := hs.frames
  fps := hs.fps
  released := hs.released
  together := rfl
  position := by simp [hreleased]
  inRange := by
    intro n hn
    cases hn
    exact frameIndex_lt hsize time
  frame := by
    intro n hn
    cases hn
    have hlt : s.frameIndex time < s.frames.size := frameIndex_lt hsize time
    refine ⟨s.frames[s.frameIndex time], image, Array.getElem?_eq_getElem hlt, ?_, rfl⟩
    rwa [imageAt, Array.getD_eq_getD_getElem?, Array.getElem?_eq_getElem hlt] at himage

theorem Shows.of_ne (hs : Shows s d released last h) {a : Action} (ha : a ≠ .release) :
    Shows s d (released ∨ a = .release) last h :=
  hs.congr rfl (or_iff_left ha)

/-- All handles read the same images, on every disk that has the same frames. -/
theorem Shows.imageAt_eq (hs : Shows s d released last h) (hsize : 0 < s.size)
    (hsame : s.SameFrames d d') (time : Float) : h.imageAt d' time = s.imageAt d time := by
  have hlt : s.frameIndex time < s.frames.size := frameIndex_lt hsize time
  rw [imageAt, imageAt, hs.frames, frameIndex_congr hs.frames hs.fps]
  refine Media.imageOn_congr (hsame _ ?_)
  rw [Array.getD_eq_getD_getElem?, Array.getElem?_eq_getElem hlt]
  exact Array.getElem_mem hlt

theorem Shows.imageAt_shown (hs : Shows s d released last h) {time : Float} {image : Image}
    (hposition : h.position = some (s.frameIndex time)) (hframe : h.frame = some image) :
    s.imageAt d time = .ok image := by
  obtain ⟨path, shown, hpath, himage, hshown⟩ := hs.frame _ hposition
  rw [imageAt, Array.getD_eq_getD_getElem?, hpath, Option.getD_some, himage,
    Option.some.inj (hshown.symm.trans hframe)]

/-- What becomes of a handle by an action. -/
structure Suits (s : ImageSequence) (d : Disk) (released : Prop) (last : Option Float)
    (h : ImageSequence) (a : Action) (o : Outcome) : Prop where
  shows : Shows s d (released ∨ a = .release) ((sought a o.result).or last) o.handle
  made : ∀ copy ∈ o.made, Shows s d False none copy
  copies : a = .duplicate → o.result = .ok () → o.made.length = 1
  failed : ∀ e, o.result = .error e → o.handle = h ∧ o.made = []
  dead : h.released = true → a ≠ .release → o.result = .error (.unavailable s.root)
  live : h.released = false →
    (o.result = .ok () ↔ ∀ time, a = .seek time → ∃ image, s.imageAt d time = .ok image)

theorem Shows.suits_seek (hs : Shows s d released last h) (hsize : 0 < s.size)
    (hsame : s.SameFrames d d') (time : Float) :
    ∃ o, (h.act (.seek time) : StateM Disk Outcome).run d' = (o, d') ∧
      Suits s d released last h (.seek time) o := by
  have hindex : h.frameIndex time = s.frameIndex time := frameIndex_congr hs.frames hs.fps time
  have hact : (h.act (.seek time) : StateM Disk Outcome).run d' =
      (let r := (h.seek time : StateM Disk (Except MediaError Unit × ImageSequence)).run d'
       (⟨r.1.1, r.1.2, []⟩, r.2)) := rfl
  rw [hact, run_seek, hs.imageAt_eq hsize hsame, hindex]
  by_cases hreleased : h.released = true
  · rw [if_pos hreleased]
    exact ⟨_, rfl, hs.of_ne nofun, by simp, by simp, fun _ _ => ⟨rfl, rfl⟩,
      fun _ _ => by rw [hs.root], by simp [hreleased]⟩
  · have hlive : h.released = false := Bool.eq_false_of_not_eq_true hreleased
    rw [if_neg hreleased]
    by_cases hshown : h.position = some (s.frameIndex time) ∧ h.frame.isSome = true
    -- nothing is read, and what is shown is what would have been read
    · obtain ⟨image, himage⟩ := Option.isSome_iff_exists.mp hshown.2
      have hread : s.imageAt d time = .ok image := hs.imageAt_shown hshown.1 himage
      have hstays : { h with position := some (s.frameIndex time), frame := some image } = h := by
        rw [← hshown.1, ← himage]
      rw [if_pos hshown]
      exact ⟨_, rfl, hstays ▸ (hs.move hsize hlive hread).of_ne nofun, by simp, by simp, by simp,
        fun hdead => absurd hdead hreleased, by simp [hread]⟩
    · rw [if_neg hshown]
      cases hread : s.imageAt d time with
      | error e =>
          exact ⟨_, rfl, hs.of_ne nofun, by simp, by simp, fun _ _ => ⟨rfl, rfl⟩,
            fun hdead => absurd hdead hreleased, by simp [hread]⟩
      | ok image =>
          exact ⟨_, rfl, (hs.move hsize hlive hread).of_ne nofun, by simp, by simp, by simp,
            fun hdead => absurd hdead hreleased, by simp [hread]⟩

theorem Shows.suits (hs : Shows s d released last h) (hsize : 0 < s.size)
    (hsame : s.SameFrames d d') (a : Action) :
    ∃ o, (h.act a : StateM Disk Outcome).run d' = (o, d') ∧ Suits s d released last h a o := by
  cases a with
  | seek time => exact hs.suits_seek hsize hsame time
  | duplicate =>
      by_cases hreleased : h.released = true
      · have hfails : h.duplicate = .error (.unavailable h.root) := if_pos hreleased
        refine ⟨⟨.error (.unavailable h.root), h, []⟩, ?_, hs.of_ne nofun, by simp, by simp,
          fun _ _ => ⟨rfl, rfl⟩, fun _ _ => by rw [hs.root], by simp [hreleased]⟩
        unfold act
        rw [hfails]
        rfl
      · have hlive : h.released = false := Bool.eq_false_of_not_eq_true hreleased
        have hcopy : h.duplicate = .ok { h with position := none, frame := none } :=
          if_neg hreleased
        refine ⟨⟨.ok (), h, [{ h with position := none, frame := none }]⟩, ?_, hs.of_ne nofun,
          ?_, fun _ _ => rfl, by simp, fun hdead => absurd hdead hreleased, by simp⟩
        · unfold act
          rw [hcopy]
          rfl
        · intro copy hmem
          cases List.mem_singleton.mp hmem
          exact shows_fresh hs.root hs.frames hs.fps rfl rfl hlive
  | release =>
      exact ⟨⟨.ok (), h.release, []⟩, rfl, hs.release.congr rfl (by simp), by simp, by simp,
        by simp, fun _ hne => absurd rfl hne, by simp⟩

end

/-! ### Runs -/

theorem perform_none {hs : List ImageSequence} {c : Call} (h : hs[c.handle]? = none) (d : Disk) :
    (c.perform hs : StateM Disk (Answer × List ImageSequence)).run d = ((none, hs), d) := by
  unfold Call.perform
  rw [h]
  rfl

theorem perform_some {hs : List ImageSequence} {c : Call} {h : ImageSequence}
    (hh : hs[c.handle]? = some h) {d d' : Disk} {o : Outcome}
    (ho : (h.act c.action : StateM Disk Outcome).run d = (o, d')) :
    (c.perform hs : StateM Disk (Answer × List ImageSequence)).run d =
      ((some o.result, hs.set c.handle o.handle ++ o.made), d') := by
  unfold Call.perform
  rw [hh]
  dsimp only
  rw [Disk.run_bind, ho]
  rfl

/-- Every handle shows what the record of its own calls says. -/
structure Faithful (s : ImageSequence) (d : Disk) (t : Desk) : Prop where
  shows : ∀ i h, t.handles[i]? = some h →
    Shows s d (IsReleased t.log i) (lastSought t.log i) h
  numbered : ∀ e ∈ t.log, e.2.isSome = true → e.1.handle < t.handles.length

variable {s h : ImageSequence} {d d' : Disk} {t : Desk} {c : Call}

theorem faithful_start (hs : Shows s d False none s) : Faithful s d ⟨[s], []⟩ where
  shows i h hh := by
    have hzero : i = 0 ∧ s = h := by simpa [List.getElem?_singleton] using hh
    obtain ⟨rfl, rfl⟩ := hzero
    exact hs.congr rfl (by simp [IsReleased])
  numbered := by simp

theorem Faithful.fresh (ht : Faithful s d t) {i : Nat} (hi : t.handles.length ≤ i) :
    lastSought t.log i = none ∧ ¬IsReleased t.log i :=
  record_of_new fun e he hanswer => (ht.numbered e he hanswer).trans_le hi

theorem Faithful.next_none (ht : Faithful s d t) (hc : t.handles[c.handle]? = none) (d' : Disk) :
    Faithful s d (t.next (d', c)) := by
  unfold Desk.next
  rw [perform_none hc]
  refine ⟨fun i h hh => ?_, fun e he hanswer => ?_⟩
  · obtain ⟨hlast, hreleased⟩ := record_of_ne t.log (c := c) (i := i) (.inr rfl)
    exact (ht.shows i h hh).congr hlast hreleased
  · rcases List.mem_append.mp he with he | he
    · exact ht.numbered e he hanswer
    · cases List.mem_singleton.mp he
      cases hanswer

theorem Faithful.next_some (ht : Faithful s d t) (hc : t.handles[c.handle]? = some h) {o : Outcome}
    (ho : (h.act c.action : StateM Disk Outcome).run d' = (o, d'))
    (hsuits : Suits s d (IsReleased t.log c.handle) (lastSought t.log c.handle) h c.action o) :
    Faithful s d (t.next (d', c)) := by
  have hlt : c.handle < t.handles.length := (List.getElem?_eq_some_iff.mp hc).1
  have hlength : (t.handles.set c.handle o.handle).length = t.handles.length := List.length_set
  unfold Desk.next
  rw [perform_some hc ho]
  refine ⟨fun i h' hh => ?_, fun e he hanswer => ?_⟩
  · dsimp only at hh ⊢
    by_cases hold : i < t.handles.length
    · rw [List.getElem?_append_left (hlength.symm ▸ hold)] at hh
      by_cases hi : c.handle = i
      · subst hi
        rw [List.getElem?_set_self hlt] at hh
        cases hh
        refine hsuits.shows.congr ?_ ?_
        · rw [lastSought_concat, soughtBy, if_pos rfl]
          rfl
        · have haction : c = ⟨c.handle, .release⟩ ↔ c.action = .release := by
            cases c
            simp
          rw [isReleased_concat, haction]
          simp
      · rw [List.getElem?_set_ne hi] at hh
        obtain ⟨hlast, hreleased⟩ := record_of_ne t.log (a := some o.result) (.inl hi)
        exact (ht.shows i h' hh).congr hlast hreleased
    -- a handle that this call made: no call before it has that number
    · rw [List.getElem?_append_right (hlength.symm ▸ Nat.le_of_not_lt hold)] at hh
      have hi : c.handle ≠ i := by omega
      obtain ⟨hlast, hreleased⟩ := record_of_ne t.log (a := some o.result) (.inl hi)
      obtain ⟨hnever, hlive⟩ := ht.fresh (Nat.le_of_not_lt hold)
      exact (hsuits.made h' (List.mem_of_getElem? hh)).congr (hlast.trans hnever)
        (hreleased.trans (iff_false_intro hlive))
  · have hbound : t.handles.length ≤ (t.handles.set c.handle o.handle ++ o.made).length := by
      rw [List.length_append, hlength]
      exact Nat.le_add_right _ _
    rcases List.mem_append.mp he with he | he
    · exact (ht.numbered e he hanswer).trans_le hbound
    · cases List.mem_singleton.mp he
      exact hlt.trans_le hbound

theorem Faithful.next (ht : Faithful s d t) (hsize : 0 < s.size) (hsame : s.SameFrames d d')
    (c : Call) : Faithful s d (t.next (d', c)) := by
  cases hc : t.handles[c.handle]? with
  | none => exact ht.next_none hc d'
  | some h =>
      obtain ⟨o, ho, hsuits⟩ := (ht.shows _ h hc).suits hsize hsame c.action
      exact ht.next_some hc ho hsuits

theorem faithful_after (hs : Shows s d False none s) (hsize : 0 < s.size)
    {events : List (Disk × Call)} (hfiles : ∀ e ∈ events, s.SameFrames d e.1) :
    Faithful s d (s.run events) := by
  induction events using List.reverseRecOn with
  | nil => exact faithful_start hs
  | append_singleton events e ih =>
      rw [run_concat]
      have hbefore : Faithful s d (s.run events) :=
        ih fun e' he' => hfiles e' (List.mem_append_left _ he')
      exact hbefore.next hsize (hfiles e (by simp)) e.2

/-- What a call does to the handles that are there. -/
structure Steady (s : ImageSequence) (d : Disk) (t : Desk) (e : Disk × Call) : Prop where
  kept : t.handles.length ≤ (t.next e).handles.length
  others : ∀ i < t.handles.length, i ≠ e.2.handle → (t.next e).handles[i]? = t.handles[i]?
  failed : ∀ err, t.answer e = some (.error err) → (t.next e).handles = t.handles
  copies : e.2.action = .duplicate → t.answer e = some (.ok ()) →
    (t.next e).handles.length = t.handles.length + 1
  dead : ∀ h, t.handles[e.2.handle]? = some h → h.released = true →
    h.duration = none ∧ h.position = none ∧ h.frame = none ∧
      (e.2.action ≠ .release → t.answer e = some (.error (.unavailable s.root)))
  live : ∀ h, t.handles[e.2.handle]? = some h → h.released = false →
    h.duration = some (Float.ofNat s.size / s.fps) ∧
      (t.answer e = some (.ok ()) ↔
        ∀ time, e.2.action = .seek time → ∃ image, s.imageAt d time = .ok image)

theorem steady_none (hc : t.handles[c.handle]? = none) (d' : Disk) : Steady s d t (d', c) := by
  have hnext : (t.next (d', c)).handles = t.handles := by rw [Desk.next, perform_none hc]
  have hanswer : t.answer (d', c) = none := by rw [Desk.answer, perform_none hc]
  refine ⟨hnext ▸ le_rfl, fun i _ _ => by rw [hnext], fun _ _ => hnext, ?_, ?_, ?_⟩
  · rw [hanswer]
    exact fun _ => nofun
  · exact fun h hh => nomatch hc.symm.trans hh
  · exact fun h hh => nomatch hc.symm.trans hh

theorem Faithful.steady_some (ht : Faithful s d t) (hc : t.handles[c.handle]? = some h)
    {o : Outcome} (ho : (h.act c.action : StateM Disk Outcome).run d' = (o, d'))
    (hsuits : Suits s d (IsReleased t.log c.handle) (lastSought t.log c.handle) h c.action o) :
    Steady s d t (d', c) := by
  have hnext : (t.next (d', c)).handles = t.handles.set c.handle o.handle ++ o.made := by
    rw [Desk.next, perform_some hc ho]
  have hanswer : t.answer (d', c) = some o.result := by rw [Desk.answer, perform_some hc ho]
  have hshows := ht.shows _ h hc
  refine ⟨?_, ?_, ?_, ?_, ?_, ?_⟩
  · rw [hnext, List.length_append, List.length_set]
    exact Nat.le_add_right _ _
  · intro i hi hne
    rw [hnext, List.getElem?_append_left (by rwa [List.length_set]), List.getElem?_set_ne hne.symm]
  · intro e he
    obtain ⟨hhandle, hmade⟩ := hsuits.failed e (Option.some.inj (hanswer.symm.trans he))
    rw [hnext, hhandle, hmade, List.append_nil]
    obtain ⟨hlt, rfl⟩ := List.getElem?_eq_some_iff.mp hc
    exact List.set_getElem_self hlt
  · intro haction hok
    rw [hnext, List.length_append, List.length_set,
      hsuits.copies haction (Option.some.inj (hanswer.symm.trans hok))]
  · intro h' hh hreleased
    obtain rfl : h = h' := Option.some.inj (hc.symm.trans hh)
    have hposition : h.position = none := by rw [hshows.position, if_pos hreleased]
    have hframe : h.frame = none := by
      have htogether := hshows.together
      rw [hposition] at htogether
      simpa using htogether.symm
    refine ⟨if_pos hreleased, hposition, hframe, fun hne => ?_⟩
    rw [hanswer, hsuits.dead hreleased hne]
  · intro h' hh hlive
    obtain rfl : h = h' := Option.some.inj (hc.symm.trans hh)
    refine ⟨?_, ?_⟩
    · rw [duration, if_neg (by simp [hlive]), size, hshows.frames, hshows.fps]
      rfl
    · rw [hanswer, Option.some_inj]
      exact hsuits.live hlive

theorem Faithful.steady (ht : Faithful s d t) (hsize : 0 < s.size) (hsame : s.SameFrames d d')
    (c : Call) : Steady s d t (d', c) := by
  cases hc : t.handles[c.handle]? with
  | none => exact steady_none hc d'
  | some h =>
      obtain ⟨o, ho, hsuits⟩ := (ht.shows _ h hc).suits hsize hsame c.action
      exact ht.steady_some hc ho hsuits

/-- Handles on the frames of a directory: after any calls, on disks that keep these frames, each
handle shows the frame for the time of its own last seek that went well, and a further call changes
no handle but its own, and that only if it goes well. -/
theorem playhead_run {root : String} {fps : Float} {d : Disk} {s : ImageSequence}
    (hopen : ((openDirectory root fps : StateM Disk (Except MediaError ImageSequence)).run d).1 =
      .ok s) {events : List (Disk × Call)} (hfiles : ∀ e ∈ events, s.SameFrames d e.1) :
    (∀ i h, (s.run events).handles[i]? = some h →
      Shows s d (IsReleased (s.run events).log i) (lastSought (s.run events).log i) h) ∧
    ∀ e : Disk × Call, s.SameFrames d e.1 → Steady s d (s.run events) e := by
  obtain ⟨hsize, hposition, hframe, hlive⟩ := opened hopen
  have hfaithful : Faithful s d (s.run events) :=
    faithful_after (shows_fresh rfl rfl rfl hposition hframe hlive) hsize hfiles
  exact ⟨hfaithful.shows, fun e hsame => hfaithful.steady hsize hsame e.2⟩

def spoilt : Disk where
  root := [("clip", .dir
    [("a.png", .file (.image .png (Image.blank 1 1))), ("b.png", .file (.bytes ⟨#[0]⟩))])]
  home := []

def spoiltReel : ImageSequence := ⟨"clip", #["clip/a.png", "clip/b.png"], 1.0, none, none, false⟩

theorem open_spoilt :
    ((openDirectory "clip" 1.0 : StateM Disk (Except MediaError ImageSequence)).run spoilt).1 =
      .ok spoiltReel := by
  have hclip : spoilt.locate "clip" = .ok ["clip"] :=
    (Disk.locate_relative (by decide +kernel) (by decide +kernel) (by decide +kernel)
      (by decide +kernel)).trans (by decide +kernel)
  have ha : spoilt.locate "clip/a.png" = .ok ["clip", "a.png"] :=
    (Disk.locate_relative (by decide +kernel) (by decide +kernel) (by decide +kernel)
      (by decide +kernel)).trans (by decide +kernel)
  have hb : spoilt.locate "clip/b.png" = .ok ["clip", "b.png"] :=
    (Disk.locate_relative (by decide +kernel) (by decide +kernel) (by decide +kernel)
      (by decide +kernel)).trans (by decide +kernel)
  have hnames : spoilt.names? "clip" = some ["a.png", "b.png"] := by
    rw [Disk.names?, Disk.node?, hclip]
    rfl
  have hkind : spoilt.kind "clip/a.png" = .file ∧ spoilt.kind "clip/b.png" = .file := by
    rw [Disk.kind, Disk.kind, Disk.node?, Disk.node?, ha, hb]
    exact ⟨rfl, rfl⟩
  have hsorted : ["a.png", "b.png"].mergeSort (decide <| · ≤ ·) = ["a.png", "b.png"] :=
    List.mergeSort_of_pairwise (by decide +kernel)
  have hpaths : (["a.png", "b.png"].filter isFrameName).map (Path.join "clip") =
      ["clip/a.png", "clip/b.png"] := by decide +kernel
  have hframes : framesOn spoilt "clip" ["a.png", "b.png"] = ["clip/a.png", "clip/b.png"] := by
    rw [framesOn, hsorted, hpaths]
    simp [hkind]
  rw [run_openDirectory, if_pos (by decide +kernel), hnames]
  dsimp only
  rw [hframes]
  rfl

/-- The second frame cannot be read: the seek to it leaves the first one on show. -/
def spoiltCalls : List (Disk × Call) :=
  [(spoilt, ⟨0, .seek 0.0⟩), (spoilt, ⟨0, .seek 1.0⟩), (spoilt, ⟨0, .duplicate⟩),
   (spoilt, ⟨0, .release⟩), (spoilt, ⟨1, .seek 0.0⟩), (spoilt, ⟨0, .seek 0.0⟩)]

theorem playhead_run_spoilt :
    ((openDirectory "clip" 1.0 : StateM Disk (Except MediaError ImageSequence)).run spoilt).1 =
        .ok spoiltReel ∧
      (∀ e ∈ spoiltCalls, spoiltReel.SameFrames spoilt e.1) ∧
      (∀ i h, (spoiltReel.run spoiltCalls).handles[i]? = some h →
        Shows spoiltReel spoilt (IsReleased (spoiltReel.run spoiltCalls).log i)
          (lastSought (spoiltReel.run spoiltCalls).log i) h) ∧
      ∀ e : Disk × Call, spoiltReel.SameFrames spoilt e.1 →
        Steady spoiltReel spoilt (spoiltReel.run spoiltCalls) e := by
  have hfiles : ∀ e ∈ spoiltCalls, spoiltReel.SameFrames spoilt e.1 := by
    simp [spoiltCalls, SameFrames]
  exact ⟨open_spoilt, hfiles, playhead_run open_spoilt hfiles⟩

end ImageSequence

end Segue
