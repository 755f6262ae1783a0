import Mathlib
import Segue.Proofs.Export.Session

/-!
# The books of one run

What a run has drawn, asked for, collected and told agree with each other at every wait. The books
are kept by each function that a reply can lead to, from the end of a run back to its beginning.
-/

namespace Segue

open Scalar

variable {α : Type}

namespace Export

def encodings (format : FrameFormat) (drawn : List (Nat × Drawn)) : List EncodedFrame :=
  drawn.filterMap fun (i, d) =>
    match d with
    | .picture image => EncodedFrame.ofImage? i image format
    | .skipped | .unreadable => none

theorem index_of_ofImage? {i : Nat} {image : Image} {format : FrameFormat} {frame : EncodedFrame}
    (h : EncodedFrame.ofImage? i image format = some frame) : frame.index = i := by
  unfold EncodedFrame.ofImage? at h
  split at h
  · cases h
    rfl
  · cases h

/-- Each frame comes from its own position. -/
theorem encodings_index (format : FrameFormat) (drawn : List (Nat × Drawn)) :
    ((encodings format drawn).map (·.index)).Sublist (drawn.map Prod.fst) := by
  induction drawn with
  | nil => exact List.Sublist.slnil
  | cons p drawn ih =>
      obtain ⟨i, d⟩ := p
      cases d with
      | skipped => exact ih.cons i
      | unreadable => exact ih.cons i
      | picture image =>
          cases hframe : EncodedFrame.ofImage? i image format with
          | none =>
              have hrest : encodings format ((i, .picture image) :: drawn) =
                  encodings format drawn := by simp [encodings, hframe]
              rw [hrest]
              exact ih.cons i
          | some frame =>
              have hrest : encodings format ((i, .picture image) :: drawn) =
                  frame :: encodings format drawn := by simp [encodings, hframe]
              rw [hrest, List.map_cons, index_of_ofImage? hframe]
              exact ih.cons_cons i

theorem encodings_picture (format : FrameFormat) (drawn : List (Nat × Drawn)) (i : Nat)
    (image : Image) : encodings format (drawn ++ [(i, .picture image)]) =
      encodings format drawn ++ (EncodedFrame.ofImage? i image format).toList := by
  cases hframe : EncodedFrame.ofImage? i image format <;>
    simp [encodings, List.filterMap_append, hframe]

/-- The slots hold the results that were collected. -/
structure Filled (slots : Array (Option FrameRef)) (total : Nat)
    (collected : List FinishedUpload) : Prop where
  size : slots.size = total
  hit : ∀ u ∈ collected, slots[u.index]? = some u.ending.stored?
  miss : ∀ i < total, (∀ u ∈ collected, u.index ≠ i) → slots[i]? = some none

theorem filled_replicate (total : Nat) : Filled (Array.replicate total none) total [] where
  size := Array.size_replicate
  hit := by simp
  miss i hi _ := by simp [hi]

theorem Filled.stored {slots : Array (Option FrameRef)} {total : Nat}
    {collected : List FinishedUpload} (h : Filled slots total collected) {u : FinishedUpload}
    {frame : FrameRef} (hu : u.ending.stored? = some frame) (hlt : u.index < total)
    (hnew : ∀ v ∈ collected, v.index ≠ u.index) :
    Filled (slots.setIfInBounds u.index (some frame)) total (collected ++ [u]) where
  size := by rw [Array.size_setIfInBounds, h.size]
  hit v hv := by
    rcases List.mem_append.mp hv with hv | hv
    · have hne : u.index ≠ v.index := fun heq => hnew v hv heq.symm
      rw [Array.getElem?_setIfInBounds_ne hne, h.hit v hv]
    · obtain rfl : v = u := by simpa using hv
      have hin : v.index < slots.size := h.size ▸ hlt
      rw [Array.getElem?_setIfInBounds_self_of_lt hin, hu]
  miss i hi hno := by
    have hne : u.index ≠ i := hno u (by simp)
    rw [Array.getElem?_setIfInBounds_ne hne]
    exact h.miss i hi fun v hv => hno v (List.mem_append_left _ hv)

theorem Filled.nothing {slots : Array (Option FrameRef)} {total : Nat}
    {collected : List FinishedUpload} (h : Filled slots total collected) {u : FinishedUpload}
    (hu : u.ending.stored? = none) (hlt : u.index < total)
    (hnew : ∀ v ∈ collected, v.index ≠ u.index) : Filled slots total (collected ++ [u]) where
  size := h.size
  hit v hv := by
    rcases List.mem_append.mp hv with hv | hv
    · exact h.hit v hv
    · obtain rfl : v = u := by simpa using hv
      rw [hu]
      exact h.miss v.index hlt hnew
  miss i hi hno := h.miss i hi fun v hv => hno v (List.mem_append_left _ hv)

/-- What a run has done so far. -/
structure Account (α : Type) where
  drawn : List (Nat × Drawn)
  asked : List EncodedFrame
  collected : List FinishedUpload
  told : List α
  replies : Nat

def Account.ask (l : Account α) (frames : List EncodedFrame) : Account α :=
  { l with asked := l.asked ++ frames }

@[simp] theorem Account.ask_nil (l : Account α) : l.ask [] = l := by
  simp [Account.ask]

@[simp] theorem Account.ask_ask (l : Account α) (xs ys : List EncodedFrame) :
    (l.ask xs).ask ys = l.ask (xs ++ ys) := by
  simp [Account.ask]

/-- The books at any time, whatever the run waits for. -/
structure Books (r : Export α) (l : Account α) : Prop where
  positions : l.drawn.map Prod.fst = List.range l.drawn.length
  drawn_le : l.drawn.length ≤ r.total
  pending_eq : r.pending + l.collected.length = l.asked.length
  filled : Filled r.slots r.total l.collected
  uploaded_eq : r.uploaded = (l.collected.filterMap (·.ending.stored?)).length

theorem Books.congr {r r' : Export α} {l : Account α} (h : Books r l) (htotal : r'.total = r.total)
    (hpending : r'.pending = r.pending) (hslots : r'.slots = r.slots)
    (huploaded : r'.uploaded = r.uploaded) : Books r' l where
  positions := h.positions
  drawn_le := htotal ▸ h.drawn_le
  pending_eq := hpending ▸ h.pending_eq
  filled := by rw [hslots, htotal]; exact h.filled
  uploaded_eq := huploaded.trans h.uploaded_eq

theorem Books.reply {r : Export α} {l : Account α} (h : Books r l) (n : Nat) :
    Books r { l with replies := n } :=
  ⟨h.positions, h.drawn_le, h.pending_eq, h.filled, h.uploaded_eq⟩

/-- The present position is drawn. -/
theorem Books.draw {r : Export α} {l : Account α} (h : Books r l)
    (hposition : l.drawn.length = r.index) (hlt : r.index < r.total) (d : Drawn) (n : Nat) :
    Books r { l with drawn := l.drawn ++ [(r.index, d)], replies := n } where
  positions := by
    rw [List.map_append, h.positions, List.length_append, List.length_singleton, List.range_succ,
      hposition]
    rfl
  drawn_le := by
    simp only [List.length_append, List.length_singleton]
    omega
  pending_eq := h.pending_eq
  filled := h.filled
  uploaded_eq := h.uploaded_eq

/-- The result of an upload is taken. -/
theorem Books.take {r : Export α} {l : Account α} (h : Books r l) (hpending : r.pending ≠ 0)
    {u : FinishedUpload} {slots : Array (Option FrameRef)}
    (hfilled : Filled slots r.total (l.collected ++ [u])) (n : Nat) :
    Books { r with
        pending := r.pending - 1, slots
        uploaded := r.uploaded + u.ending.stored?.toList.length }
      { l with collected := l.collected ++ [u], replies := n } where
  positions := h.positions
  drawn_le := h.drawn_le
  pending_eq := by
    have hcount := h.pending_eq
    simp only [List.length_append, List.length_singleton]
    omega
  filled := hfilled
  uploaded_eq := by
    cases hu : u.ending.stored? <;> simp [hu, h.uploaded_eq]

/-- What was asked for are the first of the frames, and all of them unless some are given up. -/
structure Asked (givenUp : Bool) (asked frames : List EncodedFrame) : Prop where
  isPrefix : asked <+: frames
  all : givenUp = false → asked = frames

theorem Asked.of_eq {asked frames : List EncodedFrame} (h : asked = frames) (givenUp : Bool) :
    Asked givenUp asked frames :=
  ⟨h ▸ List.prefix_refl asked, fun _ => h⟩

theorem Asked.loosen {asked frames : List EncodedFrame} (h : Asked false asked frames)
    (givenUp : Bool) : Asked givenUp asked frames :=
  ⟨h.isPrefix, fun _ => h.all rfl⟩

theorem Asked.drop {asked more frames : List EncodedFrame}
    (h : Asked false (asked ++ more) frames) : Asked true asked frames where
  isPrefix := (List.prefix_append asked more).trans h.isPrefix
  all := by simp

/-! ## Phases -/

/-- The run has no compositor yet. -/
def isPreparing (r : Export α) : Bool :=
  match r.phase with
  | .called | .readying | .composing => true
  | _ => false

def outstanding (r : Export α) : List EncodedFrame :=
  match r.phase with
  | .encoding i => (EncodedFrame.ofImage? r.index i r.job.format).toList
  | .joining | .report _ => r.next.toList
  | _ => []

/-- The number of positions drawn so far, while frames are still to come. -/
def position? (r : Export α) : Option Nat :=
  match r.phase with
  | .seeking _ _ | .drawing _ _ => some r.index
  | .encoding _ => some (r.index + 1)
  | .joining | .report _ => r.next.map fun _ => r.index + 1
  | _ => none

/-- What the caller is still to be told. -/
def unreported (r : Export α) : List α :=
  match r.phase with
  | .report progress => [progress]
  | _ => []

/-- The most replies that the frames from the present one on can take: four for a frame and two for
its upload. -/
def ahead (r : Export α) : Nat := 6 * (r.total - r.index)

/-- As `ahead`, for a frame that waits for room. -/
def aheadNext (r : Export α) : Nat :=
  match r.next with
  | some _ => r.ahead - 4
  | none => 0

/-- The most replies that the run can still get. -/
def toCome (r : Export α) : Nat :=
  match r.phase with
  | .seeking .a _ => r.ahead + 2 * r.pending
  | .seeking .b _ => r.ahead - 1 + 2 * r.pending
  | .drawing _ _ => r.ahead - 2 + 2 * r.pending
  | .encoding _ => r.ahead - 3 + 2 * r.pending
  | .joining => r.aheadNext + 2 * r.pending
  | .report _ => r.aheadNext + 2 * r.pending + 1
  | _ => 0

variable [Scalar α]

/-- The first `k` of the shares of a total. -/
def shares (total k : Nat) : List α := (List.range k).map fun j => ofNat (j + 1) / ofNat total

theorem shares_succ (total k : Nat) :
    shares total (k + 1) = shares total k ++ [(ofNat (k + 1) / ofNat total : α)] := by
  simp [shares, List.range_succ]

/-- The books of a run at work or at its end. -/
structure Working (cancelled : Bool) (r : Export α) (l : Account α) : Prop where
  books : Books r l
  prepared : r.isPreparing = false
  position : ∀ n, r.position? = some n → l.drawn.length = n ∧ r.index < r.total
  all_drawn : cancelled = false → r.position? = none → l.drawn.length = r.total
  asked : Asked (cancelled && r.position?.isNone) (l.asked ++ r.outstanding)
    (encodings r.job.format l.drawn)
  told : l.told ++ r.unreported = shares r.total r.uploaded
  replies : l.replies + r.toCome ≤ 6 * r.total + 2
  joining : r.isJoining = true → r.pending ≠ 0
  ended : ∀ result, r.phase = .ended result →
    r.pending = 0 ∧ result = .ok (r.slots.toList.filterMap id)

/-- In the middle of a frame nothing has been given up. -/
theorem Working.of_position {cancelled : Bool} {r : Export α} {l : Account α}
    (h : Working cancelled r l) {n : Nat} (hn : r.position? = some n) :
    l.drawn.length = n ∧ r.index < r.total ∧ 6 ≤ r.ahead ∧
      Asked false (l.asked ++ r.outstanding) (encodings r.job.format l.drawn) := by
  obtain ⟨hdrawn, hlt⟩ := h.position n hn
  have hasked := h.asked
  rw [hn, Option.isNone_some, Bool.and_false] at hasked
  refine ⟨hdrawn, hlt, ?_, hasked⟩
  unfold ahead
  omega

/-- Frames are asked for in the order of their positions. -/
theorem Working.index_sublist {cancelled : Bool} {r : Export α} {l : Account α}
    (h : Working cancelled r l) :
    (l.asked.map (·.index)).Sublist (List.range l.drawn.length) := by
  have hasked : l.asked.Sublist (encodings r.job.format l.drawn) :=
    (List.sublist_append_left l.asked r.outstanding).trans h.asked.isPrefix.sublist
  have hindex := encodings_index r.job.format l.drawn
  rw [h.books.positions] at hindex
  exact (hasked.map (·.index)).trans hindex

theorem Working.index_lt {cancelled : Bool} {r : Export α} {l : Account α}
    (h : Working cancelled r l) : ∀ frame ∈ l.asked, frame.index < r.total := by
  intro frame hframe
  have hmem := h.index_sublist.subset (List.mem_map_of_mem hframe)
  exact (List.mem_range.mp hmem).trans_le h.books.drawn_le

theorem Working.index_sorted {cancelled : Bool} {r : Export α} {l : Account α}
    (h : Working cancelled r l) : (l.asked.map (·.index)).Pairwise (· < ·) :=
  List.pairwise_lt_range.sublist h.index_sublist

/-- The books when the run is about to go on, with frames to ask for next. -/
structure Prepared (givenUp : Bool) (r : Export α) (l : Account α) (frames : List EncodedFrame)
    (toCome : Nat) : Prop where
  books : Books r l
  asked : Asked givenUp (l.asked ++ frames) (encodings r.job.format l.drawn)
  told : l.told = shares r.total r.uploaded
  replies : l.replies + toCome ≤ 6 * r.total + 2

end Export

end Segue
