import Segue.Settings.Text
import Segue.Decimal.Numeral
import Segue.Proofs.Json.Value

/-!
# Settings as they are kept

Settings are read back from their text, with all of their fields and all of their extra entries, if
their numbers are read back and no extra entry has the name of a field.
-/

namespace Segue

open Json

variable {α : Type} [Numeral α]

/-! ## Points and frames -/

theorem isRead_point {p : Point α} (hfinite : ∀ x ∈ p.toJson.numbers, Scalar.isFinite x = true)
    (hread : ∀ x ∈ p.toJson.numbers, ReadsBack x) (style : Style) (depth d : Nat) :
    IsRead (Point.reader (d + 1)) p (write style depth p.toJson) := by
  have hx : p.x ∈ p.toJson.numbers := by simp [Point.toJson, numbers, memberNumbers]
  have hy : p.y ∈ p.toJson.numbers := by simp [Point.toJson, numbers, memberNumbers]
  rw [Point.toJson, write_obj]
  refine isRead_checked (isRead_record (n := 2) (s := (some p.x, some p.y)) ?_ style depth) rfl
  refine .field rfl rfl (isRead_number (hfinite _ hx) (hread _ hx) d) ?_
  exact .field rfl rfl (isRead_number (hfinite _ hy) (hread _ hy) d) (.nil _ _)

theorem isRead_frameRef (f : FrameRef) (style : Style) (depth d : Nat) :
    IsRead (FrameRef.reader (d + 1)) f (write style depth (f.toJson (α := α))) := by
  rw [FrameRef.toJson, write_obj]
  let read : Option String × FrameRef := (some f.name, ⟨"", f.subfolder, f.kind⟩)
  refine isRead_checked (isRead_record (n := 3) (s := read) ?_ style depth) rfl
  refine .field rfl rfl (isRead_string d f.name) ?_
  refine .field rfl rfl (isRead_string d f.subfolder) ?_
  exact .field rfl rfl (isRead_string d f.kind) (.nil _ _)

namespace Settings

/-! ## Extra entries -/

/-- Reads a value that is no field. -/
def readExtra (s : Settings α) (name : String) : Reader (Settings α) := fun depth cs => do
  let (j, rest) ← value depth cs
  .ok (s.setExtra name j, rest)

theorem reader_eq : reader (α := α) = fields textFields readExtra standard := rfl

/-- The names under which fields are read. -/
def fieldNames (α : Type) [Numeral α] : List String :=
  (textFields (α := α)).flatMap (·.names)

theorem findIdx?_textFields {name : String} (h : name ∉ fieldNames α) :
    ((textFields (α := α)).findIdx? fun f => f.names.contains name) = none := by
  rw [List.findIdx?_eq_none_iff]
  intro f hf
  rw [List.contains_eq_mem, decide_eq_false_iff_not]
  exact fun hname => h (List.mem_flatMap_of_mem hf hname)

/-- Entries above those already there go behind them. -/
theorem advances_extra {before after : Keyed (Json α)} (hsorted : Keyed.Sorted (before ++ after))
    (hfree : ∀ e ∈ after, e.1 ∉ fieldNames α) {d : Nat} {style : Style} {depth : Nat}
    (hread : ∀ e ∈ after, IsRead (value d) e.2 (write style (depth + 1) e.2)) (i : Nat)
    {s : Settings α} (hs : s.extra = before) :
    Advances textFields readExtra d i s (after.map (writeMember style depth)) i
      { s with extra := before ++ after } := by
  intro seen hseen
  refine ⟨seen, hseen, ?_⟩
  induction after generalizing s before with
  | nil =>
      rw [List.append_nil, ← hs]
      exact .nil _
  | cons e after ih =>
      obtain ⟨hopens, hvalue⟩ := hread e List.mem_cons_self
      have hset : s.setExtra e.1 e.2 = { s with extra := before ++ [e] } := by
        rw [setExtra, hs, Keyed.insert_of_greatest hsorted]
      have hassoc : before ++ e :: after = before ++ [e] ++ after := by simp
      rw [hassoc] at hsorted ⊢
      have htail := ih hsorted (fun e he => hfree e (List.mem_cons_of_mem _ he))
        (fun e he => hread e (List.mem_cons_of_mem _ he)) (s := s.setExtra e.1 e.2) (by rw [hset])
      rw [hset] at htail
      refine .cons_member hopens (fun rest hrest => ?_) htail
      simp only [fieldStep, findIdx?_textFields (hfree e List.mem_cons_self), readExtra,
        hvalue rest hrest, hset, bind, Except.bind]

/-! ## Whole settings -/

def members (s : Settings α) : List (String × Json α) :=
  ("engine", .str s.engine) :: ("variant", .str s.variant) :: ("duration", .float s.duration) ::
    ("fps", .int s.fps.toNat) :: ("intensity", .float s.intensity) :: ("easing", .str s.easing) ::
    (s.curveP0.toList.map (fun p => ("curveP0", p.toJson)) ++
    (s.curveC0.toList.map (fun p => ("curveC0", p.toJson)) ++
    (s.curveC1.toList.map (fun p => ("curveC1", p.toJson)) ++
    (s.curveP1.toList.map (fun p => ("curveP1", p.toJson)) ++
    ("clipAStart", .float s.startA) :: ("clipBStart", .float s.startB) ::
    ("exportFullVideos", .bool s.fullVideos) :: ("use_source_fps", .bool s.useSourceFps) ::
    (s.frames.toList.map (fun fs => ("preRenderedFrames", .arr (fs.map FrameRef.toJson))) ++
    s.extra)))))

omit [Numeral α] in
theorem toJson_eq (s : Settings α) : s.toJson = .obj s.members := by
  simp only [toJson, members, List.append_assoc, List.cons_append, List.nil_append]

omit [Numeral α] in
theorem mem_numbers {s : Settings α} {m : String × Json α} (hm : m ∈ s.members) {x : α}
    (hx : x ∈ m.2.numbers) : x ∈ s.toJson.numbers := by
  rw [toJson_eq]
  exact mem_memberNumbers.mpr ⟨m, hm, hx⟩

/-- Settings that can be kept: their numbers are finite, and the extra entries are sorted, free of
the names of fields, and nest no deeper than is read. -/
structure Storable (s : Settings α) : Prop where
  finite : ∀ x ∈ s.toJson.numbers, Scalar.isFinite x = true
  sorted : Keyed.Sorted s.extra
  free : ∀ e ∈ s.extra, e.1 ∉ fieldNames α
  fits : ∀ e ∈ s.extra, Fits (maxNesting - 1) e.2

theorem isRead_frameRate (n : UInt32) (d : Nat) (style : Style) (depth : Nat) :
    IsRead (frameRateReader (α := α) d) n (write style depth (.int n.toNat : Json α)) := by
  have hlt : n.toNat ≤ maxFrameRate := Nat.le_of_lt_succ n.toNat_lt
  have hword : isWord n.toNat = true := by
    simp only [isWord, maxFrameRate, Bool.and_eq_true, decide_eq_true_eq] at hlt ⊢
    omega
  have hrate : frameRateOf (.int n.toNat : Json α) = .ok n := by
    rw [frameRateOf, if_neg (by omega), if_neg (by omega), Int.toNat_natCast]
    exact congrArg Except.ok (UInt32.ofNat_toNat)
  refine isRead_checked (isRead_write (.int d hword) (by simp [numbers]) style depth) ?_
  rw [hrate]

section Printed

variable {s : Settings α} (h : s.Storable) (hread : ∀ x ∈ s.toJson.numbers, ReadsBack x)

include h hread

theorem isRead_ownNumber (name : String) {x : α} (hm : (name, .float x) ∈ s.members) (d : Nat) :
    IsRead (number d) x (numberText x) := by
  have hx : x ∈ s.toJson.numbers := mem_numbers hm (by simp [numbers])
  exact isRead_number (h.finite x hx) (hread x hx) d

theorem isRead_ownPoint (name : String) {p : Point α} (hm : (name, p.toJson) ∈ s.members)
    (style : Style) (depth d : Nat) :
    IsRead (nullable Point.reader (d + 1)) (some p) (write style depth p.toJson) := by
  refine isRead_nullable (isRead_point (fun x hx => h.finite x (mem_numbers hm hx))
    (fun x hx => hread x (mem_numbers hm hx)) style depth d) ?_
  rw [Point.toJson, write_obj]
  exact fun heq => absurd (Option.some.inj heq) (by decide)

theorem isRead_settings : IsRead (reader maxNesting) s (write .pretty 0 s.toJson) := by
  have hframes : ∀ fs : List FrameRef, IsRead (nullable (list FrameRef.reader) 126) (some fs)
      (write .pretty 1 (.arr (fs.map FrameRef.toJson) : Json α)) := by
    intro fs
    rw [write_arr, List.map_map]
    refine isRead_nullable (isRead_list (fun f _ => isRead_frameRef f .pretty 2 124) .pretty 1) ?_
    exact fun heq => absurd (Option.some.inj heq) (by decide)
  have hextra : ∀ e ∈ s.extra, IsRead (value 126) e.2 (write .pretty 1 e.2) := fun e he =>
    isRead_write (h.fits e he) (fun x hx => hread x (mem_numbers (by simp [members, he]) hx))
      .pretty 1
  rw [reader_eq, toJson_eq, write_obj, members]
  refine isRead_fields (d := 126) (n := 15) ?_ .pretty 0
  simp only [List.map_cons, List.map_append, List.map_map, Function.comp_def]
  refine .field rfl rfl (isRead_string 126 s.engine) ?_
  refine .field rfl rfl (isRead_string 126 s.variant) ?_
  refine .field rfl rfl (isRead_ownNumber h hread "duration" (by simp [members]) 126) ?_
  refine .field rfl rfl (isRead_frameRate s.fps 126 .pretty 1) ?_
  refine .field rfl rfl (isRead_ownNumber h hread "intensity" (by simp [members]) 126) ?_
  refine .field rfl rfl (isRead_string 126 s.easing) ?_
  refine .optional rfl rfl rfl (fun p hp => ?_) ?_
  · exact isRead_ownPoint h hread "curveP0" (by simp [members, hp]) .pretty 1 125
  refine .optional rfl rfl rfl (fun p hp => ?_) ?_
  · exact isRead_ownPoint h hread "curveC0" (by simp [members, hp]) .pretty 1 125
  refine .optional rfl rfl rfl (fun p hp => ?_) ?_
  · exact isRead_ownPoint h hread "curveC1" (by simp [members, hp]) .pretty 1 125
  refine .optional rfl rfl rfl (fun p hp => ?_) ?_
  · exact isRead_ownPoint h hread "curveP1" (by simp [members, hp]) .pretty 1 125
  refine .field rfl rfl (isRead_ownNumber h hread "clipAStart" (by simp [members]) 126) ?_
  refine .field rfl rfl (isRead_ownNumber h hread "clipBStart" (by simp [members]) 126) ?_
  refine .field rfl rfl (isRead_boolean 126 s.fullVideos .pretty 1) ?_
  refine .field rfl rfl (isRead_boolean 126 s.useSourceFps .pretty 1) ?_
  refine .optional rfl rfl rfl (fun fs _ => hframes fs) ?_
  exact @advances_extra _ _ [] _ h.sorted h.free _ _ _ hextra 15 _ rfl

end Printed

/-- Settings are read back from their text. -/
theorem parse_text {s : Settings α} (h : s.Storable)
    (hread : ∀ x ∈ s.toJson.numbers, ReadsBack x) : parse s.text = .ok s :=
  readAll_ofList (isRead_settings h hread)

/-- A point of the curve, a frame, escapes in a text, and extra entries of all kinds. -/
def sketched : Settings Float :=
  { standard with
    engine := "Zoom \"é\\\n"
    curveP0 := some ⟨0.25, -1.5⟩
    frames := some [⟨"a.png", "", "temp"⟩]
    extra := [("list", .arr [.float 0.5, .int (-3), .null]),
      ("nested", .obj [("deep", .obj []), ("on", .bool true)]), ("text", .str "😀")] }

theorem storable_sketched : sketched.Storable where
  finite := by decide +kernel
  sorted := by decide +kernel
  free := by decide +kernel
  fits := by
    intro e he
    simp only [sketched, List.mem_cons, List.not_mem_nil, or_false] at he
    rcases he with rfl | rfl | rfl
    · refine .arr fun v hv => ?_
      simp only [List.mem_cons, List.not_mem_nil, or_false] at hv
      rcases hv with rfl | rfl | rfl
      · exact .float _ (by decide +kernel)
      · exact .int _ (by decide)
      · exact .null _
    · refine .obj (by decide +kernel) fun m hm => ?_
      simp only [List.mem_cons, List.not_mem_nil, or_false] at hm
      rcases hm with rfl | rfl
      · exact .obj .nil (by simp)
      · exact .bool _ true
    · exact .str _ "😀"

theorem parse_sketched : sketched.Storable ∧ (∀ x ∈ sketched.toJson.numbers, ReadsBack x) ∧
    parse sketched.text = .ok sketched := by
  have hread : ∀ x ∈ sketched.toJson.numbers, ReadsBack x := by decide +kernel
  exact ⟨storable_sketched, hread, parse_text storable_sketched hread⟩

end Settings

end Segue
