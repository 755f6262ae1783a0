import Segue.Proofs.Json.Sound
import Segue.Proofs.Settings.Text
import Segue.Proofs.Settings.Usable

/-!
# Settings that were read

Settings that were read can be kept again, and so can settings that were brought into the usable
ranges.
-/

namespace Segue

open Json

namespace Settings

/-! ## Settings that are sound -/

/-- The point has finite coordinates, if it is there. -/
def PointFinite (p : Option (Point Float)) : Prop :=
  ∀ q ∈ p, Scalar.isFinite q.x = true ∧ Scalar.isFinite q.y = true

/-- The extra entries are sorted and can be read, and the points are finite. -/
structure Sound (s : Settings Float) : Prop where
  sorted : Keyed.Sorted s.extra
  fits : ∀ e ∈ s.extra, Fits (maxNesting - 1) e.2
  p0 : PointFinite s.curveP0
  c0 : PointFinite s.curveC0
  c1 : PointFinite s.curveC1
  p1 : PointFinite s.curveP1

theorem pointFinite_none : PointFinite none := fun _ h => by cases h

theorem sound_standard : (standard : Settings Float).Sound where
  sorted := .nil
  fits := by simp [standard]
  p0 := pointFinite_none
  c0 := pointFinite_none
  c1 := pointFinite_none
  p1 := pointFinite_none

theorem pointFinite_of_read {d : Nat} {cs rest : List Char} {p : Option (Point Float)}
    (h : nullable Point.reader (d + 1) cs = .ok (p, rest)) : PointFinite p := by
  unfold nullable at h
  split at h
  · obtain ⟨left, -, h⟩ := bind_eq_ok.mp h
    cases h
    exact pointFinite_none
  · obtain ⟨⟨q, left⟩, hread, h⟩ := bind_eq_ok.mp h
    cases h
    obtain ⟨⟨⟨x, y⟩, left⟩, hrecord, h⟩ := bind_eq_ok.mp hread
    have hfinite : (∀ v ∈ x, Scalar.isFinite v = true) ∧ ∀ v ∈ y, Scalar.isFinite v = true := by
      refine record_preserves (P := fun s : Option Float × Option Float =>
        (∀ v ∈ s.1, Scalar.isFinite v = true) ∧ ∀ v ∈ s.2, Scalar.isFinite v = true)
        (.cons ?_ (.cons ?_ fieldsPreserve_nil)) hrecord ⟨by simp, by simp⟩
      · intro s cs v rest hs hv
        exact ⟨by simpa using isFinite_of_number hv, hs.2⟩
      · intro s cs v rest hs hv
        exact ⟨hs.1, by simpa using isFinite_of_number hv⟩
    obtain ⟨r, hcheck, h⟩ := bind_eq_ok.mp h
    cases h
    dsimp only at hcheck
    split at hcheck
    · rename_i v w heq
      cases heq
      cases hcheck
      intro q' hq'
      cases hq'
      exact ⟨hfinite.1 v rfl, hfinite.2 w rfl⟩
    · cases hcheck

/-- No extra entry has the name of a field. -/
def Free (s : Settings Float) : Prop := ∀ e ∈ s.extra, e.1 ∉ fieldNames Float

theorem free_standard : (standard : Settings Float).Free := by simp [Free, standard]

theorem Sound.of_eq {s t : Settings Float} (h : s.Sound) (hextra : t.extra = s.extra)
    (hp0 : t.curveP0 = s.curveP0) (hc0 : t.curveC0 = s.curveC0) (hc1 : t.curveC1 = s.curveC1)
    (hp1 : t.curveP1 = s.curveP1) : t.Sound where
  sorted := hextra ▸ h.sorted
  fits := hextra ▸ h.fits
  p0 := hp0 ▸ h.p0
  c0 := hc0 ▸ h.c0
  c1 := hc1 ▸ h.c1
  p1 := hp1 ▸ h.p1

theorem fieldsPreserve_textFields :
    FieldsPreserve (fun s => s.Sound ∧ s.Free) (textFields (α := Float)) 126 := by
  iterate 6 refine .cons (fun _ _ _ _ h _ => ⟨h.1.of_eq rfl rfl rfl rfl rfl, h.2⟩) ?_
  refine .cons (fun _ _ _ _ h hp => ⟨{ h.1 with p0 := pointFinite_of_read hp }, h.2⟩) ?_
  refine .cons (fun _ _ _ _ h hp => ⟨{ h.1 with c0 := pointFinite_of_read hp }, h.2⟩) ?_
  refine .cons (fun _ _ _ _ h hp => ⟨{ h.1 with c1 := pointFinite_of_read hp }, h.2⟩) ?_
  refine .cons (fun _ _ _ _ h hp => ⟨{ h.1 with p1 := pointFinite_of_read hp }, h.2⟩) ?_
  iterate 5 refine .cons (fun _ _ _ _ h _ => ⟨h.1.of_eq rfl rfl rfl rfl rfl, h.2⟩) ?_
  exact fieldsPreserve_nil

theorem Sound.setEntry {s : Settings Float} (h : s.Sound) (name : String) {j : Json Float}
    (hj : Fits (maxNesting - 1) j) : (s.setExtra name j).Sound where
  sorted := Keyed.sorted_insert h.sorted
  fits := by
    intro e he
    rcases Keyed.eq_or_mem_of_mem_insert he with rfl | he
    · exact hj
    · exact h.fits e he
  p0 := h.p0
  c0 := h.c0
  c1 := h.c1
  p1 := h.p1

/-- What was read can be written and has no field among its extra entries. -/
theorem sound_of_parse {text : String} {s : Settings Float} (h : parse text = .ok s) :
    s.Sound ∧ s.Free := by
  obtain ⟨⟨t, left⟩, hread, h⟩ := bind_eq_ok.mp h
  dsimp only at h
  split at h
  · cases h
    rw [reader_eq] at hread
    refine fields_preserves (P := fun s => s.Sound ∧ s.Free) fieldsPreserve_textFields
      (fun s name cs s' rest hname hs hvalue => ?_) hread ⟨sound_standard, free_standard⟩
    obtain ⟨⟨j, left⟩, hj, hvalue⟩ := bind_eq_ok.mp hvalue
    cases hvalue
    refine ⟨hs.1.setEntry name (fits_of_value hj), fun e he => ?_⟩
    rcases Keyed.eq_or_mem_of_mem_insert he with rfl | he
    · intro hmem
      obtain ⟨f, hf, hin⟩ := List.mem_flatMap.mp hmem
      exact hname f hf hin
    · exact hs.2 e he
  · cases h

theorem sound_of_parseFile {text : String} {s : Settings Float} (h : parseFile text = .ok s) :
    s.Sound ∧ s.Free := by
  unfold parseFile at h
  split at h
  · cases h
    exact ⟨sound_standard, free_standard⟩
  · exact sound_of_parse h

/-! ## Settings in their usable ranges -/

@[simp] theorem numbers_frames (fs : List FrameRef) :
    (.arr (fs.map FrameRef.toJson) : Json Float).numbers = [] := by
  have hnone : ∀ x, x ∉ itemNumbers (fs.map (FrameRef.toJson (α := Float))) := by
    intro x hx
    obtain ⟨j, hj, hx⟩ := mem_itemNumbers.mp hx
    obtain ⟨f, -, rfl⟩ := List.mem_map.mp hj
    simp [FrameRef.toJson, numbers, memberNumbers] at hx
  exact List.eq_nil_iff_forall_not_mem.mpr hnone

theorem numbers_point {p : Option (Point Float)} (h : PointFinite p) {name : String}
    {m : String × Json Float} (hm : m ∈ p.toList.map fun p => (name, p.toJson)) :
    ∀ x ∈ m.2.numbers, Scalar.isFinite x = true := by
  obtain ⟨q, hq, rfl⟩ := List.mem_map.mp hm
  obtain ⟨hx, hy⟩ := h q (Option.mem_toList.mp hq)
  intro x hmem
  simp only [Point.toJson, numbers, memberNumbers, List.append_nil, List.singleton_append,
    List.mem_cons, List.not_mem_nil, or_false] at hmem
  rcases hmem with rfl | rfl
  · exact hx
  · exact hy

theorem Sound.isFinite {s : Settings Float} (h : s.Sound)
    (hown : ∀ x ∈ [s.duration, s.intensity, s.startA, s.startB], Scalar.isFinite x = true) :
    ∀ x ∈ s.toJson.numbers, Scalar.isFinite x = true := by
  have hframes : ∀ m ∈ s.frames.toList.map fun fs => ("preRenderedFrames",
      (.arr (fs.map FrameRef.toJson) : Json Float)), m.2.numbers = [] := by
    intro m hm
    obtain ⟨fs, -, rfl⟩ := List.mem_map.mp hm
    exact numbers_frames fs
  have hall : ∀ m ∈ s.members, ∀ x ∈ m.2.numbers, Scalar.isFinite x = true := by
    simp only [members, List.forall_mem_cons, List.forall_mem_append, numbers, List.not_mem_nil,
      List.mem_singleton, forall_eq, IsEmpty.forall_iff, implies_true, true_and] at hown ⊢
    refine ⟨hown.1, hown.2.1, fun m hm => numbers_point h.p0 hm, fun m hm => numbers_point h.c0 hm,
      fun m hm => numbers_point h.c1 hm, fun m hm => numbers_point h.p1 hm, hown.2.2.1,
      hown.2.2.2, fun m hm x hx => ?_, fun e he => (h.fits e he).isFinite⟩
    rw [hframes m hm] at hx
    exact absurd hx List.not_mem_nil
  intro x hx
  rw [toJson_eq] at hx
  obtain ⟨m, hm, hx⟩ := mem_memberNumbers.mp hx
  exact hall m hm x hx

/-- Settings in their usable ranges can be kept, with any frames. -/
theorem storable_sanitized {s : Settings Float} (h : s.Sound) (hfree : s.Free)
    (frames : Option (List FrameRef)) : { s.sanitized with frames := frames }.Storable := by
  have hsound : { s.sanitized with frames := frames }.Sound := h.of_eq rfl rfl rfl rfl rfl
  exact ⟨hsound.isFinite (usable_sanitized s).isFinite, h.sorted, hfree, h.fits⟩

end Settings

end Segue
