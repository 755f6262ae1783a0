import Segue.Proofs.Shader.Std140
import Segue.Shader.Wrap

/-!
# The parameter block is laid out by std140

The members of the block are the parameters that a fragment declares, and the bytes at which
values are written are those at which the members of the wrapped text begin.
-/

namespace Segue.Shader

open Std140 (Member IsNext Placed isNext_roundUp)

/-! ## Declared parameters -/

/-- What a declaration says of a member of the block, if it makes one by itself. -/
def parameter? (d : UniformDecl) : Option (String × ParamKind × Option Nat) :=
  if Uniforms.isContract d.name then none
  else (ParamKind.ofType? d.type).map fun kind => (d.name, kind, d.arrayLength)

/-- No declaration before makes a member of the same name. -/
def isFirst (before : List UniformDecl) (d : UniformDecl) : Bool :=
  before.all fun e => e.name != d.name || (parameter? e).isNone

/-- The first parameter of each name, in the order of the declarations. -/
def parameters (ds : List UniformDecl) : List (String × ParamKind × Option Nat) :=
  ds.zipIdx.filterMap fun (d, i) => if isFirst (ds.take i) d then parameter? d else none

@[simp] theorem parameters_concat (ds : List UniformDecl) (d : UniformDecl) :
    parameters (ds ++ [d]) =
      parameters ds ++ (if isFirst ds d then parameter? d else none).toList := by
  have hold : ∀ x ∈ ds.zipIdx,
      (if isFirst ((ds ++ [d]).take x.2) x.1 then parameter? x.1 else none) =
        if isFirst (ds.take x.2) x.1 then parameter? x.1 else none := by
    rintro ⟨e, i⟩ hx
    have hi : i < ds.length := by
      obtain ⟨_, hi, _⟩ := List.mem_zipIdx hx
      simpa using hi
    rw [List.take_append_of_le_length (Nat.le_of_lt hi)]
  have hnew : (ds ++ [d]).take (0 + ds.length) = ds := by simp
  rw [parameters, List.zipIdx_append, List.filterMap_append, List.filterMap_congr hold,
    ← parameters, List.zipIdx_singleton, List.filterMap_cons, List.filterMap_nil]
  simp only [hnew]
  cases if isFirst ds d then parameter? d else none <;> rfl

theorem isFirst_eq_false {before : List UniformDecl} {d : UniformDecl} :
    isFirst before d = false ↔ ∃ e ∈ before, e.name = d.name ∧ (parameter? e).isSome := by
  simp [isFirst, Option.isSome_iff_ne_none]

theorem name_of_parameter? {d : UniformDecl} {p : String × ParamKind × Option Nat}
    (h : parameter? d = some p) : p.1 = d.name := by
  rw [parameter?] at h
  split at h
  · exact absurd h (by simp)
  · obtain ⟨kind, _, rfl⟩ := Option.map_eq_some_iff.mp h
    rfl

/-- The names of the parameters are those of the declarations that make one. -/
theorem mem_parameters_name {ds : List UniformDecl} {name : String} :
    (∃ p ∈ parameters ds, p.1 = name) ↔ ∃ e ∈ ds, e.name = name ∧ (parameter? e).isSome := by
  induction ds using List.reverseRecOn with
  | nil => simp [parameters]
  | append_singleton ds d ih =>
      rw [parameters_concat]
      constructor
      · rintro ⟨p, hp, rfl⟩
        rcases List.mem_append.mp hp with hp | hp
        · obtain ⟨e, he, hname, hsome⟩ := ih.mp ⟨p, hp, rfl⟩
          exact ⟨e, List.mem_append_left _ he, hname, hsome⟩
        · split at hp
          · have hd := Option.mem_toList.mp hp
            exact ⟨d, by simp, (name_of_parameter? hd).symm, by rw [hd]; rfl⟩
          · simp at hp
      · rintro ⟨e, he, rfl, hsome⟩
        rcases List.mem_append.mp he with he | he
        · obtain ⟨p, hp, hname⟩ := ih.mpr ⟨e, he, rfl, hsome⟩
          exact ⟨p, List.mem_append_left _ hp, hname⟩
        · obtain rfl := List.mem_singleton.mp he
          cases hfirst : isFirst ds e with
          | true =>
              obtain ⟨p, hp⟩ := Option.isSome_iff_exists.mp hsome
              refine ⟨p, List.mem_append_right _ ?_, name_of_parameter? hp⟩
              simp [hp]
          | false =>
              obtain ⟨p, hp, hname⟩ := ih.mpr (isFirst_eq_false.mp hfirst)
              exact ⟨p, List.mem_append_left _ hp, hname⟩

/-! ## Members -/

namespace ParamField

/-- What the field keeps of its declaration. -/
def parameter (f : ParamField) : String × ParamKind × Option Nat := (f.name, f.kind, f.arrayLength)

def member (f : ParamField) : Member := ⟨f.kind.memberType, "bp_" ++ f.name, f.arrayLength⟩

def stop (f : ParamField) : Nat :=
  match f.arrayLength with
  | none => f.offset + 4 * f.kind.components
  | some n => f.offset + 16 * n

@[simp] theorem line_member (f : ParamField) : f.member.line = memberLine f := by
  obtain ⟨name, kind, arrayLength, offset⟩ := f
  have hprefix : " bp_" = " " ++ "bp_" := rfl
  cases arrayLength <;>
    simp only [member, Member.line, memberLine, toString, hprefix, String.append_assoc,
      String.empty_append]

end ParamField

theorem single_memberType (kind : ParamKind) :
    ∃ ty, Glsl.Ty.ofName? kind.memberType = some ty ∧
      Std140.Single ty kind.alignment (kind.components * 4) ∧ ty.kind? ≠ some .bool := by
  cases kind with
  | float => exact ⟨.scalar .float, rfl, .scalar .float, by decide⟩
  | int => exact ⟨.scalar .int, rfl, .scalar .int, by decide⟩
  | bool => exact ⟨.scalar .int, rfl, .scalar .int, by decide⟩
  | vec2 => exact ⟨.vector 2 .float, rfl, .two .float, by decide⟩
  | vec3 => exact ⟨.vector 3 .float, rfl, .three .float, by decide⟩
  | vec4 => exact ⟨.vector 4 .float, rfl, .four .float, by decide⟩

theorem alignment_pos (kind : ParamKind) : 0 < kind.alignment := by
  cases kind <;> decide

theorem isNext_stride (kind : ParamKind) : IsNext kind.alignment 16 arrayStride := by
  have hle : kind.alignment ≤ arrayStride := by cases kind <;> decide
  have hpos := alignment_pos kind
  refine ⟨⟨hle, Nat.dvd_refl 16⟩, ?_⟩
  rintro n ⟨hn, hdvd⟩
  exact Nat.le_of_dvd (Nat.lt_of_lt_of_le hpos hn) hdvd

theorem placement_pos (kind : ParamKind) (arrayLength : Option Nat) :
    0 < (placement kind arrayLength).1 := by
  cases arrayLength with
  | none => exact alignment_pos kind
  | some n => exact Nat.succ_pos 15

/-- A member is aligned and sized by the rules, unless it is an array of nothing. -/
theorem takes_placement {f : ParamField} (h : f.arrayLength ≠ some 0) :
    f.member.Takes (placement f.kind f.arrayLength).1 (placement f.kind f.arrayLength).2 := by
  obtain ⟨ty, hty, hsingle, _⟩ := single_memberType f.kind
  cases hlen : f.arrayLength with
  | none => exact .single hlen hty hsingle
  | some n =>
      have hn : n ≠ 0 := fun h0 => h (h0 ▸ hlen)
      have hmax : max n 1 = n := Nat.max_eq_left (Nat.one_le_iff_ne_zero.mpr hn)
      rw [placement, hmax, Nat.mul_comm]
      exact .array hlen hty hsingle (isNext_stride f.kind)

theorem stop_le (f : ParamField) : f.stop ≤ f.offset + (placement f.kind f.arrayLength).2 := by
  rw [ParamField.stop]
  cases f.arrayLength with
  | none => simp only [placement]; omega
  | some n =>
      have hn : n ≤ max n 1 := Nat.le_max_left n 1
      simp only [placement, arrayStride]
      omega

/-! ## The draft of a layout -/

namespace ParamLayout

structure Draft.Follows (s : Draft) (ds : List UniformDecl) : Prop where
  listed : s.fields.map ParamField.parameter = parameters ds
  placed : (∀ f ∈ s.fields, f.arrayLength ≠ some 0) →
    Placed 0 (s.fields.map ParamField.member) (s.fields.map (·.offset)) s.cursor
  apart : s.fields.Pairwise fun f g => f.stop ≤ g.offset
  within : ∀ f ∈ s.fields, f.stop ≤ s.cursor

theorem follows_nil : Draft.Follows ⟨[], 0⟩ [] where
  listed := rfl
  placed := fun _ => .nil 0
  apart := .nil
  within := fun _ hf => absurd hf List.not_mem_nil

namespace Draft.Follows

variable {s : Draft} {ds : List UniformDecl} {d : UniformDecl}

/-- A draft has a member of a name exactly if a declaration before makes one. -/
theorem any_name (h : s.Follows ds) (d : UniformDecl) :
    s.fields.any (·.name == d.name) = !isFirst ds d := by
  rw [Bool.eq_iff_iff, Bool.not_eq_true', isFirst_eq_false, ← mem_parameters_name, ← h.listed]
  simp [ParamField.parameter]

theorem skip (h : s.Follows ds) (hnone : (if isFirst ds d then parameter? d else none) = none) :
    s.Follows (ds ++ [d]) where
  listed := by rw [parameters_concat, hnone, h.listed, Option.toList_none, List.append_nil]
  placed := h.placed
  apart := h.apart
  within := h.within

/-- A new member begins at the next multiple of its alignment and ends where the cursor goes. -/
theorem push (h : s.Follows ds) {f : ParamField}
    (hfirst : (if isFirst ds d then parameter? d else none) = some f.parameter)
    (hoffset : f.offset = alignUp s.cursor (placement f.kind f.arrayLength).1) :
    Follows ⟨s.fields ++ [f], f.offset + (placement f.kind f.arrayLength).2⟩ (ds ++ [d]) := by
  have hnext : IsNext s.cursor (placement f.kind f.arrayLength).1 f.offset :=
    hoffset ▸ isNext_roundUp (placement_pos f.kind f.arrayLength) s.cursor
  constructor
  · rw [List.map_append, h.listed, parameters_concat, hfirst]
    rfl
  · intro hlengths
    rw [List.map_append, List.map_append]
    have hold := h.placed fun g hg => hlengths g (List.mem_append_left _ hg)
    have hnew : f.arrayLength ≠ some 0 := hlengths f (by simp)
    exact hold.concat (takes_placement hnew) hnext
  -- all fields before end at the cursor, and the new one begins no earlier
  · refine List.pairwise_append.mpr ⟨h.apart, List.pairwise_singleton _ f, ?_⟩
    intro g hg k hk
    obtain rfl := List.mem_singleton.mp hk
    exact Nat.le_trans (h.within g hg) hnext.le
  · intro g hg
    have hstop := stop_le f
    rcases List.mem_append.mp hg with hg | hg
    · have hold := h.within g hg
      have hle := hnext.le
      change g.stop ≤ f.offset + (placement f.kind f.arrayLength).2
      omega
    · obtain rfl := List.mem_singleton.mp hg
      exact hstop

theorem add (h : s.Follows ds) (d : UniformDecl) : (s.add d).Follows (ds ++ [d]) := by
  rw [Draft.add, h.any_name d]
  cases hcontract : Uniforms.isContract d.name with
  | true =>
      have hnone : parameter? d = none := by rw [parameter?, if_pos hcontract]
      exact h.skip (by simp [hnone])
  | false =>
      cases hfirst : isFirst ds d with
      | false => exact h.skip (by simp [hfirst])
      | true =>
          cases hkind : ParamKind.ofType? d.type with
          | none =>
              have hnone : parameter? d = none := by simp [parameter?, hkind]
              exact h.skip (by simp [hnone])
          | some kind =>
              have hsome : parameter? d = some (d.name, kind, d.arrayLength) := by
                simp [parameter?, hcontract, hkind]
              exact h.push (by rw [hfirst, hsome]; rfl) rfl

end Draft.Follows

theorem follows_foldl (ds : List UniformDecl) : (ds.foldl Draft.add ⟨[], 0⟩).Follows ds := by
  induction ds using List.reverseRecOn with
  | nil => exact follows_nil
  | append_singleton ds d ih =>
      rw [List.foldl_append]
      exact ih.add d

/-! ## The size of the block -/

theorem isNext_size (cursor : Nat) : IsNext (max cursor 1) 16 (max (alignUp cursor 16) 16) := by
  have hnext : IsNext cursor 16 (alignUp cursor 16) := isNext_roundUp (by decide) cursor
  rcases Nat.eq_zero_or_pos cursor with rfl | hpos
  · refine ⟨by decide, ?_⟩
    rintro n ⟨hn, hdvd⟩
    exact Nat.le_of_dvd hn hdvd
  · have hle : 16 ≤ alignUp cursor 16 :=
      Nat.le_of_dvd (Nat.lt_of_lt_of_le hpos hnext.le) hnext.dvd
    rw [Nat.max_eq_left hpos, Nat.max_eq_left hle]
    exact hnext

/-! ## Components -/

theorem components_le (kind : ParamKind) : kind.components ≤ 4 := by
  cases kind <;> decide

/-- Every component of every element lies inside its field. -/
theorem component_le_stop {f : ParamField} {element component : Nat}
    (helement : element < f.arrayLength.getD 1) (hcomponent : component < f.kind.components) :
    f.offset + element * arrayStride + component * 4 + 4 ≤ f.stop := by
  have hle := components_le f.kind
  rw [ParamField.stop]
  cases hlen : f.arrayLength with
  | none =>
      obtain rfl : element = 0 := by simpa [hlen] using helement
      simp only
      omega
  | some n =>
      have hn : element < n := by simpa [hlen] using helement
      simp only [arrayStride]
      omega

/-! ## The wrapped text -/

/-- The members that the wrapped text declares; a block has to have one. -/
def members (l : ParamLayout) : List Member :=
  if l.fields.isEmpty then [⟨"float", "_unused", none⟩] else l.fields.map ParamField.member

def block (ms : List Member) : List String :=
  "layout(std140, set = 0, binding = 4) uniform BlendpackParams \x7b" :: ms.map Member.line
    ++ ["\x7d params;"]

theorem header_eq (l : ParamLayout) :
    header l = (headerStart ++ "" :: block l.members) ++ ("" :: l.fields.map defineLine ++ [""]) := by
  have hlines : (if l.fields.isEmpty then ["    float _unused;"] else [])
      ++ l.fields.map memberLine = l.members.map Member.line := by
    cases hfields : l.fields with
    | nil => simp [members, hfields, Member.line]
    | cons f fs => simp [members, hfields, ParamField.line_member]
  rw [header, List.append_assoc headerStart, List.append_assoc headerStart, block, ← hlines]
  simp only [List.append_assoc, List.cons_append, List.nil_append]

/-- A layout is the std140 layout of the parameters that a fragment declares and of the block in
its wrapped text. -/
structure IsStd140 (l : ParamLayout) (source : String) : Prop where
  listed : l.fields.map ParamField.parameter = parameters (UniformDecl.scan source)
  printed : ∃ rest, (wrap source).text.toList =
    joinLines (headerStart ++ "" :: block l.members) ++ rest
  placed : ∃ stop, Placed 0 (l.fields.map ParamField.member) (l.fields.map (·.offset)) stop ∧
    IsNext (max stop 1) 16 l.size
  apart : l.fields.Pairwise fun f g => f.stop ≤ g.offset
  inside : ∀ f ∈ l.fields, ∀ element < f.arrayLength.getD 1, ∀ component < f.kind.components,
    f.offset + element * 16 + component * 4 + 4 ≤ min f.stop l.size
  whole : 16 ∣ l.size ∧ 16 ≤ l.size

/-- The layout for the uniforms that a fragment declares is the std140 layout of the block that the
wrapped text declares, if no array is empty. -/
theorem isStd140_ofSource (source : String)
    (hlengths : ∀ f ∈ (ofSource source).fields, f.arrayLength ≠ some 0) :
    (wrap source).layout.IsStd140 source := by
  have hfollows := follows_foldl (UniformDecl.scan source)
  have hsize := isNext_size ((UniformDecl.scan source).foldl Draft.add ⟨[], 0⟩).cursor
  constructor
  · exact hfollows.listed
  · refine ⟨joinLines ("" :: (ofSource source).fields.map defineLine ++ [""])
      ++ wrapBody source ++ joinLines footer, ?_⟩
    simp only [wrap, header_eq, joinLines, String.toList_ofList, List.flatMap_append,
      List.append_assoc]
  · exact ⟨_, hfollows.placed hlengths, hsize⟩
  · exact hfollows.apart
  · intro f hf element helement component hcomponent
    have hstop := component_le_stop helement hcomponent
    have hcursor := hfollows.within f hf
    have hle := hsize.le
    refine Nat.le_min.mpr ⟨hstop, hstop.trans (hcursor.trans ?_)⟩
    exact (Nat.le_max_left _ 1).trans hle
  · exact ⟨hsize.dvd, Nat.le_max_right _ 16⟩

/-- A fragment with an input of every shader, a name that is declared twice, and an array. -/
def mixed : String :=
  "uniform sampler2D uTexA; uniform vec3 uTint;\nuniform bool uFlip, uTint; uniform float uW[3];"

theorem isStd140_ofSource_mixed :
    ofSource mixed = ⟨[⟨"uTint", .vec3, none, 0⟩, ⟨"uFlip", .bool, none, 12⟩,
      ⟨"uW", .float, some 3, 16⟩], 64⟩ ∧ (wrap mixed).layout.IsStd140 mixed := by
  have hlayout : ofSource mixed = ⟨[⟨"uTint", .vec3, none, 0⟩, ⟨"uFlip", .bool, none, 12⟩,
      ⟨"uW", .float, some 3, 16⟩], 64⟩ := by
    decide +kernel
  refine ⟨hlayout, isStd140_ofSource mixed ?_⟩
  rw [hlayout]
  decide

/-- The shader compiler lays the members of the wrapped text where values are written. -/
theorem offsets_compiled (source : String)
    (hlengths : ∀ f ∈ (ofSource source).fields, f.arrayLength ≠ some 0)
    (rs : Glsl.Records) (rounds : Nat) :
    ∃ row, Std140.row? rs rounds ((ofSource source).fields.map ParamField.member) = some row ∧
      row.members.reverse.map (·.offset) = (ofSource source).fields.map (·.offset) := by
  have hplaced := (follows_foldl (UniformDecl.scan source)).placed hlengths
  have htakes : ∀ m ∈ (ofSource source).fields.map ParamField.member,
      ∃ align size, m.Takes align size := by
    intro m hm
    obtain ⟨f, hf, rfl⟩ := List.mem_map.mp hm
    exact ⟨_, _, takes_placement (hlengths f hf)⟩
  have hkind : ∀ m ∈ (ofSource source).fields.map ParamField.member,
      (Glsl.Ty.ofName? m.typeName).bind Glsl.Ty.kind? ≠ some .bool := by
    intro m hm
    obtain ⟨f, _, rfl⟩ := List.mem_map.mp hm
    obtain ⟨ty, hty, _, hbool⟩ := single_memberType f.kind
    rw [ParamField.member, hty]
    exact hbool
  obtain ⟨row, hrow, hcompiled⟩ := Std140.placed_row rs rounds htakes hkind
  exact ⟨row, hrow, (hcompiled.unique hplaced).1⟩

end ParamLayout

end Segue.Shader
