import Mathlib
import Segue.Path
import Segue.Proofs.Text

/-!
# Where a path leads

The dots of a path are taken out by its text alone. What is joined to a directory then lies inside
of it whatever the directory is, or it leaves some of them.
-/

namespace Segue

namespace Text

variable {sep : Char}

theorem infix_of_mem_splitChars {cs p : List Char} (h : p ∈ splitChars (· = sep) cs) :
    p <:+: cs := by
  obtain ⟨pieces, left, rfl, hpieces, hleft⟩ := exists_ended sep cs
  rw [splitChars_ended hpieces hleft, List.mem_append, List.mem_singleton] at h
  rcases h with h | rfl
  · obtain ⟨before, after, rfl⟩ := List.append_of_mem h
    refine ⟨ended sep before, sep :: ended sep after ++ left, ?_⟩
    rw [ended_append, ended_cons]
    simp only [List.append_assoc, List.cons_append]
  · exact (List.suffix_append _ _).isInfix

end Text

namespace Path

/-! ## Names -/

def names (cs : List Char) : List String :=
  ((Text.splitChars (· = '/') cs).map String.ofList).filter fun c => c ≠ "" && c ≠ "."

@[simp]
theorem names_append_slash (a b : List Char) : names (a ++ '/' :: b) = names a ++ names b := by
  rw [names, Text.splitChars_append_cons, List.map_append, List.filter_append, names, names]

@[simp] theorem names_nil : names [] = [] := rfl

theorem isAbsolute_iff {p : String} : isAbsolute p = true ↔ ∃ cs, p.toList = '/' :: cs := by
  rw [isAbsolute, String.startsWith_string_iff]
  exact ⟨fun ⟨cs, h⟩ => ⟨cs, h.symm⟩, fun ⟨cs, h⟩ => ⟨cs, h.symm⟩⟩

theorem endsWith_slash_iff {p : String} : p.endsWith "/" = true ↔ ∃ cs, p.toList = cs ++ ['/'] := by
  have hends : p.endsWith "/" = p.toSlice.endsWith "/" := rfl
  rw [hends, String.Slice.endsWith_string_iff, String.copy_toSlice]
  exact ⟨fun ⟨cs, h⟩ => ⟨cs, h.symm⟩, fun ⟨cs, h⟩ => ⟨cs, h.symm⟩⟩

/-- A relative path below a directory: both texts with a slash between them, as far as names go. -/
theorem toList_join {rest : String} (h : isAbsolute rest = false) (base : String) :
    (base = "" ∧ join base rest = rest) ∨
      (∃ cs, base.toList = cs ++ ['/'] ∧ (join base rest).toList = cs ++ '/' :: rest.toList) ∨
      (base ≠ "" ∧ (join base rest).toList = base.toList ++ '/' :: rest.toList) := by
  have hjoin : join base rest =
      if base.isEmpty || base.endsWith "/" then base ++ rest else base ++ "/" ++ rest :=
    if_neg (by rw [← isAbsolute, h]; decide)
  rw [hjoin]
  by_cases hempty : base = ""
  · subst hempty
    exact .inl ⟨rfl, (if_pos (by decide)).trans String.empty_append⟩
  · by_cases hslash : base.endsWith "/" = true
    · obtain ⟨cs, hcs⟩ := endsWith_slash_iff.mp hslash
      refine .inr (.inl ⟨cs, hcs, ?_⟩)
      rw [if_pos (by rw [hslash, Bool.or_true]), String.toList_append, hcs, List.append_assoc]
      rfl
    · have hne : base.isEmpty = false := by
        rw [Bool.eq_false_iff]
        exact fun h => hempty (String.isEmpty_iff.mp h)
      refine .inr (.inr ⟨hempty, ?_⟩)
      rw [if_neg (by rw [hne, Bool.false_or]; exact hslash), String.toList_append,
        String.toList_append, List.append_assoc]
      rfl

theorem join_inj {a b : String} (ha : isAbsolute a = false) (hb : isAbsolute b = false)
    {base : String} : join base a = join base b ↔ a = b := by
  refine ⟨fun h => String.toList_inj.mp ?_, fun h => h ▸ rfl⟩
  have hchars := congrArg String.toList h
  rw [isAbsolute] at ha hb
  rw [join, join, ha, hb, if_neg Bool.false_ne_true, if_neg Bool.false_ne_true] at hchars
  split at hchars
  · simpa only [String.toList_append, List.append_cancel_left_eq] using hchars
  · simpa only [String.toList_append, List.append_cancel_left_eq] using hchars

theorem components_join {rest : String} (h : isAbsolute rest = false) (base : String) :
    components (join base rest) = components base ++ components rest := by
  change names _ = names _ ++ names _
  rcases toList_join h base with ⟨rfl, hjoin⟩ | ⟨cs, hbase, hjoin⟩ | ⟨-, hjoin⟩
  · rw [hjoin]
    rfl
  · rw [hjoin, hbase, names_append_slash, names_append_slash, names_nil, List.append_nil]
  · rw [hjoin, names_append_slash]

theorem isAbsolute_join {rest : String} (h : isAbsolute rest = false) (base : String) :
    isAbsolute (join base rest) = isAbsolute base := by
  rw [Bool.eq_iff_iff, isAbsolute_iff, isAbsolute_iff]
  rcases toList_join h base with ⟨rfl, hjoin⟩ | ⟨cs, hbase, hjoin⟩ | ⟨hne, hjoin⟩
  · rw [hjoin, ← isAbsolute_iff, h]
    exact iff_of_false (by decide) fun ⟨cs, hcs⟩ => by cases hcs
  · rw [hjoin, hbase]
    cases cs with
    | nil => exact iff_of_true ⟨_, rfl⟩ ⟨_, rfl⟩
    | cons c cs => simp
  · rw [hjoin]
    cases hbase : base.toList with
    | nil => exact absurd (String.toList_inj.mp hbase) hne
    | cons c cs => simp

/-! ## Taking out the dots -/

/-- Goes on by one name. Two dots lead to the directory above; there is none above the root, and
where a relative path begins is not known. -/
def climb (absolute : Bool) (place : List String) (name : String) : List String :=
  if name = ".." then
    match place.getLast? with
    | none => if absolute then [] else [".."]
    | some last => if last = ".." then place ++ [".."] else place.dropLast
  else place ++ [name]

/-- The names of a path without dots. -/
def lexical (p : String) : List String := (components p).foldl (climb (isAbsolute p)) []

/-- A path leads to a directory, or to something below it. -/
structure Inside (root p : String) : Prop where
  absolute : isAbsolute p = isAbsolute root
  below : ∃ rest, lexical p = lexical root ++ rest ∧ ".." ∉ rest

theorem inside_iff {root p : String} : Inside root p ↔ isAbsolute p = isAbsolute root ∧
    lexical root <+: lexical p ∧ ".." ∉ (lexical p).drop (lexical root).length := by
  constructor
  · rintro ⟨habs, rest, hrest, hdots⟩
    refine ⟨habs, ⟨rest, hrest.symm⟩, ?_⟩
    rwa [hrest, List.drop_left]
  · rintro ⟨habs, ⟨rest, hrest⟩, hdots⟩
    refine ⟨habs, rest, hrest.symm, ?_⟩
    rwa [← hrest, List.drop_left] at hdots

instance (root p : String) : Decidable (Inside root p) := decidable_of_iff _ inside_iff.symm

/-- Names that never lead above a directory which they begin `depth` levels below. -/
def staysWithin : Nat → List String → Bool
  | _, [] => true
  | depth, name :: rest =>
    if name = ".." then
      match depth with
      | 0 => false
      | depth + 1 => staysWithin depth rest
    else staysWithin (depth + 1) rest

/-- A relative path in which two dots never outnumber the names before them. -/
def stays (p : String) : Bool := !isAbsolute p && staysWithin 0 (components p)

theorem stays_iff {p : String} :
    stays p = true ↔ isAbsolute p = false ∧ staysWithin 0 (components p) = true := by
  rw [stays, Bool.and_eq_true, Bool.not_eq_true']

variable {absolute : Bool} {name : String} {place below ns : List String}

@[simp] theorem staysWithin_succ_dots (depth : Nat) (ns : List String) :
    staysWithin (depth + 1) (".." :: ns) = staysWithin depth ns := rfl

theorem staysWithin_name (h : name ≠ "..") (depth : Nat) (ns : List String) :
    staysWithin depth (name :: ns) = staysWithin (depth + 1) ns := by
  cases depth <;> exact if_neg h

theorem climb_of_ne (h : name ≠ "..") : climb absolute place name = place ++ [name] := if_neg h

theorem climb_dots (h : name ≠ "..") : climb absolute (place ++ [name]) ".." = place := by
  rw [climb, if_pos rfl, List.getLast?_concat]
  dsimp only
  rw [if_neg h, List.dropLast_concat]

/-- Names that stay below a place stay below it wherever it is. -/
theorem exists_foldl_climb (h : staysWithin below.length ns = true) (hbelow : ".." ∉ below) :
    ∃ rest, ns.foldl (climb absolute) (place ++ below) = place ++ rest ∧ ".." ∉ rest := by
  induction ns generalizing below with
  | nil => exact ⟨below, rfl, hbelow⟩
  | cons name ns ih =>
      rw [List.foldl_cons]
      by_cases hname : name = ".."
      · subst hname
        cases below using List.reverseRecOn with
        | nil => cases h
        | append_singleton below last =>
            have hlast : last ≠ ".." := fun heq => hbelow (by rw [heq]; exact List.mem_concat_self)
            rw [List.length_append, List.length_singleton, staysWithin_succ_dots] at h
            rw [← List.append_assoc, climb_dots hlast]
            exact ih h fun hmem => hbelow (List.mem_append_left _ hmem)
      · rw [staysWithin_name hname] at h
        rw [climb_of_ne hname, List.append_assoc]
        refine ih (by rwa [List.length_append, List.length_singleton]) fun hmem => ?_
        rcases List.mem_append.mp hmem with hmem | hmem
        · exact hbelow hmem
        · exact hname (List.mem_singleton.mp hmem).symm

theorem lexical_join {rest : String} (h : isAbsolute rest = false) (base : String) :
    lexical (join base rest) = (components rest).foldl (climb (isAbsolute base)) (lexical base) := by
  rw [lexical, components_join h, isAbsolute_join h, List.foldl_append, lexical]

theorem inside_join {sub : String} (h : stays sub = true) (root : String) :
    Inside root (join root sub) := by
  obtain ⟨hrelative, hwithin⟩ := stays_iff.mp h
  refine ⟨isAbsolute_join hrelative root, ?_⟩
  have hclimb : ∃ rest, (components sub).foldl (climb (isAbsolute root)) (lexical root ++ []) =
      lexical root ++ rest ∧ ".." ∉ rest := exists_foldl_climb hwithin List.not_mem_nil
  rw [List.append_nil, ← lexical_join hrelative] at hclimb
  exact hclimb

/-- The name of a file or of a directory. -/
structure IsName (name : String) : Prop where
  relative : isAbsolute name = false
  single : components name = [name]
  plain : name ≠ ".."

theorem lexical_join_name (h : IsName name) (base : String) :
    lexical (join base name) = lexical base ++ [name] := by
  rw [lexical_join h.relative, h.single, List.foldl_cons, List.foldl_nil, climb_of_ne h.plain]

theorem Inside.join_name {root p : String} (h : Inside root p) (hname : IsName name) :
    Inside root (join p name) := by
  obtain ⟨rest, hrest, hdots⟩ := h.below
  refine ⟨(isAbsolute_join hname.relative p).trans h.absolute, rest ++ [name], ?_, fun hmem => ?_⟩
  · rw [lexical_join_name hname, hrest, List.append_assoc]
  · rcases List.mem_append.mp hmem with hmem | hmem
    · exact hdots hmem
    · exact hname.plain (List.mem_singleton.mp hmem).symm

/-! ## Leaving a directory -/

/-- A name that is gone does not come back. -/
theorem not_mem_foldl_climb {fresh : String} (hdots : fresh ≠ "..") (hns : fresh ∉ ns)
    (hplace : fresh ∉ place) : fresh ∉ ns.foldl (climb absolute) place := by
  induction ns generalizing place with
  | nil => exact hplace
  | cons name ns ih =>
      rw [List.mem_cons, not_or] at hns
      refine ih hns.2 ?_
      have hadd : ∀ n, fresh ≠ n → fresh ∉ place ++ [n] := fun n hn hmem =>
        (List.mem_append.mp hmem).elim hplace fun h => hn (List.mem_singleton.mp h)
      unfold climb
      split
      · split
        · split
          · exact List.not_mem_nil
          · exact fun h => hdots (List.mem_singleton.mp h)
        · split
          · exact hadd ".." hdots
          · exact fun h => hplace (List.mem_of_mem_dropLast h)
      · exact hadd name hns.1

/-- Names that do not stay below a directory lead out of it, if no other one has its name. -/
theorem not_mem_of_not_staysWithin {fresh : String} (hdots : fresh ≠ "..") (hns : fresh ∉ ns)
    (hbelow : fresh ∉ below) (hplain : ".." ∉ below) (h : staysWithin below.length ns = false) :
    fresh ∉ ns.foldl (climb absolute) ([fresh] ++ below) := by
  induction ns generalizing below with
  | nil => cases h
  | cons name ns ih =>
      rw [List.mem_cons, not_or] at hns
      rw [List.foldl_cons]
      by_cases hname : name = ".."
      · subst hname
        cases below using List.reverseRecOn with
        | nil =>
            rw [List.append_nil, ← List.nil_append [fresh], climb_dots hdots]
            exact not_mem_foldl_climb hdots hns.2 List.not_mem_nil
        | append_singleton below last =>
            have hlast : last ≠ ".." := fun heq => hplain (by rw [heq]; exact List.mem_concat_self)
            rw [List.length_append, List.length_singleton, staysWithin_succ_dots] at h
            rw [← List.append_assoc, climb_dots hlast]
            exact ih hns.2 (fun hmem => hbelow (List.mem_append_left _ hmem))
              (fun hmem => hplain (List.mem_append_left _ hmem)) h
      · rw [staysWithin_name hname] at h
        rw [climb_of_ne hname, List.append_assoc]
        refine ih hns.2 (fun hmem => ?_) (fun hmem => ?_)
          (by rwa [List.length_append, List.length_singleton])
        · rcases List.mem_append.mp hmem with hmem | hmem
          · exact hbelow hmem
          · exact hns.1 (List.mem_singleton.mp hmem)
        · rcases List.mem_append.mp hmem with hmem | hmem
          · exact hplain hmem
          · exact hname (List.mem_singleton.mp hmem).symm

theorem infix_of_mem_components {p : String} (h : name ∈ components p) :
    name.toList <:+: p.toList := by
  obtain ⟨hmem, -⟩ := List.mem_filter.mp h
  obtain ⟨cs, hcs, rfl⟩ := List.mem_map.mp hmem
  rw [String.toList_ofList]
  exact Text.infix_of_mem_splitChars hcs

theorem isName_of_not_mem (hempty : name ≠ "") (hdot : name ≠ ".") (hdots : name ≠ "..")
    (hslash : '/' ∉ name.toList) : IsName name where
  relative := by
    rw [Bool.eq_false_iff]
    intro habs
    obtain ⟨cs, hcs⟩ := isAbsolute_iff.mp habs
    exact hslash (hcs ▸ List.mem_cons_self)
  single := by
    have hnone : ∀ p ∈ ([] : List (List Char)), '/' ∉ p := fun _ h => (List.not_mem_nil h).elim
    have hsplit : Text.splitChars (· = '/') name.toList = [name.toList] :=
      Text.splitChars_ended hnone hslash
    rw [components, pieces, hsplit, List.map_singleton, String.ofList_toList]
    exact List.filter_cons_of_pos (by simp [hempty, hdot])
  plain := hdots

theorem exists_fresh (p : String) :
    ∃ fresh, IsName fresh ∧ fresh.toList.head? = some 'x' ∧ fresh ∉ components p := by
  obtain ⟨fresh, hchars⟩ : ∃ fresh : String,
      fresh.toList = List.replicate (p.toList.length + 3) 'x' :=
    ⟨_, String.toList_ofList⟩
  have hlength : fresh.toList.length = p.toList.length + 3 := by
    rw [hchars, List.length_replicate]
  have hlong : ∀ s : String, s.toList.length ≤ p.toList.length + 2 → fresh ≠ s := by
    rintro s hs rfl
    omega
  refine ⟨fresh, isName_of_not_mem (hlong "" ?_) (hlong "." ?_) (hlong ".." ?_) ?_, ?_, ?_⟩
  · exact Nat.zero_le _
  · exact Nat.le_add_left 1 _
  · exact Nat.le_add_left 2 _
  · rw [hchars]
    exact fun hmem => absurd (List.eq_of_mem_replicate hmem) (by decide)
  · rw [hchars]
    rfl
  · intro hmem
    have hle := (infix_of_mem_components hmem).length_le
    omega

theorem lexical_name (h : IsName name) : lexical name = [name] := by
  rw [lexical, h.single, List.foldl_cons, List.foldl_nil, climb_of_ne h.plain, List.nil_append]

theorem Inside.mem_lexical {p : String} (h : Inside name p) (hname : IsName name) :
    name ∈ lexical p := by
  obtain ⟨rest, hrest, -⟩ := h.below
  rw [hrest, lexical_name hname]
  exact List.mem_cons_self

theorem not_mem_lexical_join {fresh sub : String} (hfresh : IsName fresh)
    (hnot : fresh ∉ components sub) (hrelative : isAbsolute sub = false)
    (h : stays sub = false) : fresh ∉ lexical (join fresh sub) := by
  rw [stays, hrelative, Bool.not_false, Bool.true_and] at h
  rw [lexical_join hrelative, hfresh.relative, lexical_name hfresh, ← List.append_nil [fresh]]
  exact not_mem_of_not_staysWithin hfresh.plain hnot List.not_mem_nil List.not_mem_nil h

/-- A path that may leave a directory leaves some of them, with all that is below it. -/
theorem exists_not_inside {sub : String} (h : stays sub = false) :
    ∃ root, root ≠ "" ∧ ¬Inside root (join root sub) ∧
      ∀ name, IsName name → name.toList.head? ≠ some 'x' →
        ¬Inside root (join (join root sub) name) := by
  obtain ⟨fresh, hfresh, hhead, hnot⟩ := exists_fresh sub
  have hne : fresh ≠ "" := by
    rintro rfl
    cases hhead
  refine ⟨fresh, hne, ?_⟩
  cases hrelative : isAbsolute sub with
  | true =>
      -- no absolute path is inside of a relative one
      have hjoin : join fresh sub = sub := if_pos hrelative
      have hout : ∀ p, isAbsolute p = true → ¬Inside fresh p := fun p hp hinside => by
        have habsolute := hinside.absolute
        rw [hp, hfresh.relative] at habsolute
        cases habsolute
      rw [hjoin]
      refine ⟨hout sub hrelative, fun name hname _ => hout _ ?_⟩
      rwa [isAbsolute_join hname.relative]
  | false =>
      have hgone := not_mem_lexical_join hfresh hnot hrelative h
      refine ⟨fun hinside => hgone (hinside.mem_lexical hfresh), fun name hname hx hinside => ?_⟩
      have hmem := hinside.mem_lexical hfresh
      rw [lexical_join_name hname] at hmem
      rcases List.mem_append.mp hmem with hmem | hmem
      · exact hgone hmem
      · rw [List.mem_singleton.mp hmem] at hhead
        exact hx hhead

/-- Without two dots it is only absolute paths that leave a directory. -/
theorem stays_of_not_mem {sub : String} (h : ".." ∉ components sub) :
    stays sub = !isAbsolute sub := by
  have hwithin : ∀ (ns : List String) (depth : Nat), ".." ∉ ns → staysWithin depth ns = true := by
    intro ns
    induction ns with
    | nil => exact fun _ _ => by rw [staysWithin]
    | cons name ns ih =>
        intro depth hns
        rw [List.mem_cons, not_or] at hns
        rw [staysWithin_name (Ne.symm hns.1)]
        exact ih _ hns.2
  rw [stays, hwithin _ 0 h, Bool.and_true]

example : stays "a/../b" = true ∧ stays "a/../../a" = false ∧ stays "/a" = false := by
  decide +kernel

end Path

end Segue
