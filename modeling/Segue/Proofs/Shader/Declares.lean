import Segue.Proofs.Words
import Segue.Proofs.Shader.Rename
import Segue.Uniform

/-!
# Statements that declare uniforms

A statement declares uniforms when the keyword starts it and a type and at least one name follow.
The scan reports from exactly these statements, and renaming neither makes nor breaks one.
-/

namespace Segue.Shader

open UniformDecl (keyword precisions)

/-- The words of a declaration, and those among them that hold its names: a precision or none and a
type come before. -/
inductive TypeAndNames : List (List Char) → List (List Char) → Prop
  | plain {type : List Char} {names : List (List Char)} : type ∉ precisions →
      TypeAndNames (type :: names) names
  | precise {precision type : List Char} {names : List (List Char)} : precision ∈ precisions →
      TypeAndNames (precision :: type :: names) names

/-- A statement that declares a uniform: commas alone are no name. -/
def Declares (s : List Char) : Prop :=
  ∃ before rest names, Text.Blank before ∧ s = before ++ keyword ++ rest ∧
    TypeAndNames (Text.words rest) names ∧ ∃ w ∈ names, ∃ c ∈ w, c ≠ ','

/-! ## What the scan reports from -/

theorem typeAndNames_iff {ws names : List (List Char)} :
    TypeAndNames ws names ↔ ∃ type, UniformDecl.typeAndNames? ws = some (type, names) := by
  constructor
  · intro h
    cases h with
    | @plain type _ htype => exact ⟨type, by simp [UniformDecl.typeAndNames?, htype]⟩
    | @precise precision type _ hprecision =>
        exact ⟨type, by simp [UniformDecl.typeAndNames?, hprecision]⟩
  · rintro ⟨type, h⟩
    cases ws with
    | nil => exact absurd h (by simp [UniformDecl.typeAndNames?])
    | cons w ws =>
        rw [UniformDecl.typeAndNames?.eq_def] at h
        simp only [List.contains_iff_mem] at h
        split at h
        · rename_i hw
          cases ws with
          | nil => exact absurd h (by simp)
          | cons t names =>
              obtain ⟨-, rfl⟩ := Prod.mk.inj (Option.some.inj h)
              exact .precise hw
        · rename_i hw
          obtain ⟨-, rfl⟩ := Prod.mk.inj (Option.some.inj h)
          exact .plain hw

theorem mem_intercalate {c sep : Char} (hc : c ≠ sep) {ws : List (List Char)} :
    c ∈ [sep].intercalate ws ↔ ∃ w ∈ ws, c ∈ w := by
  induction ws with
  | nil => simp
  | cons w ws ih =>
      cases ws with
      | nil => simp
      | cons v ws =>
          rw [List.intercalate_cons_cons, List.append_assoc, List.mem_append, List.mem_append,
            List.mem_singleton, or_iff_right hc, ih]
          simp

/-- Names are there when a word holds more than commas. -/
theorem exists_name_iff {names : List (List Char)}
    (hnames : ∀ w ∈ names, ∀ c ∈ w, Text.isBlank c = false) :
    (∃ p ∈ Text.splitChars (· = ',') ([' '].intercalate names), Text.trimChars p ≠ []) ↔
      ∃ w ∈ names, ∃ c ∈ w, c ≠ ',' := by
  have hspace : ∀ c, Text.isBlank c = false → c ≠ ' ' := by
    rintro c hc rfl
    exact absurd hc (by decide)
  constructor
  · rintro ⟨p, hp, hne⟩
    obtain ⟨c, hc, hblank⟩ : ∃ c ∈ p, Text.isBlank c = false := by
      by_contra hall
      push Not at hall
      exact hne (Text.trimChars_eq_nil.mpr fun c hc => by simpa using hall c hc)
    have hcomma : c ≠ ',' := fun h => Text.not_mem_of_mem_splitChars hp (h ▸ hc)
    have hjoined := (Text.exists_mem_splitChars hcomma).mp ⟨p, hp, hc⟩
    obtain ⟨w, hw, hcw⟩ := (mem_intercalate (hspace c hblank)).mp hjoined
    exact ⟨w, hw, c, hcw, hcomma⟩
  · rintro ⟨w, hw, c, hc, hcomma⟩
    have hblank := hnames w hw c hc
    have hjoined := (mem_intercalate (hspace c hblank)).mpr ⟨w, hw, hc⟩
    obtain ⟨p, hp, hcp⟩ := (Text.exists_mem_splitChars hcomma).mpr hjoined
    refine ⟨p, hp, fun h => ?_⟩
    rw [Text.trimChars_eq_nil.mp h c hcp] at hblank
    exact absurd hblank (by simp)

theorem TypeAndNames.subset {ws names : List (List Char)} (h : TypeAndNames ws names) :
    ∀ w ∈ names, w ∈ ws := by
  intro w hw
  cases h with
  | plain _ => exact List.mem_cons_of_mem _ hw
  | precise _ => exact List.mem_cons_of_mem _ (List.mem_cons_of_mem _ hw)

@[simp] theorem dropStart?_keyword {s rest : List Char} :
    Text.dropStart? keyword s = some rest ↔ s = keyword ++ rest :=
  ⟨Text.eq_append_of_dropStart?, fun h => h ▸ Text.dropStart?_append keyword rest⟩

theorem ofStatement_ne_nil_iff (i : ℕ) (s : List Char) :
    UniformDecl.ofStatement i s ≠ [] ↔
      ∃ rest names, s = keyword ++ rest ∧ TypeAndNames (Text.words rest) names ∧
        ∃ w ∈ names, ∃ c ∈ w, c ≠ ',' := by
  have hnames : ∀ {rest names}, TypeAndNames (Text.words rest) names →
      ∀ w ∈ names, ∀ c ∈ w, Text.isBlank c = false :=
    fun h w hw => Text.not_blank_of_mem_words (h.subset w hw)
  constructor
  · intro h
    rw [UniformDecl.ofStatement] at h
    split at h
    · exact absurd rfl h
    · rename_i rest hrest
      split at h
      · exact absurd rfl h
      · rename_i type names htype
        have hwords := typeAndNames_iff.mpr ⟨type, htype⟩
        refine ⟨rest, names, dropStart?_keyword.mp hrest, hwords, ?_⟩
        rw [← exists_name_iff (hnames hwords)]
        by_contra hnone
        push Not at hnone
        exact h (by simpa using hnone)
  · rintro ⟨rest, names, hs, hwords, hname⟩
    obtain ⟨type, htype⟩ := typeAndNames_iff.mp hwords
    obtain ⟨p, hp, hne⟩ := (exists_name_iff (hnames hwords)).mpr hname
    rw [UniformDecl.ofStatement, dropStart?_keyword.mpr hs]
    simp only [htype]
    intro hnil
    have hnone : ∀ p ∈ Text.splitChars (· = ',') ([' '].intercalate names),
        Text.trimChars p = [] := by simpa using hnil
    exact hne (hnone p hp)

theorem trimChars_keyword {rest : List Char} (h : Text.words rest ≠ []) :
    Text.trimChars (keyword ++ rest) = keyword ++ Text.trimRight rest := by
  obtain ⟨after, hafter, hrest⟩ := Text.exists_trimRight rest
  have hne : Text.trimRight rest ≠ [] := by
    intro hnil
    rw [hnil, List.nil_append] at hrest
    rw [hrest] at h
    exact h (Text.words_append_blanks hafter [])
  have hlast : ∀ d ∈ (keyword ++ Text.trimRight rest).getLast?, Text.isBlank d = false := by
    rw [List.getLast?_append_of_ne_nil _ hne]
    exact Text.getLast?_trimRight rest
  conv_lhs => rw [hrest, ← List.append_assoc, Text.trimChars_append hafter]
  exact Text.trimChars_eq_self (by decide) hlast

/-- The scan reports from a statement when it declares a uniform. -/
theorem declares_iff (i : ℕ) (s : List Char) :
    UniformDecl.ofStatement i (Text.trimChars s) ≠ [] ↔ Declares s := by
  rw [ofStatement_ne_nil_iff]
  constructor
  · rintro ⟨rest, names, hs, hwords, hname⟩
    obtain ⟨before, after, hbefore, hafter, htrim⟩ := Text.exists_trimChars s
    refine ⟨before, rest ++ after, names, hbefore, ?_, ?_, hname⟩
    · rw [htrim, hs, List.append_assoc, List.append_assoc, List.append_assoc]
    · rwa [Text.words_append_blanks hafter]
  · rintro ⟨before, rest, names, hbefore, hs, hwords, hname⟩
    obtain ⟨after, hafter, hrest⟩ := Text.exists_trimRight rest
    refine ⟨Text.trimRight rest, names, ?_, ?_, hname⟩
    · have hne : Text.words rest ≠ [] := by
        rintro hnil
        rw [hnil] at hwords
        cases hwords
      have hblanks := Text.trimChars_blanks hbefore Text.blank_nil (keyword ++ rest)
      rw [List.append_nil, ← List.append_assoc, ← hs] at hblanks
      rw [hblanks, trimChars_keyword hne]
    · rwa [hrest, Text.words_append_blanks hafter] at hwords

/-! ## Renamed statements -/

theorem toNat_of_isIdentChar {c : Char} (h : isIdentChar c = true) :
    65 ≤ c.toNat ∧ c.toNat ≤ 90 ∨ 97 ≤ c.toNat ∧ c.toNat ≤ 122 ∨ 48 ≤ c.toNat ∧ c.toNat ≤ 57 ∨
      c.toNat = 95 := by
  simp only [isIdentChar, Char.isAlphanum, Char.isAlpha, Char.isUpper, Char.isLower, Char.isDigit,
    Bool.or_eq_true, Bool.and_eq_true, decide_eq_true_eq, UInt32.le_iff_toNat_le] at h
  rcases h with ((h | h) | h) | rfl
  · exact .inl h
  · exact .inr (.inl h)
  · exact .inr (.inr (.inl h))
  · exact .inr (.inr (.inr rfl))

theorem isIdentChar_of_blank {c : Char} (h : Text.isBlank c = true) : isIdentChar c = false := by
  cases hc : isIdentChar c with
  | false => rfl
  | true =>
      have hletter := toNat_of_isIdentChar hc
      simp only [Text.isBlank, Text.blankRanges, List.any_cons, List.any_nil, Bool.or_eq_true,
        Bool.and_eq_true, decide_eq_true_eq, Bool.or_false] at h
      omega

theorem ends_of_startsBlank {t : List Char} (h : Text.StartsBlank t) : Ends t :=
  fun c hc => isIdentChar_of_blank (h c hc)

theorem renameAll_blanks {before : List Char} (h : Text.Blank before) (t : List Char) :
    renameAll (before ++ t) = before ++ renameAll t := by
  induction before with
  | nil => rfl
  | cons c cs ih =>
      rw [List.cons_append, renameAll_other (isIdentChar_of_blank (h c List.mem_cons_self)),
        ih fun d hd => h d (List.mem_cons_of_mem c hd), List.cons_append]

theorem exists_of_renameAll_blanks {before cs u : List Char} (h : Text.Blank before)
    (hcs : renameAll cs = before ++ u) : ∃ t, cs = before ++ t ∧ renameAll t = u := by
  induction before generalizing cs with
  | nil => exact ⟨cs, rfl, hcs⟩
  | cons c before ih =>
      obtain ⟨t, rfl, ht⟩ :=
        exists_of_renameAll_cons (isIdentChar_of_blank (h c List.mem_cons_self)) hcs
      obtain ⟨u', rfl, hu'⟩ := ih (fun d hd => h d (List.mem_cons_of_mem c hd)) ht
      exact ⟨u', rfl, hu'⟩

@[simp] theorem words_renameAll (cs : List Char) :
    Text.words (renameAll cs) = (Text.words cs).map renameAll := by
  induction cs using Text.blanks_induction with
  | nil => rfl
  | blank c t hc ih =>
      rw [renameAll_other (isIdentChar_of_blank hc), Text.words_cons hc, Text.words_cons hc, ih]
  | word w t hne hw ht ih =>
      -- renaming can make new letters only, so that the word stays free of blanks
      have hrenamed : ∀ c ∈ renameAll w, Text.isBlank c = false := by
        intro c hc
        cases hblank : Text.isBlank c with
        | false => rfl
        | true =>
            have hmem := (mem_renameAll (isIdentChar_of_blank hblank)).mp hc
            rw [hw c hmem] at hblank
            exact absurd hblank Bool.false_ne_true
      have hstart : Text.StartsBlank (renameAll t) := by
        cases t with
        | nil => exact ht
        | cons c t =>
            rw [renameAll_other (isIdentChar_of_blank (ht c rfl))]
            exact ht
      rw [renameAll_append (ends_of_startsBlank ht),
        Text.words_append (fun h => hne (eq_nil_of_renameAll h)) hrenamed hstart,
        Text.words_append hne hw ht, ih, List.map_cons]

@[simp]
theorem renameAll_mem_precisions {w : List Char} : renameAll w ∈ precisions ↔ w ∈ precisions := by
  have hfixed : ∀ v ∈ precisions, IsWord v ∧ v ∉ oldNames ∧ v ∉ newNames := by decide
  constructor
  · intro h
    obtain ⟨hword, hold, hnew⟩ := hfixed _ h
    have hw : w = renameAll w := (renameAll_eq_word hword hold hnew).mp rfl
    rwa [hw]
  · intro h
    obtain ⟨hword, hold, hnew⟩ := hfixed w h
    rwa [(renameAll_eq_word hword hold hnew).mpr rfl]

theorem typeAndNames_map {ws names' : List (List Char)} :
    TypeAndNames (ws.map renameAll) names' ↔
      ∃ names, TypeAndNames ws names ∧ names' = names.map renameAll := by
  constructor
  · intro h
    cases ws with
    | nil => cases h
    | cons w ws =>
        rw [List.map_cons] at h
        generalize hws : ws.map renameAll = ws' at h
        cases h with
        | plain htype =>
            exact ⟨ws, .plain fun h => htype (renameAll_mem_precisions.mpr h), hws.symm⟩
        | precise hprecision =>
            obtain ⟨type, names, rfl, -, hnames⟩ := List.map_eq_cons_iff.mp hws
            exact ⟨names, .precise (renameAll_mem_precisions.mp hprecision), hnames.symm⟩
  · rintro ⟨names, h, rfl⟩
    cases h with
    | plain htype => exact .plain fun h => htype (renameAll_mem_precisions.mp h)
    | precise hprecision => exact .precise (renameAll_mem_precisions.mpr hprecision)

theorem exists_not_comma_renameAll {w : List Char} :
    (∃ c ∈ renameAll w, c ≠ ',') ↔ ∃ c ∈ w, c ≠ ',' := by
  have hword : ∀ v, IsWord v → ∃ c ∈ v, c ≠ ',' := by
    intro v hv
    obtain ⟨c, v, rfl⟩ := List.exists_cons_of_ne_nil hv.ne_nil
    refine ⟨c, List.mem_cons_self, ?_⟩
    rintro rfl
    exact absurd (hv.ident ',' List.mem_cons_self) (by decide)
  induction w using words_induction with
  | nil => rfl
  | other c t hc ih =>
      rw [renameAll_other hc, List.exists_mem_cons_iff, List.exists_mem_cons_iff]
      exact or_congr_right ih
  | word w t hw ht _ =>
      obtain ⟨c, hc, hcomma⟩ := hword w hw
      obtain ⟨d, hd, hcomma'⟩ := hword _ (isWord_newName hw)
      rw [renameAll_word hw ht]
      exact ⟨fun _ => ⟨c, List.mem_append_left _ hc, hcomma⟩,
        fun _ => ⟨d, List.mem_append_left _ hd, hcomma'⟩⟩

theorem isWord_uniform : IsWord "uniform".toList := by decide

theorem keyword_append (rest : List Char) : keyword ++ rest = "uniform".toList ++ ' ' :: rest := rfl

@[simp] theorem renameAll_keyword (rest : List Char) :
    renameAll (keyword ++ rest) = keyword ++ renameAll rest := by
  have hspace : isIdentChar ' ' = false := by decide
  have hself : newName "uniform".toList = "uniform".toList := by decide
  rw [keyword_append, renameAll_word isWord_uniform (ends_cons hspace), hself,
    renameAll_other hspace, keyword_append]

theorem exists_of_renameAll_keyword {cs u : List Char} (h : renameAll cs = keyword ++ u) :
    ∃ t, cs = keyword ++ t ∧ renameAll t = u := by
  have hspace : isIdentChar ' ' = false := by decide
  rw [keyword_append] at h
  obtain ⟨t, rfl, ht⟩ := exists_of_renameAll_word isWord_uniform (by decide) (ends_cons hspace) h
  obtain ⟨v, rfl, hv⟩ := exists_of_renameAll_cons hspace ht
  exact ⟨v, rfl, hv⟩

/-- Renaming neither makes nor breaks a declaration. -/
@[simp] theorem declares_renameAll {s : List Char} : Declares (renameAll s) ↔ Declares s := by
  constructor
  · rintro ⟨before, rest', names', hbefore, hs, hwords, w', hw', hname⟩
    rw [List.append_assoc] at hs
    obtain ⟨t, rfl, ht⟩ := exists_of_renameAll_blanks hbefore hs
    obtain ⟨rest, rfl, rfl⟩ := exists_of_renameAll_keyword ht
    rw [words_renameAll] at hwords
    obtain ⟨names, hnames, rfl⟩ := typeAndNames_map.mp hwords
    obtain ⟨w, hw, rfl⟩ := List.mem_map.mp hw'
    refine ⟨before, rest, names, hbefore, ?_, hnames, w, hw, exists_not_comma_renameAll.mp hname⟩
    rw [List.append_assoc]
  · rintro ⟨before, rest, names, hbefore, rfl, hwords, w, hw, hname⟩
    refine ⟨before, renameAll rest, names.map renameAll, hbefore, ?_, ?_, renameAll w,
      List.mem_map_of_mem hw, exists_not_comma_renameAll.mpr hname⟩
    · rw [List.append_assoc, renameAll_blanks hbefore, renameAll_keyword, List.append_assoc]
    · rw [words_renameAll]
      exact typeAndNames_map.mpr ⟨names, hwords, rfl⟩

end Segue.Shader
