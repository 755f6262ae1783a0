import Segue.Proofs.Shader.Declares
import Segue.Proofs.Shader.Wrap

/-!
# What is scanned and what is stripped

The scan reports declarations line by line, also from what is left of a line behind its last
semicolon; stripping takes out statements with a semicolon. Both see the same statements, so that
they agree on a source unless a declaration in it goes on behind the end of its line.
-/

namespace Segue.Shader

open Text (ended linesOf splitChars trimChars)
open UniformDecl (codeOf keyword)

/-- The statements of a line, the last of which no semicolon ends. -/
def pieces (line : List Char) : List (List Char) := splitChars (· = ';') (codeOf line)

/-! ## The code of a line -/

theorem codeOf_cons {c : Char} {cs : List Char} (h : ¬ "//".toList <+: c :: cs) :
    codeOf (c :: cs) = c :: codeOf cs := by
  rw [codeOf]
  rintro rest rfl rfl
  exact h ⟨rest, rfl⟩

theorem codeOf_of_slashes {cs : List Char} (h : "//".toList <+: cs) : codeOf cs = [] := by
  obtain ⟨rest, rfl⟩ := h
  show codeOf ('/' :: '/' :: rest) = []
  rw [codeOf]

theorem codeOf_other {c : Char} (hc : c ≠ '/') (cs : List Char) :
    codeOf (c :: cs) = c :: codeOf cs := by
  refine codeOf_cons ?_
  rintro ⟨rest, h⟩
  exact hc (List.cons.inj h).1.symm

theorem codeOf_eq (cs : List Char) : codeOf cs = (splitComment cs).1 := by
  fun_induction codeOf cs with
  | case1 rest => rw [splitComment_slashes]
  | case2 c cs hslashes ih =>
      have hcons : ¬ "//".toList <+: c :: cs := by
        rintro ⟨rest, h⟩
        obtain ⟨rfl, rfl⟩ := List.cons.inj h
        exact hslashes rest rfl rfl
      rw [splitComment_cons hcons, ih]
  | case3 => rfl

theorem prefix_codeOf (cs : List Char) : codeOf cs <+: cs := by
  fun_induction codeOf cs with
  | case1 rest => exact List.nil_prefix
  | case2 c cs _ ih => exact List.cons_prefix_cons.mpr ⟨rfl, ih⟩
  | case3 => exact List.prefix_rfl

/-- Slashes do not meet across a place where the text goes on with another character. -/
theorem slashes_append {c : Char} {s t : List Char} (ht : ∀ d ∈ t.head?, d ≠ '/') :
    "//".toList <+: c :: (s ++ t) ↔ "//".toList <+: c :: s := by
  constructor
  · rintro ⟨rest, hrest⟩
    obtain ⟨rfl, hs⟩ := List.cons.inj hrest
    cases s with
    | nil =>
        obtain rfl : '/' :: rest = t := hs
        exact absurd rfl (ht '/' rfl)
    | cons d s =>
        obtain ⟨rfl, -⟩ := List.cons.inj hs
        exact ⟨s, rfl⟩
  · exact fun h => h.trans (List.prefix_append (c :: s) t)

theorem codeOf_append {t : List Char} (ht : ∀ d ∈ t.head?, d ≠ '/') (s : List Char) :
    codeOf (s ++ t) = if codeOf s = s then s ++ codeOf t else codeOf s := by
  induction s with
  | nil => rfl
  | cons c s ih =>
      by_cases hslashes : "//".toList <+: c :: s
      · have hwhole := (slashes_append ht).mpr hslashes
        rw [List.cons_append, codeOf_of_slashes hwhole, codeOf_of_slashes hslashes,
          if_neg (List.cons_ne_nil c s).symm]
      · have hwhole := mt (slashes_append ht).mp hslashes
        rw [List.cons_append, codeOf_cons hwhole, codeOf_cons hslashes, ih]
        simp only [List.cons_inj_right]
        split <;> rfl

theorem TakenApart.pieces_eq {line left comment : List Char} {statements : List (List Char)}
    (h : TakenApart line statements left comment) : pieces line = statements ++ [left] := by
  rw [pieces, codeOf_eq, h.splitComment_eq]
  exact h.splitChars_eq

/-! ## The scan of a line -/

theorem statements_eq (line : List Char) :
    UniformDecl.statements line = (pieces line).map trimChars :=
  Text.map_trimChars_splitChars (by decide) (codeOf line)

theorem ofLine_ne_nil_iff (i : ℕ) (line : List Char) :
    UniformDecl.ofLine i line ≠ [] ↔ ∃ s ∈ pieces line, Declares s := by
  rw [UniformDecl.ofLine, statements_eq, ne_eq, List.flatMap_eq_nil_iff]
  push Not
  constructor
  · rintro ⟨s, hs, hne⟩
    obtain ⟨p, hp, rfl⟩ := List.mem_map.mp hs
    exact ⟨p, hp, (declares_iff i p).mp hne⟩
  · rintro ⟨p, hp, hdeclares⟩
    exact ⟨trimChars p, List.mem_map_of_mem hp, (declares_iff i p).mpr hdeclares⟩

theorem scan_eq_nil_iff (source : String) :
    UniformDecl.scan source = [] ↔
      ∀ line ∈ linesOf source.toList, ¬ ∃ s ∈ pieces line, Declares s := by
  rw [UniformDecl.scan, List.flatMap_eq_nil_iff]
  constructor
  · intro h line hline hdeclares
    obtain ⟨i, hi, rfl⟩ := List.getElem_of_mem hline
    have hnil := h ((linesOf source.toList)[i], i) (List.mk_mem_zipIdx_iff_getElem?.mpr (by simp))
    exact (ofLine_ne_nil_iff i _).mpr hdeclares hnil
  · rintro h ⟨line, i⟩ hline
    by_contra hne
    exact h line (List.fst_mem_of_mem_zipIdx hline) ((ofLine_ne_nil_iff i line).mp hne)

@[simp] theorem trimLeft_keyword (rest : List Char) :
    Text.trimLeft (keyword ++ rest) = keyword ++ rest := List.dropWhile_cons_of_neg (by decide)

/-! ## Lines of the wrapped text -/

theorem codeOf_append_of_not_mem {w : List Char} (hw : '/' ∉ w) (t : List Char) :
    codeOf (w ++ t) = w ++ codeOf t := by
  induction w with
  | nil => rfl
  | cons c w ih =>
      have hc : c ≠ '/' := fun h => hw (h ▸ List.mem_cons_self)
      rw [List.cons_append, codeOf_other hc, ih fun h => hw (List.mem_cons_of_mem c h),
        List.cons_append]

@[simp] theorem codeOf_renameAll (line : List Char) :
    codeOf (renameAll line) = renameAll (codeOf line) := by
  have hslash : isIdentChar '/' = false := by decide
  have hword : ∀ w, IsWord w → '/' ∉ w := fun w hw h => absurd (hw.ident '/' h) (by simp [hslash])
  induction line using words_induction with
  | nil => rfl
  | other c t hc ih =>
      by_cases hslashes : "//".toList <+: c :: t
      · have hrenamed : "//".toList <+: renameAll (c :: t) := by
          obtain ⟨rest, hrest⟩ := hslashes
          obtain ⟨rfl, rfl⟩ := List.cons.inj hrest
          refine ⟨renameAll rest, ?_⟩
          show '/' :: '/' :: renameAll rest = renameAll ('/' :: '/' :: rest)
          rw [renameAll_other hslash, renameAll_other hslash]
        rw [codeOf_of_slashes hrenamed, codeOf_of_slashes hslashes]
        rfl
      · have hrenamed : ¬ "//".toList <+: c :: renameAll t := by
          rintro ⟨rest, hrest⟩
          obtain ⟨rfl, ht⟩ := List.cons.inj hrest
          obtain ⟨u, rfl, -⟩ := exists_of_renameAll_cons hslash ht.symm
          exact hslashes ⟨u, rfl⟩
        rw [renameAll_other hc, codeOf_cons hrenamed, codeOf_cons hslashes, renameAll_other hc, ih]
  | word w t hw ht ih =>
      have hcode : Ends (codeOf t) := ht.of_prefix (prefix_codeOf t)
      rw [renameAll_word hw ht, codeOf_append_of_not_mem (hword _ (isWord_newName hw)),
        codeOf_append_of_not_mem (hword w hw), renameAll_word hw hcode, ih]

@[simp] theorem pieces_renameAll (line : List Char) :
    pieces (renameAll line) = (pieces line).map renameAll := by
  have hsemicolon : isIdentChar ';' = false := by decide
  obtain ⟨statements, left, hcode, hstatements, hleft⟩ := Text.exists_ended ';' (codeOf line)
  have hrenamed : ∀ p ∈ statements.map renameAll, ';' ∉ p := by
    intro p hp
    obtain ⟨q, hq, rfl⟩ := List.mem_map.mp hp
    rw [mem_renameAll hsemicolon]
    exact hstatements q hq
  have hleft' : ';' ∉ renameAll left := by rwa [mem_renameAll hsemicolon]
  rw [pieces, codeOf_renameAll, hcode, renameAll_ended_append hsemicolon,
    Text.splitChars_ended hrenamed hleft', pieces, hcode, Text.splitChars_ended hstatements hleft,
    List.map_append, List.map_singleton]

@[simp] theorem ofLine_dropReturn (i : ℕ) (line : List Char) :
    UniformDecl.ofLine i (Text.dropReturn line) = UniformDecl.ofLine i line := by
  have hreturn : Text.Blank ['\r'] := by
    intro c hc
    rw [List.mem_singleton.mp hc]
    decide
  have hcode : codeOf ['\r'] = ['\r'] := codeOf_other (by decide) []
  have hstatements : ∀ l, UniformDecl.statements (l ++ ['\r']) = UniformDecl.statements l := by
    intro l
    rw [UniformDecl.statements, UniformDecl.statements, codeOf_append (by simp), hcode]
    split
    · rename_i hl
      rw [Text.trimChars_append hreturn, hl]
    · rfl
  rcases Text.dropReturn_eq line with h | h
  · rw [h]
  · conv_rhs => rw [h, UniformDecl.ofLine, hstatements]
    rfl

theorem codeOf_statement {s t u : List Char} :
    codeOf (s ++ ';' :: t) = s ++ ';' :: u ↔ codeOf s = s ∧ codeOf t = u := by
  rw [codeOf_append (by simp)]
  split
  · rename_i hs
    rw [codeOf_other (by decide), List.append_cancel_left_eq, List.cons_inj_right]
    exact (and_iff_right hs).symm
  · rename_i hs
    refine ⟨fun h => ?_, fun h => absurd h.1 hs⟩
    have hlength := (prefix_codeOf s).length_le
    rw [h, List.length_append, List.length_cons] at hlength
    omega

theorem codeOf_ended {statements : List (List Char)} {t u : List Char} :
    codeOf (ended ';' statements ++ t) = ended ';' statements ++ u ↔
      (∀ s ∈ statements, codeOf s = s) ∧ codeOf t = u := by
  induction statements with
  | nil => simp [ended]
  | cons s statements ih =>
      rw [Text.ended_cons, List.append_assoc, List.cons_append, List.append_assoc,
        List.cons_append, codeOf_statement, ih, List.forall_mem_cons, and_assoc]

theorem pieces_stripLine {line left comment : List Char} {statements : List (List Char)}
    (h : TakenApart line statements left comment) (hline : isDirective line = false) :
    pieces (stripLine line) = (statements.filter fun s => !isStripped s) ++ [left] := by
  have hcode : codeOf (ended ';' statements ++ (left ++ comment)) =
      ended ';' statements ++ left := by
    rw [← List.append_assoc, ← h.whole, codeOf_eq, h.splitComment_eq]
  obtain ⟨hstatements, hleft⟩ := codeOf_ended.mp hcode
  have hkept : ∀ s ∈ statements.filter fun s => !isStripped s, codeOf s = s :=
    fun s hs => hstatements s (List.mem_of_mem_filter hs)
  rw [stripLine_eq h hline, pieces, List.append_assoc, codeOf_ended.mpr ⟨hkept, hleft⟩]
  exact Text.splitChars_ended (fun s hs => h.single s (List.mem_of_mem_filter hs)) h.unended

theorem isStripped_of_declares {s : List Char} (h : Declares s) : isStripped s = true := by
  obtain ⟨before, rest, names, hbefore, rfl, -, -⟩ := h
  rw [isStripped, List.append_assoc, Text.trimLeft_append hbefore, trimLeft_keyword]
  have hword : keyword ∈ strippedWords := List.mem_cons_self
  exact List.any_eq_true.mpr
    ⟨keyword, hword, List.isPrefixOf_iff_prefix.mpr (List.prefix_append keyword rest)⟩

theorem not_declares_nil : ¬ Declares [] := by
  intro h
  obtain ⟨before, rest, names, h⟩ := h
  have hlength := congrArg List.length h.2.1
  have hkeyword : keyword.length = 8 := by decide
  rw [List.length_append, List.length_append, List.length_nil] at hlength
  omega

/-- A rewritten line still declares what its last statement declares, and nothing else. -/
theorem exists_declares_rewritten {line out : List Char} (h : Rewritten line out) :
    (∃ s ∈ pieces out, Declares s) ↔
      isDirective line = false ∧ ∃ s ∈ (pieces line).getLast?, Declares s := by
  have hrenamed : (∃ s ∈ pieces out, Declares s) ↔ ∃ s ∈ pieces (stripLine line), Declares s := by
    rw [rewritten_iff.mp h, pieces_renameAll]
    simp [declares_renameAll]
  rw [hrenamed]
  cases hline : isDirective line with
  | true =>
      have hnil : pieces (stripLine line) = [[]] := by
        rw [stripLine, if_pos hline]
        rfl
      simp [hnil, not_declares_nil]
  | false =>
      obtain ⟨statements, left, comment, hparts⟩ := exists_takenApart line
      rw [pieces_stripLine hparts hline, hparts.pieces_eq, List.getLast?_concat]
      constructor
      · rintro ⟨s, hs, hdeclares⟩
        rcases List.mem_append.mp hs with hs | hs
        · have hkept := (List.mem_filter.mp hs).2
          rw [isStripped_of_declares hdeclares] at hkept
          exact absurd hkept (by simp)
        · exact ⟨rfl, s, by rw [List.mem_singleton.mp hs]; rfl, hdeclares⟩
      · rintro ⟨-, s, hs, hdeclares⟩
        obtain rfl : left = s := Option.some.inj hs
        exact ⟨left, List.mem_append_right _ (List.mem_singleton_self left), hdeclares⟩

/-! ## Agreement -/

/-- The scan reports a declaration from the statement with a line and a place in it. -/
def Reported (source : String) (i j : ℕ) : Prop :=
  ∃ line s, (linesOf source.toList)[i]? = some line ∧
    (UniformDecl.statements line)[j]? = some s ∧ UniformDecl.ofStatement i s ≠ []

def DeclaredAt (source : String) (i j : ℕ) : Prop :=
  ∃ line s, (linesOf source.toList)[i]? = some line ∧ (pieces line)[j]? = some s ∧ Declares s

/-- Stripping takes out the statement at a place. -/
inductive Removed (source : String) (i j : ℕ) : Prop
  | directive {line : List Char} : (linesOf source.toList)[i]? = some line →
      isDirective line = true → j < (pieces line).length → Removed source i j
  | statement {line left comment s : List Char} {statements : List (List Char)} :
      (linesOf source.toList)[i]? = some line → isDirective line = false →
      TakenApart line statements left comment → statements[j]? = some s → isStripped s = true →
      Removed source i j

/-- No semicolon ends the statement at a place, and its line is kept. -/
def Open (source : String) (i j : ℕ) : Prop :=
  ∃ line, (linesOf source.toList)[i]? = some line ∧ isDirective line = false ∧
    (pieces line).length = j + 1

theorem reported_iff {source : String} {i j : ℕ} :
    Reported source i j ↔ DeclaredAt source i j := by
  constructor
  · rintro ⟨line, s, hline, hs, hne⟩
    rw [statements_eq, List.getElem?_map, Option.map_eq_some_iff] at hs
    obtain ⟨p, hp, rfl⟩ := hs
    exact ⟨line, p, hline, hp, (declares_iff i p).mp hne⟩
  · rintro ⟨line, p, hline, hp, hdeclares⟩
    refine ⟨line, trimChars p, hline, ?_, (declares_iff i p).mpr hdeclares⟩
    rw [statements_eq, List.getElem?_map, hp, Option.map_some]

theorem removed_iff {source : String} {i j : ℕ} (h : DeclaredAt source i j) :
    Removed source i j ↔ ¬ Open source i j := by
  obtain ⟨line, s, hline, hs, hdeclares⟩ := h
  have hj : j < (pieces line).length := (List.getElem?_eq_some_iff.mp hs).1
  obtain ⟨statements, left, comment, hparts⟩ := exists_takenApart line
  have hpieces := hparts.pieces_eq
  constructor
  · rintro hremoved ⟨line', hline', hkept, hlength⟩
    obtain rfl : line = line' := Option.some.inj (hline.symm.trans hline')
    cases hremoved with
    | directive hline' hdirective _ =>
        obtain rfl := Option.some.inj (hline.symm.trans hline')
        rw [hdirective] at hkept
        exact absurd hkept (by simp)
    | statement hline' _ hparts' hstatement _ =>
        obtain rfl := Option.some.inj (hline.symm.trans hline')
        -- a removed statement comes before the last piece, an open one is the last
        have hlt := (List.getElem?_eq_some_iff.mp hstatement).1
        rw [hparts'.pieces_eq, List.length_append, List.length_singleton] at hlength
        omega
  · intro hopen
    cases hdirective : isDirective line with
    | true => exact .directive hline hdirective hj
    | false =>
        have hlength : (pieces line).length ≠ j + 1 :=
          fun hlength => hopen ⟨line, hline, hdirective, hlength⟩
        rw [hpieces, List.length_append, List.length_singleton] at hj hlength
        have hlt : j < statements.length := by omega
        rw [hpieces, List.getElem?_append_left hlt] at hs
        exact .statement hline hdirective hparts hs (isStripped_of_declares hdeclares)

/-- A line of the wrapped text shows the open declaration of its line, if there is one. -/
theorem ofLine_rewritten {source : String} {i : ℕ} {line out : List Char}
    (hline : (linesOf source.toList)[i]? = some line) (hout : Rewritten line out) :
    UniformDecl.ofLine i out ≠ [] ↔ ∃ j, DeclaredAt source i j ∧ Open source i j := by
  rw [ofLine_ne_nil_iff, exists_declares_rewritten hout, List.getLast?_eq_getElem?]
  constructor
  · rintro ⟨hkept, s, hs, hdeclares⟩
    have hlt := (List.getElem?_eq_some_iff.mp hs).1
    exact ⟨(pieces line).length - 1, ⟨line, s, hline, hs, hdeclares⟩,
      ⟨line, hline, hkept, by omega⟩⟩
  · rintro ⟨j, ⟨line₁, s, hline₁, hs, hdeclares⟩, ⟨line₂, hline₂, hkept, hlength⟩⟩
    obtain rfl : line = line₁ := Option.some.inj (hline.symm.trans hline₁)
    obtain rfl : line = line₂ := Option.some.inj (hline.symm.trans hline₂)
    rw [hlength, Nat.add_sub_cancel]
    exact ⟨hkept, s, hs, hdeclares⟩

/-- What is reported is what is removed, and no declaration is left in the body. -/
structure Agrees (source : String) : Prop where
  reported : ∀ i j, Reported source i j ↔ Removed source i j ∧ DeclaredAt source i j
  body : UniformDecl.scan (String.ofList (wrapBody source)) = []

theorem scan_wrapBody {source : String}
    (h : ∀ i j, DeclaredAt source i j → ¬ Open source i j) :
    UniformDecl.scan (String.ofList (wrapBody source)) = [] := by
  have houts : ∀ out ∈ (linesOf source.toList).map fun line => renameAll (stripLine line),
      '\n' ∉ out := by
    intro out hout
    obtain ⟨line, hline, rfl⟩ := List.mem_map.mp hout
    exact not_mem_rewritten (rewritten_iff.mpr rfl) (Text.not_mem_of_mem_linesOf hline)
  rw [scan_eq_nil_iff, String.toList_ofList, wrapBody_eq, Text.linesOf_ended houts, List.map_map]
  intro out hout hdeclares
  obtain ⟨line, hline, rfl⟩ := List.mem_map.mp hout
  obtain ⟨i, hi⟩ := List.getElem?_of_mem hline
  have hne := (ofLine_ne_nil_iff i _).mpr hdeclares
  rw [Function.comp_apply, ofLine_dropReturn] at hne
  obtain ⟨j, hdeclared, hopen⟩ := (ofLine_rewritten hi (rewritten_iff.mpr rfl)).mp hne
  exact h i j hdeclared hopen

/-- Scan and stripping agree on a source when no declaration in it is open, and an open one stays
in the wrapped text. -/
theorem agrees_iff (source : String) :
    (Agrees source ↔ ∀ i j, DeclaredAt source i j → ¬ Open source i j) ∧
      (∀ i j, Reported source i j ↔ DeclaredAt source i j) ∧
      ∀ i line out, (linesOf source.toList)[i]? = some line → Rewritten line out →
        (UniformDecl.ofLine i out ≠ [] ↔ ∃ j, DeclaredAt source i j ∧ Open source i j) := by
  refine ⟨⟨?_, ?_⟩, fun _ _ => reported_iff, fun _ _ _ => ofLine_rewritten⟩
  · intro h i j hdeclared
    have hremoved := ((h.reported i j).mp (reported_iff.mpr hdeclared)).1
    exact (removed_iff hdeclared).mp hremoved
  · intro h
    refine ⟨fun i j => ?_, scan_wrapBody h⟩
    rw [reported_iff]
    constructor
    · intro hdeclared
      exact ⟨(removed_iff hdeclared).mpr (h i j hdeclared), hdeclared⟩
    · exact And.right

/-- A fragment with a declaration whose semicolon stands on the next line. -/
def openSource : String :=
  "uniform float uA\n;\nvoid main() \x7b gl_FragColor = vec4(uA); \x7d\n"

/-- The header defines the name, and its declaration stays. -/
theorem openSource_disagrees :
    ¬ Agrees openSource ∧ (wrap openSource).layout.fields.map (·.name) = ["uA"] ∧
      "uniform float uA\n;\n".toList <+: wrapBody openSource := by
  refine ⟨fun h => ?_, by decide +kernel, by decide +kernel⟩
  exact absurd h.body (by decide +kernel)

end Segue.Shader
