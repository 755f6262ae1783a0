import Segue.Proofs.Basic
import Segue.Proofs.Shader.Rename
import Segue.Proofs.Shader.Statements
import Segue.Shader.Validate

/-!
# Lines of the wrapped text

A wrapped text is the header, the rewritten lines of the fragment and the footer. Each line is
rewritten by itself and stays one line, so that the numbers of the lines differ by the length of
the header.

Faults are told with the line of the fragment that such a number leads back to. Lines of the footer
lead behind the last line of the fragment.
-/

namespace Segue.Shader

open Text (ended linesOf splitChars)

def Rewritten (line out : List Char) : Prop := ∃ kept, Stripped line kept ∧ Renamed kept out

theorem rewritten_iff {line out : List Char} :
    Rewritten line out ↔ out = renameAll (stripLine line) := by
  constructor
  · rintro ⟨kept, hkept, hout⟩
    rw [renamed_iff.mp hout, stripped_iff.mp hkept]
  · intro hout
    exact ⟨stripLine line, stripped_iff.mpr rfl, renamed_iff.mpr hout⟩

example : renameAll (stripLine "uniform float uA; gl_FragColor = main(uA); // main".toList) =
    " blendpack_FragColor = blendpack_main(uA); // blendpack_main".toList := by decide +kernel

theorem exists_unique_rewritten (line : List Char) : ∃! out, Rewritten line out :=
  ⟨renameAll (stripLine line), rewritten_iff.mpr rfl, fun _ h => rewritten_iff.mp h⟩

/-! ## Lines that stay as they are -/

/-- A line that is no directive and has neither a statement that is stripped nor an old name. -/
structure Plain (line : List Char) : Prop where
  text : isDirective line = false
  kept : ∀ statements left comment, TakenApart line statements left comment →
    ∀ s ∈ statements, isStripped s = false
  named : ∀ w ∈ oldNames, ¬ HasWord line w

theorem Plain.rewritten {line : List Char} (h : Plain line) : Rewritten line line := by
  obtain ⟨statements, left, comment, hparts⟩ := exists_takenApart line
  have hkept : (statements.filter fun s => !isStripped s) = statements :=
    List.filter_eq_self.mpr fun s hs => by rw [h.kept _ _ _ hparts s hs]; rfl
  have hstrip : stripLine line = line := by
    rw [stripLine_eq hparts h.text, hkept, ← hparts.whole]
  have hname : ∀ w, HasWord line w → newName w = w :=
    fun w hw => newName_eq_self fun hold => h.named w hold hw
  rw [rewritten_iff, hstrip, renameAll_eq_self hname]

/-! ## One line for each line -/

theorem wrapBody_eq (source : String) :
    wrapBody source =
      ended '\n' ((linesOf source.toList).map fun line => renameAll (stripLine line)) := by
  have hlines : ((linesOf source.toList).flatMap fun l => stripLine l ++ ['\n']) =
      ended '\n' ((linesOf source.toList).map stripLine) := by
    rw [ended, List.flatMap_map]
  rw [wrapBody, hlines, renameAll_ended (by decide), List.map_map]
  rfl

theorem not_mem_rewritten {line out : List Char} (h : Rewritten line out) (hline : '\n' ∉ line) :
    '\n' ∉ out := by
  rw [rewritten_iff.mp h, mem_renameAll (by decide)]
  exact fun hn => hline ((stripLine_sublist line).subset hn)

theorem getLast?_header (l : ParamLayout) : (joinLines (header l)).getLast? = some '\n' := by
  rw [header, joinLines, List.flatMap_append]
  exact List.getLast?_concat

theorem headerLines_wrap (source : String) :
    (wrap source).headerLines = (joinLines (header (wrap source).layout)).count '\n' := by
  simp only [wrap]
  exact Text.length_linesOf (getLast?_header (ParamLayout.ofSource source))

/-- A fragment in its wrapped text: the header, for each line what becomes of it, and the footer. -/
structure LineByLine (source : String) (w : Wrapped) (outs : List (List Char)) : Prop where
  rewritten : List.Forall₂ Rewritten (linesOf source.toList) outs
  layout : w.layout = ParamLayout.ofSource source
  text : w.text.toList = joinLines (header w.layout) ++ ended '\n' outs ++ joinLines footer
  headerLines : w.headerLines = (joinLines (header w.layout)).count '\n'
  /-- The lines of the wrapped text behind the header, counted from 0. -/
  line : ∀ i < (linesOf source.toList).length,
    (splitChars (· = '\n') w.text.toList)[w.headerLines + i]? = outs[i]?
  bodyLine : ∀ i, 1 ≤ i → i ≤ (linesOf source.toList).length →
    w.bodyLine? (w.headerLines + i) = some i

theorem bodyLine?_headerLines (w : Wrapped) {i : Nat} (hi : 1 ≤ i) :
    w.bodyLine? (w.headerLines + i) = some i := by
  rw [Wrapped.bodyLine?, if_pos (Nat.lt_add_of_pos_right hi), Nat.add_sub_cancel_left]

theorem getElem?_splitChars {head outs : List (List Char)} {rest : List Char}
    (hhead : ∀ p ∈ head, '\n' ∉ p) (houts : ∀ p ∈ outs, '\n' ∉ p) {i : Nat} (hi : i < outs.length) :
    (splitChars (· = '\n') (ended '\n' head ++ ended '\n' outs ++ rest))[head.length + i]? =
      outs[i]? := by
  obtain ⟨more, left, rfl, hmore, hleft⟩ := Text.exists_ended '\n' rest
  have hpieces : ∀ p ∈ head ++ outs ++ more, '\n' ∉ p := by
    intro p hp
    rcases List.mem_append.mp hp with hp | hp
    · exact (List.mem_append.mp hp).elim (hhead p) (houts p)
    · exact hmore p hp
  have hsplit := Text.splitChars_ended hpieces hleft
  rw [Text.ended_append, Text.ended_append, List.append_assoc (_ ++ _)] at hsplit
  rw [hsplit, List.append_assoc, List.append_assoc,
    List.getElem?_append_right (Nat.le_add_right _ _), Nat.add_sub_cancel_left,
    List.getElem?_append_left hi]

/-- Wrapping keeps the fragment line by line, and lines back to it by their number. -/
theorem wrap_lineByLine (source : String) :
    (∃ outs, LineByLine source (wrap source) outs) ∧
      (∀ line, ∃! out, Rewritten line out) ∧
      ∀ line, Plain line → Rewritten line line := by
  refine ⟨?_, exists_unique_rewritten, fun line h => h.rewritten⟩
  let outs := (linesOf source.toList).map fun line => renameAll (stripLine line)
  have hrewritten : List.Forall₂ Rewritten (linesOf source.toList) outs := by
    rw [List.forall₂_map_right_iff, List.forall₂_same]
    exact fun line _ => rewritten_iff.mpr rfl
  have houts : ∀ out ∈ outs, '\n' ∉ out := by
    intro out hout
    obtain ⟨line, hline, rfl⟩ := List.mem_map.mp hout
    exact not_mem_rewritten (rewritten_iff.mpr rfl) (Text.not_mem_of_mem_linesOf hline)
  have htext : (wrap source).text.toList =
      joinLines (header (wrap source).layout) ++ ended '\n' outs ++ joinLines footer := by
    rw [← wrapBody_eq]
    exact String.toList_ofList
  obtain ⟨head, hhead, hclosed, hcount⟩ := Text.exists_closed (getLast?_header (wrap source).layout)
  refine ⟨outs, hrewritten, rfl, htext, headerLines_wrap source, ?_, ?_⟩
  · intro i hi
    have hlt : i < outs.length := by rwa [List.length_map]
    rw [htext, headerLines_wrap, ← hcount, hhead, getElem?_splitChars hclosed houts hlt]
  · exact fun i hi _ => bodyLine?_headerLines _ hi

/-! ## Lines of faults -/

theorem bodyLine?_eq_some_iff {w : Wrapped} {k l : Nat} :
    w.bodyLine? k = some l ↔ 1 ≤ l ∧ k = w.headerLines + l := by
  unfold Wrapped.bodyLine?
  split
  · rw [Option.some_inj]
    omega
  · simp only [reduceCtorEq, false_iff]
    omega

/-- The lines of a wrapped text: those of the header, what becomes of those of the fragment, and
those of the footer, behind which there is nothing. -/
structure Sections (source : String) (head outs : List (List Char)) : Prop where
  lines : splitChars (· = '\n') (wrap source).text.toList =
    head ++ outs ++ footer.map String.toList ++ [[]]
  header : head.length = (wrap source).headerLines
  body : List.Forall₂ Rewritten (linesOf source.toList) outs

theorem toList_text_wrap (source : String) :
    (wrap source).text.toList =
      joinLines (header (ParamLayout.ofSource source)) ++ wrapBody source ++ joinLines footer :=
  String.toList_ofList

theorem joinLines_eq_ended (ls : List String) :
    joinLines ls = ended '\n' (ls.map String.toList) := by
  rw [joinLines, ended, List.flatMap_map]

theorem not_mem_footer : ∀ line ∈ footer.map String.toList, '\n' ∉ line := by simp [footer]

theorem exists_sections (source : String) : ∃ head outs, Sections source head outs := by
  obtain ⟨head, hhead, hclosed, hcount⟩ := Text.exists_closed (getLast?_header (wrap source).layout)
  let outs := (linesOf source.toList).map fun line => renameAll (stripLine line)
  have houts : ∀ out ∈ outs, '\n' ∉ out := by
    intro out hout
    obtain ⟨line, hline, rfl⟩ := List.mem_map.mp hout
    exact not_mem_rewritten (rewritten_iff.mpr rfl) (Text.not_mem_of_mem_linesOf hline)
  have hpieces : ∀ p ∈ head ++ outs ++ footer.map String.toList, '\n' ∉ p := by
    intro p hp
    rcases List.mem_append.mp hp with hp | hp
    · exact (List.mem_append.mp hp).elim (hclosed p) (houts p)
    · exact not_mem_footer p hp
  have htext : (wrap source).text.toList =
      ended '\n' (head ++ outs ++ footer.map String.toList) := by
    rw [toList_text_wrap, wrapBody_eq, joinLines_eq_ended footer, Text.ended_append,
      Text.ended_append, ← hhead]
    rfl
  refine ⟨head, outs, ?_, ?_, ?_⟩
  · have hsplit := Text.splitChars_ended hpieces List.not_mem_nil
    rw [List.append_nil] at hsplit
    rw [htext, hsplit]
  · rw [headerLines_wrap, hcount]
  · rw [List.forall₂_map_right_iff, List.forall₂_same]
    exact fun line _ => rewritten_iff.mpr rfl

def lineCount (source : String) : Nat := (linesOf source.toList).length

/-- A line of the wrapped text is led back to a line of the fragment whose rewriting it holds, or
to none. -/
def LeadsBack (source : String) (k : Nat) : Prop :=
  ∀ l, (wrap source).bodyLine? k = some l →
    ∃ line out, 1 ≤ l ∧ (linesOf source.toList)[l - 1]? = some line ∧ Rewritten line out ∧
      (splitChars (· = '\n') (wrap source).text.toList)[k - 1]? = some out

theorem leadsBack_iff (source : String) (k : Nat) :
    LeadsBack source k ↔ k ≤ (wrap source).headerLines + lineCount source := by
  obtain ⟨head, outs, h⟩ := exists_sections source
  have hlength : (linesOf source.toList).length = outs.length := h.body.length_eq
  constructor
  · intro hback
    by_contra hbehind
    have hl : (wrap source).bodyLine? k = some (k - (wrap source).headerLines) :=
      bodyLine?_eq_some_iff.mpr (by omega)
    obtain ⟨line, out, -, hline, -⟩ := hback _ hl
    have hlt := (List.getElem?_eq_some_iff.mp hline).1
    rw [lineCount] at hbehind
    omega
  · rintro hk l hl
    obtain ⟨hpos, rfl⟩ := bodyLine?_eq_some_iff.mp hl
    rw [lineCount] at hk
    have hline : l - 1 < (linesOf source.toList).length := by omega
    have hout : l - 1 < outs.length := hlength ▸ hline
    refine ⟨_, _, hpos, List.getElem?_eq_getElem hline, h.body.get hline hout, ?_⟩
    have hplace : (wrap source).headerLines + l - 1 = head.length + (l - 1) := by
      rw [h.header]
      omega
    rw [h.lines, hplace, List.append_assoc, List.append_assoc,
      List.getElem?_append_right (Nat.le_add_right _ _), Nat.add_sub_cancel_left,
      List.getElem?_append_left hout]
    exact List.getElem?_eq_getElem hout

/-- The line of the wrapped text in which the checker finds a fault. -/
def Wrapped.faultLine? (w : Wrapped) : Option Nat :=
  match Glsl.check w.text.toList with
  | .ok _ => none
  | .error (.unreadable site) => site
  | .error (.invalid site) => site

theorem line?_of_check {w : Wrapped} {e : CompileError} (h : w.check = .error e) :
    e.line? = w.faultLine?.bind w.bodyLine? := by
  revert h
  unfold Wrapped.check Wrapped.faultLine?
  rcases Glsl.check w.text.toList with (site | site) | needs
  · rintro ⟨⟩
    rfl
  · rintro ⟨⟩
    rfl
  · exact nofun

theorem faultLine?_of_check {w : Wrapped} {needs : Glsl.Needs} (h : w.check = .ok needs) :
    w.faultLine? = none := by
  revert h
  unfold Wrapped.check Wrapped.faultLine?
  rcases Glsl.check w.text.toList with (site | site) | needs'
  · exact nofun
  · exact nofun
  · exact fun _ => rfl

theorem validate_eq_error_iff {w : Wrapped} {e : CompileError} :
    w.validate = .error e ↔ w.check = .error e := by
  rw [Wrapped.validate]
  cases w.check <;> simp [Except.map]

theorem compile_eq_error_iff {source : String} {e : CompileError} :
    compile source = .error e ↔ (wrap source).check = .error e ∨
      (∃ needs, (wrap source).check = .ok needs ∧ isProvided needs = false) ∧
        e = .device checkerWords := by
  unfold compile
  generalize wrap source = w
  change (w.check >>= fun needs => if isProvided needs then Except.ok w else
    Except.error (.device checkerWords)) = .error e ↔ _
  rcases w.check with e' | needs
  · rw [error_bind]
    simp
  · rw [ok_bind]
    by_cases hprovided : isProvided needs = true
    · rw [if_pos hprovided]
      simp [hprovided]
    · rw [if_neg hprovided]
      constructor
      · rintro h
        cases h
        exact .inr ⟨⟨needs, rfl, Bool.eq_false_of_not_eq_true hprovided⟩, rfl⟩
      · rintro (h | ⟨-, rfl⟩)
        · cases h
        · rfl

def Reports (source : String) (e : CompileError) : Prop :=
  (wrap source).validate = .error e ∨ compile source = .error e

theorem line?_of_reports {source : String} {e : CompileError} (h : Reports source e) :
    e.line? = (wrap source).faultLine?.bind (wrap source).bodyLine? := by
  rw [Reports, validate_eq_error_iff, compile_eq_error_iff] at h
  rcases h with h | h | ⟨⟨needs, hneeds, -⟩, rfl⟩
  · exact line?_of_check h
  · exact line?_of_check h
  · rw [faultLine?_of_check hneeds]
    rfl

/-- The line given for a fault is one of the first `n` exactly if the fault is found no further. -/
theorem line_le_iff {w : Wrapped} {n : Nat} :
    (∀ l, w.faultLine?.bind w.bodyLine? = some l → 1 ≤ l ∧ l ≤ n) ↔
      ∀ k, w.faultLine? = some k → k ≤ w.headerLines + n := by
  constructor
  · intro hlines k hk
    by_contra hbehind
    have hl : w.bodyLine? k = some (k - w.headerLines) := bodyLine?_eq_some_iff.mpr (by omega)
    have hle := (hlines _ (by rw [hk]; exact hl)).2
    omega
  · intro hfault l hl
    obtain ⟨k, hk, hl⟩ := Option.bind_eq_some_iff.mp hl
    have hle := hfault k hk
    obtain ⟨hpos, rfl⟩ := bodyLine?_eq_some_iff.mp hl
    omega

/-- A line leads to a line of the fragment exactly up to the end of the fragment. What is said of a
fragment names one of its lines, if any, exactly if the fault is not found behind them. -/
theorem wrap_errorLines (source : String) :
    (∃ head outs, Sections source head outs) ∧
      (∀ k l, (wrap source).bodyLine? k = some l ↔ 1 ≤ l ∧ k = (wrap source).headerLines + l) ∧
      (∀ k, LeadsBack source k ↔ k ≤ (wrap source).headerLines + lineCount source) ∧
      ∀ e, Reports source e →
        e.line? = (wrap source).faultLine?.bind (wrap source).bodyLine? ∧
        ((∀ l, e.line? = some l → 1 ≤ l ∧ l ≤ lineCount source) ↔
          ∀ k, (wrap source).faultLine? = some k →
            k ≤ (wrap source).headerLines + lineCount source) := by
  refine ⟨exists_sections source, fun _ _ => bodyLine?_eq_some_iff, leadsBack_iff source,
    fun e he => ?_⟩
  have hline := line?_of_reports he
  exact ⟨hline, hline ▸ line_le_iff⟩

/-- A fragment of one line without an entry point. -/
def mainless : String := "void mainly() \x7b\x7d\n"

/-- The call of the entry point in the footer passes for the fifth line of a fragment that has
one. -/
theorem mainless_astray :
    ¬LeadsBack mainless ((wrap mainless).headerLines + 5) ∧ lineCount mainless = 1 ∧
      (wrap mainless).bodyLine? ((wrap mainless).headerLines + 5) = some 5 ∧
      (splitChars (· = '\n') (wrap mainless).text.toList)[(wrap mainless).headerLines + 4]? =
        some "    blendpack_main();".toList := by
  have hcount : lineCount mainless = 1 := by rfl
  obtain ⟨head, outs, h⟩ := exists_sections mainless
  have houts : outs.length = 1 := h.body.length_eq.symm.trans hcount
  refine ⟨?_, hcount, bodyLine?_headerLines _ (by decide), ?_⟩
  · rw [leadsBack_iff, hcount]
    omega
  · have hlength : (head ++ outs).length = (wrap mainless).headerLines + 1 := by
      rw [List.length_append, h.header, houts]
    rw [h.lines, List.append_assoc, List.getElem?_append_right (by omega), hlength,
      Nat.add_sub_add_left]
    rfl

end Segue.Shader
