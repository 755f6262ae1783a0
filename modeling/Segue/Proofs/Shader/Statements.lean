import Segue.Proofs.Text
import Segue.Shader.Wrap

/-!
# The statements of a line

A line is taken apart into statements, each with a semicolon at its end, what is left of its code
after the last of them, and its comment. Stripping takes some of the statements out and leaves the
rest as it is.
-/

namespace Segue.Shader

open Text (ended)

/-- A line taken apart; its comment begins at the first two slashes. -/
structure TakenApart (line : List Char) (statements : List (List Char)) (left comment : List Char) :
    Prop where
  whole : line = ended ';' statements ++ left ++ comment
  single : ∀ s ∈ statements, ';' ∉ s
  unended : ';' ∉ left
  slashes : comment = [] ∨ "//".toList <+: comment
  first : ∀ a b, line = a ++ "//".toList ++ b → (ended ';' statements ++ left).length ≤ a.length

/-! ## The comment -/

@[simp] theorem splitComment_slashes (cs : List Char) :
    splitComment ('/' :: '/' :: cs) = ([], '/' :: '/' :: cs) := by
  rw [splitComment]

theorem splitComment_cons {c : Char} {cs : List Char} (h : ¬ "//".toList <+: c :: cs) :
    splitComment (c :: cs) = (c :: (splitComment cs).1, (splitComment cs).2) := by
  rw [splitComment]
  rintro rest rfl rfl
  exact h ⟨rest, rfl⟩

theorem splitComment_append {code comment : List Char}
    (hcomment : comment = [] ∨ "//".toList <+: comment)
    (hfirst : ∀ a b, code ++ comment = a ++ "//".toList ++ b → code.length ≤ a.length) :
    splitComment (code ++ comment) = (code, comment) := by
  induction code with
  | nil =>
      rcases hcomment with rfl | ⟨rest, rfl⟩
      · rfl
      · exact splitComment_slashes rest
  | cons c code ih =>
      have hslashes : ¬ "//".toList <+: c :: (code ++ comment) := by
        rintro ⟨b, hb⟩
        exact absurd (hfirst [] b hb.symm) (by simp)
      have hrest := ih fun a b hab => by
        have hle := hfirst (c :: a) b (by rw [List.cons_append, hab]; rfl)
        simpa using hle
      rw [List.cons_append, splitComment_cons hslashes, hrest]

theorem exists_comment (line : List Char) :
    ∃ code comment, line = code ++ comment ∧ (comment = [] ∨ "//".toList <+: comment) ∧
      ∀ a b, line = a ++ "//".toList ++ b → code.length ≤ a.length := by
  induction line with
  | nil => exact ⟨[], [], rfl, .inl rfl, fun a b _ => Nat.zero_le _⟩
  | cons c cs ih =>
      by_cases hslashes : "//".toList <+: c :: cs
      · exact ⟨[], c :: cs, rfl, .inr hslashes, fun a b _ => Nat.zero_le _⟩
      · obtain ⟨code, comment, hcs, hcomment, hfirst⟩ := ih
        refine ⟨c :: code, comment, by rw [hcs]; rfl, hcomment, ?_⟩
        intro a b hab
        cases a with
        | nil => exact absurd ⟨b, hab.symm⟩ hslashes
        | cons d a =>
            have htail : cs = a ++ "//".toList ++ b := (List.cons.inj hab).2
            exact Nat.succ_le_succ (hfirst a b htail)

theorem exists_takenApart (line : List Char) :
    ∃ statements left comment, TakenApart line statements left comment := by
  obtain ⟨code, comment, hline, hcomment, hfirst⟩ := exists_comment line
  obtain ⟨statements, left, rfl, hstatements, hleft⟩ := Text.exists_ended ';' code
  exact ⟨statements, left, comment, hline, hstatements, hleft, hcomment, hfirst⟩

namespace TakenApart

variable {line left comment : List Char} {statements : List (List Char)}

theorem splitComment_eq (h : TakenApart line statements left comment) :
    splitComment line = (ended ';' statements ++ left, comment) := by
  have hfirst := h.first
  rw [h.whole] at hfirst ⊢
  exact splitComment_append h.slashes hfirst

theorem splitChars_eq (h : TakenApart line statements left comment) :
    Text.splitChars (· = ';') (ended ';' statements ++ left) = statements ++ [left] :=
  Text.splitChars_ended h.single h.unended

end TakenApart

/-! ## Stripping -/

@[simp] theorem contains_iff {part cs : List Char} : contains part cs = true ↔ part <:+: cs := by
  induction cs with
  | nil => simp [contains, List.isEmpty_iff]
  | cons c cs ih =>
      rw [contains, Bool.or_eq_true, List.isPrefixOf_iff_prefix, ih, List.infix_cons_iff]

theorem infix_ended {s : List Char} {statements : List (List Char)} (hs : s ∈ statements) :
    s <:+: ended ';' statements := by
  obtain ⟨before, after, rfl⟩ := List.append_of_mem hs
  rw [Text.ended_append, Text.ended_cons]
  exact ⟨ended ';' before, ';' :: ended ';' after, by simp⟩

theorem contains_of_isStripped {s cs : List Char} (hs : s <:+: cs) (h : isStripped s = true) :
    (strippedWords.any fun w => contains w cs) = true := by
  obtain ⟨w, hw, hprefix⟩ := List.any_eq_true.mp h
  refine List.any_eq_true.mpr ⟨w, hw, contains_iff.mpr ?_⟩
  exact ((List.isPrefixOf_iff_prefix.mp hprefix).isInfix.trans
    (List.dropWhile_suffix _).isInfix).trans hs

@[simp] theorem flatMap_keptStatement (statements : List (List Char)) :
    statements.flatMap keptStatement = ended ';' (statements.filter fun s => !isStripped s) := by
  induction statements with
  | nil => rfl
  | cons s statements ih =>
      rw [List.flatMap_cons, ih, keptStatement]
      cases hs : isStripped s with
      | true => rw [if_pos rfl, List.filter_cons_of_neg (by simp [hs])]; rfl
      | false =>
          rw [if_neg Bool.false_ne_true, List.filter_cons_of_pos (by simp [hs]), Text.ended_cons,
            List.append_assoc]
          rfl

/-- A line that is no directive loses the statements that are stripped, and nothing else. -/
theorem stripLine_eq {line left comment : List Char} {statements : List (List Char)}
    (h : TakenApart line statements left comment) (hline : isDirective line = false) :
    stripLine line = ended ';' (statements.filter fun s => !isStripped s) ++ left ++ comment := by
  rw [stripLine, hline, if_neg Bool.false_ne_true, h.splitComment_eq]
  simp only [h.splitChars_eq, List.dropLast_concat, List.getLastD_concat, flatMap_keptStatement]
  split
  · rfl
  · rename_i hnone
    have hkept : (statements.filter fun s => !isStripped s) = statements := by
      refine List.filter_eq_self.mpr fun s hs => ?_
      cases hstripped : isStripped s with
      | false => rfl
      | true =>
          have hinfix : s <:+: ended ';' statements ++ left :=
            (infix_ended hs).trans (List.prefix_append _ _).isInfix
          exact absurd (contains_of_isStripped hinfix hstripped) hnone
    rw [hkept]
    exact h.whole

/-- A line and what is left of it. -/
inductive Stripped : List Char → List Char → Prop
  | directive {line : List Char} : isDirective line = true → Stripped line []
  | statements {line left comment : List Char} {statements : List (List Char)} :
      isDirective line = false → TakenApart line statements left comment →
      Stripped line (ended ';' (statements.filter fun s => !isStripped s) ++ left ++ comment)

theorem stripped_iff {line out : List Char} : Stripped line out ↔ out = stripLine line := by
  constructor
  · intro h
    cases h with
    | directive hline => rw [stripLine, if_pos hline]
    | statements hline hparts => rw [stripLine_eq hparts hline]
  · rintro rfl
    cases hline : isDirective line with
    | true =>
        rw [stripLine, if_pos hline]
        exact .directive hline
    | false =>
        obtain ⟨statements, left, comment, hparts⟩ := exists_takenApart line
        rw [stripLine_eq hparts hline]
        exact .statements hline hparts

theorem stripLine_sublist (line : List Char) : (stripLine line).Sublist line := by
  cases hline : isDirective line with
  | true =>
      rw [stripLine, if_pos hline]
      exact List.nil_sublist line
  | false =>
      obtain ⟨statements, left, comment, hparts⟩ := exists_takenApart line
      rw [stripLine_eq hparts hline]
      conv_rhs => rw [hparts.whole]
      have hkept : (ended ';' (statements.filter fun s => !isStripped s)).Sublist
          (ended ';' statements) := List.filter_sublist.flatMap _
      exact (hkept.append_right left).append_right comment

end Segue.Shader
