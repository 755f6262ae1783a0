import Mathlib
import Segue.Text.Blank

/-!
# Pieces and lines of texts

A text is taken apart at a character and put together again: pieces that do not hold the character,
each with it at its end, and what is left after the last one.
-/

namespace Segue.Text

theorem toNat_of_isDigit {c : Char} (h : c.isDigit = true) : 48 ≤ c.toNat ∧ c.toNat ≤ 57 := by
  simp only [Char.isDigit, Bool.and_eq_true, decide_eq_true_eq, UInt32.le_iff_toNat_le] at h
  exact h

theorem isBlank_of_isDigit {c : Char} (h : c.isDigit = true) : isBlank c = false := by
  have hrange := toNat_of_isDigit h
  simp only [isBlank, blankRanges, List.any_cons, List.any_nil, Bool.or_false,
    Bool.or_eq_false_iff, Bool.and_eq_false_iff, decide_eq_false_iff_not]
  omega

/-- Pieces, each with a character at its end. -/
def ended (sep : Char) (pieces : List (List Char)) : List Char := pieces.flatMap (· ++ [sep])

variable {sep : Char} {pieces : List (List Char)} {left : List Char}

@[simp] theorem ended_cons (sep : Char) (p : List Char) (pieces : List (List Char)) :
    ended sep (p :: pieces) = p ++ sep :: ended sep pieces := by
  rw [ended, List.flatMap_cons, List.append_assoc]
  rfl

@[simp] theorem ended_append (sep : Char) (ps qs : List (List Char)) :
    ended sep (ps ++ qs) = ended sep ps ++ ended sep qs := List.flatMap_append

theorem splitChars_eq_splitOnP (p : Char → Bool) (cs : List Char) :
    splitChars p cs = cs.splitOnP p := by
  induction cs with
  | nil => rfl
  | cons c cs ih =>
      rw [splitChars, List.splitOnP_cons_eq_if_modifyHead, ih]
      cases hsplit : cs.splitOnP p with
      | nil => exact absurd hsplit (List.splitOnP_ne_nil p cs)
      | cons w ws => rfl

theorem splitChars_ended (hpieces : ∀ p ∈ pieces, sep ∉ p) (hleft : sep ∉ left) :
    splitChars (· = sep) (ended sep pieces ++ left) = pieces ++ [left] := by
  rw [splitChars_eq_splitOnP]
  have hnot : ∀ p : List Char, sep ∉ p → ∀ c ∈ p, decide (c = sep) = false := by
    intro p hp c hc
    exact decide_eq_false fun h => hp (h ▸ hc)
  induction pieces with
  | nil => exact List.splitOnP_eq_singleton (hnot left hleft)
  | cons p ps ih =>
      have hp := hnot p (hpieces p List.mem_cons_self)
      have hrest := ih fun q hq => hpieces q (List.mem_cons_of_mem p hq)
      rw [ended_cons, List.append_assoc, List.cons_append,
        List.splitOnP_append_cons_of_forall_mem hp sep (decide_eq_true rfl), hrest]
      rfl

theorem splitChars_eq_splitOn (sep : Char) (cs : List Char) :
    splitChars (· = sep) cs = cs.splitOn sep := splitChars_eq_splitOnP _ cs

theorem splitChars_append_cons (cs t : List Char) :
    splitChars (· = sep) (cs ++ sep :: t) =
      splitChars (· = sep) cs ++ splitChars (· = sep) t := by
  simp only [splitChars_eq_splitOn, List.splitOn_append_cons_self]

theorem splitChars_of_not_mem {cs : List Char} (h : sep ∉ cs) :
    splitChars (· = sep) cs = [cs] := by
  rw [splitChars_eq_splitOn, List.splitOn_eq_singleton h]

theorem splitChars_intercalate (hpieces : ∀ p ∈ pieces, sep ∉ p) (hne : pieces ≠ []) :
    splitChars (· = sep) ([sep].intercalate pieces) = pieces := by
  rw [splitChars_eq_splitOn, List.splitOn_intercalate sep hpieces hne]

theorem exists_ended (sep : Char) (cs : List Char) :
    ∃ pieces left, cs = ended sep pieces ++ left ∧ (∀ p ∈ pieces, sep ∉ p) ∧ sep ∉ left := by
  induction cs with
  | nil => exact ⟨[], [], rfl, by simp, by simp⟩
  | cons c cs ih =>
      obtain ⟨pieces, left, rfl, hpieces, hleft⟩ := ih
      by_cases hc : c = sep
      · refine ⟨[] :: pieces, left, ?_, ?_, hleft⟩
        · rw [ended_cons, hc]
          rfl
        · intro p hp
          rcases List.mem_cons.mp hp with rfl | hp
          · simp
          · exact hpieces p hp
      · have hne : sep ≠ c := fun h => hc h.symm
        cases pieces with
        | nil => exact ⟨[], c :: left, rfl, by simp, by simp [hne, hleft]⟩
        | cons p ps =>
            refine ⟨(c :: p) :: ps, left, ?_, ?_, hleft⟩
            · rw [ended_cons, ended_cons]
              rfl
            · intro q hq
              rcases List.mem_cons.mp hq with rfl | hq
              · simp [hne, hpieces p List.mem_cons_self]
              · exact hpieces q (List.mem_cons_of_mem p hq)

theorem not_mem_of_mem_splitChars {cs p : List Char} (h : p ∈ splitChars (· = sep) cs) :
    sep ∉ p := by
  obtain ⟨pieces, left, rfl, hpieces, hleft⟩ := exists_ended sep cs
  rw [splitChars_ended hpieces hleft, List.mem_append, List.mem_singleton] at h
  rcases h with h | rfl
  · exact hpieces p h
  · exact hleft

/-- The pieces hold what the text holds, but for the separators. -/
theorem exists_mem_splitChars {c : Char} (hc : c ≠ sep) {cs : List Char} :
    (∃ p ∈ splitChars (· = sep) cs, c ∈ p) ↔ c ∈ cs := by
  obtain ⟨pieces, left, rfl, hpieces, hleft⟩ := exists_ended sep cs
  have hended : c ∈ ended sep pieces ↔ ∃ p ∈ pieces, c ∈ p := by
    simp [ended, List.mem_flatMap, hc]
  rw [splitChars_ended hpieces hleft, List.mem_append, hended]
  simp [or_and_right, exists_or]

theorem count_ended (hpieces : ∀ p ∈ pieces, sep ∉ p) :
    (ended sep pieces).count sep = pieces.length := by
  induction pieces with
  | nil => rfl
  | cons p ps ih =>
      have hp : p.count sep = 0 := List.count_eq_zero.mpr (hpieces p List.mem_cons_self)
      rw [ended_cons, List.count_append, hp, List.count_cons_self,
        ih fun q hq => hpieces q (List.mem_cons_of_mem p hq), List.length_cons, Nat.zero_add]

@[simp] theorem length_splitChars (sep : Char) (cs : List Char) :
    (splitChars (· = sep) cs).length = cs.count sep + 1 := by
  obtain ⟨pieces, left, rfl, hpieces, hleft⟩ := exists_ended sep cs
  rw [splitChars_ended hpieces hleft, List.length_append, List.length_singleton,
    List.count_append, count_ended hpieces, List.count_eq_zero.mpr hleft, Nat.add_zero]

section Runs

variable {β : Type}

/-- A property of all texts, by their longest runs of characters that agree in `p`. -/
theorem splits_induction (p : β → Bool) {P : List β → Prop} (nil : P [])
    (run : ∀ b w t, w ≠ [] → (∀ c ∈ w, p c = b) → (∀ c ∈ t.head?, p c = !b) → P t →
      P (w ++ t)) : ∀ cs, P cs := by
  intro cs
  induction hlength : cs.length using Nat.strong_induction_on generalizing cs with
  | _ n ih =>
      subst hlength
      cases cs with
      | nil => exact nil
      | cons c t =>
          let q := fun d => p d == p c
          have hsplit : (c :: t).takeWhile q ++ (c :: t).dropWhile q = c :: t :=
            List.takeWhile_append_dropWhile
          have hends : ∀ d ∈ ((c :: t).dropWhile q).head?, p d = !p c := by
            intro d hd
            have hnot := List.head?_dropWhile_not q (c :: t)
            rw [Option.mem_def.mp hd] at hnot
            exact Bool.eq_not_iff.mpr (by simpa [q] using hnot)
          have hshort : ((c :: t).dropWhile q).length < (c :: t).length := by
            rw [List.dropWhile_cons_of_pos (by simp [q]), List.length_cons]
            exact Nat.lt_succ_of_le (List.dropWhile_sublist _).length_le
          rw [← hsplit]
          exact run (p c) _ _ (by simp [q])
            (fun d hd => by simpa [q] using List.mem_takeWhile_imp hd) hends (ih _ hshort _ rfl)

/-- A property of all texts, by the longest runs of characters with `p` and the others between
them. -/
theorem runs_induction (p : β → Bool) {P : List β → Prop} (nil : P [])
    (other : ∀ c t, p c = false → P t → P (c :: t))
    (run : ∀ w t, w ≠ [] → (∀ c ∈ w, p c = true) → (∀ c ∈ t.head?, p c = false) → P t →
      P (w ++ t)) : ∀ cs, P cs := by
  apply splits_induction p nil
  intro b w t hne hw ht ih
  cases b with
  | true => exact run w t hne hw ht ih
  | false =>
      clear hne
      induction w with
      | nil => exact ih
      | cons c w hrest =>
          exact other c (w ++ t) (hw c List.mem_cons_self)
            (hrest fun d hd => hw d (List.mem_cons_of_mem c hd))

/-- Splitting where `p` changes takes off the first run. -/
theorem splitBy_run {p : β → Bool} {run t : List β} {b : Bool} (hne : run ≠ [])
    (hrun : ∀ c ∈ run, p c = b) (ht : ∀ c ∈ t.head?, p c = !b) :
    (run ++ t).splitBy (fun x y => p x == p y) = run :: t.splitBy fun x y => p x == p y := by
  have hchain : run.IsChain fun x y => (p x == p y) = true := by
    refine List.Pairwise.isChain ?_
    exact List.pairwise_of_forall_mem_list fun x hx y hy => by rw [hrun x hx, hrun y hy]; simp
  rw [List.splitBy_append, List.splitBy_of_isChain hne hchain]
  · rfl
  · intro x hx y hy
    rw [hrun x (List.mem_of_getLast? hx), ht y hy]
    simp

end Runs

/-! ## First occurrences -/

theorem splitOnce?_append (h : sep ∉ left) (t : List Char) :
    splitOnce? sep (left ++ sep :: t) = some (left, t) := by
  induction left with
  | nil => exact if_pos rfl
  | cons c left ih =>
      have hc : ¬c = sep := fun hc => h (hc ▸ List.mem_cons_self)
      rw [List.cons_append, splitOnce?, if_neg hc, ih fun hmem => h (List.mem_cons_of_mem c hmem)]
      rfl

theorem splitOnce?_of_not_mem (h : sep ∉ left) : splitOnce? sep left = none := by
  induction left with
  | nil => rfl
  | cons c left ih =>
      have hc : ¬c = sep := fun hc => h (hc ▸ List.mem_cons_self)
      rw [splitOnce?, if_neg hc, ih fun hmem => h (List.mem_cons_of_mem c hmem)]
      rfl

theorem splitOnce?_eq_some_iff {sep : Char} {cs left right : List Char} :
    splitOnce? sep cs = some (left, right) ↔ cs = left ++ sep :: right ∧ sep ∉ left := by
  constructor
  · intro h
    by_cases hmem : sep ∈ cs
    · obtain ⟨before, after, rfl, hbefore⟩ := List.eq_append_cons_of_mem hmem
      rw [splitOnce?_append hbefore] at h
      cases h
      exact ⟨rfl, hbefore⟩
    · rw [splitOnce?_of_not_mem hmem] at h
      cases h
  · rintro ⟨rfl, hleft⟩
    exact splitOnce?_append hleft right

/-! ## Starts -/

@[simp] theorem dropStart?_append (start cs : List Char) :
    dropStart? start (start ++ cs) = some cs := by
  induction start with
  | nil => rfl
  | cons a start ih => rw [List.cons_append, dropStart?, if_pos rfl, ih]

theorem eq_append_of_dropStart? {start cs rest : List Char}
    (h : dropStart? start cs = some rest) : cs = start ++ rest := by
  induction start generalizing cs with
  | nil => exact Option.some.inj h
  | cons a start ih =>
      cases cs with
      | nil => exact absurd h (by simp [dropStart?])
      | cons c cs =>
          rw [dropStart?] at h
          split at h
          · rename_i hac
            rw [hac, ih h]
            rfl
          · exact absurd h (by simp)

/-! ## Lines -/

theorem linesOf_ended (hpieces : ∀ p ∈ pieces, '\n' ∉ p) :
    linesOf (ended '\n' pieces) = pieces.map dropReturn := by
  have hsplit := splitChars_ended hpieces (List.not_mem_nil : '\n' ∉ [])
  rw [List.append_nil] at hsplit
  simp only [linesOf, hsplit, List.getLastD_concat, List.dropLast_concat, List.isEmpty_nil, if_true]

theorem length_linesOf_ended (hpieces : ∀ p ∈ pieces, '\n' ∉ p) :
    (linesOf (ended '\n' pieces)).length = (ended '\n' pieces).count '\n' := by
  rw [linesOf_ended hpieces, List.length_map, count_ended hpieces]

theorem exists_closed {cs : List Char} (h : cs.getLast? = some '\n') :
    ∃ pieces, cs = ended '\n' pieces ∧ (∀ p ∈ pieces, '\n' ∉ p) ∧
      pieces.length = cs.count '\n' := by
  obtain ⟨pieces, left, rfl, hpieces, hleft⟩ := exists_ended '\n' cs
  obtain rfl : left = [] := by
    by_contra hne
    have hlast : left.getLast? = some '\n' := by
      rw [← h, List.getLast?_append_of_ne_nil _ hne]
    exact hleft (List.mem_of_getLast? hlast)
  rw [List.append_nil]
  exact ⟨pieces, rfl, hpieces, (count_ended hpieces).symm⟩

theorem length_linesOf {cs : List Char} (h : cs.getLast? = some '\n') :
    (linesOf cs).length = cs.count '\n' := by
  obtain ⟨pieces, rfl, hpieces, -⟩ := exists_closed h
  exact length_linesOf_ended hpieces

theorem dropReturn_eq (cs : List Char) : dropReturn cs = cs ∨ cs = dropReturn cs ++ ['\r'] := by
  rw [dropReturn]
  split
  · rename_i r hr
    exact .inr (by rw [← List.reverse_cons, ← hr, List.reverse_reverse])
  · exact .inl rfl

theorem mem_of_mem_dropReturn {c : Char} {cs : List Char} (h : c ∈ dropReturn cs) : c ∈ cs := by
  rcases dropReturn_eq cs with hcs | hcs
  · rwa [hcs] at h
  · rw [hcs]
    exact List.mem_append_left _ h

theorem not_mem_of_mem_linesOf {cs line : List Char} (h : line ∈ linesOf cs) : '\n' ∉ line := by
  obtain ⟨pieces, left, rfl, hpieces, hleft⟩ := exists_ended '\n' cs
  have hclosed : ∀ p ∈ pieces.map dropReturn, '\n' ∉ p := by
    intro p hp hn
    obtain ⟨q, hq, rfl⟩ := List.mem_map.mp hp
    exact hpieces q hq (mem_of_mem_dropReturn hn)
  simp only [linesOf, splitChars_ended hpieces hleft, List.getLastD_concat,
    List.dropLast_concat] at h
  split at h
  · exact hclosed line h
  · rcases List.mem_append.mp h with h | h
    · exact hclosed line h
    · rw [List.mem_singleton.mp h]
      exact hleft

end Segue.Text
