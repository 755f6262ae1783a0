import Segue.Proofs.Text

/-!
# Blanks and words of texts

Trimming takes the blanks at both ends. The words of a text are its longest runs of other
characters, so that blanks at the ends do not change them.
-/

namespace Segue.Text

def Blank (cs : List Char) : Prop := ∀ c ∈ cs, isBlank c = true

theorem blank_nil : Blank [] := fun _ hc => absurd hc List.not_mem_nil

theorem Blank.not_mem {cs : List Char} (h : Blank cs) {c : Char} (hc : isBlank c = false) :
    c ∉ cs := fun hmem => absurd (h c hmem) (by simp [hc])

/-! ## Trimming -/

theorem trimLeft_append {before : List Char} (h : Blank before) (cs : List Char) :
    trimLeft (before ++ cs) = trimLeft cs := List.dropWhile_append_of_pos h

theorem trimRight_append {after : List Char} (h : Blank after) (cs : List Char) :
    trimRight (cs ++ after) = trimRight cs := by
  have hreverse : ∀ c ∈ after.reverse, isBlank c = true := fun c hc => h c (List.mem_reverse.mp hc)
  rw [trimRight, List.reverse_append, List.dropWhile_append_of_pos hreverse, trimRight]

@[simp]
theorem trimLeft_eq_nil {cs : List Char} : trimLeft cs = [] ↔ Blank cs := List.dropWhile_eq_nil_iff

theorem trimChars_append {after : List Char} (h : Blank after) (cs : List Char) :
    trimChars (cs ++ after) = trimChars cs := by
  rw [trimChars, trimChars, trimLeft, List.dropWhile_append]
  cases hcs : (cs.dropWhile isBlank).isEmpty with
  | true =>
      have hafter : after.dropWhile isBlank = [] := List.dropWhile_eq_nil_iff.mpr h
      rw [if_pos rfl, hafter, trimLeft, List.isEmpty_iff.mp hcs]
  | false => rw [if_neg Bool.false_ne_true, trimRight_append h, trimLeft]

theorem trimChars_blanks {before after : List Char} (hbefore : Blank before) (hafter : Blank after)
    (cs : List Char) : trimChars (before ++ cs ++ after) = trimChars cs := by
  rw [trimChars_append hafter, trimChars, trimLeft_append hbefore, trimChars]

theorem exists_trimRight (cs : List Char) : ∃ after, Blank after ∧ cs = trimRight cs ++ after := by
  refine ⟨(cs.reverse.takeWhile isBlank).reverse, ?_, ?_⟩
  · intro c hc
    exact List.mem_takeWhile_imp (List.mem_reverse.mp hc)
  · rw [trimRight, ← List.reverse_append, List.takeWhile_append_dropWhile, List.reverse_reverse]

theorem exists_trimLeft (cs : List Char) : ∃ before, Blank before ∧ cs = before ++ trimLeft cs :=
  ⟨cs.takeWhile isBlank, fun _ hc => List.mem_takeWhile_imp hc,
    List.takeWhile_append_dropWhile.symm⟩

theorem exists_trimChars (cs : List Char) :
    ∃ before after, Blank before ∧ Blank after ∧ cs = before ++ trimChars cs ++ after := by
  obtain ⟨before, hbefore, hcs⟩ := exists_trimLeft cs
  obtain ⟨after, hafter, htrim⟩ := exists_trimRight (trimLeft cs)
  refine ⟨before, after, hbefore, hafter, ?_⟩
  rw [trimChars, List.append_assoc, ← htrim, ← hcs]

theorem getLast?_trimRight (cs : List Char) :
    ∀ c ∈ (trimRight cs).getLast?, isBlank c = false := by
  intro c hc
  have hne : trimRight cs ≠ [] := List.ne_nil_of_mem (List.mem_of_getLast? hc)
  have hlast : ¬ isBlank ((trimRight cs).getLast hne) = true :=
    List.rdropWhile_last_not isBlank cs hne
  rw [List.getLast_of_mem_getLast? hc] at hlast
  simpa using hlast

@[simp] theorem trimChars_eq_nil {cs : List Char} : trimChars cs = [] ↔ Blank cs := by
  constructor
  · intro h
    obtain ⟨before, after, hbefore, hafter, hcs⟩ := exists_trimChars cs
    rw [h, List.append_nil] at hcs
    intro c hc
    rw [hcs] at hc
    exact (List.mem_append.mp hc).elim (hbefore c) (hafter c)
  · intro h
    rw [trimChars, trimLeft_eq_nil.mpr h]
    rfl

theorem trimChars_eq_self {c : Char} {cs : List Char} (hfirst : isBlank c = false)
    (hlast : ∀ d ∈ (c :: cs).getLast?, isBlank d = false) : trimChars (c :: cs) = c :: cs := by
  have hleft : trimLeft (c :: cs) = c :: cs := List.dropWhile_cons_of_neg (by simp [hfirst])
  have hright : (c :: cs).rdropWhile isBlank = c :: cs := by
    rw [List.rdropWhile_eq_self_iff]
    intro hne hblank
    have hmem : (c :: cs).getLast hne ∈ (c :: cs).getLast? := List.getLast_mem_getLast? hne
    rw [hlast _ hmem] at hblank
    exact Bool.false_ne_true hblank
  rw [trimChars, hleft]
  exact hright

/-- Not empty, and without blanks at both ends. -/
structure Trimmed (cs : List Char) : Prop where
  ne_nil : cs ≠ []
  head : ∀ c ∈ cs.head?, isBlank c = false
  last : ∀ c ∈ cs.getLast?, isBlank c = false

theorem Trimmed.trimChars_eq {cs : List Char} (h : Trimmed cs) : trimChars cs = cs := by
  cases cs with
  | nil => rfl
  | cons c cs => exact trimChars_eq_self (h.head c rfl) h.last

theorem trimmed_trimChars {cs : List Char} (h : trimChars cs ≠ []) : Trimmed (trimChars cs) := by
  refine ⟨h, ?_, getLast?_trimRight (trimLeft cs)⟩
  intro c hc
  obtain ⟨after, -, hleft⟩ := exists_trimRight (trimLeft cs)
  have hhead : (trimLeft cs).head? = some c := by
    rw [hleft, List.head?_append_of_ne_nil (trimRight (trimLeft cs)) h]
    exact hc
  have hnot := List.head?_dropWhile_not isBlank cs
  rw [← trimLeft, hhead] at hnot
  simpa using hnot

/-- Pieces are trimmed with or without the whole text. -/
theorem map_trimChars_splitChars {sep : Char} (hsep : isBlank sep = false) (cs : List Char) :
    (splitChars (· = sep) (trimChars cs)).map trimChars =
      (splitChars (· = sep) cs).map trimChars := by
  obtain ⟨before, after, hbefore, hafter, hcs⟩ := exists_trimChars cs
  obtain ⟨pieces, left, htrim, hpieces, hleft⟩ := exists_ended sep (trimChars cs)
  rw [htrim] at hcs
  rw [htrim, splitChars_ended hpieces hleft, hcs]
  have hend : sep ∉ left ++ after := by simp [hleft, hafter.not_mem hsep]
  cases pieces with
  | nil =>
      have hwhole : sep ∉ before ++ left ++ after := by
        simp [hleft, hbefore.not_mem hsep, hafter.not_mem hsep]
      have hsplit := splitChars_ended (fun _ h => absurd h List.not_mem_nil) hwhole
      rw [ended, List.flatMap_nil, List.nil_append, List.nil_append] at hsplit
      rw [ended, List.flatMap_nil, List.nil_append, List.nil_append, hsplit]
      simp only [List.map_cons, List.map_nil, trimChars_blanks hbefore hafter]
  | cons p ps =>
      have hp : ∀ q ∈ (before ++ p) :: ps, sep ∉ q := by
        intro q hq
        rcases List.mem_cons.mp hq with rfl | hq
        · simp [hbefore.not_mem hsep, hpieces p List.mem_cons_self]
        · exact hpieces q (List.mem_cons_of_mem p hq)
      have hwhole : before ++ (ended sep (p :: ps) ++ left) ++ after =
          ended sep ((before ++ p) :: ps) ++ (left ++ after) := by
        simp only [ended_cons, List.append_assoc, List.cons_append]
      have hfirst : trimChars (before ++ p) = trimChars p := by
        have hblanks := trimChars_blanks hbefore blank_nil p
        rwa [List.append_nil] at hblanks
      rw [hwhole, splitChars_ended hp hend]
      simp only [List.cons_append, List.map_cons, List.map_append, List.map_nil, hfirst,
        trimChars_append hafter]

/-! ## Words -/

/-- A text in front of which a word ends. -/
def StartsBlank (cs : List Char) : Prop := ∀ c ∈ cs.head?, isBlank c = true

/-- A property of all texts, by their words and the blanks between them. -/
theorem blanks_induction {P : List Char → Prop} (nil : P [])
    (blank : ∀ c t, isBlank c = true → P t → P (c :: t))
    (word : ∀ w t, w ≠ [] → (∀ c ∈ w, isBlank c = false) → StartsBlank t → P t → P (w ++ t)) :
    ∀ cs, P cs := by
  apply runs_induction (fun c => !isBlank c) nil
  · intro c t hc ih
    exact blank c t (by simpa using hc) ih
  · intro w t hne hw ht ih
    exact word w t hne (fun c hc => by simpa using hw c hc) (fun c hc => by simpa using ht c hc) ih

theorem words_append {w t : List Char} (hne : w ≠ []) (hw : ∀ c ∈ w, isBlank c = false)
    (ht : StartsBlank t) : words (w ++ t) = w :: words t := by
  obtain ⟨c, cs, rfl⟩ := List.exists_cons_of_ne_nil hne
  have hany : ((c :: cs).any fun d => !isBlank d) = true :=
    List.any_eq_true.mpr ⟨c, List.mem_cons_self, by rw [hw c List.mem_cons_self]; rfl⟩
  rw [words, splitBy_run hne hw ht, List.filter_cons_of_pos (by exact hany), words]

theorem words_blanks {before t : List Char} (hbefore : Blank before)
    (ht : ∀ c ∈ t.head?, isBlank c = false) : words (before ++ t) = words t := by
  cases before with
  | nil => rfl
  | cons c cs =>
      have hnone : ((c :: cs).any fun d => !isBlank d) = false := by
        rw [List.any_eq_false]
        intro d hd
        rw [hbefore d hd]
        simp
      rw [words, splitBy_run (List.cons_ne_nil c cs) hbefore ht,
        List.filter_cons_of_neg (by rw [hnone]; exact Bool.false_ne_true), words]

theorem words_cons {c : Char} (hc : isBlank c = true) (t : List Char) :
    words (c :: t) = words t := by
  obtain ⟨before, hbefore, ht⟩ := exists_trimLeft t
  have hstart : ∀ d ∈ (trimLeft t).head?, isBlank d = false := by
    intro d hd
    have := List.head?_dropWhile_not isBlank t
    rw [trimLeft] at hd
    simpa [Option.mem_def.mp hd] using this
  have hcons : Blank (c :: before) := by
    intro d hd
    rcases List.mem_cons.mp hd with rfl | hd
    · exact hc
    · exact hbefore d hd
  rw [ht, ← List.cons_append, words_blanks hcons hstart, words_blanks hbefore hstart]

theorem startsBlank_append {t after : List Char} (ht : StartsBlank t) (hafter : Blank after) :
    StartsBlank (t ++ after) := by
  cases t with
  | nil => exact fun c hc => hafter c (List.mem_of_mem_head? hc)
  | cons d t => exact ht

theorem words_append_blanks {after : List Char} (hafter : Blank after) (cs : List Char) :
    words (cs ++ after) = words cs := by
  induction cs using blanks_induction with
  | nil =>
      have hend : words (after ++ []) = words [] := words_blanks hafter (by simp)
      rwa [List.append_nil] at hend
  | blank c t hc ih => rw [List.cons_append, words_cons hc, words_cons hc, ih]
  | word w t hne hw ht ih =>
      rw [List.append_assoc, words_append hne hw (startsBlank_append ht hafter),
        words_append hne hw ht, ih]

theorem not_blank_of_mem_words {w cs : List Char} (h : w ∈ words cs) :
    ∀ c ∈ w, isBlank c = false := by
  induction cs using blanks_induction with
  | nil => exact absurd h List.not_mem_nil
  | blank c t hc ih =>
      rw [words_cons hc] at h
      exact ih h
  | word v t hne hv ht ih =>
      rw [words_append hne hv ht] at h
      rcases List.mem_cons.mp h with rfl | h
      · exact hv
      · exact ih h

/-! ## Words joined again -/

def squeeze (cs : List Char) : List Char := [' '].intercalate (words cs)

theorem words_blank_append {before : List Char} (h : Blank before) (t : List Char) :
    words (before ++ t) = words t := by
  induction before with
  | nil => rfl
  | cons c before ih =>
      rw [List.cons_append, words_cons (h c List.mem_cons_self),
        ih fun d hd => h d (List.mem_cons_of_mem c hd)]

@[simp] theorem words_eq_nil_iff {cs : List Char} : words cs = [] ↔ Blank cs := by
  constructor
  · intro h
    induction cs using blanks_induction with
    | nil => exact blank_nil
    | blank c t hc ih =>
        rw [words_cons hc] at h
        intro d hd
        rcases List.mem_cons.mp hd with rfl | hd
        · exact hc
        · exact ih h d hd
    | word w t hne hw ht _ => exact absurd h (by simp [words_append hne hw ht])
  · intro h
    have hwords := words_blank_append h []
    rwa [List.append_nil] at hwords

theorem squeeze_blank_append {before : List Char} (h : Blank before) (t : List Char) :
    squeeze (before ++ t) = squeeze t := by
  rw [squeeze, words_blank_append h, squeeze]

theorem squeeze_append_blank {after : List Char} (h : Blank after) (cs : List Char) :
    squeeze (cs ++ after) = squeeze cs := by
  rw [squeeze, words_append_blanks h, squeeze]

theorem squeeze_append {w t : List Char} (hne : w ≠ []) (hw : ∀ c ∈ w, isBlank c = false)
    (ht : StartsBlank t) :
    squeeze (w ++ t) = if words t = [] then w else w ++ ' ' :: squeeze t := by
  rw [squeeze, words_append hne hw ht, squeeze]
  cases words t with
  | nil => simp
  | cons v ws =>
      rw [List.intercalate_cons_cons, List.append_assoc, if_neg (List.cons_ne_nil v ws)]
      rfl

@[simp] theorem squeeze_eq_nil_iff {cs : List Char} : squeeze cs = [] ↔ words cs = [] := by
  constructor
  · intro h
    induction cs using blanks_induction with
    | nil => exact words_eq_nil_iff.mpr blank_nil
    | blank c t hc ih =>
        rw [squeeze, words_cons hc] at h
        rw [words_cons hc]
        exact ih h
    | word w t hne hw ht _ =>
        rw [squeeze_append hne hw ht] at h
        split at h
        · exact absurd h hne
        · exact absurd h (by simp)
  · intro h
    rw [squeeze, h]
    rfl

theorem squeeze_word {w : List Char} (hne : w ≠ []) (hw : ∀ c ∈ w, isBlank c = false) :
    squeeze w = w := by
  have hsqueeze := squeeze_append hne hw (t := []) (by simp [StartsBlank])
  rw [List.append_nil] at hsqueeze
  exact hsqueeze

theorem mem_squeeze {c : Char} {cs : List Char} (h : c ∈ squeeze cs) : c = ' ' ∨ c ∈ cs := by
  induction cs using blanks_induction with
  | nil => exact absurd h List.not_mem_nil
  | blank d t hd ih =>
      rw [← List.singleton_append, squeeze_blank_append (by simpa [Blank] using hd)] at h
      exact (ih h).imp_right (List.mem_cons_of_mem d)
  | word w t hne hw ht ih =>
      rw [squeeze_append hne hw ht] at h
      split at h
      · exact .inr (List.mem_append_left t h)
      · rcases List.mem_append.mp h with h | h
        · exact .inr (List.mem_append_left t h)
        · rcases List.mem_cons.mp h with h | h
          · exact .inl h
          · exact (ih h).imp_right (List.mem_append_right w)

theorem exists_word (t : List Char) :
    ∃ v u, t = v ++ u ∧ (∀ d ∈ v, isBlank d = false) ∧ StartsBlank u := by
  refine ⟨t.takeWhile (!isBlank ·), t.dropWhile (!isBlank ·),
    List.takeWhile_append_dropWhile.symm, fun d hd => ?_, fun d hd => ?_⟩
  · simpa using List.mem_takeWhile_imp hd
  · have hnot := List.head?_dropWhile_not (!isBlank ·) t
    rw [Option.mem_def.mp hd] at hnot
    simpa using hnot

theorem squeeze_ends (cs : List Char) : (∀ c ∈ (squeeze cs).head?, isBlank c = false) ∧
    ∀ c ∈ (squeeze cs).getLast?, isBlank c = false := by
  induction cs using blanks_induction with
  | nil => simp [squeeze_eq_nil_iff.mpr (words_eq_nil_iff.mpr blank_nil)]
  | blank c t hc ih =>
      have hsqueeze : squeeze (c :: t) = squeeze t := by rw [squeeze, words_cons hc, squeeze]
      rwa [hsqueeze]
  | word w t hne hw ht ih =>
      rw [squeeze_append hne hw ht]
      split
      · exact ⟨fun c hc => hw c (List.mem_of_mem_head? hc),
          fun c hc => hw c (List.mem_of_getLast? hc)⟩
      · rename_i hwords
        have hsqueeze : squeeze t ≠ [] := mt squeeze_eq_nil_iff.mp hwords
        rw [List.head?_append_of_ne_nil _ hne, List.getLast?_append_of_ne_nil _ (by simp),
          List.getLast?_cons_of_ne_nil hsqueeze]
        exact ⟨fun c hc => hw c (List.mem_of_mem_head? hc), ih.2⟩

@[simp] theorem trimChars_squeeze (cs : List Char) : trimChars (squeeze cs) = squeeze cs := by
  obtain ⟨hhead, hlast⟩ := squeeze_ends cs
  cases h : squeeze cs with
  | nil => rfl
  | cons c t =>
      rw [h] at hhead hlast
      exact trimChars_eq_self (hhead c rfl) hlast

section

variable {c : Char} (hc : isBlank c = false)

include hc

theorem exists_squeeze_cons (t : List Char) :
    ∃ gap, Blank gap ∧ squeeze (c :: t) = c :: (gap ++ squeeze t) := by
  obtain ⟨v, u, rfl, hv, hu⟩ := exists_word t
  have hword : ∀ d ∈ c :: v, isBlank d = false := List.forall_mem_cons.mpr ⟨hc, hv⟩
  have hcons := squeeze_append (List.cons_ne_nil c v) hword hu
  rw [List.cons_append] at hcons
  cases v with
  | nil =>
      rw [List.nil_append] at hcons ⊢
      by_cases hwords : words u = []
      · rw [if_pos hwords] at hcons
        exact ⟨[], blank_nil, by rw [hcons, squeeze_eq_nil_iff.mpr hwords]; rfl⟩
      · rw [if_neg hwords] at hcons
        exact ⟨[' '], by simp [Blank]; decide, hcons⟩
  | cons d v =>
      refine ⟨[], blank_nil, ?_⟩
      rw [hcons, squeeze_append (List.cons_ne_nil d v) hv hu]
      split <;> rfl

theorem exists_squeeze_append (cs t : List Char) :
    ∃ gap, Blank gap ∧ squeeze (cs ++ c :: t) = squeeze cs ++ gap ++ squeeze (c :: t) := by
  induction cs using blanks_induction with
  | nil => exact ⟨[], blank_nil, rfl⟩
  | blank d u hd ih =>
      obtain ⟨gap, hgap, heq⟩ := ih
      have hblank : Blank [d] := by simpa [Blank] using hd
      refine ⟨gap, hgap, ?_⟩
      rw [← List.singleton_append (x := d) (l := u), List.append_assoc,
        squeeze_blank_append hblank, squeeze_blank_append hblank, heq]
  | word w u hne hw hu ih =>
      obtain ⟨gap, hgap, heq⟩ := ih
      cases u with
      | nil =>
          obtain ⟨v, u, rfl, hv, hu⟩ := exists_word t
          have hcv : ∀ d ∈ c :: v, isBlank d = false := List.forall_mem_cons.mpr ⟨hc, hv⟩
          have hwcv : ∀ d ∈ w ++ c :: v, isBlank d = false :=
            List.forall_mem_append.mpr ⟨hw, hcv⟩
          have hlong := squeeze_append (by simp) hwcv hu
          have hshort := squeeze_append (List.cons_ne_nil c v) hcv hu
          refine ⟨[], blank_nil, ?_⟩
          rw [List.append_assoc, List.cons_append] at hlong
          rw [List.cons_append] at hshort
          rw [List.append_nil, squeeze_word hne hw, List.append_nil, hlong, hshort]
          split <;> simp
      | cons d u =>
          have hwords : words (d :: u ++ c :: t) ≠ [] := by
            intro hnil
            have hblank := words_eq_nil_iff.mp hnil c (by simp)
            exact absurd hblank (by simp [hc])
          have hstart : StartsBlank (d :: u ++ c :: t) := hu
          rw [List.append_assoc, squeeze_append hne hw hstart, if_neg hwords, heq,
            squeeze_append hne hw hu]
          by_cases hnone : words (d :: u) = []
          · refine ⟨' ' :: gap, ?_, ?_⟩
            · exact List.forall_mem_cons.mpr ⟨by decide, hgap⟩
            · rw [if_pos hnone, squeeze_eq_nil_iff.mpr hnone]
              simp
          · exact ⟨gap, hgap, by rw [if_neg hnone]; simp⟩

/-- What stands between separators is the same with the words joined again. -/
theorem map_trimChars_splitChars_squeeze (cs : List Char) :
    (splitChars (· = c) (squeeze cs)).map trimChars = (splitChars (· = c) cs).map squeeze := by
  have hspace : c ≠ ' ' := by
    rintro rfl
    exact absurd hc (by decide)
  have hkept : ∀ {p}, c ∉ p → c ∉ squeeze p := fun hp h => (mem_squeeze h).elim hspace hp
  obtain ⟨pieces, left, rfl, hpieces, hleft⟩ := exists_ended c cs
  induction pieces with
  | nil =>
      rw [ended, List.flatMap_nil, List.nil_append, splitChars_of_not_mem hleft,
        splitChars_of_not_mem (hkept hleft), List.map_singleton, List.map_singleton,
        trimChars_squeeze]
  | cons p ps ih =>
      have hp := hpieces p List.mem_cons_self
      have hrest := ih fun q hq => hpieces q (List.mem_cons_of_mem p hq)
      rw [ended_cons, List.append_assoc, List.cons_append]
      generalize ended c ps ++ left = t at hrest ⊢
      obtain ⟨before, hbefore, hcs⟩ := exists_squeeze_append hc p t
      obtain ⟨after, hafter, ht⟩ := exists_squeeze_cons hc t
      have hfirst : c ∉ squeeze p ++ before := by simp [hkept hp, hbefore.not_mem hc]
      have htrim : trimChars (after ++ squeeze t) = squeeze t := by
        have hblanks := trimChars_blanks hafter blank_nil (squeeze t)
        rwa [List.append_nil, trimChars_squeeze] at hblanks
      rw [hcs, ht, splitChars_append_cons, splitChars_append_cons, splitChars_of_not_mem hfirst,
        splitChars_of_not_mem hp, List.map_append, List.map_append, ← hrest,
        ← map_trimChars_splitChars hc (after ++ squeeze t), htrim, List.map_singleton,
        trimChars_append hbefore, trimChars_squeeze, List.map_singleton]

end

end Segue.Text
