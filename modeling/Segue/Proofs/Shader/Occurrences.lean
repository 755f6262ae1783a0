import Segue.Proofs.Text
import Segue.Shader.Wrap

/-!
# The loop over the occurrences of a name

A name is searched for from left to right; behind a match the search goes on where the match ends,
also if the match was part of a longer word and has been left. A match inside of a word cannot reach
out of it, and one that is all of the word starts where the word does. So the loop replaces exactly
the words that are the name, whatever the words are made of.
-/

namespace Segue.Shader

variable {β : Type} {isIdent : β → Bool} {name new : List β}

/-! ## Parts of runs -/

theorem not_of_mem_head? {t : List β} (ht : ∀ c ∈ t.head?, isIdent c = false) :
    t.head?.any isIdent = false := by
  cases hhead : t.head? with
  | none => rfl
  | some c => exact ht c hhead

theorem not_of_mem_getLast? {t : List β} (ht : ∀ c ∈ t.getLast?, isIdent c = false) :
    t.getLast?.any isIdent = false := by
  cases hlast : t.getLast? with
  | none => rfl
  | some c => exact ht c hlast

/-- What starts in a run and is made of its characters ends in it. -/
theorem prefix_of_prefix_append (hname : ∀ c ∈ name, isIdent c = true) {w t : List β}
    (ht : ∀ c ∈ t.head?, isIdent c = false) (h : name <+: w ++ t) : name <+: w := by
  obtain ⟨rest, hrest⟩ := h
  rcases List.append_eq_append_iff.mp hrest with ⟨u, rfl, -⟩ | ⟨u, rfl, hu⟩
  · exact List.prefix_append name u
  · cases u with
    | nil => exact (List.append_nil w).symm ▸ List.prefix_rfl
    | cons c u =>
        have hc := hname c (List.mem_append_right w List.mem_cons_self)
        rw [ht c (by rw [hu]; rfl)] at hc
        exact absurd hc Bool.false_ne_true

/-! ## What stands alone -/

theorem standsAlone_append (before part after : List β) :
    standsAlone isIdent (before ++ part ++ after) before.length (before.length + part.length) =
      (!before.getLast?.any isIdent && !after.head?.any isIdent) := by
  have hafter : (before ++ part ++ after)[before.length + part.length]? = after.head? := by
    rw [← List.length_append, List.getElem?_append_right (Nat.le_refl _), Nat.sub_self,
      List.head?_eq_getElem?]
  have hbefore : (before.length != 0 &&
      (before ++ part ++ after)[before.length - 1]?.any isIdent) = before.getLast?.any isIdent := by
    cases before using List.reverseRecOn with
    | nil => rfl
    | append_singleton before c => simp
  rw [standsAlone, hafter, hbefore]

theorem standsAlone_run {before w after : List β}
    (hbefore : ∀ c ∈ before.getLast?, isIdent c = false)
    (hafter : ∀ c ∈ after.head?, isIdent c = false) :
    standsAlone isIdent (before ++ (w ++ after)) before.length (before.length + w.length) =
      true := by
  rw [← List.append_assoc, standsAlone_append, not_of_mem_getLast? hbefore, not_of_mem_head? hafter]
  rfl

theorem standsAlone_part {before after u v : List β} (hu : ∀ c ∈ u, isIdent c = true)
    (hv : ∀ c ∈ v, isIdent c = true) (hlonger : u ≠ [] ∨ v ≠ []) :
    standsAlone isIdent (before ++ (u ++ name ++ v ++ after)) (before.length + u.length)
      (before.length + u.length + name.length) = false := by
  have htext : before ++ (u ++ name ++ v ++ after) = before ++ u ++ name ++ (v ++ after) := by
    simp only [List.append_assoc]
  rw [htext, ← List.length_append, standsAlone_append]
  rcases hlonger with hne | hne
  · rw [List.getLast?_append_of_ne_nil _ hne, List.getLast?_eq_some_getLast hne, Option.any_some,
      hu _ (List.getLast_mem hne), Bool.not_true, Bool.false_and]
  · obtain ⟨c, v, rfl⟩ := List.exists_cons_of_ne_nil hne
    rw [List.cons_append, List.head?_cons, Option.any_some, hv c List.mem_cons_self,
      Bool.not_true, Bool.and_false]

theorem foldl_visit_eq_self {text : List β} {found : List Nat}
    (h : ∀ i ∈ found, standsAlone isIdent text i (i + name.length) = false) (r : Rewriting β) :
    found.foldl (Rewriting.visit isIdent name new text) r = r := by
  induction found with
  | nil => rfl
  | cons i found ih =>
      rw [List.foldl_cons, Rewriting.visit, h i List.mem_cons_self, if_neg Bool.false_ne_true,
        ih fun j hj => h j (List.mem_cons_of_mem i hj)]

/-! ## Places of matches -/

variable [DecidableEq β]

@[simp] theorem occurrences_skip (part w t : List β) (start : Nat) :
    occurrences part start w.length (w ++ t) = occurrences part (start + w.length) 0 t := by
  induction w generalizing start with
  | nil => rfl
  | cons c w ih =>
      rw [List.length_cons, List.cons_append, occurrences, ih, Nat.add_right_comm, Nat.add_assoc]

theorem occurrences_name (hne : name ≠ []) (t : List β) (start : Nat) :
    occurrences name start 0 (name ++ t) = start :: occurrences name (start + name.length) 0 t := by
  obtain ⟨a, u, rfl⟩ := List.exists_cons_of_ne_nil hne
  have hfound : (a :: u).isPrefixOf (a :: (u ++ t)) = true :=
    List.isPrefixOf_iff_prefix.mpr (List.prefix_append (a :: u) t)
  rw [List.cons_append, occurrences, if_pos hfound, List.length_cons, Nat.add_sub_cancel,
    occurrences_skip, Nat.add_right_comm, Nat.add_assoc]

theorem occurrences_stretch (hne : name ≠ []) (hname : ∀ c ∈ name, isIdent c = true) {w : List β}
    (hw : ∀ c ∈ w, isIdent c = false) (t : List β) (start : Nat) :
    occurrences name start 0 (w ++ t) = occurrences name (start + w.length) 0 t := by
  obtain ⟨a, u, rfl⟩ := List.exists_cons_of_ne_nil hne
  induction w generalizing start with
  | nil => rfl
  | cons c w ih =>
      have hmiss : ¬(a :: u).isPrefixOf (c :: (w ++ t)) = true := by
        intro h
        have hac := (List.cons_prefix_cons.mp (List.isPrefixOf_iff_prefix.mp h)).1
        have ha := hname a List.mem_cons_self
        rw [hac, hw c List.mem_cons_self] at ha
        exact Bool.false_ne_true ha
      rw [List.cons_append, occurrences, if_neg hmiss,
        ih fun d hd => hw d (List.mem_cons_of_mem c hd), List.length_cons, Nat.add_right_comm,
        Nat.add_assoc]

/-- Every match that starts in a run ends in it, and the search goes on behind the run. -/
theorem exists_occurrences_run (hname : ∀ c ∈ name, isIdent c = true) {t : List β}
    (ht : ∀ c ∈ t.head?, isIdent c = false) (w : List β) (start skip : Nat)
    (hskip : skip ≤ w.length) :
    ∃ found, occurrences name start skip (w ++ t) =
        found ++ occurrences name (start + w.length) 0 t ∧
      ∀ i ∈ found, ∃ u v, w = u ++ name ++ v ∧ i = start + u.length := by
  induction w generalizing start skip with
  | nil =>
      obtain rfl := Nat.le_zero.mp hskip
      exact ⟨[], rfl, by simp⟩
  | cons c w ih =>
      have hlater : ∀ {found : List Nat},
          (∀ i ∈ found, ∃ u v, w = u ++ name ++ v ∧ i = start + 1 + u.length) →
          ∀ i ∈ found, ∃ u v, c :: w = u ++ name ++ v ∧ i = start + u.length := by
        intro found hfound i hi
        obtain ⟨u, v, rfl, rfl⟩ := hfound i hi
        exact ⟨c :: u, v, rfl, by rw [List.length_cons, Nat.add_right_comm, Nat.add_assoc]⟩
      have hlength : start + (c :: w).length = start + 1 + w.length := by
        rw [List.length_cons, Nat.add_right_comm, Nat.add_assoc]
      rw [hlength, List.cons_append]
      cases skip with
      | succ skip =>
          obtain ⟨found, hfound, hplaces⟩ := ih (start + 1) skip (Nat.le_of_succ_le_succ hskip)
          exact ⟨found, hfound, hlater hplaces⟩
      | zero =>
          rw [occurrences]
          split
          · rename_i hmatch
            obtain ⟨v, hv⟩ := prefix_of_prefix_append hname ht (w := c :: w)
              (List.isPrefixOf_iff_prefix.mp hmatch)
            have hshort : name.length - 1 ≤ w.length := by
              have hlengths := congrArg List.length hv
              rw [List.length_append, List.length_cons] at hlengths
              omega
            obtain ⟨found, hfound, hplaces⟩ := ih (start + 1) _ hshort
            refine ⟨start :: found, by rw [hfound, List.cons_append], ?_⟩
            intro i hi
            rcases List.mem_cons.mp hi with rfl | hi
            · exact ⟨[], v, hv.symm, rfl⟩
            · exact hlater hplaces i hi
          · obtain ⟨found, hfound, hplaces⟩ := ih (start + 1) 0 (Nat.zero_le _)
            exact ⟨found, hfound, hlater hplaces⟩

/-! ## Replaced runs -/

/-- A text with each of its longest runs that is the name replaced. -/
def replacedRuns (isIdent : β → Bool) (name new text : List β) : List β :=
  (text.splitBy fun c d => isIdent c == isIdent d).flatMap fun w => if w = name then new else w

@[simp] theorem replacedRuns_nil : replacedRuns isIdent name new [] = [] := rfl

theorem replacedRuns_append {b : Bool} {w t : List β} (hne : w ≠ [])
    (hw : ∀ c ∈ w, isIdent c = b) (ht : ∀ c ∈ t.head?, isIdent c = !b) :
    replacedRuns isIdent name new (w ++ t) =
      (if w = name then new else w) ++ replacedRuns isIdent name new t := by
  rw [replacedRuns, Text.splitBy_run hne hw ht, List.flatMap_cons, replacedRuns]

theorem replacedRuns_cons_other (hname : ∀ c ∈ name, isIdent c = true) {c : β}
    (hc : isIdent c = false) (t : List β) :
    replacedRuns isIdent name new (c :: t) = c :: replacedRuns isIdent name new t := by
  have hstays : ∀ w, ¬c :: w = name := by
    rintro w rfl
    exact absurd (hname c List.mem_cons_self) (by simp [hc])
  have halone : ∀ u : List β, (∀ d ∈ u.head?, isIdent d = true) →
      replacedRuns isIdent name new (c :: u) = c :: replacedRuns isIdent name new u := by
    intro u hu
    have hrun : replacedRuns isIdent name new ([c] ++ u) = _ :=
      replacedRuns_append (List.cons_ne_nil c []) (List.forall_mem_singleton.mpr hc) hu
    rwa [if_neg (hstays [])] at hrun
  cases t using Text.splits_induction isIdent with
  | nil => exact halone [] (fun d hd => absurd hd (by simp))
  | run b w t hne hw ht _ =>
      cases b with
      | true =>
          refine halone (w ++ t) fun d hd => ?_
          rw [List.head?_append_of_ne_nil _ hne] at hd
          exact hw d (List.mem_of_head? hd)
      | false =>
          have hother : w ≠ name := by
            rintro rfl
            exact absurd (hname _ (List.head_mem hne)) (by simp [hw _ (List.head_mem hne)])
          rw [← List.cons_append,
            replacedRuns_append (List.cons_ne_nil c w) (List.forall_mem_cons.mpr ⟨hc, hw⟩) ht,
            replacedRuns_append hne hw ht, if_neg (hstays w), if_neg hother, List.cons_append]

/-- In a run that is not the name no match stands alone. -/
theorem exists_occurrences_other (hne : name ≠ []) (hname : ∀ c ∈ name, isIdent c = true) {b : Bool}
    {w t : List β} (hw : ∀ c ∈ w, isIdent c = b) (ht : ∀ c ∈ t.head?, isIdent c = !b)
    (hother : w ≠ name) (done : List β) :
    ∃ found, occurrences name done.length 0 (w ++ t) =
        found ++ occurrences name (done ++ w).length 0 t ∧
      ∀ i ∈ found, standsAlone isIdent (done ++ (w ++ t)) i (i + name.length) = false := by
  rw [List.length_append]
  cases b with
  | false => exact ⟨[], occurrences_stretch hne hname hw t _, fun i hi => absurd hi List.not_mem_nil⟩
  | true =>
      obtain ⟨found, hfound, hplaces⟩ :=
        exists_occurrences_run hname ht w done.length 0 (Nat.zero_le _)
      refine ⟨found, hfound, fun i hi => ?_⟩
      obtain ⟨u, v, rfl, rfl⟩ := hplaces i hi
      have hlonger : u ≠ [] ∨ v ≠ [] := by
        by_contra hboth
        obtain ⟨rfl, rfl⟩ : u = [] ∧ v = [] := by simpa using hboth
        exact hother (by simp)
      exact standsAlone_part (fun c hc => hw c (by simp [hc])) (fun c hc => hw c (by simp [hc]))
        hlonger

/-- The loop has taken over the text as far as `done.drop taken`, and the rest starts a new run. -/
theorem finish_foldl_visit (hne : name ≠ []) (hname : ∀ c ∈ name, isIdent c = true)
    (rest : List β) : ∀ (done out : List β) (taken : Nat), taken ≤ done.length →
    (∀ c ∈ done.getLast?, ∀ d ∈ rest.head?, isIdent d = !isIdent c) →
    Rewriting.finish (done ++ rest) ((occurrences name done.length 0 rest).foldl
      (Rewriting.visit isIdent name new (done ++ rest)) ⟨out, taken⟩) =
        out ++ done.drop taken ++ replacedRuns isIdent name new rest := by
  induction rest using Text.splits_induction isIdent with
  | nil =>
      intro done out taken htaken _
      have hnone : occurrences name done.length 0 [] = [] := if_neg (by simpa using hne)
      rw [hnone, List.foldl_nil, Rewriting.finish, List.append_nil, replacedRuns_nil,
        List.append_nil]
  | run b w t hrun hw ht ih =>
      intro done out taken htaken hends
      have hnext : ∀ c ∈ (done ++ w).getLast?, ∀ d ∈ t.head?, isIdent d = !isIdent c := by
        intro c hc d hd
        rw [List.getLast?_append_of_ne_nil _ hrun] at hc
        rw [hw c (List.mem_of_getLast? hc), ht d hd]
      by_cases hown : w = name
      · subst hown
        obtain ⟨d, u, rfl⟩ := List.exists_cons_of_ne_nil hrun
        have hident := hname d List.mem_cons_self
        obtain rfl : b = true := (hw d List.mem_cons_self).symm.trans hident
        have hstart : ∀ c ∈ done.getLast?, isIdent c = false := by
          intro c hc
          have hd := hends c hc d rfl
          rw [hident] at hd
          simpa using hd.symm
        have hgap : (done ++ (d :: u ++ t)).extract taken done.length = done.drop taken := by
          rw [List.extract_eq_take_drop, List.drop_append_of_le_length htaken,
            List.take_left' (by simp)]
        rw [occurrences_name hne, List.foldl_cons, Rewriting.visit,
          if_pos (standsAlone_run hstart ht), Rewriting.replace, hgap, ← List.append_assoc,
          ← List.length_append, ih _ _ _ (Nat.le_refl _) hnext, List.drop_length,
          replacedRuns_append hrun hw ht, if_pos rfl]
        simp only [List.append_assoc, List.nil_append]
      · -- the loop takes over nothing here, and the run stays in the gap to the next match
        obtain ⟨found, hfound, hstays⟩ := exists_occurrences_other hne hname hw ht hown done
        have hlong : taken ≤ (done ++ w).length := by
          rw [List.length_append]
          exact Nat.le_add_right_of_le htaken
        rw [hfound, List.foldl_append, foldl_visit_eq_self hstays, ← List.append_assoc,
          ih _ _ _ hlong hnext, replacedRuns_append hrun hw ht, if_neg hown,
          List.drop_append_of_le_length htaken]
        simp only [List.append_assoc]

/-- The loop over the occurrences replaces the runs that are the name. -/
theorem replaceWords_eq_runs (hne : name ≠ []) (hname : ∀ c ∈ name, isIdent c = true)
    (text : List β) :
    replaceWords isIdent name new text = replacedRuns isIdent name new text :=
  finish_foldl_visit hne hname text [] [] 0 (Nat.le_refl 0) (by simp)

end Segue.Shader
