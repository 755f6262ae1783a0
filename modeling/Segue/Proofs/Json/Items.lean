import Segue.Json.Reader
import Segue.Json.Printer
import Segue.Proofs.Json.Scalar

/-!
# Items of arrays and objects

The items of a printed array or object are read one after another, in both layouts, if each of them
is read from its own text whatever ends it.
-/

namespace Segue.Json

/-! ## Spaces -/

def Spaces (cs : List Char) : Prop := ∀ c ∈ cs, isSpace c = true

theorem dropSpace_append {before : List Char} (h : Spaces before) (cs : List Char) :
    dropSpace (before ++ cs) = dropSpace cs := List.dropWhile_append_of_pos h

theorem dropSpace_cons {c : Char} (hc : isSpace c = false) (cs : List Char) :
    dropSpace (c :: cs) = c :: cs := List.dropWhile_cons_of_neg (by simp [hc])

theorem spaces_line (style : Style) (depth : Nat) : Spaces (style.line depth) := by
  cases style with
  | compact => exact fun c hc => absurd hc List.not_mem_nil
  | pretty =>
      intro c hc
      rcases List.mem_cons.mp hc with rfl | hc
      · rfl
      · rw [List.eq_of_mem_replicate hc]
        rfl

/-- A text with which an item starts. -/
def Opens (cs : List Char) : Prop :=
  ∃ c rest, cs = c :: rest ∧ isSpace c = false ∧ c ≠ ']' ∧ c ≠ '\x7d'

theorem Opens.append {cs : List Char} (h : Opens cs) (rest : List Char) : Opens (cs ++ rest) := by
  obtain ⟨c, left, rfl, hc⟩ := h
  exact ⟨c, left ++ rest, rfl, hc⟩

theorem Opens.dropSpace {cs : List Char} (h : Opens cs) : dropSpace cs = cs := by
  obtain ⟨c, rest, rfl, hc, -⟩ := h
  exact dropSpace_cons hc rest

/-! ## Printed items -/

/-- The end of an array or object, which may start on a line of its own. -/
def listedFrom (style : Style) (depth : Nat) (close : Char) : List (List Char) → List Char
  | [] => style.line depth ++ [close]
  | p :: ps => ',' :: style.line (depth + 1) ++ p ++ listedFrom style depth close ps

def listed (style : Style) (depth : Nat) (close : Char) : List (List Char) → List Char
  | [] => [close]
  | p :: ps => style.line (depth + 1) ++ p ++ listedFrom style depth close ps

def IsClosing (c : Char) : Prop := c = ']' ∨ c = '\x7d'

theorem length_listedFrom (style : Style) (depth : Nat) (close : Char) (ps : List (List Char)) :
    ps.length < (listedFrom style depth close ps).length := by
  induction ps with
  | nil => simp [listedFrom]
  | cons p ps ih =>
      simp only [listedFrom, List.length_cons, List.length_append]
      omega

theorem endsNumber_listedFrom (style : Style) (depth : Nat) {close : Char}
    (hclose : IsClosing close) (ps : List (List Char)) (rest : List Char) :
    EndsNumber (listedFrom style depth close ps ++ rest) := by
  cases ps with
  | nil =>
      cases style with
      | compact =>
          rcases hclose with rfl | rfl
          · exact endsNumber_cons (by decide) _
          · exact endsNumber_cons (by decide) _
      | pretty => exact endsNumber_cons (by decide) _
  | cons p ps => exact endsNumber_cons (by decide) _

section Reads

variable {σ : Type} {step : σ → List Char → Except Refusal (σ × List Char)} {s s' s'' : σ}
variable {ps : List (List Char)}

/-- Reading the items of a list one after another leads from one state to another. -/
inductive Reads (step : σ → List Char → Except Refusal (σ × List Char)) :
    σ → List (List Char) → σ → Prop where
  | nil (s : σ) : Reads step s [] s
  | cons {s s' s'' : σ} {p : List Char} {ps : List (List Char)} :
      Opens p → (∀ rest, EndsNumber rest → step s (p ++ rest) = .ok (s', rest)) →
        Reads step s' ps s'' → Reads step s (p :: ps) s''

theorem Reads.append {qs : List (List Char)} (h : Reads step s ps s') (h' : Reads step s' qs s'') :
    Reads step s (ps ++ qs) s'' := by
  induction h with
  | nil => exact h'
  | cons hopens hstep _ ih => exact .cons hopens hstep (ih h')

theorem itemsFrom_listed {close : Char} (hclose : IsClosing close) {p before : List Char}
    (style : Style) (depth : Nat) (h : Reads step s (p :: ps) s') (hbefore : Spaces before)
    (rest : List Char) {n : Nat} (hn : ps.length < n) :
    itemsFrom close step n s (before ++ p ++ listedFrom style depth close ps ++ rest) =
      .ok (s', rest) := by
  induction ps generalizing s p before n with
  | nil =>
      obtain ⟨n, rfl⟩ := Nat.exists_eq_add_one_of_ne_zero (Nat.ne_zero_of_lt hn)
      cases h with
      | cons hopens hstep hnil =>
          cases hnil
          have hspace : isSpace close = false := by rcases hclose with rfl | rfl <;> rfl
          have hend : dropSpace (style.line depth ++ [close] ++ rest) = close :: rest := by
            rw [List.append_assoc, dropSpace_append (spaces_line style depth)]
            exact dropSpace_cons hspace rest
          rw [List.append_assoc, List.append_assoc, itemsFrom, dropSpace_append hbefore,
            (hopens.append _).dropSpace, hstep _ (endsNumber_listedFrom style depth hclose [] rest)]
          simp only [listedFrom, hend, bind, Except.bind, if_true]
  | cons q ps ih =>
      obtain ⟨n, rfl⟩ := Nat.exists_eq_add_one_of_ne_zero (Nat.ne_zero_of_lt hn)
      cases h with
      | cons hopens hstep htail =>
          have hcomma : ',' ≠ close := by rcases hclose with rfl | rfl <;> decide
          have hnext := ih htail (spaces_line style (depth + 1)) (Nat.lt_of_succ_lt_succ hn)
          have hsep : dropSpace (listedFrom style depth close (q :: ps) ++ rest) =
              ',' :: (style.line (depth + 1) ++ q ++ listedFrom style depth close ps ++ rest) :=
            dropSpace_cons rfl _
          rw [List.append_assoc, List.append_assoc, itemsFrom, dropSpace_append hbefore,
            (hopens.append _).dropSpace,
            hstep _ (endsNumber_listedFrom style depth hclose (q :: ps) rest)]
          simp only [hsep, bind, Except.bind, if_neg hcomma, if_true]
          exact hnext

/-- The items of a printed list are read, and the closing character. -/
theorem items_listed {close : Char} (hclose : IsClosing close) (style : Style) (depth : Nat)
    (h : Reads step s ps s') (rest : List Char) :
    items close step s (listed style depth close ps ++ rest) = .ok (s', rest) := by
  cases ps with
  | nil =>
      cases h
      have hspace : isSpace close = false := by rcases hclose with rfl | rfl <;> rfl
      rw [listed, items, List.singleton_append, dropSpace_cons hspace]
      simp only [if_true]
  | cons p ps =>
      have hopens : Opens p := by
        cases h
        assumption
      obtain ⟨c, left, hp, hspace, hsquare, hcurly⟩ := hopens
      have hne : c ≠ close := by
        rcases hclose with rfl | rfl
        · exact hsquare
        · exact hcurly
      have hlength : ps.length < (listed style depth close (p :: ps) ++ rest).length := by
        have hlt := length_listedFrom style depth close ps
        simp only [listed, List.length_append]
        omega
      have hdrop : dropSpace (listed style depth close (p :: ps) ++ rest) =
          c :: (left ++ (listedFrom style depth close ps ++ rest)) := by
        rw [listed, List.append_assoc, List.append_assoc,
          dropSpace_append (spaces_line style (depth + 1)), hp]
        exact dropSpace_cons hspace _
      rw [items, hdrop]
      simp only [if_neg hne]
      exact itemsFrom_listed hclose style depth h (spaces_line style (depth + 1)) rest hlength

/-! ## Members -/

/-- A printed member: its name in quotes and its value. -/
def memberText (style : Style) (name : String) (value : List Char) : List Char :=
  Quoted.encode name.toList ++ style.colon ++ value

theorem opens_encode (cs : List Char) : Opens (Quoted.encode cs) :=
  ⟨'"', _, rfl, rfl, by decide, by decide⟩

theorem opens_memberText (style : Style) (name : String) (value : List Char) :
    Opens (memberText style name value) := ((opens_encode _).append _).append _

theorem memberName_memberText (style : Style) (name : String) {value : List Char}
    (hvalue : Opens value) :
    memberName (memberText style name value) = .ok (name, value) := by
  have hcolon : expect ':' (style.colon ++ value) = .ok (style.colon.tail ++ value) := by
    cases style <;> rfl
  have hdrop : dropSpace (style.colon.tail ++ value) = value := by
    cases style with
    | compact => exact hvalue.dropSpace
    | pretty =>
        have hspace : Spaces [' '] := by simp [Spaces, isSpace]
        exact (dropSpace_append hspace value).trans hvalue.dropSpace
  have hquote : expect '"' (memberText style name value) =
      .ok (name.toList.flatMap Quoted.escapeChar ++ '"' :: (style.colon ++ value)) := by
    simp only [memberText, Quoted.encode, List.cons_append, List.append_assoc, List.nil_append,
      expect, dropSpace_cons (show isSpace '"' = false from rfl), if_true]
  simp only [memberName, hquote, Quoted.decode?_encoded, ofOption, hcolon, hdrop, bind, Except.bind,
    String.ofList_toList]

def memberStep (step : σ → String → List Char → Except Refusal (σ × List Char)) (s : σ)
    (cs : List Char) : Except Refusal (σ × List Char) := do
  let (name, cs) ← memberName cs
  step s name cs

theorem members_eq (step : σ → String → List Char → Except Refusal (σ × List Char)) (s : σ)
    (cs : List Char) : members step s cs = items '\x7d' (memberStep step) s cs := rfl

theorem Reads.cons_member {step : σ → String → List Char → Except Refusal (σ × List Char)}
    {style : Style} {name : String} {value : List Char} (hvalue : Opens value)
    (hstep : ∀ rest, EndsNumber rest → step s name (value ++ rest) = .ok (s', rest))
    (h : Reads (memberStep step) s' ps s'') :
    Reads (memberStep step) s (memberText style name value :: ps) s'' := by
  refine .cons (opens_memberText style name value) (fun rest hrest => ?_) h
  have happend : memberText style name value ++ rest = memberText style name (value ++ rest) := by
    rw [memberText, List.append_assoc, memberText]
  rw [happend, memberStep, memberName_memberText style name (hvalue.append rest)]
  exact hstep rest hrest

end Reads

end Segue.Json
