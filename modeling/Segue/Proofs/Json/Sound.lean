import Segue.Proofs.Basic
import Segue.Proofs.Decimal.Finite
import Segue.Proofs.Json.Value

/-!
# What is read

A value that was read could have been printed: it nests no deeper than is read, its integers fit 64
bits, its numbers are finite and its objects are sorted. What every item of a list and every field
of a record preserves, the whole list and the whole record preserve.
-/

namespace Segue.Json

@[simp]
theorem ofOption_eq_ok {σ : Type} {o : Option σ} {x : σ} : ofOption o = .ok x ↔ o = some x := by
  cases o with
  | none => simp [ofOption]
  | some y => simp [ofOption]

/-! ## Lists -/

section Lists

variable {σ : Type} {step : σ → List Char → Except Refusal (σ × List Char)} {P : σ → Prop}
variable {close : Char} {s s' : σ} {cs rest : List Char}

theorem itemsFrom_preserves
    (hstep : ∀ s cs s' rest, P s → step s cs = .ok (s', rest) → P s') {n : Nat}
    (h : itemsFrom close step n s cs = .ok (s', rest)) (hs : P s) : P s' := by
  induction n generalizing s cs with
  | zero => cases h
  | succ n ih =>
      rw [itemsFrom] at h
      obtain ⟨⟨t, left⟩, hread, h⟩ := bind_eq_ok.mp h
      have ht : P t := hstep _ _ _ _ hs hread
      dsimp only at h
      split at h
      · split at h
        · cases h
          exact ht
        · split at h
          · exact ih h ht
          · cases h
      · cases h

theorem items_preserves (hstep : ∀ s cs s' rest, P s → step s cs = .ok (s', rest) → P s')
    (h : items close step s cs = .ok (s', rest)) (hs : P s) : P s' := by
  unfold items at h
  split at h
  · split at h
    · cases h
      exact hs
    · exact itemsFrom_preserves hstep h hs
  · cases h

theorem members_preserves {step : σ → String → List Char → Except Refusal (σ × List Char)}
    (hstep : ∀ s name cs s' rest, P s → step s name cs = .ok (s', rest) → P s')
    (h : members step s cs = .ok (s', rest)) (hs : P s) : P s' := by
  rw [members_eq] at h
  refine items_preserves (fun s cs s' rest hs hread => ?_) h hs
  obtain ⟨⟨name, left⟩, -, hread⟩ := bind_eq_ok.mp hread
  exact hstep _ _ _ _ _ hs hread

end Lists

/-! ## Values -/

theorem takeDigits_le {n : Nat} (hn : n ≤ maxCount) (cs : List Char) :
    (takeDigits n cs).1 ≤ maxCount := by
  induction cs generalizing n with
  | nil => exact hn
  | cons c cs ih =>
      rw [takeDigits]
      split
      · exact ih ‹_›
      · exact hn

theorem significand_le {cs rest : List Char} {t : NumberText}
    (h : numberText? cs = some (t, rest)) : t.significand ≤ maxCount := by
  have hunsigned : ∃ negative cs, unsigned? negative cs = some (t, rest) := by
    cases cs with
    | nil => exact absurd h (by simp [numberText?, whole?, digits?])
    | cons c cs =>
        by_cases hminus : c = '-'
        · subst hminus
          exact ⟨true, cs, h⟩
        · have hhead : (c :: cs).head? ≠ some '-' := fun heq => hminus (Option.some.inj heq)
          rw [numberText?_unsigned hhead] at h
          exact ⟨false, c :: cs, h⟩
  obtain ⟨negative, cs, h⟩ := hunsigned
  unfold unsigned? at h
  simp only [Option.bind_eq_bind, Option.bind_eq_some_iff] at h
  obtain ⟨⟨ds, behind⟩, -, ⟨part, behind'⟩, -, ⟨e, behind''⟩, -, h⟩ := h
  cases h
  exact takeDigits_le (takeDigits_le (Nat.zero_le _) ds) part

/-- The forms that a number takes when it was read. -/
theorem value?_cases {t : NumberText} (ht : t.significand ≤ maxCount) {j : Json Float}
    (h : t.value? = some j) :
    (∃ n, j = .int n ∧ isWord n = true) ∨ ∃ x, j = .float x ∧ Scalar.isFinite x = true := by
  unfold NumberText.value? at h
  dsimp only at h
  generalize (if t.negative = true then -(t.significand : Int) else t.significand) = signed at h
  split at h
  · rename_i hint
    cases h
    simp only [Bool.and_eq_true] at hint
    exact Or.inl ⟨_, rfl, hint.1.2⟩
  · obtain ⟨x, hx, rfl⟩ := Option.map_eq_some_iff.mp h
    exact Or.inr ⟨x, rfl, Decimal.isFinite_ofDecimal? ht hx⟩

theorem fits_of_scalar {cs rest : List Char} {j : Json Float} (h : scalar cs = .ok (j, rest))
    (d : Nat) : Fits d j := by
  unfold scalar at h
  split at h
  · cases h
  · split at h
    · obtain ⟨⟨s, left⟩, -, h⟩ := bind_eq_ok.mp h
      cases h
      exact .str d _
    · split at h
      · obtain ⟨left, -, h⟩ := bind_eq_ok.mp h
        cases h
        exact .null d
      · split at h
        · obtain ⟨left, -, h⟩ := bind_eq_ok.mp h
          cases h
          exact .bool d true
        · split at h
          · obtain ⟨left, -, h⟩ := bind_eq_ok.mp h
            cases h
            exact .bool d false
          · split at h
            · obtain ⟨⟨t, left⟩, htext, h⟩ := bind_eq_ok.mp h
              obtain ⟨j', hvalue, h⟩ := bind_eq_ok.mp h
              cases h
              have ht := significand_le (ofOption_eq_ok.mp htext)
              rcases value?_cases ht (ofOption_eq_ok.mp hvalue) with ⟨n, rfl, hn⟩ | ⟨x, rfl, hx⟩
              · exact .int d hn
              · exact .float d hx
            · cases h

theorem fits_of_value {d : Nat} {cs rest : List Char} {j : Json Float}
    (h : value d cs = .ok (j, rest)) : Fits d j := by
  induction d generalizing cs rest j with
  | zero =>
      unfold value at h
      split at h
      · cases h
      · cases h
      · exact fits_of_scalar h 0
  | succ d ih =>
      unfold value at h
      split at h
      · obtain ⟨⟨vs, left⟩, hitems, h⟩ := bind_eq_ok.mp h
        cases h
        have hvs : ∀ v ∈ vs, Fits d v := by
          refine items_preserves (P := fun vs => ∀ v ∈ vs, Fits d v)
            (fun vs cs vs' rest hvs hread => ?_) hitems (by simp)
          obtain ⟨⟨v, left⟩, hvalue, hread⟩ := bind_eq_ok.mp hread
          cases hread
          exact List.forall_mem_cons.mpr ⟨ih hvalue, hvs⟩
        exact .arr fun v hv => hvs v (List.mem_reverse.mp hv)
      · obtain ⟨⟨ms, left⟩, hmembers, h⟩ := bind_eq_ok.mp h
        cases h
        obtain ⟨hsorted, hms⟩ : Keyed.Sorted ms ∧ ∀ m ∈ ms, Fits d m.2 := by
          refine members_preserves (P := fun ms => Keyed.Sorted ms ∧ ∀ m ∈ ms, Fits d m.2)
            (fun ms name cs ms' rest hms hread => ?_) hmembers ⟨.nil, by simp⟩
          obtain ⟨⟨v, left⟩, hvalue, hread⟩ := bind_eq_ok.mp hread
          cases hread
          refine ⟨Keyed.sorted_insert hms.1, fun m hm => ?_⟩
          rcases Keyed.eq_or_mem_of_mem_insert hm with rfl | hm
          · exact ih hvalue
          · exact hms.2 m hm
        exact .obj hsorted hms
      · exact fits_of_scalar h _

theorem Fits.isFinite {d : Nat} {j : Json Float} (h : Fits d j) :
    ∀ x ∈ j.numbers, Scalar.isFinite x = true := by
  induction h with
  | null => simp [numbers]
  | bool => simp [numbers]
  | int => simp [numbers]
  | str => simp [numbers]
  | float d hx =>
      intro y hy
      rw [numbers, List.mem_singleton] at hy
      rwa [hy]
  | arr _ ih =>
      intro x hx
      obtain ⟨v, hv, hx⟩ := mem_itemNumbers.mp hx
      exact ih v hv x hx
  | obj _ _ ih =>
      intro x hx
      obtain ⟨m, hm, hx⟩ := mem_memberNumbers.mp hx
      exact ih m hm x hx

theorem isFinite_of_number {d : Nat} {cs rest : List Char} {x : Float}
    (h : number d cs = .ok (x, rest)) : Scalar.isFinite x = true := by
  unfold number at h
  split at h
  · split at h
    · obtain ⟨⟨t, left⟩, htext, h⟩ := bind_eq_ok.mp h
      obtain ⟨j, hvalue, h⟩ := bind_eq_ok.mp h
      obtain ⟨y, hy, h⟩ := bind_eq_ok.mp h
      cases h
      have ht := significand_le (ofOption_eq_ok.mp htext)
      have hnumber := ofOption_eq_ok.mp hy
      rcases value?_cases ht (ofOption_eq_ok.mp hvalue) with ⟨n, rfl, hn⟩ | ⟨x, rfl, hx⟩
      · cases hnumber
        refine Decimal.isFinite_ofInt ?_
        simp only [isWord, Bool.and_eq_true, decide_eq_true_eq] at hn
        unfold maxCount
        omega
      · cases hnumber
        exact hx
    · cases h
  · cases h

/-! ## Records -/

section Records

variable {σ : Type} {P : σ → Prop} {fs : List (FieldReader σ)} {d : Nat}

/-- What every field preserves whose value is read. -/
def FieldsPreserve (P : σ → Prop) (fs : List (FieldReader σ)) (d : Nat) : Prop :=
  ∀ f ∈ fs, ∀ s cs s' rest, P s → f.read s d cs = .ok (s', rest) → P s'

theorem fieldsPreserve_nil : FieldsPreserve P [] d := fun _ hf => absurd hf List.not_mem_nil

theorem FieldsPreserve.cons {τ : Type} {names : List String} {r : Reader τ} {set : σ → τ → σ}
    (h : ∀ s cs x rest, P s → r d cs = .ok (x, rest) → P (set s x)) (htail : FieldsPreserve P fs d) :
    FieldsPreserve P (.of names r set :: fs) d := by
  intro f hf s cs s' rest hs hread
  rcases List.mem_cons.mp hf with rfl | hf
  · obtain ⟨⟨x, left⟩, hvalue, hread⟩ := bind_eq_ok.mp hread
    cases hread
    exact h s cs x _ hs hvalue
  · exact htail f hf s cs s' rest hs hread

theorem fields_preserves {other : σ → String → Reader σ} {init s : σ} {cs rest : List Char}
    (hfields : FieldsPreserve P fs d)
    (hother : ∀ s name cs s' rest, (∀ f ∈ fs, name ∉ f.names) → P s →
      other s name d cs = .ok (s', rest) → P s')
    (h : fields fs other init (d + 1) cs = .ok (s, rest)) (hinit : P init) : P s := by
  simp only [fields] at h
  split at h
  · obtain ⟨⟨⟨s', seen⟩, left⟩, hmembers, h⟩ := bind_eq_ok.mp h
    cases h
    refine members_preserves (P := fun p => P p.1) (fun p name cs p' rest hp hread => ?_)
      hmembers hinit
    obtain ⟨t, seen⟩ := p
    dsimp only at hread hp
    split at hread
    · rename_i hnone
      obtain ⟨⟨t', left⟩, hvalue, hread⟩ := bind_eq_ok.mp hread
      cases hread
      refine hother t name cs t' _ (fun f hf hname => ?_) hp hvalue
      have hnot := List.findIdx?_eq_none_iff.mp hnone f hf
      rw [List.contains_eq_mem, decide_eq_false_iff_not] at hnot
      exact hnot hname
    · split at hread
      · cases hread
      · split at hread
        · cases hread
        · rename_i f hf
          obtain ⟨⟨t', left⟩, hvalue, hread⟩ := bind_eq_ok.mp hread
          cases hread
          exact hfields f (List.mem_of_getElem? hf) t cs t' _ hp hvalue
  · cases h

theorem record_preserves {init s : σ} {cs rest : List Char} (hfields : FieldsPreserve P fs d)
    (h : record fs init (d + 1) cs = .ok (s, rest)) (hinit : P init) : P s := by
  simp only [record] at h
  split at h
  · obtain ⟨⟨⟨s', left⟩, left'⟩, hitems, h⟩ := bind_eq_ok.mp h
    cases h
    refine (items_preserves (P := fun p => P p.1 ∧ ∀ f ∈ p.2, f ∈ fs)
      (fun p cs p' rest hp hread => ?_) hitems ⟨hinit, fun f hf => hf⟩).1
    obtain ⟨t, left⟩ := p
    dsimp only at hread hp
    split at hread
    · cases hread
    · rename_i f left
      obtain ⟨⟨t', behind⟩, hvalue, hread⟩ := bind_eq_ok.mp hread
      cases hread
      exact ⟨hfields f (hp.2 f List.mem_cons_self) t cs t' _ hp.1 hvalue,
        fun f' hf' => hp.2 f' (List.mem_cons_of_mem _ hf')⟩
  · refine fields_preserves hfields (fun s name cs s' rest _ hs hread => ?_) h hinit
    obtain ⟨⟨_, left⟩, -, hread⟩ := bind_eq_ok.mp hread
    cases hread
    exact hs

end Records

end Segue.Json
