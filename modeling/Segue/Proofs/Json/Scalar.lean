import Mathlib
import Segue.Json.Number
import Segue.Json.Quoted
import Segue.Proofs.Decimal.Digits

/-!
# Quoted texts

A text between quotes is read back as it was: every character has one form there, and the closing
quote is the first one that no backslash precedes.
-/

namespace Segue.Json.Quoted

@[simp] theorem hexValue?_hexDigit (n : Nat) : hexValue? (hexDigit n) = some (n % 16) := by
  have hall : ∀ k < 16, hexValue? ((Nat.toDigits 16 k).headD '0') = some k := by decide
  exact hall (n % 16) (Nat.mod_lt n (by decide))

/-- The escape of a control character is read as that character. -/
theorem unicode?_control {c : Char} (hc : c.toNat < 256) (rest : List Char) :
    unicode? ('0' :: '0' :: hexDigit (c.toNat / 16) :: hexDigit c.toNat :: rest) =
      some (c, rest) := by
  have hzero : hexValue? '0' = some 0 := by decide
  have hvalue : ((0 * 16 + 0) * 16 + c.toNat / 16 % 16) * 16 + c.toNat % 16 = c.toNat := by omega
  have hhigh : isHigh c.toNat = false := by simp [isHigh]; omega
  have hlow : isLow c.toNat = false := by simp [isLow]; omega
  simp only [unicode?, hex4?, hzero, hexValue?_hexDigit, Option.bind_eq_bind, Option.bind_some,
    hvalue, hhigh, hlow, Bool.false_eq_true, if_false, Char.ofNat_toNat]

/-- A character stands for itself, or for it stands a backslash with an escape. -/
inductive Written (c : Char) : List Char → Prop where
  | plain : c ≠ '"' → c ≠ '\\' → ¬c.toNat < 32 → Written c [c]
  | escaped (e : List Char) : (∀ rest, escape? (e ++ rest) = some (c, rest)) → Written c ('\\' :: e)

theorem Written.length_pos {c : Char} {w : List Char} (h : Written c w) : 0 < w.length := by
  cases h <;> exact Nat.zero_lt_succ _

theorem eq_of_toNat {c d : Char} (h : c.toNat = d.toNat) : c = d := by
  rw [← Char.ofNat_toNat c, h, Char.ofNat_toNat]

theorem written_escapeChar (c : Char) : Written c (escapeChar c) := by
  unfold escapeChar
  split
  case h_6 hquote hslash _ _ _ =>
    split
    · rename_i h8
      obtain rfl : c = '\x08' := eq_of_toNat h8
      exact .escaped _ fun _ => rfl
    · split
      · rename_i h12
        obtain rfl : c = '\x0c' := eq_of_toNat h12
        exact .escaped _ fun _ => rfl
      · split
        · rename_i hcontrol
          exact .escaped _ fun rest => unicode?_control (hcontrol.trans (by decide)) rest
        · rename_i hplain
          exact .plain (by simpa using hquote) (by simpa using hslash) hplain
  all_goals exact .escaped _ fun _ => rfl

theorem body?_written {c : Char} {w : List Char} (h : Written c w) (n : Nat) (rest : List Char) :
    body? (n + 1) (w ++ rest) = (body? n rest).map fun p => (c :: p.1, p.2) := by
  cases h with
  | plain hquote hslash hcontrol =>
      rw [List.singleton_append, body?, if_neg hquote, if_neg hslash, if_neg hcontrol]
      cases body? n rest <;> rfl
  | escaped e he =>
      rw [List.cons_append, body?, if_neg (by decide), if_pos rfl, he]
      cases hbody : body? n rest with
      | none => simp [hbody]
      | some p => simp [hbody]

theorem body?_escaped (cs rest : List Char) {n : Nat} (hn : cs.length < n) :
    body? n (cs.flatMap escapeChar ++ '"' :: rest) = some (cs, rest) := by
  induction cs generalizing n with
  | nil =>
      obtain ⟨n, rfl⟩ := Nat.exists_eq_add_one_of_ne_zero (Nat.ne_zero_of_lt hn)
      rw [List.flatMap_nil, List.nil_append, body?, if_pos rfl]
  | cons c cs ih =>
      obtain ⟨n, rfl⟩ := Nat.exists_eq_add_one_of_ne_zero (Nat.ne_zero_of_lt hn)
      rw [List.flatMap_cons, List.append_assoc, body?_written (written_escapeChar c),
        ih (Nat.lt_of_succ_lt_succ hn)]
      rfl

theorem length_le_escaped (cs : List Char) : cs.length ≤ (cs.flatMap escapeChar).length := by
  induction cs with
  | nil => exact Nat.zero_le _
  | cons c cs ih =>
      have hpos := (written_escapeChar c).length_pos
      rw [List.flatMap_cons, List.length_append, List.length_cons]
      omega

@[simp] theorem decode?_encoded (cs rest : List Char) :
    decode? (cs.flatMap escapeChar ++ '"' :: rest) = some (cs, rest) := by
  refine body?_escaped cs rest ?_
  have hle := length_le_escaped cs
  rw [List.length_append, List.length_cons]
  omega

end Segue.Json.Quoted

/-!
# Texts of numbers

The text of a number ends where nothing follows that could go on with it. Integers of 64 bits are
read back from their digits; for other numbers that is up to the number type.
-/

namespace Segue.Json

open Decimal (NoDigit ofDigits)

/-- A text in front of which a number ends. -/
def EndsNumber (cs : List Char) : Prop :=
  ∀ c ∈ cs.head?, c.isDigit = false ∧ c ≠ '.' ∧ c ≠ 'e' ∧ c ≠ 'E'

theorem EndsNumber.noDigit {cs : List Char} (h : EndsNumber cs) : NoDigit cs :=
  fun c hc => (h c hc).1

theorem endsNumber_nil : EndsNumber [] := fun _ hc => by cases hc

theorem endsNumber_cons {c : Char} (hc : c.isDigit = false ∧ c ≠ '.' ∧ c ≠ 'e' ∧ c ≠ 'E')
    (cs : List Char) : EndsNumber (c :: cs) := by
  intro d hd
  obtain rfl : c = d := by simpa using hd
  exact hc

/-! ## What follows a number -/

section Append

variable {cs ds left rest : List Char}

theorem digits?_digits (hne : ds ≠ []) (hds : ∀ c ∈ ds, c.isDigit = true) (hrest : NoDigit rest) :
    digits? (ds ++ rest) = some (ds, rest) := by
  rw [digits?, Decimal.takeWhile_digits hds hrest, Decimal.dropWhile_digits hds hrest,
    if_neg (by simpa using hne)]

theorem eq_append_of_digits? (h : digits? cs = some (ds, left)) :
    cs = ds ++ left ∧ ds ≠ [] ∧ (∀ c ∈ ds, c.isDigit = true) ∧ NoDigit left := by
  unfold digits? at h
  dsimp only at h
  split at h
  · cases h
  · rename_i hne
    cases h
    refine ⟨List.takeWhile_append_dropWhile.symm, by simpa using hne, ?_, ?_⟩
    · exact fun c hc => List.mem_takeWhile_imp hc
    · intro c hc
      have hnot := List.head?_dropWhile_not Char.isDigit cs
      simpa [Option.mem_def.mp hc] using hnot

theorem noDigit_append (hleft : NoDigit left) (hrest : NoDigit rest) : NoDigit (left ++ rest) := by
  cases left with
  | nil => exact hrest
  | cons c left => exact Decimal.noDigit_cons (hleft c rfl) _

theorem digits?_append (h : digits? cs = some (ds, left)) (hrest : NoDigit rest) :
    digits? (cs ++ rest) = some (ds, left ++ rest) := by
  obtain ⟨rfl, hne, hds, hleft⟩ := eq_append_of_digits? h
  rw [List.append_assoc]
  exact digits?_digits hne hds (noDigit_append hleft hrest)

theorem whole?_append (h : whole? cs = some (ds, left)) (hrest : NoDigit rest) :
    whole? (cs ++ rest) = some (ds, left ++ rest) := by
  unfold whole? at h ⊢
  cases hdigits : digits? cs with
  | none => simp [hdigits] at h
  | some p =>
      rw [hdigits, Option.bind_eq_bind, Option.bind_some] at h
      rw [digits?_append hdigits hrest, Option.bind_eq_bind, Option.bind_some]
      dsimp only at h ⊢
      split at h
      · cases h
      · rename_i hzero
        cases h
        rw [if_neg hzero]

theorem fraction?_append (h : fraction? cs = some (ds, left)) (hrest : EndsNumber rest) :
    fraction? (cs ++ rest) = some (ds, left ++ rest) := by
  cases cs with
  | nil =>
      cases h
      cases rest with
      | nil => rfl
      | cons c rest =>
          have hdot := (hrest c rfl).2.1
          unfold fraction?
          split
          · rename_i heq
            cases heq
            exact absurd rfl hdot
          · rfl
  | cons c cs =>
      by_cases hdot : c = '.'
      · subst hdot
        have hdigits : digits? cs = some (ds, left) := h
        exact digits?_append hdigits hrest.noDigit
      · unfold fraction? at h ⊢
        split at h
        · rename_i heq
          cases heq
          exact absurd rfl hdot
        · cases h
          rw [List.cons_append]
          split
          · rename_i heq
            cases heq
            exact absurd rfl hdot
          · rfl

theorem takeSign_append (hne : cs ≠ []) :
    Decimal.takeSign (cs ++ rest) = ((Decimal.takeSign cs).1, (Decimal.takeSign cs).2 ++ rest) := by
  obtain ⟨c, cs, rfl⟩ := List.exists_cons_of_ne_nil hne
  rw [List.cons_append]
  unfold Decimal.takeSign
  split
  · rename_i heq
    cases heq
    rfl
  · rename_i heq
    cases heq
    rfl
  · rename_i hminus hplus
    split
    · rename_i heq
      cases heq
      exact absurd rfl (hminus _)
    · rename_i heq
      cases heq
      exact absurd rfl (hplus _)
    · rfl

theorem exponent?_append {e : Option Int} (h : exponent? cs = some (e, left))
    (hrest : EndsNumber rest) : exponent? (cs ++ rest) = some (e, left ++ rest) := by
  cases cs with
  | nil =>
      cases h
      cases rest with
      | nil => rfl
      | cons c rest =>
          obtain ⟨-, -, he, hE⟩ := hrest c rfl
          simp [exponent?, he, hE]
  | cons c cs =>
      rw [List.cons_append]
      unfold exponent? at h ⊢
      dsimp only at h ⊢
      split at h
      · rename_i hc
        rw [if_pos hc]
        have hne : cs ≠ [] := by
          rintro rfl
          simp [Decimal.takeSign, digits?] at h
        cases hdigits : digits? (Decimal.takeSign cs).2 with
        | none => simp [hdigits] at h
        | some p =>
            rw [takeSign_append hne]
            simp only [hdigits, Option.bind_eq_bind, Option.bind_some] at h
            simp only [digits?_append hdigits hrest.noDigit, Option.bind_eq_bind, Option.bind_some]
            cases h
            rfl
      · rename_i hc
        cases h
        rw [if_neg hc]
        rfl

/-- What is read of a number after its sign. -/
def unsigned? (negative : Bool) (cs : List Char) : Option (NumberText × List Char) := do
  let (ds, cs) ← whole? cs
  let (part, cs) ← fraction? cs
  let (e, cs) ← exponent? cs
  let (n, surplus) := takeDigits 0 ds
  let (n, dropped) := takeDigits n part
  let exp : Int := e.getD 0 + surplus.length - part.length + dropped.length
  some (⟨negative, n, exp, surplus.isEmpty && part.isEmpty && e.isNone⟩, cs)

@[simp]
theorem numberText?_minus (cs : List Char) : numberText? ('-' :: cs) = unsigned? true cs := rfl

theorem numberText?_unsigned (hminus : cs.head? ≠ some '-') :
    numberText? cs = unsigned? false cs := by
  unfold numberText?
  split
  · rename_i heq
    split at heq
    · exact absurd rfl hminus
    · cases heq
      rfl

theorem unsigned?_append {negative : Bool} {t : NumberText}
    (h : unsigned? negative cs = some (t, left)) (hrest : EndsNumber rest) :
    unsigned? negative (cs ++ rest) = some (t, left ++ rest) := by
  unfold unsigned? at h ⊢
  simp only [Option.bind_eq_bind, Option.bind_eq_some_iff] at h
  obtain ⟨⟨ds, behind⟩, hwhole, ⟨part, behind'⟩, hpart, ⟨e, behind''⟩, he, h⟩ := h
  simp only [whole?_append hwhole hrest.noDigit, fraction?_append hpart hrest,
    exponent?_append he hrest, Option.bind_eq_bind, Option.bind_some]
  cases h
  rfl

theorem numberText?_append {t : NumberText} (h : numberText? cs = some (t, left))
    (hrest : EndsNumber rest) : numberText? (cs ++ rest) = some (t, left ++ rest) := by
  cases cs with
  | nil => exact absurd h (by simp [numberText?, whole?, digits?])
  | cons c cs =>
      by_cases hminus : c = '-'
      · subst hminus
        rw [numberText?_minus] at h
        rw [List.cons_append, numberText?_minus]
        exact unsigned?_append h hrest
      · have hhead : ∀ s : List Char, (c :: s).head? ≠ some '-' :=
          fun s hs => hminus (Option.some.inj hs)
        rw [numberText?_unsigned (hhead cs)] at h
        rw [List.cons_append, numberText?_unsigned (hhead _), ← List.cons_append]
        exact unsigned?_append h hrest

theorem exists_startsNumber {t : NumberText} (h : numberText? cs = some (t, left)) :
    ∃ c s, cs = c :: s ∧ startsNumber c = true := by
  cases cs with
  | nil => exact absurd h (by simp [numberText?, whole?, digits?])
  | cons c cs =>
      refine ⟨c, cs, rfl, ?_⟩
      by_cases hminus : c = '-'
      · simp [startsNumber, hminus]
      · have hhead : (c :: cs).head? ≠ some '-' := fun hs => hminus (Option.some.inj hs)
        rw [numberText?_unsigned hhead] at h
        by_cases hdigit : c.isDigit = true
        · simp [startsNumber, hdigit]
        · simp [unsigned?, whole?, digits?, hdigit] at h

end Append

/-! ## Integers -/

theorem takeDigits_of_le {ds : List Char} {n : Nat}
    (h : ds.foldl (fun n c => 10 * n + Decimal.digitValue c) n ≤ maxCount) :
    takeDigits n ds = (ds.foldl (fun n c => 10 * n + Decimal.digitValue c) n, []) := by
  induction ds generalizing n with
  | nil => rfl
  | cons c ds ih =>
      have hgrows : ∀ (cs : List Char) (k : Nat),
          k ≤ cs.foldl (fun n c => 10 * n + Decimal.digitValue c) k := by
        intro cs
        induction cs with
        | nil => exact fun k => Nat.le_refl k
        | cons d cs ih => exact fun k => Nat.le_trans (by omega) (ih (10 * k + _))
      rw [List.foldl_cons] at h ⊢
      rw [takeDigits, if_pos ((hgrows ds _).trans h), ih h]

theorem unsigned?_nat {n : Nat} (hn : n ≤ maxCount) (negative : Bool) {rest : List Char}
    (hrest : EndsNumber rest) :
    unsigned? negative (Nat.toDigits 10 n ++ rest) = some (⟨negative, n, 0, true⟩, rest) := by
  have hwhole : whole? (Nat.toDigits 10 n) = some (Nat.toDigits 10 n, []) := by
    have hall : ∀ c ∈ Nat.toDigits 10 n, c.isDigit = true := fun c => Decimal.isDigit_toDigits
    have hdigits := digits?_digits Nat.toDigits_ne_nil hall endsNumber_nil.noDigit
    rw [List.append_nil] at hdigits
    have hzero :
        ¬((Nat.toDigits 10 n).head? = some '0' && 1 < (Nat.toDigits 10 n).length) = true := by
      simp only [Bool.and_eq_true, decide_eq_true_eq, not_and]
      exact fun hhead hlength => Decimal.head?_toDigits_of_length hlength hhead
    simp only [whole?, hdigits, Option.bind_eq_bind, Option.bind_some]
    rw [if_neg hzero]
  have htake : takeDigits 0 (Nat.toDigits 10 n) = (n, []) := by
    have hvalue : (Nat.toDigits 10 n).foldl (fun n c => 10 * n + Decimal.digitValue c) 0 = n :=
      Decimal.ofDigits_toDigits n
    rw [takeDigits_of_le (by rw [hvalue]; exact hn), hvalue]
  have halone : unsigned? negative (Nat.toDigits 10 n) = some (⟨negative, n, 0, true⟩, []) := by
    simp only [unsigned?, hwhole, fraction?, exponent?, htake, takeDigits, Option.bind_eq_bind,
      Option.bind_some]
    rfl
  exact unsigned?_append halone hrest

/-- An integer of 64 bits is read back from its text. -/
theorem numberText?_int {n : Int} (hn : isWord n = true) {rest : List Char}
    (hrest : EndsNumber rest) :
    numberText? ((toString n).toList ++ rest) =
      some (⟨decide (n < 0), n.natAbs, 0, true⟩, rest) := by
  have hle : n.natAbs ≤ maxCount := by
    simp only [isWord, Bool.and_eq_true, decide_eq_true_eq] at hn
    simp only [maxCount]
    omega
  rw [Decimal.toList_toString_int]
  by_cases hneg : n < 0
  · rw [if_pos hneg, List.singleton_append, List.cons_append, numberText?_minus,
      unsigned?_nat hle true hrest, decide_eq_true hneg]
  · rw [if_neg hneg, List.nil_append, numberText?_unsigned, unsigned?_nat hle false hrest,
      decide_eq_false hneg]
    rw [List.head?_append_of_ne_nil _ Nat.toDigits_ne_nil]
    intro hminus
    have hdigit := Decimal.isDigit_toDigits (List.mem_of_mem_head? hminus)
    exact absurd hdigit (by decide)

theorem value?_int {α : Type} [Numeral α] {n : Int} (hn : isWord n = true) :
    NumberText.value? ⟨decide (n < 0), n.natAbs, 0, true⟩ = some (.int n : Json α) := by
  have hsigned : (if decide (n < 0) = true then -(n.natAbs : Int) else n.natAbs) = n := by
    simp only [decide_eq_true_eq]
    split <;> omega
  have hzero : (decide (n < 0) && decide (n.natAbs = 0)) = false := by
    rw [Bool.and_eq_false_iff, decide_eq_false_iff_not, decide_eq_false_iff_not]
    omega
  simp only [NumberText.value?, hsigned, hn, hzero, Bool.not_false, Bool.and_true, if_true]

/-! ## Other numbers -/

section ReadsBack

variable {α : Type} [Numeral α]

def ReadsBack (x : α) : Prop :=
  ∃ t, numberText? (Numeral.dataText x) = some (t, []) ∧ t.value? = some (.float x)

theorem ReadsBack.append {x : α} (h : ReadsBack x) {rest : List Char} (hrest : EndsNumber rest) :
    ∃ t, numberText? (Numeral.dataText x ++ rest) = some (t, rest) ∧ t.value? = some (.float x) := by
  obtain ⟨t, htext, hvalue⟩ := h
  exact ⟨t, numberText?_append htext hrest, hvalue⟩

def readsBack [DecidableEq α] (x : α) : Bool :=
  match numberText? (Numeral.dataText x) with
  | some (t, []) =>
    match (t.value? : Option (Json α)) with
    | some (.float y) => y = x
    | _ => false
  | _ => false

@[simp] theorem readsBack_iff [DecidableEq α] {x : α} : readsBack x = true ↔ ReadsBack x := by
  unfold readsBack ReadsBack
  split
  · rename_i t htext
    simp only [htext, Option.some.injEq, Prod.mk.injEq, and_true, exists_eq_left']
    split
    · rename_i y hvalue
      simp [hvalue]
    · rename_i hvalue
      exact ⟨fun h => (by cases h), fun h => absurd h (hvalue x)⟩
  · rename_i htext
    exact ⟨fun h => (by cases h), fun ⟨t, ht, _⟩ => absurd ht (htext t)⟩

instance [DecidableEq α] (x : α) : Decidable (ReadsBack x) := decidable_of_iff _ readsBack_iff

end ReadsBack

end Segue.Json
