import Mathlib
import Segue.Decimal.Read

/-!
# Digits of numbers

The decimal digits of a number, read again, give the number. A run of digits ends where no digit
follows, so it can be told apart from what comes after it.
-/

namespace Segue.Decimal

/-- A text that no digit starts. -/
def NoDigit (cs : List Char) : Prop := ∀ c ∈ cs.head?, c.isDigit = false

theorem noDigit_cons {c : Char} (hc : c.isDigit = false) (cs : List Char) : NoDigit (c :: cs) := by
  intro d hd
  obtain rfl : c = d := by simpa using hd
  exact hc

section Runs

variable {ds rest : List Char}

theorem takeWhile_digits (hds : ∀ c ∈ ds, c.isDigit = true) (hrest : NoDigit rest) :
    (ds ++ rest).takeWhile Char.isDigit = ds := by
  have hend : rest.takeWhile Char.isDigit = [] := by
    cases rest with
    | nil => rfl
    | cons c cs => exact List.takeWhile_cons_of_neg (by simp [hrest c rfl])
  rw [List.takeWhile_append_of_pos hds, hend, List.append_nil]

theorem dropWhile_digits (hds : ∀ c ∈ ds, c.isDigit = true) (hrest : NoDigit rest) :
    (ds ++ rest).dropWhile Char.isDigit = rest := by
  rw [List.dropWhile_append_of_pos hds]
  cases rest with
  | nil => rfl
  | cons c cs => exact List.dropWhile_cons_of_neg (by simp [hrest c rfl])

end Runs

/-- Digits alone are a count, with zeros in front as well. -/
theorem readCount?_digits {bound : Nat} {ds : List Char} (hne : ds ≠ [])
    (hds : ∀ c ∈ ds, c.isDigit = true) (hle : ofDigits ds ≤ bound) :
    readCount? bound (String.ofList ds) = some (ofDigits ds) := by
  unfold readCount?
  rw [String.toList_ofList]
  extract_lets cs n
  have hcs : cs = ds := by
    unfold cs
    split
    · exact absurd (hds '+' List.mem_cons_self) (by decide)
    · rfl
  have hread : (ds.isEmpty || !ds.all Char.isDigit) = false := by
    simp [hne, List.all_eq_true.mpr hds]
  have hn : n ≤ bound := by rwa [← hcs] at hle
  rw [hcs, hread, if_neg Bool.false_ne_true, if_pos hn, ← hcs]

/-! ## Written numbers -/

@[simp] theorem ofDigits_toDigits (n : Nat) : ofDigits (Nat.toDigits 10 n) = n :=
  Nat.ofDigitChars_ten_toDigits

theorem isDigit_toDigits {n : Nat} {c : Char} (hc : c ∈ Nat.toDigits 10 n) : c.isDigit = true :=
  Nat.isDigit_of_mem_toDigits (by decide) (by decide) hc

theorem head?_toDigits (n : Nat) (hn : n ≠ 0) : (Nat.toDigits 10 n).head? ≠ some '0' := by
  induction n using Nat.strong_induction_on with
  | _ n ih =>
      by_cases hlt : n < 10
      · have hdigit : ∀ k < 10, k ≠ 0 → k.digitChar ≠ '0' := by decide
        rw [Nat.toDigits_of_lt_base hlt, List.head?_cons]
        exact fun h => hdigit n hlt hn (Option.some.inj h)
      · have hle : 10 ≤ n := Nat.le_of_not_lt hlt
        rw [Nat.toDigits_of_base_le (by decide) hle,
          List.head?_append_of_ne_nil _ Nat.toDigits_ne_nil]
        exact ih (n / 10) (by omega) (by omega)

/-- Only zero is written with a zero in front. -/
theorem head?_toDigits_of_length {n : Nat} (h : 1 < (Nat.toDigits 10 n).length) :
    (Nat.toDigits 10 n).head? ≠ some '0' := by
  refine head?_toDigits n ?_
  rintro rfl
  exact absurd h (by decide)

theorem toList_toString_nat (n : Nat) : (toString n).toList = Nat.toDigits 10 n := by simp

theorem toList_toString_int (n : Int) :
    (toString n).toList = (if n < 0 then ['-'] else []) ++ Nat.toDigits 10 n.natAbs := by
  have hint : toString n = Int.repr n := rfl
  cases n with
  | ofNat m =>
      have hnot : ¬Int.ofNat m < 0 := Int.not_lt.mpr (Int.natCast_nonneg m)
      rw [hint, Int.repr, Nat.toList_repr, if_neg hnot]
      rfl
  | negSucc m =>
      rw [hint, Int.repr, String.toList_append, Nat.toList_repr, if_pos (Int.negSucc_lt_zero m)]
      rfl

end Segue.Decimal
