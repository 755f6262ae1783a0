import Segue.Proofs.Decimal.Rounding

/-!
# Quotients of counts

A quotient of doubles is the exact quotient, rounded once. Rounding moves a value by half a unit in
its last place at most, so values that are farther apart than their units stay apart; the shares of
a total do, as long as the counts have digits enough.
-/

namespace Segue.Decimal

open Float.Model Float.Model.UnpackedFloat

/-! ## Exact quotients -/

theorem valueOf_div_valueOf (m n : Nat) (e f : Int) :
    valueOf m e / valueOf n f = m / n * 2 ^ (e - f) := by
  unfold valueOf
  rw [zpow_sub₀ two_ne_zero]
  exact mul_div_mul_comm ..

/-- A quotient of mantissas is cut to a whole number, with the accuracy of what is cut off. -/
theorem represents_divCore (m : Nat) {n : Nat} (hn : 0 < n) (e f : Int) :
    Represents (ExtendedMantissa.ofMantissaAndAccuracy (divCore Format.binary64 m e n f).1
        (divCore Format.binary64 m e n f).2.2)
      (valueOf m e / valueOf n f / 2 ^ (divCore Format.binary64 m e n f).2.1) := by
  dsimp only [divCore]
  generalize htarget : min (e - f) _ = t
  obtain ⟨k, hk⟩ := Int.le.dest (show t ≤ e - f by omega)
  have hshift : (e - f - t).toNat = k := by omega
  have hquotient : valueOf m e / valueOf n f / 2 ^ t = (m <<< k : Nat) / n := by
    rw [valueOf_div_valueOf, ← hk, zpow_add₀ two_ne_zero, Nat.shiftLeft_eq, Nat.cast_mul,
      Nat.cast_pow, Nat.cast_ofNat, zpow_natCast]
    field_simp
  rw [hshift, hquotient]
  exact represents_fraction (m <<< k) hn

/-- Mantissas with all of their digits have a quotient with all of its digits. -/
theorem le_divCore {m n : Nat} {e f : Int} (hm : 2 ^ 52 ≤ m) (hm' : m < 2 ^ 53) (hn : 2 ^ 52 ≤ n)
    (hn' : n < 2 ^ 53) (hexp : -1000 ≤ e - f) : 2 ^ 52 ≤ (divCore Format.binary64 m e n f).1 := by
  have hlog {k : Nat} (hk : 2 ^ 52 ≤ k) (hk' : k < 2 ^ 53) : k.log2 = 52 :=
    (Nat.log2_eq_iff (by omega)).mpr ⟨hk, hk'⟩
  dsimp only [divCore]
  rw [targetExponent_binary64, totalExponent, totalExponent, hlog hm hm', hlog hn hn']
  have hshift : (e - f - min (e - f)
      (max (((52 : Nat) : Int) + 1 + e - (((52 : Nat) : Int) + 1 + f) - 53) (-1074))).toNat = 53 := by
    omega
  rw [hshift, Nat.le_div_iff_mul_le (by omega), Nat.shiftLeft_eq]
  omega

theorem height_div {x y : Float} {c d : Rat} (hx : IsNormal x c) (hy : IsNormal y d)
    (h : 2 ^ (-100 : Int) ≤ c / d) : height (x / y) = capped (rounded (c / d)) := by
  obtain ⟨m, e, hm, hu, hfull, rfl⟩ := hx
  obtain ⟨n, f, hn, hv, hfull', rfl⟩ := hy
  have hlt := (canonical_unpack hu).lt
  have hlt' := (canonical_unpack hv).lt
  have hexp : -1000 ≤ e - f := by
    have hratio : (m : Rat) / n ≤ 2 ^ (1 : Int) := by
      rw [div_le_iff₀ (by exact_mod_cast hn)]
      exact_mod_cast (by omega : m ≤ 2 * n)
    rw [valueOf_div_valueOf] at h
    have hle := h.trans (mul_le_mul_of_nonneg_right hratio (two_zpow_pos _).le)
    rw [← zpow_add₀ two_ne_zero, zpow_le_zpow_iff_right₀ one_lt_two] at hle
    omega
  have hquotient := le_divCore (e := e) (f := f) hfull hlt hfull' hlt' hexp
  have hrep := represents_divCore m hn e f
  have hdiv : height (x / y) = heightOf (UnpackedFloat.unpack Format.binary64
      (UnpackedFloat.pack Format.binary64 (UnpackedFloat.div Format.binary64
        (.finite .positive m e hm) (.finite .positive n f hn)))) := by
    rw [← hu, ← hv]
    rfl
  rw [hdiv, UnpackedFloat.div]
  generalize divCore Format.binary64 m e n f = q at hquotient hrep ⊢
  obtain ⟨r, t, a⟩ := q
  dsimp only at hquotient hrep
  have hr : 0 < r := (Nat.two_pow_pos 52).trans_le hquotient
  have hplace : t ≤ lastPlace (valueOf m e / valueOf n f) := by
    have hlog := hrep.log (by rwa [mantissa_ofMantissaAndAccuracy])
    have hdigits : 52 ≤ r.log2 := (Nat.le_log2 hr.ne').mpr hquotient
    rw [mantissa_ofMantissaAndAccuracy] at hlog
    rw [lastPlace, hlog]
    omega
  exact heightOf_unpack_pack (hrep.holds hr hplace)

/-! ## How far rounding goes -/

theorem abs_halfEven_sub_le {x : Rat} (hx : 0 ≤ x) : |(halfEven x : Rat) - x| ≤ 1 / 2 := by
  have hlow := Nat.floor_le hx
  have hhigh := Nat.lt_floor_add_one x
  rw [abs_le]
  unfold halfEven
  split
  · constructor <;> linarith
  · split
    · rename_i hhalf
      rcases Nat.mod_two_eq_zero_or_one ⌊x⌋₊ with hbit | hbit <;> rw [hbit] <;> push_cast <;>
        constructor <;> linarith
    · push_cast
      constructor <;> linarith

theorem abs_rounded_sub_le {x : Rat} (hx : 0 ≤ x) : |rounded x - x| ≤ 2 ^ lastPlace x / 2 := by
  have hunit := two_zpow_pos (lastPlace x)
  have hsplit : rounded x - x =
      (halfEven (x / 2 ^ lastPlace x) - x / 2 ^ lastPlace x) * 2 ^ lastPlace x := by
    rw [rounded, valueOf, sub_mul, div_mul_cancel₀ _ hunit.ne']
  have hhalf := abs_halfEven_sub_le (div_nonneg hx hunit.le)
  rw [hsplit, abs_mul, abs_of_pos hunit]
  calc _ ≤ 1 / 2 * 2 ^ lastPlace x := mul_le_mul_of_nonneg_right hhalf hunit.le
    _ = 2 ^ lastPlace x / 2 := by ring

theorem rounded_lt_of_lt {x : Rat} {y : Rat} (hx : 0 ≤ x) (hy : rounded y = y)
    (h : 2 ^ lastPlace x / 2 < y - x) : rounded x < rounded y := by
  have hmoved := (abs_le.mp (abs_rounded_sub_le hx)).2
  rw [hy]
  linarith

theorem rounded_lt_rounded {x y : Rat} (hx : 0 ≤ x)
    (h : (2 ^ lastPlace x + 2 ^ lastPlace y) / 2 < y - x) : rounded x < rounded y := by
  have hpos := add_pos (two_zpow_pos (lastPlace x)) (two_zpow_pos (lastPlace y))
  have hup := (abs_le.mp (abs_rounded_sub_le hx)).2
  have hdown := (abs_le.mp (abs_rounded_sub_le (show 0 ≤ y by linarith))).1
  linarith

/-- Above the least values the unit is in proportion to the value. -/
theorem unit_le {x : Rat} (hx : 2 ^ (-100 : Int) ≤ x) : 2 ^ lastPlace x ≤ x / 2 ^ 52 := by
  have hpos : 0 < x := (two_zpow_pos _).trans_le hx
  have hlog : -100 ≤ Int.log 2 x := by
    rw [← Int.zpow_le_iff_le_log one_lt_two hpos]
    exact_mod_cast hx
  have hplace : lastPlace x = Int.log 2 x - 52 := by
    unfold lastPlace
    omega
  have hle : (2 : Rat) ^ Int.log 2 x ≤ x := by
    exact_mod_cast Int.zpow_log_le_self one_lt_two hpos
  rw [hplace, zpow_sub₀ two_ne_zero]
  exact div_le_div_of_nonneg_right hle (by positivity)

theorem unit_le_of_lt_one {x : Rat} (hx : 0 < x) (h : x < 1) :
    (2 : Rat) ^ lastPlace x ≤ 1 / 2 ^ 53 := by
  have hlog : Int.log 2 x < 0 := by
    rw [← Int.lt_zpow_iff_log_lt one_lt_two hx, zpow_zero]
    exact h
  have hplace : lastPlace x ≤ -53 := by
    unfold lastPlace
    omega
  calc (2 : Rat) ^ lastPlace x ≤ 2 ^ (-53 : Int) := zpow_le_zpow_right₀ one_le_two hplace
    _ = 1 / 2 ^ 53 := by norm_num

/-! ## Shares -/

section Shares

variable {a b : Nat}

theorem share_gap (hab : a < b) {d : Rat} (hd : 0 < d) : 1 / d ≤ (b : Rat) / d - a / d := by
  have hone : (a : Rat) + 1 ≤ b := by exact_mod_cast hab
  rw [← sub_div]
  exact div_le_div_of_nonneg_right (by linarith) hd.le

/-- Counts that a double holds, in parts of a total that it holds. -/
theorem rounded_share_lt {n : Nat} (ha : 0 < a) (hab : a < b) (hb : b ≤ n) (hn : n ≤ 2 ^ 53) :
    rounded (a / n) < rounded (b / n) := by
  have hpos : (0 : Rat) < n := by exact_mod_cast (show 0 < n by omega)
  have hx : (0 : Rat) < a / n := div_pos (by exact_mod_cast ha) hpos
  have hgap := share_gap hab hpos
  have hless {k : Nat} (hk : k < n) : (k : Rat) / n < 1 :=
    (div_lt_one hpos).mpr (by exact_mod_cast hk)
  rcases hn.lt_or_eq with hlt | rfl
  · have hwide : (1 : Rat) / 2 ^ 53 < 1 / n :=
      one_div_lt_one_div_of_lt hpos (by exact_mod_cast hlt)
    have hunit := unit_le_of_lt_one hx (hless (hab.trans_le hb))
    rcases hb.lt_or_eq with hb | rfl
    · have hunit' := unit_le_of_lt_one (hx.trans (by linarith [one_div_pos.mpr hpos])) (hless hb)
      exact rounded_lt_rounded hx.le (by linarith)
    · have hone : (b : Rat) / b = 1 := div_self hpos.ne'
      refine rounded_lt_of_lt hx.le (by rw [hone, rounded_one]) ?_
      linarith [one_div_pos.mpr hpos]
  · -- with all digits in use every share is a double itself
    have hexact {k : Nat} (hk : k ≤ 2 ^ 53) :
        rounded (k / (2 ^ 53 : Nat)) = k / (2 ^ 53 : Nat) := by
      have hvalue : (k : Rat) / (2 ^ 53 : Nat) = valueOf k (-53) := by
        rw [valueOf, zpow_neg, ← div_eq_mul_inv]
        norm_num
      rw [hvalue, rounded_valueOf hk (by decide)]
    rw [hexact (by omega), hexact hb]
    linarith [one_div_pos.mpr hpos]

/-- Counts with a digit to spare, in parts of any total. -/
theorem rounded_part_lt {d : Rat} (hab : a < b) (hb : b ≤ 2 ^ 52)
    (hlow : 2 ^ (-100 : Int) ≤ a / d) (hd : 0 < d) : rounded (a / d) < rounded (b / d) := by
  have hx : (0 : Rat) < a / d := (two_zpow_pos _).trans_le hlow
  have hgap := share_gap hab hd
  have hstep := one_div_pos.mpr hd
  have hunit := unit_le hlow
  have hunit' := unit_le (hlow.trans (show (a : Rat) / d ≤ b / d by linarith))
  have hdigits : (b : Rat) / d / 2 ^ 52 ≤ 1 / d := by
    rw [div_div, mul_comm, ← div_div]
    exact div_le_div_of_nonneg_right
      ((div_le_one (by positivity)).mpr (by exact_mod_cast hb)) hd.le
  have hless : (a : Rat) / d / 2 ^ 52 < b / d / 2 ^ 52 :=
    div_lt_div_of_pos_right (by linarith) (by positivity)
  exact rounded_lt_rounded hx.le (by linarith)

end Shares

/-! ## Shares as doubles -/

theorem lt_of_height_lt {x y : Float} (hx : 0 < height x) (h : height x < height y) : x < y := by
  have hnumber {z : Float} (hz : 0 < height z) : z.isNaN = false := by
    have hunpack : z.isNaN = z.toModel.unpack.isNaN := rfl
    rw [hunpack]
    cases hu : z.toModel.unpack with
    | notANumber =>
        rw [height, hu] at hz
        exact absurd hz (lt_irrefl _)
    | infinity s | zero s | finite s m e hm => rfl
  by_contra hnot
  have hle := Comparison.le_of_not_lt (hnumber (hx.trans h)) (hnumber hx) hnot
  exact absurd (height_mono hle) (not_le.mpr h)

theorem isNormal_ofNat {n : Nat} (hn : 0 < n) (hmax : n ≤ maxCount) :
    IsNormal (Float.ofNat n) (rounded n) := by
  obtain ⟨c, -, hnormal⟩ := exists_isNormal_ofNat hn hmax
  have hvalue : height (Float.ofNat n) = (c : Rat) := by
    obtain ⟨m, e, hm, hu, -, rfl⟩ := hnormal
    rw [height, hu]
    rfl
  rw [height_ofNat hn, capped] at hvalue
  split at hvalue
  · rwa [WithTop.coe_eq_coe.mp hvalue]
  · exact absurd hvalue.symm (WithTop.coe_ne_top)

theorem one_le_rounded {n : Nat} (hn : 0 < n) : 1 ≤ rounded n := by
  rw [← rounded_one]
  exact rounded_mono (by exact_mod_cast hn)

theorem rounded_le_of_le {n : Nat} (hmax : n ≤ maxCount) : rounded n ≤ 2 ^ 64 := by
  have hpower : valueOf 1 64 = 2 ^ 64 := by norm_num [valueOf]
  rw [← hpower, ← rounded_valueOf (m := 1) (by decide) (by decide), hpower]
  exact rounded_mono (by exact_mod_cast hmax.trans (by decide))

theorem height_share {k n : Nat} (hk : 0 < k) (hk' : k ≤ 2 ^ 53) (hn : 0 < n)
    (hmax : n ≤ maxCount) :
    height (Float.ofNat k / Float.ofNat n) = (rounded (k / rounded n) : Rat) ∧
      2 ^ (-100 : Int) ≤ k / rounded n := by
  have hone := one_le_rounded hn
  have hpos : 0 < rounded n := one_pos.trans_le hone
  have hk1 : (1 : Rat) ≤ k := by exact_mod_cast hk
  have hlow : 2 ^ (-100 : Int) ≤ k / rounded n := by
    calc (2 : Rat) ^ (-100 : Int) ≤ 1 / 2 ^ 64 := by norm_num
      _ ≤ 1 / rounded n := one_div_le_one_div_of_le hpos (rounded_le_of_le hmax)
      _ ≤ k / rounded n := div_le_div_of_nonneg_right hk1 hpos.le
  have hnormal := isNormal_ofNat hk (hk'.trans (by decide))
  rw [rounded_natCast hk'] at hnormal
  refine ⟨?_, hlow⟩
  rw [height_div hnormal (isNormal_ofNat hn hmax) hlow, capped_of_le_pow]
  have hle : (k : Rat) / rounded n ≤ (2 ^ 53 : Nat) :=
    (div_le_self (by positivity) hone).trans (by exact_mod_cast hk')
  rw [← rounded_natCast le_rfl]
  exact rounded_mono hle

/-- The shares of a total grow from count to count if doubles can tell the counts apart. -/
theorem share_lt {a b n : Nat} (ha : 0 < a) (hab : a < b)
    (h : b ≤ n ∧ n ≤ 2 ^ 53 ∨ b ≤ 2 ^ 52 ∧ 0 < n ∧ n ≤ maxCount) :
    Float.ofNat a / Float.ofNat n < Float.ofNat b / Float.ofNat n := by
  have hb : b ≤ 2 ^ 53 := by omega
  have hn : 0 < n := by omega
  have hmax : n ≤ maxCount := by
    unfold maxCount at h ⊢
    omega
  obtain ⟨hx, hlow⟩ := height_share ha (hab.le.trans hb) hn hmax
  obtain ⟨hy, -⟩ := height_share (ha.trans hab) hb hn hmax
  have hrounded : rounded (a / rounded n) < rounded (b / rounded n) := by
    rcases h with ⟨hle, htotal⟩ | ⟨hshort, -, -⟩
    · rw [rounded_natCast htotal]
      exact rounded_share_lt ha hab hle htotal
    · exact rounded_part_lt hab hshort hlow (one_pos.trans_le (one_le_rounded hn))
  have hpos : 0 < rounded ((a : Rat) / rounded n) := by
    have hleast := rounded_mono hlow
    have hpower : valueOf 1 (-100) = 2 ^ (-100 : Int) := by rw [valueOf, Nat.cast_one, one_mul]
    rw [← hpower, rounded_valueOf (by decide) (by decide)] at hleast
    exact (valueOf_pos one_pos _).trans_le hleast
  apply lt_of_height_lt
  · rw [hx]
    exact WithTop.coe_lt_coe.mpr hpos
  · rw [hx, hy]
    exact WithTop.coe_lt_coe.mpr hrounded

end Segue.Decimal
