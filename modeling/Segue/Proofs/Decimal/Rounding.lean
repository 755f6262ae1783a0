import Segue.Proofs.Decimal.Finite

/-!
# Rounding keeps order

A product of doubles is the exact product, rounded to a whole number of units in its last place, half
a unit to the even number. A greater value has no smaller unit, so rounding keeps the order of
values; so do packing, which gives infinity for what is too large, and cutting to a count.
-/

namespace Segue.Decimal

open Float.Model Float.Model.UnpackedFloat

/-! ## Whole numbers -/

/-- The nearest whole number; a half goes to the even neighbour. -/
def halfEven (x : Rat) : Nat :=
  if x - ⌊x⌋₊ < 1 / 2 then ⌊x⌋₊
  else if x - ⌊x⌋₊ = 1 / 2 then ⌊x⌋₊ + ⌊x⌋₊ % 2
  else ⌊x⌋₊ + 1

theorem floor_le_halfEven (x : Rat) : ⌊x⌋₊ ≤ halfEven x := by
  unfold halfEven
  split
  · exact le_rfl
  · split <;> exact Nat.le_add_right _ _

theorem halfEven_le_floor_add_one (x : Rat) : halfEven x ≤ ⌊x⌋₊ + 1 := by
  unfold halfEven
  split
  · exact Nat.le_succ _
  · split <;> omega

@[simp] theorem halfEven_natCast (n : Nat) : halfEven n = n := by
  rw [halfEven, Nat.floor_natCast, if_pos (by norm_num)]

theorem halfEven_mono : Monotone halfEven := by
  intro x y h
  rcases (Nat.floor_mono h).lt_or_eq with hlt | heq
  · calc halfEven x ≤ ⌊x⌋₊ + 1 := halfEven_le_floor_add_one x
      _ ≤ ⌊y⌋₊ := hlt
      _ ≤ halfEven y := floor_le_halfEven y
  · -- above the same whole number the three cases stand in their order
    have hrest : x - ⌊y⌋₊ ≤ y - ⌊y⌋₊ := sub_le_sub_right h _
    unfold halfEven
    rw [heq]
    split
    · split
      · exact le_rfl
      · split <;> omega
    · rename_i hx
      rw [if_neg fun hy => hx (hrest.trans_lt hy)]
      split
      · split <;> omega
      · rename_i hhalf
        have hy : y - ⌊y⌋₊ ≠ 1 / 2 := fun hy =>
          hhalf (le_antisymm (hrest.trans_eq hy) (not_lt.mp hx))
        rw [if_neg hy]

/-! ## Shifted mantissas -/

/-- The mantissa is the whole part of a number, and its two bits compare the rest with a half. -/
def Represents (em : ExtendedMantissa) (x : Rat) : Prop :=
  ∃ r, x = em.mantissa + r ∧
    match em.roundBit, em.stickyBit with
    | false, false => r = 0
    | false, true => 0 < r ∧ r < 1 / 2
    | true, false => r = 1 / 2
    | true, true => 1 / 2 < r ∧ r < 1

theorem represents_exact (m : Nat) :
    Represents (ExtendedMantissa.ofMantissaAndAccuracy m .exact) m := ⟨0, (add_zero _).symm, rfl⟩

theorem represents_fraction (n : Nat) {d : Nat} (hd : 0 < d) :
    Represents (ExtendedMantissa.ofMantissaAndAccuracy (n / d) (accuracyOfFraction (n % d) d))
      (n / d) := by
  have hpos : (0 : Rat) < d := by exact_mod_cast hd
  have hsplit : (n : Rat) / d = (n / d : Nat) + (n % d : Nat) / d := by
    have hcast : (d : Rat) * (n / d : Nat) + (n % d : Nat) = n := by
      exact_mod_cast Nat.div_add_mod n d
    field_simp
    linarith
  have hrest : ((n % d : Nat) : Rat) / d < 1 :=
    (div_lt_one hpos).mpr (by exact_mod_cast Nat.mod_lt n hd)
  have htwice : (2 * (n % d) : Nat) / (d : Rat) = 2 * ((n % d : Nat) / d) := by
    rw [Nat.cast_mul, Nat.cast_two, mul_div_assoc]
  refine ⟨_, by rw [mantissa_ofMantissaAndAccuracy]; exact hsplit, ?_⟩
  unfold accuracyOfFraction
  by_cases hzero : n % d = 0
  · rw [if_pos hzero, hzero, Nat.cast_zero, zero_div]
    rfl
  · have habove : 0 < ((n % d : Nat) : Rat) / d :=
      div_pos (by exact_mod_cast Nat.pos_of_ne_zero hzero) hpos
    rw [if_neg hzero]
    cases hcompare : compare (2 * (n % d)) d with
    | lt =>
        have hless : (2 * (n % d) : Nat) / (d : Rat) < 1 :=
          (div_lt_one hpos).mpr (by exact_mod_cast Nat.compare_eq_lt.mp hcompare)
        exact ⟨habove, by linarith⟩
    | eq =>
        have hsame : (2 * (n % d) : Nat) / (d : Rat) = 1 := by
          rw [Nat.compare_eq_eq.mp hcompare, div_self hpos.ne']
        change _ = 1 / 2
        linarith
    | gt =>
        have hmore : 1 < (2 * (n % d) : Nat) / (d : Rat) :=
          (one_lt_div hpos).mpr (by exact_mod_cast Nat.compare_eq_gt.mp hcompare)
        exact ⟨by linarith, hrest⟩

theorem Represents.bounds {em : ExtendedMantissa} {x : Rat} (h : Represents em x) :
    (em.mantissa : Rat) ≤ x ∧ x < em.mantissa + 1 := by
  obtain ⟨m, round, sticky⟩ := em
  obtain ⟨r, rfl, hr⟩ := h
  cases round <;> cases sticky <;> simp only at hr ⊢ <;> constructor <;> linarith

theorem Represents.shiftRightOne {em : ExtendedMantissa} {x : Rat} (h : Represents em x) :
    Represents em.shiftRightOne (x / 2) := by
  obtain ⟨m, round, sticky⟩ := em
  obtain ⟨r, rfl, hr⟩ := h
  have hsplit : (m : Rat) = 2 * (m / 2 : Nat) + (m % 2 : Nat) := by
    exact_mod_cast (Nat.div_add_mod m 2).symm
  refine ⟨((m % 2 : Nat) + r) / 2, ?_, ?_⟩
  · change ((m : Rat) + r) / 2 = (m / 2 : Nat) + _
    rw [hsplit]
    ring
  · -- the bit that is shifted out is a half, and what was behind it less than that
    rcases Nat.mod_two_eq_zero_or_one m with hbit | hbit
    · have hround : ((0 : Nat) != 0) = false := rfl
      cases round <;> cases sticky <;>
        simp only [ExtendedMantissa.shiftRightOne, hround, hbit, Nat.cast_zero, zero_add,
          Bool.or_false, Bool.or_true] at hr ⊢ <;>
        first | linarith | (constructor <;> linarith)
    · have hround : ((1 : Nat) != 0) = true := rfl
      cases round <;> cases sticky <;>
        simp only [ExtendedMantissa.shiftRightOne, hround, hbit, Nat.cast_one,
          Bool.or_false, Bool.or_true] at hr ⊢ <;>
        first | linarith | (constructor <;> linarith)

theorem Represents.shiftRight {em : ExtendedMantissa} {x : Rat} (h : Represents em x) (k : Nat) :
    Represents (em >>> k) (x / (2 ^ k : Nat)) := by
  induction k with
  | zero =>
      rw [pow_zero, Nat.cast_one, div_one]
      exact h
  | succ k ih =>
      have hhalf := ih.shiftRightOne
      rwa [div_div, ← Nat.cast_ofNat (R := Rat) (n := 2), ← Nat.cast_mul, ← pow_succ] at hhalf

theorem Represents.roundedMantissa {em : ExtendedMantissa} {x : Rat} (h : Represents em x) :
    em.roundedMantissa = halfEven x := by
  obtain ⟨m, round, sticky⟩ := em
  obtain ⟨hlow, hhigh⟩ := h.bounds
  have hfloor : ⌊x⌋₊ = m := (Nat.floor_eq_iff (m.cast_nonneg.trans hlow)).mpr ⟨hlow, hhigh⟩
  obtain ⟨r, hx, hr⟩ := h
  have hrest : x - m = r := by
    rw [hx]
    exact add_sub_cancel_left _ r
  rw [halfEven, hfloor, hrest]
  cases round <;> cases sticky
  · rw [if_pos (hr.trans_lt one_half_pos)]
    rfl
  · rw [if_pos hr.2]
    rfl
  · rw [if_neg (not_lt.mpr hr.ge), if_pos hr]
    rfl
  · rw [if_neg (not_lt.mpr hr.1.le), if_neg hr.1.ne']
    rfl

/-! ## Values -/

def valueOf (m : Nat) (e : Int) : Rat := m * 2 ^ e

theorem two_zpow_pos (e : Int) : (0 : Rat) < 2 ^ e := zpow_pos two_pos e

theorem valueOf_nonneg (m : Nat) (e : Int) : 0 ≤ valueOf m e :=
  mul_nonneg (Nat.cast_nonneg m) (two_zpow_pos e).le

theorem valueOf_pos {m : Nat} (hm : 0 < m) (e : Int) : 0 < valueOf m e :=
  mul_pos (Nat.cast_pos.mpr hm) (two_zpow_pos e)

theorem valueOf_mono {m n : Nat} (h : m ≤ n) (e : Int) : valueOf m e ≤ valueOf n e :=
  mul_le_mul_of_nonneg_right (by exact_mod_cast h) (two_zpow_pos e).le

theorem valueOf_mono_exponent (m : Nat) {e f : Int} (h : e ≤ f) : valueOf m e ≤ valueOf m f :=
  mul_le_mul_of_nonneg_left (zpow_le_zpow_right₀ one_le_two h) (Nat.cast_nonneg m)

@[simp] theorem valueOf_zero (n : Nat) : valueOf n 0 = n := by rw [valueOf, zpow_zero, mul_one]

theorem valueOf_mul (m n : Nat) (e f : Int) :
    valueOf m e * valueOf n f = valueOf (m * n) (e + f) := by
  unfold valueOf
  rw [zpow_add₀ two_ne_zero, Nat.cast_mul]
  ring

@[simp]
theorem valueOf_shift (m k : Nat) (e : Int) : valueOf (m * 2 ^ k) (e - k) = valueOf m e := by
  unfold valueOf
  rw [zpow_sub₀ two_ne_zero, zpow_natCast, Nat.cast_mul, Nat.cast_pow, Nat.cast_ofNat]
  field_simp

theorem valueOf_carry (e : Int) : valueOf (2 ^ 53) e = valueOf (2 ^ 52) (e + 1) := by
  have hshift := valueOf_shift (2 ^ 52) 1 (e + 1)
  rwa [Nat.cast_one, add_sub_cancel_right, ← Nat.pow_add] at hshift

/-- A value with a greater exponent is greater if its mantissa has all of its 53 digits. -/
theorem valueOf_le_of_lt {m n : Nat} {e f : Int} (hm : m ≤ 2 ^ 53) (hn : 2 ^ 52 ≤ n)
    (hlt : e < f) : valueOf m e ≤ valueOf n f := by
  calc valueOf m e ≤ valueOf (2 ^ 53) e := valueOf_mono hm e
    _ = valueOf (2 ^ 52) (e + 1) := valueOf_carry e
    _ ≤ valueOf (2 ^ 52) f := valueOf_mono_exponent _ hlt
    _ ≤ valueOf n f := valueOf_mono hn f

theorem floor_valueOf (m : Nat) (e : Int) :
    ⌊valueOf m e⌋₊ = m * 2 ^ e.toNat / 2 ^ (-e).toNat := by
  have hsplit : (2 : Rat) ^ e = (2 ^ e.toNat : Nat) / (2 ^ (-e).toNat : Nat) := by
    have hexp : (e.toNat : Int) - ((-e).toNat : Int) = e := by omega
    rw [Nat.cast_pow, Nat.cast_pow, Nat.cast_ofNat, ← zpow_natCast, ← zpow_natCast,
      ← zpow_sub₀ two_ne_zero, hexp]
  rw [valueOf, hsplit, ← mul_div_assoc, ← Nat.cast_mul, Nat.floor_div_eq_div]

/-- A number is as long as the mantissa that stands for it. -/
theorem Represents.log {em : ExtendedMantissa} {x : Rat} {e : Int} (h : Represents em (x / 2 ^ e))
    (hm : 0 < em.mantissa) : Int.log 2 x = em.mantissa.log2 + e := by
  obtain ⟨hle, hlt⟩ := h.bounds
  rw [le_div_iff₀ (two_zpow_pos e)] at hle
  rw [div_lt_iff₀ (two_zpow_pos e)] at hlt
  have hx : 0 < x := (valueOf_pos hm e).trans_le hle
  have hpow (k : Nat) : (2 : Rat) ^ ((k : Int) + e) = valueOf (2 ^ k) e := by
    rw [valueOf, zpow_add₀ two_ne_zero, zpow_natCast, Nat.cast_pow, Nat.cast_ofNat]
  have hlow : em.mantissa.log2 + e ≤ Int.log 2 x := by
    rw [← Int.zpow_le_iff_le_log one_lt_two hx, Nat.cast_ofNat, hpow]
    exact (valueOf_mono (Nat.log2_self_le hm.ne') e).trans hle
  have hhigh : Int.log 2 x < (em.mantissa.log2 + 1 : Nat) + e := by
    rw [← Int.lt_zpow_iff_log_lt one_lt_two hx, Nat.cast_ofNat, hpow]
    have hshort : em.mantissa + 1 ≤ 2 ^ (em.mantissa.log2 + 1) := Nat.lt_log2_self
    refine hlt.trans_le ((le_of_eq ?_).trans (valueOf_mono hshort e))
    rw [valueOf, Nat.cast_add_one]
  omega

theorem represents_valueOf (m : Nat) (e : Int) :
    Represents (ExtendedMantissa.ofMantissaAndAccuracy m .exact) (valueOf m e / 2 ^ e) := by
  rw [valueOf, mul_div_cancel_right₀ _ (two_zpow_pos e).ne']
  exact represents_exact m

theorem log_valueOf {m : Nat} (hm : 0 < m) (e : Int) : Int.log 2 (valueOf m e) = m.log2 + e :=
  (represents_valueOf m e).log hm

/-! ## Rounded values -/

/-- The exponent of the last digit that a double has for a value. -/
def lastPlace (x : Rat) : Int := max (Int.log 2 x - 52) (-1074)

/-- The nearest value with that last digit. -/
def rounded (x : Rat) : Rat := valueOf (halfEven (x / 2 ^ lastPlace x)) (lastPlace x)

theorem lastPlace_valueOf {m : Nat} (hm : 0 < m) (e : Int) :
    lastPlace (valueOf m e) = max (m.log2 + e - 52) (-1074) := by
  rw [lastPlace, log_valueOf hm]

theorem neg_le_lastPlace (x : Rat) : -1074 ≤ lastPlace x := le_max_right _ _

theorem lastPlace_mono {x y : Rat} (hx : 0 < x) (h : x ≤ y) : lastPlace x ≤ lastPlace y :=
  max_le_max_right _ (sub_le_sub_right (Int.log_mono_right hx h) _)

theorem div_lastPlace_lt {x : Rat} (hx : 0 < x) : x / 2 ^ lastPlace x < (2 ^ 53 : Nat) := by
  have hlog : Int.log 2 x < 53 + lastPlace x := by
    unfold lastPlace
    omega
  rw [← Int.lt_zpow_iff_log_lt one_lt_two hx, Nat.cast_ofNat, zpow_add₀ two_ne_zero] at hlog
  rw [div_lt_iff₀ (two_zpow_pos _)]
  exact_mod_cast hlog

/-- Above the least exponent no digit is idle. -/
theorem le_div_lastPlace {x : Rat} (hx : 0 < x) (h : -1074 < lastPlace x) :
    ((2 ^ 52 : Nat) : Rat) ≤ x / 2 ^ lastPlace x := by
  have hlog : 52 + lastPlace x ≤ Int.log 2 x := by
    unfold lastPlace at h ⊢
    omega
  rw [← Int.zpow_le_iff_le_log one_lt_two hx, Nat.cast_ofNat, zpow_add₀ two_ne_zero] at hlog
  rw [le_div_iff₀ (two_zpow_pos _)]
  exact_mod_cast hlog

theorem halfEven_lastPlace_le {x : Rat} (hx : 0 < x) :
    halfEven (x / 2 ^ lastPlace x) ≤ 2 ^ 53 := by
  have hle := halfEven_mono (div_lastPlace_lt hx).le
  rwa [halfEven_natCast] at hle

theorem le_halfEven_lastPlace {x : Rat} (hx : 0 < x) (h : -1074 < lastPlace x) :
    2 ^ 52 ≤ halfEven (x / 2 ^ lastPlace x) := by
  have hle := halfEven_mono (le_div_lastPlace hx h)
  rwa [halfEven_natCast] at hle

theorem rounded_of_nonpos {x : Rat} (hx : x ≤ 0) : rounded x = 0 := by
  have hquotient : x / 2 ^ lastPlace x ≤ 0 := div_nonpos_of_nonpos_of_nonneg hx (two_zpow_pos _).le
  have hnone : halfEven (x / 2 ^ lastPlace x) = 0 := by
    rw [halfEven, Nat.floor_of_nonpos hquotient, if_pos]
    rw [Nat.cast_zero, sub_zero]
    exact hquotient.trans_lt one_half_pos
  rw [rounded, hnone, valueOf, Nat.cast_zero, zero_mul]

/-- What has no more digits than a double is left alone. -/
theorem rounded_valueOf {m : Nat} {e : Int} (hm : m ≤ 2 ^ 53) (he : -1074 ≤ e) :
    rounded (valueOf m e) = valueOf m e := by
  have hshort {m : Nat} {e : Int} (hpos : 0 < m) (hm : m < 2 ^ 53) (he : -1074 ≤ e) :
      rounded (valueOf m e) = valueOf m e := by
    have hlog : m.log2 ≤ 52 := log2_le_of_lt hm
    have hplace : lastPlace (valueOf m e) ≤ e := by
      rw [lastPlace_valueOf hpos]
      omega
    generalize hunit : lastPlace (valueOf m e) = t at hplace
    obtain ⟨k, rfl⟩ := Int.le.dest hplace
    have hvalue := valueOf_shift m k (t + k)
    rw [add_sub_cancel_right] at hvalue
    have hunits : valueOf m (t + k) / 2 ^ t = (m * 2 ^ k : Nat) := by
      rw [div_eq_iff (two_zpow_pos _).ne']
      exact hvalue.symm
    rw [rounded, hunit, hunits, halfEven_natCast, hvalue]
  rcases Nat.eq_zero_or_pos m with rfl | hpos
  · have hzero : valueOf 0 e = 0 := by rw [valueOf, Nat.cast_zero, zero_mul]
    rw [hzero, rounded_of_nonpos le_rfl]
  · rcases hm.lt_or_eq with hlt | rfl
    · exact hshort hpos hlt he
    · rw [valueOf_carry]
      exact hshort (by decide) (by decide) (by omega)

theorem rounded_natCast {n : Nat} (hn : n ≤ 2 ^ 53) : rounded n = n := by
  have hvalue := rounded_valueOf hn (show -1074 ≤ (0 : Int) by decide)
  rwa [valueOf_zero] at hvalue

@[simp] theorem rounded_one : rounded 1 = 1 := by
  have hone := rounded_natCast (n := 1) (by decide)
  rwa [Nat.cast_one] at hone

theorem rounded_mono : Monotone rounded := by
  intro x y h
  by_cases hx : 0 < x
  · unfold rounded
    rcases (lastPlace_mono hx h).lt_or_eq with hlt | heq
    · -- as many units as `x` may have, `y` has of units that are twice as large
      have hy := le_halfEven_lastPlace (hx.trans_le h) ((neg_le_lastPlace x).trans_lt hlt)
      exact valueOf_le_of_lt (halfEven_lastPlace_le hx) hy hlt
    · rw [heq]
      apply valueOf_mono
      apply halfEven_mono
      exact div_le_div_of_nonneg_right h (two_zpow_pos _).le
  · rw [rounded_of_nonpos (not_lt.mp hx)]
    exact valueOf_nonneg _ _

/-! ## Doubles -/

/-- The mantissas and exponents of doubles: 53 digits, or fewer at the least exponent. -/
structure Canonical (m : Nat) (e : Int) : Prop where
  lt : m < 2 ^ 53
  full : 2 ^ 52 ≤ m ∨ e = -1074
  least : -1074 ≤ e

theorem Canonical.valueOf_lt {m : Nat} {e f : Int} (h : Canonical m e) (hle : e ≤ f) :
    valueOf m e < valueOf (2 ^ 53) f := by
  calc valueOf m e < valueOf (2 ^ 53) e :=
        mul_lt_mul_of_pos_right (by exact_mod_cast h.lt) (two_zpow_pos e)
    _ ≤ valueOf (2 ^ 53) f := valueOf_mono_exponent _ hle

/-- A double above zero, or zero, with its value; it may still be too large to be packed. -/
inductive Holds (x : Rat) : UnpackedFloat → Prop where
  | zero : x = 0 → Holds x (.zero .positive)
  | finite {m : Nat} {e : Int} (hm : 0 < m) :
      Canonical m e → valueOf m e = x → Holds x (.finite .positive m e hm)

theorem canonical_halfEven {x : Rat} (hx : 0 < x) (hlt : halfEven (x / 2 ^ lastPlace x) < 2 ^ 53) :
    Canonical (halfEven (x / 2 ^ lastPlace x)) (lastPlace x) where
  lt := hlt
  full := by
    rcases (neg_le_lastPlace x).lt_or_eq with habove | hleast
    · exact .inl (le_halfEven_lastPlace hx habove)
    · exact .inr hleast.symm
  least := neg_le_lastPlace x

section Round

variable {m : Nat} {e : Int} {a : Accuracy} {x : Rat}

/-- The first shift leaves the units of the last place. -/
theorem shiftToTargetExponent_rounded (hm : 0 < m)
    (h : Represents (ExtendedMantissa.ofMantissaAndAccuracy m a) (x / 2 ^ e))
    (he : e ≤ lastPlace x) :
    (shiftToTargetExponent Format.binary64 m e a).1.roundedMantissa =
        halfEven (x / 2 ^ lastPlace x) ∧
      (shiftToTargetExponent Format.binary64 m e a).2 = lastPlace x := by
  have hlog := h.log (by rwa [mantissa_ofMantissaAndAccuracy])
  rw [mantissa_ofMantissaAndAccuracy] at hlog
  have htarget : Format.binary64.targetExponent (totalExponent m e) = lastPlace x := by
    rw [targetExponent_binary64, totalExponent, lastPlace, hlog]
    omega
  have hplace : e + (lastPlace x - e).toNat = lastPlace x := by omega
  have hunits := h.shiftRight (lastPlace x - e).toNat
  rw [div_div, Nat.cast_pow, Nat.cast_ofNat, ← zpow_natCast, ← zpow_add₀ two_ne_zero,
    hplace] at hunits
  unfold shiftToTargetExponent shiftToExponent
  dsimp only
  rw [htarget]
  exact ⟨hunits.roundedMantissa, hplace⟩

theorem Represents.holds (hm : 0 < m)
    (h : Represents (ExtendedMantissa.ofMantissaAndAccuracy m a) (x / 2 ^ e))
    (he : e ≤ lastPlace x) :
    Holds (rounded x) (roundWithAccuracy Format.binary64 .positive m e a) := by
  obtain ⟨hround, hexp⟩ := shiftToTargetExponent_rounded hm h he
  have hx : 0 < x := by
    have hle := h.bounds.1
    rw [mantissa_ofMantissaAndAccuracy, le_div_iff₀ (two_zpow_pos e)] at hle
    exact (valueOf_pos hm e).trans_le hle
  have hle := halfEven_lastPlace_le hx
  have hcanonical := canonical_halfEven hx
  have hleast := neg_le_lastPlace x
  unfold roundWithAccuracy rounded
  dsimp only
  rw [hround, hexp]
  generalize halfEven (x / 2 ^ lastPlace x) = r at *
  generalize lastPlace x = t at *
  obtain ⟨hmantissa, hexponent⟩ := shiftToTargetExponent_eq r t .exact
  rw [hmantissa, hexponent]
  rcases hle.lt_or_eq with hlt | rfl
  · have hlog : r.log2 ≤ 52 := log2_le_of_lt hlt
    have hshift : (max (r.log2 + t - 52) (-1074) - t).toNat = 0 := by omega
    have hstay : max t (max (r.log2 + t - 52) (-1074)) = t := by omega
    rw [hshift, hstay, pow_zero, Nat.div_one]
    split
    · rename_i hzero
      exact .zero (by rw [hzero, valueOf, Nat.cast_zero, zero_mul])
    · exact .finite _ (hcanonical hlt) rfl
  · -- rounding has carried into a digit that does not fit
    have hlog : Nat.log2 (2 ^ 53) = 53 := Nat.log2_two_pow
    have hshift : (max ((Nat.log2 (2 ^ 53) : Int) + t - 52) (-1074) - t).toNat = 1 := by omega
    have hstay : max t (max ((Nat.log2 (2 ^ 53) : Int) + t - 52) (-1074)) = t + 1 := by omega
    rw [hshift, hstay, valueOf_carry]
    exact .finite _ ⟨by decide, .inl le_rfl, by omega⟩ rfl

theorem holds_roundWithAccuracy (hm : 0 < m) (he : e ≤ lastPlace (valueOf m e)) :
    Holds (rounded (valueOf m e)) (roundWithAccuracy Format.binary64 .positive m e .exact) :=
  (represents_valueOf m e).holds hm he

end Round

theorem holds_round {m : Nat} (hm : 0 < m) (e : Int) :
    Holds (rounded (valueOf m e)) (UnpackedFloat.round Format.binary64 .positive m e) := by
  have htarget : Format.binary64.targetExponent (totalExponent m e) = lastPlace (valueOf m e) := by
    rw [targetExponent_binary64, totalExponent, lastPlace_valueOf hm]
    omega
  have hvalue := valueOf_shift m (e - lastPlace (valueOf m e)).toNat e
  unfold UnpackedFloat.round decreaseExponent
  dsimp only
  rw [htarget, Nat.shiftLeft_eq]
  have hholds := holds_roundWithAccuracy (e := e - (e - lastPlace (valueOf m e)).toNat)
    (Nat.mul_pos hm (Nat.two_pow_pos (e - lastPlace (valueOf m e)).toNat)) (by rw [hvalue]; omega)
  rwa [hvalue] at hholds

/-! ## Packing -/

@[simp] theorem exponentBias_binary64 : Format.binary64.exponentBias = 1023 := by decide

theorem toNat_append_one (v : BitVec 52) : (1#1 ++ v).toNat = 2 ^ 52 + v.toNat := by
  rw [BitVec.toNat_append, ← Nat.shiftLeft_add_eq_or_of_lt v.isLt]
  rfl

theorem ofBitVec_unpackSign {f : Format} (s : Sign) (x : BitVec f.exponentBits)
    (v : BitVec f.mantissaBitsWithoutImplicit) :
    Sign.ofBitVec (unpackSign (packComponents f s x v)) = s := by
  rw [unpackSign_packComponents, Sign.ofBitVec_toBitVec]

section Packing

variable (s : Sign) {m : Nat} {e : Int} (hm : 0 < m)

theorem unpack_normal {x : BitVec 11} {v : BitVec 52} (hx : x ≠ -1#_) (hzero : x ≠ 0#_)
    (hmantissa : 2 ^ 52 + v.toNat = m) (hexp : (x.toNat : Int) - 1075 = e) :
    UnpackedFloat.unpack Format.binary64 (packComponents Format.binary64 s x v) =
      .finite s m e hm := by
  subst hmantissa hexp
  unfold UnpackedFloat.unpack
  simp only [unpackExponent_packComponents, unpackMantissa_packComponents, ofBitVec_unpackSign,
    exponentBias_binary64, toNat_append_one]
  rw [if_neg hx, if_neg hzero]
  rfl

theorem unpack_subnormal {v : BitVec 52} (hmantissa : v.toNat = m) :
    UnpackedFloat.unpack Format.binary64 (packComponents Format.binary64 s 0#11 v) =
      .finite s m (-1074) hm := by
  subst hmantissa
  have hv : v ≠ 0#_ := fun h => hm.ne' (by simp [h])
  unfold UnpackedFloat.unpack
  simp only [unpackExponent_packComponents, unpackMantissa_packComponents, ofBitVec_unpackSign,
    exponentBias_binary64]
  rw [if_neg (by decide), if_pos trivial, dif_neg hv]
  rfl

@[simp] theorem unpack_packedInfinity :
    UnpackedFloat.unpack Format.binary64 (packedInfinity Format.binary64 s) = .infinity s := by
  cases s <;> rfl

theorem unpack_pack (h : Canonical m e) (hmax : e ≤ 971) :
    UnpackedFloat.unpack Format.binary64 (UnpackedFloat.pack Format.binary64 (.finite s m e hm)) =
      .finite s m e hm := by
  have hleast := h.least
  by_cases hfull : 2 ^ 52 ≤ m
  · have hlt := h.lt
    have hlog : m.log2 = 52 := (Nat.log2_eq_iff hm.ne').mpr ⟨hfull, hlt⟩
    have hexp : (BitVec.ofNat 11 (e + 1075).toNat).toNat = (e + 1075).toNat := by
      rw [BitVec.toNat_ofNat]
      omega
    have hmantissa : (BitVec.ofNat 52 m).toNat = m - 2 ^ 52 := by
      rw [BitVec.toNat_ofNat]
      omega
    have hne (k : Nat) (hk : (e + 1075).toNat ≠ k % 2 ^ 11) :
        BitVec.ofNat 11 (e + 1075).toNat ≠ BitVec.ofNat 11 k := by
      intro heq
      have hnat := congrArg BitVec.toNat heq
      rw [hexp, BitVec.toNat_ofNat] at hnat
      exact hk hnat
    rw [pack_normal s hm hlog hmax]
    apply unpack_normal s hm (hne 2047 (by omega)) (hne 0 (by omega))
    · rw [hmantissa]
      omega
    · rw [hexp]
      omega
  · obtain rfl : e = -1074 := h.full.resolve_left hfull
    have hlog : m.log2 < 52 := (Nat.log2_lt hm.ne').mpr (not_le.mp hfull)
    have hidle : m.log2 + 1 ≠ Format.binary64.mantissaBits := by
      have hdigits : Format.binary64.mantissaBits = 53 := by decide
      omega
    have hpack : UnpackedFloat.pack Format.binary64 (.finite s m (-1074) hm) =
        packComponents Format.binary64 s 0#11 (BitVec.ofNat 52 m) := by
      unfold UnpackedFloat.pack
      dsimp only
      rw [if_neg (by decide), if_neg hidle]
    rw [hpack]
    apply unpack_subnormal s hm
    rw [BitVec.toNat_ofNat]
    omega

theorem unpack_pack_above (hmax : 971 < e) :
    UnpackedFloat.unpack Format.binary64 (UnpackedFloat.pack Format.binary64 (.finite s m e hm)) =
      .infinity s := by
  have hpack : UnpackedFloat.pack Format.binary64 (.finite s m e hm) =
      packedInfinity Format.binary64 s := by
    have hbits : 2 ^ Format.binary64.exponentBits = 2048 := by decide
    unfold UnpackedFloat.pack
    dsimp only
    rw [exponentBias_binary64, hbits, if_pos (by omega)]
  rw [hpack]
  exact unpack_packedInfinity s

theorem canonical_unpack {s : Sign} {hm : 0 < m} {v : BitVec Format.binary64.numBits}
    (h : UnpackedFloat.unpack Format.binary64 v = .finite s m e hm) : Canonical m e := by
  have hmantissa : (@unpackMantissa Format.binary64 v).toNat < 2 ^ 52 := BitVec.isLt _
  unfold UnpackedFloat.unpack at h
  simp only [exponentBias_binary64] at h
  split at h
  · split at h <;> cases h
  · split at h
    · rename_i hzero
      rw [hzero] at h
      split at h
      · cases h
      · cases h
        exact ⟨by omega, .inr (by simp), by simp⟩
    · rename_i hzero
      have hexp : (@unpackExponent Format.binary64 v).toNat ≠ 0 :=
        fun heq => hzero (BitVec.eq_of_toNat_eq heq)
      have himplicit := toNat_append_one (@unpackMantissa Format.binary64 v)
      cases h
      exact ⟨by omega, .inl (by omega), by omega⟩

end Packing

/-! ## Heights -/

/-- How far above zero a value lies. -/
def heightOf : UnpackedFloat → WithTop Rat
  | .finite .positive m e _ => valueOf m e
  | .infinity .positive => ⊤
  | _ => 0

def height (x : Float) : WithTop Rat := heightOf x.toModel.unpack

/-- The rank of zero. -/
def origin : Int ×ₗ Int ×ₗ Int := Comparison.rank (.zero .positive)

open Comparison in
/-- A value lies at zero or below, or has a positive sign. -/
theorem height_cases (u : UnpackedFloat) :
    (rank u ≤ origin ∧ heightOf u = 0) ∨
      (∃ m e hm, u = .finite .positive m e hm ∧ origin < rank u) ∨
      (u = .infinity .positive ∧ origin < rank u) := by
  cases u with
  | notANumber => exact .inl ⟨le_rfl, rfl⟩
  | zero s => exact .inl ⟨le_rfl, rfl⟩
  | infinity s =>
      cases s with
      | negative => exact .inl ⟨by decide, rfl⟩
      | positive => exact .inr (.inr ⟨rfl, by decide⟩)
  | finite s m e hm =>
      cases s with
      | negative => exact .inl ⟨by simp [rank, origin, Prod.Lex.toLex_le_toLex], rfl⟩
      | positive =>
          exact .inr (.inl ⟨m, e, hm, rfl, by simp [rank, origin, Prod.Lex.toLex_lt_toLex]⟩)

theorem heightOf_nonneg (u : UnpackedFloat) : 0 ≤ heightOf u := by
  rcases height_cases u with ⟨-, hzero⟩ | ⟨m, e, hm, rfl, -⟩ | ⟨rfl, -⟩
  · exact hzero.ge
  · exact WithTop.coe_le_coe.mpr (valueOf_nonneg m e)
  · exact le_top

theorem valueOf_le_of_rank_le {m n : Nat} {e f : Int} {hm : 0 < m} {hn : 0 < n}
    (h : Canonical m e) (h' : Canonical n f)
    (hle : Comparison.rank (.finite .positive m e hm) ≤
      Comparison.rank (.finite .positive n f hn)) : valueOf m e ≤ valueOf n f := by
  have hleast := h.least
  simp only [Comparison.rank, Prod.Lex.toLex_le_toLex, lt_self_iff_false, false_or, true_and,
    Nat.cast_le] at hle
  rcases hle with hlt | ⟨rfl, hle⟩
  · exact valueOf_le_of_lt h.lt.le (h'.full.resolve_right (by omega)) hlt
  · exact valueOf_mono hle e

theorem height_mono {x y : Float} (h : x ≤ y) : height x ≤ height y := by
  obtain ⟨hx, hy⟩ := Comparison.isNaN_of_le h
  have hrank := (Comparison.le_iff hx hy).mp h
  unfold height
  rcases height_cases x.toModel.unpack with ⟨-, hzero⟩ | ⟨m, e, hm, hu, hpos⟩ | ⟨hu, hpos⟩
  · rw [hzero]
    exact heightOf_nonneg _
  · rcases height_cases y.toModel.unpack with ⟨hle, -⟩ | ⟨n, f, hn, hv, -⟩ | ⟨hv, -⟩
    · exact absurd (hrank.trans hle) (not_le.mpr hpos)
    · rw [hu, hv] at hrank ⊢
      apply WithTop.coe_le_coe.mpr
      exact valueOf_le_of_rank_le (canonical_unpack hu) (canonical_unpack hv) hrank
    · rw [hv]
      exact le_top
  · rcases height_cases y.toModel.unpack with ⟨hle, -⟩ | ⟨n, f, hn, hv, -⟩ | ⟨hv, -⟩
    · exact absurd (hrank.trans hle) (not_le.mpr hpos)
    · rw [hu, hv] at hrank
      simp [Comparison.rank, Prod.Lex.toLex_le_toLex] at hrank
    · rw [hv]
      exact le_top

theorem height_eq_zero {x : Float} (h : ¬0.0 ≤ x) : height x = 0 := by
  have hle (hnumber : x.toModel.unpack.isNaN = false) :
      ¬origin ≤ Comparison.rank x.toModel.unpack :=
    fun hrank => h ((Comparison.le_iff rfl hnumber).mpr hrank)
  rcases height_cases x.toModel.unpack with ⟨-, hzero⟩ | ⟨m, e, hm, hu, hpos⟩ | ⟨hu, hpos⟩
  · exact hzero
  · exact absurd hpos.le (hle (by rw [hu]; rfl))
  · exact absurd hpos.le (hle (by rw [hu]; rfl))

theorem height_eq_top {x : Float} (h : 0.0 ≤ x) (hinfinite : x.isFinite = false) :
    height x = ⊤ := by
  have hnumber : x.toModel.unpack.isNaN = false := (Comparison.isNaN_of_le h).2
  have hunpack : x.toModel.unpack.isFinite = false := hinfinite
  have hrank : origin ≤ Comparison.rank x.toModel.unpack := (Comparison.le_iff rfl hnumber).mp h
  rw [height]
  cases hu : x.toModel.unpack with
  | notANumber =>
      rw [hu] at hnumber
      cases hnumber
  | zero s | finite s m e hm =>
      rw [hu] at hunpack
      cases hunpack
  | infinity s =>
      cases s with
      | positive => rfl
      | negative =>
          rw [hu] at hrank
          exact absurd hrank (by decide)

/-! ## Counts -/

/-- The count of what lies at a height. -/
def countAt : WithTop Rat → Nat
  | ⊤ => maxCount
  | (x : Rat) => min ⌊x⌋₊ maxCount

theorem countAt_mono : Monotone countAt := by
  intro a b h
  cases b with
  | top =>
      cases a with
      | top => exact le_rfl
      | coe x => exact min_le_right _ _
  | coe y =>
      cases a with
      | top => exact absurd h (WithTop.not_top_le_coe y)
      | coe x => exact min_le_min_right _ (Nat.floor_mono (WithTop.coe_le_coe.mp h))

@[simp] theorem toNat_ofNatClamp (n : Nat) : (UInt64.ofNatClamp n).toNat = min n maxCount := by
  unfold UInt64.ofNatClamp
  split
  · rename_i hfits
    exact (min_eq_left (Nat.le_of_lt_succ hfits)).symm
  · rename_i hlarge
    exact (min_eq_right (Nat.le_of_succ_le (not_lt.mp hlarge))).symm

theorem toCount_eq_countAt (x : Float) : Scalar.toCount x = countAt (height x) := by
  have hclamp : Scalar.toCount x =
      min (x.toModel.unpack.toInt 0 (UInt64.size - 1)).toNat maxCount := toNat_ofNatClamp _
  rw [hclamp, height]
  cases x.toModel.unpack with
  | notANumber => rfl
  | zero s => rfl
  | infinity s => cases s <;> rfl
  | finite s m e hm =>
      cases s with
      | negative =>
          have hbelow : (roundToInt .negative m e).toNat = 0 := by
            unfold roundToInt Sign.apply
            exact Int.toNat_neg_natCast _
          rw [UnpackedFloat.toInt, hbelow]
          rfl
      | positive =>
          have hfloor : (roundToInt .positive m e).toNat = ⌊valueOf m e⌋₊ := by
            have hshift : (0 - (e - ((e - 0).toNat : Int))).toNat = (-e).toNat := by omega
            unfold roundToInt decreaseExponent shiftToExponent Sign.apply
            dsimp only
            rw [mantissa_shiftRight, mantissa_ofMantissaAndAccuracy, floor_valueOf,
              Nat.shiftLeft_eq, Int.toNat_natCast, hshift, Int.sub_zero]
          rw [UnpackedFloat.toInt, hfloor]
          rfl

/-! ## Products -/

/-- What is too large for a double has no end. -/
def capped (x : Rat) : WithTop Rat := if x < valueOf (2 ^ 53) 971 then x else ⊤

theorem capped_mono : Monotone capped := by
  intro x y h
  unfold capped
  split
  · split
    · exact WithTop.coe_le_coe.mpr h
    · exact le_top
  · rename_i hx
    rw [if_neg fun hy => hx (h.trans_lt hy)]

theorem capped_of_le_pow {x : Rat} (h : x ≤ (2 ^ 53 : Nat)) : capped x = x := by
  have hmax : valueOf (2 ^ 53) 0 < valueOf (2 ^ 53) 971 :=
    mul_lt_mul_of_pos_left (zpow_lt_zpow_right₀ one_lt_two (by decide)) (by norm_num)
  rw [valueOf_zero] at hmax
  exact if_pos (h.trans_lt hmax)

theorem capped_of_le {x : Rat} (h : x ≤ 1) : capped x = x :=
  capped_of_le_pow (h.trans (by norm_num))

theorem heightOf_unpack_pack {x : Rat} {u : UnpackedFloat} (h : Holds x u) :
    heightOf (UnpackedFloat.unpack Format.binary64 (UnpackedFloat.pack Format.binary64 u)) =
      capped x := by
  cases h with
  | zero hx =>
      rw [hx, capped_of_le zero_le_one]
      rfl
  | finite hm hcanonical hx =>
      rename_i m e
      subst hx
      by_cases hmax : e ≤ 971
      · rw [unpack_pack _ hm hcanonical hmax, capped, if_pos (hcanonical.valueOf_lt hmax)]
        rfl
      · have hlarge : valueOf (2 ^ 53) 971 ≤ valueOf m e :=
          valueOf_le_of_lt le_rfl (hcanonical.full.resolve_right (by omega)) (not_le.mp hmax)
        rw [unpack_pack_above _ hm (not_le.mp hmax), capped, if_neg (not_lt.mpr hlarge)]
        rfl

def scaled (c : Rat) : WithTop Rat → WithTop Rat
  | ⊤ => ⊤
  | (x : Rat) => capped (rounded (x * c))

theorem scaled_mono {c : Rat} (hc : 0 ≤ c) : Monotone (scaled c) := by
  intro a b h
  cases b with
  | top => exact le_top
  | coe y =>
      cases a with
      | top => exact absurd h (WithTop.not_top_le_coe y)
      | coe x =>
          apply capped_mono
          apply rounded_mono
          exact mul_le_mul_of_nonneg_right (WithTop.coe_le_coe.mp h) hc

@[simp] theorem scaled_zero (c : Rat) : scaled c 0 = 0 := by
  change capped (rounded (0 * c)) = 0
  rw [zero_mul, rounded_of_nonpos le_rfl, capped_of_le zero_le_one]
  rfl

/-- A positive double with all of its digits, by its value. -/
def IsNormal (x : Float) (c : Rat) : Prop :=
  ∃ m e hm, x.toModel.unpack = .finite .positive m e hm ∧ 2 ^ 52 ≤ m ∧ valueOf m e = c

theorem height_mul {x y : Float} {c : Rat} (hy : IsNormal y c)
    (hx : x.toModel.unpack = .zero .positive ∨ origin < Comparison.rank x.toModel.unpack) :
    height (x * y) = scaled c (height x) := by
  obtain ⟨n, f, hn, hv, hfull, rfl⟩ := hy
  have hproduct : height (x * y) = heightOf (UnpackedFloat.unpack Format.binary64
      (UnpackedFloat.pack Format.binary64
        (UnpackedFloat.mul Format.binary64 x.toModel.unpack (.finite .positive n f hn)))) := by
    rw [← hv]
    rfl
  rw [hproduct, height]
  rcases hx with hzero | hpos
  · have hmul : UnpackedFloat.mul Format.binary64 (.zero .positive) (.finite .positive n f hn) =
        .zero .positive := rfl
    rw [hzero, hmul, heightOf_unpack_pack (.zero rfl), capped_of_le zero_le_one]
    exact (scaled_zero _).symm
  · rcases height_cases x.toModel.unpack with ⟨hle, -⟩ | ⟨m, e, hm, hu, -⟩ | ⟨hu, -⟩
    · exact absurd hpos (not_lt.mpr hle)
    · have hplace : e + f ≤ lastPlace (valueOf (m * n) (e + f)) := by
        have hlog : 52 ≤ (m * n).log2 :=
          (Nat.le_log2 (Nat.mul_pos hm hn).ne').mpr (hfull.trans (Nat.le_mul_of_pos_left n hm))
        rw [lastPlace_valueOf (Nat.mul_pos hm hn)]
        omega
      have hround := holds_roundWithAccuracy (Nat.mul_pos hm hn) hplace
      rw [← valueOf_mul] at hround
      rw [hu]
      exact heightOf_unpack_pack hround
    · rw [hu]
      change heightOf (UnpackedFloat.unpack Format.binary64
        (packedInfinity Format.binary64 .positive)) = ⊤
      rw [unpack_packedInfinity]
      rfl

/-! ## Counts as doubles -/

theorem holds_ofNat {n : Nat} (hn : 0 < n) :
    Holds (rounded n) (UnpackedFloat.ofNat Format.binary64 n) := by
  have hround := holds_round hn 0
  rw [valueOf_zero] at hround
  unfold UnpackedFloat.ofNat UnpackedFloat.ofInt UnpackedFloat.normalize
  split
  · rename_i hneg
    exact absurd (Int.compare_eq_lt.mp hneg) (by omega)
  · rename_i hzero
    exact absurd (Int.compare_eq_eq.mp hzero) (by omega)
  · exact hround

/-- A count that is too long for the digits of a double is moved up by as many digits first. -/
theorem holds_shifted {n : Nat} (hfull : 2 ^ 53 ≤ n) :
    Holds (rounded n) (roundWithAccuracy Format.binary64 .positive ((n <<< 53) * 10 ^ 0) (-53)
      .exact) := by
  have hn : 0 < n := (Nat.two_pow_pos 53).trans_le hfull
  have hpos : 0 < (n <<< 53) * 10 ^ 0 := by
    rw [Nat.shiftLeft_eq]
    positivity
  have hvalue : valueOf ((n <<< 53) * 10 ^ 0) (-53) = n := by
    rw [Nat.shiftLeft_eq, pow_zero, mul_one, ← valueOf_zero n, ← valueOf_shift n 53 0]
    rfl
  generalize (n <<< 53) * 10 ^ 0 = m at hpos hvalue ⊢
  have hplace : -53 ≤ lastPlace (valueOf m (-53)) := by
    have hlog : 53 ≤ n.log2 := (Nat.le_log2 hn.ne').mpr hfull
    rw [hvalue, ← valueOf_zero n, lastPlace_valueOf hn]
    omega
  have hholds := holds_roundWithAccuracy hpos hplace
  rwa [hvalue] at hholds

theorem one_le_capped_rounded {x : Rat} (h : 1 ≤ x) : 1 ≤ capped (rounded x) := by
  have hle := capped_mono (rounded_mono h)
  rwa [rounded_one, capped_of_le le_rfl] at hle

theorem isNormal_one : IsNormal Float.exactlyRepresentablePowersOfTen[0] 1 :=
  ⟨2 ^ 52, -52, by decide, rfl, le_rfl, by norm_num [valueOf]⟩

theorem height_ofNat {n : Nat} (hn : 0 < n) : height (Float.ofNat n) = capped (rounded n) := by
  by_cases hfast : n < 2 ^ 53
  · have hcount : height (.ofModel (.pack (UnpackedFloat.ofNat Format.binary64 n))) =
        capped (rounded n) := heightOf_unpack_pack (holds_ofNat hn)
    have hexact : capped (rounded n) = (n : Rat) := by
      rw [rounded_natCast hfast.le, capped_of_le_pow (by exact_mod_cast hfast.le)]
    rw [hexact] at hcount ⊢
    rw [ofNat_of_lt hfast]
    generalize Float.ofModel (.pack (UnpackedFloat.ofNat Format.binary64 n)) = x at hcount ⊢
    have hpos : origin < Comparison.rank x.toModel.unpack := by
      rcases height_cases x.toModel.unpack with ⟨-, hzero⟩ | ⟨-, -, -, -, hpos⟩ | ⟨-, hpos⟩
      · rw [height, hzero] at hcount
        exact absurd (WithTop.coe_eq_coe.mp hcount) (by exact_mod_cast hn.ne)
      · exact hpos
      · exact hpos
    rw [height_mul isNormal_one (.inr hpos), hcount]
    exact (congrArg (fun y => capped (rounded y)) (mul_one (n : Rat))).trans hexact
  · have hholds := holds_shifted (not_lt.mp hfast)
    rw [ofNat_of_not_lt hfast]
    generalize roundWithAccuracy Format.binary64 .positive ((n <<< 53) * 10 ^ 0) (-53) .exact = u
      at hholds ⊢
    exact heightOf_unpack_pack hholds

theorem one_le_height_ofNat {n : Nat} (hn : 0 < n) : 1 ≤ height (Float.ofNat n) := by
  rw [height_ofNat hn]
  exact one_le_capped_rounded (by exact_mod_cast hn)

theorem exists_isNormal {b : Int} {x : Float} (hmoderate : IsModerate b x) (hone : 1 ≤ height x) :
    ∃ c, 0 ≤ c ∧ IsNormal x c := by
  rcases height_cases x.toModel.unpack with ⟨-, hzero⟩ | ⟨m, e, hm, hu, -⟩ | ⟨hu, -⟩
  · rw [height, hzero] at hone
    exact absurd hone (by decide)
  · have hcanonical := canonical_unpack hu
    have hfull : 2 ^ 52 ≤ m := by
      rw [height, hu] at hone
      apply hcanonical.full.resolve_right
      rintro rfl
      have hsmall : valueOf m (-1074) < valueOf (2 ^ 53) (-53) :=
        hcanonical.valueOf_lt (by decide)
      have hunit : valueOf (2 ^ 53) (-53) = 1 := by norm_num [valueOf]
      exact absurd (WithTop.coe_le_coe.mp hone) (not_le.mpr (hsmall.trans_eq hunit))
    exact ⟨valueOf m e, valueOf_nonneg m e, m, e, hm, hu, hfull, rfl⟩
  · rw [IsModerate, hu] at hmoderate
    cases hmoderate

theorem exists_isNormal_ofNat {n : Nat} (hn : 0 < n) (hmax : n ≤ maxCount) :
    ∃ c, 0 ≤ c ∧ IsNormal (Float.ofNat n) c :=
  exists_isNormal (isModerate_ofNat hmax) (one_le_height_ofNat hn)

/-- What is below zero, or no number, is taken for zero. -/
theorem greatest_zero_cases (x : Float) :
    origin < Comparison.rank x.toModel.unpack ∧ Scalar.greatest x 0.0 = x ∨
      height x = 0 ∧ Scalar.greatest x 0.0 = 0.0 := by
  have hzero : Scalar.isNaN (0.0 : Float) = false := rfl
  by_cases hnan : Scalar.isNaN x = true
  · refine .inr ⟨height_eq_zero fun hle => ?_, if_pos hnan⟩
    exact absurd hnan (Bool.eq_false_iff.mp (Comparison.isNaN_of_le hle).2)
  · have hpos : 0.0 < x ↔ origin < Comparison.rank x.toModel.unpack :=
      Comparison.lt_iff hzero (Bool.eq_false_of_not_eq_true hnan)
    rw [Scalar.greatest, if_neg hnan, hzero, if_neg Bool.false_ne_true]
    by_cases hx : 0.0 < x
    · exact .inl ⟨hpos.mp hx, if_pos hx⟩
    · refine .inr ⟨?_, if_neg hx⟩
      rcases height_cases x.toModel.unpack with ⟨-, hu⟩ | ⟨-, -, -, -, hu⟩ | ⟨-, hu⟩
      · exact hu
      · exact absurd (hpos.mpr hu) hx
      · exact absurd (hpos.mpr hu) hx

theorem toCount_mul (x : Float) {y : Float} {c : Rat} (hy : IsNormal y c) :
    Scalar.toCount (Scalar.greatest x 0.0 * y) = countAt (scaled c (height x)) := by
  rw [toCount_eq_countAt]
  rcases greatest_zero_cases x with ⟨hpos, hpart⟩ | ⟨hzero, hpart⟩
  · rw [hpart, height_mul hy (.inr hpos)]
  · rw [hpart, height_mul hy (.inl rfl), hzero]
    rfl

end Segue.Decimal
