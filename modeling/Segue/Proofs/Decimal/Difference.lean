import Segue.Proofs.Decimal.Rounding

/-!
# Differences of doubles

A difference of doubles is the exact difference, rounded with its sign apart. Rounding keeps order
and leaves doubles alone, so a double does not grow when something that is not negative is taken
from it, and what is taken from a finite double leaves a number.
-/

namespace Segue.Decimal

open Float.Model Float.Model.UnpackedFloat

/-! ## Signs -/

@[simp] theorem neg_neg_unpacked (u : UnpackedFloat) : u.neg.neg = u := by
  cases u with
  | notANumber => rfl
  | infinity s | zero s | finite s m e hm => cases s <;> rfl

@[simp] theorem rank_neg (u : UnpackedFloat) : Comparison.rank u.neg = -Comparison.rank u := by
  cases u with
  | notANumber => rfl
  | infinity s | zero s => cases s <;> rfl
  | finite s m e hm =>
      cases s with
      | positive => rfl
      | negative =>
          change toLex ((1 : Int), toLex (e, (m : Int))) =
            -toLex ((-1 : Int), toLex (-e, -(m : Int)))
          simp [← toLex_neg]

theorem round_negative (f : Format) (m : Nat) (e : Int) :
    (UnpackedFloat.round f .negative m e).neg = UnpackedFloat.round f .positive m e := by
  unfold UnpackedFloat.round roundWithAccuracy
  dsimp only
  split <;> rfl

/-! ## Doubles are left alone -/

/-- What is left of a value when it is packed. -/
def repacked (u : UnpackedFloat) : UnpackedFloat :=
  UnpackedFloat.unpack Format.binary64 (UnpackedFloat.pack Format.binary64 u)

/-- The finite values that doubles have. -/
inductive IsDouble : UnpackedFloat → Prop where
  | zero (s : Sign) : IsDouble (.zero s)
  | finite (s : Sign) {m : Nat} {e : Int} (hm : 0 < m) :
      Canonical m e → e ≤ 971 → IsDouble (.finite s m e hm)

theorem exponent_le_unpack {s : Sign} {m : Nat} {e : Int} {hm : 0 < m}
    {v : BitVec Format.binary64.numBits}
    (h : UnpackedFloat.unpack Format.binary64 v = .finite s m e hm) : e ≤ 971 := by
  have hbits : (@unpackExponent Format.binary64 v).toNat < 2048 := BitVec.isLt _
  unfold UnpackedFloat.unpack at h
  simp only [exponentBias_binary64] at h
  split at h
  · split at h <;> cases h
  · rename_i hspecial
    have hne : (@unpackExponent Format.binary64 v).toNat ≠ 2047 :=
      fun heq => hspecial (BitVec.eq_of_toNat_eq heq)
    have hmantissa : (Format.binary64.mantissaBitsWithoutImplicit : Int) = 52 := rfl
    split at h
    · rename_i hzero
      split at h
      · cases h
      · cases h
        rw [hzero]
        decide
    · cases h
      omega

theorem isDouble_unpack {x : Float} (h : x.isFinite = true) : IsDouble x.toModel.unpack := by
  have hfinite : x.toModel.unpack.isFinite = true := h
  cases hu : x.toModel.unpack with
  | notANumber | infinity s =>
      rw [hu] at hfinite
      cases hfinite
  | zero s => exact .zero s
  | finite s m e hm => exact .finite s hm (canonical_unpack hu) (exponent_le_unpack hu)

def worth : UnpackedFloat → Rat
  | .finite .positive m e _ => valueOf m e
  | .finite .negative m e _ => -valueOf m e
  | _ => 0

theorem rounded_canonical {m : Nat} {e : Int} (h : Canonical m e) :
    rounded (valueOf m e) = valueOf m e := rounded_valueOf h.lt.le h.least

/-! ## Rounding with a sign -/

/-- The nearest double to a number, which may still be too large to be packed. -/
inductive Near (x : Rat) (u : UnpackedFloat) : Prop where
  | above : 0 ≤ x → Holds (rounded x) u → Near x u
  | below : x ≤ 0 → Holds (rounded (-x)) u.neg → Near x u

theorem holds_zero {x : Rat} (hx : x = 0) : Holds (rounded x) (.zero .positive) :=
  .zero (rounded_of_nonpos hx.le)

theorem near_zero (s : Sign) : Near 0 (.zero s) := by
  cases s with
  | positive => exact .above le_rfl (holds_zero rfl)
  | negative => exact .below le_rfl (holds_zero neg_zero)

theorem near_worth {u : UnpackedFloat} (h : IsDouble u) : Near (worth u) u := by
  cases h with
  | zero s => exact near_zero s
  | @finite s m e hm hcanonical _ =>
      have hholds : Holds (rounded (valueOf m e)) (.finite .positive m e hm) :=
        .finite hm hcanonical (rounded_canonical hcanonical).symm
      cases s with
      | positive => exact .above (valueOf_nonneg m e) hholds
      | negative =>
          refine .below (neg_nonpos.mpr (valueOf_nonneg m e)) ?_
          rw [worth, neg_neg]
          exact hholds

theorem near_normalize (d e : Int) :
    Near (d * 2 ^ e) (UnpackedFloat.normalize Format.binary64 d e .positive) := by
  unfold UnpackedFloat.normalize
  split
  · rename_i hneg
    have hd : d < 0 := Int.compare_eq_lt.mp hneg
    have hcast : (((-d).toNat : Nat) : Rat) = -d := by
      exact_mod_cast congrArg (Int.cast : Int → Rat) (Int.toNat_of_nonneg (by omega : 0 ≤ -d))
    refine .below (mul_nonpos_of_nonpos_of_nonneg (by exact_mod_cast hd.le) (two_zpow_pos e).le) ?_
    rw [round_negative, ← neg_mul, ← hcast]
    exact holds_round (by omega) e
  · rename_i hzero
    obtain rfl : d = 0 := Int.compare_eq_eq.mp hzero
    rw [Int.cast_zero, zero_mul]
    exact near_zero .positive
  · rename_i hpos
    have hd : 0 < d := Int.compare_eq_gt.mp hpos
    have hcast : ((d.toNat : Nat) : Rat) = d := by
      exact_mod_cast congrArg (Int.cast : Int → Rat) (Int.toNat_of_nonneg hd.le)
    refine .above (mul_nonneg (by exact_mod_cast hd.le) (two_zpow_pos e).le) ?_
    rw [← hcast]
    exact holds_round (by omega) e

/-! ## Differences -/

@[simp] theorem worth_zero (s : Sign) : worth (.zero s) = 0 := rfl

@[simp] theorem worth_neg (u : UnpackedFloat) : worth u.neg = -worth u := by
  cases u with
  | notANumber | infinity s => exact neg_zero.symm
  | zero s => exact neg_zero.symm
  | finite s m e hm =>
      cases s with
      | positive => rfl
      | negative => exact (neg_neg _).symm

theorem worth_finite (s : Sign) {m : Nat} (e : Int) (hm : 0 < m) :
    worth (.finite s m e hm) = (s.apply m : Int) * 2 ^ e := by
  cases s with
  | positive => rfl
  | negative =>
      rw [worth, valueOf, Sign.apply, Int.cast_neg, Int.cast_natCast, neg_mul]

theorem worth_decreaseExponent (s : Sign) {m : Nat} {e f : Int} (hm : 0 < m) (hle : f ≤ e) :
    worth (.finite s m e hm) = (s.apply (decreaseExponent m e f).1 : Int) * 2 ^ f := by
  have hvalue := valueOf_shift m (e - f).toNat e
  have hplace : e - (e - f).toNat = f := by omega
  have hshift : (decreaseExponent m e f).1 = m * 2 ^ (e - f).toNat := Nat.shiftLeft_eq _ _
  have hpos : 0 < m * 2 ^ (e - f).toNat := Nat.mul_pos hm (Nat.two_pow_pos _)
  rw [hplace] at hvalue
  rw [hshift, ← worth_finite s f hpos]
  cases s with
  | positive => exact hvalue.symm
  | negative => exact congrArg Neg.neg hvalue.symm

theorem IsDouble.neg {u : UnpackedFloat} (h : IsDouble u) : IsDouble u.neg := by
  cases h with
  | zero s => exact .zero _
  | finite s hm hcanonical hmax => exact .finite _ hm hcanonical hmax

theorem near_sub {u v : UnpackedFloat} (hu : IsDouble u) (hv : IsDouble v) :
    Near (worth u - worth v) (UnpackedFloat.sub Format.binary64 u v) := by
  cases hu with
  | zero s =>
      have hneg : worth (.zero s) - worth v = worth v.neg := by
        rw [worth_neg, worth_zero, zero_sub]
      rw [hneg]
      cases hv with
      | zero t => cases s <;> cases t <;> exact near_zero _
      | finite t hm hcanonical hmax => exact near_worth (.finite _ hm hcanonical hmax)
  | @finite s m e hm hcanonical hmax =>
      cases hv with
      | zero t =>
          rw [worth_zero, sub_zero]
          exact near_worth (.finite s hm hcanonical hmax)
      | @finite t n f hn _ _ =>
          rw [worth_decreaseExponent s hm (min_le_left e f),
            worth_decreaseExponent t hn (min_le_right e f), ← sub_mul, ← Int.cast_sub]
          exact near_normalize _ _

/-! ## Heights of both signs -/

/-- Packing keeps a value, or takes it for infinite. -/
theorem repacked_cases {x : Rat} {u : UnpackedFloat} (h : Holds x u) :
    repacked u = u ∧ repacked u.neg = u.neg ∨
      repacked u = .infinity .positive ∧ repacked u.neg = .infinity .negative := by
  cases h with
  | zero => exact .inl ⟨rfl, rfl⟩
  | @finite m e hm hcanonical _ =>
      by_cases hmax : e ≤ 971
      · exact .inl ⟨unpack_pack _ hm hcanonical hmax, unpack_pack _ hm hcanonical hmax⟩
      · exact .inr ⟨unpack_pack_above _ hm (not_le.mp hmax),
          unpack_pack_above _ hm (not_le.mp hmax)⟩

theorem repacked_neg {x : Rat} {u : UnpackedFloat} (h : Holds x u) :
    repacked u.neg = (repacked u).neg := by
  rcases repacked_cases h with ⟨hu, hneg⟩ | ⟨hu, hneg⟩ <;> rw [hu, hneg]
  rfl

theorem heightOf_repacked_neg {x : Rat} {u : UnpackedFloat} (h : Holds x u) :
    heightOf (repacked u).neg = 0 := by
  rcases repacked_cases h with ⟨hu, -⟩ | ⟨hu, -⟩ <;> rw [hu]
  · cases h <;> rfl
  · rfl

theorem isNaN_repacked_of_holds {x : Rat} {u : UnpackedFloat} (h : Holds x u) :
    (repacked u).isNaN = false := by
  rcases repacked_cases h with ⟨hu, -⟩ | ⟨hu, -⟩ <;> rw [hu]
  · cases h <;> rfl
  · rfl

theorem capped_rounded_of_nonpos {x : Rat} (h : x ≤ 0) : capped (rounded x) = 0 := by
  rw [rounded_of_nonpos h, capped_of_le zero_le_one]
  rfl

/-- What is packed lies as high as the number does that it is near to, on both sides of zero. -/
theorem heights_repacked {x : Rat} {u : UnpackedFloat} (h : Near x u) :
    heightOf (repacked u) = capped (rounded x) ∧
      heightOf (repacked u).neg = capped (rounded (-x)) := by
  cases h with
  | above hx hholds =>
      rw [heightOf_repacked_neg hholds, capped_rounded_of_nonpos (neg_nonpos.mpr hx)]
      exact ⟨heightOf_unpack_pack hholds, rfl⟩
  | below hx hholds =>
      have hneg := repacked_neg hholds
      rw [neg_neg_unpacked] at hneg
      rw [hneg, neg_neg_unpacked, heightOf_repacked_neg hholds, capped_rounded_of_nonpos hx]
      exact ⟨rfl, heightOf_unpack_pack hholds⟩

@[simp] theorem isNaN_neg (u : UnpackedFloat) : u.neg.isNaN = u.isNaN := by cases u <;> rfl

theorem isNaN_repacked {x : Rat} {u : UnpackedFloat} (h : Near x u) :
    (repacked u).isNaN = false := by
  cases h with
  | above _ hholds => exact isNaN_repacked_of_holds hholds
  | below _ hholds =>
      have hneg := repacked_neg hholds
      rw [neg_neg_unpacked] at hneg
      rw [hneg, isNaN_neg]
      exact isNaN_repacked_of_holds hholds

theorem IsDouble.repacked {u : UnpackedFloat} (h : IsDouble u) : repacked u = u := by
  cases h with
  | zero s => cases s <;> rfl
  | finite s hm hcanonical hmax => exact unpack_pack s hm hcanonical hmax

theorem IsDouble.heights {u : UnpackedFloat} (h : IsDouble u) :
    heightOf u = capped (rounded (worth u)) ∧ heightOf u.neg = capped (rounded (-worth u)) := by
  have hheights := heights_repacked (near_worth h)
  rwa [h.repacked] at hheights

/-! ## Greater ranks are higher -/

def IsCanonical (u : UnpackedFloat) : Prop :=
  ∀ s m e hm, u = .finite s m e hm → Canonical m e

theorem isCanonical_unpack (x : Float) : IsCanonical x.toModel.unpack :=
  fun _ _ _ _ h => canonical_unpack h

theorem IsCanonical.neg {u : UnpackedFloat} (h : IsCanonical u) : IsCanonical u.neg := by
  intro s m e hm hu
  apply h (-s) m e hm
  rw [← neg_neg_unpacked u, hu]
  rfl

theorem valueOf_lt_of_rank_lt {m n : Nat} {e f : Int} {hm : 0 < m} {hn : 0 < n}
    (h : Canonical m e) (h' : Canonical n f)
    (hlt : Comparison.rank (.finite .positive m e hm) <
      Comparison.rank (.finite .positive n f hn)) : valueOf m e < valueOf n f := by
  have hleast := h.least
  simp only [Comparison.rank, Prod.Lex.toLex_lt_toLex, lt_self_iff_false, false_or, true_and,
    Nat.cast_lt] at hlt
  rcases hlt with hlt | ⟨rfl, hlt⟩
  · exact (h.valueOf_lt le_rfl).trans_le
      (valueOf_le_of_lt le_rfl (h'.full.resolve_right (by omega)) hlt)
  · exact mul_lt_mul_of_pos_right (by exact_mod_cast hlt) (two_zpow_pos e)

theorem heightOf_lt {u v : UnpackedFloat} (hu : IsCanonical u) (hv : IsCanonical v)
    (hpos : origin < Comparison.rank v) (hlt : Comparison.rank u < Comparison.rank v) :
    heightOf u < heightOf v := by
  rcases height_cases v with ⟨hle, -⟩ | ⟨n, f, hn, rfl, -⟩ | ⟨rfl, -⟩
  · exact absurd hpos (not_lt.mpr hle)
  · rcases height_cases u with ⟨-, hzero⟩ | ⟨m, e, hm, rfl, -⟩ | ⟨rfl, -⟩
    · rw [hzero]
      exact WithTop.coe_lt_coe.mpr (valueOf_pos hn f)
    · exact WithTop.coe_lt_coe.mpr
        (valueOf_lt_of_rank_lt (hu _ _ _ _ rfl) (hv _ _ _ _ rfl) hlt)
    · simp [Comparison.rank, Prod.Lex.toLex_lt_toLex] at hlt
  · rcases height_cases u with ⟨-, hzero⟩ | ⟨m, e, hm, rfl, -⟩ | ⟨rfl, -⟩
    · rw [hzero]
      exact WithTop.coe_lt_top _
    · exact WithTop.coe_lt_top _
    · exact absurd hlt (lt_irrefl _)

/-- A value is not above another one that is as high, and as deep. -/
theorem rank_le_of_heights {u v : UnpackedFloat} (hu : IsCanonical u) (hv : IsCanonical v)
    (hheight : heightOf v ≤ heightOf u) (hdepth : heightOf u.neg ≤ heightOf v.neg) :
    Comparison.rank v ≤ Comparison.rank u := by
  by_contra hlt
  rw [not_le] at hlt
  by_cases hpos : origin < Comparison.rank v
  · exact absurd (heightOf_lt hu hv hpos hlt) (not_lt.mpr hheight)
  · have hbelow : origin < Comparison.rank u.neg := by
      rw [rank_neg, ← neg_neg origin, neg_lt_neg_iff]
      exact hlt.trans_le (not_lt.mp hpos)
    have hneg : Comparison.rank v.neg < Comparison.rank u.neg := by
      rw [rank_neg, rank_neg]
      exact neg_lt_neg hlt
    exact absurd (heightOf_lt hv.neg hu.neg hbelow hneg) (not_lt.mpr hdepth)

/-! ## Laws that survive rounding -/

variable {x m : Float}

theorem unpack_sub (x m : Float) : (x - m).toModel.unpack =
    repacked (UnpackedFloat.sub Format.binary64 x.toModel.unpack m.toModel.unpack) := rfl

@[simp] theorem sub_zero_eq (x : Float) : x - 0.0 = x := by
  have hsame : UnpackedFloat.sub Format.binary64 x.toModel.unpack (.zero .positive) =
      x.toModel.unpack := by
    cases x.toModel.unpack with
    | notANumber | infinity s | finite s m e hm => rfl
    | zero s => cases s <;> rfl
  have hbits : UnpackedFloat.pack Format.binary64 x.toModel.unpack = x.toModel.toBits.toBitVec :=
    pack_unpack_of_valid x.toModel.valid
  have hmodel : Float.Model.pack x.toModel.unpack = x.toModel := by
    rw [Float.Model.pack, Float.Model.mk.injEq, hbits]
  change Float.ofModel (.pack (UnpackedFloat.sub Format.binary64 x.toModel.unpack
    (.zero .positive))) = x
  rw [hsame, hmodel]

/-- A number is a finite double or infinite. -/
theorem isDouble_or_infinity (h : m.isNaN = false) :
    IsDouble m.toModel.unpack ∨ ∃ s, m.toModel.unpack = .infinity s := by
  have hnumber : m.toModel.unpack.isNaN = false := h
  by_cases hfinite : m.isFinite = true
  · exact .inl (isDouble_unpack hfinite)
  · have hunpack : ¬m.toModel.unpack.isFinite = true := hfinite
    cases hm : m.toModel.unpack with
    | notANumber =>
        rw [hm] at hnumber
        cases hnumber
    | infinity s => exact .inr ⟨s, rfl⟩
    | zero s | finite s n e hn =>
        rw [hm] at hunpack
        exact absurd rfl hunpack

theorem IsDouble.sub_infinity {u : UnpackedFloat} (h : IsDouble u) (s : Sign) :
    UnpackedFloat.sub Format.binary64 u (.infinity s) = .infinity (-s) := by
  cases h <;> rfl

theorem unpack_sub_infinity {s : Sign} (hx : x.isFinite = true)
    (hm : m.toModel.unpack = .infinity s) : (x - m).toModel.unpack = .infinity (-s) := by
  rw [unpack_sub, hm, (isDouble_unpack hx).sub_infinity]
  exact unpack_packedInfinity (-s)

theorem isNaN_sub (hx : x.isFinite = true) (hm : m.isNaN = false) : (x - m).isNaN = false := by
  change (x - m).toModel.unpack.isNaN = false
  rcases isDouble_or_infinity hm with hdouble | ⟨s, hinfinity⟩
  · exact isNaN_repacked (near_sub (isDouble_unpack hx) hdouble)
  · rw [unpack_sub_infinity hx hinfinity]
    rfl

theorem worth_nonneg {u : UnpackedFloat} (h : origin ≤ Comparison.rank u) : 0 ≤ worth u := by
  cases u with
  | notANumber | infinity s | zero s => exact le_rfl
  | finite s m e hm =>
      cases s with
      | positive => exact valueOf_nonneg m e
      | negative => simp [Comparison.rank, origin, Prod.Lex.toLex_le_toLex] at h

theorem IsDouble.rank_infinity_le {u : UnpackedFloat} (h : IsDouble u) :
    Comparison.rank (.infinity .negative) ≤ Comparison.rank u := by
  cases h with
  | zero s => exact (by decide : Comparison.rank (.infinity .negative) ≤ origin)
  | finite s hm _ _ =>
      cases s <;> simp [Comparison.rank, Prod.Lex.toLex_le_toLex]

/-- A finite double does not grow when something that is not negative is taken from it. -/
theorem not_lt_sub (hx : x.isFinite = true) (hm : m.isNaN = false) (hnonneg : ¬m < 0.0) :
    ¬x < x - m := by
  have hdouble := isDouble_unpack hx
  have hrank : origin ≤ Comparison.rank m.toModel.unpack :=
    not_lt.mp fun hlt => hnonneg ((Comparison.lt_iff hm rfl).mpr hlt)
  have hnumber : x.isNaN = false := Comparison.isNaN_of_isFinite hx
  rw [Comparison.lt_iff hnumber (isNaN_sub hx hm), not_lt]
  rcases isDouble_or_infinity hm with hfinite | ⟨s, hinfinity⟩
  · obtain ⟨hheight, hdepth⟩ := hdouble.heights
    obtain ⟨hheight', hdepth'⟩ := heights_repacked (near_sub hdouble hfinite)
    have hle := worth_nonneg hrank
    apply rank_le_of_heights (isCanonical_unpack x) (isCanonical_unpack (x - m))
    · rw [unpack_sub, hheight, hheight']
      exact capped_mono (rounded_mono (sub_le_self _ hle))
    · rw [unpack_sub, hdepth, hdepth']
      exact capped_mono (rounded_mono (neg_le_neg (sub_le_self _ hle)))
  · rw [unpack_sub_infinity hx hinfinity]
    cases s with
    | positive => exact hdouble.rank_infinity_le
    | negative =>
        rw [hinfinity] at hrank
        exact absurd hrank (by decide)

end Segue.Decimal
