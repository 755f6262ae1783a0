import Segue.Proofs.Decimal.Comparison

/-!
# Decimals are finite

The digits of a machine word, scaled down by a power of ten, are far from the greatest float, and
what is scaled up is checked; so every decimal that is read is finite. The bounds are on the binary
exponent, step by step: rounding adds one to it at most.
-/

namespace Segue.Decimal

open Float.Model Float.Model.UnpackedFloat

/-- Finite, with at most 53 bits above the exponent, which is at most `b`. -/
inductive Moderate (b : Int) : UnpackedFloat → Prop where
  | zero (s : Sign) : Moderate b (.zero s)
  | finite (s : Sign) {m : Nat} {e : Int} (hm : 0 < m) :
      m.log2 ≤ 52 → e ≤ b → Moderate b (.finite s m e hm)

theorem Moderate.isFinite {b : Int} {u : UnpackedFloat} (h : Moderate b u) : u.isFinite = true := by
  cases h <;> rfl

theorem Moderate.mono {b c : Int} {u : UnpackedFloat} (h : Moderate b u) (hbc : b ≤ c) :
    Moderate c u := by
  cases h with
  | zero s => exact .zero s
  | finite s hm hlog he => exact .finite s hm hlog (he.trans hbc)

/-- The magnitude is below `2^(c + 1)`. -/
def atMost (c : Int) : UnpackedFloat → Bool
  | .finite _ m e _ => m.log2 + e ≤ c
  | _ => false

@[simp] theorem atMost_finite (c : Int) (s : Sign) {m : Nat} (e : Int) (hm : 0 < m) :
    atMost c (.finite s m e hm) = decide (m.log2 + e ≤ c) := rfl

/-- The magnitude is not below `2^c`. -/
def atLeast (c : Int) : UnpackedFloat → Bool
  | .finite _ m e _ => c ≤ m.log2 + e
  | _ => false

@[simp] theorem atLeast_finite (c : Int) (s : Sign) {m : Nat} (e : Int) (hm : 0 < m) :
    atLeast c (.finite s m e hm) = decide (c ≤ m.log2 + e) := rfl

theorem Moderate.neg {b : Int} {u : UnpackedFloat} (h : Moderate b u) : Moderate b u.neg := by
  cases h with
  | zero s => exact .zero _
  | finite s hm hlog he => exact .finite _ hm hlog he

/-! ## Bit patterns -/

theorem log2_le_of_lt {m k : Nat} (h : m < 2 ^ (k + 1)) : m.log2 ≤ k := by
  by_cases hm : m = 0
  · simp [hm]
  · exact Nat.le_of_lt_succ ((Nat.log2_lt hm).mpr h)

theorem moderate_unpack {v : BitVec Format.binary64.numBits} {b : Int}
    (hexp : @unpackExponent Format.binary64 v ≠ -1#_)
    (hb : ((@unpackExponent Format.binary64 v).toNat : Int) - 1075 ≤ b)
    (hmin : -1074 ≤ b) : Moderate b (UnpackedFloat.unpack Format.binary64 v) := by
  have hbias : (Format.binary64.exponentBias : Int) + Format.binary64.mantissaBitsWithoutImplicit =
      1075 := by decide
  unfold UnpackedFloat.unpack
  dsimp only
  rw [if_neg hexp]
  split
  · split
    · exact .zero _
    · rename_i hzero _
      refine .finite _ _ (log2_le_of_lt (Nat.lt_of_lt_of_le (BitVec.isLt _) (by decide))) ?_
      rw [hzero, hbias]
      exact hmin
  · refine .finite _ _ (log2_le_of_lt (Nat.lt_of_lt_of_le (BitVec.isLt _) (by decide))) ?_
    rw [hbias]
    exact hb

theorem moderate_unpack_packComponents {s : Sign} {x : BitVec Format.binary64.exponentBits}
    {m : BitVec Format.binary64.mantissaBitsWithoutImplicit} {b : Int} (hx : x ≠ -1#_)
    (hb : (x.toNat : Int) - 1075 ≤ b) (hmin : -1074 ≤ b) :
    Moderate b (UnpackedFloat.unpack Format.binary64 (packComponents Format.binary64 s x m)) := by
  refine moderate_unpack ?_ ?_ hmin
  · rw [unpackExponent_packComponents]
    exact hx
  · rw [unpackExponent_packComponents]
    exact hb

/-- A moderate float is not packed into an infinity. -/
theorem Moderate.unpack_pack {b : Int} {u : UnpackedFloat} (h : Moderate b u) (hmin : -1074 ≤ b)
    (hmax : b ≤ 971) :
    Moderate b (UnpackedFloat.unpack Format.binary64 (UnpackedFloat.pack Format.binary64 u)) := by
  cases h with
  | zero s => exact moderate_unpack_packComponents (by decide) (by simp; omega) hmin
  | finite s hm _ he =>
      rename_i m e _
      have hbias : (e + Format.binary64.exponentBias + Format.binary64.mantissaBitsWithoutImplicit).toNat
          = (e + 1075).toNat := by
        rw [Int.add_assoc]
        rfl
      have hlt : (e + 1075).toNat < 2047 := by omega
      unfold UnpackedFloat.pack
      dsimp only
      rw [hbias, if_neg (by simp; omega)]
      split
      · refine moderate_unpack_packComponents (fun heq => ?_) ?_ hmin
        · have hnat := congrArg BitVec.toNat heq
          simp at hnat
          omega
        · simp
          omega
      · exact moderate_unpack_packComponents (by decide) (by simp; omega) hmin

/-! ## Rounding -/

@[simp] theorem mantissa_shiftRight (em : ExtendedMantissa) (k : Nat) :
    (em >>> k).mantissa = em.mantissa / 2 ^ k := by
  have hrepeat : ∀ k,
      (k.repeat ExtendedMantissa.shiftRightOne em).mantissa = em.mantissa / 2 ^ k := by
    intro k
    induction k with
    | zero => simp [Nat.repeat]
    | succ k ih => rw [Nat.repeat, ExtendedMantissa.shiftRightOne, ih, Nat.div_div_eq_div_mul,
        Nat.pow_succ]
  exact hrepeat k

theorem roundedMantissa_le (em : ExtendedMantissa) : em.roundedMantissa ≤ em.mantissa + 1 := by
  unfold ExtendedMantissa.roundedMantissa Accuracy.roundToNearestEven
  split <;> omega

theorem le_roundedMantissa (em : ExtendedMantissa) : em.mantissa ≤ em.roundedMantissa := by
  unfold ExtendedMantissa.roundedMantissa Accuracy.roundToNearestEven
  split <;> omega

@[simp] theorem mantissa_ofMantissaAndAccuracy (m : Nat) (a : Accuracy) :
    (ExtendedMantissa.ofMantissaAndAccuracy m a).mantissa = m := by
  unfold ExtendedMantissa.ofMantissaAndAccuracy
  split <;> rfl

@[simp] theorem targetExponent_binary64 (x : Int) :
    Format.binary64.targetExponent x = max (x - 53) (-1074) := by
  have hbits : (Format.binary64.mantissaBits : Int) = 53 := by decide
  have hmin : Format.binary64.minExponent = -1074 := by decide
  rw [Format.targetExponent, hbits, hmin]

/-- How far a mantissa is shifted. -/
theorem shiftToTargetExponent_eq (m : Nat) (e : Int) (a : Accuracy) :
    (shiftToTargetExponent Format.binary64 m e a).1.mantissa =
        m / 2 ^ (max (m.log2 + e - 52) (-1074) - e).toNat ∧
      (shiftToTargetExponent Format.binary64 m e a).2 = max e (max (m.log2 + e - 52) (-1074)) := by
  have htarget : max ((m.log2 : Int) + 1 + e - 53) (-1074) = max (m.log2 + e - 52) (-1074) := by
    omega
  unfold shiftToTargetExponent shiftToExponent
  dsimp only
  rw [targetExponent_binary64, totalExponent, htarget, mantissa_shiftRight,
    mantissa_ofMantissaAndAccuracy]
  exact ⟨rfl, by omega⟩

/-- Shifting leaves 53 bits at most. -/
theorem shiftToTargetExponent_lt (m : Nat) (e : Int) (a : Accuracy) :
    (shiftToTargetExponent Format.binary64 m e a).1.mantissa < 2 ^ 53 := by
  have hlt : m < 2 ^ (m.log2 + 1) := Nat.lt_log2_self
  have hle : m.log2 + 1 ≤ 53 + (max (m.log2 + e - 52) (-1074) - e).toNat := by omega
  rw [(shiftToTargetExponent_eq m e a).1, Nat.div_lt_iff_lt_mul (Nat.two_pow_pos _), ← Nat.pow_add]
  exact hlt.trans_le (Nat.pow_le_pow_right (by decide) hle)

theorem moderate_roundWithAccuracy (s : Sign) {m : Nat} {e b : Int} (a : Accuracy) (he : e ≤ b)
    (hm : m.log2 + e ≤ b + 52) (hmin : -1074 ≤ b) :
    Moderate (b + 1) (roundWithAccuracy Format.binary64 s m e a) := by
  have hlt := shiftToTargetExponent_lt m e a
  have hexp := (shiftToTargetExponent_eq m e a).2
  unfold roundWithAccuracy
  dsimp only
  generalize shiftToTargetExponent Format.binary64 m e a = first at hlt hexp
  have hlt' := shiftToTargetExponent_lt first.1.roundedMantissa first.2 .exact
  have hexp' := (shiftToTargetExponent_eq first.1.roundedMantissa first.2 .exact).2
  have hround : first.1.roundedMantissa < 2 ^ 54 := by
    have hle := roundedMantissa_le first.1
    omega
  have hlog := log2_le_of_lt hround
  split
  · exact .zero s
  · refine .finite s _ (log2_le_of_lt hlt') ?_
    rw [hexp', hexp]
    omega

/-! ## Operations -/

theorem log2_div_le (m k : Nat) {n : Nat} (hn : 0 < n) :
    ((m <<< k) / n).log2 ≤ m.log2 + k - n.log2 := by
  refine log2_le_of_lt ?_
  have hlt : m < 2 ^ (m.log2 + 1) := Nat.lt_log2_self
  have hle : 2 ^ n.log2 ≤ n := Nat.log2_self_le hn.ne'
  rw [Nat.div_lt_iff_lt_mul hn, Nat.shiftLeft_eq]
  calc m * 2 ^ k < 2 ^ (m.log2 + 1) * 2 ^ k := Nat.mul_lt_mul_of_pos_right hlt (Nat.two_pow_pos k)
    _ = 2 ^ (m.log2 + 1 + k) := (Nat.pow_add ..).symm
    _ ≤ 2 ^ (m.log2 + k - n.log2 + 1 + n.log2) := Nat.pow_le_pow_right (by decide) (by omega)
    _ = 2 ^ (m.log2 + k - n.log2 + 1) * 2 ^ n.log2 := Nat.pow_add ..
    _ ≤ 2 ^ (m.log2 + k - n.log2 + 1) * n := Nat.mul_le_mul_left _ hle

theorem divCore_bounds (m₁ : Nat) (e₁ : Int) {m₂ : Nat} (hm₂ : 0 < m₂) (e₂ : Int) :
    (divCore Format.binary64 m₁ e₁ m₂ e₂).2.1 ≤
        max (m₁.log2 + e₁ - (m₂.log2 + e₂) - 53) (-1074) ∧
      (divCore Format.binary64 m₁ e₁ m₂ e₂).1.log2 + (divCore Format.binary64 m₁ e₁ m₂ e₂).2.1 ≤
        max (m₁.log2 + e₁ - (m₂.log2 + e₂)) (divCore Format.binary64 m₁ e₁ m₂ e₂).2.1 := by
  dsimp only [divCore]
  rw [targetExponent_binary64, totalExponent, totalExponent]
  refine ⟨by omega, ?_⟩
  have hlog := log2_div_le m₁ (e₁ - e₂ - min (e₁ - e₂)
    (max ((m₁.log2 : Int) + 1 + e₁ - (m₂.log2 + 1 + e₂) - 53) (-1074))).toNat hm₂
  omega

theorem moderate_div {b c : Int} {u w : UnpackedFloat} (hu : Moderate b u)
    (hw : atLeast c w = true) :
    Moderate (max (b - c) (-1074) + 1) (UnpackedFloat.div Format.binary64 u w) := by
  cases w with
  | finite s₂ m₂ e₂ hm₂ =>
      rw [atLeast_finite, decide_eq_true_eq] at hw
      cases hu with
      | zero s => exact .zero _
      | finite s₁ hm₁ hlog he =>
          rename_i m₁ e₁
          obtain ⟨hexp, hquotient⟩ := divCore_bounds m₁ e₁ hm₂ e₂
          rw [UnpackedFloat.div]
          generalize divCore Format.binary64 m₁ e₁ m₂ e₂ = q at hexp hquotient ⊢
          obtain ⟨m, e, a⟩ := q
          dsimp only at hexp hquotient ⊢
          exact moderate_roundWithAccuracy _ _ (by omega) (by omega) (by omega)
  | zero => cases hw
  | infinity => cases hw
  | notANumber => cases hw

theorem log2_mul_le (m n : Nat) : (m * n).log2 ≤ m.log2 + n.log2 + 1 := by
  refine log2_le_of_lt ?_
  calc m * n < 2 ^ (m.log2 + 1) * 2 ^ (n.log2 + 1) :=
        Nat.mul_lt_mul'' Nat.lt_log2_self Nat.lt_log2_self
    _ = 2 ^ (m.log2 + n.log2 + 1 + 1) := by
        rw [← Nat.pow_add]
        congr 1
        omega

theorem moderate_mul {b c : Int} {u w : UnpackedFloat} (hu : Moderate b u)
    (hw : atMost c w = true) :
    Moderate (max (b + c + 1) (-1074) + 1) (UnpackedFloat.mul Format.binary64 u w) := by
  cases w with
  | finite s₂ m₂ e₂ hm₂ =>
      rw [atMost_finite, decide_eq_true_eq] at hw
      cases hu with
      | zero s => exact .zero _
      | finite s₁ hm₁ hlog he =>
          rename_i m₁ e₁
          have hproduct := log2_mul_le m₁ m₂
          exact moderate_roundWithAccuracy _ _ (by omega) (by omega) (by omega)
  | zero => cases hw
  | infinity => cases hw
  | notANumber => cases hw

theorem moderate_ofNat {n : Nat} {b : Int} (hn : n.log2 ≤ b + 52) (hb : 0 ≤ b) :
    Moderate (b + 1) (UnpackedFloat.ofNat Format.binary64 n) := by
  have hround : Moderate (b + 1) (UnpackedFloat.round Format.binary64 .positive n 0) := by
    unfold UnpackedFloat.round decreaseExponent
    dsimp only
    have hlog : ∀ k, (n <<< k).log2 ≤ n.log2 + k := fun k => by
      have hdiv := log2_div_le n k Nat.one_pos
      rw [Nat.div_one] at hdiv
      omega
    have hle := hlog (0 - Format.binary64.targetExponent (totalExponent n 0)).toNat
    exact moderate_roundWithAccuracy _ _ (by omega) (by omega) (by omega)
  unfold UnpackedFloat.ofNat UnpackedFloat.ofInt UnpackedFloat.normalize
  split
  · rename_i hneg
    exact absurd (Int.compare_eq_lt.mp hneg) (by omega)
  · exact .zero _
  · exact hround

/-! ## Floats -/

/-- A float whose unpacked form is moderate. -/
def IsModerate (b : Int) (x : Float) : Prop := Moderate b x.toModel.unpack

theorem IsModerate.isFinite {b : Int} {x : Float} (h : IsModerate b x) :
    Scalar.isFinite x = true := Moderate.isFinite h

theorem Moderate.ofModel_pack {b : Int} {u : UnpackedFloat} (h : Moderate b u) (hmin : -1074 ≤ b)
    (hmax : b ≤ 971) : IsModerate b (.ofModel (.pack u)) := h.unpack_pack hmin hmax

theorem isModerate_of_isFinite {x : Float} (h : Scalar.isFinite x = true) : IsModerate 971 x := by
  have hunpack : (UnpackedFloat.unpack Format.binary64 x.toModel.toBits.toBitVec).isFinite = true := h
  have hexp : @unpackExponent Format.binary64 x.toModel.toBits.toBitVec ≠ -1#_ := by
    intro heq
    unfold UnpackedFloat.unpack at hunpack
    dsimp only at hunpack
    rw [if_pos heq] at hunpack
    split at hunpack <;> cases hunpack
  refine moderate_unpack hexp ?_ (by decide)
  have hlt := (@unpackExponent Format.binary64 x.toModel.toBits.toBitVec).isLt
  have hne : (@unpackExponent Format.binary64 x.toModel.toBits.toBitVec).toNat ≠ 2047 :=
    fun heq => hexp (BitVec.eq_of_toNat_eq heq)
  have hpow : 2 ^ Format.binary64.exponentBits = 2048 := by decide
  omega

theorem isNaN_isInf_of_isFinite {x : Float} (h : x.isFinite = true) :
    x.isNaN = false ∧ x.isInf = false := by
  have hunpack : x.toModel.unpack.isFinite = true := h
  have hnan : x.isNaN = x.toModel.unpack.isNaN := rfl
  have hinf : x.isInf = x.toModel.unpack.isInf := rfl
  rw [hnan, hinf]
  cases hu : x.toModel.unpack with
  | notANumber | infinity s =>
      rw [hu] at hunpack
      cases hunpack
  | zero s => exact ⟨rfl, rfl⟩
  | finite s m e h => exact ⟨rfl, rfl⟩

theorem beq_self_of_isFinite {x : Float} (h : x.isFinite = true) : (x == x) = true := by
  have hbeq : (x == x) = x.toModel.unpack.beq x.toModel.unpack := rfl
  have hnan : x.toModel.unpack.isNaN = false := (isNaN_isInf_of_isFinite h).1
  rw [hbeq, UnpackedFloat.beq, Comparison.compare_eq_cmp hnan hnan, cmp_self_eq_eq]
  rfl

theorem IsModerate.neg {b : Int} {x : Float} (h : IsModerate b x) (hmin : -1074 ≤ b)
    (hmax : b ≤ 971) : IsModerate b (-x) := (Moderate.neg h).ofModel_pack hmin hmax

theorem IsModerate.div {b c : Int} {x y : Float} (hx : IsModerate b x)
    (hy : atLeast c y.toModel.unpack = true) (hmax : max (b - c) (-1074) + 1 ≤ 971) :
    IsModerate (max (b - c) (-1074) + 1) (x / y) :=
  (moderate_div hx hy).ofModel_pack (by omega) hmax

/-! ## Powers of ten -/

theorem log2_div_two_pow {m k : Nat} (h : k ≤ m.log2) : (m / 2 ^ k).log2 = m.log2 - k := by
  by_cases hm : m = 0
  · simp [hm]
  · have hlow : 2 ^ (m.log2 - k) ≤ m / 2 ^ k := by
      rw [Nat.le_div_iff_mul_le (Nat.two_pow_pos k), ← Nat.pow_add, Nat.sub_add_cancel h]
      exact Nat.log2_self_le hm
    have hhigh : m / 2 ^ k < 2 ^ (m.log2 - k + 1) := by
      rw [Nat.div_lt_iff_lt_mul (Nat.two_pow_pos k), ← Nat.pow_add,
        Nat.add_right_comm, Nat.sub_add_cancel h]
      exact Nat.lt_log2_self
    have hne : m / 2 ^ k ≠ 0 := (Nat.lt_of_lt_of_le (Nat.two_pow_pos _) hlow).ne'
    exact (Nat.log2_eq_iff hne).mpr ⟨hlow, hhigh⟩

/-- A mantissa of 53 bits or more is rounded to 53 bits, and what it gives is no smaller. -/
theorem roundWithAccuracy_normal (s : Sign) {m : Nat} {e : Int} (a : Accuracy)
    (hlog : 52 ≤ m.log2) (hmin : -1074 ≤ m.log2 + e - 52) :
    ∃ m' e' h, roundWithAccuracy Format.binary64 s m e a = .finite s m' e' h ∧ m'.log2 = 52 ∧
      m.log2 + e ≤ 52 + e' := by
  obtain ⟨hfirst, hexp⟩ := shiftToTargetExponent_eq m e a
  unfold roundWithAccuracy
  dsimp only
  generalize shiftToTargetExponent Format.binary64 m e a = first at hfirst hexp ⊢
  have hfirstLog : first.1.mantissa.log2 = 52 := by
    have hshift : (max (m.log2 + e - 52) (-1074) - e).toNat = m.log2 - 52 := by omega
    rw [hfirst, hshift, log2_div_two_pow (Nat.sub_le _ _)]
    omega
  have hne : first.1.mantissa ≠ 0 := fun h => by simp [h] at hfirstLog
  obtain ⟨hlow, hhigh⟩ := (Nat.log2_eq_iff hne).mp hfirstLog
  have hroundLow : first.1.mantissa ≤ first.1.roundedMantissa := le_roundedMantissa _
  have hroundHigh := roundedMantissa_le first.1
  obtain ⟨hsecond, hexp'⟩ :=
    shiftToTargetExponent_eq first.1.roundedMantissa first.2 .exact
  generalize first.1.roundedMantissa = r at *
  have hr : r ≠ 0 := by omega
  have hrLow : 52 ≤ r.log2 := (Nat.le_log2 hr).mpr (by omega)
  have hrHigh : r.log2 ≤ 53 := log2_le_of_lt (by omega)
  generalize shiftToTargetExponent Format.binary64 r first.2 .exact = second at hsecond hexp' ⊢
  have hsecondLog : second.1.mantissa.log2 = 52 := by
    have hshift : (max (r.log2 + first.2 - 52) (-1074) - first.2).toNat = r.log2 - 52 := by omega
    rw [hsecond, hshift, log2_div_two_pow (Nat.sub_le _ _)]
    omega
  have hsecondNe : second.1.mantissa ≠ 0 := fun h => by simp [h] at hsecondLog
  rw [dif_neg hsecondNe]
  exact ⟨_, _, _, rfl, hsecondLog, by omega⟩

theorem le_log2_append (v : BitVec 52) : 52 ≤ (1#1 ++ v).toNat.log2 := by
  have hle : 2 ^ 52 ≤ (1#1 ++ v).toNat := by
    rw [BitVec.toNat_append]
    exact Nat.left_le_or
  exact (Nat.le_log2 (by omega)).mpr hle

theorem atLeast_unpack {v : BitVec Format.binary64.numBits} {c : Int}
    (hexp : @unpackExponent Format.binary64 v ≠ -1#_)
    (hzero : @unpackExponent Format.binary64 v ≠ 0#_)
    (hc : c ≤ ((@unpackExponent Format.binary64 v).toNat : Int) - 1023) :
    atLeast c (UnpackedFloat.unpack Format.binary64 v) = true := by
  have hbias : (Format.binary64.exponentBias : Int) + Format.binary64.mantissaBitsWithoutImplicit =
      1075 := by decide
  have hlog := le_log2_append (@unpackMantissa Format.binary64 v)
  unfold UnpackedFloat.unpack
  dsimp only
  rw [if_neg hexp, if_neg hzero, hbias, atLeast_finite, decide_eq_true_eq]
  omega

theorem atLeast_unpack_packComponents {s : Sign} {x : BitVec Format.binary64.exponentBits}
    {m : BitVec Format.binary64.mantissaBitsWithoutImplicit} {c : Int} (hx : x ≠ -1#_)
    (hzero : x ≠ 0#_) (hc : c ≤ (x.toNat : Int) - 1023) :
    atLeast c (UnpackedFloat.unpack Format.binary64 (packComponents Format.binary64 s x m)) =
      true := by
  refine atLeast_unpack ?_ ?_ ?_
  · rw [unpackExponent_packComponents]
    exact hx
  · rw [unpackExponent_packComponents]
    exact hzero
  · rw [unpackExponent_packComponents]
    exact hc

theorem pack_normal (s : Sign) {m : Nat} {e : Int} (hm : 0 < m) (hlog : m.log2 = 52)
    (hmax : e ≤ 971) : UnpackedFloat.pack Format.binary64 (.finite s m e hm) =
      packComponents Format.binary64 s (BitVec.ofNat _ (e + 1075).toNat) (BitVec.ofNat _ m) := by
  have hbias : (e + Format.binary64.exponentBias + Format.binary64.mantissaBitsWithoutImplicit).toNat
      = (e + 1075).toNat := by
    rw [Int.add_assoc]
    rfl
  have hfits : ¬2 ^ Format.binary64.exponentBits ≤ (e + 1075).toNat + 1 := by
    simp
    omega
  have hnormal : m.log2 + 1 = Format.binary64.mantissaBits := by
    rw [hlog]
    decide
  unfold UnpackedFloat.pack
  dsimp only
  rw [hbias, if_neg hfits, if_pos hnormal]

theorem atLeast_unpack_pack (s : Sign) {m : Nat} {e c : Int} (hm : 0 < m) (hlog : m.log2 = 52)
    (hmin : -1074 ≤ e) (hmax : e ≤ 971) (hc : c ≤ 52 + e) :
    atLeast c (UnpackedFloat.unpack Format.binary64
      (UnpackedFloat.pack Format.binary64 (.finite s m e hm))) = true := by
  have hexp : (BitVec.ofNat Format.binary64.exponentBits (e + 1075).toNat).toNat =
      (e + 1075).toNat := by
    rw [BitVec.toNat_ofNat]
    exact Nat.mod_eq_of_lt (by simp; omega)
  have hne : ∀ k : Nat, (e + 1075).toNat ≠ k % 2 ^ Format.binary64.exponentBits →
      BitVec.ofNat Format.binary64.exponentBits (e + 1075).toNat ≠ BitVec.ofNat _ k := by
    intro k hk heq
    have hnat := congrArg BitVec.toNat heq
    rw [hexp, BitVec.toNat_ofNat] at hnat
    exact hk hnat
  rw [pack_normal s hm hlog hmax]
  exact atLeast_unpack_packComponents (hne 2047 (by simp; omega)) (hne 0 (by simp; omega))
    (by rw [hexp]; omega)

theorem pow_ten_le (n : Nat) : 10 ^ n ≤ 2 ^ (10 * (n / 3 + 1)) := by
  calc 10 ^ n ≤ 10 ^ (3 * (n / 3 + 1)) := Nat.pow_le_pow_right (by decide) (by omega)
    _ = (10 ^ 3) ^ (n / 3 + 1) := Nat.pow_mul ..
    _ ≤ (2 ^ 10) ^ (n / 3 + 1) := Nat.pow_le_pow_left (by decide) _
    _ = 2 ^ (10 * (n / 3 + 1)) := (Nat.pow_mul ..).symm

/-- The powers that are not tabled are rounded once. -/
theorem powerOfTen_eq {n : Nat} (hn : 22 < n) (hmax : n ≤ maxExponent) :
    powerOfTen n = .ofModel (.pack (roundWithAccuracy Format.binary64 .positive
      ((1 <<< 53) * 10 ^ n) (-53) .exact)) := by
  have hslow : ¬(1 < 2 ^ 53 ∧ n ≤ 22) := by omega
  have hhigh : ¬(Int.ofNat n > 2 ^ Format.binary64.exponentBits) := by
    have hpow : (2 : Int) ^ Format.binary64.exponentBits = 2048 := by decide
    unfold maxExponent at hmax
    rw [hpow, Int.ofNat_eq_natCast]
    omega
  have hlow : ¬(Int.ofNat n < -((2 ^ Format.binary64.exponentBits : Int) + Nat.log2 1)) := by
    have hpow : (2 : Int) ^ Format.binary64.exponentBits = 2048 := by decide
    rw [hpow, Int.ofNat_eq_natCast]
    omega
  have hnonneg : 0 ≤ Int.ofNat n := Int.natCast_nonneg n
  unfold powerOfTen Float.ofScientific
  rw [dif_neg hslow]
  dsimp only
  rw [if_neg Bool.false_ne_true]
  unfold Float.Model.ofScientific UnpackedFloat.ofScientific
  rw [dif_neg Nat.one_ne_zero, if_neg hhigh, if_neg hlow, if_pos hnonneg]
  rfl

theorem atLeast_powerOfTen {n : Nat} (hn : n ≤ maxExponent) :
    atLeast 0 (powerOfTen n).toModel.unpack = true := by
  have hfirst : ∀ n ≤ 22, atLeast 0 (powerOfTen n).toModel.unpack = true := by decide +kernel
  have hlast : ∀ k ≤ 8, atLeast 0 (powerOfTen (300 + k)).toModel.unpack = true := by
    decide +kernel
  by_cases hsmall : n ≤ 22
  · exact hfirst n hsmall
  · by_cases hlarge : 300 ≤ n
    · obtain ⟨k, rfl⟩ := Nat.exists_eq_add_of_le hlarge
      exact hlast k (by unfold maxExponent at hn; omega)
    · have hpos : 0 < 10 ^ n := Nat.pow_pos (by decide)
      have hlow : 53 ≤ ((1 <<< 53) * 10 ^ n).log2 :=
        (Nat.le_log2 (by omega)).mpr (Nat.le_mul_of_pos_right _ hpos)
      have hhigh : ((1 <<< 53) * 10 ^ n).log2 ≤ 53 + 10 * (n / 3 + 1) := by
        refine log2_le_of_lt ?_
        calc (1 <<< 53) * 10 ^ n ≤ 2 ^ 53 * 2 ^ (10 * (n / 3 + 1)) :=
              Nat.mul_le_mul_left _ (pow_ten_le n)
          _ = 2 ^ (53 + 10 * (n / 3 + 1)) := (Nat.pow_add ..).symm
          _ < 2 ^ (53 + 10 * (n / 3 + 1) + 1) := Nat.pow_lt_pow_succ (by decide)
      obtain ⟨m, e, hm, hround, hlog, hexp⟩ := roundWithAccuracy_normal .positive .exact
        (m := (1 <<< 53) * 10 ^ n) (e := -53) (by omega) (by omega)
      have hmoderate := moderate_roundWithAccuracy .positive .exact
        (m := (1 <<< 53) * 10 ^ n) (e := -53) (b := 970) (by decide) (by omega) (by decide)
      rw [powerOfTen_eq (by omega) hn]
      rw [hround] at hmoderate ⊢
      cases hmoderate with
      | finite _ _ _ hmax => exact atLeast_unpack_pack _ hm hlog (by omega) hmax (by omega)

theorem atLeast_maxPower : atLeast 1000 (powerOfTen maxExponent).toModel.unpack = true := by
  decide +kernel

/-! ## Decimals -/

/-- A count of at most 53 digits is exact, and multiplied by one. -/
theorem ofNat_of_lt {n : Nat} (hn : n < 2 ^ 53) : Float.ofNat n =
    .ofModel (.pack (UnpackedFloat.ofNat Format.binary64 n)) *
      Float.exactlyRepresentablePowersOfTen[0] := by
  have hnat : n.toUInt64.toNat = n := UInt64.toNat_ofNat_of_lt' (by unfold UInt64.size; omega)
  have hfloat : n.toUInt64.toFloat =
      .ofModel (.pack (UnpackedFloat.ofNat Format.binary64 n.toUInt64.toNat)) := rfl
  rw [hnat] at hfloat
  rw [← hfloat]
  exact dif_pos ⟨hn, by decide⟩

/-- A longer count is rounded. -/
theorem ofNat_of_not_lt {n : Nat} (hn : ¬n < 2 ^ 53) : Float.ofNat n =
    .ofModel (.pack (roundWithAccuracy Format.binary64 .positive ((n <<< 53) * 10 ^ 0) (-53)
      .exact)) := by
  have hslow : ¬(n < 2 ^ 53 ∧ 0 ≤ 22) := fun h => hn h.1
  have hpow : (2 : Int) ^ Format.binary64.exponentBits = 2048 := by decide
  have hlow : ¬(Int.ofNat 0 < -((2 ^ Format.binary64.exponentBits : Int) + n.log2)) := by
    rw [hpow, Int.ofNat_eq_natCast]
    omega
  unfold Float.ofNat OfScientific.ofScientific
  dsimp only [instOfScientificFloat]
  unfold Float.ofScientific
  rw [dif_neg hslow]
  dsimp only
  rw [if_neg Bool.false_ne_true]
  unfold Float.Model.ofScientific UnpackedFloat.ofScientific
  rw [dif_neg (by omega), if_neg (by decide), if_neg hlow, if_pos (by decide)]
  rfl

theorem isModerate_ofNat {n : Nat} (hn : n ≤ maxCount) : IsModerate 20 (Float.ofNat n) := by
  have hlog : n.log2 ≤ 63 := log2_le_of_lt (Nat.lt_succ_of_le hn)
  by_cases hfast : n < 2 ^ 53
  · have hone : atMost 0 (Float.exactlyRepresentablePowersOfTen[0]).toModel.unpack = true := by
      decide +kernel
    have hcount : IsModerate 12 (.ofModel (.pack (UnpackedFloat.ofNat Format.binary64 n))) := by
      have hunpacked : Moderate 12 (UnpackedFloat.ofNat Format.binary64 n) :=
        moderate_ofNat (b := 11) (by omega) (by decide)
      exact hunpacked.ofModel_pack (by decide) (by decide)
    have hproduct := (moderate_mul hcount hone).ofModel_pack (by decide) (by decide)
    rw [ofNat_of_lt hfast]
    exact Moderate.mono hproduct (by decide)
  · have hshift : ((n <<< 53) * 10 ^ 0).log2 ≤ 63 + 53 := by
      have hdiv := log2_div_le n 53 Nat.one_pos
      rw [Nat.div_one] at hdiv
      rw [Nat.pow_zero, Nat.mul_one]
      omega
    have hround := moderate_roundWithAccuracy .positive .exact (m := (n <<< 53) * 10 ^ 0)
      (e := -53) (b := 19) (by decide) (by omega) (by decide)
    rw [ofNat_of_not_lt hfast]
    exact hround.ofModel_pack (by decide) (by decide)

theorem isModerate_scaleDown {x : Float} (hx : IsModerate 900 x) (n : Nat) :
    IsModerate 901 (scaleDown x n) := by
  induction x, n using scaleDown.induct with
  | case1 x n hn =>
      rw [scaleDown, if_pos hn]
      exact hx.div (atLeast_powerOfTen hn) (by decide)
  | case2 x n hn hzero =>
      rw [scaleDown, if_neg hn, if_pos hzero]
      exact Moderate.mono hx (by decide)
  | case3 x n hn hzero ih =>
      rw [scaleDown, if_neg hn, if_neg hzero]
      have hquotient := hx.div atLeast_maxPower (by decide)
      exact ih (Moderate.mono hquotient (by decide))

/-- Every decimal whose digits fit a machine word and that is read is finite. -/
theorem isFinite_ofDecimal? {negative : Bool} {n : Nat} {e : Int} {x : Float} (hn : n ≤ maxCount)
    (h : Numeral.ofDecimal? negative n e = some x) : Scalar.isFinite x = true := by
  have hsigned : ∀ {b y}, IsModerate b y → -1074 ≤ b → b ≤ 971 → 
      Scalar.isFinite (if negative then -y else y) = true := by
    intro b y hy hmin hmax
    split
    · exact (hy.neg hmin hmax).isFinite
    · exact hy.isFinite
  obtain ⟨y, hy, rfl⟩ := Option.map_eq_some_iff.mp h
  have hnat := isModerate_ofNat hn
  unfold scaled? at hy
  dsimp only at hy
  split at hy
  · cases hy
    exact hsigned (isModerate_scaleDown (Moderate.mono hnat (by decide)) _) (by decide) (by decide)
  · split at hy
    · split at hy
      · rename_i hfinite
        cases hy
        exact hsigned (isModerate_of_isFinite hfinite) (by decide) (by decide)
      · cases hy
    · split at hy
      · cases hy
        exact hsigned hnat (by decide) (by decide)
      · cases hy

theorem isFinite_ofInt {n : Int} (hn : n.natAbs ≤ maxCount) :
    Scalar.isFinite (Scalar.ofInt n : Float) = true := by
  have hnat := isModerate_ofNat hn
  unfold Scalar.ofInt
  split
  · exact (hnat.neg (by decide) (by decide)).isFinite
  · exact hnat.isFinite

end Segue.Decimal
