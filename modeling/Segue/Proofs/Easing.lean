import Mathlib
import Segue.Easing
import Segue.Proofs.Timeline

/-!
# Easing formulas in exact arithmetic

A family of rational formulas is a motion from 0 to 1 in three variants: the motion itself, the
motion backwards in time, and a motion at double speed that runs backwards from one half on. The
variants are written out one by one; here they are led back to the motions.
-/

namespace Segue

namespace Scalar

@[simp] theorem power_rat (x : Rat) (n : Nat) : power x n = x ^ n := by
  fun_induction power x n with
  | case1 => norm_num
  | case2 => ring
  | case3 => ring
  | case4 => ring
  | case5 => ring
  | case6 => ring
  | case7 n _ _ _ _ _ ih => rw [ih, pow_succ']

end Scalar

open Scalar Set

namespace Easing

variable {f g : Rat → Rat}

/-! ## Motions -/

/-- From 0 to 1. -/
structure Motion (f : Rat → Rat) : Prop where
  zero : f 0 = 0
  one : f 1 = 1

def reversed (f : Rat → Rat) (t : Rat) : Rat := 1 - f (1 - t)

def joined (f : Rat → Rat) (t : Rat) : Rat :=
  if t < 1 / 2 then f (2 * t) / 2 else 1 - f (2 - 2 * t) / 2

theorem Motion.reversed (h : Motion f) : Motion (reversed f) := by
  constructor
  · rw [Easing.reversed, sub_zero, h.one, sub_self]
  · rw [Easing.reversed, sub_self, h.zero, sub_zero]

theorem Motion.joined (h : Motion f) : Motion (joined f) := by
  constructor
  · rw [Easing.joined, if_pos (by norm_num), mul_zero, h.zero, zero_div]
  · rw [Easing.joined, if_neg (by norm_num), mul_one, sub_self, h.zero, zero_div, sub_zero]

/-- At one half both values come from the second part, so the motion has to end at 1. -/
theorem Motion.joined_add_joined (h : Motion f) (t : Rat) :
    Easing.joined f t + Easing.joined f (1 - t) = 1 := by
  have hback : 2 - 2 * (1 - t) = 2 * t := by ring
  have hthere : 2 * (1 - t) = 2 - 2 * t := by ring
  unfold Easing.joined
  rw [hback, hthere]
  rcases lt_trichotomy t (1 / 2) with ht | rfl | ht
  · rw [if_pos ht, if_neg (by linarith)]
    ring
  · have hone : (2 : Rat) * (1 / 2) = 1 := by norm_num
    have hrest : (2 : Rat) - 1 = 1 := by norm_num
    rw [if_neg (lt_irrefl _), if_neg (by norm_num), hone, hrest, h.one]
    norm_num
  · rw [if_neg (by linarith), if_pos (by linarith)]
    ring

theorem one_sub_mem {t : Rat} (h : t ∈ Icc (0 : Rat) 1) : 1 - t ∈ Icc (0 : Rat) 1 :=
  ⟨sub_nonneg.mpr h.2, sub_le_self 1 h.1⟩

theorem two_mul_mem {t : Rat} (h : t ∈ Icc (0 : Rat) 1) (hhalf : t < 1 / 2) :
    2 * t ∈ Icc (0 : Rat) 1 :=
  ⟨by linarith [h.1], by linarith⟩

theorem two_sub_mem {t : Rat} (h : t ∈ Icc (0 : Rat) 1) (hhalf : ¬t < 1 / 2) :
    2 - 2 * t ∈ Icc (0 : Rat) 1 :=
  ⟨by linarith [h.2], by linarith⟩

theorem mapsTo_reversed (h : MapsTo f (Icc 0 1) (Icc 0 1)) :
    MapsTo (reversed f) (Icc 0 1) (Icc 0 1) := fun _ ht => one_sub_mem (h (one_sub_mem ht))

theorem mapsTo_joined (h : MapsTo f (Icc 0 1) (Icc 0 1)) :
    MapsTo (joined f) (Icc 0 1) (Icc 0 1) := by
  intro t ht
  rw [joined]
  split
  · rename_i hhalf
    obtain ⟨hzero, hone⟩ := h (two_mul_mem ht hhalf)
    exact ⟨by linarith, by linarith⟩
  · rename_i hhalf
    obtain ⟨hzero, hone⟩ := h (two_sub_mem ht hhalf)
    exact ⟨by linarith, by linarith⟩

theorem monotoneOn_reversed (h : MonotoneOn f (Icc 0 1)) :
    MonotoneOn (reversed f) (Icc 0 1) := by
  intro s hs t ht hst
  exact sub_le_sub_left (h (one_sub_mem ht) (one_sub_mem hs) (sub_le_sub_left hst 1)) 1

theorem monotoneOn_joined (h : MonotoneOn f (Icc 0 1)) (hmaps : MapsTo f (Icc 0 1) (Icc 0 1)) :
    MonotoneOn (joined f) (Icc 0 1) := by
  intro s hs t ht hst
  unfold joined
  split
  · rename_i hs'
    have hfirst := two_mul_mem hs hs'
    split
    · rename_i ht'
      have hle := h hfirst (two_mul_mem ht ht') (by linarith)
      linarith
    · rename_i ht'
      linarith [(hmaps hfirst).2, (hmaps (two_sub_mem ht ht')).2]
  · rename_i hs'
    have ht' : ¬t < 1 / 2 := fun h' => hs' (hst.trans_lt h')
    have hle := h (two_sub_mem ht ht') (two_sub_mem hs hs') (by linarith)
    rw [if_neg ht']
    linarith

@[simp] theorem reversed_reversed (f : Rat → Rat) : reversed (reversed f) = f := by
  funext t
  rw [reversed, reversed, sub_sub_cancel, sub_sub_cancel]

/-! ## Powers -/

theorem motion_power {n : Nat} (hn : n ≠ 0) : Motion (· ^ n) := ⟨zero_pow hn, one_pow n⟩

theorem mapsTo_power (n : Nat) : MapsTo (· ^ n : Rat → Rat) (Icc 0 1) (Icc 0 1) :=
  fun _ ht => ⟨pow_nonneg ht.1 n, pow_le_one₀ ht.1 ht.2⟩

theorem monotoneOn_power (n : Nat) : MonotoneOn (· ^ n : Rat → Rat) (Icc 0 1) :=
  fun _ hs _ _ hst => pow_le_pow_left₀ hs.1 hst n

@[simp] theorem powerEase_out (n : Nat) (t : Rat) : powerEase n t .out = reversed (· ^ n) t := by
  simp only [powerEase, reversed, power_rat, one_rat]

theorem powerEase_inOut {n : Nat} (hn : n ≠ 0) (t : Rat) :
    powerEase n t .inOut = joined (· ^ n) t := by
  have hhalf : (0.5 : Rat) = 1 / 2 := by norm_num
  have htwo : (2.0 : Rat) = 2 := by norm_num
  have hrise : (2 : Rat) ^ (n - 1) * t ^ n = (2 * t) ^ n / 2 := by
    rw [mul_pow, ← pow_sub_one_mul hn (2 : Rat)]
    ring
  have hfall : -2 * t + 2 = 2 - 2 * t := by ring
  simp only [powerEase, joined, power_rat]
  rw [hhalf, htwo, one_rat, hrise, hfall]

/-! ## Drawing back -/

/-- A motion that draws back first, the further the greater `pull` is. -/
def backIn (pull t : Rat) : Rat := (pull + 1) * t ^ 3 - pull * t ^ 2

theorem motion_backIn (pull : Rat) : Motion (backIn pull) := by
  constructor
  · rw [backIn]
    ring
  · rw [backIn]
    ring

@[simp] theorem backEase_into (t : Rat) : backEase t .into = backIn backPull t := by
  simp only [backEase, backIn, power_rat, one_rat]
  ring

@[simp] theorem backEase_out (t : Rat) : backEase t .out = reversed (backIn backPull) t := by
  simp only [backEase, reversed, backIn, power_rat, one_rat]
  ring

@[simp] theorem backEase_inOut (t : Rat) : backEase t .inOut = joined (backIn backPullBoth) t := by
  have hhalf : (0.5 : Rat) = 1 / 2 := by norm_num
  have htwo : (2.0 : Rat) = 2 := by norm_num
  simp only [backEase, joined, backIn, power_rat]
  rw [hhalf, htwo, one_rat]
  split
  · ring
  · ring

/-! ## Bouncing -/

theorem bounceOut_rat (t : Rat) :
    bounceOut t =
      if t < 4 / 11 then 121 / 16 * t ^ 2
      else if t < 8 / 11 then 121 / 16 * (t - 6 / 11) ^ 2 + 3 / 4
      else if t < 10 / 11 then 121 / 16 * (t - 9 / 11) ^ 2 + 15 / 16
      else 121 / 16 * (t - 21 / 22) ^ 2 + 63 / 64 := by
  unfold bounceOut
  norm_num
  ring_nf

theorem motion_bounceOut : Motion bounceOut := by
  constructor
  · rw [bounceOut_rat]
    norm_num
  · rw [bounceOut_rat]
    norm_num

/-- A parabola reaches 1 at most where it is cut. -/
theorem mapsTo_bounceOut : MapsTo bounceOut (Icc (0 : Rat) 1) (Icc 0 1) := by
  intro t ht
  obtain ⟨hzero, hone⟩ := ht
  rw [bounceOut_rat]
  split
  · exact ⟨by positivity, by nlinarith⟩
  · split
    · exact ⟨by positivity, by nlinarith⟩
    · split
      · exact ⟨by positivity, by nlinarith⟩
      · exact ⟨by positivity, by nlinarith⟩

@[simp] theorem bounceEase_into (t : Rat) : bounceEase t .into = reversed bounceOut t := by
  simp only [bounceEase, reversed, one_rat]

@[simp]
theorem bounceEase_inOut (t : Rat) : bounceEase t .inOut = joined (reversed bounceOut) t := by
  have hhalf : (0.5 : Rat) = 1 / 2 := by norm_num
  have htwo : (2.0 : Rat) = 2 := by norm_num
  have hback : 1 - (2 - 2 * t) = 2 * t - 1 := by ring
  simp only [bounceEase, joined, reversed]
  rw [hhalf, htwo, one_rat, hback]
  split
  · rfl
  · ring

/-! ## Families -/

/-- How the variants of a family come from two motions; the back family draws back further where it
draws back on both sides. -/
structure Family.Plays (family : Family) (f g : Rat → Rat) : Prop where
  into : ∀ t, family.rational? .into t = some (f t)
  out : ∀ t, family.rational? .out t = some (reversed f t)
  inOut : ∀ t, family.rational? .inOut t = some (joined g t)
  motion : Motion f
  joint : Motion g

theorem plays_quad : Family.quad.Plays (· ^ 2) (· ^ 2) where
  into t := congrArg some (power_rat t 2)
  out t := by
    rw [Family.rational?, reversed, one_rat]
    ring_nf
  inOut t := congrArg some (powerEase_inOut two_ne_zero t)
  motion := motion_power two_ne_zero
  joint := motion_power two_ne_zero

theorem plays_power {family : Family} {n : Nat} (hn : n ≠ 0)
    (h : ∀ side t, family.rational? side t = some (powerEase n (t : Rat) side)) :
    family.Plays (· ^ n) (· ^ n) where
  into t := (h .into t).trans (congrArg some (power_rat t n))
  out t := (h .out t).trans (congrArg some (powerEase_out n t))
  inOut t := (h .inOut t).trans (congrArg some (powerEase_inOut hn t))
  motion := motion_power hn
  joint := motion_power hn

theorem plays_back : Family.back.Plays (backIn backPull) (backIn backPullBoth) where
  into t := congrArg some (backEase_into t)
  out t := congrArg some (backEase_out t)
  inOut t := congrArg some (backEase_inOut t)
  motion := motion_backIn backPull
  joint := motion_backIn backPullBoth

theorem plays_bounce : Family.bounce.Plays (reversed bounceOut) (reversed bounceOut) where
  into t := congrArg some (bounceEase_into t)
  out t := by
    rw [reversed_reversed]
    rfl
  inOut t := congrArg some (bounceEase_inOut t)
  motion := motion_bounceOut.reversed
  joint := motion_bounceOut.reversed

theorem exists_plays_power {family : Family}
    (h : family ∈ [Family.quad, .cubic, .quart, .quint]) :
    ∃ n : Nat, family.Plays (· ^ n) (· ^ n) := by
  simp only [List.mem_cons, List.not_mem_nil, or_false] at h
  rcases h with rfl | rfl | rfl | rfl
  · exact ⟨2, plays_quad⟩
  · exact ⟨3, plays_power (by decide) fun _ _ => rfl⟩
  · exact ⟨4, plays_power (by decide) fun _ _ => rfl⟩
  · exact ⟨5, plays_power (by decide) fun _ _ => rfl⟩

section

variable [Elementary Rat] {family : Family}

theorem apply_of_rational? {side : Side} {t y : Rat} (h : family.rational? side t = some y) :
    apply (.ease side family) t = y := by
  simp only [apply, Family.apply, h]

theorem Family.Plays.apply (h : family.Plays f g) :
    Easing.apply (.ease .into family) = f ∧ Easing.apply (.ease .out family) = reversed f ∧
      Easing.apply (.ease .inOut family) = joined g :=
  ⟨funext fun t => apply_of_rational? (h.into t), funext fun t => apply_of_rational? (h.out t),
    funext fun t => apply_of_rational? (h.inOut t)⟩

/-- What holds of the three variants holds of each. -/
theorem Family.Plays.forall_side (h : family.Plays f g) {P : (Rat → Rat) → Prop} (hinto : P f)
    (hout : P (reversed f)) (hinOut : P (joined g)) (side : Side) :
    P (Easing.apply (.ease side family)) := by
  obtain ⟨heq, heq', heq''⟩ := h.apply
  cases side with
  | into => rwa [heq]
  | out => rwa [heq']
  | inOut => rwa [heq'']

/-- The laws of a family: `Out` is `In` backwards in time, `InOut` is its own reversal, and each
variant leads from 0 to 1. -/
structure Family.Reverses (family : Family) : Prop where
  out : ∀ t : Rat,
    Easing.apply (.ease .out family) t = 1 - Easing.apply (.ease .into family) (1 - t)
  inOut : ∀ t : Rat,
    Easing.apply (.ease .inOut family) t + Easing.apply (.ease .inOut family) (1 - t) = 1
  motion : ∀ side, Motion (Easing.apply (.ease side family))

theorem Family.Plays.reverses (h : family.Plays f g) : family.Reverses := by
  obtain ⟨hinto, hout, hinOut⟩ := h.apply
  refine ⟨?_, ?_, h.forall_side h.motion h.motion.reversed h.joint.joined⟩
  · intro t
    rw [hinto, hout, reversed]
  · intro t
    rw [hinOut]
    exact h.joint.joined_add_joined t

theorem Family.Plays.mapsTo (h : family.Plays f g) (hf : MapsTo f (Icc 0 1) (Icc 0 1))
    (hg : MapsTo g (Icc 0 1) (Icc 0 1)) (side : Side) :
    MapsTo (Easing.apply (.ease side family)) (Icc (0 : Rat) 1) (Icc 0 1) :=
  h.forall_side (P := (MapsTo · (Icc 0 1) (Icc 0 1))) hf (mapsTo_reversed hf) (mapsTo_joined hg)
    side

/-- The families of rational formulas are reversible, all but the back family stay within the unit
interval, and the powers never go back. -/
theorem families_reversed :
    ∀ family ∈ [Family.quad, .cubic, .quart, .quint, .back, .bounce], family.Reverses ∧
      (family ≠ .back → ∀ side,
        MapsTo (Easing.apply (.ease side family)) (Icc (0 : Rat) 1) (Icc 0 1)) ∧
      (family ∈ [Family.quad, .cubic, .quart, .quint] → ∀ side,
        MonotoneOn (Easing.apply (.ease side family)) (Icc (0 : Rat) 1)) := by
  intro family hfamily
  by_cases hpower : family ∈ [Family.quad, .cubic, .quart, .quint]
  · obtain ⟨n, hplays⟩ := exists_plays_power hpower
    refine ⟨hplays.reverses, fun _ => hplays.mapsTo (mapsTo_power n) (mapsTo_power n), fun _ => ?_⟩
    exact hplays.forall_side (P := (MonotoneOn · (Icc 0 1))) (monotoneOn_power n)
      (monotoneOn_reversed (monotoneOn_power n))
      (monotoneOn_joined (monotoneOn_power n) (mapsTo_power n))
  · obtain rfl | rfl : family = .back ∨ family = .bounce := by
      simp only [List.mem_cons, List.not_mem_nil, or_false] at hfamily hpower
      tauto
    · exact ⟨plays_back.reverses, fun h => absurd rfl h, fun h => absurd h hpower⟩
    · have hmaps := mapsTo_reversed mapsTo_bounceOut
      exact ⟨plays_bounce.reverses, fun _ => plays_bounce.mapsTo hmaps hmaps,
        fun h => absurd h hpower⟩

end

/-- Something in place of the functions without rational values. -/
@[reducible] def standIns : Elementary Rat where
  sqrt x := x
  sin x := x
  cos x := x
  exp2 x := x
  pi := 3

theorem families_reversed_quart :
    Family.quart ∈ [Family.quad, .cubic, .quart, .quint, .back, .bounce] ∧
      @Family.Reverses standIns .quart ∧
      MonotoneOn (@Easing.apply Rat _ standIns (.ease .inOut .quart)) (Icc 0 1) ∧
      @Easing.apply Rat _ standIns (.ease .inOut .quart) (1 / 4) = 1 / 32 := by
  have hmem : Family.quart ∈ [Family.quad, .cubic, .quart, .quint, .back, .bounce] := by decide
  obtain ⟨hreverses, -, hmono⟩ := @families_reversed standIns .quart hmem
  exact ⟨hmem, hreverses, hmono (by decide) .inOut, by decide +kernel⟩

end Easing

end Segue
