import Mathlib
import Segue.Proofs.Timeline

/-!
# Exact numbers with infinities

Rational numbers, the two infinities, and a value that is no number. Among rational numbers nothing
is rounded; the other values behave as those of floats do. Zero has one sign only.
-/

namespace Segue

inductive Extended where
  | rational (q : Rat)
  | infinite (isNegative : Bool)
  | nan
  deriving DecidableEq

namespace Extended

def add : Extended → Extended → Extended
  | rational a, rational b => rational (a + b)
  | nan, _ => nan
  | _, nan => nan
  | infinite s, infinite t => if s = t then infinite s else nan
  | infinite s, rational _ => infinite s
  | rational _, infinite t => infinite t

def neg : Extended → Extended
  | rational a => rational (-a)
  | infinite s => infinite !s
  | nan => nan

/-- An infinity times a number: none for zero. -/
def scale (s : Bool) (a : Rat) : Extended :=
  if a = 0 then nan else infinite (s != decide (a < 0))

def mul : Extended → Extended → Extended
  | rational a, rational b => rational (a * b)
  | nan, _ => nan
  | _, nan => nan
  | infinite s, infinite t => infinite (s != t)
  | infinite s, rational a => scale s a
  | rational a, infinite t => scale t a

def div : Extended → Extended → Extended
  | rational a, rational b => if b = 0 then scale false a else rational (a / b)
  | nan, _ => nan
  | _, nan => nan
  | infinite _, infinite _ => nan
  | infinite s, rational b => infinite (s != decide (b < 0))
  | rational _, infinite _ => rational 0

def less : Extended → Extended → Bool
  | rational a, rational b => decide (a < b)
  | rational _, infinite t => !t
  | infinite s, rational _ => s
  | infinite s, infinite t => s && !t
  | _, _ => false

def atMost : Extended → Extended → Bool
  | rational a, rational b => decide (a ≤ b)
  | rational _, infinite t => !t
  | infinite s, rational _ => s
  | infinite s, infinite t => s || !t
  | _, _ => false

def same : Extended → Extended → Bool
  | rational a, rational b => decide (a = b)
  | infinite s, infinite t => s == t
  | _, _ => false

/-- A count of a number; infinities are cut to the least and the greatest count. -/
def count (ofRational : Rat → Nat) : Extended → Nat
  | rational q => ofRational q
  | infinite s => if s then 0 else maxCount
  | nan => 0

instance : Scalar Extended where
  add := add
  sub a b := add a (neg b)
  mul := mul
  div := div
  neg := neg
  lt a b := less a b = true
  le a b := atMost a b = true
  ofScientific m s e := rational (OfScientific.ofScientific m s e)
  less := less
  atMost := atMost
  less_iff _ _ := Iff.rfl
  atMost_iff _ _ := Iff.rfl
  same := same
  ofNat n := rational n
  isNaN x := x == nan
  isFinite
    | rational _ => true
    | _ => false
  toCount := count Scalar.toCount
  ceilCount := count Scalar.ceilCount
  roundCount := count Scalar.roundCount
  abs
    | rational q => rational (Scalar.abs q)
    | infinite _ => infinite false
    | nan => nan
  single := id

/-! ### Rational numbers among them -/

open Scalar

variable (a b : Rat)

theorem zero_eq : (0.0 : Extended) = rational 0 := congrArg rational zero_rat

theorem one_eq : (1.0 : Extended) = rational 1 := congrArg rational one_rat

@[simp] theorem rational_add : rational a + rational b = rational (a + b) := rfl

@[simp] theorem rational_sub : rational a - rational b = rational (a - b) :=
  congrArg rational (sub_eq_add_neg a b).symm

@[simp] theorem rational_mul : rational a * rational b = rational (a * b) := rfl

theorem rational_div {b : Rat} (hb : b ≠ 0) : rational a / rational b = rational (a / b) :=
  if_neg hb

@[simp] theorem rational_lt : rational a < rational b ↔ a < b := decide_eq_true_iff

@[simp] theorem rational_le : rational a ≤ rational b ↔ a ≤ b := decide_eq_true_iff

theorem exists_of_isFinite {x : Extended} (h : isFinite x = true) : ∃ q, x = rational q := by
  cases x with
  | rational q => exact ⟨q, rfl⟩
  | infinite s => cases h
  | nan => cases h

theorem exists_of_isPositive {x : Extended} (h : isPositive x = true) :
    ∃ q, x = rational q ∧ 0 < q := by
  rw [isPositive, Bool.and_eq_true, decide_eq_true_eq, zero_eq] at h
  obtain ⟨q, rfl⟩ := exists_of_isFinite h.1
  exact ⟨q, rfl, (rational_lt 0 q).mp h.2⟩

@[simp] theorem isPositive_rational : isPositive (rational a) = isPositive a := by
  refine Bool.eq_iff_iff.mpr ?_
  rw [isPositive_rat, isPositive, Bool.and_eq_true, decide_eq_true_eq, zero_eq, rational_lt]
  exact and_iff_right rfl

@[simp]
theorem greatest_rational : greatest (rational a) (rational b) = rational (greatest a b) := by
  by_cases h : b < a
  · exact (if_pos ((rational_lt b a).mpr h)).trans (congrArg rational (if_pos h).symm)
  · exact (if_neg (mt (rational_lt b a).mp h)).trans (congrArg rational (if_neg h).symm)

@[simp] theorem least_rational : least (rational a) (rational b) = rational (least a b) := by
  by_cases h : b < a
  · exact (if_pos ((rational_lt b a).mpr h)).trans (congrArg rational (if_pos h).symm)
  · exact (if_neg (mt (rational_lt b a).mp h)).trans (congrArg rational (if_neg h).symm)

@[simp] theorem clamp_rational (x lo hi : Rat) :
    clamp (rational x) (rational lo) (rational hi) = rational (clamp x lo hi) := by
  simp only [clamp, rational_lt]
  split
  · rfl
  · split <;> rfl

/-! ### Positions -/

open Timeline

/-- The position from 0 to 1 that a number stands for. -/
def position : Extended → Rat
  | rational q => max 0 (min q 1)
  | infinite s => if s then 0 else 1
  | nan => 0

theorem normalize_eq (x : Extended) : Timeline.normalize x = rational x.position := by
  cases x with
  | rational q => exact (clamp_rational q 0.0 1.0).trans (congrArg rational (clamp_rat q))
  | infinite s =>
      cases s with
      | false => exact one_eq
      | true => exact zero_eq
  | nan => exact zero_eq

theorem position_mem (x : Extended) : 0 ≤ x.position ∧ x.position ≤ 1 := by
  cases x with
  | rational q => exact ⟨le_max_left _ _, max_le zero_le_one (min_le_right _ _)⟩
  | infinite s => cases s <;> exact ⟨by decide, by decide⟩
  | nan => exact ⟨by decide, by decide⟩

theorem position_mono {x y : Extended} (h : x ≤ y) : x.position ≤ y.position := by
  cases x with
  | nan => cases h
  | rational a =>
      cases y with
      | nan => cases h
      | rational b => exact max_le_max_left 0 (min_le_min_right 1 ((rational_le a b).mp h))
      | infinite t =>
          cases t with
          | false => exact (position_mem (rational a)).2
          | true => cases h
  | infinite s =>
      cases s with
      | true => exact (position_mem y).1
      | false =>
          cases y with
          | nan | rational b => cases h
          | infinite t =>
              cases t with
              | false => exact le_rfl
              | true => cases h

theorem position_eq_zero {x : Extended} (h : ¬0.0 ≤ x) : x.position = 0 := by
  cases x with
  | nan => rfl
  | rational q =>
      rw [zero_eq, rational_le] at h
      exact max_eq_left (min_le_of_left_le (le_of_not_ge h))
  | infinite s =>
      cases s with
      | false => exact absurd rfl h
      | true => rfl

/-- Below 1 a number that is not below zero compares as its position does. -/
theorem le_position_iff {a : Rat} (ha : a ≤ 1) {x : Extended} (hx : 0.0 ≤ x) :
    a ≤ x.position ↔ rational a ≤ x := by
  cases x with
  | nan => cases hx
  | rational q =>
      rw [zero_eq, rational_le] at hx
      rw [rational_le, position, max_eq_right (le_min hx zero_le_one), le_min_iff]
      exact and_iff_left ha
  | infinite s =>
      cases s with
      | false => exact iff_of_true ha rfl
      | true => cases hx

theorem position_lt_iff {b : Rat} (hb : b ≤ 1) {x : Extended} (hx : 0.0 ≤ x) :
    x.position < b ↔ x < rational b := by
  rw [← not_le, le_position_iff hb hx]
  cases x with
  | nan => cases hx
  | rational q => rw [rational_le, rational_lt, not_le]
  | infinite s =>
      cases s with
      | false => exact iff_of_false (not_not_intro rfl) Bool.false_ne_true
      | true => cases hx

/-- What is not above zero is taken for zero; what is left beside infinity is rational. -/
theorem greatest_zero_cases (x : Extended) :
    (∃ q, greatest x 0.0 = rational q ∧ x.position = min q 1) ∨ x = infinite false := by
  have hzero : (0 : Rat) = min 0 1 := (min_eq_left zero_le_one).symm
  cases x with
  | nan => exact .inl ⟨0, zero_eq, hzero⟩
  | rational q =>
      rw [zero_eq, greatest_rational]
      rcases le_total 0 q with hq | hq
      · refine .inl ⟨q, ?_, max_eq_right (le_min hq zero_le_one)⟩
        rw [← zero_rat, greatest_zero_rat hq]
      · refine .inl ⟨0, ?_, (max_eq_left (min_le_of_left_le hq)).trans hzero⟩
        exact congrArg rational (if_neg (not_lt.mpr hq))
  | infinite s =>
      cases s with
      | false => exact .inr rfl
      | true => exact .inl ⟨0, zero_eq, hzero⟩

end Extended

/-!
## The timeline on all numbers

Durations that are accepted are rational numbers above zero, and so is a margin that is finite. From
then on everything that is resolved is rational, whatever number the position is.
-/

open Scalar Extended

namespace Timeline

/-- Exact parameters among all numbers. -/
def Params.rational (p : Params Rat) : Params Extended where
  transition := .rational p.transition
  startA := .rational p.startA
  startB := .rational p.startB
  durationA := .rational p.durationA
  durationB := .rational p.durationB
  margin := .rational p.margin

/-- An exact sample among all numbers. -/
def Sample.rational (s : Sample Rat) : Sample Extended where
  progress := .rational s.progress
  timeA := .rational s.timeA
  timeB := .rational s.timeB
  phase := s.phase
  total := .rational s.total
  time := .rational s.time

/-- A margin that leaves no more of a clip than there is. -/
structure Params.Safe (p : Params Rat) : Prop extends Params.Usable p where
  margin : 0 ≤ p.margin

variable {transition startA startB durationA durationB margin : Extended} {p : Params Extended}

theorem exists_finiteOrZero (x : Extended) : ∃ q, finiteOrZero x = .rational q := by
  cases x with
  | rational q => exact ⟨q, rfl⟩
  | infinite s => exact ⟨0.0, rfl⟩
  | nan => exact ⟨0.0, rfl⟩

/-- Accepted parameters are rational; a start that is not finite is the start of the clip. -/
theorem exists_rational_of_make
    (h : Params.make transition startA startB durationA durationB = .ok p)
    (hfinite : isFinite margin = true) (hmargin : 0.0 ≤ margin) :
    ∃ q : Params Rat, p.withMargin margin = q.rational ∧ q.Safe ∧
      durationA = .rational q.durationA ∧ transition = .rational q.transition ∧
      durationB = .rational q.durationB ∧ margin = .rational q.margin := by
  obtain ⟨htransition, hdurationA, hdurationB, rfl⟩ := make_eq_ok h
  obtain ⟨t, rfl, ht⟩ := exists_of_isPositive htransition
  obtain ⟨a, rfl, ha⟩ := exists_of_isPositive hdurationA
  obtain ⟨b, rfl, hb⟩ := exists_of_isPositive hdurationB
  obtain ⟨m, rfl⟩ := exists_of_isFinite hfinite
  obtain ⟨sA, hsA⟩ := exists_finiteOrZero startA
  obtain ⟨sB, hsB⟩ := exists_finiteOrZero startB
  rw [zero_eq, rational_le] at hmargin
  have hgreatest : greatest (Extended.rational m) 0.0 = .rational m := by
    rw [zero_eq, greatest_rational, ← zero_rat, greatest_zero_rat hmargin]
  refine ⟨⟨t, sA, sB, a, b, m⟩, ?_, ⟨⟨ht, ha, hb⟩, hmargin⟩, rfl, rfl, rfl, rfl⟩
  simp only [Params.withMargin, Params.rational, hsA, hsB, hgreatest]

@[simp] theorem total_rational (q : Params Rat) (mode : Mode) :
    q.rational.total mode = .rational (q.total mode) := by
  cases mode <;> rfl

theorem clampToClip_rational (time duration margin : Rat) :
    clampToClip (Extended.rational time) (.rational duration) (.rational margin) =
      .rational (clampToClip time duration margin) := by
  rw [clampToClip, rational_sub, least_rational, zero_eq, greatest_rational, ← zero_rat]
  rfl

theorem resolveStart_rational (start duration : Rat) :
    Params.resolveStart (Extended.rational start) (.rational duration) =
      .rational (Params.resolveStart start duration) := by
  simp only [Params.resolveStart, zero_eq, rational_lt, rational_add, greatest_rational, zero_rat]
  split <;> rfl

@[simp] theorem normalize_position (x : Extended) : Timeline.normalize x.position = x.position := by
  obtain ⟨hzero, hone⟩ := x.position_mem
  have hclamp : Timeline.normalize x.position = max 0 (min x.position 1) := clamp_rat _
  rw [hclamp, min_eq_left hone, max_eq_right hzero]

theorem resolveTransition_rational (q : Params Rat) (x : Extended) :
    resolveTransition x q.rational = (resolveTransition x.position q).rational := by
  simp only [resolveTransition, normalize_eq x, normalize_position, Params.clampA, Params.clampB,
    Params.startTimeA, Params.startTimeB, Params.rational, Sample.rational, rational_mul,
    resolveStart_rational, rational_add, clampToClip_rational]

theorem resolveFull_rational (q : Params Rat) (hq : q.transition ≠ 0) (x : Extended) :
    resolveFull x q.rational = (resolveFull x.position q).rational := by
  have hclampA (t : Rat) : q.rational.clampA (.rational t) = .rational (q.clampA t) :=
    clampToClip_rational t q.durationA q.margin
  have hclampB (t : Rat) : q.rational.clampB (.rational t) = .rational (q.clampB t) :=
    clampToClip_rational t q.durationB q.margin
  have hA : q.rational.durationA = .rational q.durationA := rfl
  have hT : q.rational.transition = .rational q.transition := rfl
  unfold resolveFull
  simp only [normalize_eq x, normalize_position, total_rational, hA, hT, rational_mul, rational_add,
    rational_sub, rational_lt, hclampA, hclampB, rational_div _ hq, zero_eq, one_eq, clamp_rational]
  split
  · simp only [Sample.rational, zero_rat]
  · split
    · simp only [Sample.rational, zero_rat, one_rat]
    · simp only [Sample.rational, one_rat]

theorem resolve_rational {q : Params Rat} (h : q.Usable) (mode : Mode) (x : Extended) :
    resolve mode x q.rational = (resolve mode x.position q).rational := by
  cases mode with
  | transitionOnly => exact resolveTransition_rational q x
  | fullSequence => exact resolveFull_rational q h.transition.ne' x

end Timeline

end Segue
